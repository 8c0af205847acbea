import FormulaLang.Text.Utf8

/-!
# Byte sources and the characters read from them

A source answers each read of one byte with a byte, with nothing, or with a failure; once its
planned answers are used up it has nothing for ever. A reader decodes the bytes as UTF-8. A byte
that cuts a group short is held back and starts the next character, so damage never spreads
to what follows. A failing read loses the bytes of the group it interrupts and nothing else.
-/
namespace FormulaLang

inductive ReadErrorKind where
  | other
  | interrupted
  | unexpectedEof
  | invalidData
  deriving DecidableEq, Repr

structure ReadError where
  kind : ReadErrorKind
  detail : String
  deriving DecidableEq, Repr

inductive ReadAnswer where
  | byte (value : UInt8)
  | nothing
  | failure (error : ReadError)
  deriving DecidableEq, Repr

/-- What a source will answer, and how many reads it has answered so far. -/
structure Source where
  upcoming : List ReadAnswer
  reads : Nat
  deriving DecidableEq, Repr

namespace Source

def ofAnswers (answers : List ReadAnswer) : Source := ⟨answers, 0⟩

def ofBytes (bytes : List UInt8) : Source := ofAnswers (bytes.map .byte)

def ofText (text : String) : Source := ofBytes text.toUTF8.toList

def read (s : Source) : ReadAnswer × Source :=
  match s.upcoming with
  | [] => (.nothing, ⟨[], s.reads + 1⟩)
  | answer :: rest => (answer, ⟨rest, s.reads + 1⟩)

end Source

/-- A source with at most one byte held back. -/
structure Reader where
  source : Source
  held : Option UInt8
  deriving DecidableEq, Repr

namespace Reader

def remaining (r : Reader) : Nat := r.source.upcoming.length + r.held.toList.length

def takeByte (r : Reader) : Except ReadError (Option UInt8) × Reader :=
  match r.held with
  | some byte => (.ok (some byte), ⟨r.source, none⟩)
  | none =>
    match r.source.read with
    | (.byte value, source) => (.ok (some value), ⟨source, none⟩)
    | (.nothing, source) => (.ok none, ⟨source, none⟩)
    | (.failure error, source) => (.error error, ⟨source, none⟩)

/-- Adds up to `want` continuation bytes to a group, and holds back a byte of another kind. -/
def fillGroup : Nat → List UInt8 → Reader → Except ReadError (List UInt8) × Reader
  | 0, group, r => (.ok group, r)
  | want + 1, group, r =>
    match r.takeByte with
    | (.error error, r) => (.error error, r)
    | (.ok none, r) => (.ok group, r)
    | (.ok (some byte), r) =>
      if Text.isContinuation byte then fillGroup want (group ++ [byte]) r
      else (.ok group, ⟨r.source, some byte⟩)

/-- The next character, or none at a read that delivers nothing. -/
def readChar (r : Reader) : Except ReadError (Option Char) × Reader :=
  match r.takeByte with
  | (.error error, r) => (.error error, r)
  | (.ok none, r) => (.ok none, r)
  | (.ok (some first), r) =>
    match fillGroup (Text.furtherBytes first) [first] r with
    | (.error error, r) => (.error error, r)
    | (.ok group, r) => (.ok (some (Text.decodeGroup group)), r)

theorem takeByte_held {r r' : Reader} {answer} (h : r.takeByte = (answer, r')) :
    r'.held = none := by
  unfold takeByte at h
  grind

theorem remaining_takeByte_some {r r' : Reader} {byte}
    (h : r.takeByte = (.ok (some byte), r')) : r'.remaining < r.remaining := by
  unfold takeByte Source.read at h
  unfold remaining
  grind

theorem remaining_takeByte_le {r r' : Reader} {answer} (h : r.takeByte = (answer, r')) :
    r'.remaining ≤ r.remaining := by
  unfold takeByte Source.read at h
  unfold remaining
  grind

theorem remaining_fillGroup_le {want group} {r r' : Reader} {answer}
    (h : fillGroup want group r = (answer, r')) : r'.remaining ≤ r.remaining := by
  fun_induction fillGroup want group r with
  | case1 => grind
  | case2 _ _ _ _ _ taken => grind [remaining_takeByte_le taken]
  | case3 _ _ _ _ taken => grind [remaining_takeByte_le taken]
  | case4 _ _ _ _ _ taken _ ih => exact Nat.le_trans (ih h) (remaining_takeByte_le taken)
  | case5 _ _ r _ r₁ taken _ =>
    have lost := remaining_takeByte_some taken
    have free := takeByte_held taken
    have kept : r'.remaining = r₁.remaining + 1 := by
      cases h
      simp [remaining, free]
    omega

theorem remaining_readChar_some {r r' : Reader} {c} (h : r.readChar = (.ok (some c), r')) :
    r'.remaining < r.remaining := by
  unfold readChar at h
  split at h
  · grind
  · grind
  next taken =>
    have lost := remaining_takeByte_some taken
    split at h
    · grind
    next filled =>
      have kept := remaining_fillGroup_le filled
      cases h
      omega

theorem remaining_readChar_le {r r' : Reader} {answer} (h : r.readChar = (answer, r')) :
    r'.remaining ≤ r.remaining := by
  unfold readChar at h
  split at h
  next taken => grind [remaining_takeByte_le taken]
  next taken => grind [remaining_takeByte_le taken]
  next taken =>
    have lost := remaining_takeByte_le taken
    split at h
    next filled => grind [remaining_fillGroup_le filled]
    next filled => grind [remaining_fillGroup_le filled]

end Reader

end FormulaLang
