import FormulaLang.Text.Source
import FormulaLang.Token.Source

/-!
# From characters to tokens

A lexer looks one character ahead in a reader. White space is skipped; a name or a number is as
long as possible; every other character is a token of its own. Positions count decoded
characters. A failing read leaves the character ahead and all positions as they were, so the
next call goes on from there.
-/
namespace FormulaLang

/-- A reader, the character ahead of it with its place, and the place of the one after. -/
structure Lexer where
  reader : Reader
  ahead : Option Char
  place : Position
  upcoming : Position
  deriving DecidableEq, Repr

/-- The kinds of tokens that can be longer than one character. A number remembers whether its
point has been read. -/
inductive LongToken where
  | name
  | number (pointSeen : Bool)
  deriving DecidableEq, Repr

namespace LongToken

def ofFirst? (c : Char) : Option LongToken :=
  if Text.isNameStart c then some .name
  else if Text.isNumberStart c then some (.number (c = '.'))
  else none

/-- The kind of token after one more character, if the character can belong to it. A second
point never belongs to a number. -/
def extend? : LongToken → Char → Option LongToken
  | .name, c => if Text.isNamePart c then some .name else none
  | .number pointSeen, c =>
    if c = '.' then (if pointSeen then none else some (.number true))
    else if c.isDigit then some (.number pointSeen)
    else none

def finish (kind : LongToken) (text : List Char) (first last : Position) :
    Except TokenError Lexeme :=
  match kind with
  | .name => .ok ⟨.identifier (String.ofList text), first, last⟩
  | .number _ =>
    match Literal.read text with
    | .ok value => .ok ⟨.number value, first, last⟩
    | .error error =>
      .error (.malformedNumber (String.ofList text) error.message first last)

end LongToken

namespace Lexer

def remaining (l : Lexer) : Nat := l.reader.remaining + l.ahead.toList.length

def advance (l : Lexer) : Option ReadError × Lexer :=
  match l.reader.readChar with
  | (.error error, reader) => (some error, { l with reader })
  | (.ok none, reader) => (none, { l with reader, ahead := none, place := l.upcoming })
  | (.ok (some c), reader) =>
    (none, ⟨reader, some c, l.upcoming, l.upcoming.next (Text.isLineEnd c)⟩)

/-- A lexer at the start of a source. Its first character is decoded at once, which can fail. -/
def start (source : Source) : Option ReadError × Lexer :=
  advance ⟨⟨source, none⟩, none, .start, .start⟩

theorem remaining_advance_lt {l l' : Lexer} {c} (some_ahead : l.ahead = some c)
    (h : l.advance = (none, l')) : l'.remaining < l.remaining := by
  unfold advance at h
  split at h
  · cases h
  next read =>
    have kept := Reader.remaining_readChar_le read
    cases h
    simp only [remaining, some_ahead, Option.toList_none, Option.toList_some, List.length_nil,
      List.length_singleton]
    omega
  next read =>
    have lost := Reader.remaining_readChar_some read
    cases h
    simp only [remaining, some_ahead, Option.toList_some, List.length_singleton]
    omega

def skipBlanks (l : Lexer) : Option ReadError × Lexer :=
  match _ : l.ahead with
  | none => (none, l)
  | some c =>
    if Text.isBlank c then
      match _ : l.advance with
      | (some error, l') => (some error, l')
      | (none, l') => skipBlanks l'
    else (none, l)
termination_by l.remaining
decreasing_by exact remaining_advance_lt ‹_› ‹_›

/-- Goes on with a long token as far as possible. Gives its text and the place of its last
character; `text` holds what has been read of it, the latest character first. -/
def readOn (l : Lexer) (kind : LongToken) (text : List Char) (last : Position) :
    Except ReadError (List Char × Position) × Lexer :=
  match _ : l.ahead with
  | none => (.ok (text.reverse, last), l)
  | some c =>
    match kind.extend? c with
    | none => (.ok (text.reverse, last), l)
    | some kind' =>
      match _ : l.advance with
      | (some error, l') => (.error error, l')
      | (none, l') => readOn l' kind' (c :: text) l.place
termination_by l.remaining
decreasing_by exact remaining_advance_lt ‹_› ‹_›

/-- The next token. At the end of the input it is the end at the place reached, and no read
takes place. -/
def next (l : Lexer) : Except TokenError Lexeme × Lexer :=
  match l.skipBlanks with
  | (some error, l) => (.error (.unreadable error), l)
  | (none, l) =>
    match l.ahead with
    | none => (.ok (.single .eof l.place), l)
    | some c =>
      match l.advance with
      | (some error, l') => (.error (.unreadable error), l')
      | (none, l') =>
        match LongToken.ofFirst? c with
        | none => (.ok (.single (.ofChar c) l.place), l')
        | some kind =>
          match l'.readOn kind [c] l.place with
          | (.error error, l'') => (.error (.unreadable error), l'')
          | (.ok (text, last), l'') => (kind.finish text l.place last, l'')

theorem remaining_skipBlanks_le {l l' : Lexer} {answer} (h : l.skipBlanks = (answer, l')) :
    answer = none → l'.remaining ≤ l.remaining := by
  intro ok
  fun_induction skipBlanks l with
  | case1 => grind
  | case2 => grind
  | case3 _ _ ahead _ _ advanced ih =>
    exact Nat.le_trans (ih h) (Nat.le_of_lt (remaining_advance_lt ahead advanced))
  | case4 => grind

theorem remaining_readOn_le {l l' : Lexer} {kind text last found}
    (h : l.readOn kind text last = (.ok found, l')) : l'.remaining ≤ l.remaining := by
  fun_induction readOn l kind text last with
  | case1 => grind
  | case2 => grind
  | case3 => grind
  | case4 _ _ _ _ _ ahead _ _ _ advanced ih =>
    exact Nat.le_trans (ih h) (Nat.le_of_lt (remaining_advance_lt ahead advanced))

theorem remaining_next {l l' : Lexer} {t : Lexeme} (h : l.next = (.ok t, l'))
    (notEof : t.token.isEof = false) : l'.remaining < l.remaining := by
  unfold next at h
  split at h
  · cases h
  next skipped =>
    have kept := remaining_skipBlanks_le skipped rfl
    split at h
    · cases h
      simp [Lexeme.single, Token.isEof] at notEof
    next ahead =>
      split at h
      · cases h
      next advanced =>
        have lost := remaining_advance_lt ahead advanced
        split at h
        · cases h
          omega
        · split at h
          · cases h
          next readOn =>
            have more := remaining_readOn_le readOn
            have same := (Prod.mk.inj h).2
            subst same
            omega

end Lexer

instance : TokenSource Lexer where
  next := Lexer.next
  remaining := Lexer.remaining
  remaining_next := Lexer.remaining_next

end FormulaLang
