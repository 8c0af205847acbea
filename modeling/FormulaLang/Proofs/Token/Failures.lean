import FormulaLang.Proofs.Token.Passing

/-!
# What failing reads cost

A lexer may be called on after a failing read. The account of a call says what it read, decoded
and passed over; those of a whole run add up to everything read. All that a failure loses are the
bytes of the character it interrupts and, inside a name or a number, the characters in front of
the one ahead.
-/
namespace FormulaLang

open Text (IsGroup IsCut decodeGroup isBlank isLineEnd)

structure Turn where
  reads : List ReadAnswer
  /-- The bytes of each character that was decoded. -/
  groups : List (List UInt8)
  /-- The bytes of the character that was not. -/
  lost : List UInt8
  /-- The white space skipped. -/
  blanks : List Char
  /-- The characters taken behind it. -/
  taken : List Char
  answer : Except TokenError Lexeme

namespace Turn

def bytes (t : Turn) : List UInt8 := t.groups.flatten ++ t.lost

def decoded (t : Turn) : List Char := t.groups.map decodeGroup

def passed (t : Turn) : List Char := t.blanks ++ t.taken

/-- The account is that of a call which leads from one lexer to another. Unless a read fails, the
characters taken are a longest lexeme, and the answer stands for it. -/
inductive Accounts : Lexer → Turn → Lexer → Prop where
  | item {l m reads groups blanks taken answer} : l.Goes reads groups (blanks ++ taken) m →
      (∀ c ∈ blanks, isBlank c = true) →
      Munch (l.place.after blanks) ((l.place.after blanks).after taken.dropLast) taken
        m.ahead.toList answer →
      Accounts l ⟨reads, groups, [], blanks, taken, answer⟩ m
  | ending {l m reads groups blanks} : l.Goes reads groups blanks m →
      (∀ c ∈ blanks, isBlank c = true) → m.ahead = none →
      Accounts l ⟨reads, groups, [], blanks, [], .ok (.single .eof m.place)⟩ m
  | failure {l m reads groups lost blanks taken error c} :
      l.Breaks reads groups lost (blanks ++ taken) error m →
      (∀ c ∈ blanks, isBlank c = true) → m.ahead = some c →
      taken = [] ∨ IsName (taken ++ [c]) ∨ IsNumeral (taken ++ [c]) →
      Accounts l ⟨reads, groups, lost, blanks, taken, .error (.unreadable error)⟩ m

end Turn

open Turn (Accounts)

inductive Turns : Lexer → List Turn → Lexer → Prop where
  | nil (l) : Turns l [] l
  | cons {l m n turn turns} : l.next = (turn.answer, m) → Accounts l turn m → Turns m turns n →
      Turns l (turn :: turns) n

variable {l m n : Lexer} {turn : Turn} {turns : List Turn} {answer : Except TokenError Lexeme}
  {answers : List (Except TokenError Lexeme)}

theorem Turn.Accounts.passes (h : Accounts l turn m) :
    l.Passes turn.reads turn.bytes turn.decoded turn.passed m := by
  cases h with
  | item hg => simpa [Turn.bytes, Turn.decoded, Turn.passed] using hg.passes
  | ending hg => simpa [Turn.bytes, Turn.decoded, Turn.passed] using hg.passes
  | failure hb => exact hb.passes

theorem Turn.Accounts.span (h : Accounts l turn m) {first last : Position}
    (hs : span? turn.answer = some (first, last)) :
    first = l.place.after turn.blanks ∧ last = first.after turn.taken.dropLast := by
  cases h with
  | item _ _ hm =>
    cases hm.span.symm.trans hs
    exact ⟨rfl, rfl⟩
  | ending hg =>
    cases hs
    exact ⟨hg.passes.place, rfl⟩
  | failure => cases hs

theorem accounts_of_next (hl : l.Coherent) (h : l.next = (answer, m)) :
    ∃ turn, Accounts l turn m ∧ turn.answer = answer := by
  by_cases failed : ∃ error, answer = .error (.unreadable error)
  · obtain ⟨error, rfl⟩ := failed
    obtain ⟨reads, groups, lost, blanks, taken, c, hb, hall, hc, ht⟩ := Lexer.next_breaks hl h
    exact ⟨_, .failure hb hall hc ht, rfl⟩
  · obtain ⟨blanks, taken, hy⟩ :=
      Lexer.next_yields hl h fun error he => failed ⟨error, he⟩
    cases hy with
    | item hx hall hm =>
      obtain ⟨reads, groups, hg⟩ := hx.goes hl
      exact ⟨_, .item hg hall hm, rfl⟩
    | ending hx hall ha =>
      obtain ⟨reads, groups, hg⟩ := hx.goes hl
      exact ⟨_, .ending hg hall ha, rfl⟩

/-! ## Many calls -/

theorem turns_of_emits (hl : l.Coherent) (h : l.Emits answers m) :
    ∃ turns, turns.map Turn.answer = answers ∧ Turns l turns m := by
  induction h with
  | nil l => exact ⟨[], rfl, .nil l⟩
  | cons hn _ ih =>
    obtain ⟨turn, ha, rfl⟩ := accounts_of_next hl hn
    obtain ⟨turns, rfl, ht⟩ := ih ha.passes.coherent
    exact ⟨turn :: turns, rfl, .cons hn ha ht⟩

namespace Turns

theorem passes (hl : l.Coherent) (h : Turns l turns m) :
    l.Passes (turns.flatMap Turn.reads) (turns.flatMap Turn.bytes) (turns.flatMap Turn.decoded)
      (turns.flatMap Turn.passed) m := by
  induction h with
  | nil => exact .refl hl
  | cons _ ha _ ih =>
    simp only [List.flatMap_cons]
    exact ha.passes.append (ih ha.passes.coherent)

theorem split {before after : List Turn} (h : Turns l (before ++ turn :: after) n) :
    ∃ k m, Turns l before k ∧ Accounts k turn m := by
  induction before generalizing l with
  | nil =>
    cases h with
    | cons _ ha _ => exact ⟨l, _, .nil l, ha⟩
  | cons _ before ih =>
    cases h with
    | cons hn ha ht =>
      obtain ⟨k, m, hk, hm⟩ := ih ht
      exact ⟨k, m, .cons hn ha hk, hm⟩

theorem span {before after : List Turn} {first last : Position} (hl : l.Coherent)
    (h : Turns l (before ++ turn :: after) n) (hs : span? turn.answer = some (first, last)) :
    first = l.place.after (before.flatMap Turn.passed ++ turn.blanks) ∧
      last = first.after turn.taken.dropLast := by
  obtain ⟨k, m, hk, hm⟩ := h.split
  obtain ⟨rfl, rfl⟩ := hm.span hs
  simp [(hk.passes hl).place]

end Turns

/-- The books of a lexer that has been started and called on: all that its source answered, what
became of the bytes and of the characters, and where the lexer and its items stand. -/
structure Books (source : Source) (reads : List ReadAnswer) (groups : List (List UInt8))
    (turns : List Turn) (m : Lexer) : Prop where
  performed : source.Performs (reads ++ turns.flatMap Turn.reads) m.reader.source
  bytes : (reads ++ turns.flatMap Turn.reads).filterMap ReadAnswer.byte? =
    groups.flatten ++ turns.flatMap Turn.bytes ++ m.reader.held.toList
  chars : groups.map decodeGroup ++ turns.flatMap Turn.decoded =
    turns.flatMap Turn.passed ++ m.ahead.toList
  place : m.place = Position.start.after (turns.flatMap Turn.passed)
  upcoming : m.upcoming =
    Position.start.after (groups.map decodeGroup ++ turns.flatMap Turn.decoded)
  spans : ∀ before turn after first last, turns = before ++ turn :: after →
    span? turn.answer = some (first, last) →
      first = Position.start.after (before.flatMap Turn.passed ++ turn.blanks) ∧
        last = first.after turn.taken.dropLast

def Lexer.fresh (source : Source) : Lexer := ⟨⟨source, none⟩, none, .start, .start⟩

section

variable {source : Source} {reads : List ReadAnswer} {groups : List (List UInt8)} {c : Char}
  {cs : List Char}

theorem books (hl : (Lexer.fresh source).Goes reads groups [] l) (h : Turns l turns m) :
    Books source reads groups turns m := by
  have start : l.place = .start := hl.passes.place
  have coherent := hl.passes.coherent
  have all := hl.passes.append (h.passes coherent)
  rw [List.nil_append] at all
  refine ⟨all.uses.performed, all.uses.bytes, all.chars, all.place, ?_, ?_⟩
  · rw [all.coherent, all.place, ← Position.after_append, ← all.chars]
    rfl
  · rintro before turn after first last rfl hs
    rw [← start]
    exact h.span coherent hs

theorem Lexer.Coherent.faces (hl : l.Coherent) (ha : l.ahead = some c)
    (h : Reader.ReadsAs l.reader cs) : l.Faces l.place (c :: cs) := by
  obtain ⟨reader, ahead, place, upcoming⟩ := l
  cases ha
  have next : upcoming = place.next (isLineEnd c) := hl
  subst next
  exact .cons h

/-- Whatever the reads answer, every call has its account, and the books add up. A character that
is ahead goes on to be lexed at its place, with those that the source still delivers. -/
theorem failed_reads_lose_little (hs : Lexer.start source = (none, l))
    (he : Lexer.Emits l answers m) :
    ∃ reads groups turns, (Lexer.fresh source).Goes reads groups [] l ∧
      turns.map Turn.answer = answers ∧ Turns l turns m ∧ Books source reads groups turns m ∧
      ∀ c cs, m.ahead = some c → Reader.ReadsAs m.reader cs →
        ∃ n pieces trailing, Splits m.place (c :: cs) pieces trailing ∧
          Lexer.Emits m (pieces.map Piece.answer) n ∧
          n.next.1 = .ok (.single .eof (m.place.after (c :: cs))) := by
  obtain ⟨reads, groups, hg⟩ := Lexer.advance_goes (l := Lexer.fresh source) rfl hs
  have hg : (Lexer.fresh source).Goes reads groups [] l := hg
  obtain ⟨turns, ha, ht⟩ := turns_of_emits hg.passes.coherent he
  refine ⟨reads, groups, turns, hg, ha, ht, books hg ht, fun c cs hc hr => ?_⟩
  have coherent := (ht.passes hg.passes.coherent).coherent
  obtain ⟨pieces, trailing, hp⟩ := exists_splits m.place (c :: cs)
  obtain ⟨n, hn, hend⟩ := (coherent.faces hc hr).emits hp
  exact ⟨n, pieces, trailing, hp, hn, hend⟩

def failureInsideName : Source :=
  .ofAnswers [.byte 0x61, .byte 0x62, .byte 0xC3, .failure ⟨.other, "gone"⟩, .byte 0x2B]

/-- The byte and the letter in front of the one ahead are lost. The next calls begin with the
letter ahead, at its own place. -/
theorem failed_reads_lose_little_insideName : ∃ l m, Lexer.start failureInsideName = (none, l) ∧
    Lexer.Emits l [.error (.unreadable ⟨.other, "gone"⟩)] m ∧
    ∃ reads groups turns, Books failureInsideName reads groups turns m ∧
      ∃ n pieces trailing, Splits ⟨0, 1⟩ ['b', '+'] pieces trailing ∧
        Lexer.Emits m (pieces.map Piece.answer) n ∧ n.next.1 = .ok (.single .eof ⟨0, 3⟩) := by
  let gone : ReadAnswer := .failure ⟨.other, "gone"⟩
  let l : Lexer :=
    ⟨⟨⟨[.byte 0x62, .byte 0xC3, gone, .byte 0x2B], 1⟩, none⟩, some 'a', ⟨0, 0⟩, ⟨0, 1⟩⟩
  let k : Lexer := ⟨⟨⟨[.byte 0xC3, gone, .byte 0x2B], 2⟩, none⟩, some 'b', ⟨0, 1⟩, ⟨0, 2⟩⟩
  let m : Lexer := ⟨⟨⟨[.byte 0x2B], 4⟩, none⟩, some 'b', ⟨0, 1⟩, ⟨0, 2⟩⟩
  have start : Lexer.start failureInsideName = (none, l) := rfl
  have first : LongToken.ofFirst? 'a' = some .name := by decide +kernel
  have more : LongToken.name.extend? 'b' = some .name := by decide +kernel
  have skips : l.skipBlanks = (none, l) := Lexer.skipBlanks_stop fun c hc => by
    cases hc
    exact Text.isBlank_of_nameStart (by decide +kernel)
  have steps : l.advance = (none, k) := rfl
  have stops : k.readOn .name ['a'] ⟨0, 0⟩ = (.error ⟨.other, "gone"⟩, m) :=
    Lexer.readOn_fails rfl more rfl
  have fails : l.next = (.error (.unreadable ⟨.other, "gone"⟩), m) := by
    unfold Lexer.next
    rw [skips]
    dsimp only [l]
    rw [steps]
    simp only [first, stops]
  have rest : Reader.ReadsAs m.reader ['+'] := .cons rfl (.nil rfl)
  have emits := Lexer.Emits.cons fails (.nil m)
  obtain ⟨reads, groups, turns, -, -, -, hb, goesOn⟩ := failed_reads_lose_little start emits
  exact ⟨l, m, start, emits, reads, groups, turns, hb, goesOn 'b' ['+'] rfl rest⟩

end

end FormulaLang
