import FormulaLang.Proofs.Text.Reads
import FormulaLang.Proofs.Token.Lexing

/-!
# How a lexer passes over characters

What a lexer does between two states, whatever its source answers: which reads it makes, what
becomes of their bytes, which characters it decodes and which it has behind it then. A failing
read ends this at once; it changes the reader and nothing else of the lexer.
-/
namespace FormulaLang

open Text (IsGroup IsCut decodeGroup isBlank isLineEnd)

namespace Lexer

/-- The place of the character to come is the one behind the character ahead. -/
def Coherent (l : Lexer) : Prop := l.upcoming = l.place.after l.ahead.toList

/-- The second lexer is reached from the first by decoding characters without a failure. -/
inductive Advances : Lexer → Lexer → Prop where
  | refl (l) : Advances l l
  | step {l m n} : l.advance = (none, m) → Advances m n → Advances l n

theorem Advances.trans {l m n : Lexer} (h : Advances l m) (k : Advances m n) : Advances l n := by
  induction h with
  | refl => exact k
  | step hm _ ih => exact .step hm (ih k)

/-- The lexer goes over these characters, the first of them ahead of it, without a failure. -/
inductive Crosses : Lexer → List Char → Lexer → Prop where
  | nil (l) : Crosses l [] l
  | cons {l m n c w} : l.ahead = some c → l.advance = (none, m) → Crosses m w n →
      Crosses l (c :: w) n

theorem Crosses.append {l m n : Lexer} {w w' : List Char} (h : Crosses l w m)
    (k : Crosses m w' n) : Crosses l (w ++ w') n := by
  induction h with
  | nil => exact k
  | cons ha hm _ ih => exact .cons ha hm (ih k)

/-- What a call takes that does not fail: white space and the longest lexeme behind it, or all
that is left, which is white space. -/
inductive Yields : Lexer → Piece → Lexer → Prop where
  | item {l m blanks taken answer} : l.Crosses (blanks ++ taken) m →
      (∀ c ∈ blanks, isBlank c = true) →
      Munch (l.place.after blanks) ((l.place.after blanks).after taken.dropLast) taken
        m.ahead.toList answer →
      Yields l ⟨blanks, taken, answer⟩ m
  | ending {l m blanks} : l.Crosses blanks m → (∀ c ∈ blanks, isBlank c = true) →
      m.ahead = none → Yields l ⟨blanks, [], .ok (.single .eof m.place)⟩ m

/-- From one lexer to another, these reads are made and these bytes used up. The character ahead
of the first one and those decoded are the ones passed and the one ahead of the second. -/
structure Passes (l : Lexer) (reads : List ReadAnswer) (bytes : List UInt8)
    (decoded passed : List Char) (m : Lexer) : Prop where
  uses : l.reader.Uses reads bytes m.reader
  chars : l.ahead.toList ++ decoded = passed ++ m.ahead.toList
  place : m.place = l.place.after passed
  coherent : m.Coherent

/-- The lexer passes over characters, and no read fails. Each group of bytes is a character. -/
structure Goes (l : Lexer) (reads : List ReadAnswer) (groups : List (List UInt8))
    (passed : List Char) (m : Lexer) : Prop where
  passes : l.Passes reads groups.flatten (groups.map decodeGroup) passed m
  unfailing : Unfailing reads
  groups : ∀ group ∈ groups, IsGroup group
  advances : l.Advances m

/-- The lexer passes over characters until a read fails, which loses bytes of one character. What
is ahead then, and all places, are what they were before the character that failed. -/
structure Breaks (l : Lexer) (reads : List ReadAnswer) (groups : List (List UInt8))
    (lost : List UInt8) (passed : List Char) (error : ReadError) (m : Lexer) : Prop where
  passes : l.Passes reads (groups.flatten ++ lost) (groups.map decodeGroup) passed m
  failsLast : FailsLast reads error
  groups : ∀ group ∈ groups, IsGroup group
  lost : IsCut lost
  unchanged : ∃ k, l.Advances k ∧ k.advance = (some error, m) ∧ m = { k with reader := m.reader }

section

variable {l m n : Lexer} {reads more : List ReadAnswer} {bytes bytes' lost : List UInt8}
  {groups groups' : List (List UInt8)} {decoded decoded' passed passed' text found : List Char}
  {error : ReadError} {kind : LongToken} {last place : Position}

theorem Passes.append (h : l.Passes reads bytes decoded passed m)
    (k : m.Passes more bytes' decoded' passed' n) :
    l.Passes (reads ++ more) (bytes ++ bytes') (decoded ++ decoded') (passed ++ passed') n := by
  refine ⟨h.uses.append k.uses, ?_, ?_, k.coherent⟩
  · rw [← List.append_assoc, h.chars, List.append_assoc, k.chars, List.append_assoc]
  · rw [k.place, h.place, Position.after_append]

theorem Passes.refl (h : l.Coherent) : l.Passes [] [] [] [] l := ⟨.refl _, by simp, rfl, h⟩

theorem Goes.refl (h : l.Coherent) : l.Goes [] [] [] l :=
  ⟨.refl h, unfailing_nil, List.forall_mem_nil _, .refl l⟩

theorem Goes.append (h : l.Goes reads groups passed m) (k : m.Goes more groups' passed' n) :
    l.Goes (reads ++ more) (groups ++ groups') (passed ++ passed') n where
  passes := by simpa using h.passes.append k.passes
  unfailing := h.unfailing.append k.unfailing
  groups := List.forall_mem_append.mpr ⟨h.groups, k.groups⟩
  advances := h.advances.trans k.advances

theorem Goes.breaks (h : l.Goes reads groups passed m)
    (k : m.Breaks more groups' lost passed' error n) :
    l.Breaks (reads ++ more) (groups ++ groups') lost (passed ++ passed') error n where
  passes := by simpa using h.passes.append k.passes
  failsLast := h.unfailing.failsLast k.failsLast
  groups := List.forall_mem_append.mpr ⟨h.groups, k.groups⟩
  lost := k.lost
  unchanged := by
    obtain ⟨x, hx, hf, he⟩ := k.unchanged
    exact ⟨x, h.advances.trans hx, hf, he⟩

/-! ## Single operations -/

theorem advance_goes (hl : l.Coherent) (h : l.advance = (none, m)) :
    ∃ reads groups, l.Goes reads groups l.ahead.toList m := by
  have advances : l.Advances m := .step h (.refl m)
  unfold advance at h
  split at h
  next => cases h
  next hr =>
    cases h
    refine ⟨[.nothing], [], ⟨Reader.readChar_none hr, by simp, hl, rfl⟩, by simp [Unfailing],
      List.forall_mem_nil _, advances⟩
  next hr =>
    cases h
    obtain ⟨reads, group, hp, hf, rfl⟩ := Reader.readChar_some hr
    have hu := Reader.Uses.of_fetches hp hf
    exact ⟨reads, [group], ⟨by simpa using hu, rfl, hl, rfl⟩, hf.unfailing,
      by simpa using hf.isGroup, advances⟩

theorem advance_breaks (hl : l.Coherent) (h : l.advance = (some error, m)) :
    ∃ reads lost, l.Breaks reads [] lost [] error m := by
  have failed := h
  unfold advance at h
  split at h
  next hr =>
    cases h
    obtain ⟨reads, lost, hu, hf, hc⟩ := Reader.readChar_error hr
    exact ⟨reads, lost, ⟨hu, by simp, rfl, hl⟩, hf, List.forall_mem_nil _, hc,
      l, .refl l, failed, rfl⟩
  next => cases h
  next => cases h

theorem advance_ahead (h : l.advance = (some error, m)) : m.ahead = l.ahead := by
  unfold advance at h
  split at h
  next => cases h; rfl
  next => cases h
  next => cases h

/-! ## Loops -/

theorem readOn_fails {c : Char} {kind' : LongToken} (ha : l.ahead = some c)
    (hc : kind.extend? c = some kind') (h : l.advance = (some error, m)) :
    l.readOn kind text last = (.error error, m) := by
  rw [readOn]
  split
  next hn => cases hn.symm.trans ha
  next hs =>
    cases hs.symm.trans ha
    split
    next hn => cases hn.symm.trans hc
    next =>
      split
      next hf => cases hf.symm.trans h; rfl
      next hf => cases hf.symm.trans h

theorem Crosses.goes {w : List Char} (hl : l.Coherent) (h : l.Crosses w m) :
    ∃ reads groups, l.Goes reads groups w m := by
  induction h with
  | nil => exact ⟨[], [], .refl hl⟩
  | cons ha hk _ ih =>
    obtain ⟨reads, groups, hg⟩ := advance_goes hl hk
    obtain ⟨more, groups', hm⟩ := ih hg.passes.coherent
    rw [ha] at hg
    exact ⟨_, _, hg.append hm⟩

theorem skipBlanks_crosses (h : l.skipBlanks = (none, m)) :
    ∃ blanks, l.Crosses blanks m ∧ (∀ c ∈ blanks, isBlank c = true) ∧
      ∀ c ∈ m.ahead, isBlank c = false := by
  fun_induction skipBlanks l with
  | case1 l ha =>
    cases h
    exact ⟨[], .nil _, List.forall_mem_nil _, by simp [ha]⟩
  | case2 => cases h
  | case3 l c ha hc k hk ih =>
    obtain ⟨blanks, hx, hb, he⟩ := ih h
    exact ⟨c :: blanks, .cons ha hk hx, List.forall_mem_cons.mpr ⟨hc, hb⟩, he⟩
  | case4 l c ha hc =>
    cases h
    exact ⟨[], .nil _, List.forall_mem_nil _, by simpa [ha] using hc⟩

theorem skipBlanks_breaks (hl : l.Coherent) (h : l.skipBlanks = (some error, m)) :
    ∃ reads groups lost blanks, l.Breaks reads groups lost blanks error m ∧
      (∀ c ∈ blanks, isBlank c = true) ∧ ∃ c, m.ahead = some c := by
  fun_induction skipBlanks l with
  | case1 => cases h
  | case2 l c ha hc error' k hk =>
    cases h
    obtain ⟨reads, lost, hb⟩ := advance_breaks hl hk
    exact ⟨_, _, _, _, hb, List.forall_mem_nil _, c, by rw [advance_ahead hk, ha]⟩
  | case3 l c ha hc k hk ih =>
    obtain ⟨reads, groups, hg⟩ := advance_goes hl hk
    obtain ⟨more, groups', lost, blanks, hm, hb, he⟩ := ih hg.passes.coherent h
    rw [ha] at hg
    exact ⟨_, _, _, _, hg.breaks hm, List.forall_mem_cons.mpr ⟨hc, hb⟩, he⟩
  | case4 => cases h

/-- Reading on goes over characters that belong to the token, up to one that does not. -/
theorem readOn_crosses (hl : l.Coherent) (h : l.readOn kind text last = (.ok (found, place), m)) :
    ∃ w kind', l.Crosses w m ∧ found = text.reverse ++ w ∧ kind.after? w = some kind' ∧
      (∀ d ∈ m.ahead, kind'.extend? d = none) ∧
      ∀ c, l.place = last.next (isLineEnd c) → place = last.after (c :: w).dropLast := by
  fun_induction readOn l kind text last with
  | case1 l kind text last ha =>
    cases h
    exact ⟨[], kind, .nil _, by simp, rfl, by simp [ha], by simp⟩
  | case2 l kind text last d ha hd =>
    cases h
    exact ⟨[], kind, .nil _, by simp, rfl, by simpa [ha] using hd, by simp⟩
  | case3 => cases h
  | case4 l kind text last d ha next hd k hk ih =>
    obtain ⟨reads, groups, hg⟩ := advance_goes hl hk
    obtain ⟨w, kind', hx, rfl, hw, he, hp⟩ := ih hg.passes.coherent h
    refine ⟨d :: w, kind', .cons ha hk hx, by simp, by simp [hd, hw], he, fun c hc => ?_⟩
    have second : k.place = l.place.next (isLineEnd d) := by
      simpa [ha] using hg.passes.place
    rw [hp d second, hc]
    simp

theorem readOn_breaks (hl : l.Coherent) (h : l.readOn kind text last = (.error error, m)) :
    ∃ reads groups lost w d kind', l.Breaks reads groups lost w error m ∧ m.ahead = some d ∧
      kind.after? (w ++ [d]) = some kind' := by
  fun_induction readOn l kind text last with
  | case1 => cases h
  | case2 => cases h
  | case3 l kind text last d ha next hd error' k hk =>
    cases h
    obtain ⟨reads, lost, hb⟩ := advance_breaks hl hk
    exact ⟨_, _, _, _, d, next, hb, by rw [advance_ahead hk, ha], by simp [hd]⟩
  | case4 l kind text last d ha next hd k hk ih =>
    obtain ⟨reads, groups, hg⟩ := advance_goes hl hk
    obtain ⟨more, groups', lost, w, e, kind', hm, he, hw⟩ := ih hg.passes.coherent h
    rw [ha] at hg
    exact ⟨_, _, _, _, e, kind', hg.breaks hm, he, by simp [hd, hw]⟩

/-! ## One call -/

theorem finish_readable (kind : LongToken) (text : List Char) (first last : Position) :
    kind.finish text first last ≠ .error (.unreadable error) := by
  unfold LongToken.finish
  intro h
  split at h
  next => cases h
  next => split at h <;> cases h

theorem next_yields {answer : Except TokenError Lexeme} (hl : l.Coherent)
    (h : l.next = (answer, m)) (readable : ∀ error, answer ≠ .error (.unreadable error)) :
    ∃ blanks taken, l.Yields ⟨blanks, taken, answer⟩ m := by
  unfold Lexer.next at h
  split at h
  next error _ hskip =>
    cases h
    exact absurd rfl (readable error)
  next k hskip =>
    obtain ⟨blanks, hx, hall, he⟩ := skipBlanks_crosses hskip
    obtain ⟨_, _, hg⟩ := hx.goes hl
    split at h
    next ha =>
      cases h
      exact ⟨blanks, [], .ending hx hall ha⟩
    next c ha =>
      split at h
      next error _ _ =>
        cases h
        exact absurd rfl (readable error)
      next n hadvance =>
        have hn : k.Crosses [c] n := .cons ha hadvance (.nil n)
        obtain ⟨_, _, hgn⟩ := hn.goes hg.passes.coherent
        -- The character has been passed; a name or a number goes on with those behind it.
        split at h
        next hc =>
          cases h
          obtain ⟨notName, notNumber⟩ := LongToken.not_start_of_ofFirst? hc
          refine ⟨blanks, [c], .item (hx.append hn) hall ?_⟩
          rw [← hg.passes.place]
          exact .single notName notNumber (he c ha)
        next kind hc =>
          split at h
          next error _ _ =>
            cases h
            exact absurd rfl (readable error)
          next hread =>
            cases h
            obtain ⟨w, _, hw, rfl, hk, hr, hp⟩ := readOn_crosses hgn.passes.coherent hread
            refine ⟨blanks, c :: w, .item (hx.append (hn.append hw)) hall ?_⟩
            rw [← hg.passes.place, hp c hgn.passes.place]
            exact LongToken.munch_of_after? hc hk (by simpa using hr)

/-- A call that fails has gone over white space and perhaps the beginning of a name or a number,
which the character ahead goes on with. -/
theorem next_breaks (hl : l.Coherent) (h : l.next = (.error (.unreadable error), m)) :
    ∃ reads groups lost blanks taken c, l.Breaks reads groups lost (blanks ++ taken) error m ∧
      (∀ c ∈ blanks, isBlank c = true) ∧ m.ahead = some c ∧
      (taken = [] ∨ IsName (taken ++ [c]) ∨ IsNumeral (taken ++ [c])) := by
  unfold Lexer.next at h
  split at h
  next hskip =>
    cases h
    obtain ⟨reads, groups, lost, blanks, hb, hall, c, hc⟩ := skipBlanks_breaks hl hskip
    rw [← List.append_nil blanks] at hb
    exact ⟨_, _, _, _, _, c, hb, hall, hc, Or.inl rfl⟩
  next k hskip =>
    obtain ⟨blanks, hx, hall, he⟩ := skipBlanks_crosses hskip
    obtain ⟨_, _, hg⟩ := hx.goes hl
    split at h
    next => cases h
    next c ha =>
      split at h
      next hadvance =>
        cases h
        obtain ⟨more, lost, hb⟩ := advance_breaks hg.passes.coherent hadvance
        have hc := (advance_ahead hadvance).trans ha
        exact ⟨_, _, _, _, _, c, hg.breaks hb, hall, hc, Or.inl rfl⟩
      next n hadvance =>
        have hn : k.Crosses [c] n := .cons ha hadvance (.nil n)
        obtain ⟨_, _, hgn⟩ := hn.goes hg.passes.coherent
        split at h
        next => cases h
        next kind hc =>
          split at h
          next hread =>
            cases h
            obtain ⟨_, _, _, w, d, _, hb, hd, hw⟩ := readOn_breaks hgn.passes.coherent hread
            exact ⟨_, _, _, _, _, d, hg.breaks (hgn.breaks hb), hall, hd,
              Or.inr (LongToken.isName_or_isNumeral hc hw)⟩
          next => exact absurd (Prod.mk.inj h).1 (finish_readable kind _ _ _)

end

end Lexer

end FormulaLang
