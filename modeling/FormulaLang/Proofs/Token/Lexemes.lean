import FormulaLang.Token.Lexer

/-!
# Lexemes of a text

A text is split into white space and lexemes without a lexer: `Munch` says which characters are
the longest lexeme in front of others and what stands for it, `Splits` goes on to the end of the
text. Every text has such a split.
-/
namespace FormulaLang

open Text (isBlank isNameStart isNamePart isNumberStart isLineEnd)

/-! ## Classes of characters -/

namespace Text

variable {c : Char} {ranges others : List (Nat × Nat)}

theorem inRanges_disjoint (h : ∀ a ∈ ranges, ∀ b ∈ others, a.2 < b.1 ∨ b.2 < a.1)
    (hc : inRanges ranges c = true) : inRanges others c = false := by
  obtain ⟨a, ha, hl⟩ := List.any_eq_true.mp hc
  rw [Bool.eq_false_iff]
  intro ho
  obtain ⟨b, hb, hm⟩ := List.any_eq_true.mp ho
  simp only [Bool.and_eq_true, decide_eq_true_eq] at hl hm
  rcases h a ha b hb with hd | hd <;> omega

theorem inRanges_number (h : isNumberStart c = true) :
    inRanges [(0x2E, 0x2E), (0x30, 0x39)] c = true := by
  simp only [isNumberStart, Char.isDigit, Bool.or_eq_true, Bool.and_eq_true, decide_eq_true_eq,
    UInt32.le_iff_toNat_le] at h
  rcases h with ⟨low, high⟩ | rfl
  · have hl : 0x30 ≤ c.toNat := low
    have hh : c.toNat ≤ 0x39 := high
    simp [inRanges, hl, hh]
  · decide

/-- No white space belongs to a name, so nothing of a name is skipped. -/
theorem isBlank_of_nameStart (h : isNameStart c = true) : isBlank c = false := by
  simp only [isNameStart, Bool.or_eq_true, decide_eq_true_eq] at h
  rcases h with h | rfl
  · exact inRanges_disjoint (by decide +kernel) h
  · decide

theorem isBlank_of_numberStart (h : isNumberStart c = true) : isBlank c = false :=
  inRanges_disjoint (by decide +kernel) (inRanges_number h)

theorem isNameStart_of_numberStart (h : isNumberStart c = true) : isNameStart c = false := by
  have ha : isAlphabetic c = false := inRanges_disjoint (by decide +kernel) (inRanges_number h)
  simp only [isNumberStart, Bool.or_eq_true, decide_eq_true_eq] at h
  rcases h with h | rfl
  · have hu : c ≠ '_' := by rintro rfl; revert h; decide
    simp [isNameStart, ha, hu]
  · simp [isNameStart, ha]

end Text

/-! ## Longest lexemes -/

/-- The place behind characters that start at a place. -/
def Position.after (p : Position) (cs : List Char) : Position :=
  cs.foldl (fun q c => q.next (isLineEnd c)) p

@[simp] theorem Position.after_nil (p : Position) : p.after [] = p := rfl

@[simp] theorem Position.after_cons (p : Position) (c : Char) (cs : List Char) :
    p.after (c :: cs) = (p.next (isLineEnd c)).after cs := rfl

@[simp] theorem Position.after_append (p : Position) (cs ds : List Char) :
    p.after (cs ++ ds) = (p.after cs).after ds := List.foldl_append

/-- A letter or an underscore, and then letters, ASCII digits and underscores. -/
def IsName (w : List Char) : Prop :=
  ∃ c t, w = c :: t ∧ isNameStart c = true ∧ ∀ d ∈ t, isNamePart d = true

/-- ASCII digits with at most one point among them, or a point alone. -/
structure IsNumeral (w : List Char) : Prop where
  nonempty : w ≠ []
  digits : ∀ c ∈ w, c.isDigit = true ∨ c = '.'
  onePoint : w.count '.' ≤ 1

/-- Nothing behind a name goes on with it. -/
def EndsName (rest : List Char) : Prop := ∀ c ∈ rest.head?, isNamePart c = false

/-- Nothing behind a numeral goes on with it: no digit, and no point unless it has one. -/
def EndsNumeral (w rest : List Char) : Prop :=
  ∀ c ∈ rest.head?, c.isDigit = false ∧ ('.' ∉ w → c ≠ '.')

/-- The longest lexeme in front of other characters, and what is returned for it when its first
and last characters stand at these places. -/
inductive Munch (first last : Position) :
    List Char → List Char → Except TokenError Lexeme → Prop where
  | name {w rest} : IsName w → EndsName rest →
      Munch first last w rest (.ok ⟨.identifier (String.ofList w), first, last⟩)
  | number {w rest x} : IsNumeral w → EndsNumeral w rest → Literal.read w = .ok x →
      Munch first last w rest (.ok ⟨.number x, first, last⟩)
  | malformed {w rest error} : IsNumeral w → EndsNumeral w rest → Literal.read w = .error error →
      Munch first last w rest
        (.error (.malformedNumber (String.ofList w) error.message first last))
  | single {c rest} : isNameStart c = false → isNumberStart c = false → isBlank c = false →
      Munch first last [c] rest (.ok ⟨.ofChar c, first, last⟩)

/-- The places of the first and the last character that an answer reports. A failing read has
none. -/
def span? : Except TokenError Lexeme → Option (Position × Position)
  | .ok l => some (l.first, l.last)
  | .error (.malformedNumber _ _ first last) => some (first, last)
  | .error (.unreadable _) => none

structure Piece where
  blanks : List Char
  lexeme : List Char
  answer : Except TokenError Lexeme

/-- A text from a place on is these pieces and white space behind them. -/
inductive Splits : Position → List Char → List Piece → List Char → Prop where
  | done {p trailing} : (∀ c ∈ trailing, isBlank c = true) → Splits p trailing [] trailing
  | piece {p blanks w rest answer pieces trailing} : (∀ c ∈ blanks, isBlank c = true) →
      Munch (p.after blanks) ((p.after blanks).after w.dropLast) w rest answer →
      Splits ((p.after blanks).after w) rest pieces trailing →
      Splits p (blanks ++ (w ++ rest)) (⟨blanks, w, answer⟩ :: pieces) trailing

variable {first last p : Position} {w rest cs trailing : List Char} {c : Char}
  {answer : Except TokenError Lexeme} {pieces : List Piece}

theorem IsNumeral.start (h : IsNumeral w) (hc : c ∈ w) : isNumberStart c = true := by
  simpa [isNumberStart] using h.digits c hc

theorem Munch.ne_nil (h : Munch first last w rest answer) : w ≠ [] := by
  cases h with
  | name hn =>
    obtain ⟨c, t, rfl, -, -⟩ := hn
    exact List.cons_ne_nil c t
  | number hn => exact hn.nonempty
  | malformed hn => exact hn.nonempty
  | single => exact List.cons_ne_nil _ _

theorem Munch.not_blank (h : Munch first last (c :: w) rest answer) : isBlank c = false := by
  cases h with
  | name hn =>
    obtain ⟨_, _, he, hs, -⟩ := hn
    cases he
    exact Text.isBlank_of_nameStart hs
  | number hn => exact Text.isBlank_of_numberStart (hn.start (List.mem_cons_self ..))
  | malformed hn => exact Text.isBlank_of_numberStart (hn.start (List.mem_cons_self ..))
  | single _ _ hb => exact hb

theorem Munch.span (h : Munch first last w rest answer) : span? answer = some (first, last) := by
  cases h <;> rfl

theorem Token.isEof_ofChar (c : Char) : (Token.ofChar c).isEof = false := by
  unfold Token.ofChar
  repeat' split
  all_goals rfl

theorem Munch.not_eof {l : Lexeme} (h : Munch first last w rest (.ok l)) :
    l.token.isEof = false := by
  cases h with
  | name => rfl
  | number => rfl
  | single => exact Token.isEof_ofChar _

theorem Splits.lexeme (h : Munch p (p.after w.dropLast) w rest answer)
    (hs : Splits (p.after w) rest pieces trailing) :
    Splits p (w ++ rest) (⟨[], w, answer⟩ :: pieces) trailing :=
  @Splits.piece p [] w rest answer pieces trailing (List.forall_mem_nil _) h hs

theorem Splits.concat (h : Splits p cs pieces trailing) :
    (pieces.flatMap fun piece => piece.blanks ++ piece.lexeme) ++ trailing = cs := by
  induction h with
  | done => rfl
  | piece _ _ _ ih => simp [← ih]

theorem Splits.of_mem (h : Splits p cs pieces trailing) {piece : Piece} (hp : piece ∈ pieces) :
    (∀ c ∈ piece.blanks, isBlank c = true) ∧
      ∃ first last rest, Munch first last piece.lexeme rest piece.answer := by
  induction h with
  | done => simp at hp
  | piece hb hm _ ih =>
    rcases List.mem_cons.mp hp with rfl | hp
    · exact ⟨hb, _, _, _, hm⟩
    · exact ih hp

theorem Splits.length_le (h : Splits p cs pieces trailing) : pieces.length ≤ cs.length := by
  induction h with
  | done => exact Nat.zero_le _
  | piece _ hm _ ih =>
    have hw := List.length_pos_iff.mpr hm.ne_nil
    simp only [List.length_cons, List.length_append]
    omega

/-! ## Every text has a split -/

/-- The longest numeral in front, given whether its point has been read. -/
theorem exists_numeral_end (pointSeen : Bool) (cs : List Char) : ∃ w rest, cs = w ++ rest ∧
    (∀ c ∈ w, c.isDigit = true ∨ c = '.') ∧ w.count '.' + pointSeen.toNat ≤ 1 ∧
    ∀ c ∈ rest.head?, c.isDigit = false ∧ ('.' ∉ w → pointSeen = false → c ≠ '.') := by
  induction cs generalizing pointSeen with
  | nil => exact ⟨[], [], rfl, by simp, by cases pointSeen <;> decide, by simp⟩
  | cons d cs ih =>
    by_cases hd : d.isDigit = true
    · have hp : d ≠ '.' := by rintro rfl; revert hd; decide
      obtain ⟨w, rest, rfl, hw, hc, he⟩ := ih pointSeen
      refine ⟨d :: w, rest, rfl, by simpa [hd] using hw, by simpa [hp] using hc, ?_⟩
      simpa [hp.symm] using he
    · rw [Bool.not_eq_true] at hd
      by_cases hp : d = '.' ∧ pointSeen = false
      · obtain ⟨rfl, rfl⟩ := hp
        obtain ⟨w, rest, rfl, hw, hc, he⟩ := ih true
        refine ⟨'.' :: w, rest, rfl, by simpa using hw, by simpa using hc, ?_⟩
        intro c hr
        exact ⟨(he c hr).1, by simp⟩
      · refine ⟨[], d :: cs, rfl, by simp, by cases pointSeen <;> decide, ?_⟩
        intro c hr
        cases hr
        exact ⟨hd, fun _ hs hc => hp ⟨hc, hs⟩⟩

theorem exists_run (p : Char → Bool) (cs : List Char) : ∃ w rest, cs = w ++ rest ∧
    (∀ c ∈ w, p c = true) ∧ ∀ c ∈ rest.head?, p c = false := by
  refine ⟨cs.takeWhile p, cs.dropWhile p, List.takeWhile_append_dropWhile.symm, ?_, ?_⟩
  · exact List.all_eq_true.mp List.all_takeWhile
  · intro c hc
    have h := List.head?_dropWhile_not p cs
    rw [Option.mem_def.mp hc] at h
    exact h

theorem exists_munch (cs : List Char) (hb : isBlank c = false) : ∃ w rest, c :: cs = w ++ rest ∧
    ∀ first last, ∃ answer, Munch first last w rest answer := by
  by_cases hn : isNameStart c = true
  · obtain ⟨t, rest, rfl, ht, he⟩ := exists_run isNamePart cs
    exact ⟨c :: t, rest, rfl, fun _ _ => ⟨_, .name ⟨c, t, rfl, hn, ht⟩ he⟩⟩
  · rw [Bool.not_eq_true] at hn
    by_cases hs : isNumberStart c = true
    · obtain ⟨w, rest, hw, hd, hp, he⟩ := exists_numeral_end false (c :: cs)
      have ne : w ≠ [] := by
        rintro rfl
        obtain rfl : c :: cs = rest := hw
        obtain ⟨hc, hd⟩ := he c rfl
        simp [isNumberStart, hc, hd] at hs
      have numeral : IsNumeral w := ⟨ne, hd, hp⟩
      have ends : EndsNumeral w rest := fun d hd => ⟨(he d hd).1, fun h => (he d hd).2 h rfl⟩
      refine ⟨w, rest, hw, fun _ _ => ?_⟩
      cases hr : Literal.read w with
      | ok x => exact ⟨_, .number numeral ends hr⟩
      | error error => exact ⟨_, .malformed numeral ends hr⟩
    · rw [Bool.not_eq_true] at hs
      exact ⟨[c], cs, rfl, fun _ _ => ⟨_, .single hn hs hb⟩⟩

theorem exists_splits (p : Position) (cs : List Char) :
    ∃ pieces trailing, Splits p cs pieces trailing := by
  -- A lexeme is never empty, so what is behind it is shorter.
  induction hn : cs.length using Nat.strongRecOn generalizing p cs with
  | ind n ih =>
    obtain ⟨blanks, more, rfl, hb, he⟩ := exists_run isBlank cs
    cases more with
    | nil => exact ⟨[], _, .done (by simpa using hb)⟩
    | cons c more =>
      obtain ⟨w, rest, hw, hm⟩ := exists_munch more (he c rfl)
      obtain ⟨answer, hm⟩ := hm (p.after blanks) ((p.after blanks).after w.dropLast)
      have hl := List.length_pos_iff.mpr hm.ne_nil
      have shorter : rest.length < n := by
        simp only [← hn, hw, List.length_append]
        omega
      obtain ⟨pieces, trailing, hs⟩ := ih _ shorter ((p.after blanks).after w) rest rfl
      rw [hw]
      exact ⟨_, trailing, .piece hb hm hs⟩

end FormulaLang
