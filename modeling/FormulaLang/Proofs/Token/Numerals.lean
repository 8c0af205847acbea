import FormulaLang.Proofs.Number.Texts
import FormulaLang.Proofs.Number.NearestDouble
import FormulaLang.Proofs.Token.Places

/-!
# Numerals and the doubles they stand for

A numeral is digits, or digits around one point. It is malformed when there are no digits, and
else its double is the one nearest to the number that the digits denote, each by its distance
from the point.
-/
namespace FormulaLang

open Magnitude (ofRat RoundsTo)

/-- The number that a decimal digit stands for. -/
def digitValue (c : Char) : ℕ := c.toNat - '0'.toNat

/-- The number that a numeral denotes. The digits in front of the point count ones, tens and so
on from the right, and those behind it tenths, hundredths and so on from the left. -/
def numeralValue (w : List Char) : ℚ :=
  Nat.ofDigits 10 ((w.takeWhile (· ≠ '.')).reverse.map digitValue) +
    Nat.ofDigits 10⁻¹ (0 :: (w.dropWhile (· ≠ '.')).tail.map digitValue)

variable {w whole places cs rest trailing : List Char} {p first last : Position}
  {answer : Except TokenError Lexeme} {piece : Piece} {before after : List Piece}

/-! ## Digits by their places -/

theorem digitsValue_concat (cs : List Char) (c : Char) :
    digitsValue (cs ++ [c]) = 10 * digitsValue cs + digitValue c := List.foldl_concat ..

theorem ofDigits_whole (cs : List Char) :
    Nat.ofDigits (10 : ℚ) (cs.reverse.map digitValue) = digitsValue cs := by
  induction cs using List.reverseRecOn with
  | nil => rfl
  | append_singleton cs c ih =>
    rw [List.reverse_append, List.reverse_singleton, List.singleton_append, List.map_cons,
      Nat.ofDigits, ih, digitsValue_concat]
    push_cast
    ring

theorem ofDigits_places (cs : List Char) :
    Nat.ofDigits (10⁻¹ : ℚ) (0 :: cs.map digitValue) = digitsValue cs / 10 ^ cs.length := by
  induction cs with
  | nil => simp [Nat.ofDigits, digitsValue]
  | cons c cs ih =>
    have hd : digitsValue (c :: cs) = digitValue c * 10 ^ cs.length + digitsValue cs := by
      have first : digitsValue [c] = digitValue c := Nat.zero_add _
      rw [← List.singleton_append, digitsValue_append, first]
      rfl
    rw [Nat.ofDigits, Nat.cast_zero, zero_add] at ih
    rw [List.map_cons, Nat.ofDigits, Nat.ofDigits, Nat.cast_zero, zero_add, ih, hd,
      List.length_cons, pow_succ]
    push_cast
    field_simp

/-- The digits of a numeral on both sides of its point, if it has one. -/
theorem IsNumeral.parts (h : IsNumeral w) : AllDigits w ∨
    ∃ whole places, w = whole ++ '.' :: places ∧ AllDigits whole ∧ AllDigits places := by
  by_cases hp : '.' ∈ w
  · obtain ⟨whole, places, rfl⟩ := List.append_of_mem hp
    have hc := h.onePoint
    rw [List.count_append, List.count_cons_self] at hc
    have digits : ∀ cs : List Char, cs.count '.' = 0 → (∀ c ∈ cs, c.isDigit = true ∨ c = '.') →
        AllDigits cs := fun cs hz hd c hm =>
      (hd c hm).resolve_right fun he => List.count_eq_zero.mp hz (he ▸ hm)
    refine .inr ⟨whole, places, rfl, digits whole (by omega) fun c hm => ?_,
      digits places (by omega) fun c hm => ?_⟩
    · exact h.digits c (List.mem_append_left _ hm)
    · exact h.digits c (List.mem_append_right _ (List.mem_cons_of_mem _ hm))
  · exact .inl fun c hm => (h.digits c hm).resolve_right fun he => hp (he ▸ hm)

theorem AllDigits.ne_point (h : AllDigits cs) {c : Char} (hc : c ∈ cs) :
    decide (c ≠ '.') = true :=
  decide_eq_true fun he => absurd (he ▸ h c hc) (by decide)

theorem numeralValue_whole (hw : AllDigits w) :
    numeralValue w = (Decimal.mk (digitsValue w) 0).value := by
  have rest : w.dropWhile (· ≠ '.') = [] := List.dropWhile_eq_nil_iff.mpr fun c => hw.ne_point
  have front : w.takeWhile (· ≠ '.') = w := List.takeWhile_eq_self_iff.mpr fun c => hw.ne_point
  rw [numeralValue, rest, front, ofDigits_whole, List.tail_nil, ofDigits_places, Decimal.value]
  simp [digitsValue]

theorem numeralValue_point (hw : AllDigits whole) : numeralValue (whole ++ '.' :: places) =
    (Decimal.mk (digitsValue (whole ++ places)) (-places.length)).value := by
  have front : (whole ++ '.' :: places).takeWhile (· ≠ '.') = whole := by
    rw [List.takeWhile_append_of_pos fun c => hw.ne_point]
    simp
  have rest : (whole ++ '.' :: places).dropWhile (· ≠ '.') = '.' :: places := by
    rw [List.dropWhile_append_of_pos fun c => hw.ne_point]
    simp
  rw [numeralValue, front, rest, ofDigits_whole, List.tail_cons, ofDigits_places, Decimal.value,
    digitsValue_append, tenPow, Nat.pow_eq, zpow_neg, zpow_natCast]
  push_cast
  field_simp

theorem numeralValue_nonneg (h : IsNumeral w) : 0 ≤ numeralValue w := by
  rcases h.parts with hd | ⟨whole, places, rfl, hd, -⟩
  · rw [numeralValue_whole hd]
    exact Decimal.value_nonneg _
  · rw [numeralValue_point hd]
    exact Decimal.value_nonneg _

/-! ## The answer to a numeral -/

theorem Literal.read_lonePoint : Literal.read ['.'] = .error .malformed := by decide

theorem Literal.read_numeralValue (h : IsNumeral w) (hw : w ≠ ['.']) :
    Literal.read w = .ok (ofRat (numeralValue w)) := by
  rw [read_numeral h]
  rcases h.parts with hd | ⟨whole, places, rfl, hd, hp⟩
  · rw [NumberFormat.readDecimal?_whole hd, if_neg h.nonempty, numeralValue_whole hd]
    exact congrArg Except.ok (Decimal.toFloat_rank _)
  · have hn : ¬ (whole = [] ∧ places = []) := by
      rintro ⟨rfl, rfl⟩
      exact hw rfl
    rw [NumberFormat.readDecimal?_point hd hp, if_neg hn, numeralValue_point hd]
    exact congrArg Except.ok (Decimal.toFloat_rank _)

theorem Munch.finish (h : Munch first last w rest answer) (hw : IsNumeral w) :
    answer = (LongToken.number true).finish w first last := by
  cases h with
  | name hn =>
    obtain ⟨c, t, rfl, hc, -⟩ := hn
    have hs := Text.isNameStart_of_numberStart (hw.start (List.mem_cons_self ..))
    rw [hs] at hc
    cases hc
  | number _ _ hx => rw [LongToken.finish, hx]
  | malformed _ _ hx => rw [LongToken.finish, hx]
  | single _ hn _ =>
    rw [hw.start (List.mem_cons_self ..)] at hn
    cases hn

theorem isNumeral_point : IsNumeral ['.'] := ⟨by simp, by simp, by simp⟩

theorem Munch.pointAlone (h : Munch first last ['.'] rest answer) :
    answer = .error (.malformedNumber "." "invalid float literal" first last) := by
  rw [h.finish isNumeral_point, LongToken.finish, Literal.read_lonePoint]
  rfl

theorem Munch.numeral (h : Munch first last w rest answer) (hw : IsNumeral w) (hp : w ≠ ['.']) :
    answer = .ok ⟨.number (ofRat (numeralValue w)), first, last⟩ := by
  rw [h.finish hw, LongToken.finish, Literal.read_numeralValue hw hp]

/-- The lexer comes to every piece of the text. -/
theorem Lexer.Faces.reach {l : Lexer} (h : Faces l p cs)
    (hs : Splits p cs (before ++ after) trailing) :
    ∃ (k : Lexer) (rest : List Char), Emits l (before.map Piece.answer) k ∧
      cs = (before.flatMap fun q => q.blanks ++ q.lexeme) ++ rest ∧
      Faces k (p.after (before.flatMap fun q => q.blanks ++ q.lexeme)) rest ∧
      Splits (p.after (before.flatMap fun q => q.blanks ++ q.lexeme)) rest after trailing := by
  induction before generalizing l p cs with
  | nil => exact ⟨l, cs, .nil l, rfl, h, hs⟩
  | cons _ before ih =>
    cases hs with
    | piece hb hm hs =>
      obtain ⟨n, hn, hf⟩ := h.next_munch hb hm
      obtain ⟨k, rest, he, rfl, hk, hr⟩ := ih hf hs
      exact ⟨k, rest, .cons hn he, by simp, by simpa using hk, by simpa using hr⟩

/-! ## Numerals in a text -/

/-- A number is malformed only where it is a point alone; it is reported at the place of the
point, and the next call goes on behind it. Every other numeral gives the double nearest to the
number that it denotes, which depends on nothing but that number and is monotone in it. -/
theorem malformed_iff_lone_point {source : Source} (h : Reader.ReadsAs ⟨source, none⟩ cs)
    (hs : Splits .start cs (before ++ piece :: after) trailing) (hw : IsNumeral piece.lexeme) :
    ∃ (left rest : List Char) (l k m : Lexer),
      left = (before.flatMap fun q => q.blanks ++ q.lexeme) ++ piece.blanks ∧
      cs = left ++ (piece.lexeme ++ rest) ∧ Lexer.start source = (none, l) ∧
      Lexer.Emits l (before.map Piece.answer) k ∧ k.next = (piece.answer, m) ∧
      Lexer.Faces m (.ofIndex cs (left ++ piece.lexeme).length) rest ∧
      ((∃ text detail p q, piece.answer = .error (.malformedNumber text detail p q)) ↔
        piece.lexeme = ['.']) ∧
      (piece.lexeme = ['.'] → piece.answer = .error (.malformedNumber "." "invalid float literal"
        (.ofIndex cs left.length) (.ofIndex cs left.length))) ∧
      (piece.lexeme ≠ ['.'] → piece.answer = .ok ⟨.number (ofRat (numeralValue piece.lexeme)),
        .ofIndex cs left.length, .ofIndex cs (left ++ piece.lexeme.dropLast).length⟩) ∧
      (∀ x, RoundsTo (numeralValue piece.lexeme) x ↔ x = ofRat (numeralValue piece.lexeme)) ∧
      ∀ q, numeralValue piece.lexeme ≤ q → ofRat (numeralValue piece.lexeme) ≤ ofRat q := by
  have place : ∀ left rest, cs = left ++ rest →
      Position.start.after left = .ofIndex cs left.length := by
    rintro left rest rfl
    rw [Position.start_after, Position.ofIndex_length]
  obtain ⟨l, hl, hf⟩ := Lexer.start_faces h
  obtain ⟨k, behind, he, hcs, hk, hs⟩ := hf.reach hs
  generalize before.flatMap (fun q => q.blanks ++ q.lexeme) = text at hcs hk hs ⊢
  cases hs with
  | @piece _ blanks w rest answer _ _ hb hm _ =>
    obtain ⟨m, hnext, hface⟩ := hk.next_munch hb hm
    obtain ⟨body, final, hbody, hlast⟩ := hm.final
    have start := place (text ++ blanks) (w ++ rest) (by simp [hcs])
    have stop := place (text ++ blanks ++ body) (final :: rest) (by simp [hcs, hbody])
    have next := place (text ++ blanks ++ w) rest (by simp [hcs])
    simp only [Position.after_append] at start stop next
    rw [hlast, stop, start] at hm
    rw [next] at hface
    have positive := numeralValue_nonneg hw
    have lone : w = ['.'] → answer = .error (.malformedNumber "." "invalid float literal"
        (.ofIndex cs (text ++ blanks).length) (.ofIndex cs (text ++ blanks).length)) := by
      rintro rfl
      obtain rfl : body = [] := hlast.symm
      rw [List.append_nil] at hm
      exact hm.pointAlone
    refine ⟨text ++ blanks, rest, l, k, m, rfl, by simp [hcs], hl, he, hnext, hface,
      ⟨fun ⟨_, _, _, _, ha⟩ => ?_, fun hp => ⟨_, _, _, _, lone hp⟩⟩, lone, fun hp => ?_,
      fun x => ⟨fun hx => hx.unique (Magnitude.roundsTo_ofRat positive), ?_⟩,
      fun q hq => Magnitude.ofRat_mono positive hq⟩
    · by_contra hp
      cases ha.symm.trans (hm.numeral hw hp)
    · rw [hlast]
      exact hm.numeral hw hp
    · rintro rfl
      exact Magnitude.roundsTo_ofRat positive

def pointAlone : Piece :=
  ⟨[], ['.'], .error (.malformedNumber "." "invalid float literal" ⟨0, 0⟩ ⟨0, 0⟩)⟩

/-- The number three behind a blank, with a point at its end. -/
def pointedThree : Piece :=
  ⟨[' '], ['3', '.'], .ok ⟨.number (ofRat (numeralValue ['3', '.'])), ⟨0, 2⟩, ⟨0, 3⟩⟩⟩

theorem isNumeral_pointedThree : IsNumeral ['3', '.'] := ⟨by simp, by simp, by decide⟩

theorem splits_pointThenThree :
    Splits .start ['.', ' ', '3', '.'] [pointAlone, pointedThree] [] := by
  have blank : ∀ c ∈ [' '], Text.isBlank c = true := List.forall_mem_singleton.mpr (by decide)
  have value : Literal.read ['3', '.'] = .ok (ofRat (numeralValue ['3', '.'])) :=
    Literal.read_numeralValue isNumeral_pointedThree (by decide)
  have three : Splits ⟨0, 1⟩ ([' '] ++ (['3', '.'] ++ [])) [pointedThree] [] :=
    .piece blank (.number isNumeral_pointedThree (by simp [EndsNumeral]) value)
      (.done (List.forall_mem_nil _))
  exact .lexeme (w := ['.']) (.malformed isNumeral_point (by simp [EndsNumeral])
    Literal.read_lonePoint) three

theorem malformed_iff_lone_point_thenThree :
    Reader.ReadsAs ⟨.ofText ". 3.", none⟩ ['.', ' ', '3', '.'] ∧
    Splits .start ['.', ' ', '3', '.'] [pointAlone, pointedThree] [] ∧
    IsNumeral ['.'] ∧ IsNumeral ['3', '.'] ∧ numeralValue ['3', '.'] = 3 ∧
    (∃ l m : Lexer, Lexer.start (.ofText ". 3.") = (none, l) ∧
      l.next = (.error (.malformedNumber "." "invalid float literal" ⟨0, 0⟩ ⟨0, 0⟩), m) ∧
      Lexer.Faces m ⟨0, 1⟩ [' ', '3', '.']) ∧
    (∀ x, RoundsTo 3 x ↔ x = ofRat 3) ∧ ∀ q, 3 ≤ q → ofRat 3 ≤ ofRat q := by
  have h : Reader.ReadsAs ⟨.ofText ". 3.", none⟩ ['.', ' ', '3', '.'] :=
    Text.readsAs_ofText ". 3."
  have value : numeralValue ['3', '.'] = 3 := by
    have digit : AllDigits ['3'] := List.forall_mem_singleton.mpr (by decide)
    refine (@numeralValue_point ['3'] [] digit).trans ?_
    simp [Decimal.value, digitsValue]
  obtain ⟨left, rest, l, k, m, rfl, hcs, hl, he, hnext, hface, -⟩ :=
    @malformed_iff_lone_point _ _ pointAlone [] [pointedThree] _ h splits_pointThenThree
      isNumeral_point
  cases he
  obtain rfl : [' ', '3', '.'] = rest := (List.cons_inj_right '.').mp hcs
  obtain ⟨_, _, _, _, _, -, -, -, -, -, -, -, -, -, nearest, mono⟩ :=
    @malformed_iff_lone_point _ _ pointedThree [pointAlone] [] _ h splits_pointThenThree
      isNumeral_pointedThree
  rw [pointedThree, value] at nearest mono
  exact ⟨h, splits_pointThenThree, isNumeral_point, isNumeral_pointedThree, value,
    ⟨l, m, hl, hnext, hface⟩, nearest, mono⟩

end FormulaLang
