import FormulaLang.Expr.Written
import FormulaLang.Proofs.Number.Doubles
import FormulaLang.Proofs.Number.Nearest
import FormulaLang.Proofs.Token.Lexemes

/-!
# Reading what was written

The text of a nonnegative number without an exponent is a numeral, and reads as the number. The
written digits are those of the shortest decimal less the zeros at their end, so what is read is
another decimal with the same value.
-/
namespace FormulaLang

/-! ## Digits -/

theorem digitsValue_append (cs ds : List Char) :
    digitsValue (cs ++ ds) = digitsValue cs * tenPow ds.length + digitsValue ds := by
  have h : Nat.ofDigitChars 10 (cs ++ ds) 0 =
      10 ^ ds.length * Nat.ofDigitChars 10 cs 0 + Nat.ofDigitChars 10 ds 0 := by
    rw [Nat.ofDigitChars_append, Nat.ofDigitChars_eq_ofDigitChars_zero]
  rw [Nat.mul_comm] at h
  exact h

@[simp] theorem digitsValue_zeros (n : Nat) : digitsValue (List.replicate n '0') = 0 :=
  Nat.ofDigitChars_replicate_zero

theorem digitsValue_powerOfTen (n : Nat) :
    digitsValue ('1' :: List.replicate n '0') = tenPow n := by
  have one : digitsValue ['1'] = 1 := by decide
  have h := digitsValue_append ['1'] (List.replicate n '0')
  simpa [one] using h

@[simp] theorem digitsValue_toDigits (n : Nat) : digitsValue (Nat.toDigits 10 n) = n :=
  Nat.ofDigitChars_toDigits (by decide) (by decide)

/-- ASCII digits and nothing else. -/
def AllDigits (cs : List Char) : Prop := ∀ c ∈ cs, c.isDigit = true

theorem AllDigits.append {cs ds : List Char} (h : AllDigits cs) (k : AllDigits ds) :
    AllDigits (cs ++ ds) :=
  List.forall_mem_append.mpr ⟨h, k⟩

theorem AllDigits.sublist {cs ds : List Char} (h : AllDigits ds) (k : cs.Sublist ds) :
    AllDigits cs :=
  fun c hc => h c (k.subset hc)

theorem allDigits_zeros (n : Nat) : AllDigits (List.replicate n '0') := by
  intro c hc
  obtain ⟨-, rfl⟩ := List.mem_replicate.mp hc
  decide

theorem AllDigits.count_point {cs : List Char} (h : AllDigits cs) : cs.count '.' = 0 :=
  List.count_eq_zero.mpr fun hc => absurd (h '.' hc) (by decide)

theorem allDigits_toDigits (n : Nat) : AllDigits (Nat.toDigits 10 n) :=
  fun _ hc => Nat.isDigit_of_mem_toDigits (by decide) (by decide) hc

/-! ## Numerals as numbers -/

namespace Literal

variable {w : List Char} {c : Char}

theorem toLower_of_numberStart (h : Text.isNumberStart c = true) : c.toLower = c := by
  have low : c.toNat ≤ 0x39 := by
    have h := Text.inRanges_number h
    simp [Text.inRanges] at h
    omega
  rw [Char.toLower, dif_neg]
  rintro ⟨high, -⟩
  have high : 65 ≤ c.toNat := high
  omega

theorem readName?_numeral (h : IsNumeral w) : readName? w = none := by
  obtain ⟨c, t, rfl⟩ := List.exists_cons_of_ne_nil h.nonempty
  have hc := h.start (List.mem_cons_self ..)
  have hi : c ≠ 'i' := by rintro rfl; exact absurd hc (by decide)
  have hn : c ≠ 'n' := by rintro rfl; exact absurd hc (by decide)
  simp [readName?, toLower_of_numberStart hc, hi, hn]

theorem splitSign_numeral (h : IsNumeral w) : splitSign w = (false, w) := by
  obtain ⟨c, t, rfl⟩ := List.exists_cons_of_ne_nil h.nonempty
  have hc := h.start (List.mem_cons_self ..)
  unfold splitSign
  split
  next h => cases h; exact absurd hc (by decide)
  next h => cases h; exact absurd hc (by decide)
  next => rfl

theorem read_numeral (h : IsNumeral w) : read w =
    match readDecimal? w with
    | some d => .ok (Magnitude.toFloat false d.rank)
    | none => .error .malformed := by
  cases hd : readDecimal? w with
  | some d => simp [read, h.nonempty, splitSign_numeral h, readUnsigned?, hd]
  | none =>
    simp [read, h.nonempty, splitSign_numeral h, readUnsigned?, hd, readName?_numeral h]

theorem isNonnegative_of_read {x : Float} (h : IsNumeral w) (hx : read w = .ok x) :
    Magnitude.IsNonnegative x := by
  rw [read_numeral h] at hx
  split at hx
  next d _ =>
    cases hx
    exact Magnitude.isNonnegative_toFloat (Decimal.rank_le_infinite d)
  next => cases hx

end Literal

/-! ## A whole part and places -/

namespace NumberFormat

variable {whole places digits : List Char}

/-- The text is a whole part and places, and the double that it writes has this rank. -/
def Writes (text : List Char) (rank : Nat) : Prop :=
  ∃ whole places, text = joinPoint whole places ∧ whole ≠ [] ∧ AllDigits whole ∧
    AllDigits places ∧ (Decimal.mk (digitsValue (whole ++ places)) (-places.length)).rank = rank

theorem isNumeral_joinPoint (hn : whole ≠ []) (hw : AllDigits whole) (hp : AllDigits places) :
    IsNumeral (joinPoint whole places) := by
  unfold joinPoint
  split
  · exact ⟨hn, fun c hc => .inl (hw c hc), by simp [hw.count_point]⟩
  · refine ⟨by simp, ?_, by simp [hw.count_point, hp.count_point]⟩
    intro c hc
    rcases List.mem_append.mp hc with hc | hc
    · exact .inl (hw c hc)
    · rcases List.mem_cons.mp hc with rfl | hc
      · exact .inr rfl
      · exact .inl (hp c hc)

theorem span_digits (rest : List Char) (hw : AllDigits whole)
    (hr : ∀ c ∈ rest.head?, c.isDigit = false) :
    (whole ++ rest).span Char.isDigit = (whole, rest) := by
  have stop : rest.takeWhile Char.isDigit = [] ∧ rest.dropWhile Char.isDigit = rest := by
    cases rest with
    | nil => exact ⟨rfl, rfl⟩
    | cons c rest => simp [hr c rfl]
  obtain ⟨ht, hd⟩ := stop
  rw [List.span_eq_takeWhile_dropWhile, List.takeWhile_append_of_pos hw,
    List.dropWhile_append_of_pos hw, ht, hd, List.append_nil]

theorem readDecimal?_whole (hw : AllDigits whole) : Literal.readDecimal? whole =
    if whole = [] then none else some ⟨digitsValue whole, 0⟩ := by
  have hs : whole.span Char.isDigit = (whole, []) := by simpa using span_digits [] hw
  simp only [Literal.readDecimal?, hs, Literal.splitFraction]
  cases whole with
  | nil => rfl
  | cons c whole => simp [Literal.readScale?]

theorem readDecimal?_point (hw : AllDigits whole) (hp : AllDigits places) :
    Literal.readDecimal? (whole ++ '.' :: places) =
      if whole = [] ∧ places = [] then none
      else some ⟨digitsValue (whole ++ places), -places.length⟩ := by
  have hs : (whole ++ '.' :: places).span Char.isDigit = (whole, '.' :: places) :=
    span_digits _ hw (by simp)
  have hf : places.span Char.isDigit = (places, []) := by simpa using span_digits [] hp
  simp only [Literal.readDecimal?, hs, Literal.splitFraction, hf]
  by_cases he : whole = [] ∧ places = []
  · simp [he]
  · rw [if_neg he, if_neg (by simpa [List.isEmpty_iff] using he)]
    simp [Literal.readScale?]

theorem readDecimal?_joinPoint (hn : whole ≠ []) (hw : AllDigits whole) (hp : AllDigits places) :
    Literal.readDecimal? (joinPoint whole places) =
      some ⟨digitsValue (whole ++ places), -places.length⟩ := by
  unfold joinPoint
  split
  next he =>
    obtain rfl : places = [] := List.isEmpty_iff.mp he
    rw [readDecimal?_whole hw, if_neg hn, List.append_nil]
    rfl
  next => rw [readDecimal?_point hw hp, if_neg fun he => hn he.1]

theorem Writes.isNumeral {text : List Char} {rank : Nat} (h : Writes text rank) :
    IsNumeral text := by
  obtain ⟨whole, places, rfl, hn, hw, hp, -⟩ := h
  exact isNumeral_joinPoint hn hw hp

theorem Writes.read {text : List Char} {rank : Nat} (h : Writes text rank) :
    Literal.read text = .ok (Magnitude.toFloat false rank) := by
  rw [Literal.read_numeral h.isNumeral]
  obtain ⟨whole, places, rfl, hn, hw, hp, rfl⟩ := h
  rw [readDecimal?_joinPoint hn hw hp]

/-! ## Positional text -/

/-- The digits without the zeros at their end are followed by zeros. -/
theorem exists_trimZeros (h : digits ≠ []) :
    ∃ n, digits = trimZeros digits ++ List.replicate n '0' := by
  have ends : digits = (digits.reverse.dropWhile (· = '0')).reverse ++
      (digits.reverse.takeWhile (· = '0')).reverse := by
    rw [← List.reverse_append, List.takeWhile_append_dropWhile, List.reverse_reverse]
  have zeros : (digits.reverse.takeWhile (· = '0')).reverse =
      List.replicate (digits.reverse.takeWhile (· = '0')).length '0' := by
    refine List.eq_replicate_iff.mpr ⟨List.length_reverse, fun c hc => ?_⟩
    have hc := List.all_eq_true.mp List.all_takeWhile c (List.mem_reverse.mp hc)
    exact of_decide_eq_true hc
  rw [zeros] at ends
  unfold trimZeros
  split
  next hz =>
    -- All the digits are zeros, and the first of them stays.
    rw [hz, List.nil_append] at ends
    obtain ⟨n, hl⟩ := Nat.exists_eq_add_of_lt (List.length_pos_iff.mpr h)
    refine ⟨n, ?_⟩
    rw [ends, List.length_replicate] at hl
    rw [ends, hl]
    simp [List.replicate_succ]
  next => exact ⟨_, ends⟩

/-- Positional text has the given digits and zeros around them, and a point where the weight
`10 ^ lead` of the first digit puts it. -/
theorem positionalText_spec (lead : Int) (hn : digits ≠ []) (hd : AllDigits digits) :
    ∃ whole places n, plain.positionalText digits lead = joinPoint whole places ∧ whole ≠ [] ∧
      AllDigits whole ∧ AllDigits places ∧
      digitsValue (whole ++ places) = digitsValue digits * tenPow n ∧
      (n : Int) - places.length = lead + 1 - digits.length := by
  cases lead with
  | ofNat k =>
    refine ⟨digits.take (k + 1) ++ List.replicate (k + 1 - digits.length) '0',
      digits.drop (k + 1), k + 1 - digits.length, ?_, ?_, ?_, ?_, ?_, ?_⟩
    · simp [positionalText, plain]
    · simp [hn]
    · exact (hd.sublist (List.take_sublist ..)).append (allDigits_zeros _)
    · exact hd.sublist (List.drop_sublist ..)
    · rcases Nat.le_total (k + 1) digits.length with hl | hl
      · simp [Nat.sub_eq_zero_of_le hl]
      · rw [List.take_of_length_le hl, List.drop_of_length_le hl, List.append_nil,
          digitsValue_append]
        simp
    · simp
      omega
  | negSucc k =>
    refine ⟨['0'], List.replicate k '0' ++ digits, 0, ?_, ?_, ?_, ?_, ?_, ?_⟩
    · simp [positionalText, plain]
    · simp
    · exact allDigits_zeros 1
    · exact (allDigits_zeros k).append hd
    · have he : ['0'] ++ (List.replicate k '0' ++ digits) =
          List.replicate (k + 1) '0' ++ digits := by
        simp [List.replicate_succ]
      rw [he, digitsValue_append]
      simp
    · simp
      omega

theorem trimZeros_ne_nil (digits : List Char) : trimZeros digits ≠ [] := by
  unfold trimZeros
  split
  · simp
  next h => exact h

theorem decimalText_writes (d : Decimal) : Writes (plain.decimalText d) d.rank := by
  obtain ⟨digits, exponent⟩ := d
  obtain ⟨z, hz⟩ := exists_trimZeros (Nat.toDigits_ne_nil (n := digits) (b := 10))
  have hd : AllDigits (trimZeros (Nat.toDigits 10 digits)) :=
    (hz ▸ allDigits_toDigits digits : AllDigits (_ ++ _)).sublist (List.sublist_append_left ..)
  have hv : digits = digitsValue (trimZeros (Nat.toDigits 10 digits)) * tenPow z := by
    have h := digitsValue_toDigits digits
    rw [hz, digitsValue_append] at h
    simpa using h.symm
  have hl := congrArg List.length hz
  rw [List.length_append, List.length_replicate] at hl
  obtain ⟨whole, places, n, ht, hn, hw, hp, hval, hlead⟩ := positionalText_spec
    (if digits = 0 then 0 else (Nat.toDigits 10 digits).length - 1 + exponent)
    (trimZeros_ne_nil _) hd
  refine ⟨whole, places, ht, hn, hw, hp, ?_⟩
  -- What is left compares two decimals with the digits `v` and different zeros behind them.
  generalize digitsValue (trimZeros (Nat.toDigits 10 digits)) = v at *
  rw [hval, hv]
  refine Decimal.rank_scaled ?_
  by_cases zero : digits = 0
  · left
    rw [zero] at hv
    exact (Nat.mul_eq_zero.mp hv.symm).resolve_right (Nat.ne_of_gt (tenPow_pos z))
  · right
    rw [if_neg zero] at hlead
    omega

end NumberFormat

/-! ## Numbers in formulas -/

open Magnitude (infinite one units IsNonnegative)
open NumberFormat (plain Writes)

variable {x : Float}

/-- A number beyond all doubles is read as infinity. -/
theorem largeNumber_writes : Writes ('1' :: List.replicate 309 '0') infinite := by
  refine ⟨'1' :: List.replicate 309 '0', [], rfl, List.cons_ne_nil _ _, ?_, by simp [AllDigits], ?_⟩
  · exact List.forall_mem_cons.mpr ⟨by decide, allDigits_zeros 309⟩
  · have hn : Decimal.numerator ⟨tenPow 309, 0⟩ = tenPow 309 := by simp [Decimal.numerator]
    have hd : Decimal.denominator ⟨tenPow 309, 0⟩ = 1 := by simp [Decimal.denominator]
    have large : units infinite * 1 ≤ tenPow 309 * one := by decide +kernel
    rw [List.append_nil, digitsValue_powerOfTen, List.length_nil, Int.natCast_zero, Int.neg_zero,
      Decimal.rank_eq_nearest, hn, hd]
    exact Magnitude.nearest_overflow large Nat.one_pos

theorem numberWritten_writes (h : IsNonnegative x) :
    Writes (Expr.numberWritten x).toList (Magnitude.ofFloat x) := by
  obtain ⟨hs, hr⟩ := h
  -- Only infinity is not written as its shortest decimal.
  rcases Nat.lt_or_eq_of_le hr with hr | hr
  · have hw := NumberFormat.decimalText_writes (Decimal.shortest (Magnitude.ofFloat x))
    rw [Decimal.rank_shortest hr] at hw
    simpa [Expr.numberWritten, NumberFormat.write, NumberFormat.magnitudeText, hs,
      Nat.ne_of_lt hr, Nat.not_lt_of_lt hr] using hw
  · rw [Expr.numberWritten, if_pos (by simp [hr, hs]), String.toList_ofList, hr]
    exact largeNumber_writes

theorem read_numberWritten (h : IsNonnegative x) :
    Literal.read (Expr.numberWritten x).toList = .ok x := by
  rw [(numberWritten_writes h).read, Magnitude.toFloat_ofFloat h.1]

end FormulaLang
