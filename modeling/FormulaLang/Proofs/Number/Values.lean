import FormulaLang.Proofs.Number.Doubles
import FormulaLang.Proofs.Number.Nearest

/-!
# Doubles as rational numbers

Every finite double is a rational number: its rank counts units of 2^-1074 below zero or above.
Infinity and NaN are none.
-/
namespace FormulaLang.Magnitude

open Float.Model Float.Model.UnpackedFloat

/-- The number that a double denotes. Infinity and NaN denote none. -/
def value? (x : Float) : Option ℚ :=
  match x.toModel.unpack with
  | .finite sign mantissa exponent _ => some (sign.apply mantissa * 2 ^ exponent)
  | .zero _ => some 0
  | .infinity _ => none
  | .notANumber => none

/-! ## What a bit pattern denotes -/

section Bits

variable (x : Float)

def sign : Sign := if isNegative x then .negative else .positive

theorem exponent_toNat :
    (@unpackExponent Format.binary64 x.toBits.toBitVec).toNat = ofFloat x / block := by
  have hb : x.toBits.toNat < 2 ^ 64 := x.toBits.toNat_lt
  change x.toBits.toNat >>> 52 % 2 ^ 11 = _
  rw [Nat.shiftRight_eq_div_pow]
  simp only [ofFloat, signBit, block]
  omega

theorem mantissa_toNat :
    (@unpackMantissa Format.binary64 x.toBits.toBitVec).toNat = ofFloat x % block := by
  change x.toBits.toNat >>> 0 % 2 ^ 52 = _
  rw [Nat.shiftRight_zero]
  simp only [ofFloat, signBit, block]
  omega

theorem significand_toNat :
    (1#1 ++ @unpackMantissa Format.binary64 x.toBits.toBitVec).toNat =
      block + ofFloat x % block := by
  rw [← mantissa_toNat]
  change 2 ^ 52 ||| (@unpackMantissa Format.binary64 x.toBits.toBitVec).toNat = _
  rw [Nat.or_comm, Nat.or_two_pow_eq_add_of_lt (BitVec.isLt _), Nat.add_comm]
  rfl

theorem sign_ofBitVec :
    Sign.ofBitVec (@unpackSign Format.binary64 x.toBits.toBitVec) = sign x := by
  have hb : x.toBits.toNat < 2 ^ 64 := x.toBits.toNat_lt
  have hs : @unpackSign Format.binary64 x.toBits.toBitVec = 0#1 ↔
      ¬ signBit ≤ x.toBits.toNat := by
    rw [← BitVec.toNat_inj]
    change x.toBits.toNat >>> 63 % 2 ^ 1 = 0 ↔ _
    rw [Nat.shiftRight_eq_div_pow]
    simp only [signBit]
    omega
  by_cases h : signBit ≤ x.toBits.toNat
  · simp [Sign.ofBitVec, sign, isNegative, hs, h]
  · simp [Sign.ofBitVec, sign, isNegative, hs, h]

/-- What the double with a sign and a rank is. -/
inductive Unpacks (sign : Sign) : Nat → UnpackedFloat → Prop where
  | zero : Unpacks sign 0 (.zero sign)
  | finite {rank m : Nat} {e : Int} (s : Nat) (hm : 0 < m) : rank = s * block + m →
      e = s - 1074 → (s = 0 ∨ block ≤ m) → m < 2 * block → rank < infinite →
      Unpacks sign rank (.finite sign m e hm)
  | infinity : Unpacks sign infinite (.infinity sign)
  | nan {rank : Nat} : infinite < rank → Unpacks sign rank .notANumber

theorem unpacks : Unpacks (sign x) (ofFloat x) x.toModel.unpack := by
  have he := exponent_toNat x
  have hm := mantissa_toNat x
  have hs := sign_ofBitVec x
  have hd := Nat.div_add_mod' (ofFloat x) block
  have hr : ofFloat x < signBit := Nat.mod_lt _ (by decide)
  have hl : ofFloat x % block < block := Nat.mod_lt _ (by decide)
  change Unpacks _ _ (UnpackedFloat.unpack Format.binary64 x.toBits.toBitVec)
  unfold UnpackedFloat.unpack
  dsimp only
  rw [hs]
  split
  next h =>
    have top : ofFloat x / block = 2047 := he.symm.trans (congrArg BitVec.toNat h)
    split
    next h =>
      have low : ofFloat x % block = 0 := hm.symm.trans (congrArg BitVec.toNat h)
      rw [← hd, top, low]
      exact .infinity
    next h =>
      have low : ofFloat x % block ≠ 0 := fun h0 => h (BitVec.eq_of_toNat_eq (hm.trans h0))
      refine .nan ?_
      simp only [block, infinite] at *
      omega
  next h =>
    have top : ofFloat x / block ≠ 2047 := fun h0 => h (BitVec.eq_of_toNat_eq (he.trans h0))
    have hi : ofFloat x < infinite := by
      simp only [block, infinite, signBit] at *
      omega
    split
    next h =>
      have bottom : ofFloat x / block = 0 := he.symm.trans (congrArg BitVec.toNat h)
      split
      next h =>
        have low : ofFloat x % block = 0 := hm.symm.trans (congrArg BitVec.toNat h)
        rw [← hd, bottom, low]
        exact .zero
      next h =>
        refine .finite 0 _ ?_ ?_ (.inl rfl) ?_ hi
        · rw [hm, ← hd, bottom]
          simp
        · rw [he, bottom]
          rfl
        · rw [hm]
          omega
    next h =>
      have bottom : ofFloat x / block ≠ 0 := fun h0 => h (BitVec.eq_of_toNat_eq (he.trans h0))
      have hn := significand_toNat x
      refine .finite (ofFloat x / block - 1) _ ?_ ?_ (.inr ?_) ?_ hi
      · rw [hn]
        simp only [block] at *
        omega
      · rw [he]
        change _ - ((1023 : Int) + 52) = _
        omega
      · rw [hn]
        exact Nat.le_add_right ..
      · rw [hn]
        omega

end Bits

variable {x y : Float} {rank : Nat} {v : ℚ}

/-! ## Values -/

theorem units_strictMono : StrictMono units := fun _ _ => units_lt

theorem natCast_shiftLeft (m n : Nat) : ((m <<< n : Nat) : ℚ) = m * 2 ^ n := by
  rw [Nat.shiftLeft_eq, Nat.cast_mul, Nat.cast_pow, Nat.cast_ofNat]

theorem one_eq : (one : ℚ) = 2 ^ 1074 :=
  (natCast_shiftLeft 1 1074).trans (by rw [Nat.cast_one, one_mul])

theorem one_pos : (0 : ℚ) < one := by
  rw [one_eq]
  exact pow_pos two_pos _

theorem one_cast_ne_zero : (one : ℚ) ≠ 0 := ne_of_gt one_pos

theorem value?_eq (x : Float) : value? x = if ofFloat x < infinite then
    some (((sign x).apply (units (ofFloat x)) : ℤ) / one : ℚ) else none := by
  have h := unpacks x
  unfold value?
  generalize x.toModel.unpack = u at h ⊢
  generalize ofFloat x = rank at h ⊢
  cases h with
  | zero =>
    have hu : units 0 = 0 := by decide
    have hi : 0 < infinite := by decide
    cases sign x <;> simp [hu, hi, Sign.apply]
  | @finite _ m _ s _ hr he hs hb hi =>
    have hu : (units rank : ℚ) / one = m * 2 ^ (s - 1074 : ℤ) := by
      rw [hr, units_block hs (Nat.le_of_lt hb), natCast_shiftLeft, one_eq, mul_div_assoc,
        zpow_sub₀ two_ne_zero, zpow_natCast, zpow_ofNat]
    rw [if_pos hi, he]
    cases sign x <;> simp [Sign.apply, ← hu, neg_div]
  | infinity => rw [if_neg (Nat.lt_irrefl _)]
  | nan hi => rw [if_neg (Nat.not_lt_of_lt hi)]

theorem value?_toFloat (h : rank < infinite) :
    value? (toFloat false rank) = some (units rank / one : ℚ) := by
  rw [value?_eq, ofFloat_toFloat (Nat.le_of_lt h), if_pos h, sign,
    isNegative_toFloat (Nat.le_of_lt h)]
  rfl

theorem finite_of_value? (h : value? x = some v) :
    ofFloat x < infinite ∧ v = ((sign x).apply (units (ofFloat x)) : ℤ) / one := by
  rw [value?_eq] at h
  split at h
  next hi => exact ⟨hi, (Option.some.inj h).symm⟩
  next => cases h

theorem exists_of_value? (h : value? x = some v) :
    ∃ s ≤ infinite, v = units s / one ∨ v = -(units s / one) := by
  obtain ⟨hi, rfl⟩ := finite_of_value? h
  refine ⟨ofFloat x, Nat.le_of_lt hi, ?_⟩
  cases sign x with
  | positive => exact .inl rfl
  | negative =>
    refine .inr ?_
    rw [Sign.apply, Int.cast_neg, neg_div]
    rfl

theorem value?_positive (hx : isNegative x = false) (h : value? x = some v) :
    ofFloat x < infinite ∧ v = units (ofFloat x) / one ∧ x.toBits.toNat = ofFloat x := by
  obtain ⟨hi, rfl⟩ := finite_of_value? h
  have hr : (toFloat false (ofFloat x)).toBits.toNat = ofFloat x := toBits_toFloat (Nat.le_of_lt hi)
  rw [toFloat_ofFloat hx] at hr
  refine ⟨hi, ?_, hr⟩
  rw [sign, hx]
  rfl

/-- Only the sign of zero is lost. -/
theorem eq_of_value? (hs : isNegative x = isNegative y) (hx : value? x = some v)
    (hy : value? y = some v) : x = y := by
  obtain ⟨-, hv⟩ := finite_of_value? hx
  obtain ⟨-, hw⟩ := finite_of_value? hy
  have signs : sign x = sign y := by rw [sign, sign, hs]
  rw [hv, signs, div_left_inj' one_cast_ne_zero, Int.cast_inj] at hw
  have ranks : ofFloat x = ofFloat y := by
    apply units_strictMono.injective
    cases hy : sign y <;> rw [hy] at hw <;> simpa [Sign.apply] using hw
  rw [← toFloat_signed x, ← toFloat_signed y, hs, ranks]

end FormulaLang.Magnitude
