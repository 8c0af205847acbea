import FormulaLang.Number.Magnitude
import Mathlib

/-!
# Doubles and their ranks

A double is determined by its sign and its rank, and every rank up to that of infinity is the
rank of a double of either sign, because only the bit patterns of NaN beyond it stand for one
another.
-/
namespace FormulaLang.Magnitude

open Float.Model Float.Model.UnpackedFloat

/-- Up to infinity there is no NaN, whatever the sign. -/
theorem valid_of_le {bits : UInt64} (h : bits.toNat % signBit ≤ infinite) :
    Format.binary64.Valid bits.toBitVec := by
  refine ⟨fun he hm => absurd ?_ hm⟩
  have hb : bits.toNat < 2 ^ 64 := bits.toNat_lt
  have exponent : bits.toNat / 2 ^ 52 % 2 ^ 11 = 2047 := by
    rw [← Nat.shiftRight_eq_div_pow]
    exact congrArg BitVec.toNat he
  have mantissa : bits.toNat % 2 ^ 52 = 0 := by
    simp only [signBit, infinite] at h
    omega
  apply BitVec.eq_of_toNat_eq
  change (bits.toNat >>> 0) % 2 ^ 52 = 0
  rw [Nat.shiftRight_zero, mantissa]

theorem toBits_ofBits {bits : UInt64} (h : bits.toNat % signBit ≤ infinite) :
    (Float.ofBits bits).toBits = bits :=
  UInt64.toBitVec_inj.mp (pack_unpack_of_valid (valid_of_le h))

variable {negative : Bool} {rank : Nat} {x : Float}

theorem toBits_toFloat (h : rank ≤ infinite) :
    (toFloat negative rank).toBits.toNat = if negative then signBit + rank else rank := by
  have hi : infinite < signBit := by decide
  have hs : signBit + signBit = UInt64.size := by decide
  have hn : (UInt64.ofNat (if negative then signBit + rank else rank)).toNat =
      if negative then signBit + rank else rank := by
    refine UInt64.toNat_ofNat_of_lt' ?_
    split <;> omega
  rw [toFloat, toBits_ofBits, hn]
  rw [hn]
  have hr : rank % signBit = rank := Nat.mod_eq_of_lt (Nat.lt_of_le_of_lt h hi)
  split
  · rwa [Nat.add_mod_left, hr]
  · rwa [hr]

/-- The double has no sign and is no NaN, so it is zero, a positive number or infinity. -/
def IsNonnegative (x : Float) : Prop := isNegative x = false ∧ ofFloat x ≤ infinite

theorem ofFloat_toFloat (h : rank ≤ infinite) : ofFloat (toFloat negative rank) = rank := by
  have hr : rank % signBit = rank := Nat.mod_eq_of_lt (Nat.lt_of_le_of_lt h (by decide))
  rw [ofFloat, toBits_toFloat h]
  split
  · rw [Nat.add_mod_left, hr]
  · exact hr

theorem isNegative_toFloat (h : rank ≤ infinite) :
    isNegative (toFloat negative rank) = negative := by
  have hs : rank < signBit := Nat.lt_of_le_of_lt h (by decide)
  rw [isNegative, toBits_toFloat h]
  cases negative with
  | false => exact decide_eq_false (Nat.not_le_of_lt hs)
  | true => exact decide_eq_true (Nat.le_add_right ..)

theorem isNonnegative_toFloat (h : rank ≤ infinite) : IsNonnegative (toFloat false rank) :=
  ⟨isNegative_toFloat h, (ofFloat_toFloat h).symm ▸ h⟩

/-- A double is put together again from its sign and its rank. -/
theorem toFloat_signed (x : Float) : toFloat (isNegative x) (ofFloat x) = x := by
  have hb : x.toBits.toNat < signBit + signBit := x.toBits.toNat_lt
  have hn : (if isNegative x then signBit + ofFloat x else ofFloat x) = x.toBits.toNat := by
    unfold isNegative ofFloat
    by_cases hs : signBit ≤ x.toBits.toNat
    · rw [decide_eq_true hs, if_pos rfl, Nat.mod_eq_sub_mod hs,
        Nat.mod_eq_of_lt (Nat.sub_lt_left_of_lt_add hs hb), Nat.add_sub_cancel' hs]
    · rw [decide_eq_false hs, if_neg Bool.false_ne_true,
        Nat.mod_eq_of_lt (Nat.lt_of_not_le hs)]
  rw [toFloat, hn, UInt64.ofNat_toNat]
  exact Float.ofBits_toBits x

theorem toFloat_ofFloat (h : isNegative x = false) : toFloat false (ofFloat x) = x := by
  rw [← h, toFloat_signed]

end FormulaLang.Magnitude
