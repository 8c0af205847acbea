import FormulaLang.Number.Shortest

/-!
# Rounding to the nearest rank

The values of the ranks are strictly increasing, and `atMost` goes the other way: a rank is at
most `atMost u` when its value is at most `u`. So the nearest rank depends on a quotient and not
on its numerator and denominator, and the rank of a decimal depends on its number alone.
-/
namespace FormulaLang.Magnitude

variable {rank s q u num den num' den' : Nat}

/-! ## Values of ranks -/

theorem units_add_block (h : q < block) : units (q + (s + 1) * block) = (block + q) <<< s := by
  have positive : 0 < block := by decide
  rw [units, if_neg (by rw [Nat.succ_mul]; omega), Nat.add_mul_mod_self_right,
    Nat.add_mul_div_right _ _ positive, Nat.mod_eq_of_lt h, Nat.div_eq_of_lt h, Nat.zero_add,
    Nat.add_sub_cancel]

/-- The ranks of one exponent are equally far apart, up to the first of the next. -/
theorem units_block (h : s = 0 ∨ block ≤ q) (hq : q ≤ 2 * block) :
    units (s * block + q) = q <<< s := by
  by_cases small : q < block
  · obtain rfl : s = 0 := h.resolve_right (Nat.not_le_of_lt small)
    simp [units, small]
  · obtain ⟨r, rfl⟩ := Nat.exists_eq_add_of_le (Nat.le_of_not_lt small)
    -- The last of these values is the first of the next exponent, counted twice as finely.
    rcases Nat.lt_or_eq_of_le (show r ≤ block by omega) with hr | rfl
    · have he : s * block + (block + r) = r + (s + 1) * block := by
        rw [Nat.add_mul]
        omega
      rw [he, units_add_block hr]
    · have he : s * block + (block + block) = 0 + (s + 1 + 1) * block := by
        rw [Nat.add_mul, Nat.add_mul]
        omega
      rw [he, units_add_block (by decide), Nat.shiftLeft_succ_inside, Nat.add_zero, Nat.two_mul]

theorem exists_units_block (rank : Nat) :
    ∃ s q, rank = s * block + q ∧ q < 2 * block ∧ (s = 0 ∨ block ≤ q) := by
  have positive : 0 < block := by decide
  by_cases small : rank < block
  · exact ⟨0, rank, by omega, by omega, .inl rfl⟩
  · have hd := Nat.div_add_mod' rank block
    have hm := Nat.mod_lt rank positive
    obtain ⟨s, hs⟩ := Nat.exists_eq_add_of_le (Nat.div_pos (Nat.le_of_not_lt small) positive)
    rw [hs, Nat.add_mul] at hd
    exact ⟨s, block + rank % block, by omega, by omega, .inr (Nat.le_add_right ..)⟩

theorem units_lt_succ (rank : Nat) : units rank < units (rank + 1) := by
  obtain ⟨s, q, rfl, hq, hs⟩ := exists_units_block rank
  have hs' : s = 0 ∨ block ≤ q + 1 := hs.imp_right Nat.le_succ_of_le
  rw [Nat.add_assoc, units_block hs (Nat.le_of_lt hq), units_block hs' hq, Nat.shiftLeft_eq,
    Nat.shiftLeft_eq]
  exact Nat.mul_lt_mul_of_pos_right (Nat.lt_succ_self q) (Nat.two_pow_pos s)

theorem units_lt {r r' : Nat} (h : r < r') : units r < units r' := by
  induction h with
  | refl => exact units_lt_succ r
  | step _ ih => exact Nat.lt_trans ih (units_lt_succ _)

/-! ## The highest rank that a value reaches -/

/-- The leading 53 bits of a value. -/
theorem leading_bits (u : Nat) :
    u >>> (Nat.log2 u - 52) < 2 * block ∧
      (Nat.log2 u - 52 = 0 ∨ block ≤ u >>> (Nat.log2 u - 52)) := by
  have hb : block = 2 ^ 52 := by decide
  rw [Nat.shiftRight_eq_div_pow]
  constructor
  · rw [Nat.div_lt_iff_lt_mul (Nat.two_pow_pos _), hb, ← Nat.pow_succ', ← Nat.pow_add]
    have hl : u < 2 ^ (Nat.log2 u + 1) := Nat.lt_log2_self
    exact Nat.lt_of_lt_of_le hl (Nat.pow_le_pow_right Nat.two_pos (by omega))
  · rcases Nat.eq_zero_or_pos (Nat.log2 u - 52) with hs | hs
    · exact .inl hs
    · refine .inr ?_
      have ne : u ≠ 0 := by rintro rfl; simp at hs
      rw [Nat.le_div_iff_mul_le (Nat.two_pow_pos _), hb, ← Nat.pow_add]
      have he : 52 + (Nat.log2 u - 52) = Nat.log2 u := by omega
      rw [he]
      exact Nat.log2_self_le ne

theorem units_atMost (u : Nat) : units (atMost u) ≤ u ∧ u < units (atMost u + 1) := by
  obtain ⟨hq, hs⟩ := leading_bits u
  have hs' := hs.imp_right (Nat.le_succ_of_le (n := block))
  rw [atMost, Nat.add_assoc, units_block hs (Nat.le_of_lt hq), units_block hs' hq,
    Nat.shiftLeft_eq, Nat.shiftLeft_eq, Nat.shiftRight_eq_div_pow]
  exact ⟨Nat.div_mul_le_self .., Nat.lt_mul_of_div_lt (Nat.lt_succ_self _) (Nat.two_pow_pos _)⟩

theorem le_atMost : rank ≤ atMost u ↔ units rank ≤ u := by
  obtain ⟨hl, hu⟩ := units_atMost u
  constructor
  · intro h
    rcases Nat.lt_or_eq_of_le h with h | rfl
    · exact Nat.le_of_lt (Nat.lt_of_lt_of_le (units_lt h) hl)
    · exact hl
  · intro h
    refine Nat.le_of_not_lt fun hr => ?_
    rcases Nat.lt_or_eq_of_le (Nat.succ_le_of_lt hr) with hr | rfl
    · exact Nat.lt_irrefl _ (Nat.lt_of_lt_of_le (Nat.lt_trans hu (units_lt hr)) h)
    · exact Nat.lt_irrefl _ (Nat.lt_of_lt_of_le hu h)

@[simp] theorem atMost_units (rank : Nat) : atMost (units rank) = rank := by
  apply Nat.le_antisymm
  · refine Nat.le_of_not_lt fun h => ?_
    exact Nat.lt_irrefl _ (Nat.lt_of_lt_of_le (units_lt h) (le_atMost.mp (Nat.le_refl _)))
  · exact le_atMost.mpr (Nat.le_refl _)

/-! ## The nearest rank -/

theorem nearest_le_infinite (num den : Nat) : nearest num den ≤ infinite := by
  unfold nearest
  dsimp only
  split
  · exact Nat.le_refl _
  · repeat' split
    all_goals omega

theorem nearest_overflow (h : units infinite * den ≤ num * one) (hd : 0 < den) :
    nearest num den = infinite := by
  have hl : infinite ≤ atMost (num * one / den) :=
    le_atMost.mpr ((Nat.le_div_iff_mul_le hd).mpr h)
  simp only [nearest, if_pos hl]

theorem nearest_underflow (h : 2 * (num * one) < den) : nearest num den = 0 := by
  have hz : num * one / den = 0 := Nat.div_eq_of_lt (by omega)
  have hl : atMost 0 = 0 := by decide
  have hu : units 0 + units (0 + 1) = 1 := by decide
  have hi : ¬ infinite ≤ 0 := by decide
  simp only [nearest, hz, hl, hu, Nat.one_mul, if_neg hi, if_pos h]

theorem nearest_exact (h : num * one = units rank * den) (hd : 0 < den) (hr : rank < infinite) :
    nearest num den = rank := by
  have low : 2 * (num * one) < (units rank + units (rank + 1)) * den := by
    rw [h, ← Nat.mul_assoc, Nat.two_mul]
    exact Nat.mul_lt_mul_of_pos_right (Nat.add_lt_add_left (units_lt_succ rank) _) hd
  have hl : atMost (num * one / den) = rank := by
    rw [h, Nat.mul_div_cancel _ hd, atMost_units]
  simp only [nearest, hl, if_neg (Nat.not_le_of_lt hr), if_pos low]

section Ratio

variable (h : num * den' = num' * den) (hd : 0 < den) (hd' : 0 < den')

include h hd hd'

theorem ratio_lt (k m : Nat) : (k * num < m * den ↔ k * num' < m * den') ∧
    (m * den < k * num ↔ m * den' < k * num') := by
  have hk : k * num * den' = k * num' * den := by rw [Nat.mul_assoc, h, Nat.mul_assoc]
  have hm : m * den * den' = m * den' * den := Nat.mul_right_comm ..
  constructor
  · rw [← Nat.mul_lt_mul_right hd', hk, hm, Nat.mul_lt_mul_right hd]
  · rw [← Nat.mul_lt_mul_right hd', hk, hm, Nat.mul_lt_mul_right hd]

theorem ratio_div : num / den = num' / den' := by
  rw [← Nat.mul_div_mul_right num den hd', h, Nat.mul_comm den den',
    Nat.mul_div_mul_right num' den' hd]

/-- The nearest rank is that of the quotient, in lowest terms or not. -/
theorem nearest_congr : nearest num den = nearest num' den' := by
  have ho : num * one * den' = num' * one * den := by
    rw [Nat.mul_right_comm, h, Nat.mul_right_comm]
  have below := fun k m => (ratio_lt ho hd hd' k m).1
  have above := fun k m => (ratio_lt ho hd hd' k m).2
  simp only [nearest, ratio_div ho hd hd', below, above]

end Ratio

end FormulaLang.Magnitude

namespace FormulaLang

@[simp] theorem tenPow_zero : tenPow 0 = 1 := rfl

theorem tenPow_pos (n : Nat) : 0 < tenPow n := Nat.pow_pos (by decide)

theorem tenPow_le {m n : Nat} (h : m ≤ n) : tenPow m ≤ tenPow n :=
  Nat.pow_le_pow_right (by decide) h

theorem tenPow_add (m n : Nat) : tenPow (m + n) = tenPow m * tenPow n := Nat.pow_add 10 m n

namespace Decimal

open Magnitude (infinite one units nearest)

variable {d e : Decimal}

/-- The number as a fraction of whole numbers. -/
def numerator (d : Decimal) : Nat := d.digits * tenPow d.exponent.toNat

def denominator (d : Decimal) : Nat := tenPow (-d.exponent).toNat

theorem denominator_pos (d : Decimal) : 0 < d.denominator := tenPow_pos _

theorem overflow (hd : d.digits ≠ 0) (he : 400 < d.exponent) :
    units infinite * d.denominator ≤ d.numerator * one := by
  have hz : (-d.exponent).toNat = 0 := by omega
  have hl : 401 ≤ d.exponent.toNat := by omega
  have big : tenPow 401 ≤ d.numerator := by
    calc tenPow 401
        ≤ tenPow d.exponent.toNat := tenPow_le hl
      _ ≤ d.numerator := Nat.le_mul_of_pos_left _ (Nat.pos_of_ne_zero hd)
  calc units infinite * d.denominator
      = units infinite := by rw [denominator, hz, tenPow_zero, Nat.mul_one]
    _ ≤ tenPow 401 * one := by decide +kernel
    _ ≤ d.numerator * one := Nat.mul_le_mul_right one big

theorem underflow (he : d.exponent + Nat.log2 d.digits < -400) :
    2 * (d.numerator * one) < d.denominator := by
  have hz : d.exponent.toNat = 0 := by omega
  have hl : 401 + Nat.log2 d.digits ≤ (-d.exponent).toNat := by omega
  have small : d.digits < 2 * 2 ^ Nat.log2 d.digits := by
    rw [← Nat.pow_succ']
    exact Nat.lt_log2_self
  calc 2 * (d.numerator * one)
      = 2 * one * d.digits := by
        rw [numerator, hz, tenPow_zero, Nat.mul_one, Nat.mul_comm d.digits, Nat.mul_assoc]
    _ < 2 * one * (2 * 2 ^ Nat.log2 d.digits) :=
        Nat.mul_lt_mul_of_pos_left small (by decide +kernel)
    _ = 4 * one * 2 ^ Nat.log2 d.digits := by
        rw [← Nat.mul_assoc, Nat.mul_right_comm 2 one 2]
    _ ≤ tenPow 401 * tenPow (Nat.log2 d.digits) :=
        Nat.mul_le_mul (by decide +kernel) (Nat.pow_le_pow_left (by decide) _)
    _ = tenPow (401 + Nat.log2 d.digits) := (tenPow_add ..).symm
    _ ≤ d.denominator := tenPow_le hl

/-- The bounds beyond which no power is computed change no rank. -/
theorem rank_eq_nearest (d : Decimal) : d.rank = nearest d.numerator d.denominator := by
  unfold rank
  split
  next hz =>
    refine (Magnitude.nearest_underflow ?_).symm
    simpa [numerator, hz] using d.denominator_pos
  next hz =>
    split
    next he => exact (Magnitude.nearest_overflow (overflow hz he) d.denominator_pos).symm
    next =>
      split
      next he => exact (Magnitude.nearest_underflow (underflow he)).symm
      next =>
        obtain ⟨digits, exponent⟩ := d
        cases exponent with
        | ofNat n =>
          have hd : denominator ⟨digits, .ofNat n⟩ = 1 := by simp [denominator]
          have hn : numerator ⟨digits, .ofNat n⟩ = digits * tenPow n := rfl
          rw [hd, hn]
        | negSucc n =>
          have hd : denominator ⟨digits, .negSucc n⟩ = tenPow (n + 1) := rfl
          have hn : numerator ⟨digits, .negSucc n⟩ = digits := Nat.mul_one digits
          rw [hd, hn]

theorem rank_le_infinite (d : Decimal) : d.rank ≤ infinite := by
  rw [rank_eq_nearest]
  exact Magnitude.nearest_le_infinite ..

theorem rank_congr (h : d.numerator * e.denominator = e.numerator * d.denominator) :
    d.rank = e.rank := by
  rw [rank_eq_nearest, rank_eq_nearest]
  exact Magnitude.nearest_congr h d.denominator_pos e.denominator_pos

/-- Zeros at the end of the digits and the exponent make up for each other. -/
theorem rank_scaled {v n p z : Nat} {x : Int} (h : v = 0 ∨ (n : Int) - p = z + x) :
    (mk (v * tenPow n) (-p)).rank = (mk (v * tenPow z) x).rank := by
  apply rank_congr
  have hn : numerator ⟨v * tenPow n, -p⟩ = v * tenPow n := by simp [numerator]
  have hp : denominator ⟨v * tenPow n, -p⟩ = tenPow p := by simp [denominator]
  rw [hn, hp, denominator, numerator, Nat.mul_assoc, Nat.mul_assoc, Nat.mul_assoc, ← tenPow_add,
    ← tenPow_add, ← tenPow_add]
  rcases h with rfl | h
  · simp
  · congr 2
    simp only
    omega

/-! ## The shortest decimal -/

theorem rank_onGrid? {rank places : Nat} (h : onGrid? rank places = some d) : d.rank = rank := by
  unfold onGrid? at h
  dsimp only at h
  split at h
  next hl =>
    split at h
    next hu =>
      cases h
      exact of_decide_eq_true (Bool.and_eq_true_iff.mp hu).1
    next =>
      cases h
      exact hl
  next =>
    split at h
    next hu =>
      cases h
      exact hu
    next => cases h

/-- The exact value, which is left when no short decimal is found. -/
theorem rank_exactDigits {rank : Nat} (h : rank < infinite) :
    (mk (exactDigits rank) (-1074)).rank = rank := by
  rw [rank_eq_nearest]
  refine Magnitude.nearest_exact ?_ (denominator_pos _) h
  have hn : numerator ⟨exactDigits rank, -1074⟩ = exactDigits rank := by simp [numerator]
  have hd : denominator ⟨exactDigits rank, -1074⟩ = tenPow 1074 := by simp [denominator]
  have hp : Nat.pow 5 1074 * one = tenPow 1074 := by decide +kernel
  rw [hn, hd, exactDigits, Nat.mul_assoc, hp]

theorem rank_shortest {rank : Nat} (h : rank < infinite) : (shortest rank).rank = rank := by
  rw [shortest]
  cases hf : (List.range 19).findSome? fun n =>
      onGrid? rank (digitBound (exactDigits rank) - n) with
  | some d =>
    obtain ⟨n, -, hn⟩ := List.exists_of_findSome?_eq_some hf
    exact rank_onGrid? hn
  | none => exact rank_exactDigits h

end Decimal

end FormulaLang
