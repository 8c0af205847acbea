import FormulaLang.Context.Standard
import FormulaLang.Proofs.Number.Order

/-!
# Rounding halves to even

Rounding half a number and doubling decides between the two whole numbers that are as near. The
rule is proved on all rational numbers, where its law leaves one whole number and no freedom to
turn the order or the sign around. Doubles follow the rule exactly: from 2^52 on they are whole,
and up to there every whole number is a double.
-/
namespace FormulaLang.Rounding

open Magnitude
open Float.Model.UnpackedFloat (Sign)

/-! ## The rule on rational numbers -/

/-- The whole part of a number. -/
def towardZero (v : ℚ) : ℤ := if 0 ≤ v then ⌊v⌋ else ⌈v⌉

/-- The nearest whole number, for a half the one farther from zero. -/
def halfAway (v : ℚ) : ℤ := if 0 ≤ v then ⌊v + 1 / 2⌋ else ⌈v - 1 / 2⌉

/-- The nearest whole number; a half is settled by rounding half the number and doubling. -/
def evenByHalving (v : ℚ) : ℤ :=
  if |v - towardZero v| = 1 / 2 then 2 * halfAway (v / 2) else halfAway v

/-- The whole number is nearest to a number, and even if another one is as near. -/
structure IsNearestEven (v : ℚ) (n : ℤ) : Prop where
  near : |v - n| ≤ 1 / 2
  even : |v - n| = 1 / 2 → Even n

variable {v w : ℚ} {m n : ℤ}

theorem IsNearestEven.neg (h : IsNearestEven v n) : IsNearestEven (-v) (-n) := by
  have distance : |-v - (-n : ℤ)| = |v - n| := by
    rw [Int.cast_neg, neg_sub_neg, abs_sub_comm]
  constructor
  · rw [distance]
    exact h.near
  · intro half
    rw [distance] at half
    exact (h.even half).neg

theorem IsNearestEven.mono (h : IsNearestEven v n) (k : IsNearestEven w m) (hv : v ≤ w) :
    n ≤ m := by
  by_contra hlt
  have step : (m + 1 : ℚ) ≤ n := by exact_mod_cast Int.add_one_le_of_lt (not_le.mp hlt)
  obtain ⟨low, -⟩ := abs_le.mp h.near
  obtain ⟨-, high⟩ := abs_le.mp k.near
  -- Both numbers are halfway between the two whole numbers, which are next to each other.
  have half : v - n = -(1 / 2) := by linarith
  have half' : w - m = 1 / 2 := by linarith
  have even := h.even (by rw [half, abs_neg, abs_of_pos one_half_pos])
  have even' := k.even (by rw [half', abs_of_pos one_half_pos])
  have next : (n : ℚ) = (m + 1 : ℤ) := by
    push_cast
    linarith
  rw [Int.cast_inj.mp next, Int.even_add_one] at even
  exact even even'

theorem IsNearestEven.unique (h : IsNearestEven v n) (k : IsNearestEven v m) : n = m :=
  le_antisymm (h.mono k (le_refl v)) (k.mono h (le_refl v))

theorem isNearestEven_intCast (k : ℤ) : IsNearestEven k k := by
  constructor
  · rw [sub_self, abs_zero]
    exact le_of_lt one_half_pos
  · intro half
    rw [sub_self, abs_zero] at half
    exact absurd half (ne_of_lt one_half_pos)

theorem towardZero_near (v : ℚ) : |v - towardZero v| ≤ 1 := by
  rw [towardZero, abs_le]
  split
  · have low := Int.floor_le v
    have high := Int.lt_floor_add_one v
    constructor <;> linarith
  · have low := Int.le_ceil v
    have high := Int.ceil_lt_add_one v
    constructor <;> linarith

theorem halfAway_near (v : ℚ) : |v - halfAway v| ≤ 1 / 2 := by
  rw [halfAway, abs_le]
  split
  · have low := Int.floor_le (v + 1 / 2)
    have high := Int.lt_floor_add_one (v + 1 / 2)
    constructor <;> linarith
  · have low := Int.le_ceil (v - 1 / 2)
    have high := Int.ceil_lt_add_one (v - 1 / 2)
    constructor <;> linarith

/-- A number halfway between whole numbers is as far from each of the two around it. -/
theorem half_of_near (half : |v - n| = 1 / 2) (near : |v - m| ≤ 1) : |v - m| = 1 / 2 := by
  obtain ⟨d, hd⟩ : ∃ d : ℤ, v - m = d + 1 / 2 := by
    rcases (abs_eq (le_of_lt one_half_pos)).mp half with h | h
    · exact ⟨n - m, by push_cast; linarith⟩
    · exact ⟨n - m - 1, by push_cast; linarith⟩
  rw [hd] at near ⊢
  obtain ⟨low, high⟩ := abs_le.mp near
  have low : -2 < d := by exact_mod_cast (by linarith : (-2 : ℚ) < d)
  have high : d < 1 := by exact_mod_cast (by linarith : (d : ℚ) < 1)
  obtain rfl | rfl : d = -1 ∨ d = 0 := by omega
  · norm_num
  · norm_num

theorem isNearestEven_evenByHalving (v : ℚ) : IsNearestEven v (evenByHalving v) := by
  unfold evenByHalving
  split
  next half =>
    -- Halving also halves the distance, so what was at most a half away is at most one away.
    have near : |v - (2 * halfAway (v / 2) : ℤ)| ≤ 1 := by
      have h := halfAway_near (v / 2)
      rw [abs_le] at h ⊢
      push_cast
      constructor <;> linarith
    exact ⟨le_of_eq (half_of_near half near), fun _ => even_two_mul _⟩
  next whole =>
    constructor
    · exact halfAway_near v
    · intro half
      exact absurd (half_of_near half (towardZero_near v)) whole

theorem evenByHalving_neg (v : ℚ) : evenByHalving (-v) = -evenByHalving v :=
  (isNearestEven_evenByHalving (-v)).unique (isNearestEven_evenByHalving v).neg

theorem evenByHalving_mono (h : v ≤ w) : evenByHalving v ≤ evenByHalving w :=
  (isNearestEven_evenByHalving v).mono (isNearestEven_evenByHalving w) h

theorem evenByHalving_intCast (k : ℤ) : evenByHalving k = k :=
  (isNearestEven_evenByHalving k).unique (isNearestEven_intCast k)

/-! ## The rule in units -/

theorem one_halves : 2 * (one / 2) = one ∧ 2 * (one / 4) = one / 2 := by decide +kernel

theorem half_eq : (1 / 2 : ℚ) = (one / 2 : ℕ) / one := by
  have halves : (2 * (one / 2 : ℕ) : ℚ) = one := by exact_mod_cast one_halves.1
  rw [eq_div_iff one_cast_ne_zero]
  linarith

theorem floor_units (u : Nat) : ⌊(u / one : ℚ)⌋ = (u / one : ℕ) :=
  Rat.floor_natCast_div_natCast u one

theorem number_nonneg (u : Nat) : (0 : ℚ) ≤ u / one :=
  div_nonneg (Nat.cast_nonneg u) (le_of_lt Magnitude.one_pos)

theorem halfAway_units (u : Nat) : halfAway (u / one) = nearestUp u := by
  rw [halfAway, if_pos (number_nonneg u), half_eq, ← add_div, ← Nat.cast_add, floor_units,
    nearestUp]

theorem distance_towardZero (u : Nat) :
    |(u / one - towardZero (u / one) : ℚ)| = (u % one : ℕ) / one := by
  have whole : towardZero (u / one) = (u / one : ℕ) := by
    rw [towardZero, if_pos (number_nonneg u), floor_units]
  have parts : (one * (u / one : ℕ) + (u % one : ℕ) : ℚ) = u := by
    exact_mod_cast Nat.div_add_mod u one
  have rest : (u / one - (u / one : ℕ) : ℚ) = (u % one : ℕ) / one := by
    rw [← parts, add_div, mul_div_cancel_left₀ _ one_cast_ne_zero, add_sub_cancel_left]
  rw [whole, Int.cast_natCast, rest, abs_of_nonneg (number_nonneg _)]

theorem half_iff_units (u : Nat) :
    |(u / one - towardZero (u / one) : ℚ)| = 1 / 2 ↔ 2 * (u % one) = one := by
  have halves := one_halves.1
  rw [distance_towardZero, half_eq, div_left_inj' one_cast_ne_zero, Nat.cast_inj]
  omega

/-- A half is an even number of units, so halving it leaves whole units. -/
theorem halved_units {u : Nat} (half : 2 * (u % one) = one) :
    (u / one / 2 : ℚ) = (u / 2 : ℕ) / one := by
  have halves := one_halves
  have even : 2 ∣ u := by
    rw [← Nat.dvd_mod_iff ⟨one / 2, halves.1.symm⟩]
    omega
  rw [Nat.cast_div even two_ne_zero, Nat.cast_ofNat, div_right_comm]

theorem evenByHalving_units (u : Nat) : evenByHalving (u / one) = nearestEven u := by
  unfold evenByHalving nearestEven
  by_cases half : 2 * (u % one) = one
  · rw [if_pos ((half_iff_units u).mpr half), if_pos half, halved_units half, halfAway_units,
      Nat.cast_mul, Nat.cast_ofNat]
  · rw [if_neg (mt (half_iff_units u).mp half), if_neg half, halfAway_units]

theorem evenByHalving_signed (s : Sign) (u : Nat) :
    evenByHalving ((s.apply u : ℤ) / one) = s.apply (nearestEven u) := by
  cases s with
  | positive => exact evenByHalving_units u
  | negative =>
    rw [Sign.apply, Int.cast_neg, neg_div, evenByHalving_neg]
    exact congrArg Int.neg (evenByHalving_units u)

theorem isNearestEven_units (u : Nat) : IsNearestEven (u / one) (nearestEven u : ℕ) := by
  rw [← evenByHalving_units]
  exact isNearestEven_evenByHalving _

theorem nearestEven_mul_one (m : Nat) : nearestEven (m * one) = m := by
  have near := isNearestEven_units (m * one)
  rw [Nat.cast_mul, mul_div_cancel_right₀ _ one_cast_ne_zero] at near
  exact_mod_cast near.unique (isNearestEven_intCast m)

/-! ## Whole numbers among the doubles -/

variable {q s rank : Nat}

theorem whole_signed (s : Sign) (m : Nat) :
    ((s.apply (m * one : ℕ) : ℤ) / one : ℚ) = s.apply m := by
  cases s <;> simp [Sign.apply, neg_div, mul_div_cancel_right₀ _ one_cast_ne_zero]

theorem shiftLeft_one (m : Nat) : m <<< 1074 = m * one := by
  rw [Nat.shiftLeft_eq, one, Nat.one_shiftLeft]

/-- Up to 53 bits in front of any number of zeros are the units of a double. -/
theorem exists_units_shift (hq : q ≤ 2 * block) : ∃ r, units r = q <<< s := by
  induction s generalizing q with
  | zero => exact ⟨0 * block + q, units_block (.inl rfl) hq⟩
  | succ s ih =>
    by_cases small : q < block
    · obtain ⟨r, hr⟩ := ih (q := 2 * q) (by omega)
      exact ⟨r, by rw [hr, Nat.shiftLeft_succ_inside]⟩
    · exact ⟨(s + 1) * block + q, units_block (.inr (Nat.le_of_not_lt small)) hq⟩

theorem nearestEven_le_block {u : Nat} (h : u ≤ block * one) : nearestEven u ≤ block := by
  have below : (u / one : ℚ) ≤ (block : ℤ) := by
    rw [div_le_iff₀ Magnitude.one_pos]
    exact_mod_cast h
  exact_mod_cast (isNearestEven_units u).mono (isNearestEven_intCast block) below

theorem exists_units_nearestEven (h : rank < infinite) :
    ∃ r < infinite, units r = nearestEven (units rank) * one := by
  obtain ⟨s, q, hr, hq, hs⟩ := exists_units_block rank
  by_cases whole : 1074 ≤ s
  · obtain ⟨t, rfl⟩ := Nat.exists_eq_add_of_le' whole
    refine ⟨rank, h, ?_⟩
    rw [hr, units_block hs (Nat.le_of_lt hq), Nat.shiftLeft_add, shiftLeft_one,
      nearestEven_mul_one]
  · have low : units rank < block * one := by
      have blocks := Nat.mul_le_mul_right block (Nat.le_of_lt_succ (Nat.lt_of_not_le whole))
      have he := units_block (s := 1074) (.inr (Nat.le_refl block)) (by omega)
      rw [shiftLeft_one] at he
      rw [← he]
      exact units_lt (by omega)
    have bound := nearestEven_le_block (Nat.le_of_lt low)
    obtain ⟨r, hr⟩ := exists_units_shift (s := 1074) (q := nearestEven (units rank)) (by omega)
    rw [shiftLeft_one] at hr
    have far : block * one < units infinite := by decide +kernel
    refine ⟨r, units_strictMono.lt_iff_lt.mp ?_, hr⟩
    rw [hr]
    exact Nat.lt_of_le_of_lt (Nat.mul_le_mul_right one bound) far

/-! ## Rounding doubles -/

variable {x y : Float}

theorem exists_halfEven (h : ofFloat x < infinite) : ∃ r < infinite,
    halfEven x = toFloat (isNegative x) r ∧ units r = nearestEven (units (ofFloat x)) * one := by
  obtain ⟨r, hr, hu⟩ := exists_units_nearestEven h
  have exact : nearest (nearestEven (units (ofFloat x))) 1 = r :=
    nearest_exact (by rw [hu, Nat.mul_one]) Nat.one_pos hr
  refine ⟨r, hr, ?_, hu⟩
  unfold halfEven onMagnitude
  dsimp only
  rw [if_pos h, exact]

theorem value?_halfEven (h : value? x = some v) :
    value? (halfEven x) = some (evenByHalving v : ℚ) := by
  obtain ⟨hi, rfl⟩ := finite_of_value? h
  obtain ⟨r, hr, he, hu⟩ := exists_halfEven hi
  have hle := Nat.le_of_lt hr
  rw [evenByHalving_signed, ← whole_signed, ← hu, he, value?_eq, ofFloat_toFloat hle, if_pos hr,
    sign_toFloat hle, sign]

theorem isNegative_halfEven (h : value? x = some v) : isNegative (halfEven x) = isNegative x := by
  obtain ⟨r, hr, he, -⟩ := exists_halfEven (finite_of_value? h).1
  rw [he, isNegative_toFloat (Nat.le_of_lt hr)]

theorem halfEven_whole {k : ℤ} (h : value? x = some (k : ℚ)) : halfEven x = x := by
  have value := value?_halfEven h
  rw [evenByHalving_intCast] at value
  exact eq_of_value? (isNegative_halfEven h) value h

theorem halfEven_neg (h : value? x = some v) : halfEven (-x) = -halfEven x := by
  have value := value?_halfEven (value?_neg h)
  have value' := value?_neg (value?_halfEven h)
  have hx := Nat.le_of_lt (finite_of_value? h).1
  have hr := Nat.le_of_lt (finite_of_value? (value?_halfEven h)).1
  rw [evenByHalving_neg, Int.cast_neg] at value
  refine eq_of_value? ?_ value value'
  rw [isNegative_halfEven (value?_neg h), isNegative_neg hx, isNegative_neg hr,
    isNegative_halfEven h]

theorem halfEven_mono (hx : value? x = some v) (hy : value? y = some w) (h : v ≤ w) :
    halfEven x ≤ halfEven y := by
  rw [le_iff_value (value?_halfEven hx) (value?_halfEven hy), Int.cast_le]
  exact evenByHalving_mono h

end FormulaLang.Rounding

namespace FormulaLang

open Magnitude Rounding

/-- `round` answers with the nearest whole number, for a half with the even one. So it turns a
number and its negation into a number and its negation, keeps the order of numbers and leaves
whole numbers alone. -/
theorem round_half_to_even (s : Standard) {x : Float} {v : ℚ} (hx : value? x = some v) :
    s.callBuiltin "round" [x] = (.ok (halfEven x), s) ∧
      value? (halfEven x) = some (evenByHalving v : ℚ) ∧ IsNearestEven v (evenByHalving v) ∧
      value? (-x) = some (-v) ∧ halfEven (-x) = -halfEven x ∧
      (∀ y w, value? y = some w → v ≤ w → halfEven x ≤ halfEven y) ∧
      ∀ k : ℤ, v = k → halfEven x = x := by
  refine ⟨rfl, value?_halfEven hx, isNearestEven_evenByHalving v, value?_neg hx, halfEven_neg hx,
    fun y w hy => halfEven_mono hx hy, ?_⟩
  rintro k rfl
  exact halfEven_whole hx

theorem round_half_to_even_twoAndHalf :
    value? 2.5 = some (5 / 2) ∧ value? (halfEven 2.5) = some 2 ∧ halfEven (-2.5) = -halfEven 2.5 ∧
      value? 3.5 = some (7 / 2) ∧ halfEven 2.5 ≤ halfEven 3.5 := by
  have hx : value? 2.5 = some (5 / 2) := by decide +kernel
  have hy : value? 3.5 = some (7 / 2) := by decide +kernel
  obtain ⟨-, value, -, -, neg, mono, -⟩ := round_half_to_even (.fresh fun _ => 0) hx
  have two : evenByHalving (5 / 2) = 2 := by decide +kernel
  rw [two] at value
  exact ⟨hx, value, neg, hy, mono _ _ hy (by norm_num)⟩

end FormulaLang
