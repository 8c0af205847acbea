import FormulaLang.Proofs.Number.Order

/-!
# The nearest double

A rank is the nearest to a number exactly when the number lies between the points halfway to the
ranks next to it, with the even rank at those points. So there is one nearest double, it is
monotone in the number, and the double of a decimal depends on its number alone.
-/
namespace FormulaLang.Magnitude

/-- Halfway from the largest finite double to 2^1024, which would be the next. -/
def overflow : ℚ := 2 ^ 1024 - 2 ^ 970

/-- The double is the nearest to a number that is not negative. At equal distances the last bit
is zero, and from `overflow` on the double is infinity. -/
structure RoundsTo (q : ℚ) (x : Float) : Prop where
  positive : isNegative x = false
  infinite : overflow ≤ q ↔ x = infinity
  finite : q < overflow → ∃ v, value? x = some v ∧ ∀ y w, value? y = some w →
    |q - v| ≤ |q - w| ∧ (|q - v| = |q - w| → w = v ∨ x.toBits.toNat % 2 = 0)

def ofRat (q : ℚ) : Float := toFloat false (nearest q.num.toNat q.den)

variable {x y : Float} {rank r s num den : Nat} {q t : ℚ}

/-! ## Rounding intervals -/

/-- A number of units lies between the points halfway to the next ranks; on such a point the rank
is even. -/
structure Within (t : ℚ) (rank : Nat) : Prop where
  le_infinite : rank ≤ infinite
  above : ∀ s, s + 1 = rank → (units s + units rank : ℚ) ≤ 2 * t ∧
    ((units s + units rank : ℚ) = 2 * t → rank % 2 = 0)
  below : rank < infinite → 2 * t ≤ (units rank + units (rank + 1) : ℚ) ∧
    (2 * t = (units rank + units (rank + 1) : ℚ) → rank % 2 = 0)

theorem units_cast_lt (h : r < s) : (units r : ℚ) < units s := Nat.cast_lt.mpr (units_lt h)

theorem units_cast_le (h : r ≤ s) : (units r : ℚ) ≤ units s :=
  Nat.cast_le.mpr (units_strictMono.monotone h)

theorem Within.lower (hr : r ≤ infinite) (hl : (units r : ℚ) ≤ t)
    (half : r < infinite → 2 * t ≤ (units r + units (r + 1) : ℚ) ∧
      (2 * t = (units r + units (r + 1) : ℚ) → r % 2 = 0)) : Within t r := by
  refine ⟨hr, fun s hs => ?_, half⟩
  have hs : (units s : ℚ) < units r := units_cast_lt (hs ▸ Nat.lt_succ_self s)
  exact ⟨by linarith, fun h => absurd h (by linarith)⟩

theorem Within.upper (hr : r < infinite) (hu : t < units (r + 1))
    (half : (units r + units (r + 1) : ℚ) ≤ 2 * t ∧
      ((units r + units (r + 1) : ℚ) = 2 * t → (r + 1) % 2 = 0)) : Within t (r + 1) := by
  refine ⟨hr, fun s hs => ?_, fun _ => ?_⟩
  · obtain rfl : s = r := Nat.succ_injective hs
    exact half
  · have next : (units (r + 1) : ℚ) < units (r + 1 + 1) := units_cast_lt (Nat.lt_succ_self _)
    exact ⟨by linarith, fun h => absurd h (by linarith)⟩

theorem ratio_units (hd : 0 < den) (k m : Nat) :
    (k * den < m * (num * one) ↔ (k : ℚ) < m * (num / den * one)) ∧
      (m * (num * one) < k * den ↔ (m * (num / den * one) : ℚ) < k) := by
  have hd : (0 : ℚ) < den := Nat.cast_pos.mpr hd
  have exact : (m * (num * one) : ℚ) = m * (num / den * one) * den := by field_simp
  constructor
  · rw [← Nat.cast_lt (α := ℚ), Nat.cast_mul, Nat.cast_mul, Nat.cast_mul, exact,
      mul_lt_mul_iff_left₀ hd]
  · rw [← Nat.cast_lt (α := ℚ), Nat.cast_mul, Nat.cast_mul, Nat.cast_mul, exact,
      mul_lt_mul_iff_left₀ hd]

theorem within_nearest (hd : 0 < den) : Within (num / den * one) (nearest num den) := by
  have compare := @ratio_units num den hd
  generalize (num / den * one : ℚ) = t at compare
  obtain ⟨hl, hu⟩ := units_atMost (num * one / den)
  unfold nearest
  dsimp only
  generalize atMost (num * one / den) = low at hl hu ⊢
  have lower : (units low : ℚ) ≤ t := by
    have hl := (Nat.le_div_iff_mul_le hd).mp hl
    simpa using mt (compare (units low) 1).2.mpr (by simpa using hl)
  have upper : t < units (low + 1) := by
    have hu := (Nat.div_lt_iff_lt_mul hd).mp hu
    simpa using (compare (units (low + 1)) 1).2.mp (by simpa using hu)
  obtain ⟨above, below⟩ := compare (units low + units (low + 1)) 2
  rw [Nat.cast_add, Nat.cast_ofNat] at above below
  by_cases hi : infinite ≤ low
  · rw [if_pos hi]
    have far := le_trans (units_cast_le hi) lower
    exact .lower (Nat.le_refl _) far fun h => absurd h (Nat.lt_irrefl _)
  rw [if_neg hi]
  have hi := Nat.lt_of_not_le hi
  by_cases hb : 2 * (num * one) < (units low + units (low + 1)) * den
  · rw [if_pos hb]
    have hb := below.mp hb
    exact .lower (Nat.le_of_lt hi) lower fun _ => ⟨le_of_lt hb, fun h => absurd h (ne_of_lt hb)⟩
  rw [if_neg hb]
  by_cases ha : (units low + units (low + 1)) * den < 2 * (num * one)
  · rw [if_pos ha]
    have ha := above.mp ha
    exact .upper hi upper ⟨le_of_lt ha, fun h => absurd h (ne_of_lt ha)⟩
  rw [if_neg ha]
  -- A tie: the two ranks are neighbours, so one of them is even.
  have hle := not_lt.mp (fun h => hb (below.mpr h))
  have hge := not_lt.mp (fun h => ha (above.mpr h))
  by_cases even : low % 2 = 0
  · rw [if_pos even]
    exact .lower (Nat.le_of_lt hi) lower fun _ => ⟨hge, fun _ => even⟩
  · rw [if_neg even]
    exact .upper hi upper ⟨hle, fun _ => by omega⟩

theorem abs_sub_le_of_half {a b : ℚ} (h : 0 ≤ (b - a) * (a + b - 2 * q)) :
    |q - a| ≤ |q - b| := by
  refine sq_le_sq.mp ?_
  linarith only [h, show (b - a) * (a + b - 2 * q) = (q - b) ^ 2 - (q - a) ^ 2 by ring]

theorem eq_or_half_of_abs_sub {a b : ℚ} (h : |q - a| = |q - b|) : a = b ∨ a + b = 2 * q := by
  rcases abs_eq_abs.mp h with h | h
  · exact .inl (by linarith only [h])
  · exact .inr (by linarith only [h])

theorem distance_units (k : ℚ) : |q - k / one| = |q * one - k| / one := by
  have split : q - k / one = (q * one - k) / one := by
    rw [sub_div, mul_div_cancel_right₀ _ one_cast_ne_zero]
  rw [split, abs_div, abs_of_pos one_pos]

namespace Within

theorem le_half (h : Within t rank) (hs : rank < s) (hi : s ≤ infinite) :
    2 * t ≤ (units rank + units s : ℚ) ∧ (2 * t = (units rank + units s : ℚ) → rank % 2 = 0) := by
  obtain ⟨hb, he⟩ := h.below (Nat.lt_of_lt_of_le hs hi)
  have hn := units_cast_le (Nat.succ_le_of_lt hs)
  exact ⟨by linarith, fun heq => he (by linarith)⟩

theorem half_le (h : Within t rank) (hs : s < rank) :
    (units s + units rank : ℚ) ≤ 2 * t ∧ ((units s + units rank : ℚ) = 2 * t → rank % 2 = 0) := by
  obtain ⟨r, rfl⟩ := Nat.exists_eq_add_one_of_ne_zero (Nat.ne_zero_of_lt hs)
  obtain ⟨ha, he⟩ := h.above r rfl
  have hn := units_cast_le (Nat.le_of_lt_succ hs)
  exact ⟨by linarith, fun heq => he (by linarith)⟩

theorem mono {t' : ℚ} {rank' : Nat} (h : Within t rank) (h' : Within t' rank') (ht : t ≤ t') :
    rank ≤ rank' := by
  refine Nat.le_of_not_lt fun hlt => ?_
  obtain ⟨ha, he⟩ := h.half_le hlt
  obtain ⟨hb, he'⟩ := h'.le_half hlt h.le_infinite
  -- The intervals can only meet where both ranks are even, so there is a rank between them.
  have even := he (by linarith)
  have even' := he' (by linarith)
  have ha := (h.half_le (s := rank' + 1) (by omega)).1
  have next : (units rank' : ℚ) < units (rank' + 1) := units_cast_lt (Nat.lt_succ_self _)
  linarith

/-- No other rank is closer to the number, and one as close makes the rank even. -/
theorem closest_units (h : Within t rank) (hs : s ≤ infinite) :
    |t - units rank| ≤ |t - units s| ∧
      (|t - units rank| = |t - units s| → s = rank ∨ rank % 2 = 0) := by
  rcases Nat.lt_trichotomy rank s with hlt | rfl | hgt
  · obtain ⟨half, even⟩ := h.le_half hlt hs
    have order := units_cast_lt hlt
    refine ⟨abs_sub_le_of_half (mul_nonneg (by linarith) (by linarith)), fun heq => .inr ?_⟩
    have tie := (eq_or_half_of_abs_sub heq).resolve_left (ne_of_lt order)
    exact even tie.symm
  · exact ⟨le_refl _, fun _ => .inl rfl⟩
  · obtain ⟨half, even⟩ := h.half_le hgt
    have order := units_cast_lt hgt
    refine ⟨abs_sub_le_of_half (mul_nonneg_of_nonpos_of_nonpos (by linarith) (by linarith)),
      fun heq => .inr ?_⟩
    have tie := (eq_or_half_of_abs_sub heq).resolve_left (ne_of_gt order)
    exact even (by rw [add_comm, tie])

theorem closest (h : Within (q * one) rank) (hs : s ≤ infinite) :
    |q - units rank / one| ≤ |q - units s / one| ∧
      (|q - units rank / one| = |q - units s / one| → s = rank ∨ rank % 2 = 0) := by
  obtain ⟨closest, even⟩ := h.closest_units hs
  rw [distance_units, distance_units, div_le_div_iff_of_pos_right one_pos,
    div_left_inj' one_cast_ne_zero]
  exact ⟨closest, even⟩

end Within

theorem overflow_units : (units (infinite - 1) + units infinite : ℚ) = 2 * (overflow * one) := by
  have top : units infinite = one <<< 1024 := by decide +kernel
  have last : units (infinite - 1) + one <<< 971 = one <<< 1024 := by decide +kernel
  have top : (units infinite : ℚ) = one * 2 ^ 1024 := by
    rw [top, natCast_shiftLeft]
  have last : (units (infinite - 1) + one * (2 ^ 970 * 2) : ℚ) = one * 2 ^ 1024 := by
    rw [← pow_succ, ← natCast_shiftLeft, ← natCast_shiftLeft, ← Nat.cast_add, last]
  unfold overflow
  generalize (2 : ℚ) ^ 1024 = p, (2 : ℚ) ^ 970 = p' at top last ⊢
  linarith only [top, last]

/-! ## The nearest double -/

theorem within_overflow : Within (overflow * one) infinite := by
  refine ⟨Nat.le_refl _, fun s hs => ?_, fun h => absurd h (Nat.lt_irrefl _)⟩
  obtain rfl : s = infinite - 1 := by omega
  exact ⟨le_of_eq overflow_units, fun _ => by decide⟩

theorem toFloat_eq_infinity (h : rank ≤ infinite) :
    toFloat false rank = infinity ↔ rank = infinite := by
  refine ⟨fun he => ?_, fun he => by rw [he, infinity]⟩
  rw [← ofFloat_toFloat h, he, infinity, ofFloat_toFloat (Nat.le_refl _)]

theorem Within.roundsTo (h : Within (q * one) rank) (hq : 0 ≤ q) :
    RoundsTo q (toFloat false rank) := by
  have far : overflow ≤ q ↔ rank = infinite := by
    constructor
    · intro hle
      exact Nat.le_antisymm h.le_infinite
        (within_overflow.mono h (mul_le_mul_of_nonneg_right hle (le_of_lt one_pos)))
    · rintro rfl
      have ha := (h.above (infinite - 1) (by decide)).1
      rw [overflow_units] at ha
      exact le_of_mul_le_mul_right (by linarith) one_pos
  refine ⟨isNegative_toFloat h.le_infinite, far.trans (toFloat_eq_infinity h.le_infinite).symm,
    fun hlt => ?_⟩
  have hr : rank < infinite :=
    Nat.lt_of_le_of_ne h.le_infinite fun he => absurd (far.mpr he) (not_le_of_gt hlt)
  refine ⟨_, value?_toFloat hr, fun y w hw => ?_⟩
  rw [toBits_toFloat h.le_infinite]
  obtain ⟨s, hs, rfl | rfl⟩ := exists_of_value? hw
  · obtain ⟨closest, even⟩ := h.closest hs
    exact ⟨closest, fun he => (even he).imp_left fun hr => by rw [hr]⟩
  · -- Zero is as close as a number below zero, or closer.
    obtain ⟨closest, even⟩ := h.closest (Nat.zero_le infinite)
    have hw : (0 : ℚ) ≤ units s / one := div_nonneg (Nat.cast_nonneg _) (le_of_lt one_pos)
    have hz : (units 0 / one : ℚ) = 0 := by
      have zero : units 0 = 0 := by decide
      rw [zero, Nat.cast_zero, zero_div]
    rw [hz, sub_zero, abs_of_nonneg hq] at closest even
    rw [sub_neg_eq_add, abs_of_nonneg (add_nonneg hq hw)]
    refine ⟨by linarith, fun he => ?_⟩
    have hw : (units s / one : ℚ) = 0 := by linarith
    refine (even (by linarith)).imp_left fun hr => ?_
    rw [← hr, hz, hw, neg_zero]

theorem within_ofRat (hq : 0 ≤ q) : Within (q * one) (nearest q.num.toNat q.den) := by
  have hn : ((q.num.toNat : ℕ) : ℚ) = q.num := by
    exact_mod_cast Int.toNat_of_nonneg (Rat.num_nonneg.mpr hq)
  have h := @within_nearest q.num.toNat q.den q.den_pos
  rwa [hn, Rat.num_div_den] at h

theorem roundsTo_ofRat (hq : 0 ≤ q) : RoundsTo q (ofRat q) := (within_ofRat hq).roundsTo hq

theorem RoundsTo.not_lt (h : RoundsTo q x) (k : RoundsTo q y) (hq : q < overflow) :
    ¬ ofFloat x < ofFloat y := by
  intro hlt
  obtain ⟨v, hv, closest⟩ := h.finite hq
  obtain ⟨w, hw, closest'⟩ := k.finite hq
  have same := le_antisymm (closest y w hw).1 (closest' x v hv).1
  obtain ⟨-, rfl, hx⟩ := value?_positive h.positive hv
  obtain ⟨hi, rfl, hy⟩ := value?_positive k.positive hw
  have order : ∀ {r s : Nat}, r < s → (units r / one : ℚ) < units s / one := fun hrs =>
    div_lt_div_of_pos_right (units_cast_lt hrs) one_pos
  have middle := (eq_or_half_of_abs_sub same).resolve_left (ne_of_lt (order hlt))
  -- Both are as close, so both are even, and a double between them is closer.
  have even := ((closest y _ hw).2 same).resolve_left (ne_of_gt (order hlt))
  have even' := ((closest' x _ hv).2 same.symm).resolve_left (ne_of_lt (order hlt))
  rw [hx] at even
  rw [hy] at even'
  have between : ofFloat x + 1 < ofFloat y := by omega
  have far := (closest _ _ (value?_toFloat (Nat.lt_trans between hi))).1
  have low := order (Nat.lt_succ_self (ofFloat x))
  have high := order between
  refine absurd far (not_le_of_gt (lt_of_lt_of_le (abs_lt.mpr ⟨?_, ?_⟩) (le_abs_self _)))
  · linarith
  · linarith

theorem RoundsTo.unique (h : RoundsTo q x) (k : RoundsTo q y) : x = y := by
  rcases le_or_gt overflow q with hq | hq
  · rw [h.infinite.mp hq, k.infinite.mp hq]
  · have hr := Nat.le_antisymm (Nat.le_of_not_lt (k.not_lt h hq)) (Nat.le_of_not_lt (h.not_lt k hq))
    rw [← toFloat_ofFloat h.positive, hr, toFloat_ofFloat k.positive]

theorem ofRat_mono {q' : ℚ} (hq : 0 ≤ q) (h : q ≤ q') : ofRat q ≤ ofRat q' := by
  have low := within_ofRat hq
  have high := within_ofRat (le_trans hq h)
  have order := low.mono high (mul_le_mul_of_nonneg_right h (le_of_lt one_pos))
  refine le_of_ofFloat_le (isNegative_toFloat low.le_infinite)
    (isNonnegative_toFloat high.le_infinite) ?_
  rwa [ofRat, ofRat, ofFloat_toFloat low.le_infinite, ofFloat_toFloat high.le_infinite]

end FormulaLang.Magnitude

namespace FormulaLang.Decimal

open Magnitude

def value (d : Decimal) : ℚ := d.digits * 10 ^ d.exponent

theorem value_eq (d : Decimal) : d.value = d.numerator / d.denominator := by
  obtain ⟨digits, exponent⟩ := d
  unfold value numerator denominator tenPow
  cases exponent with
  | ofNat n => simp
  | negSucc n => simp [zpow_negSucc, div_eq_mul_inv]

theorem value_nonneg (d : Decimal) : 0 ≤ d.value := by
  unfold value
  positivity

/-- The rank of a decimal is that of the double nearest to its number. -/
theorem toFloat_rank (d : Decimal) : toFloat false d.rank = ofRat d.value := by
  have h := @within_nearest d.numerator d.denominator d.denominator_pos
  rw [← value_eq] at h
  have h' := within_ofRat d.value_nonneg
  rw [rank_eq_nearest, ofRat, Nat.le_antisymm (h.mono h' (le_refl _)) (h'.mono h (le_refl _))]

end FormulaLang.Decimal
