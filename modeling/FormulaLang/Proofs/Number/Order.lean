import FormulaLang.Proofs.Number.Values

/-!
# The order of doubles

IEEE comparison puts all doubles but NaN in one line, by their ranks and signs. Zero and negative
zero share a place, and no other two doubles do. With NaN below the line every double has a level.
The finite ones stand in the order of the numbers that they denote, and negation turns the line
around.
-/
namespace FormulaLang.Magnitude

open Float.Model Float.Model.UnpackedFloat

/-! ## Comparison of what the bit patterns denote -/

/-- Exponents are compared first, as the blocks of ranks are. -/
theorem compares_exponents {s s' m m' : Nat} {e e' : Int} (he : e = s - 1074)
    (he' : e' = s' - 1074) (hs : s = 0 ∨ block ≤ m) (hs' : s' = 0 ∨ block ≤ m')
    (hb : m < 2 * block) (hb' : m' < 2 * block) :
    ((compare e e').then (compare m m')).Compares (s * block + m) (s' * block + m') := by
  rcases Nat.lt_trichotomy s s' with hlt | rfl | hgt
  · have hblock := Nat.mul_le_mul_right block (Nat.succ_le_of_lt hlt)
    rw [Nat.succ_mul] at hblock
    rw [compare_lt_iff_lt.mpr (show e < e' by omega)]
    change _ < _
    omega
  · rw [compare_eq_iff_eq.mpr (he.trans he'.symm)]
    change (compare m m').Compares _ _
    rcases Nat.lt_trichotomy m m' with hlt | rfl | hgt
    · rw [compare_lt_iff_lt.mpr hlt]
      exact Nat.add_lt_add_left hlt _
    · rw [compare_eq_iff_eq.mpr rfl]
      rfl
    · rw [compare_gt_iff_gt.mpr hgt]
      exact Nat.add_lt_add_left hgt _
  · have hblock := Nat.mul_le_mul_right block (Nat.succ_le_of_lt hgt)
    rw [Nat.succ_mul] at hblock
    rw [compare_gt_iff_gt.mpr (show e > e' by omega)]
    change _ < _
    omega

/-- Up to infinity, comparison is that of the ranks with their signs. -/
theorem Unpacks.compares {s s' : Sign} {r r' : Nat} {u v : UnpackedFloat} (hu : Unpacks s r u)
    (hv : Unpacks s' r' v) (hr : r ≤ infinite) (hr' : r' ≤ infinite) :
    ∃ o, u.compare v = some o ∧ o.Compares (s.apply r) (s'.apply r') := by
  have positive : 0 < infinite := by decide
  cases hu with
  | nan hn => exact absurd hr (Nat.not_le_of_lt hn)
  | zero =>
    cases hv with
    | nan hn => exact absurd hr' (Nat.not_le_of_lt hn)
    | zero => exact ⟨.eq, rfl, by cases s <;> cases s' <;> rfl⟩
    | infinity | finite =>
      cases s <;> cases s' <;>
        exact ⟨_, rfl, by simp only [Sign.apply, Ordering.Compares]; omega⟩
  | infinity =>
    cases hv with
    | nan hn => exact absurd hr' (Nat.not_le_of_lt hn)
    | zero | finite =>
      cases s <;> cases s' <;>
        exact ⟨_, rfl, by simp only [Sign.apply, Ordering.Compares]; omega⟩
    | infinity =>
      cases s <;> cases s'
      · exact ⟨.eq, rfl, rfl⟩
      · exact ⟨.lt, rfl, by simp only [Sign.apply, Ordering.Compares]; omega⟩
      · exact ⟨.gt, rfl, by simp only [Sign.apply, Ordering.Compares]; omega⟩
      · exact ⟨.eq, rfl, rfl⟩
  | @finite _ m e t hm he ht hs hb hi =>
    cases hv with
    | nan hn => exact absurd hr' (Nat.not_le_of_lt hn)
    | zero | infinity =>
      cases s <;> cases s' <;>
        exact ⟨_, rfl, by simp only [Sign.apply, Ordering.Compares]; omega⟩
    | @finite _ m' e' t' hm' he' ht' hs' hb' hi' =>
      have h := compares_exponents ht ht' hs hs' hb hb'
      rw [← he, ← he'] at h
      cases s <;> cases s'
      · refine ⟨_, rfl, Ordering.compares_swap.mpr ?_⟩
        generalize (compare e e').then (compare m m') = o at h ⊢
        cases o <;> simp only [Sign.apply, Ordering.Compares] at h ⊢ <;> omega
      · exact ⟨_, rfl, by simp only [Sign.apply, Ordering.Compares]; omega⟩
      · exact ⟨_, rfl, by simp only [Sign.apply, Ordering.Compares]; omega⟩
      · refine ⟨_, rfl, ?_⟩
        generalize (compare e e').then (compare m m') = o at h ⊢
        cases o <;> simp only [Sign.apply, Ordering.Compares] at h ⊢ <;> omega

/-! ## The line of doubles -/

/-- The place of a double in the line, counted from zero. -/
def place (x : Float) : ℤ := (sign x).apply (ofFloat x)

variable {x y : Float} {v w : ℚ}

theorem isNaN_iff_ofFloat : x.isNaN = true ↔ infinite < ofFloat x := by
  have h := unpacks x
  change x.toModel.unpack.isNaN = true ↔ _
  generalize x.toModel.unpack = u at h ⊢
  generalize ofFloat x = r at h ⊢
  cases h with
  | zero => simp [UnpackedFloat.isNaN]
  | finite s hm he ht hs hb hi => simpa [UnpackedFloat.isNaN] using Nat.le_of_lt hi
  | infinity => simp [UnpackedFloat.isNaN]
  | nan hn => simpa [UnpackedFloat.isNaN] using hn

theorem not_isNaN_iff_ofFloat : x.isNaN = false ↔ ofFloat x ≤ infinite := by
  rw [Bool.eq_false_iff, ne_eq, isNaN_iff_ofFloat, Nat.not_lt]

theorem compare_nan (h : x.isNaN = true ∨ y.isNaN = true) :
    x.toModel.unpack.compare y.toModel.unpack = none := by
  rcases h with h | h
  · rw [UnpackedFloat.isNaN_iff.mp h]
    rfl
  · rw [UnpackedFloat.isNaN_iff.mp h]
    cases x.toModel.unpack <;> rfl

theorem compares_place (hx : x.isNaN = false) (hy : y.isNaN = false) :
    ∃ o, x.toModel.unpack.compare y.toModel.unpack = some o ∧ o.Compares (place x) (place y) :=
  (unpacks x).compares (unpacks y) (not_isNaN_iff_ofFloat.mp hx) (not_isNaN_iff_ofFloat.mp hy)

theorem compare_eq_some_iff {o : Ordering} : x.toModel.unpack.compare y.toModel.unpack = some o ↔
    x.isNaN = false ∧ y.isNaN = false ∧ o.Compares (place x) (place y) := by
  constructor
  · intro h
    have hx : x.isNaN = false := by
      by_contra hn
      rw [compare_nan (.inl (Bool.of_not_eq_false hn))] at h
      cases h
    have hy : y.isNaN = false := by
      by_contra hn
      rw [compare_nan (.inr (Bool.of_not_eq_false hn))] at h
      cases h
    obtain ⟨o', ho, compares⟩ := compares_place hx hy
    obtain rfl := Option.some.inj (h.symm.trans ho)
    exact ⟨hx, hy, compares⟩
  · rintro ⟨hx, hy, compares⟩
    obtain ⟨o', ho, compares'⟩ := compares_place hx hy
    rw [ho, compares.inj compares']

theorem le_iff_place : x ≤ y ↔ x.isNaN = false ∧ y.isNaN = false ∧ place x ≤ place y := by
  have hle : x ≤ y ↔ (x.toModel.unpack.compare y.toModel.unpack).any Ordering.isLE = true :=
    decide_eq_true_iff (p := x.toModel ≤ y.toModel)
  rw [hle]
  constructor
  · intro h
    obtain ⟨o, ho, hl⟩ := (Option.any_eq_true ..).mp h
    obtain ⟨hx, hy, compares⟩ := compare_eq_some_iff.mp ho
    exact ⟨hx, hy, compares.ne_gt.mp (Ordering.isLE_iff_ne_gt.mp hl)⟩
  · rintro ⟨hx, hy, h⟩
    obtain ⟨o, ho, compares⟩ := compares_place hx hy
    rw [ho]
    exact Ordering.isLE_iff_ne_gt.mpr (compares.ne_gt.mpr h)

theorem lt_iff_place : x < y ↔ x.isNaN = false ∧ y.isNaN = false ∧ place x < place y := by
  have hlt : x < y ↔ (x.toModel.unpack.compare y.toModel.unpack == some .lt) = true :=
    decide_eq_true_iff (p := x.toModel < y.toModel)
  rw [hlt, beq_iff_eq]
  exact compare_eq_some_iff

/-- Only zero and negative zero share a place. -/
theorem eq_or_zeros_of_place (hx : x.isNaN = false) (hy : y.isNaN = false)
    (h : place x = place y) : x = y ∨ x = 0 ∧ y = -0 ∨ x = -0 ∧ y = 0 := by
  have level := compare_eq_some_iff (o := .eq).mpr ⟨hx, hy, h⟩
  have same : (x == y) = true :=
    beq_iff_eq (a := x.toModel.unpack.compare y.toModel.unpack).mpr level
  exact (Float.beq_iff_ne_nan_and_eq.mp same).2.2

/-- IEEE comparison of doubles without a sign is that of their ranks. -/
theorem le_of_ofFloat_le (hx : isNegative x = false) (hy : IsNonnegative y)
    (h : ofFloat x ≤ ofFloat y) : x ≤ y := by
  refine le_iff_place.mpr ⟨not_isNaN_iff_ofFloat.mpr (Nat.le_trans h hy.2),
    not_isNaN_iff_ofFloat.mpr hy.2, ?_⟩
  simpa [place, sign, hx, hy.1, Sign.apply] using h

/-! ## NaN below the line -/

/-- The place of a double in the line, with NaN below all others. -/
def level (x : Float) : WithBot ℤ := if x.isNaN then ⊥ else place x

theorem level_nan (h : x.isNaN = true) : level x = ⊥ := if_pos h

theorem level_place (h : x.isNaN = false) : level x = place x := if_neg (Bool.eq_false_iff.mp h)

theorem level_cases (x : Float) :
    (x.isNaN = true ∧ level x = ⊥) ∨ (x.isNaN = false ∧ level x = place x) := by
  by_cases h : x.isNaN = true
  · exact .inl ⟨h, level_nan h⟩
  · have h := Bool.of_not_eq_true h
    exact .inr ⟨h, level_place h⟩

theorem isNaN_of_level (h : level x = ⊥) : x.isNaN = true := by
  rcases level_cases x with ⟨hx, -⟩ | ⟨-, hl⟩
  · exact hx
  · rw [hl] at h
    exact absurd h WithBot.coe_ne_bot

theorem le_iff_level : x ≤ y ↔ x.isNaN = false ∧ level x ≤ level y := by
  rw [le_iff_place]
  constructor
  · rintro ⟨hx, hy, h⟩
    rw [level_place hx, level_place hy]
    exact ⟨hx, WithBot.coe_le_coe.mpr h⟩
  · rintro ⟨hx, h⟩
    rw [level_place hx] at h
    rcases level_cases y with ⟨-, hl⟩ | ⟨hy, hl⟩
    · rw [hl] at h
      exact absurd h (WithBot.not_coe_le_bot _)
    · rw [hl] at h
      exact ⟨hx, hy, WithBot.coe_le_coe.mp h⟩

theorem lt_iff_level : x < y ↔ x.isNaN = false ∧ level x < level y := by
  rw [lt_iff_place]
  constructor
  · rintro ⟨hx, hy, h⟩
    rw [level_place hx, level_place hy]
    exact ⟨hx, WithBot.coe_lt_coe.mpr h⟩
  · rintro ⟨hx, h⟩
    rw [level_place hx] at h
    rcases level_cases y with ⟨-, hl⟩ | ⟨hy, hl⟩
    · rw [hl] at h
      exact absurd h not_lt_bot
    · rw [hl] at h
      exact ⟨hx, hy, WithBot.coe_lt_coe.mp h⟩

/-- There is one NaN. -/
theorem eq_nan (h : x.isNaN = true) : x = nan := by
  have only : nan = Float.nan := by decide
  rw [Float.isNaN_eq_decide_eq_nan, decide_eq_true_iff] at h
  rw [h, only]

theorem eq_of_isNaN (same : x.isNaN = true ↔ y.isNaN = true)
    (number : x.isNaN = false → y.isNaN = false → x = y) : x = y := by
  by_cases hx : x.isNaN = true
  · rw [eq_nan hx, eq_nan (same.mp hx)]
  · exact number (Bool.of_not_eq_true hx) (Bool.of_not_eq_true (mt same.mpr hx))

theorem level_le_infinity (x : Float) : level x ≤ level infinity := by
  have hi : infinity.isNaN = false := by decide
  have top : place infinity = infinite := by decide
  rcases level_cases x with ⟨-, hl⟩ | ⟨hx, hl⟩
  · rw [hl]
    exact bot_le
  · have bound := not_isNaN_iff_ofFloat.mp hx
    rw [hl, level_place hi, WithBot.coe_le_coe, top, place]
    cases sign x <;> simp only [Sign.apply] <;> omega

theorem eq_or_zeros_of_level (h : level x = level y) :
    x = y ∨ x = 0 ∧ y = -0 ∨ x = -0 ∧ y = 0 := by
  rcases level_cases x with ⟨hx, hl⟩ | ⟨hx, hl⟩
  · rw [hl] at h
    exact .inl ((eq_nan hx).trans (eq_nan (isNaN_of_level h.symm)).symm)
  · rcases level_cases y with ⟨-, hl'⟩ | ⟨hy, hl'⟩
    · rw [hl, hl'] at h
      exact absurd h WithBot.coe_ne_bot
    · rw [hl, hl'] at h
      exact eq_or_zeros_of_place hx hy (WithBot.coe_inj.mp h)

/-! ## Finite doubles stand in the order of their numbers -/

theorem apply_le_apply {f : Nat → Nat} (hf : StrictMono f) (hz : f 0 = 0) (s s' : Sign)
    (r r' : Nat) : s.apply (f r) ≤ s'.apply (f r') ↔ s.apply r ≤ s'.apply r' := by
  have hle := hf.le_iff_le (a := r) (b := r')
  have hge := hf.le_iff_le (a := r') (b := r)
  have zero := hf.le_iff_le (a := r) (b := 0)
  have zero' := hf.le_iff_le (a := r') (b := 0)
  cases s <;> cases s' <;> simp only [Sign.apply] <;> omega

theorem le_iff_value (hx : value? x = some v) (hy : value? y = some w) : x ≤ y ↔ v ≤ w := by
  obtain ⟨hi, rfl⟩ := finite_of_value? hx
  obtain ⟨hi', rfl⟩ := finite_of_value? hy
  have hn := not_isNaN_iff_ofFloat.mpr (Nat.le_of_lt hi)
  have hn' := not_isNaN_iff_ofFloat.mpr (Nat.le_of_lt hi')
  rw [le_iff_place, div_le_div_iff_of_pos_right one_pos, Int.cast_le,
    apply_le_apply units_strictMono (by decide)]
  exact ⟨fun h => h.2.2, fun h => ⟨hn, hn', h⟩⟩

/-! ## Negation -/

theorem Unpacks.neg {s : Sign} {r : Nat} {u : UnpackedFloat} (h : Unpacks s r u) :
    Unpacks (-s) r u.neg := by
  cases h with
  | zero => exact .zero
  | finite e hm he ht hs hb hi => exact .finite e hm he ht hs hb hi
  | infinity => exact .infinity
  | nan hn => exact .nan hn

/-- A sign and a rank leave no choice. -/
theorem Unpacks.unique {s : Sign} {r r' : Nat} {u v : UnpackedFloat} (hu : Unpacks s r u)
    (hv : Unpacks s r' v) (h : r = r') : u = v := by
  have positive : 0 < infinite := by decide
  cases hu with
  | zero => cases hv with
    | zero => rfl
    | finite | infinity | nan => omega
  | infinity => cases hv with
    | infinity => rfl
    | zero | finite | nan => omega
  | nan hn => cases hv with
    | nan => rfl
    | zero | finite | infinity => omega
  | @finite _ m e t hm he ht hs hb hi => cases hv with
    | zero | infinity | nan => omega
    | @finite _ m' e' t' hm' he' ht' hs' hb' hi' =>
      have compares := compares_exponents ht ht' hs hs' hb hb'
      have same := Ordering.then_eq_eq.mp (compares.eq_eq.mpr (he.symm.trans (h.trans he')))
      obtain rfl := compare_eq_iff_eq.mp same.1
      obtain rfl := compare_eq_iff_eq.mp same.2
      rfl

theorem sign_toFloat {negative : Bool} {rank : Nat} (h : rank ≤ infinite) :
    sign (toFloat negative rank) = if negative then .negative else .positive := by
  rw [sign, isNegative_toFloat h]

theorem neg_toFloat {negative : Bool} {rank : Nat} (h : rank ≤ infinite) :
    -toFloat negative rank = toFloat (!negative) rank := by
  have hu := (unpacks (toFloat negative rank)).neg
  have hv := unpacks (toFloat (!negative) rank)
  rw [sign_toFloat h, ofFloat_toFloat h] at hu hv
  have flipped : -(if negative then Sign.negative else Sign.positive) =
      if !negative then Sign.negative else Sign.positive := by
    cases negative <;> rfl
  rw [flipped] at hu
  change Float.ofModel (.pack (toFloat negative rank).toModel.unpack.neg) = _
  rw [hu.unique hv rfl]
  exact Float.ofBits_toBits _

theorem isNegative_neg (h : ofFloat x ≤ infinite) : isNegative (-x) = !isNegative x := by
  rw [← toFloat_signed x, neg_toFloat h, isNegative_toFloat h, isNegative_toFloat h]

theorem ofFloat_neg (h : ofFloat x ≤ infinite) : ofFloat (-x) = ofFloat x := by
  rw [← toFloat_signed x, neg_toFloat h, ofFloat_toFloat h, ofFloat_toFloat h]

theorem value?_neg (h : value? x = some v) : value? (-x) = some (-v) := by
  obtain ⟨hi, rfl⟩ := finite_of_value? h
  have hle := Nat.le_of_lt hi
  rw [value?_eq, ofFloat_neg hle, if_pos hi, sign, sign, isNegative_neg hle]
  cases isNegative x <;> simp [Sign.apply, neg_div]

end FormulaLang.Magnitude
