import FormulaLang.Context.Standard
import FormulaLang.Proofs.Number.Order

/-!
# The smallest and the largest argument

The searches of `min` and `max` go through their arguments once, each from a start that gives way
to everything. On levels both are plain searches for an extreme, since NaN stands lowest: the
smallest number is NaN if one of them is, and the largest only if all of them are. So the answer
depends on which numbers are among the arguments, up to the sign of a zero.
-/
namespace FormulaLang.Builtin

open Magnitude

variable {args other : List Float} {x y m n : Float}

/-- NaN if one of the numbers is, and otherwise one of them that no other is below. -/
structure Smallest (args : List Float) (m : Float) : Prop where
  isNaN : m.isNaN = true ↔ ∃ x ∈ args, x.isNaN = true
  least : m.isNaN = false → m ∈ args ∧ ∀ x ∈ args, m ≤ x

/-- NaN if all of the numbers are, and otherwise one of them that no other is above. -/
structure Largest (args : List Float) (m : Float) : Prop where
  isNaN : m.isNaN = true ↔ ∀ x ∈ args, x.isNaN = true
  greatest : m.isNaN = false → m ∈ args ∧ ∀ x ∈ args, x.isNaN = false → x ≤ m

/-- Both zeros are among the numbers. IEEE comparison does not tell them apart. -/
def MixesZeros (args : List Float) : Prop := 0 ∈ args ∧ -0 ∈ args

/-! ## One comparison of a search -/

theorem smallerOrNaN_eq (x y : Float) :
    smallerOrNaN x y = if level y < level x then y else x := by
  unfold smallerOrNaN
  rcases level_cases x with ⟨hx, hl⟩ | ⟨hx, hl⟩
  · rw [hx, Bool.true_or, if_pos rfl, hl, if_neg not_lt_bot, eq_nan hx]
  rcases level_cases y with ⟨hy, hl'⟩ | ⟨hy, -⟩
  · rw [hy, Bool.or_true, if_pos rfl, hl, hl', if_pos (WithBot.bot_lt_coe _), eq_nan hy]
  · have lower : y < x ↔ level y < level x := lt_iff_level.trans (and_iff_right hy)
    rw [hx, hy, Bool.or_false, if_neg Bool.false_ne_true]
    simp only [lower]

theorem larger_eq (x y : Float) : larger x y = if level x < level y then y else x := by
  unfold larger
  rcases level_cases x with ⟨hx, hl⟩ | ⟨hx, hl⟩
  · rw [if_pos hx, hl]
    rcases level_cases y with ⟨hy, hl'⟩ | ⟨-, hl'⟩
    · rw [eq_nan hx, eq_nan hy, ite_self]
    · rw [hl', if_pos (WithBot.bot_lt_coe _)]
  rw [if_neg (Bool.eq_false_iff.mp hx)]
  rcases level_cases y with ⟨hy, hl'⟩ | ⟨hy, -⟩
  · rw [if_pos hy, hl', if_neg not_lt_bot]
  · have higher : x < y ↔ level x < level y := lt_iff_level.trans (and_iff_right hx)
    rw [if_neg (Bool.eq_false_iff.mp hy)]
    simp only [higher]

theorem smallerOrNaN_infinity (x : Float) : smallerOrNaN infinity x = x := by
  rw [smallerOrNaN_eq]
  split
  next => rfl
  next h =>
    have same := le_antisymm (not_lt.mp h) (level_le_infinity x)
    rcases eq_or_zeros_of_level same with h | ⟨h, -⟩ | ⟨h, -⟩
    · exact h
    · exact absurd h (by decide)
    · exact absurd h (by decide)

theorem larger_nan (x : Float) : larger nan x = x := by
  have hn : nan.isNaN = true := by decide
  rw [larger, if_pos hn]

/-! ## The searches -/

theorem minimum_mem_argmin (h : args ≠ []) : minimum args ∈ args.argmin level := by
  obtain ⟨x, xs, rfl⟩ := List.exists_cons_of_ne_nil h
  have step (m y : Float) : List.argAux (fun b c => level b < level c) (some m) y =
      some (smallerOrNaN m y) := by
    rw [smallerOrNaN_eq]
    exact (apply_ite some ..).symm
  rw [minimum, List.foldl_cons, smallerOrNaN_infinity]
  exact List.foldl_hom some step

theorem maximum_mem_argmax (h : args ≠ []) : maximum args ∈ args.argmax level := by
  obtain ⟨x, xs, rfl⟩ := List.exists_cons_of_ne_nil h
  have step (m y : Float) : List.argAux (fun b c => level c < level b) (some m) y =
      some (larger m y) := by
    rw [larger_eq]
    exact (apply_ite some ..).symm
  rw [maximum, List.foldl_cons, larger_nan]
  exact List.foldl_hom some step

theorem smallest_minimum (h : args ≠ []) : Smallest args (minimum args) := by
  have found := minimum_mem_argmin h
  have mem := List.argmin_mem found
  have lowest {x : Float} (hx : x ∈ args) : level (minimum args) ≤ level x :=
    List.le_of_mem_argmin hx found
  constructor
  · constructor
    · intro hm
      exact ⟨minimum args, mem, hm⟩
    · rintro ⟨x, hx, hn⟩
      have low := lowest hx
      rw [level_nan hn, le_bot_iff] at low
      exact isNaN_of_level low
  · intro hm
    exact ⟨mem, fun x hx => le_iff_level.mpr ⟨hm, lowest hx⟩⟩

theorem largest_maximum (h : args ≠ []) : Largest args (maximum args) := by
  have found := maximum_mem_argmax h
  have mem := List.argmax_mem found
  have highest {x : Float} (hx : x ∈ args) : level x ≤ level (maximum args) :=
    List.le_of_mem_argmax hx found
  constructor
  · constructor
    · intro hm x hx
      have high := highest hx
      rw [level_nan hm, le_bot_iff] at high
      exact isNaN_of_level high
    · intro hn
      exact hn (maximum args) mem
  · intro hm
    exact ⟨mem, fun x hx hn => le_iff_level.mpr ⟨hn, highest hx⟩⟩

/-! ## The numbers alone decide -/

theorem eq_of_le_of_le (zeros : ¬ MixesZeros args) (hx : x ∈ args) (hy : y ∈ args) (h : x ≤ y)
    (k : y ≤ x) : x = y := by
  have same := le_antisymm (le_iff_level.mp h).2 (le_iff_level.mp k).2
  rcases eq_or_zeros_of_level same with h | ⟨rfl, rfl⟩ | ⟨rfl, rfl⟩
  · exact h
  · exact absurd ⟨hx, hy⟩ zeros
  · exact absurd ⟨hy, hx⟩ zeros

theorem Smallest.unique (h : Smallest args m) (k : Smallest other n) (zeros : ¬ MixesZeros args)
    (same : ∀ x, x ∈ other ↔ x ∈ args) : m = n := by
  apply eq_of_isNaN
  · simp only [h.isNaN, k.isNaN, same]
  · intro hm hn
    obtain ⟨mem, below⟩ := h.least hm
    obtain ⟨mem', below'⟩ := k.least hn
    rw [same] at mem'
    exact eq_of_le_of_le zeros mem mem' (below n mem') (below' m ((same m).mpr mem))

/-- NaN among the numbers makes no difference to the largest. -/
theorem Largest.unique (h : Largest args m) (k : Largest other n) (zeros : ¬ MixesZeros args)
    (same : ∀ x, x.isNaN = false → (x ∈ other ↔ x ∈ args)) : m = n := by
  apply eq_of_isNaN
  · rw [h.isNaN, k.isNaN]
    constructor
    · intro all x hx
      by_contra hn
      exact hn (all x ((same x (Bool.of_not_eq_true hn)).mp hx))
    · intro all x hx
      by_contra hn
      exact hn (all x ((same x (Bool.of_not_eq_true hn)).mpr hx))
  · intro hm hn
    obtain ⟨mem, above⟩ := h.greatest hm
    obtain ⟨mem', above'⟩ := k.greatest hn
    rw [same n hn] at mem'
    exact eq_of_le_of_le zeros mem mem' (above' m ((same m hm).mpr mem) hm) (above n mem' hn)

end FormulaLang.Builtin

namespace FormulaLang

open Builtin Magnitude

namespace Standard

variable (s : Standard) {args : List Float}

theorem callBuiltin_min (h : args ≠ []) :
    s.callBuiltin "min" args = (.ok (minimum args), s) := by
  obtain ⟨x, xs, rfl⟩ := List.exists_cons_of_ne_nil h
  rfl

theorem callBuiltin_max (h : args ≠ []) :
    s.callBuiltin "max" args = (.ok (maximum args), s) := by
  obtain ⟨x, xs, rfl⟩ := List.exists_cons_of_ne_nil h
  rfl

end Standard

/-- `min` and `max` answer with the smallest and the largest of their arguments. Other arguments
get the same answers if they are the same numbers, in whatever order and however often, and NaN
may come or go for `max` as long as there is a number. -/
theorem min_max_of_arguments (s : Standard) {args : List Float} (nonempty : args ≠ [])
    (zeros : ¬ MixesZeros args) :
    ∃ low high, s.callBuiltin "min" args = (.ok low, s) ∧ s.callBuiltin "max" args = (.ok high, s) ∧
      Smallest args low ∧ Largest args high ∧
      (∀ other, (∀ x, x ∈ other ↔ x ∈ args) →
        s.callBuiltin "min" other = (.ok low, s) ∧ s.callBuiltin "max" other = (.ok high, s)) ∧
      ((∃ x ∈ args, x.isNaN = false) →
        ∀ other, (∀ x, x.isNaN = false → (x ∈ other ↔ x ∈ args)) →
          s.callBuiltin "max" other = (.ok high, s)) := by
  have low := smallest_minimum nonempty
  have high := largest_maximum nonempty
  refine ⟨minimum args, maximum args, s.callBuiltin_min nonempty, s.callBuiltin_max nonempty, low,
    high, ?_, ?_⟩
  · intro other same
    obtain ⟨x, hx⟩ := List.exists_mem_of_ne_nil args nonempty
    have nonempty' := List.ne_nil_of_mem ((same x).mpr hx)
    rw [s.callBuiltin_min nonempty', s.callBuiltin_max nonempty',
      low.unique (smallest_minimum nonempty') zeros same,
      high.unique (largest_maximum nonempty') zeros fun x _ => same x]
    exact ⟨rfl, rfl⟩
  · rintro ⟨x, hx, hn⟩ other same
    have nonempty' := List.ne_nil_of_mem ((same x hn).mpr hx)
    rw [s.callBuiltin_max nonempty', high.unique (largest_maximum nonempty') zeros same]

theorem min_max_of_arguments_infinityTwice :
    let s := Standard.fresh fun _ => 0
    let args := [infinity, -0, infinity]
    args ≠ [] ∧ ¬ MixesZeros args ∧ ∃ low high, Smallest args low ∧ Largest args high ∧
      s.callBuiltin "min" args = (.ok low, s) ∧ s.callBuiltin "max" args = (.ok high, s) ∧
      s.callBuiltin "min" [-0, infinity] = (.ok low, s) ∧
      s.callBuiltin "max" [nan, -0, infinity] = (.ok high, s) := by
  intro s args
  have nonempty : args ≠ [] := List.cons_ne_nil _ _
  have finite : (0 : Float) ≠ infinity ∧ (0 : Float) ≠ -0 := by decide
  have zeros : ¬ MixesZeros args := by
    rintro ⟨zero, -⟩
    simp [args, finite] at zero
  have number : (-0 : Float).isNaN = false ∧ nan.isNaN = true := by decide
  obtain ⟨low, high, min, max, smallest, largest, once, numbers⟩ :=
    min_max_of_arguments s nonempty zeros
  refine ⟨nonempty, zeros, low, high, smallest, largest, min, max, (once _ fun x => ?_).1,
    numbers ⟨-0, by simp [args], number.1⟩ _ fun x hx => ?_⟩
  · simp only [args, List.mem_cons]
    tauto
  · have hn : x ≠ nan := by
      rintro rfl
      exact Bool.noConfusion (hx.symm.trans number.2)
    simp only [args, List.mem_cons]
    tauto

end FormulaLang
