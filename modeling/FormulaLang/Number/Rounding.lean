import FormulaLang.Number.Magnitude

/-!
# Rounding doubles to whole numbers

Each rule is an exact function on magnitudes, counted in units of 2^-1074, and keeps the sign
of the double it is applied to. Infinities and NaN are their own roundings. `remainder` is the
exact remainder of a division that rounds its quotient toward zero.
-/
namespace FormulaLang.Rounding

open Magnitude (one units)

def down (u : Nat) : Nat := u / one

def up (u : Nat) : Nat := (u + (one - 1)) / one

def nearestUp (u : Nat) : Nat := (u + one / 2) / one

/-- The nearest whole number; a half is settled by rounding half the value and doubling. -/
def nearestEven (u : Nat) : Nat :=
  if 2 * (u % one) = one then 2 * nearestUp (u / 2) else nearestUp u

def onMagnitude (rule : Nat → Nat) (x : Float) : Float :=
  let rank := Magnitude.ofFloat x
  if rank < Magnitude.infinite then
    Magnitude.toFloat (Magnitude.isNegative x) (Magnitude.nearest (rule (units rank)) 1)
  else x

def truncate (x : Float) : Float := onMagnitude down x

def floor (x : Float) : Float := onMagnitude (if Magnitude.isNegative x then up else down) x

def ceiling (x : Float) : Float := onMagnitude (if Magnitude.isNegative x then down else up) x

def halfEven (x : Float) : Float := onMagnitude nearestEven x

/-- What is left of `x` after taking away the largest whole multiple of `y` that is not larger in
magnitude. The sign is that of `x`. An infinite `x` or a zero `y` leaves NaN. -/
def remainder (x y : Float) : Float :=
  let a := Magnitude.ofFloat x
  let b := Magnitude.ofFloat y
  if Magnitude.infinite ≤ a || Magnitude.infinite < b || b = 0 then Magnitude.nan
  else if b = Magnitude.infinite then x
  else Magnitude.toFloat (Magnitude.isNegative x) (Magnitude.atMost (units a % units b))

end FormulaLang.Rounding
