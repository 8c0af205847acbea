import FormulaLang.Number.Decimal

/-!
# The shortest decimal of a double

Every finite double is a whole number of 2^-1074 and so has a finite decimal expansion of at
most 1074 places. `shortest` looks for the coarsest decimal grid on which a neighbour of the
double still rounds back to it, and takes the nearer neighbour. What it returns always reads
back as the same double.
-/
namespace FormulaLang.Decimal

def exactDigits (rank : Nat) : Nat := Magnitude.units rank * Nat.pow 5 1074

/-- The neighbour of the rank's value on the grid of 10^(places - 1074) that rounds back to
the rank. If both do, the nearer one is taken, and on a tie the upper one. -/
def onGrid? (rank places : Nat) : Option Decimal :=
  let value := exactDigits rank
  let spacing := tenPow places
  let lower : Decimal := ⟨value / spacing, places - 1074⟩
  let upper : Decimal := ⟨value / spacing + 1, places - 1074⟩
  if lower.rank = rank then
    if upper.rank = rank && spacing ≤ 2 * (value % spacing) then some upper else some lower
  else if upper.rank = rank then some upper
  else none

/-- An upper bound for the number of decimal digits, at most one too high for the values of
doubles: log10 2 is a little less than 0.30103. -/
def digitBound (n : Nat) : Nat := (Nat.log2 n + 1) * 30103 / 100000 + 1

/-- The shortest decimal that rounds to a finite rank, the nearest to its value among the
shortest. It is looked for from the coarsest grid on; seventeen digits are enough for every
double. -/
def shortest (rank : Nat) : Decimal :=
  let bound := digitBound (exactDigits rank)
  ((List.range 19).findSome? fun n => onGrid? rank (bound - n)).getD ⟨exactDigits rank, -1074⟩

end FormulaLang.Decimal
