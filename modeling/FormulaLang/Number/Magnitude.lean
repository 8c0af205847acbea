/-!
# Nonnegative doubles in ascending order

The nonnegative doubles, from zero up to infinity, are counted by rank: the rank of a double
is its bit pattern read as a number, so rank 0 is zero, rank 1 the smallest positive double and
`infinite` infinity. `units` gives the value of each rank as a whole number of 2^-1074, and
`nearest` is the rank closest to a quotient of natural numbers, the even rank on a tie.
-/
namespace FormulaLang.Magnitude

def block : Nat := 0x10000000000000

def infinite : Nat := 0x7FF0000000000000

def signBit : Nat := 0x8000000000000000

def one : Nat := 1 <<< 1074

/-- The value of a rank in units of 2^-1074. At `infinite` it is 2^1024, the value that the
next double would have if exponents went on. -/
def units (rank : Nat) : Nat :=
  if rank < block then rank else (block + rank % block) <<< (rank / block - 1)

def atMost (u : Nat) : Nat :=
  let shift := Nat.log2 u - 52
  shift * block + u >>> shift

/-- The rank nearest to `num / den`. A quotient halfway between two ranks goes to the even one,
and from halfway between the largest finite double and 2^1024 on the answer is `infinite`. -/
def nearest (num den : Nat) : Nat :=
  let exact := num * one
  let low := atMost (exact / den)
  if infinite ≤ low then infinite
  else
    let halfway := (units low + units (low + 1)) * den
    if 2 * exact < halfway then low
    else if halfway < 2 * exact then low + 1
    else if low % 2 = 0 then low else low + 1

/-- The rank of a double without its sign; above `infinite` for NaN. -/
def ofFloat (x : Float) : Nat := x.toBits.toNat % signBit

def isNegative (x : Float) : Bool := signBit ≤ x.toBits.toNat

def toFloat (negative : Bool) (rank : Nat) : Float :=
  Float.ofBits (UInt64.ofNat (if negative then signBit + rank else rank))

def infinity : Float := toFloat false infinite

/-- NaN; all doubles above infinity in rank are the same one. -/
def nan : Float := toFloat false (infinite + 1)

end FormulaLang.Magnitude
