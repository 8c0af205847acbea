import FormulaLang.Number.Shortest

/-!
# Numbers as text

A finite double is written with the digits of its shortest decimal. A `NumberFormat` says
where the point goes: `plain` never uses an exponent and writes whole numbers without a point,
`tagged` always shows a point or an exponent, so that the text cannot be taken for an integer.
-/
namespace FormulaLang

structure NumberFormat where
  /-- The fewest places after the point in positional form. -/
  leastPlaces : Nat
  /-- The powers of ten of the leading digit, lowest and first too high, that are written in
  positional form. All others take an exponent; with `none` no number does. -/
  positional : Option (Int × Int)
  deriving DecidableEq, Repr

namespace NumberFormat

def plain : NumberFormat := ⟨0, none⟩

def tagged : NumberFormat := ⟨1, some (-4, 16)⟩

def trimZeros (digits : List Char) : List Char :=
  match (digits.reverse.dropWhile (· = '0')).reverse with
  | [] => ['0']
  | trimmed => trimmed

def joinPoint (whole places : List Char) : List Char :=
  if places.isEmpty then whole else whole ++ '.' :: places

/-- Positional text of significant digits whose first has the weight 10^lead. -/
def positionalText (format : NumberFormat) (digits : List Char) (lead : Int) : List Char :=
  let (whole, places) : List Char × List Char :=
    match lead with
    | .ofNat n =>
      (digits.take (n + 1) ++ List.replicate (n + 1 - digits.length) '0', digits.drop (n + 1))
    | .negSucc n => (['0'], List.replicate n '0' ++ digits)
  joinPoint whole (places ++ List.replicate (format.leastPlaces - places.length) '0')

def exponentText (digits : List Char) (lead : Int) : List Char :=
  joinPoint (digits.take 1) (digits.drop 1) ++ 'e' :: (toString lead).toList

def decimalText (format : NumberFormat) (d : Decimal) : List Char :=
  let all := Nat.toDigits 10 d.digits
  let digits := trimZeros all
  let lead : Int := if d.digits = 0 then 0 else all.length - 1 + d.exponent
  match format.positional with
  | none => format.positionalText digits lead
  | some (low, high) =>
    if low ≤ lead && lead < high then format.positionalText digits lead
    else exponentText digits lead

def magnitudeText (format : NumberFormat) (rank : Nat) : List Char :=
  if rank = Magnitude.infinite then "inf".toList
  else format.decimalText (Decimal.shortest rank)

def write (format : NumberFormat) (x : Float) : String :=
  let rank := Magnitude.ofFloat x
  if Magnitude.infinite < rank then "NaN"
  else
    let body := format.magnitudeText rank
    String.ofList (if Magnitude.isNegative x then '-' :: body else body)

end NumberFormat

end FormulaLang
