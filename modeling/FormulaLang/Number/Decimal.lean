import FormulaLang.Number.Magnitude

/-!
# Decimal numbers and float literals

A `Decimal` is a whole number times a power of ten. `Decimal.rank` rounds it to the nearest
double; `Literal.read` gives the meaning of a float literal: an optional sign, then digits with
at most one point and an optional exponent, or a name for infinity or NaN.
-/
namespace FormulaLang

def tenPow (n : Nat) : Nat := Nat.pow 10 n

structure Decimal where
  digits : Nat
  exponent : Int
  deriving DecidableEq, Repr

namespace Decimal

/-- The rank nearest to the number. Exponents that put the number beyond every finite double,
or far below half of the smallest one, are settled without computing the power. -/
def rank (d : Decimal) : Nat :=
  if d.digits = 0 then 0
  else if 400 < d.exponent then Magnitude.infinite
  else if d.exponent + Nat.log2 d.digits < -400 then 0
  else match d.exponent with
    | .ofNat e => Magnitude.nearest (d.digits * tenPow e) 1
    | .negSucc e => Magnitude.nearest d.digits (tenPow (e + 1))

end Decimal

def digitsValue (digits : List Char) : Nat :=
  digits.foldl (fun n c => 10 * n + (c.toNat - '0'.toNat)) 0

namespace Literal

inductive Error where
  | empty
  | malformed
  deriving DecidableEq, Repr

def Error.message : Error → String
  | .empty => "cannot parse float from empty string"
  | .malformed => "invalid float literal"

def splitSign : List Char → Bool × List Char
  | '-' :: rest => (true, rest)
  | '+' :: rest => (false, rest)
  | text => (false, text)

def readExponent? (text : List Char) : Option Int :=
  let (negative, digits) := splitSign text
  if digits.isEmpty || !digits.all Char.isDigit then none
  else if negative then some (-(digitsValue digits : Int))
  else some (digitsValue digits)

def readScale? : List Char → Option Int
  | [] => some 0
  | c :: rest => if c = 'e' || c = 'E' then readExponent? rest else none

def splitFraction : List Char → List Char × List Char
  | '.' :: rest => rest.span Char.isDigit
  | text => ([], text)

/-- An unsigned decimal literal. At least one digit stands before or after the point. -/
def readDecimal? (text : List Char) : Option Decimal :=
  let (whole, afterWhole) := text.span Char.isDigit
  let (fraction, rest) := splitFraction afterWhole
  if whole.isEmpty && fraction.isEmpty then none
  else (readScale? rest).map fun scale =>
    ⟨digitsValue (whole ++ fraction), scale - fraction.length⟩

/-- The values that are written by name, in any mix of upper and lower case. -/
def readName? (text : List Char) : Option Float :=
  let name := text.map Char.toLower
  if name = "inf".toList || name = "infinity".toList then
    some Magnitude.infinity
  else if name = "nan".toList then some Magnitude.nan
  else none

def readUnsigned? (text : List Char) : Option Float :=
  match readDecimal? text with
  | some d => some (Magnitude.toFloat false d.rank)
  | none => readName? text

def read (text : List Char) : Except Error Float :=
  if text.isEmpty then .error .empty
  else
    let (negative, body) := splitSign text
    match readUnsigned? body with
    | some value => .ok (if negative then -value else value)
    | none => .error .malformed

end Literal

end FormulaLang
