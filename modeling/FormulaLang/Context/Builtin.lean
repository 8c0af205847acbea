import FormulaLang.Context.Error
import FormulaLang.Number.Rounding

/-!
# Built-in constants and functions

Each built-in carries its arity in its shape, so its body gets exactly the arguments it is
written for. The functions follow IEEE arithmetic; NaN wins in `min` and `clamp` and loses in
`max` to every other argument.
-/
namespace FormulaLang

inductive Builtin where
  | unary (body : Float → Float)
  | binary (body : Float → Float → Float)
  | ternary (body : Float → Float → Float → Float)
  | oneOrTwo (one : Float → Float) (two : Float → Float → Float)
  | variadic (body : Float → List Float → Float)
  /-- Two arguments, and a random number from zero up to one, which comes first. -/
  | random (body : Float → Float → Float → Float)

open Magnitude (infinity nan)

namespace Builtin

def arity : Builtin → Arity
  | .unary _ => .exactly 1
  | .binary _ => .exactly 2
  | .ternary _ => .exactly 3
  | .oneOrTwo _ _ => .between 1 2
  | .variadic _ => .atLeast 1
  | .random _ => .exactly 2

def isRandom : Builtin → Bool
  | .random _ => true
  | _ => false

/-- The value for a list of arguments and a random number, or nothing if the number of
arguments is not one that the built-in takes. -/
def invoke? (draw : Float) : Builtin → List Float → Option Float
  | .unary body, [x] => some (body x)
  | .binary body, [x, y] => some (body x y)
  | .ternary body, [x, y, z] => some (body x y z)
  | .oneOrTwo one _, [x] => some (one x)
  | .oneOrTwo _ two, [x, y] => some (two x y)
  | .variadic body, x :: xs => some (body x xs)
  | .random body, [x, y] => some (body draw x y)
  | _, _ => none

theorem isSome_invoke? (draw : Float) (b : Builtin) (args : List Float) :
    (b.invoke? draw args).isSome = b.arity.accepts args.length := by
  cases b <;> rcases args with _ | ⟨x, _ | ⟨y, _ | ⟨z, _ | ⟨w, rest⟩⟩⟩⟩ <;>
    simp [invoke?, arity, Arity.accepts]

def sign (x : Float) : Float := if 0 < x then 1 else if x < 0 then -1 else x * 0

def fraction (x : Float) : Float := x.abs - Rounding.truncate x.abs

def larger (x y : Float) : Float :=
  if x.isNaN then y else if y.isNaN then x else if x < y then y else x

def smallerOrNaN (x y : Float) : Float :=
  if x.isNaN || y.isNaN then nan else if y < x then y else x

def largerOrNaN (x y : Float) : Float :=
  if x.isNaN || y.isNaN then nan else if x < y then y else x

def minimum (xs : List Float) : Float := xs.foldl smallerOrNaN infinity

def maximum (xs : List Float) : Float := xs.foldl larger nan

/-- The sum, from left to right, over the count. The sum of zeros keeps their sign. -/
def average (xs : List Float) : Float := xs.foldl (· + ·) (-0.0) / Float.ofNat xs.length

def clamp (x low high : Float) : Float := smallerOrNaN (largerOrNaN x low) high

def atThreshold (x threshold : Float) : Float := if threshold ≤ x then 1 else 0

def quantum (x size : Float) : Float := Rounding.floor (x / size) * size

/-- The logarithm to a base. There is none to the base 1, and to the bases zero and infinity
only that of 1. -/
def logarithm (x base : Float) : Float :=
  if x.isNaN then x
  else if base.isNaN || base == 1 then nan
  else if x != 1 && (base == 0 || base == infinity) then nan
  else x.log / base.log

def between (draw low high : Float) : Float := low + (high - low) * draw

def named? (name : String) : Option Builtin :=
  match name with
  | "abs" => some (.unary Float.abs)
  | "sqrt" => some (.unary Float.sqrt)
  | "trunc" => some (.unary Rounding.truncate)
  | "frac" => some (.unary fraction)
  | "sign" => some (.unary sign)
  | "round" => some (.unary Rounding.halfEven)
  | "floor" => some (.unary Rounding.floor)
  | "ceil" => some (.unary Rounding.ceiling)
  | "sin" => some (.unary Float.sin)
  | "asin" => some (.unary Float.asin)
  | "cos" => some (.unary Float.cos)
  | "acos" => some (.unary Float.acos)
  | "tan" => some (.unary Float.tan)
  | "mod" => some (.binary Rounding.remainder)
  | "pow" => some (.binary Float.pow)
  | "step" => some (.binary atThreshold)
  | "quant" => some (.binary quantum)
  | "atan2" => some (.binary Float.atan2)
  | "rand" => some (.random between)
  | "log" => some (.oneOrTwo Float.log logarithm)
  | "clamp" => some (.ternary clamp)
  | "min" => some (.variadic fun x xs => minimum (x :: xs))
  | "max" => some (.variadic fun x xs => maximum (x :: xs))
  | "avg" => some (.variadic fun x xs => average (x :: xs))
  | _ => none

def euler : Float := Float.ofBits 0x4005BF0A8B145769

def pi : Float := Float.ofBits 0x400921FB54442D18

end Builtin

end FormulaLang
