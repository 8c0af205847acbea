import FormulaLang.Number.Format

/-!
# Expression trees

What a formula means, without its text: numbers, names, calls, negations and the four
operations. Two trees are alike when they have the same shape and names and their numbers are
equal as doubles, so zero is like negative zero and NaN is unlike itself.
-/
namespace FormulaLang

inductive BinaryOp where
  | add
  | sub
  | mul
  | div
  deriving DecidableEq, Repr

namespace BinaryOp

/-- The IEEE operation; division by zero gives an infinity or NaN. -/
def apply : BinaryOp → Float → Float → Float
  | .add, x, y => x + y
  | .sub, x, y => x - y
  | .mul, x, y => x * y
  | .div, x, y => x / y

def symbol : BinaryOp → Char
  | .add => '+'
  | .sub => '-'
  | .mul => '*'
  | .div => '/'

def precedence : BinaryOp → Nat
  | .add => 1
  | .sub => 1
  | .mul => 2
  | .div => 2

end BinaryOp

inductive Expr where
  | num (value : Float)
  | var (name : String)
  | call (callee : String) (args : List Expr)
  | neg (operand : Expr)
  | binary (op : BinaryOp) (lhs rhs : Expr)

namespace Expr

mutual

def alike : Expr → Expr → Bool
  | .num x, .num y => x == y
  | .var a, .var b => a = b
  | .call f args, .call g others => f = g && allAlike args others
  | .neg e, .neg f => alike e f
  | .binary op l r, .binary op' l' r' => op = op' && alike l l' && alike r r'
  | _, _ => false

def allAlike : List Expr → List Expr → Bool
  | [], [] => true
  | e :: es, f :: fs => alike e f && allAlike es fs
  | _, _ => false

end

mutual

/-- The tree as an S-expression: `(+ 2 (* 3 4))`. -/
def listing : Expr → String
  | .num value => NumberFormat.plain.write value
  | .var name => name
  | .call callee args => "(" ++ callee ++ argsListing args ++ ")"
  | .neg operand => "(neg " ++ listing operand ++ ")"
  | .binary op lhs rhs =>
    "(" ++ op.symbol.toString ++ " " ++ listing lhs ++ " " ++ listing rhs ++ ")"

def argsListing : List Expr → String
  | [] => ""
  | arg :: args => " " ++ listing arg ++ argsListing args

end

end Expr

end FormulaLang
