import FormulaLang.Expr

/-!
# Expressions as formulas

The text of an expression in the usual notation, with parentheses only where they are needed:
around a sum on the right of a sum and on the left of a product, and around any operation on the
right of a product and under a minus sign. Here a difference is a sum and a quotient a product.
-/
namespace FormulaLang.Expr

/-- A number in a formula. Infinity is written as a number too large for a double. -/
def numberWritten (value : Float) : String :=
  if Magnitude.ofFloat value = Magnitude.infinite && !Magnitude.isNegative value then
    String.ofList ('1' :: List.replicate 309 '0')
  else NumberFormat.plain.write value

def isSum : Expr → Bool
  | .binary .add _ _ => true
  | .binary .sub _ _ => true
  | _ => false

def isOperation : Expr → Bool
  | .binary _ _ _ => true
  | _ => false

def enclose (needed : Bool) (text : String) : String :=
  if needed then "(" ++ text ++ ")" else text

mutual

def written : Expr → String
  | .num value => numberWritten value
  | .var name => name
  | .call callee args => callee ++ "(" ++ argsWritten args ++ ")"
  | .neg operand => "-" ++ enclose operand.isOperation (written operand)
  | .binary .add lhs rhs => written lhs ++ "+" ++ enclose rhs.isSum (written rhs)
  | .binary .sub lhs rhs => written lhs ++ "-" ++ enclose rhs.isSum (written rhs)
  | .binary .mul lhs rhs =>
    enclose lhs.isSum (written lhs) ++ "*" ++ enclose rhs.isOperation (written rhs)
  | .binary .div lhs rhs =>
    enclose lhs.isSum (written lhs) ++ "/" ++ enclose rhs.isOperation (written rhs)

def argsWritten : List Expr → String
  | [] => ""
  | [arg] => written arg
  | arg :: args => written arg ++ "," ++ argsWritten args

end

end FormulaLang.Expr
