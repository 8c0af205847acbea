import FormulaLang.Expr

/-!
# Expressions as instruction lists

An expression flattened in postorder: operands before the operation that joins them, from left
to right. `ofPostorder?` rebuilds the tree with a stack and fails unless the list is the
postorder of exactly one tree.
-/
namespace FormulaLang

inductive Instruction where
  | push (value : Float)
  | load (name : String)
  | negate
  | apply (op : BinaryOp)
  | call (callee : String) (count : Nat)

namespace Expr

mutual

def postorder : Expr → List Instruction
  | .num value => [.push value]
  | .var name => [.load name]
  | .call callee args => argsPostorder args ++ [.call callee args.length]
  | .neg operand => postorder operand ++ [.negate]
  | .binary op lhs rhs => postorder lhs ++ postorder rhs ++ [.apply op]

def argsPostorder : List Expr → List Instruction
  | [] => []
  | arg :: args => postorder arg ++ argsPostorder args

end

/-- Applies one instruction to a stack of trees, the latest on top. -/
def stack? (trees : List Expr) : Instruction → Option (List Expr)
  | .push value => some (.num value :: trees)
  | .load name => some (.var name :: trees)
  | .negate =>
    match trees with
    | operand :: rest => some (.neg operand :: rest)
    | [] => none
  | .apply op =>
    match trees with
    | rhs :: lhs :: rest => some (.binary op lhs rhs :: rest)
    | _ => none
  | .call callee count =>
    if count ≤ trees.length then
      some (.call callee (trees.take count).reverse :: trees.drop count)
    else none

def ofPostorder? (instructions : List Instruction) : Option Expr :=
  match instructions.foldlM stack? [] with
  | some [tree] => some tree
  | _ => none

end Expr

end FormulaLang
