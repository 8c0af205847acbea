import FormulaLang.Expr.Evaluation
import FormulaLang.Expr.Postorder

/-!
# Running instruction lists

A stack of values, the latest on top, runs the postorder of an expression: numbers are pushed,
names asked for, and operations and calls replace their operands by their result. A machine
that finds too few values on its stack stops without a result.
-/
namespace FormulaLang.StackMachine

variable {m : Type → Type u} [Monad m]

def step (context : Context m) (stack : List Float) : Instruction → m (Option (List Float))
  | .push value => pure (some (value :: stack))
  | .load name => do
    let value ← context.resolve name
    pure (some (value :: stack))
  | .negate =>
    match stack with
    | x :: rest => pure (some (-x :: rest))
    | [] => pure none
  | .apply op =>
    match stack with
    | y :: x :: rest => pure (some (op.apply x y :: rest))
    | _ => pure none
  | .call callee count =>
    if count ≤ stack.length then do
      let value ← context.call callee (stack.take count).reverse
      pure (some (value :: stack.drop count))
    else pure none

def run (context : Context m) : List Instruction → List Float → m (Option (List Float))
  | [], stack => pure (some stack)
  | instruction :: rest, stack => do
    match ← step context stack instruction with
    | some stack => run context rest stack
    | none => pure none

end FormulaLang.StackMachine
