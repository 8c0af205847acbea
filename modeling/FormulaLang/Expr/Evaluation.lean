import FormulaLang.Expr

/-!
# Evaluating expressions

A context gives meaning to names, in any monad: it may fail, remember what it was asked, or
draw random numbers. Evaluation asks it once for every place where a name stands, operands and
arguments from left to right and before the operation or call they belong to, and stops at the
first failure.
-/
namespace FormulaLang

/-- The meaning of variable and function names. -/
structure Context (m : Type → Type u) where
  resolve : String → m Float
  call : String → List Float → m Float

variable {m : Type → Type u} [Monad m]

mutual

def evaluate (context : Context m) : Expr → m Float
  | .num value => pure value
  | .var name => context.resolve name
  | .call callee args => do
    let values ← evaluateArgs context args
    context.call callee values
  | .neg operand => do
    let value ← evaluate context operand
    pure (-value)
  | .binary op lhs rhs => do
    let x ← evaluate context lhs
    let y ← evaluate context rhs
    pure (op.apply x y)

def evaluateArgs (context : Context m) : List Expr → m (List Float)
  | [] => pure []
  | arg :: args => do
    let value ← evaluate context arg
    let values ← evaluateArgs context args
    pure (value :: values)

end

end FormulaLang
