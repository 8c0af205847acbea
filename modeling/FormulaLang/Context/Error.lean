/-!
# Arities and evaluation errors

How many arguments a function takes, and what can go wrong when a name is looked up.
-/
namespace FormulaLang

/-- The numbers of arguments that a function takes. -/
inductive Arity where
  | exactly (count : Nat)
  | between (least most : Nat)
  | atLeast (least : Nat)
  deriving DecidableEq, Repr

namespace Arity

def accepts : Arity → Nat → Bool
  | .exactly count, n => n = count
  | .between least most, n => least ≤ n && n ≤ most
  | .atLeast least, n => least ≤ n

def text : Arity → String
  | .exactly count => toString count
  | .between least most => s!"{least} to {most}"
  | .atLeast least => s!"at least {least}"

end Arity

inductive EvalError where
  | unknownVariable (name : String)
  | unknownFunction (name : String)
  | wrongArity (name : String) (expected : Arity) (found : Nat)
  deriving DecidableEq, Repr

def EvalError.message : EvalError → String
  | .unknownVariable name => s!"unknown variable '{name}'"
  | .unknownFunction name => s!"unknown function '{name}'"
  | .wrongArity name expected found =>
    s!"function '{name}' takes {expected.text} argument(s), got {found}"

end FormulaLang
