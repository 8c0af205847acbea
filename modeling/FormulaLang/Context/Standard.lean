import FormulaLang.Context.Bindings
import FormulaLang.Context.Builtin
import FormulaLang.Expr.Evaluation
import FormulaLang.Log

/-!
# The standard context

Variables and functions that a host has bound, and behind them the built-in constants and
functions, which a binding of the same name hides. Variables and functions have separate
names. A host function sees how it was called before, so it may count or vary its answers, and
it checks its arguments itself. Random numbers come from a fixed but arbitrary sequence.
-/
namespace FormulaLang

/-- A function of the host: from its earlier argument lists, the latest first, and the present
arguments to a value or an error. -/
abbrev HostFunction := List (List Float) → List Float → Except EvalError Float

structure Registered where
  function : HostFunction
  earlier : List (List Float)

/-- The bindings, the random numbers to come, and every call asked for, the latest first. -/
structure Standard where
  values : Bindings Float
  functions : Bindings Registered
  draws : Nat → Float
  drawn : Nat
  calls : List (String × List Float)

namespace Standard

def fresh (draws : Nat → Float) : Standard := ⟨.empty, .empty, draws, 0, []⟩

def setVariable (s : Standard) (name : String) (value : Float) : Standard :=
  { s with values := s.values.set name value }

def register (s : Standard) (name : String) (function : HostFunction) : Standard :=
  { s with functions := s.functions.set name ⟨function, []⟩ }

def draw (s : Standard) : Float × Standard :=
  (s.draws s.drawn, { s with drawn := s.drawn + 1 })

def resolve (s : Standard) (name : String) : Except EvalError Float × Standard :=
  match s.values.get? name with
  | some value => (.ok value, s)
  | none =>
    if name = "e" then (.ok Builtin.euler, s)
    else if name = "pi" then (.ok Builtin.pi, s)
    else if name = "r" then
      let (value, s) := s.draw
      (.ok value, s)
    else (.error (.unknownVariable name), s)

def callBuiltin (s : Standard) (name : String) (args : List Float) :
    Except EvalError Float × Standard :=
  match Builtin.named? name with
  | none => (.error (.unknownFunction name), s)
  | some builtin =>
    match builtin.invoke? (s.draws s.drawn) args with
    | some value => (.ok value, if builtin.isRandom then s.draw.2 else s)
    | none => (.error (.wrongArity name builtin.arity args.length), s)

/-- Calls a function: the host's if it has bound the name, or else the built-in one. The call is
noted before the name is looked up. -/
def call (s : Standard) (name : String) (args : List Float) :
    Except EvalError Float × Standard :=
  let s := { s with calls := (name, args) :: s.calls }
  match s.functions.get? name with
  | some ⟨function, earlier⟩ =>
    (function earlier args,
      { s with functions := s.functions.set name ⟨function, args :: earlier⟩ })
  | none => s.callBuiltin name args

def context : Context (ExceptT EvalError (StateM Standard)) where
  resolve name := ExceptT.mk fun s => s.resolve name
  call name args := ExceptT.mk fun s => s.call name args

def eval (s : Standard) (e : Expr) : Except EvalError Float × Standard :=
  ((evaluate context e).run.run s)

def log (s : Standard) : List LogRecord :=
  s.calls.reverse.map fun (name, args) => .call name args

def clearLog (s : Standard) : Standard := { s with calls := [] }

def variableListing (name : String) (value : Float) : String :=
  Text.quotedString name ++ ": " ++ NumberFormat.tagged.write value

def listing (s : Standard) : String :=
  "StandardContext \x7b variables: \x7b" ++
    ", ".intercalate (s.values.entries.map fun (name, value) => variableListing name value) ++
    "\x7d, functions: [" ++
    ", ".intercalate (s.functions.entries.map fun (name, _) => Text.quotedString name) ++
    "] \x7d"

end Standard

end FormulaLang
