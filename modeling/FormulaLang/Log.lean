import FormulaLang.Expr
import FormulaLang.Token

/-!
# Log records

What the library reports while it works: each token that the parser takes, each complete
parse, each function call that a formula makes and each variable bound on the command line.
A name may hold line feeds, so a record may take several lines; all but its first stand in, and
none of them reads as a record of its own.
-/
namespace FormulaLang

inductive LogLevel where
  | debug
  | trace
  deriving DecidableEq, Repr

def LogLevel.name : LogLevel → String
  | .debug => "DEBUG"
  | .trace => "TRACE"

structure LogRecord where
  level : LogLevel
  target : String
  message : String
  deriving DecidableEq, Repr

namespace LogRecord

def token (l : Lexeme) : LogRecord := ⟨.trace, "calc_expr::parser", "token " ++ l.listing⟩

def parsed (e : Expr) : LogRecord :=
  ⟨.debug, "calc_expr::parser", "parsed expression " ++ e.listing⟩

def argsText (args : List Float) : String :=
  "[" ++ ", ".intercalate (args.map NumberFormat.tagged.write) ++ "]"

/-- A function is about to be looked up and called. -/
def call (name : String) (args : List Float) : LogRecord :=
  ⟨.trace, "calc_expr::context", "call " ++ name ++ argsText args⟩

def binding (name : String) (value : Float) : LogRecord :=
  ⟨.debug, "calc_expr", "binding " ++ name ++ " = " ++ NumberFormat.plain.write value⟩

/-- A message whose later lines stand four spaces in. -/
def indented (message : String) : String :=
  String.ofList (message.toList.flatMap fun c =>
    if c = '\n' then c :: List.replicate 4 ' ' else [c])

def text (r : LogRecord) : String := s!"{r.level.name} {r.target}] {indented r.message}"

end LogRecord

end FormulaLang
