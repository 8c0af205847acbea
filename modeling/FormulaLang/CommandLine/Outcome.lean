import FormulaLang.CommandLine.Arguments
import FormulaLang.Context.Standard
import FormulaLang.Expr.Parser

/-!
# What an invocation does

The depth is read first, then the definitions from left to right, then the expression, which
is evaluated last. The first failure ends the run: its message is all there is, except that a
listing of tokens keeps the lines before it.
-/
namespace FormulaLang

structure Outcome where
  log : List LogRecord
  output : List String
  failure : Option String
  deriving DecidableEq, Repr

namespace Outcome

def status (o : Outcome) : Nat := if o.failure.isSome then 1 else 0

def failed (log : List LogRecord) (message : String) : Outcome := ⟨log, [], some message⟩

end Outcome

inductive DepthError where
  | empty
  | invalidDigit
  | tooLarge
  deriving DecidableEq, Repr

def DepthError.message : DepthError → String
  | .empty => "cannot parse integer from empty string"
  | .invalidDigit => "invalid digit found in string"
  | .tooLarge => "number too large to fit in target type"

namespace Invocation

/-- Reads digits into a number below 2^64. The first offending digit decides the error. -/
def readDigits (value : Nat) : List Char → Except DepthError Nat
  | [] => .ok value
  | c :: rest =>
    if !c.isDigit then .error .invalidDigit
    else
      let next := 10 * value + (c.toNat - '0'.toNat)
      if 0x10000000000000000 ≤ next then .error .tooLarge else readDigits next rest

def readDepth (text : String) : Except DepthError Nat :=
  match text.toList with
  | [] => .error .empty
  | ['+'] => .error .invalidDigit
  | '+' :: digits => readDigits 0 digits
  | digits => readDigits 0 digits

def parseOptions (i : Invocation) : Except String ParseOptions :=
  match i.maxDepth with
  | none => .ok ⟨none⟩
  | some text =>
    match readDepth text with
    | .ok depth => .ok ⟨some depth⟩
    | .error error => .error s!"invalid --max-depth '{text}': {error.message}"

def trim (text : List Char) : List Char :=
  ((text.dropWhile Text.isBlank).reverse.dropWhile Text.isBlank).reverse

def readDefinition (definition : String) : Except String (String × Float) :=
  let (name, rest) := definition.toList.span (· ≠ '=')
  match rest with
  | [] => .error s!"expected name=value, got '{definition}'"
  | _ :: value =>
    match Literal.read (trim value) with
    | .ok number => .ok (String.ofList name, number)
    | .error error => .error s!"invalid value for '{String.ofList name}': {error.message}"

/-- Binds definitions from left to right, under their names without white space around them.
Gives the records of those bound, and the message of the first one that fails. -/
def bind (context : Standard) : List String → List LogRecord × Except String Standard
  | [] => ([], .ok context)
  | definition :: rest =>
    match readDefinition definition with
    | .error message => ([], .error message)
    | .ok (name, value) =>
      let bound := context.setVariable (String.ofList (trim name.toList)) value
      let (log, result) := bind bound rest
      (.binding name value :: log, result)

def listTokens (l : Lexer) : List String × Option TokenError :=
  match _ : l.next with
  | (.error error, _) => ([], some error)
  | (.ok lexeme, l') =>
    if _ : lexeme.token.isEof = true then ([lexeme.listing], none)
    else
      let (lines, error) := listTokens l'
      (lexeme.listing :: lines, error)
termination_by l.remaining
decreasing_by exact Lexer.remaining_next ‹_› (Bool.eq_false_iff.2 ‹_›)

/-- Lists the tokens of a source. If its first character cannot be read, the message is that
of the read alone. -/
def tokenize (source : Source) : Outcome :=
  match Lexer.start source with
  | (some error, _) => .failed [] error.detail
  | (none, lexer) =>
    let (lines, error) := listTokens lexer
    ⟨[], lines, error.map TokenError.message⟩

def showTree (options : ParseOptions) (source : Source) : Outcome :=
  let parsed := parseSource options source
  match parsed.result with
  | .ok e => ⟨parsed.log, [e.listing], none⟩
  | .error error => .failed parsed.log error.message

def evaluate (options : ParseOptions) (context : Standard) (definitions : List String)
    (source : Source) : Outcome :=
  match bind context definitions with
  | (bound, .error message) => .failed bound message
  | (bound, .ok context) =>
    let parsed := parseSource options source
    match parsed.result with
    | .error error => .failed (bound ++ parsed.log) error.message
    | .ok e =>
      match context.eval e with
      | (.ok value, after) =>
        ⟨bound ++ parsed.log ++ after.log, [NumberFormat.plain.write value], none⟩
      | (.error error, after) => .failed (bound ++ parsed.log ++ after.log) error.message

def source (i : Invocation) (input : Source) : Source :=
  match i.expression with
  | some text => .ofText text
  | none => input

def run (i : Invocation) (draws : Nat → Float) (input : Source) : Outcome :=
  match i.parseOptions with
  | .error message => .failed [] message
  | .ok options =>
    match i.command with
    | .tokenize => tokenize (i.source input)
    | .ast => showTree options (i.source input)
    | .eval definitions => evaluate options (.fresh draws) definitions (i.source input)

/-- Whether a record is shown: debugging from one request for more output on, tracing from
two. -/
def shows (i : Invocation) (record : LogRecord) : Bool :=
  match record.level with
  | .debug => 1 ≤ i.verbosity
  | .trace => 2 ≤ i.verbosity

def outcome (i : Invocation) (draws : Nat → Float) (input : Source) : Outcome :=
  let all := i.run draws input
  { all with log := all.log.filter i.shows }

end Invocation

end FormulaLang
