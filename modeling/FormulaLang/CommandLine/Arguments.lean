import FormulaLang.CommandLine.Similarity

/-!
# The words of the command line

The program is called with options, at most one expression and a command, in this order of
places: options and expression before the command, the command's own options after it. A
hyphen does not make a word an option: unless it is a known one, it is the expression. A word
that looks like a misspelt command is taken for no expression.
-/
namespace FormulaLang

inductive Command where
  | tokenize
  | ast
  | eval (definitions : List String)
  deriving DecidableEq, Repr

structure Invocation where
  verbosity : Nat
  maxDepth : Option String
  expression : Option String
  command : Command
  deriving DecidableEq, Repr

inductive Request where
  | run (invocation : Invocation)
  | version (text : String)
  | help
  | misuse
  deriving DecidableEq, Repr

namespace Arguments

def programName : String := "calc-expr"

def programVersion : String := "0.1.0"

def commandNames : List String := ["tokenize", "ast", "eval", "help"]

def resemblesCommand (word : String) : Bool :=
  commandNames.any fun name => 0.8 < Similarity.jaroWinkler word name

inductive Hyphened where
  /-- Two hyphens alone: no options follow. -/
  | separator
  | long (name : String) (value : Option String)
  | short (letters : List Char)
  deriving DecidableEq, Repr

def dropLeading (c : Char) (text : List Char) : List Char := text.dropWhile (· = c)

def attachedValue (text : List Char) : String := String.ofList (dropLeading '=' text)

def splitLong (text : List Char) : Hyphened :=
  let (name, rest) := text.span (· ≠ '=')
  match rest with
  | [] => .long (String.ofList name) none
  | _ :: value => .long (String.ofList name) (some (attachedValue value))

def hyphened? (word : String) : Option Hyphened :=
  match word.toList with
  | ['-', '-'] => some .separator
  | '-' :: '-' :: rest => some (splitLong (dropLeading '-' rest))
  | '-' :: c :: rest => some (.short (c :: rest))
  | _ => none

def readFlags (verbosity : Nat) : List Char → Except Request Nat
  | [] => .ok verbosity
  | 'v' :: rest => readFlags (verbosity + 1) rest
  | 'h' :: _ => .error .help
  | 'V' :: _ => .error (.version s!"{programName} {programVersion}")
  | _ :: _ => .error .misuse

/-- The version text of a command. Commands have no version of their own. -/
def commandVersion (command : String) : Request := .version s!"{programName}-{command} "

def readBareLetters (command : String) : List Char → Request
  | 'h' :: _ => .help
  | 'V' :: _ => commandVersion command
  | _ => .misuse

/-- The words behind a command without options of its own; `.ok` if they ask for nothing. -/
def readBare (command : String) : List String → Except Request Unit
  | [] => .ok ()
  | word :: rest =>
    match hyphened? word with
    | some .separator => if rest.isEmpty then .ok () else .error .misuse
    | some (.long "help" _) => .error .help
    | some (.long "version" _) => .error (commandVersion command)
    | some (.short letters) => .error (readBareLetters command letters)
    | _ => .error .misuse

def readDefineLetters : List Char → Except Request (Option String)
  | ['D'] => .ok none
  | 'D' :: value => .ok (some (attachedValue value))
  | letters => .error (readBareLetters "eval" letters)

/-- The definitions at the end of the words. An announced definition must be there unless
another one is. -/
def finishDefinitions (awaiting : Bool) (definitions : List String) :
    Except Request (List String) :=
  if awaiting && definitions.isEmpty then .error .misuse else .ok definitions

/-- The words behind `eval`: definitions, each announced by an option. An option that announces
one again before it has come changes nothing. -/
def readDefinitions (awaiting : Bool) (definitions : List String) :
    List String → Except Request (List String)
  | [] => finishDefinitions awaiting definitions
  | word :: rest =>
    match hyphened? word with
    | some .separator =>
      if rest.isEmpty then finishDefinitions awaiting definitions else .error .misuse
    | some (.long "define" (some value)) => readDefinitions false (definitions ++ [value]) rest
    | some (.long "define" none) => readDefinitions true definitions rest
    | some (.long "help" _) => .error .help
    | some (.long "version" _) => .error (commandVersion "eval")
    | some (.long _ _) => .error .misuse
    | some (.short letters) =>
      match readDefineLetters letters with
      | .ok (some value) => readDefinitions false (definitions ++ [value]) rest
      | .ok none => readDefinitions true definitions rest
      | .error request => .error request
    | none =>
      if awaiting then readDefinitions false (definitions ++ [word]) rest else .error .misuse

def readHelp : List String → Request
  | [] => .help
  | [name] => if commandNames.contains name then .help else .misuse
  | _ => .misuse

structure Front where
  verbosity : Nat
  depths : List String
  expression : Option String
  deriving DecidableEq, Repr

def finish (front : Front) (command : Command) : Request :=
  match front.depths with
  | [] => .run ⟨front.verbosity, none, front.expression, command⟩
  | [depth] => .run ⟨front.verbosity, some depth, front.expression, command⟩
  | _ => .misuse

def command? (front : Front) (word : String) (rest : List String) : Option Request :=
  if word = "tokenize" || word = "ast" then
    let command := if word = "ast" then Command.ast else .tokenize
    match readBare word rest with
    | .ok () => some (finish front command)
    | .error request => some request
  else if word = "eval" then
    match readDefinitions false [] rest with
    | .ok definitions => some (finish front (.eval definitions))
    | .error request => some request
  else if word = "help" then some (readHelp rest)
  else none

def takeExpression (front : Front) (word : String) : Except Request Front :=
  if resemblesCommand word || front.expression.isSome then .error .misuse
  else .ok { front with expression := some word }

def readWord (front : Front) (word : String) : Except Request Front :=
  match hyphened? word with
  | some .separator => .error .misuse
  | some (.long "max-depth" (some depth)) =>
    .ok { front with depths := front.depths ++ [depth] }
  | some (.long "verbose" _) => .ok { front with verbosity := front.verbosity + 1 }
  | some (.long "help" _) => .error .help
  | some (.long "version" _) => .error (.version s!"{programName} {programVersion}")
  | some (.short letters) =>
    if letters.all fun c => c = 'v' || c = 'h' || c = 'V' then
      (readFlags front.verbosity letters).map fun verbosity => { front with verbosity }
    else takeExpression front word
  | _ => takeExpression front word

/-- Whether the value of the depth option is the next word, whatever that is. -/
def announcesDepth (word : String) : Bool := hyphened? word = some (.long "max-depth" none)

def readFront (front : Front) : List String → Request
  | [] => .misuse
  | word :: rest =>
    match command? front word rest with
    | some request => request
    | none =>
      if announcesDepth word then
        match rest with
        | [] => .misuse
        | depth :: rest => readFront { front with depths := front.depths ++ [depth] } rest
      else
        match readWord front word with
        | .ok front => readFront front rest
        | .error request => request

def read (words : List String) : Request := readFront ⟨0, [], none⟩ words

end Arguments

end FormulaLang
