import FormulaLang.CommandLine.Outcome
import FormulaLang.Draws
import Std.Time.DateTime

/-!
# The program

Reads standard input if it is needed, runs what the command line asks for, and writes the
outcome: log records and failures to standard error, results to standard output.
-/
namespace FormulaLang.Program

def padded (width n : Nat) : String :=
  let digits := toString n
  String.ofList (List.replicate (width - digits.length) '0') ++ digits

def timestamp : IO String := do
  let now ← Std.Time.Timestamp.now
  let time := Std.Time.PlainDateTime.ofWallTime (Std.Time.WallTime.ofTimestamp now .zero)
  let date := s!"{time.year.toInt}-{padded 2 time.month.toNat}-{padded 2 time.day.toNat}"
  let clock :=
    s!"{padded 2 time.hour.toNat}:{padded 2 time.minute.toNat}:{padded 2 time.second.toNat}"
  pure s!"{date}T{clock}Z"

/-- The answers of standard input, read to its end or its first failure. -/
def standardInput : IO Source := do
  try
    let bytes ← (← IO.getStdin).readBinToEnd
    pure (.ofBytes bytes.toList)
  catch error => pure (.ofAnswers [.failure ⟨.other, toString error⟩])

def seed : IO UInt64 := do
  let bytes ← IO.getRandomBytes 8
  pure (bytes.toList.foldl (fun word byte => word * 256 + byte.toUInt64) 0)

def write (outcome : Outcome) : IO UInt32 := do
  for record in outcome.log do
    IO.eprintln s!"[{← timestamp} {record.text}"
  for line in outcome.output do
    IO.println line
  if let some message := outcome.failure then
    IO.eprintln s!"error: {message}"
  pure (UInt32.ofNat outcome.status)

def usage : String :=
  "calc-expr [-v...] [--max-depth N] [EXPR] <tokenize|ast|eval [-D name=value]...>"

def answer (words : List String) : IO UInt32 := do
  match Arguments.read words with
  | .help =>
    IO.println usage
    pure 0
  | .version text =>
    IO.println text
    pure 0
  | .misuse =>
    IO.eprintln usage
    pure 1
  | .run invocation =>
    let input ← if invocation.expression.isSome then pure (.ofText "") else standardInput
    write (invocation.outcome (Draws.ofSeed (← seed)) input)

end FormulaLang.Program

def main (args : List String) : IO UInt32 := FormulaLang.Program.answer args
