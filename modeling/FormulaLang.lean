import FormulaLang.Expr.StackMachine
import FormulaLang.Expr.Written
import FormulaLang.Main
import FormulaLang.Proofs.Parser.Transitions
import FormulaLang.Proofs.Sentences
import FormulaLang.Proofs.Parser.Soundness
import FormulaLang.Proofs.Parser.Blame
import FormulaLang.Proofs.Parser.Completeness
import FormulaLang.Proofs.Parser.Language
import FormulaLang.Proofs.Parser.SyntaxErrors
import FormulaLang.Proofs.Parser.DepthLimit
import FormulaLang.Proofs.Token.Lexing
import FormulaLang.Proofs.Evaluation.Requests
import FormulaLang.Proofs.Expr.RoundTrip
import FormulaLang.Proofs.Parser.Calls
import FormulaLang.Proofs.Parser.Parentheses
import FormulaLang.Proofs.Parser.Relocation
import FormulaLang.Proofs.Evaluation.Names
import FormulaLang.Proofs.Text.Reads
import FormulaLang.Proofs.Token.Passing
import FormulaLang.Proofs.Token.Failures
import FormulaLang.Proofs.Token.Places
import FormulaLang.Proofs.Token.ReadingAhead
import FormulaLang.Proofs.Token.Spacing
import FormulaLang.Proofs.Number.Values
import FormulaLang.Proofs.Number.NearestDouble
import FormulaLang.Proofs.Number.Extremes
import FormulaLang.Proofs.Number.HalfEven
import FormulaLang.Proofs.Token.Numerals
import FormulaLang.Proofs.Evaluation.Agreement
import FormulaLang.Proofs.Evaluation.Sessions
import FormulaLang.Proofs.Expr.Listing
import FormulaLang.Proofs.CommandLine.Options
import FormulaLang.Proofs.CommandLine.Runs
