import FormulaLang.Text.Source
import FormulaLang.Token

/-!
# Token errors

What can stand in the place of a token: a failing read, or a number without digits.
-/
namespace FormulaLang

/-- Why there is no token. -/
inductive TokenError where
  | unreadable (error : ReadError)
  | malformedNumber (text : String) (detail : String) (first last : Position)

def TokenError.message : TokenError → String
  | .unreadable error => s!"unable to read expression: {error.detail}"
  | .malformedNumber text detail first _ =>
    s!"unable to parse number '{text}' at {first.text}: {detail}"

end FormulaLang
