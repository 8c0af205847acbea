import FormulaLang.Token.Error

/-!
# Parse errors

The ways in which tokens can fail to be one expression, each with the place it is seen at.
-/
namespace FormulaLang

/-- Why tokens are no expression. -/
inductive ParseError where
  | token (error : TokenError)
  | unexpectedToken (expected : String) (found : Token) (place : Position)
  | unexpectedEof (expected : String) (place : Position)
  | unclosedParen (opened : Position) (found : Token) (place : Position)
  | trailingInput (found : Token) (place : Position)
  | tooDeep (limit : Nat) (place : Position)

def ParseError.message : ParseError → String
  | .token error => error.message
  | .unexpectedToken expected found place =>
    s!"expected {expected} at {place.text}, found {found.description}"
  | .unexpectedEof expected place =>
    s!"expected {expected} at {place.text}, found end of input"
  | .unclosedParen opened found place =>
    s!"'(' opened at {opened.text} is not closed, found {found.description} at {place.text}"
  | .trailingInput found place =>
    s!"unexpected {found.description} after complete expression at {place.text}"
  | .tooDeep limit place => s!"expression nested deeper than {limit} levels at {place.text}"

end FormulaLang
