import FormulaLang.Number.Format
import FormulaLang.Position
import FormulaLang.Text.Quoted

/-!
# Tokens

The units of a formula's text, each with the span of characters it was read from. A character
that starts no other token is a token of its own, which no rule of the grammar uses.
-/
namespace FormulaLang

inductive Token where
  | eof
  | plus
  | minus
  | star
  | slash
  | openParen
  | closeParen
  | comma
  | identifier (name : String)
  | number (value : Float)
  | unknown (char : Char)

namespace Token

def ofChar (c : Char) : Token :=
  if c = '+' then .plus
  else if c = '-' then .minus
  else if c = '*' then .star
  else if c = '/' then .slash
  else if c = '(' then .openParen
  else if c = ')' then .closeParen
  else if c = ',' then .comma
  else .unknown c

def isEof : Token → Bool
  | .eof => true
  | _ => false

def description : Token → String
  | .eof => "end of input"
  | .plus => "'+'"
  | .minus => "'-'"
  | .star => "'*'"
  | .slash => "'/'"
  | .openParen => "'('"
  | .closeParen => "')'"
  | .comma => "','"
  | .identifier name => s!"identifier '{name}'"
  | .number value => s!"number {NumberFormat.plain.write value}"
  | .unknown char => s!"character '{Text.messageChar char}'"

def listing : Token → String
  | .eof => "Eof"
  | .plus => "Plus"
  | .minus => "Minus"
  | .star => "Star"
  | .slash => "Slash"
  | .openParen => "OpenParen"
  | .closeParen => "CloseParen"
  | .comma => "Comma"
  | .identifier name => s!"Identifier({Text.quotedString name})"
  | .number value => s!"Number({NumberFormat.tagged.write value})"
  | .unknown char => s!"Unknown({Text.quotedChar char})"

end Token

structure Lexeme where
  token : Token
  first : Position
  last : Position

namespace Lexeme

/-- A token that starts and ends at one place: one character, or the end of the input. -/
def single (token : Token) (place : Position) : Lexeme := ⟨token, place, place⟩

/-- The form of a lexeme in listings; the last place is left out where it is the first. -/
def listing (l : Lexeme) : String :=
  if l.first = l.last then s!"{l.token.listing}[{l.first.text}]"
  else s!"{l.token.listing}[{l.first.text} -> {l.last.text}]"

end Lexeme

end FormulaLang
