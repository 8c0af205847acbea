import FormulaLang.Text.CharClass

/-!
# Characters and strings in quotes

A listing shows a character or a string in quotes with its unusual characters escaped: the
backslash, the enclosing quote, tab, carriage return, line feed and NUL by a letter, and every
other character that has no visible form, or that joins its neighbour, by its number.
-/
namespace FormulaLang.Text

structure QuoteRule where
  single : Bool
  double : Bool
  deriving DecidableEq, Repr

def singleQuote : Char := '\x27'

def doubleQuote : Char := '\x22'

def numberEscape (c : Char) : List Char :=
  "\\u\x7b".toList ++ Nat.toDigits 16 c.toNat ++ ['\x7d']

def escapeChar (rule : QuoteRule) (c : Char) : List Char :=
  if c = '\x00' then ['\\', '0']
  else if c = '\t' then ['\\', 't']
  else if c = '\r' then ['\\', 'r']
  else if c = '\n' then ['\\', 'n']
  else if c = '\\' then ['\\', '\\']
  else if c = singleQuote && rule.single || c = doubleQuote && rule.double then ['\\', c]
  else if isCombiningMark c || !isPrintable c then numberEscape c
  else [c]

/-- A character in a message, where both quotation marks are escaped. -/
def messageChar (c : Char) : String := String.ofList (escapeChar ⟨true, true⟩ c)

def quotedChar (c : Char) : String :=
  String.ofList (singleQuote :: escapeChar ⟨true, false⟩ c ++ [singleQuote])

def quotedString (s : String) : String :=
  String.ofList (doubleQuote :: s.toList.flatMap (escapeChar ⟨false, true⟩) ++ [doubleQuote])

end FormulaLang.Text
