import FormulaLang.Text.AlphabeticRanges
import FormulaLang.Text.CombiningMarkRanges
import FormulaLang.Text.UnprintableRanges

/-!
# Character classes

Unicode properties of characters as decidable tests, and the classes that the lexical rules
are built on. A name starts with an alphabetic character or an underscore and goes on with
those and ASCII digits, so other kinds of digits end a name.
-/
namespace FormulaLang.Text

def inRanges (ranges : List (Nat × Nat)) (c : Char) : Bool :=
  ranges.any fun (low, high) => low ≤ c.toNat && c.toNat ≤ high

def blankRanges : List (Nat × Nat) :=
  [(0x0009, 0x000D), (0x0020, 0x0020), (0x0085, 0x0085), (0x00A0, 0x00A0), (0x1680, 0x1680),
   (0x2000, 0x200A), (0x2028, 0x2029), (0x202F, 0x202F), (0x205F, 0x205F), (0x3000, 0x3000)]

def isBlank (c : Char) : Bool := inRanges blankRanges c

def isAlphabetic (c : Char) : Bool := inRanges alphabeticRanges c

def ignorableRanges : List (Nat × Nat) :=
  [(0x00AD, 0x00AD), (0x034F, 0x034F), (0x061C, 0x061C), (0x115F, 0x1160), (0x17B4, 0x17B5),
   (0x180B, 0x180F), (0x200B, 0x200F), (0x202A, 0x202E), (0x2060, 0x206F), (0x3164, 0x3164),
   (0xFE00, 0xFE0F), (0xFEFF, 0xFEFF), (0xFFA0, 0xFFA0), (0xFFF0, 0xFFF8),
   (0x1BCA0, 0x1BCA3), (0x1D173, 0x1D17A), (0xE0000, 0xE0FFF)]

/-- A character with the property Default_Ignorable_Code_Point, which is drawn as nothing. The
letters that only fill a place are among these. -/
def isIgnorable (c : Char) : Bool := inRanges ignorableRanges c

/-- A mark that joins the character before it. The halfwidth sound marks are none: they are
letters with a place of their own. -/
def isCombiningMark (c : Char) : Bool := inRanges combiningMarkRanges c

def isPrintable (c : Char) : Bool := !inRanges unprintableRanges c && !isIgnorable c

def isNameStart (c : Char) : Bool := isAlphabetic c || c = '_'

def isNamePart (c : Char) : Bool := isAlphabetic c || c.isDigit || c = '_'

def isNumberStart (c : Char) : Bool := c.isDigit || c = '.'

/-- A character that ends a line. A carriage return and a line feed after it are two ends. -/
def isLineEnd (c : Char) : Bool := c = '\n' || c = '\r'

end FormulaLang.Text
