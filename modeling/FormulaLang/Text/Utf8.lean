/-!
# Groups of UTF-8 bytes

The first byte of a group announces how many bytes belong to it, and each further byte must be
a continuation byte. `decodeGroup` gives the character that a group encodes; a group that is
cut short, overlong, a surrogate or out of range stands for U+FFFD.
-/
namespace FormulaLang.Text

def furtherBytes (first : UInt8) : Nat :=
  if 0xC0 ≤ first && first ≤ 0xDF then 1
  else if 0xE0 ≤ first && first ≤ 0xEF then 2
  else if 0xF0 ≤ first && first ≤ 0xF7 then 3
  else 0

def isContinuation (byte : UInt8) : Bool := 0x80 ≤ byte && byte ≤ 0xBF

def replacement : Char := '\uFFFD'

/-- The character whose UTF-8 encoding is exactly these bytes, or else U+FFFD. -/
def decodeGroup (bytes : List UInt8) : Char :=
  match bytes.toByteArray.utf8DecodeChar? 0 with
  | some c => if String.utf8EncodeChar c = bytes then c else replacement
  | none => replacement

end FormulaLang.Text
