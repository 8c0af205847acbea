/-!
# Positions in a text

Lines and characters are counted from zero, and characters rather than bytes are counted.
-/
namespace FormulaLang

structure Position where
  line : Nat
  column : Nat
  deriving DecidableEq, Repr

namespace Position

def start : Position := ⟨0, 0⟩

/-- The place after a character that stands here. -/
def next (p : Position) (endsLine : Bool) : Position :=
  if endsLine then ⟨p.line + 1, 0⟩ else ⟨p.line, p.column + 1⟩

def text (p : Position) : String := s!"line {p.line} char {p.column}"

end Position

end FormulaLang
