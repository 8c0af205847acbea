/-!
# Random numbers

A sequence of doubles from zero up to one, computed from a seed: each is the top 53 bits of a
64-bit word, scrambled from the seed and the place in the sequence.
-/
namespace FormulaLang.Draws

/-- Scrambles a word so that each bit of it changes half of the bits of the result. -/
def scramble (word : UInt64) : UInt64 :=
  let a := (word ^^^ (word >>> 30)) * 0xBF58476D1CE4E5B9
  let b := (a ^^^ (a >>> 27)) * 0x94D049BB133111EB
  b ^^^ (b >>> 31)

def ofSeed (seed : UInt64) (place : Nat) : Float :=
  let word := scramble (seed + 0x9E3779B97F4A7C15 * UInt64.ofNat (place + 1))
  Float.ofNat (word >>> 11).toNat / Float.ofNat 0x20000000000000

end FormulaLang.Draws
