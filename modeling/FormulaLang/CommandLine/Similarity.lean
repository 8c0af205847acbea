/-!
# Likeness of words

The Jaro-Winkler likeness of two words, from zero for nothing in common up to one for equal
words. It counts the characters that the words share at nearby places, less the shared ones
that are out of order, and adds a tenth for each character of a common beginning.
-/
namespace FormulaLang.Similarity

/-- How far the first word has been matched: the characters of the second with a mark on those
already taken, the number of matches, how many are out of order, and the latest place. -/
structure Matching where
  slots : List (Char × Bool)
  found : Nat
  disordered : Nat
  latest : Nat

def freePlace? (slots : List (Char × Bool)) (low high : Nat) (c : Char) : Option Nat :=
  slots.zipIdx.findSome? fun ((other, taken), place) =>
    if low ≤ place && place ≤ high && other = c && !taken then some place else none

/-- Matches the character at a place of the first word with a nearby free one. -/
def Matching.extend (reach : Nat) (m : Matching) (c : Char) (place : Nat) : Matching :=
  match freePlace? m.slots (place - reach) (place + reach) c with
  | none => m
  | some other =>
    ⟨m.slots.set other (c, true), m.found + 1,
      if other < m.latest then m.disordered + 1 else m.disordered, other⟩

def jaro (a b : List Char) : Float :=
  if a = b then 1
  else if a.isEmpty || b.isEmpty || (a.length = 1 && b.length = 1) then 0
  else
    let reach := max a.length b.length / 2 - 1
    let start : Matching := ⟨b.map fun c => (c, false), 0, 0, 0⟩
    let m := a.zipIdx.foldl (fun m (c, place) => m.extend reach c place) start
    if m.found = 0 then 0
    else
      let found := Float.ofNat m.found
      (1.0 / 3.0) * (found / Float.ofNat a.length + found / Float.ofNat b.length +
        (found - Float.ofNat m.disordered) / found)

def commonStart : List Char → List Char → Nat
  | a :: as, b :: bs => if a = b then commonStart as bs + 1 else 0
  | _, _ => 0

def jaroWinkler (a b : String) : Float :=
  let base := jaro a.toList b.toList
  let raised := base + 0.1 * Float.ofNat (commonStart a.toList b.toList) * (1.0 - base)
  if raised ≤ 1.0 then raised else 1.0

end FormulaLang.Similarity
