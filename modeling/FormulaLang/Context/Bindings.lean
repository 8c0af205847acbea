/-!
# Named values

A finite map from names to values that keeps the order in which the names came in. Setting a
name again replaces its value where it stands.
-/
namespace FormulaLang

structure Bindings (α : Type) where
  entries : List (String × α)

namespace Bindings

variable {α : Type}

def empty : Bindings α := ⟨[]⟩

/-- Replaces the value of a name in a list of entries, or adds the name at the end. -/
def setEntry (name : String) (value : α) : List (String × α) → List (String × α)
  | [] => [(name, value)]
  | (other, old) :: rest =>
    if other = name then (name, value) :: rest else (other, old) :: setEntry name value rest

def set (b : Bindings α) (name : String) (value : α) : Bindings α :=
  ⟨setEntry name value b.entries⟩

/-- The value of a name in a list of entries. -/
def entry? (name : String) : List (String × α) → Option α
  | [] => none
  | (other, value) :: rest => if other = name then some value else entry? name rest

def get? (b : Bindings α) (name : String) : Option α := entry? name b.entries

@[simp] theorem get?_empty (name : String) : (empty : Bindings α).get? name = none := rfl

theorem get?_set (b : Bindings α) (name other : String) (value : α) :
    (b.set name value).get? other = if other = name then some value else b.get? other := by
  simp only [set, get?]
  induction b.entries with
  | nil => grind [setEntry, entry?]
  | cons entry rest ih => grind [setEntry, entry?]

end Bindings

end FormulaLang
