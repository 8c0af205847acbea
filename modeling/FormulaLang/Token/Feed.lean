import FormulaLang.Token.Source

/-!
# Taking tokens from a source

A feed keeps the account of what has been asked of a token source: how many calls were made,
and which tokens they gave. The record of a parse is read off it.
-/
namespace FormulaLang

/-- A token source with a count of the calls made to it and the tokens it gave, the latest
first. -/
structure Feed (τ : Type) where
  source : τ
  calls : Nat
  taken : List Lexeme

namespace Feed

def fresh {τ : Type} (source : τ) : Feed τ := ⟨source, 0, []⟩

def take {τ : Type} [TokenSource τ] (feed : Feed τ) : Except TokenError Lexeme × Feed τ :=
  match TokenSource.next feed.source with
  | (.ok l, source) => (.ok l, ⟨source, feed.calls + 1, l :: feed.taken⟩)
  | (.error error, source) => (.error error, ⟨source, feed.calls + 1, feed.taken⟩)

theorem remaining_take {τ : Type} [TokenSource τ] {feed feed' : Feed τ} {l : Lexeme}
    (h : feed.take = (.ok l, feed')) (notEof : l.token.isEof = false) :
    TokenSource.remaining feed'.source < TokenSource.remaining feed.source := by
  unfold take at h
  split at h
  next delivered =>
    cases h
    exact TokenSource.remaining_next delivered notEof
  next => cases h

end Feed

end FormulaLang
