import FormulaLang.Token.Error

/-!
# Sources of tokens

A parser takes its tokens from any state that can be asked for the next one. The number of
tokens still to come before the end of the input is bounded, so a parser that stops at the end
of the input or at an error always stops.
-/
namespace FormulaLang

class TokenSource (τ : Type) where
  next : τ → Except TokenError Lexeme × τ
  remaining : τ → Nat
  /-- Each token that is not the end of the input uses the bound up, also one behind that end.
  A source with tokens for ever behind the end is left out, though a parser takes at most one
  of them. -/
  remaining_next : ∀ {s s' : τ} {l : Lexeme},
    next s = (.ok l, s') → l.token.isEof = false → remaining s' < remaining s

/-- Prepared answers, followed for ever by the end of the input at one place. -/
structure TokenScript where
  answers : List (Except TokenError Lexeme)
  ending : Position

namespace TokenScript

def next (s : TokenScript) : Except TokenError Lexeme × TokenScript :=
  match s.answers with
  | [] => (.ok (.single .eof s.ending), s)
  | answer :: rest => (answer, ⟨rest, s.ending⟩)

theorem remaining_next {s s' : TokenScript} {l : Lexeme} (h : s.next = (.ok l, s'))
    (notEof : l.token.isEof = false) : s'.answers.length < s.answers.length := by
  unfold next at h
  split at h
  · cases h
    simp [Lexeme.single, Token.isEof] at notEof
  · next prepared =>
    cases h
    simp [prepared]

end TokenScript

instance : TokenSource TokenScript where
  next := TokenScript.next
  remaining s := s.answers.length
  remaining_next := TokenScript.remaining_next

end FormulaLang
