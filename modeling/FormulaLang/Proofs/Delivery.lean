import FormulaLang.Token.Feed

/-!
# What a token source delivers

A source is asked for tokens one call after the other. A run of calls that all succeed is a
list of lexemes with the source that is left; it is the only run of its length.
-/
namespace FormulaLang

variable {τ : Type} [TokenSource τ]

/-- The next calls give these lexemes, none of them fails, and the second source is left. -/
inductive Delivers : τ → List Lexeme → τ → Prop where
  | nil (s) : Delivers s [] s
  | cons {s t u l ls} : TokenSource.next s = (.ok l, t) → Delivers t ls u →
      Delivers s (l :: ls) u

/-- No call fails, however many tokens are taken before it, also behind the end of the input. -/
def NeverFails (source : τ) : Prop :=
  ∀ ls rest, Delivers source ls rest → ∃ l rest', TokenSource.next rest = (.ok l, rest')

abbrev tokens (ls : List Lexeme) : List Token := ls.map Lexeme.token

/-- Tokens of one character each, in one line. -/
def placed (ts : List Token) : List Lexeme := ts.mapIdx fun i t => .single t ⟨0, i⟩

@[simp] theorem tokens_placed (ts : List Token) : tokens (placed ts) = ts := by
  apply List.ext_getElem?
  simp [placed, Lexeme.single, Function.comp_def]

/-- The source gives the lexemes before the first end of the input, then that end. -/
structure DeliversAll (source : τ) (ls : List Lexeme) (ending : Lexeme) (rest : τ) : Prop where
  delivered : Delivers source (ls ++ [ending]) rest
  inner : ∀ l ∈ ls, l.token.isEof = false
  eof : ending.token.isEof = true

namespace Delivers

variable {s t u : τ} {ls ms : List Lexeme} {l : Lexeme}

theorem append (h : Delivers s ls t) (k : Delivers t ms u) : Delivers s (ls ++ ms) u := by
  induction h with
  | nil => exact k
  | cons hn _ ih => exact .cons hn (ih k)

theorem snoc (h : Delivers s ls t) (hn : TokenSource.next t = (.ok l, u)) :
    Delivers s (ls ++ [l]) u :=
  h.append (.cons hn (.nil u))

theorem split (h : Delivers s (ls ++ ms) u) : ∃ t, Delivers s ls t ∧ Delivers t ms u := by
  induction ls generalizing s with
  | nil => exact ⟨s, .nil s, h⟩
  | cons l ls ih =>
    cases h with
    | cons hn h =>
      obtain ⟨t, hl, hm⟩ := ih h
      exact ⟨t, .cons hn hl, hm⟩

theorem split_last (h : Delivers s (ls ++ [l]) u) :
    ∃ t, Delivers s ls t ∧ TokenSource.next t = (.ok l, u) := by
  obtain ⟨t, hl, hm⟩ := h.split
  cases hm with
  | cons hn h =>
    cases h with
    | nil => exact ⟨t, hl, hn⟩

theorem isPrefix (h : Delivers s ls t) (k : Delivers s ms u) (hl : ls.length ≤ ms.length) :
    ls <+: ms := by
  induction h generalizing ms with
  | nil => exact List.nil_prefix
  | cons hn _ ih =>
    cases k with
    | nil => simp at hl
    | cons hm k =>
      cases hn.symm.trans hm
      exact (List.prefix_cons_inj _).mpr (ih k (Nat.le_of_succ_le_succ hl))

/-- No run of calls passes a source that fails or gives the end of the input, but by taking that
end. -/
theorem length_le_of_inner (h : Delivers s ls t) (inner : ∀ l ∈ ls, l.token.isEof = false)
    (k : Delivers s ms u)
    (stops : ∀ l rest, TokenSource.next u = (.ok l, rest) → l.token.isEof = true) :
    ls.length ≤ ms.length := by
  induction k generalizing ls with
  | nil =>
    cases h with
    | nil => exact Nat.le_refl _
    | cons hn _ => simp [stops _ _ hn] at inner
  | cons hm _ ih =>
    cases h with
    | nil => exact Nat.zero_le _
    | cons hn h =>
      cases hm.symm.trans hn
      exact Nat.succ_le_succ (ih h (List.forall_mem_cons.mp inner).2 stops)

end Delivers

theorem DeliversAll.eof_last {source rest : τ} {ls before after : List Lexeme}
    {ending found : Lexeme} (h : DeliversAll source ls ending rest)
    (hs : ls ++ [ending] = before ++ found :: after) (he : found.token.isEof = true) :
    before = ls := by
  rcases List.append_eq_append_iff.mp hs with ⟨more, rfl, hm⟩ | ⟨more, rfl, hm⟩
  · cases more with
    | nil => simp
    | cons x more => simp at hm
  · cases more with
    | nil => simp
    | cons x more =>
      obtain ⟨rfl, -⟩ := List.cons.inj hm
      simp [h.inner found] at he

/-- The lexemes before the first end of the input are those before which no call fails or gives
that end. -/
theorem DeliversAll.eq_of_stops {source rest middle : τ} {ls ms : List Lexeme} {ending : Lexeme}
    (h : DeliversAll source ls ending rest) (delivered : Delivers source ms middle)
    (inner : ∀ l ∈ ms, l.token.isEof = false)
    (stops : ∀ l rest', TokenSource.next middle = (.ok l, rest') → l.token.isEof = true) :
    ls = ms := by
  obtain ⟨t, hd, hn⟩ := h.delivered.split_last
  have ends : ∀ l rest', TokenSource.next t = (.ok l, rest') → l.token.isEof = true := by
    intro l rest' hl
    cases hn.symm.trans hl
    exact h.eof
  have below := hd.length_le_of_inner h.inner delivered stops
  have above := delivered.length_le_of_inner inner hd ends
  exact (hd.isPrefix delivered below).eq_of_length_le above

namespace TokenScript

def ofLexemes (ls : List Lexeme) (ending : Position) : TokenScript := ⟨ls.map .ok, ending⟩

theorem delivers_prepared (ls : List Lexeme) (answers) (ending : Position) :
    Delivers (⟨ls.map .ok ++ answers, ending⟩ : TokenScript) ls ⟨answers, ending⟩ := by
  induction ls with
  | nil => exact .nil _
  | cons l ls ih => exact .cons rfl ih

theorem delivers_ofLexemes (ls : List Lexeme) (ending : Position) :
    Delivers (ofLexemes ls ending) ls (ofLexemes [] ending) := by
  simpa [ofLexemes] using delivers_prepared ls [] ending

theorem deliversAll_ofLexemes {ls : List Lexeme} (ending : Position)
    (h : ∀ l ∈ ls, l.token.isEof = false) :
    DeliversAll (ofLexemes ls ending) ls (.single .eof ending) (ofLexemes [] ending) :=
  ⟨(delivers_ofLexemes ls ending).snoc rfl, h, rfl⟩

theorem neverFails_ofLexemes (ls : List Lexeme) (ending : Position) :
    NeverFails (ofLexemes ls ending) := by
  intro ms
  induction ms generalizing ls with
  | nil =>
    intro rest h
    cases h
    cases ls <;> exact ⟨_, _, rfl⟩
  | cons m ms ih =>
    intro rest h
    cases h with
    | cons hn h =>
      cases ls with
      | nil => cases hn; exact ih [] rest h
      | cons l ls => cases hn; exact ih ls rest h

end TokenScript

namespace Feed

def after {τ : Type} (feed : Feed τ) (ls : List Lexeme) (rest : τ) : Feed τ :=
  ⟨rest, feed.calls + ls.length, ls.reverse ++ feed.taken⟩

theorem after_append {τ : Type} (feed : Feed τ) (ls ms : List Lexeme) (s t : τ) :
    feed.after (ls ++ ms) t = (feed.after ls s).after ms t := by
  simp [after, Nat.add_assoc]

theorem take_ok {feed : Feed τ} {l : Lexeme} {rest : τ}
    (h : TokenSource.next feed.source = (.ok l, rest)) :
    feed.take = (.ok l, feed.after [l] rest) := by
  simp [take, h, after]

theorem take_error {feed : Feed τ} {error : TokenError} {rest : τ}
    (h : TokenSource.next feed.source = (.error error, rest)) :
    feed.take = (.error error, ⟨rest, feed.calls + 1, feed.taken⟩) := by
  simp [take, h]

end Feed

end FormulaLang
