import FormulaLang.Expr.Grammar

/-!
# Sentences of the grammar

The beginnings of sentences, and the names in a sentence: the grammar calls a name exactly when
an opening parenthesis follows it, though no rule of it says so in these words.
-/
namespace FormulaLang

theorem derives_single {p : Phrase} {ts : List Token} {es : List Expr} (h : Derives p ts es)
    (hp : p ≠ .arguments) : ∃ e, es = [e] := by
  cases h <;> first | exact ⟨_, rfl⟩ | exact absurd rfl hp

def Sentence (ts : List Token) : Prop := ∃ e, Derives .expression ts [e]

/-- Some sentence starts with the tokens. -/
def Viable (ts : List Token) : Prop := ∃ rest, Sentence (ts ++ rest)

theorem Viable.of_append {ts us : List Token} (h : Viable (ts ++ us)) : Viable ts := by
  obtain ⟨rest, h⟩ := h
  exact ⟨us ++ rest, by simpa using h⟩

theorem Viable.take {ts : List Token} (h : Viable ts) (n : Nat) : Viable (ts.take n) := by
  rw [← List.take_append_drop n ts] at h
  exact h.of_append

/-! ## Names -/

/-- The names among the tokens, each with whether an opening parenthesis follows it. -/
def tokenNames : List Token → List (String × Bool)
  | .identifier n :: .openParen :: ts => (n, true) :: tokenNames ts
  | .identifier n :: ts => (n, false) :: tokenNames ts
  | _ :: ts => tokenNames ts
  | [] => []

mutual

def Expr.names : Expr → List (String × Bool)
  | .num _ => []
  | .var n => [(n, false)]
  | .call n args => (n, true) :: allNames args
  | .neg e => e.names
  | .binary _ l r => l.names ++ r.names

def Expr.allNames : List Expr → List (String × Bool)
  | [] => []
  | e :: es => e.names ++ allNames es

end

/-- What comes behind a token other than a parenthesis calls no name in front of it. -/
theorem tokenNames_append {ts us : List Token} {token : Token} (h : token ≠ .openParen) :
    tokenNames (ts ++ token :: us) = tokenNames ts ++ tokenNames (token :: us) := by
  fun_induction tokenNames ts with
  | case1 n ts ih => simp [tokenNames, ih]
  | case2 n ts hn ih =>
    cases ts with
    | nil => simp [tokenNames, h]
    | cons t ts =>
      have ht : t ≠ .openParen := fun he => hn ts (by rw [he])
      simp_all [tokenNames]
  | case3 t ts hn ih => simp_all [tokenNames]
  | case4 => rfl

theorem tokenNames_joins {p : Phrase} {token : Token} {op : BinaryOp} {ts us : List Token}
    (h : Joins p token op) : tokenNames (ts ++ token :: us) = tokenNames ts ++ tokenNames us := by
  cases h <;> simp [tokenNames_append, tokenNames]

/-- A phrase and its meaning have the same names in the same order, and a name is called exactly
when an opening parenthesis follows it. -/
theorem Derives.names {p : Phrase} {ts : List Token} {es : List Expr} (h : Derives p ts es) :
    tokenNames ts = Expr.allNames es := by
  induction h with
  | number => rfl
  | name => rfl
  | emptyCall => rfl
  | call _ ih => simp [tokenNames, Expr.names, Expr.allNames, tokenNames_append, ih]
  | negation _ ih => simpa [tokenNames, Expr.names, Expr.allNames] using ih
  | group _ ih => simpa [tokenNames, tokenNames_append] using ih
  | factor _ ih => exact ih
  | product _ hj _ ihl ihr =>
    rw [tokenNames_joins hj, ihl, ihr]
    simp [Expr.names, Expr.allNames]
  | term _ ih => exact ih
  | sum _ hj _ ihl ihr =>
    rw [tokenNames_joins hj, ihl, ihr]
    simp [Expr.names, Expr.allNames]
  | lastArgument _ ih => exact ih
  | argument _ _ ihe ihs =>
    simp [tokenNames_append, tokenNames, ihe, ihs, Expr.allNames]

end FormulaLang
