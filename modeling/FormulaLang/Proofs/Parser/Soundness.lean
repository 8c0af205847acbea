import FormulaLang.Proofs.Parser.Transitions
import FormulaLang.Proofs.Sentences

/-!
# What the consumed tokens are

The invariant of the machine: at every state the consumed tokens are the beginning of a
sentence up to the phrase that comes next, and the stack is what that beginning leaves open.
Accepting then gives a derivation, and every state can still be completed to a sentence.
-/
namespace FormulaLang.Parser

/-- After the tokens a phrase of this kind is due inside the frames. -/
inductive Due : Phrase → List Token → List Frame → Prop where
  | start : Due .expression [] []
  | term {ts fs} : Due .expression ts fs → Due .term ts fs
  | factor {ts fs} : Due .term ts fs → Due .factor ts fs
  | sum {ts fs us l token op} : Due .expression ts fs → Derives .expression us [l] →
      Joins .expression token op → Due .term (ts ++ us ++ [token]) (.operation op l :: fs)
  | product {ts fs us l token op} : Due .term ts fs → Derives .term us [l] →
      Joins .term token op → Due .factor (ts ++ us ++ [token]) (.operation op l :: fs)
  | negation {ts fs} : Due .factor ts fs → Due .factor (ts ++ [.minus]) (.negation :: fs)
  | group {ts fs p} : Due .factor ts fs → Due .expression (ts ++ [.openParen]) (.group p :: fs)
  | call {ts fs n p} : Due .factor ts fs →
      Due .arguments (ts ++ [.identifier n, .openParen]) (.call n p [] :: fs)
  | laterArgument {ts fs n p args us e} : Due .arguments ts (.call n p args :: fs) →
      Derives .expression us [e] →
      Due .arguments (ts ++ us ++ [.comma]) (.call n p (e :: args) :: fs)
  | argument {ts fs} : Due .arguments ts fs → Due .expression ts fs

namespace Due

variable {p : Phrase} {ts us : List Token} {fs outer : List Frame} {es : List Expr} {e : Expr}

/-- Once the phrase that is due is there, tokens can follow that make a sentence of it all. -/
theorem completes (h : Due p ts fs) (hd : Derives p us es) :
    ∃ rest whole, Derives .expression (ts ++ us ++ rest) [whole] := by
  -- From the inside out: the phrase becomes a part of the one around it, and only a group and
  -- a call still need a token of their own.
  induction h generalizing us es with
  | start =>
    obtain ⟨e, rfl⟩ := derives_single hd (by decide)
    exact ⟨[], e, by simpa using hd⟩
  | term _ ih =>
    obtain ⟨e, rfl⟩ := derives_single hd (by decide)
    exact ih (.term hd)
  | factor _ ih =>
    obtain ⟨e, rfl⟩ := derives_single hd (by decide)
    exact ih (.factor hd)
  | sum _ hl hj ih =>
    obtain ⟨r, rfl⟩ := derives_single hd (by decide)
    simpa using ih (.sum hl hj hd)
  | product _ hl hj ih =>
    obtain ⟨r, rfl⟩ := derives_single hd (by decide)
    simpa using ih (.product hl hj hd)
  | negation _ ih =>
    obtain ⟨e, rfl⟩ := derives_single hd (by decide)
    simpa using ih (.negation hd)
  | group _ ih =>
    obtain ⟨e, rfl⟩ := derives_single hd (by decide)
    obtain ⟨rest, whole, h⟩ := ih (.group hd)
    exact ⟨.closeParen :: rest, whole, by simpa using h⟩
  | @call _ _ n _ _ ih =>
    obtain ⟨rest, whole, h⟩ := ih (.call (n := n) hd)
    exact ⟨.closeParen :: rest, whole, by simpa using h⟩
  | laterArgument _ he ih => simpa using ih (.argument he hd)
  | argument _ ih =>
    obtain ⟨e, rfl⟩ := derives_single hd (by decide)
    exact ih (.lastArgument hd)

theorem viable (h : Due .factor ts fs) (hd : Derives .factor us [e]) : Viable (ts ++ us) := by
  obtain ⟨rest, whole, hw⟩ := h.completes hd
  exact ⟨rest, whole, hw⟩

theorem viable_due (h : Due .factor ts fs) : Viable ts := (h.viable (.number 0)).of_append

/-! ## Reducing -/

/-- An expression is due only at the start or right inside a parenthesis, so its frames have
neither a negation nor an operation on top. -/
theorem reduce_expression (h : Due p ts fs) (hp : p = .expression ∨ p = .arguments) (q : Nat)
    (e : Expr) : reduce q fs e = (fs, e) := by
  cases h with
  | start => rfl
  | group => rfl
  | call => rfl
  | laterArgument => rfl
  | argument h =>
    cases h with
    | call => rfl
    | laterArgument => rfl
  | term => simp at hp
  | factor => simp at hp
  | sum => simp at hp
  | product => simp at hp
  | negation => simp at hp

theorem reduce_product (h : Due p ts fs) (hd : Derives p us [e])
    (hp : p = .factor ∨ p = .term) :
    ∃ ts' us', ts ++ us = ts' ++ us' ∧ Due .term ts' (reduce 2 fs e).1 ∧
      Derives .term us' [(reduce 2 fs e).2] := by
  induction h generalizing us e with
  | term h ih =>
    rw [h.reduce_expression (Or.inl rfl)]
    exact ⟨_, us, rfl, .term h, hd⟩
  | factor _ ih => exact ih (.factor hd) (Or.inr rfl)
  | sum h hl hj ih =>
    have hr : ¬ 2 ≤ 1 := by decide
    simp only [reduce, hj.sum, hr, if_false]
    exact ⟨_, us, rfl, .sum h hl hj, hd⟩
  | product _ hl hj ih =>
    simp only [reduce, hj.product, Nat.le_refl, if_true]
    obtain ⟨ts', us', he, hr⟩ := ih (.product hl hj hd) (Or.inr rfl)
    exact ⟨ts', us', by simpa using he, hr⟩
  | negation _ ih =>
    obtain ⟨ts', us', he, hr⟩ := ih (.negation hd) (Or.inl rfl)
    exact ⟨ts', us', by simpa using he, hr⟩
  | start => simp at hp
  | group => simp at hp
  | call => simp at hp
  | laterArgument => simp at hp
  | argument => simp at hp

/-- Reducing for a sum or for the end of the expression: everything up to the innermost open
parenthesis is finished. -/
theorem reduce_sum {q : Nat} (hq : q ≤ 1) (h : Due p ts fs) (hd : Derives p us [e])
    (hp : p ≠ .arguments) :
    ∃ ts' us', ts ++ us = ts' ++ us' ∧ Due .expression ts' (reduce q fs e).1 ∧
      Derives .expression us' [(reduce q fs e).2] := by
  induction h generalizing us e with
  | start => exact ⟨[], us, rfl, .start, hd⟩
  | group h => exact ⟨_, us, rfl, .group h, hd⟩
  | argument h =>
    rw [h.reduce_expression (Or.inr rfl)]
    exact ⟨_, us, rfl, .argument h, hd⟩
  | term _ ih => exact ih (.term hd) (by decide)
  | factor _ ih => exact ih (.factor hd) (by decide)
  | sum _ hl hj ih =>
    simp only [reduce, hj.sum, hq, if_true]
    obtain ⟨ts', us', he, hr⟩ := ih (.sum hl hj hd) (by decide)
    exact ⟨ts', us', by simpa using he, hr⟩
  | product _ hl hj ih =>
    simp only [reduce, hj.product, Nat.le_succ_of_le hq, if_true]
    obtain ⟨ts', us', he, hr⟩ := ih (.product hl hj hd) (by decide)
    exact ⟨ts', us', by simpa using he, hr⟩
  | negation _ ih =>
    obtain ⟨ts', us', he, hr⟩ := ih (.negation hd) (by decide)
    exact ⟨ts', us', by simpa using he, hr⟩
  | call => exact absurd rfl hp
  | laterArgument => exact absurd rfl hp

theorem group_inv {place : Position} (h : Due .expression ts (.group place :: fs)) :
    ∃ before, ts = before ++ [.openParen] ∧ Due .factor before fs := by
  cases h with
  | group h => exact ⟨_, rfl, h⟩
  | argument h => cases h

theorem call_inv {n : String} {place : Position} {args : List Expr} (h : Due p ts fs)
    (hf : fs = .call n place args :: outer) (hp : p = .expression ∨ p = .arguments)
    (hd : Derives .arguments us es) :
    ∃ before list, ts ++ us = before ++ .identifier n :: .openParen :: list ∧
      Due .factor before outer ∧ Derives .arguments list (args.reverse ++ es) := by
  induction h generalizing us es args with
  | call h =>
    cases hf
    exact ⟨_, us, by simp, h, hd⟩
  | laterArgument h he ih =>
    cases hf
    obtain ⟨before, list, hw, hb, hl⟩ := ih rfl (Or.inr rfl) (.argument he hd)
    exact ⟨before, list, by simpa using hw, hb, by simpa using hl⟩
  | argument h ih => exact ih hf (Or.inr rfl) hd
  | start => cases hf
  | group => cases hf
  | term => simp at hp
  | factor => simp at hp
  | sum => simp at hp
  | product => simp at hp
  | negation => simp at hp

end Due

/-! ## The invariant -/

/-- What the consumed tokens are at a state. -/
def Reads (ts : List Token) : State → Prop
  | ⟨stack, .operand⟩ => Due .factor ts stack
  | ⟨stack, .named n⟩ => ∃ us, ts = us ++ [.identifier n] ∧ Due .factor us stack
  | ⟨stack, .opened n _⟩ =>
    ∃ us, ts = us ++ [.identifier n, .openParen] ∧ Due .factor us stack
  | ⟨stack, .complete e⟩ =>
    ∃ us vs, ts = us ++ vs ∧ Due .factor us stack ∧ Derives .factor vs [e]

namespace Reads

variable {ts : List Token} {state t : State} {frames : List Frame} {value : Expr} {l : Lexeme}

theorem awaiting (h : Reads ts state) (ha : state.awaiting? = some frames) :
    Due .factor ts frames := by
  rcases awaiting_cases ha with rfl | ⟨stack, n, p, rfl, rfl⟩
  · exact h
  · obtain ⟨us, rfl, h⟩ := h
    exact .factor (.term (.argument (.call h)))

theorem operand (h : Reads ts state) (hv : state.value? = some value) :
    ∃ us vs, ts = us ++ vs ∧ Due .factor us state.stack ∧ Derives .factor vs [value] := by
  rcases value_cases hv with ⟨stack, n, rfl, rfl⟩ | ⟨stack, rfl⟩
  · obtain ⟨us, rfl, h⟩ := h
    exact ⟨us, _, rfl, h, .name n⟩
  · exact h

theorem whole (h : Reads ts state) (hv : state.value? = some value) :
    ∃ us vs, ts = us ++ vs ∧ Due .expression us (reduce 0 state.stack value).1 ∧
      Derives .expression vs [(reduce 0 state.stack value).2] := by
  obtain ⟨us, vs, rfl, hd, hf⟩ := h.operand hv
  exact hd.reduce_sum (Nat.zero_le 1) hf (by decide)

theorem initial : Reads [] .initial := .factor (.term .start)

theorem shift (h : Reads ts state) (hs : Shift state l t) : Reads (ts ++ [l.token]) t := by
  cases hs with
  | number ha hl => exact ⟨ts, _, rfl, h.awaiting ha, hl ▸ .number _⟩
  | name ha hl => exact ⟨ts, by rw [hl], h.awaiting ha⟩
  | negation ha hl => exact hl ▸ .negation (h.awaiting ha)
  | group ha hl => exact hl ▸ .factor (.term (.group (h.awaiting ha)))
  | callee hl =>
    obtain ⟨us, rfl, hd⟩ := h
    exact ⟨us, by simp [hl], hd⟩
  | @emptyCall _ n _ _ hl =>
    obtain ⟨us, rfl, hd⟩ := h
    exact ⟨us, _, by simp [hl], hd, .emptyCall n⟩
  | @operation _ _ value op outer lhs hv ho hr =>
    obtain ⟨us, vs, rfl, hd, hf⟩ := h.operand hv
    -- A sum takes the whole expression before it as its operand, a product only the term.
    rcases joins_of_operation? ho with hj | hj
    · obtain ⟨us', vs', he, hd', hf'⟩ := hd.reduce_sum (Nat.le_refl 1) hf (by decide)
      rw [hj.sum] at hr
      rw [hr] at hd' hf'
      exact he ▸ .factor (.sum hd' hf' hj)
    · obtain ⟨us', vs', he, hd', hf'⟩ := hd.reduce_product hf (Or.inl rfl)
      rw [hj.product] at hr
      rw [hr] at hd' hf'
      exact he ▸ .product hd' hf' hj
  | closeGroup hv hl hr =>
    obtain ⟨us, vs, rfl, hd, hf⟩ := h.whole hv
    rw [hr] at hd hf
    obtain ⟨before, rfl, hb⟩ := hd.group_inv
    exact ⟨before, _, by simp [hl], hb, .group hf⟩
  | @closeCall _ _ _ n _ _ _ _ hv hl hr =>
    obtain ⟨us, vs, rfl, hd, hf⟩ := h.whole hv
    rw [hr] at hd hf
    obtain ⟨before, list, he, hb, ha⟩ := hd.call_inv rfl (Or.inl rfl) (.lastArgument hf)
    refine ⟨before, .identifier n :: .openParen :: (list ++ [.closeParen]), ?_, hb, ?_⟩
    · rw [he, hl]; simp
    · rw [List.reverse_cons]
      exact .call ha
  | argument hv hl hr =>
    obtain ⟨us, vs, rfl, hd, hf⟩ := h.whole hv
    rw [hr] at hd hf
    cases hd with
    | argument hd => exact hl ▸ .factor (.term (.argument (.laterArgument hd hf)))

theorem consume {options : ParseOptions} {ls : List Lexeme} (h : Reads ts state)
    (hc : consume options state ls = some t) : Reads (ts ++ tokens ls) t := by
  induction ls generalizing ts state with
  | nil => cases hc; simpa using h
  | cons l ls ih =>
    obtain ⟨u, hs, hu⟩ := consume_cons_some hc
    simpa using ih (h.shift (shift_of_step hs)) hu

theorem viable (h : Reads ts state) : Viable ts := by
  rcases awaiting_or_value state with ⟨frames, ha⟩ | ⟨value, hv⟩
  · exact (h.awaiting ha).viable_due
  · obtain ⟨us, vs, rfl, hd, hf⟩ := h.operand hv
    exact hd.viable hf

theorem derives (h : Reads ts state) (hv : state.value? = some value)
    (hr : (reduce 0 state.stack value).1 = []) :
    Derives .expression ts [(reduce 0 state.stack value).2] := by
  obtain ⟨us, vs, rfl, hd, hf⟩ := h.whole hv
  rw [hr] at hd
  cases hd with
  | start => exact hf
  | argument hd => cases hd

end Reads

end FormulaLang.Parser
