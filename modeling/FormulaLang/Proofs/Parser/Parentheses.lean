import FormulaLang.Proofs.Parser.Calls

/-!
# Which parenthesis an error calls unclosed

Parentheses are matched on the tokens alone, whatever they enclose. The parser has no count of
them: it hands the place of an opening parenthesis on while it reads what is inside. The place
in its error is that of the innermost opening parenthesis which the tokens before leave unclosed.
-/
namespace FormulaLang

/-- Every opening parenthesis is closed by a later token and every closing one closes one. -/
inductive Balanced : List Token → Prop where
  | nil : Balanced []
  | other {t ts} : t ≠ .openParen → t ≠ .closeParen → Balanced ts → Balanced (t :: ts)
  | nested {ts us} : Balanced ts → Balanced us →
      Balanced (.openParen :: (ts ++ .closeParen :: us))

/-- An opening parenthesis that the lexemes leave open, while they close all those behind it. -/
structure InnermostOpen (before left : List Lexeme) (paren : Lexeme) (inner : List Lexeme) :
    Prop where
  split : before = left ++ paren :: inner
  opens : paren.token = .openParen
  balanced : Balanced (tokens inner)

def EndsInName (left : List Lexeme) : Prop :=
  ∃ name, (tokens left).getLast? = some (.identifier name)

theorem Balanced.append {ts us : List Token} (h : Balanced ts) (k : Balanced us) :
    Balanced (ts ++ us) := by
  induction h with
  | nil => exact k
  | other ho hc _ ih => exact .other ho hc ih
  | nested hi _ _ ih => simpa using Balanced.nested hi ih

theorem Balanced.foldl_matchParen {ls : List Lexeme} {ts : List Token} (h : Balanced ts)
    (ht : tokens ls = ts) (opened : List Position) : ls.foldl matchParen opened = opened := by
  induction h generalizing ls opened with
  | nil =>
    rw [List.map_eq_nil_iff.mp ht]
    rfl
  | @other t _ ho hc _ ih =>
    obtain ⟨l, ls, rfl, hl, hm⟩ := List.map_eq_cons_iff.mp ht
    have keeps : matchParen opened l = opened := by
      unfold matchParen
      split
      next hp => exact absurd (hl.symm.trans hp) ho
      next hp => exact absurd (hl.symm.trans hp) hc
      next => rfl
    rw [List.foldl_cons, keeps, ih hm]
  | nested _ _ ihi ihr =>
    obtain ⟨l, ls, rfl, hl, hm⟩ := List.map_eq_cons_iff.mp ht
    obtain ⟨xs, rest, rfl, hx, hr⟩ := List.map_eq_append_iff.mp hm
    obtain ⟨m, ys, rfl, hm, hy⟩ := List.map_eq_cons_iff.mp hr
    have opens : matchParen opened l = l.first :: opened := by simp [matchParen, hl]
    have closes : matchParen (l.first :: opened) m = opened := by simp [matchParen, hm]
    rw [List.foldl_cons, List.foldl_append, List.foldl_cons, opens, ihi hx, closes, ihr hy]

theorem Balanced.not_behind_open {us vs : List Token}
    (h : Balanced (us ++ .openParen :: vs)) : ¬ Balanced vs := by
  intro hv
  have ht : tokens (placed us ++ .single .openParen .start :: placed vs) =
      us ++ .openParen :: vs := by
    simp [Lexeme.single]
  have hm := h.foldl_matchParen ht []
  rw [List.foldl_append, List.foldl_cons, hv.foldl_matchParen (tokens_placed vs)] at hm
  cases hm

section Joins

variable {p : Phrase} {token : Token} {op : BinaryOp}

theorem Joins.balanced {us : List Token} (hj : Joins p token op) (hu : Balanced us) :
    Balanced (token :: us) := by
  refine .other ?_ ?_ hu
  · rintro rfl
    cases hj
  · rintro rfl
    cases hj

theorem Joins.beforeOperand (hj : Joins p token op) : token.beforeOperand = true := by
  cases hj <;> rfl

end Joins

theorem Derives.balanced {p : Phrase} {ts : List Token} {es : List Expr} (h : Derives p ts es) :
    Balanced ts := by
  induction h with
  | number x => exact .other (by simp) (by simp) .nil
  | name n => exact .other (by simp) (by simp) .nil
  | emptyCall n => exact .other (by simp) (by simp) (.nested .nil .nil)
  | call _ ih => exact .other (by simp) (by simp) (.nested ih .nil)
  | negation _ ih => exact .other (by simp) (by simp) ih
  | group _ ih => exact .nested ih .nil
  | factor _ ih => exact ih
  | product _ hj _ ihl ihr => exact ihl.append (hj.balanced ihr)
  | term _ ih => exact ih
  | sum _ hj _ ihl ihr => exact ihl.append (hj.balanced ihr)
  | lastArgument _ ih => exact ih
  | argument _ _ ihe ihs => exact ihe.append (.other (by simp) (by simp) ihs)

namespace InnermostOpen

variable {before left inner left' inner' : List Lexeme} {paren paren' : Lexeme}

theorem not_behind {mid : List Lexeme} (h : InnermostOpen before left paren inner)
    (h' : InnermostOpen before (left ++ paren :: mid) paren' inner') : False := by
  have hs : inner = mid ++ paren' :: inner' := by
    have he := h.split.symm.trans h'.split
    simpa using he
  have hb := h.balanced
  rw [hs, tokens, List.map_append, List.map_cons, h'.opens] at hb
  exact hb.not_behind_open h'.balanced

theorem unique (h : InnermostOpen before left paren inner)
    (h' : InnermostOpen before left' paren' inner') : left' = left ∧ paren' = paren := by
  rcases List.append_eq_append_iff.mp (h.split.symm.trans h'.split) with
    ⟨more, rfl, hm⟩ | ⟨more, rfl, hm⟩
  · rcases List.cons_eq_append_iff.mp hm with ⟨rfl, hm⟩ | ⟨mid, rfl, -⟩
    · cases hm
      exact ⟨by simp, rfl⟩
    · exact (h.not_behind h').elim
  · rcases List.cons_eq_append_iff.mp hm with ⟨rfl, hm⟩ | ⟨mid, rfl, -⟩
    · cases hm
      exact ⟨by simp, rfl⟩
    · exact (h'.not_behind h).elim

end InnermostOpen

theorem InnermostOpen.unmatched {before left inner : List Lexeme} {paren : Lexeme}
    (h : InnermostOpen before left paren inner) :
    unmatched before = paren.first :: FormulaLang.unmatched left := by
  rw [h.split, FormulaLang.unmatched, List.foldl_append, List.foldl_cons,
    h.balanced.foldl_matchParen rfl]
  simp [matchParen, h.opens, FormulaLang.unmatched]

namespace Parser

variable {options : ParseOptions} {t : State} {before : List Lexeme} {l : Lexeme}
  {frames : List Frame} {value : Expr} {error : ParseError}

theorem Due.operandDue {p : Phrase} {ts : List Token} {fs : List Frame} (h : Due p ts fs) :
    operandDue ts = true := by
  induction h with
  | start => rfl
  | term _ ih => exact ih
  | factor _ ih => exact ih
  | sum _ _ hj => simp [FormulaLang.operandDue, hj.beforeOperand]
  | product _ _ hj => simp [FormulaLang.operandDue, hj.beforeOperand]
  | negation => simp [FormulaLang.operandDue, Token.beforeOperand]
  | group => simp [FormulaLang.operandDue, Token.beforeOperand]
  | call => simp [FormulaLang.operandDue, Token.beforeOperand]
  | laterArgument => simp [FormulaLang.operandDue, Token.beforeOperand]
  | argument _ ih => exact ih

theorem Due.not_endsInName {p : Phrase} {left : List Lexeme} {fs : List Frame}
    (h : Due p (tokens left) fs) : ¬ EndsInName left := by
  rintro ⟨n, hn⟩
  have hd := h.operandDue
  simp [FormulaLang.operandDue, hn, Token.beforeOperand] at hd

/-- What closing an operand rejects: inside a group all but its parenthesis, inside a call also
not the comma. -/
theorem closeOperand_reject (h : closeOperand frames value l = .reject error) :
    ∃ opened, error = .unclosedParen opened l.token l.first ∧ l.token ≠ .closeParen ∧
      ((∃ outer, frames = .group opened :: outer) ∨
        ∃ n args outer, frames = .call n opened args :: outer ∧ l.token ≠ .comma) := by
  unfold closeOperand at h
  split at h
  next opened outer =>
    split at h
    next => cases h
    next hc =>
      cases h
      exact ⟨opened, rfl, hc, Or.inl ⟨outer, rfl⟩⟩
  next n opened args outer =>
    split at h
    next => cases h
    next => cases h
    next hc hm =>
      cases h
      exact ⟨opened, rfl, hc, Or.inr ⟨n, args, outer, rfl, hm⟩⟩
  next => split at h <;> cases h

theorem tokens_eq_append {ls : List Lexeme} {ts us : List Token} {token : Token}
    (h : tokens ls = ts ++ token :: us) : ∃ left paren inner, ls = left ++ paren :: inner ∧
      tokens left = ts ∧ paren.token = token ∧ tokens inner = us := by
  obtain ⟨left, more, rfl, hl, hm⟩ := List.map_eq_append_iff.mp h
  obtain ⟨paren, inner, rfl, hp, hi⟩ := List.map_eq_cons_iff.mp hm
  exact ⟨left, paren, inner, rfl, hl, hp, hi⟩

theorem closeOperand_refuse (h : closeOperand frames value l = .refuse error) :
    error = .trailingInput l.token l.first := by
  unfold closeOperand at h
  split at h
  next => split at h <;> cases h
  next => split at h <;> cases h
  next =>
    split at h
    next => cases h
    next => cases h; rfl

theorem step_stuck (stuck : ∀ u, step options t l ≠ .shift u) :
    (∃ limit, step options t l = .refuse (.tooDeep limit l.first)) ∨
      step options t l = .reject (unexpected operandStart l) ∨
      ∃ value, t.value? = some value ∧
        step options t l =
          closeOperand (reduce 0 t.stack value).1 (reduce 0 t.stack value).2 l := by
  rcases step_limited options t l with same | ⟨limit, frames, -, -, -, -, hl⟩
  · rw [same] at stuck ⊢
    rcases awaiting_or_value t with ⟨frames, ha⟩ | ⟨value, hv⟩
    · exact Or.inr (Or.inl (awaiting_stuck ha stuck))
    · exact Or.inr (Or.inr ⟨value, hv, value_stuck hv stuck⟩)
  · exact Or.inl ⟨limit, hl⟩

/-- The parenthesis of the frame on top of the stack is the innermost open one, and a name in
front of it makes the frame a call. -/
theorem innermost_of_frames {opened : Position} (h : Reads (tokens before) t)
    (hv : t.value? = some value) (openings : t.openings = unmatched before)
    (hf : (∃ outer, (reduce 0 t.stack value).1 = .group opened :: outer) ∨
      ∃ n args outer, (reduce 0 t.stack value).1 = .call n opened args :: outer) :
    ∃ left paren inner, InnermostOpen before left paren inner ∧ paren.first = opened ∧
      (EndsInName left →
        ∃ n args outer, (reduce 0 t.stack value).1 = .call n opened args :: outer) := by
  obtain ⟨us, vs, ht, hd, hw⟩ := h.whole hv
  rw [openings_of_value hv, ← openings_reduce 0 t.stack value] at openings
  have place {left inner : List Lexeme} {paren : Lexeme}
      (hi : InnermostOpen before left paren inner)
      (ho : (Parser.openings (reduce 0 t.stack value).1).head? = some opened) :
      paren.first = opened := by
    rw [openings, hi.unmatched] at ho
    exact Option.some.inj ho
  rcases hf with ⟨outer, hf⟩ | ⟨n, args, outer, hf⟩
  · rw [hf] at hd
    obtain ⟨ts, rfl, hb⟩ := hd.group_inv
    obtain ⟨left, paren, inner, hs, rfl, hp, hi⟩ :=
      tokens_eq_append (ht.trans (List.append_assoc ts [.openParen] vs))
    have innermost : InnermostOpen before left paren inner := ⟨hs, hp, hi ▸ hw.balanced⟩
    refine ⟨left, paren, inner, innermost, place innermost (by simp [hf]), fun hn => ?_⟩
    exact absurd hn hb.not_endsInName
  · obtain ⟨ts, list, he, -, ha⟩ := hd.call_inv hf (Or.inl rfl) (.lastArgument hw)
    obtain ⟨left, paren, inner, hs, -, hp, hi⟩ :=
      tokens_eq_append (ht.trans (he.trans (List.append_cons ..)))
    have innermost : InnermostOpen before left paren inner := ⟨hs, hp, hi ▸ ha.balanced⟩
    exact ⟨left, paren, inner, innermost, place innermost (by simp [hf]),
      fun _ => ⟨n, args, outer, hf⟩⟩

theorem step_unclosed {opened place : Position} {found : Token}
    (h : step options t l = .reject (.unclosedParen opened found place)) :
    ∃ value, t.value? = some value ∧
      closeOperand (reduce 0 t.stack value).1 (reduce 0 t.stack value).2 l =
        .reject (.unclosedParen opened found place) := by
  have stuck : ∀ u, step options t l ≠ .shift u := fun u hu => by cases h.symm.trans hu
  rcases step_stuck stuck with ⟨limit, hs⟩ | hs | ⟨value, hv, hs⟩
  · cases h.symm.trans hs
  · have he := h.symm.trans hs
    unfold unexpected at he
    split at he <;> cases he
  · exact ⟨value, hv, hs.symm.trans h⟩

theorem step_refuse_looksBehind (h : step options t l = .refuse error) :
    error.looksBehind = false := by
  have stuck : ∀ u, step options t l ≠ .shift u := fun u hu => by cases h.symm.trans hu
  rcases step_stuck stuck with ⟨limit, hs⟩ | hs | ⟨value, -, hs⟩
  · cases h.symm.trans hs
    rfl
  · cases h.symm.trans hs
  · rw [closeOperand_refuse (hs.symm.trans h)]
    rfl

end Parser

open FormulaLang.Parser

variable {τ : Type} [TokenSource τ]

theorem parse_rejected {source : τ} {options : ParseOptions} {error : ParseError}
    (h : (parse options source).result = .error error) (behind : error.looksBehind = true) :
    ∃ before l next t, (parse options source).feed.taken.reverse = before ++ [l, next] ∧
      Delivers source (before ++ [l, next]) (parse options source).feed.source ∧
      consume options .initial before = some t ∧ step options t l = .reject error := by
  obtain ⟨before, rest, t, hd, hc, ⟨failure, rest', hf⟩ | ⟨l, rest', hn, stuck⟩⟩ :=
    parse_ends options .initial source
  · rw [parse_failure hd hc hf] at h
    cases h
    cases behind
  · have delivered := hd.snoc hn
    cases ha : step options t l with
    | shift u => exact absurd ha (stuck u)
    | accept e =>
      rw [parse_accept_eq delivered hc ha] at h
      cases h
    | refuse other =>
      rw [parse_refuse_eq delivered hc ha] at h
      cases h
      cases (step_refuse_looksBehind ha).symm.trans behind
    | reject other =>
      cases hb : TokenSource.next rest' with
      | mk answer last =>
        cases answer with
        | ok next =>
          have he := parse_reject_ok delivered hc ha hb
          rw [he] at h
          cases h
          refine ⟨before, l, next, t, ?_, ?_, hc, ha⟩
          · rw [he, List.reverse_reverse]
          · rw [he]
            simpa using delivered.snoc hb
        | error failure =>
          rw [parse_reject_error delivered hc ha hb] at h
          cases h
          cases behind

/-- The parenthesis that an error calls unclosed is the innermost one that the tokens before the
reported one leave open, be it that of a group or that of a call. The reported token does not
close it, and is no comma if a name stands in front of it. -/
theorem unclosed_paren_is_innermost {source : τ} {options : ParseOptions}
    {opened place : Position} {found : Token}
    (h : (parse options source).result = .error (.unclosedParen opened found place)) :
    ∃ before l next left paren inner,
      Delivers source (before ++ [l, next]) (parse options source).feed.source ∧
      (parse options source).feed.taken.reverse = before ++ [l, next] ∧
      l.token = found ∧ l.first = place ∧
      InnermostOpen before left paren inner ∧ paren.first = opened ∧
      (∀ left' paren' inner', InnermostOpen before left' paren' inner' →
        left' = left ∧ paren' = paren) ∧
      found ≠ .closeParen ∧ (EndsInName left → found ≠ .comma) := by
  obtain ⟨before, l, next, t, taken, delivered, consumed, hs⟩ := parse_rejected h rfl
  obtain ⟨value, hv, hclose⟩ := step_unclosed hs
  obtain ⟨opened', he, notClose, frames⟩ := closeOperand_reject hclose
  cases he
  have hu := consume_unlimited consumed
  have reads : Reads (tokens before) t := Reads.initial.consume hu
  have top : (∃ outer, (reduce 0 t.stack value).1 = .group opened :: outer) ∨
      ∃ n args outer, (reduce 0 t.stack value).1 = .call n opened args :: outer :=
    frames.imp_right fun ⟨n, args, outer, hf, _⟩ => ⟨n, args, outer, hf⟩
  obtain ⟨left, paren, inner, hi, hp, hcall⟩ :=
    innermost_of_frames reads hv (consume_unmatched hu) top
  refine ⟨before, l, next, left, paren, inner, delivered, taken, rfl, rfl, hi, hp,
    fun _ _ _ hi' => hi.unique hi', notClose, fun hn => ?_⟩
  obtain ⟨n, args, outer, hf⟩ := hcall hn
  rcases frames with ⟨outer', hg⟩ | ⟨_, _, _, -, notComma⟩
  · cases hg.symm.trans hf
  · exact notComma

def unclosedCall : List Lexeme :=
  placed [.identifier "f", .openParen, .identifier "x", .comma, .openParen, .identifier "y",
    .closeParen, .number 2]

/-- The parenthesis of the call is blamed, since that of the group has been closed. -/
theorem unclosed_paren_of_call :
    (parse ⟨some 3⟩ (TokenScript.ofLexemes unclosedCall ⟨0, 8⟩)).result =
        .error (.unclosedParen ⟨0, 1⟩ (.number 2) ⟨0, 7⟩) ∧
      ∃ before l next left paren inner,
        (parse ⟨some 3⟩ (TokenScript.ofLexemes unclosedCall ⟨0, 8⟩)).feed.taken.reverse =
          before ++ [l, next] ∧
        InnermostOpen before left paren inner ∧ paren.first = ⟨0, 1⟩ ∧
        (EndsInName left → Token.number 2 ≠ .comma) := by
  have hd : Delivers (TokenScript.ofLexemes unclosedCall ⟨0, 8⟩)
      (unclosedCall.take 7 ++ [.single (.number 2) ⟨0, 7⟩]) _ :=
    TokenScript.delivers_ofLexemes unclosedCall ⟨0, 8⟩
  have hr : (parse ⟨some 3⟩ (TokenScript.ofLexemes unclosedCall ⟨0, 8⟩)).result =
      .error (.unclosedParen ⟨0, 1⟩ (.number 2) ⟨0, 7⟩) := by
    have hc : consume ⟨some 3⟩ .initial (unclosedCall.take 7) = some _ := rfl
    exact parse_reject hd hc rfl
  obtain ⟨before, l, next, left, paren, inner, -, taken, -, -, hi, hp, -, -, hn⟩ :=
    unclosed_paren_is_innermost hr
  exact ⟨hr, before, l, next, left, paren, inner, taken, hi, hp, hn⟩

end FormulaLang
