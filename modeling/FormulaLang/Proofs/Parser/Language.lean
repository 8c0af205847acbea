import FormulaLang.Proofs.Parser.Blame
import FormulaLang.Proofs.Parser.Completeness

/-!
# The language of the parser

Without a limit the parser accepts the sentences of the grammar and nothing else, each with the
tree of its derivation, and consumes exactly their beginnings.
-/
namespace FormulaLang

namespace Parser

variable {t : State} {ls : List Lexeme} {l : Lexeme} {e : Expr}

theorem accepts_of_derives (h : Derives .expression (tokens ls) [e]) :
    ∃ t, consume ⟨none⟩ .initial ls = some t ∧
      ∀ l : Lexeme, l.token.isEof = true → step ⟨none⟩ t l = .accept e := by
  obtain ⟨t, hc, hh⟩ := consumable_of_derives h ls .initial [] rfl rfl fun _ _ => rfl
  obtain ⟨v, hv, hw⟩ := hh.finished fun _ _ => rfl
  refine ⟨t, hc, fun l hl => ?_⟩
  have ho : t.openings = [] := by
    rw [openings_of_value hv, ← openings_reduce 0 _ v, hw]
    rfl
  obtain ⟨-, hs⟩ := value_stuck_closed hv ho fun u => step_eof hl u
  rw [hs, hw]
  simp [hl]

theorem viable_iff_consume : Viable (tokens ls) ↔ ∃ t, consume ⟨none⟩ .initial ls = some t := by
  constructor
  · rintro ⟨rest, e, h⟩
    rw [← tokens_placed rest, ← List.map_append] at h
    obtain ⟨t, hc, -⟩ := accepts_of_derives h
    rw [consume_append, Option.bind_eq_some_iff] at hc
    obtain ⟨u, hu, -⟩ := hc
    exact ⟨u, hu⟩
  · rintro ⟨t, hc⟩
    simpa using (Reads.initial.consume hc).viable

theorem stuck_iff_not_viable (consumed : consume ⟨none⟩ .initial ls = some t) :
    (∀ u, step ⟨none⟩ t l ≠ .shift u) ↔ ¬ Viable (tokens (ls ++ [l])) := by
  rw [viable_iff_consume]
  constructor
  · rintro h ⟨u, hu⟩
    obtain ⟨v, hv, hs⟩ := consume_snoc_some hu
    cases consumed.symm.trans hv
    exact h u hs
  · intro h u hs
    exact h ⟨u, consume_snoc_shift consumed hs⟩

theorem consume_none {options : ParseOptions} {state : State}
    (h : consume options state ls = none) :
    ∃ before found after u, ls = before ++ found :: after ∧
      consume options state before = some u ∧ ∀ v, step options u found ≠ .shift v := by
  induction ls generalizing state with
  | nil => cases h
  | cons l ls ih =>
    by_cases hs : ∃ u, step options state l = .shift u
    · obtain ⟨u, hs⟩ := hs
      rw [consume_shift hs] at h
      obtain ⟨before, found, after, v, rfl, hc, hf⟩ := ih h
      exact ⟨l :: before, found, after, v, rfl, by rw [consume_shift hs, hc], hf⟩
    · exact ⟨[], l, ls, state, rfl, rfl, fun v hv => hs ⟨v, hv⟩⟩

end Parser

open FormulaLang.Parser

theorem Derives.unique {ts : List Token} {e f : Expr} (h : Derives .expression ts [e])
    (k : Derives .expression ts [f]) : e = f := by
  rw [← tokens_placed ts] at h k
  obtain ⟨t, hc, he⟩ := accepts_of_derives h
  obtain ⟨u, hu, hf⟩ := accepts_of_derives k
  cases hc.symm.trans hu
  cases (he (.single .eof .start) rfl).symm.trans (hf (.single .eof .start) rfl)
  rfl

variable {τ : Type} [TokenSource τ] {source rest : τ} {ls : List Lexeme} {ending : Lexeme}

theorem DeliversAll.stuck (h : DeliversAll source ls ending rest) :
    ∃ before found after middle t, ls ++ [ending] = before ++ found :: after ∧
      Delivers source (before ++ [found]) middle ∧ Delivers middle after rest ∧
      consume ⟨none⟩ .initial before = some t ∧ ∀ u, step ⟨none⟩ t found ≠ .shift u := by
  have hn : consume ⟨none⟩ .initial (ls ++ [ending]) = none := by
    rw [Option.eq_none_iff_forall_ne_some]
    intro t ht
    obtain ⟨u, -, hs⟩ := consume_snoc_some ht
    exact step_eof h.eof t hs
  obtain ⟨before, found, after, t, hl, hc, hs⟩ := consume_none hn
  have hd := h.delivered
  rw [hl, List.append_cons] at hd
  obtain ⟨middle, hb, ha⟩ := hd.split
  exact ⟨before, found, after, middle, t, hl, hb, ha, hc, hs⟩

/-- The parser accepts exactly the sentences of the grammar, each with the one tree that it
stands for. The tree calls the names in front of opening parentheses and no others. -/
theorem parse_ok_iff_derives (h : DeliversAll source ls ending rest) :
    (∀ e, (parse ⟨none⟩ source).result = .ok e ↔ Derives .expression (tokens ls) [e]) ∧
      ∀ e, Derives .expression (tokens ls) [e] →
        (∀ f, Derives .expression (tokens ls) [f] → f = e) ∧ tokenNames (tokens ls) = e.names := by
  refine ⟨fun e => ⟨fun hp => ?_, fun hd => ?_⟩, fun e he => ⟨fun f hf => hf.unique he, ?_⟩⟩
  · obtain ⟨before, found, after, middle, t, hl, hb, -, hc, hs⟩ := h.stuck
    rcases stuck_blames hc hs with ⟨e', he, hd, ha⟩ | ⟨error, -, ⟨-, ha⟩ | ⟨-, ha⟩⟩
    · cases h.eof_last hl he
      cases hp.symm.trans (parse_accept hb hc ha)
      exact hd
    · cases hp.symm.trans (parse_refuse hb hc ha)
    · rw [parse_reject hb hc ha] at hp
      split at hp <;> cases hp
  · obtain ⟨t, hc, ha⟩ := accepts_of_derives hd
    exact parse_accept h.delivered hc (ha ending h.eof)
  · simpa [Expr.allNames] using he.names

/-- The formula `-f(x, 2) * a / (b - c / d)`. -/
def signedQuotient : List Token :=
  [.minus, .identifier "f", .openParen, .identifier "x", .comma, .number 2, .closeParen, .star,
    .identifier "a", .slash, .openParen, .identifier "b", .minus, .identifier "c", .slash,
    .identifier "d", .closeParen]

/-- The minus sign takes the call alone. The quotient takes the whole product in front of it, the
difference takes the quotient behind it, and the parentheses leave no node. -/
theorem parse_ok_signedQuotient :
    (parse ⟨none⟩ (TokenScript.ofLexemes (placed signedQuotient) ⟨0, 17⟩)).result =
      .ok (.binary .div
        (.binary .mul (.neg (.call "f" [.var "x", .num 2])) (.var "a"))
        (.binary .sub (.var "b") (.binary .div (.var "c") (.var "d")))) := by
  have hargs : Derives .arguments [.identifier "x", .comma, .number 2] [.var "x", .num 2] :=
    .argument (.term (.factor (.name "x"))) (.lastArgument (.term (.factor (.number 2))))
  have hneg : Derives .term [.minus, .identifier "f", .openParen, .identifier "x", .comma,
      .number 2, .closeParen] [.neg (.call "f" [.var "x", .num 2])] :=
    .factor (.negation (.call hargs))
  have hquot : Derives .term [.identifier "c", .slash, .identifier "d"]
      [.binary .div (.var "c") (.var "d")] :=
    .product (.factor (.name "c")) .slash (.name "d")
  have hdiff : Derives .expression [.identifier "b", .minus, .identifier "c", .slash,
      .identifier "d"] [.binary .sub (.var "b") (.binary .div (.var "c") (.var "d"))] :=
    .sum (.term (.factor (.name "b"))) .minus hquot
  refine ((parse_ok_iff_derives (TokenScript.deliversAll_ofLexemes _ ?_)).1 _).mpr ?_
  · simp [placed, signedQuotient, Lexeme.single, Token.isEof]
  · rw [tokens_placed]
    exact .term (.product (.product hneg .star (.name "a")) .slash (.group hdiff))

end FormulaLang
