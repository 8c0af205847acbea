import FormulaLang.Proofs.Parser.DepthLimit

/-!
# How many tokens a parse takes

Where a parse ends fixes the number of its calls. A lexeme that the grammar does not allow is
reported when the one behind it has been taken too; too much input and too deep nesting are
reported in front of the lexeme, and the end of a complete input is the last one taken.
-/
namespace FormulaLang

/-- The lexeme behind the one that is blamed has been taken when the error is raised. -/
def ParseError.looksBehind : ParseError → Bool
  | .unexpectedToken _ _ _ | .unexpectedEof _ _ | .unclosedParen _ _ _ => true
  | .token _ | .trailingInput _ _ | .tooDeep _ _ => false

namespace Parser

variable {options : ParseOptions} {state t : State} {before ls : List Lexeme} {l found : Lexeme}
  {error : ParseError}

theorem consume_unlimited (h : consume options state ls = some t) :
    consume ⟨none⟩ state ls = some t := by
  induction ls generalizing state with
  | nil => exact h
  | cons l ls ih =>
    obtain ⟨u, hs, hu⟩ := consume_cons_some h
    rw [consume_shift (step_of_shift (shift_of_step hs)), ih hu]

theorem consume_inner (h : consume options state ls = some t) :
    ∀ l ∈ ls, l.token.isEof = false := by
  induction ls generalizing state with
  | nil => exact List.forall_mem_nil _
  | cons l ls ih =>
    obtain ⟨u, hs, hu⟩ := consume_cons_some h
    exact List.forall_mem_cons.mpr ⟨Bool.eq_false_iff.mpr fun he => step_eof he u hs, ih hu⟩

theorem step_limited (options : ParseOptions) (state : State) (l : Lexeme) :
    step options state l = step ⟨none⟩ state l ∨
      ∃ limit frames, options = ⟨some limit⟩ ∧ state.Starts l ∧
        state.awaiting? = some frames ∧ limit ≤ depth frames ∧
        step options state l = .refuse (.tooDeep limit l.first) := by
  obtain ⟨maxDepth⟩ := options
  cases maxDepth with
  | none => exact Or.inl rfl
  | some limit =>
    by_cases hd : ∃ frames, state.Starts l ∧ state.awaiting? = some frames ∧ limit ≤ depth frames
    · obtain ⟨frames, hs, ha, hd⟩ := hd
      exact Or.inr ⟨limit, frames, rfl, hs, ha, hd, step_tooDeep hs ha hd⟩
    · refine Or.inl (step_limit fun frames hs ha => ?_)
      exact Nat.not_le.mp fun hle => hd ⟨frames, hs, ha, hle⟩

end Parser

theorem Blames.looksBehind {before : List Lexeme} {found : Lexeme} {error : ParseError}
    (h : Blames before found error) (hc : ¬ Closed before) : error.looksBehind = true := by
  cases h with
  | missingOperand => rfl
  | noOperand => rfl
  | unclosed => rfl
  | trailing hd hu => exact absurd ⟨hd, hu⟩ hc

theorem Blames.of_closed {before : List Lexeme} {found : Lexeme} {error : ParseError}
    (h : Blames before found error) (hc : Closed before) :
    error = .trailingInput found.token found.first := by
  obtain ⟨hd, hu⟩ := hc
  cases h with
  | missingOperand hn => simp [hd] at hn
  | noOperand hn => simp [hd] at hn
  | unclosed _ ho => simp [hu] at ho
  | trailing => rfl

open FormulaLang.Parser

variable {τ : Type} [TokenSource τ]

/-- Where the unlimited parse first starts a factor too deep, the limited one stops. So it has
consumed nothing behind that place. -/
theorem StartsTooDeep.isFirst {source : τ} {limit : Nat} {before : List Lexeme} {found : Lexeme}
    {t : State} (h : StartsTooDeep source limit before found)
    (consumed : consume ⟨some limit⟩ .initial before = some t) :
    FirstTooDeep source limit before found := by
  refine ⟨h, fun earlier l he => Nat.not_lt.mp fun hlt => ?_⟩
  obtain ⟨⟨⟨rest, hd⟩, -⟩, -⟩ := h
  obtain ⟨middle, hb, -⟩ := hd.split
  obtain ⟨hst, n, hn, ho⟩ := he
  obtain ⟨u, frames, hu, hs, ha, hopens⟩ := hst.opens
  obtain ⟨⟨rest', hl⟩, -⟩ := hst
  obtain ⟨more, rfl⟩ := hl.isPrefix hb (by simpa using Nat.succ_le_of_lt hlt)
  rw [consume_append, Option.bind_eq_some_iff] at consumed
  obtain ⟨v, hv, -⟩ := consumed
  obtain ⟨w, hw, hshift⟩ := consume_snoc_some hv
  cases hu.symm.trans (consume_unlimited hw)
  rw [(hopens n).mp ho] at hn
  cases hshift.symm.trans (step_tooDeep hs ha hn)

/-- How a parse of a source ends: with the lexemes that its calls gave, the number of the calls
and the result. A lexeme that is blamed is the first one that no sentence continues with. -/
inductive Spends (options : ParseOptions) (source : τ) :
    List Lexeme → Nat → Except ParseError Expr → Prop where
  | accepted {ls ending rest e} : DeliversAll source ls ending rest →
      Derives .expression (tokens ls) [e] →
      Spends options source (ls ++ [ending]) (ls.length + 1) (.ok e)
  | rejected {before found behind rest error} :
      Delivers source (before ++ [found, behind]) rest →
      Viable (tokens before) → ¬ Viable (tokens (before ++ [found])) →
      Blames before found error → error.looksBehind = true →
      Spends options source (before ++ [found, behind]) (before.length + 2) (.error error)
  | trailing {before found rest} : Delivers source (before ++ [found]) rest →
      Viable (tokens before) → ¬ Viable (tokens (before ++ [found])) →
      Blames before found (.trailingInput found.token found.first) →
      Spends options source (before ++ [found]) (before.length + 1)
        (.error (.trailingInput found.token found.first))
  | tooDeep {before found rest limit} : Delivers source (before ++ [found]) rest →
      options.maxDepth = some limit → FirstTooDeep source limit before found →
      Spends options source (before ++ [found]) (before.length + 1)
        (.error (.tooDeep limit found.first))
  | failed {ls rest failure rest'} : Delivers source ls rest →
      TokenSource.next rest = (.error failure, rest') →
      Spends options source ls (ls.length + 1) (.error (.token failure))

section

variable {options : ParseOptions} {source rest : τ} {before : List Lexeme} {found : Lexeme}
  {t : State} {e : Expr} {error : ParseError}

theorem parse_accept_eq (delivered : Delivers source (before ++ [found]) rest)
    (consumed : consume options .initial before = some t)
    (h : step options t found = .accept e) :
    parse options source = ⟨.ok e, rest, before.length + 1, (before ++ [found]).reverse⟩ := by
  rw [parse_eq_run delivered consumed, run_accept h]
  simp [Feed.after, Feed.fresh]

theorem parse_refuse_eq (delivered : Delivers source (before ++ [found]) rest)
    (consumed : consume options .initial before = some t)
    (h : step options t found = .refuse error) :
    parse options source =
      ⟨.error error, rest, before.length + 1, (before ++ [found]).reverse⟩ := by
  rw [parse_eq_run delivered consumed, run_refuse h]
  simp [Feed.after, Feed.fresh]

theorem parse_reject_ok {behind : Lexeme} {rest' : τ}
    (delivered : Delivers source (before ++ [found]) rest)
    (consumed : consume options .initial before = some t)
    (h : step options t found = .reject error)
    (hn : TokenSource.next rest = (.ok behind, rest')) :
    parse options source =
      ⟨.error error, rest', before.length + 2, (before ++ [found, behind]).reverse⟩ := by
  rw [parse_eq_run delivered consumed, run_reject h, Feed.take_ok hn]
  simp [Feed.after, Feed.fresh]

theorem parse_reject_error {failure : TokenError} {rest' : τ}
    (delivered : Delivers source (before ++ [found]) rest)
    (consumed : consume options .initial before = some t)
    (h : step options t found = .reject error)
    (hn : TokenSource.next rest = (.error failure, rest')) :
    parse options source =
      ⟨.error (.token failure), rest', (before ++ [found]).length + 1,
        (before ++ [found]).reverse⟩ := by
  rw [parse_eq_run delivered consumed, run_reject h, Feed.take_error hn]
  simp [Feed.after, Feed.fresh]

structure Accounted (options : ParseOptions) (source : τ) (ls : List Lexeme) (run : ParseRun τ) :
    Prop where
  spends : Spends options source ls run.feed.calls run.result
  taken : run.feed.taken = ls.reverse

theorem accounted_of_blames (delivered : Delivers source (before ++ [found]) rest)
    (consumed : consume options .initial before = some t)
    (same : step options t found = step ⟨none⟩ t found)
    (stuck : ∀ u, step ⟨none⟩ t found ≠ .shift u) :
    ∃ ls, Accounted options source ls (parse options source) ∧
      (parse options source).feed.calls ≤ before.length + 2 := by
  have hu := consume_unlimited consumed
  have viable : Viable (tokens before) := viable_iff_consume.mpr ⟨t, hu⟩
  have impossible := (stuck_iff_not_viable hu).mp stuck
  rcases stuck_blames hu stuck with ⟨e, he, hd, ha⟩ | ⟨error, hb, ⟨hc, ha⟩ | ⟨hc, ha⟩⟩
  · rw [parse_accept_eq delivered consumed (same.trans ha)]
    have hall : DeliversAll source before found rest := ⟨delivered, consume_inner consumed, he⟩
    exact ⟨_, ⟨.accepted hall hd, rfl⟩, Nat.le_succ _⟩
  · rw [parse_refuse_eq delivered consumed (same.trans ha)]
    cases hb.of_closed hc
    exact ⟨_, ⟨.trailing delivered viable impossible hb, rfl⟩, Nat.le_succ _⟩
  · cases hn : TokenSource.next rest with
    | mk answer rest' =>
      cases answer with
      | ok behind =>
        rw [parse_reject_ok delivered consumed (same.trans ha) hn]
        have hd : Delivers source (before ++ [found, behind]) rest' := by
          simpa using delivered.snoc hn
        exact ⟨_, ⟨.rejected hd viable impossible hb (hb.looksBehind hc), rfl⟩, Nat.le_refl _⟩
      | error failure =>
        rw [parse_reject_error delivered consumed (same.trans ha) hn]
        exact ⟨_, ⟨.failed delivered hn, rfl⟩, by simp⟩

theorem accounted_of_stuck (delivered : Delivers source (before ++ [found]) rest)
    (consumed : consume options .initial before = some t)
    (stuck : ∀ u, step options t found ≠ .shift u) :
    ∃ ls, Accounted options source ls (parse options source) ∧
      (parse options source).feed.calls ≤ before.length + 2 := by
  rcases step_limited options t found with same | ⟨limit, frames, rfl, hs, ha, hle, hd⟩
  · rw [same] at stuck
    exact accounted_of_blames delivered consumed same stuck
  · rw [parse_refuse_eq delivered consumed hd]
    have hu := consume_unlimited consumed
    have deep : StartsTooDeep source limit before found := .of_depth delivered hu hs ha hle
    exact ⟨_, ⟨.tooDeep delivered rfl (deep.isFirst consumed), rfl⟩, Nat.le_succ _⟩

theorem parse_ok_delivers (h : (parse options source).result = .ok e) :
    ∃ ls ending, DeliversAll source ls ending (parse options source).feed.source ∧
      Derives .expression (tokens ls) [e] := by
  obtain ⟨ls, rest, t, hd, hc, ⟨failure, rest', hf⟩ | ⟨l, rest', hn, hs⟩⟩ :=
    parse_ends options .initial source
  · rw [parse_failure hd hc hf] at h
    cases h
  · have delivered := hd.snoc hn
    cases ha : step options t l with
    | shift u => exact absurd ha (hs u)
    | refuse error =>
      rw [parse_refuse delivered hc ha] at h
      cases h
    | reject error =>
      rw [parse_reject delivered hc ha] at h
      split at h <;> cases h
    | accept value =>
      have same : step options t l = step ⟨none⟩ t l := by
        rcases step_limited options t l with same | ⟨limit, frames, -, -, -, -, hl⟩
        · exact same
        · cases ha.symm.trans hl
      rw [same] at ha hs
      rcases stuck_blames (consume_unlimited hc) hs with
        ⟨value', eof, hder, ha'⟩ | ⟨error, -, ⟨-, ha'⟩ | ⟨-, ha'⟩⟩
      · cases ha.symm.trans ha'
        rw [parse_accept_eq delivered hc (same.trans ha)] at h ⊢
        cases h
        exact ⟨ls, l, ⟨delivered, consume_inner hc, eof⟩, hder⟩
      · cases ha.symm.trans ha'
      · cases ha.symm.trans ha'

end

/-- A parse whose source fails or ends after some lexemes makes a number of calls that its result
determines, and no more than two beyond those lexemes. On success it has taken each of them once
and the end behind them. It has recorded every lexeme that a call gave, in order, and at last
the tree if there is one. -/
theorem parse_token_budget {source rest : τ} {ws : List Lexeme}
    (delivered : Delivers source ws rest) (inner : ∀ l ∈ ws, l.token.isEof = false)
    (stops : ∀ l rest', TokenSource.next rest = (.ok l, rest') → l.token.isEof = true)
    (options : ParseOptions) :
    let run := parse options source
    ∃ ls, Spends options source ls run.feed.calls run.result ∧
      run.feed.calls ≤ ws.length + 2 ∧
      (∀ e, run.result = .ok e → run.feed.calls = ws.length + 1 ∧
        ∃ ending, ls = ws ++ [ending] ∧ ending.token.isEof = true) ∧
      run.log =
        ls.map LogRecord.token ++ (run.result.toOption.map LogRecord.parsed).toList := by
  obtain ⟨before, middle, t, hd, hc, he⟩ := parse_ends options .initial source
  have bound := hd.length_le_of_inner (consume_inner hc) delivered stops
  have accounted : ∃ ls, Accounted options source ls (parse options source) ∧
      (parse options source).feed.calls ≤ before.length + 2 := by
    rcases he with ⟨failure, rest', hf⟩ | ⟨found, rest', hn, stuck⟩
    · rw [parse_failure hd hc hf]
      exact ⟨before, ⟨.failed hd hf, rfl⟩, Nat.le_succ _⟩
    · exact accounted_of_stuck (hd.snoc hn) hc stuck
  obtain ⟨ls, hs, hcalls⟩ := accounted
  refine ⟨ls, hs.spends, Nat.le_trans hcalls (Nat.add_le_add_right bound 2), ?_, ?_⟩
  · intro e hr
    have spent := hs.spends
    rw [hr] at spent
    generalize (parse options source).feed.calls = calls at spent ⊢
    cases spent with
    | accepted hall _ =>
      obtain rfl := hall.eq_of_stops delivered inner stops
      exact ⟨rfl, _, rfl, hall.eof⟩
  · rw [ParseRun.log, hs.taken, List.reverse_reverse]
    cases (parse options source).result <;> rfl

def failureBehindEnd : TokenScript :=
  ⟨(placed [.minus, .identifier "x", .eof]).map .ok ++ [.error (.unreadable ⟨.other, "gone"⟩)],
    ⟨0, 3⟩⟩

/-- Each token is taken once and the failure is not met. -/
theorem parse_calls_failureBehindEnd :
    (∀ l ∈ placed [.minus, .identifier "x"], l.token.isEof = false) ∧
      (parse ⟨none⟩ failureBehindEnd).result = .ok (.neg (.var "x")) ∧
      (parse ⟨none⟩ failureBehindEnd).feed.calls = 3 := by
  have hd : Delivers failureBehindEnd
      (placed [.minus, .identifier "x"] ++ [.single .eof ⟨0, 2⟩]) _ :=
    TokenScript.delivers_prepared _ [.error (.unreadable ⟨.other, "gone"⟩)] ⟨0, 3⟩
  obtain ⟨middle, hb, hn⟩ := hd.split_last
  have inner : ∀ l ∈ placed [.minus, .identifier "x"], l.token.isEof = false := by decide
  have stops : ∀ l rest', TokenSource.next middle = (.ok l, rest') → l.token.isEof = true := by
    intro l rest' hl
    cases hn.symm.trans hl
    rfl
  have hr : (parse ⟨none⟩ failureBehindEnd).result = .ok (.neg (.var "x")) :=
    parse_accept hd rfl rfl
  obtain ⟨ls, -, -, success, -⟩ := parse_token_budget hb inner stops ⟨none⟩
  exact ⟨inner, hr, (success _ hr).1⟩

end FormulaLang
