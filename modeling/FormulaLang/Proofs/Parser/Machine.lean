import FormulaLang.Expr.Parser
import FormulaLang.Proofs.Delivery

/-!
# Running the parser over a prefix of its input

The parser consumes lexemes as long as each step shifts. Where it first does not, or where the
source first fails, the parse ends; what it says there depends on that one step alone. The
lists here are what has been consumed, so the same statements serve every token source.
-/
namespace FormulaLang.Parser

variable {τ : Type} [TokenSource τ] {options : ParseOptions} {state state' : State}
  {ls ms : List Lexeme} {l : Lexeme} {source rest rest' : τ} {feed : Feed τ}

/-- The state after consuming lexemes, if each of them can be consumed in turn. -/
def consume (options : ParseOptions) (state : State) : List Lexeme → Option State
  | [] => some state
  | l :: ls =>
    match step options state l with
    | .shift state' => consume options state' ls
    | _ => none

theorem consume_shift (h : step options state l = .shift state') :
    consume options state (l :: ls) = consume options state' ls := by
  simp [consume, h]

theorem consume_cons_some {t : State} (h : consume options state (l :: ls) = some t) :
    ∃ u, step options state l = .shift u ∧ consume options u ls = some t := by
  unfold consume at h
  split at h
  next u hs => exact ⟨u, hs, h⟩
  next => cases h

theorem consume_append (ls ms : List Lexeme) :
    consume options state (ls ++ ms) =
      (consume options state ls).bind fun t => consume options t ms := by
  induction ls generalizing state with
  | nil => rfl
  | cons l ls ih =>
    simp only [List.cons_append, consume]
    split
    · exact ih
    · rfl

theorem consume_snoc_shift {t : State} (h : consume options state ls = some state')
    (hs : step options state' l = .shift t) : consume options state (ls ++ [l]) = some t := by
  rw [consume_append, h]
  exact consume_shift hs

theorem consume_snoc_some {t : State} (h : consume options state (ls ++ [l]) = some t) :
    ∃ u, consume options state ls = some u ∧ step options u l = .shift t := by
  rw [consume_append, Option.bind_eq_some_iff] at h
  obtain ⟨u, hu, h⟩ := h
  obtain ⟨v, hs, hv⟩ := consume_cons_some h
  cases hv
  exact ⟨u, hu, hs⟩

/-- Takes the lexeme that the state waits for and runs the machine. -/
def resume (options : ParseOptions) (state : State) (feed : Feed τ) :
    Except ParseError Expr × Feed τ :=
  match feed.take with
  | (.ok l, feed') => run options state l feed'
  | (.error error, feed') => (.error (.token error), feed')

theorem parse_eq_resume (options : ParseOptions) (source : τ) :
    parse options source =
      ⟨(resume options .initial (.fresh source)).1,
        (resume options .initial (.fresh source)).2⟩ := by
  unfold parse resume
  split
  next h => rw [h]
  next h => rw [h]

theorem run_shift (h : step options state l = .shift state') :
    run options state l feed = resume options state' feed := by
  rw [run]
  split
  next hs => cases h.symm.trans hs
  next hs => cases h.symm.trans hs
  next hs => cases h.symm.trans hs
  next hs =>
    cases h.symm.trans hs
    unfold resume
    split <;> simp_all

theorem run_accept {value : Expr} (h : step options state l = .accept value) :
    run options state l feed = (.ok value, feed) := by
  rw [run]
  split <;> simp_all

theorem run_refuse {error : ParseError} (h : step options state l = .refuse error) :
    run options state l feed = (.error error, feed) := by
  rw [run]
  split <;> simp_all

/-- A rejected lexeme is consumed all the same, and a failure behind it is reported instead. -/
theorem run_reject {error : ParseError} (h : step options state l = .reject error) :
    run options state l feed =
      match feed.take with
      | (.ok _, feed') => (.error error, feed')
      | (.error failure, feed') => (.error (.token failure), feed') := by
  rw [run]
  split
  next hs => cases h.symm.trans hs
  next hs => cases h.symm.trans hs
  next hs =>
    cases h.symm.trans hs
    rcases feed.take with ⟨(_ | _), _⟩ <;> rfl
  next hs => cases h.symm.trans hs

theorem resume_consume (delivered : Delivers feed.source ls rest)
    (consumed : consume options state ls = some state') :
    resume options state feed = resume options state' (feed.after ls rest) := by
  induction ls generalizing state feed with
  | nil =>
    cases delivered
    cases consumed
    rfl
  | cons l ls ih =>
    obtain ⟨u, hs, hu⟩ := consume_cons_some consumed
    cases delivered with
    | @cons _ t _ _ _ hn hd =>
      calc resume options state feed
          = run options state l (feed.after [l] t) := by unfold resume; rw [Feed.take_ok hn]
        _ = resume options u (feed.after [l] t) := run_shift hs
        _ = resume options state' ((feed.after [l] t).after ls rest) := ih hd hu
        _ = resume options state' (feed.after (l :: ls) rest) := by rw [← Feed.after_append]; rfl

/-! ## Where a parse ends -/

theorem parse_eq_run (delivered : Delivers source (ls ++ [l]) rest)
    (consumed : consume options .initial ls = some state) :
    parse options source =
      ⟨(run options state l ((Feed.fresh source).after (ls ++ [l]) rest)).1,
        (run options state l ((Feed.fresh source).after (ls ++ [l]) rest)).2⟩ := by
  obtain ⟨t, hd, hn⟩ := delivered.split_last
  rw [parse_eq_resume, resume_consume hd consumed]
  unfold resume
  rw [Feed.take_ok hn, Feed.after_append _ ls [l] t]

theorem parse_failure {failure : TokenError} (delivered : Delivers source ls rest)
    (consumed : consume options .initial ls = some state)
    (failed : TokenSource.next rest = (.error failure, rest')) :
    parse options source =
      ⟨.error (.token failure), rest', ls.length + 1, ls.reverse⟩ := by
  rw [parse_eq_resume, resume_consume delivered consumed]
  unfold resume
  rw [Feed.take_error failed]
  simp [Feed.after, Feed.fresh]

theorem parse_accept {value : Expr} (delivered : Delivers source (ls ++ [l]) rest)
    (consumed : consume options .initial ls = some state)
    (h : step options state l = .accept value) : (parse options source).result = .ok value := by
  rw [parse_eq_run delivered consumed, run_accept h]

theorem parse_refuse {error : ParseError} (delivered : Delivers source (ls ++ [l]) rest)
    (consumed : consume options .initial ls = some state)
    (h : step options state l = .refuse error) :
    (parse options source).result = .error error := by
  rw [parse_eq_run delivered consumed, run_refuse h]

theorem parse_reject {error : ParseError} (delivered : Delivers source (ls ++ [l]) rest)
    (consumed : consume options .initial ls = some state)
    (h : step options state l = .reject error) :
    (parse options source).result =
      match (TokenSource.next rest).1 with
      | .ok _ => .error error
      | .error failure => .error (.token failure) := by
  rw [parse_eq_run delivered consumed, run_reject h]
  simp only [Feed.take, Feed.after]
  rcases TokenSource.next rest with ⟨(_ | _), _⟩ <;> rfl

/-- Every parse ends: at a failure of the source, or at the first lexeme that is not shifted. -/
theorem parse_ends (options : ParseOptions) (state : State) (source : τ) :
    ∃ ls rest t, Delivers source ls rest ∧ consume options state ls = some t ∧
      ((∃ failure rest', TokenSource.next rest = (.error failure, rest')) ∨
        ∃ l rest', TokenSource.next rest = (.ok l, rest') ∧
          ∀ u, step options t l ≠ .shift u) := by
  -- The end of the input never shifts, so each lexeme that does uses up the source's bound.
  induction hm : TokenSource.remaining source using Nat.strongRecOn
    generalizing source state with
  | ind m ih =>
    cases hn : TokenSource.next source with
    | mk answer next =>
      cases answer with
      | error failure => exact ⟨[], source, state, .nil _, rfl, Or.inl ⟨failure, next, hn⟩⟩
      | ok l =>
        by_cases hs : ∃ u, step options state l = .shift u
        · obtain ⟨u, hu⟩ := hs
          have notEof : l.token.isEof = false :=
            Bool.eq_false_iff.mpr fun hf => step_eof hf u hu
          have less := TokenSource.remaining_next hn notEof
          obtain ⟨ls, rest, t, hd, hc, he⟩ := ih _ (hm ▸ less) u next rfl
          exact ⟨l :: ls, rest, t, .cons hn hd, by rw [consume_shift hu, hc], he⟩
        · exact ⟨[], source, state, .nil _, rfl,
            Or.inr ⟨l, next, hn, fun u hu => hs ⟨u, hu⟩⟩⟩

end FormulaLang.Parser
