import FormulaLang.Proofs.Parser.Language

/-!
# Which lexeme a syntax error names

Without a limit, and with a source that does not fail, the error of an input that is no sentence
names the first lexeme that no sentence continues with. A source that fails right behind that
lexeme hides the error unless everything before the lexeme is closed.
-/
namespace FormulaLang

open FormulaLang.Parser

variable {τ : Type} [TokenSource τ] {source rest : τ} {ls before : List Lexeme}
  {ending found : Lexeme}

theorem parse_at_impossible (delivered : Delivers source (before ++ [found]) rest)
    (viable : Viable (tokens before)) (impossible : ¬ Viable (tokens (before ++ [found])))
    (unfinished : found.token.isEof = true → ¬ Sentence (tokens before)) :
    ∃ error, Blames before found error ∧
      (Closed before ∧ (parse ⟨none⟩ source).result = .error error ∨
        ¬ Closed before ∧ (parse ⟨none⟩ source).result =
          match (TokenSource.next rest).1 with
          | .ok _ => .error error
          | .error failure => .error (.token failure)) := by
  obtain ⟨t, hc⟩ := viable_iff_consume.mp viable
  have hs := (stuck_iff_not_viable hc).mpr impossible
  rcases stuck_blames hc hs with ⟨e, he, hd, -⟩ | ⟨error, hb, ⟨hcl, ha⟩ | ⟨hcl, ha⟩⟩
  · exact absurd ⟨e, hd⟩ (unfinished he)
  · exact ⟨error, hb, Or.inl ⟨hcl, parse_refuse delivered hc ha⟩⟩
  · exact ⟨error, hb, Or.inr ⟨hcl, parse_reject delivered hc ha⟩⟩

theorem Blames.not_token {error : ParseError} (h : Blames before found error)
    (failure : TokenError) : error ≠ .token failure := by
  cases h <;> nofun

theorem take_of_append_eq {xs ys zs ws : List Lexeme} (h : xs ++ ys = zs ++ ws)
    (hl : zs.length ≤ xs.length) : xs.take zs.length = zs := by
  have ht := congrArg (List.take zs.length) h
  rwa [List.take_append_of_le_length hl, List.take_left] at ht

/-- The error of an input that is no sentence is the one for its first lexeme that no sentence
continues with, the end of the input included. -/
theorem parse_error_of_not_sentence (h : DeliversAll source ls ending rest)
    (steady : NeverFails source) (hn : ¬ Sentence (tokens ls)) :
    ∃ i found error, (ls ++ [ending])[i]? = some found ∧
      (∀ j, j ≤ i → Viable ((tokens ls).take j)) ∧
      (i < ls.length → ¬ Viable ((tokens ls).take (i + 1))) ∧
      Blames (ls.take i) found error ∧ (parse ⟨none⟩ source).result = .error error := by
  obtain ⟨before, found, after, middle, t, hl, hb, -, hc, hs⟩ := h.stuck
  have viable : Viable (tokens before) := viable_iff_consume.mpr ⟨t, hc⟩
  have unfinished : found.token.isEof = true → ¬ Sentence (tokens before) := by
    intro he
    rw [h.eof_last hl he]
    exact hn
  obtain ⟨error, hbl, hr⟩ := parse_at_impossible hb viable
    ((stuck_iff_not_viable hc).mp hs) unfinished
  have hp : (parse ⟨none⟩ source).result = .error error := by
    rcases hr with ⟨-, hr⟩ | ⟨-, hr⟩
    · exact hr
    · obtain ⟨l, rest', hnext⟩ := steady _ _ hb
      rw [hr, hnext]
  -- The index is the number of lexemes consumed.
  have hlen := congrArg List.length hl
  simp only [List.length_append, List.length_cons, List.length_nil] at hlen
  have htake : ls.take before.length = before := take_of_append_eq hl (by omega)
  refine ⟨before.length, found, error, by simp [hl], ?_, ?_, htake.symm ▸ hbl, hp⟩
  · intro j hj
    have hv : Viable ((tokens ls).take before.length) := by rwa [← List.map_take, htake]
    simpa [List.take_take, Nat.min_eq_left hj] using hv.take j
  · intro hi
    have hsucc : ls.take (before ++ [found]).length = before ++ [found] :=
      take_of_append_eq (hl.trans (List.append_cons ..)) (by rw [List.length_append]; exact hi)
    rw [List.length_append, List.length_singleton] at hsucc
    rw [← List.map_take, hsucc]
    exact (stuck_iff_not_viable hc).mp hs

def missingArgument : List Lexeme :=
  placed [.identifier "f", .openParen, .identifier "x", .comma, .closeParen]

/-- The closing parenthesis is blamed, since the comma in front of it asks for an argument. -/
theorem parse_error_missingArgument :
    (parse ⟨none⟩ (TokenScript.ofLexemes missingArgument ⟨0, 5⟩)).result =
      .error (.unexpectedToken operandStart .closeParen ⟨0, 4⟩) := by
  have hstart : Viable ((tokens missingArgument).take 4) := by
    rw [← List.map_take]
    exact viable_iff_consume.mpr ⟨_, rfl⟩
  have hstop : ¬ Viable ((tokens missingArgument).take 5) := by
    have hc : consume ⟨none⟩ .initial (missingArgument.take 4) = some _ := rfl
    exact (stuck_iff_not_viable (l := .single .closeParen ⟨0, 4⟩) hc).mp nofun
  have hsentence : ¬ Sentence (tokens missingArgument) :=
    fun h => hstop ⟨[], by rw [List.append_nil]; exact h⟩
  have hinner : ∀ l ∈ missingArgument, l.token.isEof = false := by decide
  obtain ⟨i, found, error, hfound, hviable, himpossible, hblames, hresult⟩ :=
    parse_error_of_not_sentence (TokenScript.deliversAll_ofLexemes ⟨0, 5⟩ hinner)
      (TokenScript.neverFails_ofLexemes _ _) hsentence
  have hi : i = 4 := by
    rcases Nat.lt_trichotomy i 4 with hlt | heq | hgt
    · have hv := hstart.take (i + 1)
      rw [List.take_take, Nat.min_eq_left hlt] at hv
      exact absurd hv (himpossible (Nat.lt_succ_of_lt hlt))
    · exact heq
    · exact absurd (hviable 5 hgt) hstop
  subst hi
  cases hfound
  rw [hresult]
  cases hblames with
  | noOperand => rfl
  | missingOperand _ he => cases he
  | unclosed hd => cases hd
  | trailing hd => cases hd

/-- A failure of the source right behind the first lexeme that no sentence continues with is
reported in its place, unless everything before the lexeme is closed. -/
theorem parse_blames_first_impossible_iff (delivered : Delivers source (before ++ [found]) rest)
    (viable : Viable (tokens before)) (impossible : ¬ Viable (tokens (before ++ [found])))
    (unfinished : found.token.isEof = true → ¬ Sentence (tokens before)) :
    ∃ error, Blames before found error ∧
      ((parse ⟨none⟩ source).result = .error error ↔
        Closed before ∨ ∃ l rest', TokenSource.next rest = (.ok l, rest')) ∧
      ∀ failure rest', ¬ Closed before → TokenSource.next rest = (.error failure, rest') →
        (parse ⟨none⟩ source).result = .error (.token failure) := by
  obtain ⟨error, hb, ⟨hcl, hr⟩ | ⟨hcl, hr⟩⟩ :=
    parse_at_impossible delivered viable impossible unfinished
  · exact ⟨error, hb, ⟨fun _ => Or.inl hcl, fun _ => hr⟩, fun _ _ hn => absurd hcl hn⟩
  · refine ⟨error, hb, ⟨fun h => ?_, ?_⟩, ?_⟩
    · cases hn : TokenSource.next rest with
      | mk answer rest' =>
        cases answer with
        | ok l => exact Or.inr ⟨l, rest', rfl⟩
        | error failure =>
          rw [hr, hn] at h
          exact absurd (Except.error.inj h).symm (hb.not_token failure)
    · rintro (hc | ⟨l, rest', hn⟩)
      · exact absurd hc hcl
      · rw [hr, hn]
    · intro failure rest' _ hn
      rw [hr, hn]

def lonePoint (place : Position) : TokenError :=
  .malformedNumber "." "invalid float literal" place place

/-- The tokens of `x + @.`, which has a lone point at its end. -/
def strayThenPoint : TokenScript :=
  ⟨(placed [.identifier "x", .plus, .unknown '@']).map .ok ++ [.error (lonePoint ⟨0, 3⟩)], ⟨0, 4⟩⟩

/-- The sign in front of the stray character waits for an operand, so the point is reported. -/
theorem parse_strayThenPoint :
    (parse ⟨none⟩ strayThenPoint).result = .error (.token (lonePoint ⟨0, 3⟩)) := by
  have hd : Delivers strayThenPoint
      (placed [.identifier "x", .plus] ++ [.single (.unknown '@') ⟨0, 2⟩]) _ :=
    TokenScript.delivers_prepared _ [.error (lonePoint ⟨0, 3⟩)] ⟨0, 4⟩
  have hv : Viable (tokens (placed [.identifier "x", .plus])) := viable_iff_consume.mpr ⟨_, rfl⟩
  obtain ⟨error, -, -, h⟩ :=
    parse_blames_first_impossible_iff hd hv ((stuck_iff_not_viable rfl).mp nofun) nofun
  exact h _ _ (fun hc => by cases hc.1) rfl

/-- A stray character that starts the input is not always reported: a malformed number behind it
is reported instead. -/
theorem malformed_number_hides_stray :
    (match parseText "@." with | .ok _ => "" | .error error => error.message) =
        "unable to parse number '.' at line 0 char 1: invalid float literal" ∧
      ¬ ∀ (source rest : TokenScript) (before : List Lexeme) (found : Lexeme),
        Delivers source (before ++ [found]) rest → Viable (tokens before) →
        ¬ Viable (tokens (before ++ [found])) →
        (found.token.isEof = true → ¬ Sentence (tokens before)) →
        ∃ error, Blames before found error ∧ (parse ⟨none⟩ source).result = .error error := by
  refine ⟨by decide +kernel, fun h => ?_⟩
  let stray := Lexeme.single (.unknown '@') .start
  have hd : Delivers (⟨[.ok stray, .error (lonePoint ⟨0, 1⟩)], ⟨0, 2⟩⟩ : TokenScript)
      ([] ++ [stray]) _ := TokenScript.delivers_prepared [stray] _ _
  have hv : Viable (tokens []) := viable_iff_consume.mpr ⟨_, rfl⟩
  obtain ⟨error, hb, hr⟩ := h _ _ [] stray hd hv ((stuck_iff_not_viable rfl).mp nofun) nofun
  have hs : step ⟨none⟩ .initial stray = .reject (unexpected operandStart stray) := rfl
  have hp := parse_reject hd rfl hs
  exact hb.not_token _ (Except.error.inj (hr.symm.trans hp))

end FormulaLang
