import FormulaLang.Proofs.Parser.Soundness

/-!
# What is reported at a lexeme that cannot be consumed

The report is fixed by the lexemes before: the last of them tells whether an operand is due, and
matching their parentheses tells whether one is open. The machine keeps neither; its stack and
phase agree with both at every state.
-/
namespace FormulaLang

def Token.beforeOperand : Token → Bool
  | .plus | .minus | .star | .slash | .openParen | .comma => true
  | _ => false

/-- An operand must start behind the tokens, or at the start of the input if there are none. -/
def operandDue (ts : List Token) : Bool := ts.getLast?.all Token.beforeOperand

def matchParen (opened : List Position) (l : Lexeme) : List Position :=
  match l.token with
  | .openParen => l.first :: opened
  | .closeParen => opened.tail
  | _ => opened

/-- Where the parentheses stand that are opened and not closed again, the innermost first. -/
def unmatched (ls : List Lexeme) : List Position := ls.foldl matchParen []

/-- The syntax error for `found` behind lexemes that can start an expression. -/
inductive Blames (before : List Lexeme) (found : Lexeme) : ParseError → Prop where
  | missingOperand : operandDue (tokens before) = true → found.token.isEof = true →
      Blames before found (.unexpectedEof Parser.operandStart found.first)
  | noOperand : operandDue (tokens before) = true → found.token.isEof = false →
      Blames before found (.unexpectedToken Parser.operandStart found.token found.first)
  | unclosed {opened outer} : operandDue (tokens before) = false →
      unmatched before = opened :: outer →
      Blames before found (.unclosedParen opened found.token found.first)
  | trailing : operandDue (tokens before) = false → unmatched before = [] →
      found.token.isEof = false → Blames before found (.trailingInput found.token found.first)

/-- The lexemes end with a complete operand outside all parentheses. -/
def Closed (before : List Lexeme) : Prop :=
  operandDue (tokens before) = false ∧ unmatched before = []

namespace Parser

variable {options : ParseOptions} {state t : State} {before ls : List Lexeme} {l found : Lexeme}
  {error : ParseError}

theorem shift_beforeOperand (h : Shift state l t) :
    t.awaiting?.isSome = l.token.beforeOperand := by
  cases h with
  | operation _ ho _ =>
    unfold Token.operation? at ho
    split at ho <;> simp_all [Token.beforeOperand, State.awaiting?]
  | _ => simp_all [Token.beforeOperand, State.awaiting?]

theorem shift_openings (h : Shift state l t) : t.openings = matchParen state.openings l := by
  cases h with
  | number ha hl => simp [matchParen, hl, openings_of_awaiting ha]
  | name ha hl => simp [matchParen, hl, openings_of_awaiting ha]
  | negation ha hl => simp [matchParen, hl, openings_of_awaiting ha]
  | group ha hl => simp [matchParen, hl, openings_of_awaiting ha]
  | callee hl => simp [matchParen, hl]
  | emptyCall hl => simp [matchParen, hl]
  | operation hv ho hr =>
    have hm : matchParen state.openings l = state.openings := by
      unfold Token.operation? at ho
      split at ho <;> simp_all [matchParen]
    rw [hm, openings_of_value hv, ← openings_reduce, hr]
    simp
  | closeGroup hv hl hr =>
    rw [openings_of_value hv, ← openings_reduce 0, hr]
    simp [matchParen, hl]
  | closeCall hv hl hr =>
    rw [openings_of_value hv, ← openings_reduce 0, hr]
    simp [matchParen, hl]
  | argument hv hl hr =>
    rw [openings_of_value hv, ← openings_reduce 0, hr]
    simp [matchParen, hl]

theorem consume_openings (h : consume options state ls = some t) :
    t.openings = ls.foldl matchParen state.openings := by
  induction ls generalizing state with
  | nil => cases h; rfl
  | cons l ls ih =>
    obtain ⟨u, hs, hu⟩ := consume_cons_some h
    rw [ih hu, shift_openings (shift_of_step hs), List.foldl_cons]

theorem consume_unmatched (h : consume options .initial ls = some t) :
    t.openings = unmatched ls :=
  consume_openings h

theorem consume_operandDue (h : consume options .initial ls = some t) :
    t.awaiting?.isSome = operandDue (tokens ls) := by
  rcases List.eq_nil_or_concat ls with rfl | ⟨init, l, rfl⟩
  · cases h; rfl
  · rw [List.concat_eq_append] at h ⊢
    obtain ⟨u, hu, hs⟩ := consume_snoc_some h
    rw [shift_beforeOperand (shift_of_step hs)]
    simp [operandDue]

theorem awaiting_none_of_value {value : Expr} (hv : state.value? = some value) :
    state.awaiting? = none := by
  rcases value_cases hv with ⟨stack, n, rfl, rfl⟩ | ⟨stack, rfl⟩
  · rfl
  · rfl

/-- Where an unlimited step neither consumes nor accepts, it blames the lexeme. It looks past
the lexeme first unless everything before is closed. -/
theorem stuck_blames (consumed : consume ⟨none⟩ .initial before = some t)
    (stuck : ∀ u, step ⟨none⟩ t found ≠ .shift u) :
    (∃ e, found.token.isEof = true ∧ Derives .expression (tokens before) [e] ∧
      step ⟨none⟩ t found = .accept e) ∨
    ∃ error, Blames before found error ∧
      (Closed before ∧ step ⟨none⟩ t found = .refuse error ∨
        ¬ Closed before ∧ step ⟨none⟩ t found = .reject error) := by
  have hdue := consume_operandDue consumed
  have hopen := consume_unmatched consumed
  rcases awaiting_or_value t with ⟨frames, ha⟩ | ⟨value, hv⟩
  · rw [ha, Option.isSome_some] at hdue
    have hnot : ¬ Closed before := fun ⟨hd, _⟩ => by simp [hd] at hdue
    refine Or.inr ⟨_, ?_, Or.inr ⟨hnot, awaiting_stuck ha stuck⟩⟩
    unfold unexpected
    split
    next he => exact .missingOperand hdue.symm he
    next he => exact .noOperand hdue.symm (Bool.eq_false_iff.mpr he)
  · rw [awaiting_none_of_value hv, Option.isSome_none] at hdue
    cases ho : t.openings with
    | cons opened outer =>
      have hnot : ¬ Closed before := fun ⟨_, hu⟩ => by simp [← hopen, ho] at hu
      refine Or.inr ⟨_, .unclosed hdue.symm (hopen ▸ ho), Or.inr ⟨hnot, ?_⟩⟩
      exact value_stuck_open hv ho stuck
    | nil =>
      obtain ⟨hr, hs⟩ := value_stuck_closed hv ho stuck
      split at hs
      next he =>
        have hd := (Reads.initial.consume consumed).derives hv hr
        exact Or.inl ⟨_, he, by simpa using hd, hs⟩
      next he =>
        have hc : Closed before := ⟨hdue.symm, hopen ▸ ho⟩
        exact Or.inr ⟨_, .trailing hc.1 hc.2 (Bool.eq_false_iff.mpr he), Or.inl ⟨hc, hs⟩⟩

end Parser

end FormulaLang
