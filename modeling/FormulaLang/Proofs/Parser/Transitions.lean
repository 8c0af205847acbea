import FormulaLang.Expr.Grammar
import FormulaLang.Proofs.Parser.Machine

/-!
# What one step can do

A state waits for an operand to start, or has just completed one. The two views of a state
below are all that later arguments need of it: `Shift` lists every way to consume a lexeme in
terms of them, and where no lexeme can be consumed they decide what is reported.
-/
namespace FormulaLang

/-! ## The operations of the grammar and of the machine -/

/-- The precedence of the operations between the parts of a phrase, if it has any. -/
def Phrase.binding? : Phrase → Option Nat
  | .term => some 2
  | .expression => some 1
  | _ => none

section Joins

variable {p : Phrase} {token : Token} {op : BinaryOp}

theorem Joins.operation? (h : Joins p token op) : token.operation? = some op := by
  cases h <;> rfl

theorem Joins.binding? (h : Joins p token op) : p.binding? = some op.precedence := by
  cases h <;> rfl

theorem Joins.sum (h : Joins .expression token op) : op.precedence = 1 :=
  (Option.some.inj h.binding?).symm

theorem Joins.product (h : Joins .term token op) : op.precedence = 2 :=
  (Option.some.inj h.binding?).symm

theorem joins_of_operation? (h : token.operation? = some op) :
    Joins .expression token op ∨ Joins .term token op := by
  unfold Token.operation? at h
  split at h <;> cases h
  · exact .inl .plus
  · exact .inl .minus
  · exact .inr .star
  · exact .inr .slash

end Joins

namespace Parser

/-! ## Two views of a state -/

/-- The frames around the operand that must start next. -/
def State.awaiting? : State → Option (List Frame)
  | ⟨stack, .operand⟩ => some stack
  | ⟨stack, .opened name place⟩ => some (.call name place [] :: stack)
  | _ => none

/-- The operand that has just been completed. A name may still turn out to be called. -/
def State.value? : State → Option Expr
  | ⟨_, .named name⟩ => some (.var name)
  | ⟨_, .complete value⟩ => some value
  | _ => none

/-- Where the parenthesis of a group or a call stands. -/
def Frame.opening? : Frame → Option Position
  | .group opened => some opened
  | .call _ opened _ => some opened
  | _ => none

/-- The parentheses that the frames of a stack leave open, the innermost first. -/
def openings (stack : List Frame) : List Position := stack.filterMap Frame.opening?

@[simp] theorem openings_nil : openings [] = [] := rfl
@[simp] theorem openings_negation (stack) : openings (.negation :: stack) = openings stack := rfl
@[simp] theorem openings_operation (op lhs stack) :
    openings (.operation op lhs :: stack) = openings stack := rfl
@[simp] theorem openings_group (p stack) : openings (.group p :: stack) = p :: openings stack :=
  rfl
@[simp] theorem openings_call (n p args stack) :
    openings (.call n p args :: stack) = p :: openings stack := rfl

/-- The parentheses that the consumed lexemes leave open, the innermost first. -/
def State.openings : State → List Position
  | ⟨stack, .opened _ place⟩ => place :: Parser.openings stack
  | ⟨stack, _⟩ => Parser.openings stack

@[simp] theorem openings_state_operand (stack) :
    (⟨stack, .operand⟩ : State).openings = openings stack := rfl
@[simp] theorem openings_state_named (stack n) :
    (⟨stack, .named n⟩ : State).openings = openings stack := rfl
@[simp] theorem openings_state_opened (stack n p) :
    (⟨stack, .opened n p⟩ : State).openings = p :: openings stack := rfl
@[simp] theorem openings_state_complete (stack e) :
    (⟨stack, .complete e⟩ : State).openings = openings stack := rfl

/-- Every way to consume a lexeme. -/
inductive Shift : State → Lexeme → State → Prop where
  | number {state l frames x} : state.awaiting? = some frames → l.token = .number x →
      Shift state l ⟨frames, .complete (.num x)⟩
  | name {state l frames n} : state.awaiting? = some frames → l.token = .identifier n →
      Shift state l ⟨frames, .named n⟩
  | negation {state l frames} : state.awaiting? = some frames → l.token = .minus →
      Shift state l ⟨.negation :: frames, .operand⟩
  | group {state l frames} : state.awaiting? = some frames → l.token = .openParen →
      Shift state l ⟨.group l.first :: frames, .operand⟩
  | callee {stack n l} : l.token = .openParen →
      Shift ⟨stack, .named n⟩ l ⟨stack, .opened n l.first⟩
  | emptyCall {stack n p l} : l.token = .closeParen →
      Shift ⟨stack, .opened n p⟩ l ⟨stack, .complete (.call n [])⟩
  | operation {state l value op outer lhs} : state.value? = some value →
      l.token.operation? = some op → reduce op.precedence state.stack value = (outer, lhs) →
      Shift state l ⟨.operation op lhs :: outer, .operand⟩
  | closeGroup {state l value p outer e} : state.value? = some value → l.token = .closeParen →
      reduce 0 state.stack value = (.group p :: outer, e) →
      Shift state l ⟨outer, .complete e⟩
  | closeCall {state l value n p args outer e} : state.value? = some value →
      l.token = .closeParen → reduce 0 state.stack value = (.call n p args :: outer, e) →
      Shift state l ⟨outer, .complete (.call n (e :: args).reverse)⟩
  | argument {state l value n p args outer e} : state.value? = some value →
      l.token = .comma → reduce 0 state.stack value = (.call n p args :: outer, e) →
      Shift state l ⟨.call n p (e :: args) :: outer, .operand⟩

variable {options : ParseOptions} {state t : State} {frames : List Frame} {l : Lexeme}
  {value e : Expr}

theorem awaiting_cases (ha : state.awaiting? = some frames) :
    state = ⟨frames, .operand⟩ ∨
      ∃ stack n p, state = ⟨stack, .opened n p⟩ ∧ frames = .call n p [] :: stack := by
  obtain ⟨stack, phase⟩ := state
  cases phase with
  | operand => cases ha; exact Or.inl rfl
  | opened n p => cases ha; exact Or.inr ⟨stack, n, p, rfl, rfl⟩
  | named n => cases ha
  | complete e => cases ha

theorem value_cases (hv : state.value? = some value) :
    (∃ stack n, state = ⟨stack, .named n⟩ ∧ value = .var n) ∨
      ∃ stack, state = ⟨stack, .complete value⟩ := by
  obtain ⟨stack, phase⟩ := state
  cases phase with
  | operand => cases hv
  | opened n p => cases hv
  | named n => cases hv; exact Or.inl ⟨stack, n, rfl, rfl⟩
  | complete e => cases hv; exact Or.inr ⟨stack, rfl⟩

theorem awaiting_or_value (state : State) :
    (∃ frames, state.awaiting? = some frames) ∨ ∃ value, state.value? = some value := by
  obtain ⟨stack, phase⟩ := state
  cases phase with
  | operand => exact Or.inl ⟨_, rfl⟩
  | opened n p => exact Or.inl ⟨_, rfl⟩
  | named n => exact Or.inr ⟨_, rfl⟩
  | complete e => exact Or.inr ⟨_, rfl⟩

theorem openings_of_value (hv : state.value? = some value) :
    state.openings = openings state.stack := by
  rcases value_cases hv with ⟨stack, n, rfl, rfl⟩ | ⟨stack, rfl⟩
  · rfl
  · rfl

theorem openings_of_awaiting (ha : state.awaiting? = some frames) :
    state.openings = openings frames := by
  rcases awaiting_cases ha with rfl | ⟨stack, n, p, rfl, rfl⟩
  · rfl
  · rfl

/-! ## Consuming a lexeme -/

theorem startOperand_shift (ha : state.awaiting? = some frames)
    (h : startOperand options frames l = .shift t) : Shift state l t := by
  unfold startOperand at h
  split at h
  · cases h
  · split at h
    next hl => cases h; exact .number ha hl
    next hl => cases h; exact .name ha hl
    next hl => cases h; exact .negation ha hl
    next hl => cases h; exact .group ha hl
    next => cases h

theorem closeOperand_shift (hv : state.value? = some value)
    (hr : reduce 0 state.stack value = (frames, e)) (h : closeOperand frames e l = .shift t) :
    Shift state l t := by
  unfold closeOperand at h
  split at h
  next =>
    split at h
    next hl => cases h; exact .closeGroup hv hl hr
    next => cases h
  next =>
    split at h
    next hl => cases h; exact .closeCall hv hl hr
    next hl => cases h; exact .argument hv hl hr
    next => cases h
  next => split at h <;> cases h

theorem followOperand_shift (hv : state.value? = some value)
    (h : followOperand state.stack value l = .shift t) : Shift state l t := by
  unfold followOperand at h
  split at h
  next hop => cases h; exact .operation hv hop rfl
  next => exact closeOperand_shift hv rfl h

theorem shift_of_step (h : step options state l = .shift t) : Shift state l t := by
  obtain ⟨stack, phase⟩ := state
  cases phase with
  | operand => exact startOperand_shift rfl h
  | named n =>
    simp only [step] at h
    split at h
    next hl => cases h; exact .callee hl
    next => exact followOperand_shift rfl h
  | opened n p =>
    simp only [step] at h
    split at h
    next hl => cases h; exact .emptyCall hl
    next => exact startOperand_shift rfl h
  | complete e => exact followOperand_shift rfl h

/-- A waiting state starts an operand, except with the parenthesis that closes an empty call. -/
theorem step_awaiting (ha : state.awaiting? = some frames) (hl : l.token ≠ .closeParen) :
    step options state l = startOperand options frames l := by
  rcases awaiting_cases ha with rfl | ⟨stack, n, p, rfl, rfl⟩
  · rfl
  · simp only [step]

theorem step_value (hv : state.value? = some value) (hl : l.token ≠ .openParen) :
    step options state l = followOperand state.stack value l := by
  rcases value_cases hv with ⟨stack, n, rfl, rfl⟩ | ⟨stack, rfl⟩
  · simp only [step]
  · rfl

theorem step_of_shift (h : Shift state l t) : step ⟨none⟩ state l = .shift t := by
  cases h with
  | number ha hl => simp [step_awaiting ha, hl, startOperand, exceeds]
  | name ha hl => simp [step_awaiting ha, hl, startOperand, exceeds]
  | negation ha hl => simp [step_awaiting ha, hl, startOperand, exceeds]
  | group ha hl => simp [step_awaiting ha, hl, startOperand, exceeds]
  | callee hl => simp [step, hl]
  | emptyCall hl => simp [step, hl]
  | operation hv hop hr =>
    have hl : l.token ≠ .openParen := by rintro h; simp [h, Token.operation?] at hop
    simp [step_value hv hl, followOperand, hop, hr]
  | closeGroup hv hl hr =>
    simp [step_value hv, hl, followOperand, Token.operation?, hr, closeOperand]
  | closeCall hv hl hr =>
    simp [step_value hv, hl, followOperand, Token.operation?, hr, closeOperand]
  | argument hv hl hr =>
    simp [step_value hv, hl, followOperand, Token.operation?, hr, closeOperand]

/-! ## Where no lexeme can be consumed -/

/-- Reducing finishes negations and operations only, so it closes no parenthesis. -/
theorem openings_reduce (p : Nat) (stack : List Frame) (value : Expr) :
    openings (reduce p stack value).1 = openings stack := by
  fun_induction reduce p stack value with
  | case1 _ _ ih => exact ih
  | case2 _ _ _ _ _ ih => exact ih
  | case3 => rfl
  | case4 => rfl

/-- A complete reduction stops at the bottom of the stack or at an open parenthesis. -/
theorem reduce_zero_top (stack : List Frame) (value : Expr) :
    (reduce 0 stack value).1 = [] ∨ (∃ p outer, (reduce 0 stack value).1 = .group p :: outer) ∨
      ∃ n p args outer, (reduce 0 stack value).1 = .call n p args :: outer := by
  induction stack generalizing value with
  | nil => exact Or.inl rfl
  | cons frame stack ih =>
    cases frame with
    | negation => exact ih _
    | operation op lhs => simpa [reduce] using ih (.binary op lhs value)
    | group p => exact Or.inr (Or.inl ⟨p, stack, rfl⟩)
    | call n p args => exact Or.inr (Or.inr ⟨n, p, args, stack, rfl⟩)

theorem awaiting_stuck (ha : state.awaiting? = some frames)
    (h : ∀ t, step ⟨none⟩ state l ≠ .shift t) :
    step ⟨none⟩ state l = .reject (unexpected operandStart l) := by
  have hs : step ⟨none⟩ state l = startOperand ⟨none⟩ frames l := by
    rcases awaiting_cases ha with rfl | ⟨stack, n, p, rfl, rfl⟩
    · rfl
    · apply step_awaiting ha
      intro hl
      exact h _ (step_of_shift (.emptyCall hl))
  rw [hs] at h ⊢
  unfold startOperand at h ⊢
  split at h <;> simp_all [exceeds]
  split at h <;> simp_all

theorem value_stuck (hv : state.value? = some value) (h : ∀ t, step ⟨none⟩ state l ≠ .shift t) :
    step ⟨none⟩ state l =
      closeOperand (reduce 0 state.stack value).1 (reduce 0 state.stack value).2 l := by
  have hs : step ⟨none⟩ state l = followOperand state.stack value l := by
    rcases value_cases hv with ⟨stack, n, rfl, rfl⟩ | ⟨stack, rfl⟩
    · apply step_value hv
      intro hl
      exact h _ (step_of_shift (.callee hl))
    · rfl
  rw [hs]
  unfold followOperand
  split
  next hop => exact absurd (step_of_shift (.operation hv hop rfl)) (h _)
  next => rfl

/-- Inside a parenthesis only the lexemes that go on there or close it can follow. -/
theorem value_stuck_open {opened : Position} {outer : List Position}
    (hv : state.value? = some value) (ho : state.openings = opened :: outer)
    (h : ∀ t, step ⟨none⟩ state l ≠ .shift t) :
    step ⟨none⟩ state l = .reject (.unclosedParen opened l.token l.first) := by
  rw [openings_of_value hv, ← openings_reduce 0 state.stack value] at ho
  rw [value_stuck hv h]
  rcases reduce_zero_top state.stack value with hr | ⟨p, frames, hr⟩ | ⟨n, p, args, frames, hr⟩
  · simp [hr] at ho
  · rw [hr, openings_group] at ho
    obtain ⟨rfl, -⟩ := List.cons.inj ho
    have hc : l.token ≠ .closeParen := fun hl =>
      h _ (step_of_shift (.closeGroup hv hl (Prod.ext hr rfl)))
    rw [hr]
    simp only [closeOperand]
  · rw [hr, openings_call] at ho
    obtain ⟨rfl, -⟩ := List.cons.inj ho
    have hc : l.token ≠ .closeParen := fun hl =>
      h _ (step_of_shift (.closeCall hv hl (Prod.ext hr rfl)))
    have ha : l.token ≠ .comma := fun hl =>
      h _ (step_of_shift (.argument hv hl (Prod.ext hr rfl)))
    rw [hr]
    simp only [closeOperand]

/-- Outside all parentheses a complete operand is the whole input or followed by too much. -/
theorem value_stuck_closed (hv : state.value? = some value) (ho : state.openings = [])
    (h : ∀ t, step ⟨none⟩ state l ≠ .shift t) :
    (reduce 0 state.stack value).1 = [] ∧
      step ⟨none⟩ state l =
        if l.token.isEof then .accept (reduce 0 state.stack value).2
        else .refuse (.trailingInput l.token l.first) := by
  have hs := value_stuck hv h
  rw [openings_of_value hv, ← openings_reduce 0 state.stack value] at ho
  rcases reduce_zero_top state.stack value with hr | ⟨p, frames, hr⟩ | ⟨n, p, args, frames, hr⟩
  · refine ⟨hr, ?_⟩
    rw [hs, hr]
    rfl
  · simp [hr] at ho
  · simp [hr] at ho

end Parser

end FormulaLang
