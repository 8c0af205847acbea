import FormulaLang.Proofs.Parser.Machine

/-!
# A parse at other places

The parser hands the places of its lexemes on and never looks at them. So moving all places of
the lexemes moves the places in what it reports, and changes nothing else.
-/
namespace FormulaLang

def Lexeme.relocate (move : Position → Position) (l : Lexeme) : Lexeme :=
  ⟨l.token, move l.first, move l.last⟩

def TokenError.relocate (move : Position → Position) : TokenError → TokenError
  | .unreadable error => .unreadable error
  | .malformedNumber text detail first last =>
    .malformedNumber text detail (move first) (move last)

def ParseError.relocate (move : Position → Position) : ParseError → ParseError
  | .token error => .token (error.relocate move)
  | .unexpectedToken expected found place => .unexpectedToken expected found (move place)
  | .unexpectedEof expected place => .unexpectedEof expected (move place)
  | .unclosedParen opened found place => .unclosedParen (move opened) found (move place)
  | .trailingInput found place => .trailingInput found (move place)
  | .tooDeep limit place => .tooDeep limit (move place)

/-- An answer of a token source with its places moved. -/
def relocateAnswer (move : Position → Position) : Except TokenError Lexeme →
    Except TokenError Lexeme
  | .ok l => .ok (l.relocate move)
  | .error error => .error (error.relocate move)

@[simp] theorem Lexeme.relocate_token (move : Position → Position) (l : Lexeme) :
    (l.relocate move).token = l.token := rfl

@[simp] theorem Lexeme.relocate_first (move : Position → Position) (l : Lexeme) :
    (l.relocate move).first = move l.first := rfl

namespace Parser

variable (move : Position → Position)

def Frame.relocate : Frame → Frame
  | .negation => .negation
  | .group opened => .group (move opened)
  | .call name opened args => .call name (move opened) args
  | .operation op lhs => .operation op lhs

def Phase.relocate : Phase → Phase
  | .operand => .operand
  | .named name => .named name
  | .opened name place => .opened name (move place)
  | .complete value => .complete value

def State.relocate (state : State) : State :=
  ⟨state.stack.map (Frame.relocate move), state.phase.relocate move⟩

def Action.relocate : Action → Action
  | .shift state => .shift (state.relocate move)
  | .accept value => .accept value
  | .reject error => .reject (error.relocate move)
  | .refuse error => .refuse (error.relocate move)

/-! ## One step -/

theorem reduce_relocate (p : Nat) (stack : List Frame) (value : Expr) :
    reduce p (stack.map (Frame.relocate move)) value =
      ((reduce p stack value).1.map (Frame.relocate move), (reduce p stack value).2) := by
  induction stack generalizing value with
  | nil => rfl
  | cons frame stack ih =>
    cases frame with
    | negation => exact ih _
    | group opened => rfl
    | call name opened args => rfl
    | operation op lhs =>
      simp only [List.map_cons, Frame.relocate, reduce]
      split
      · exact ih _
      · rfl

theorem depth_relocate (stack : List Frame) :
    depth (stack.map (Frame.relocate move)) = depth stack := by
  rw [depth, List.countP_map]
  refine List.countP_congr fun frame _ => ?_
  cases frame <;> exact Iff.rfl

theorem unexpected_relocate (expected : String) (l : Lexeme) :
    unexpected expected (l.relocate move) = (unexpected expected l).relocate move := by
  unfold unexpected
  rw [Lexeme.relocate_token]
  split <;> rfl

variable {move} {options : ParseOptions} {state t : State} {l : Lexeme}

theorem startOperand_relocate (stack : List Frame) :
    startOperand options (stack.map (Frame.relocate move)) (l.relocate move) =
      (startOperand options stack l).relocate move := by
  unfold startOperand exceeds
  rw [depth_relocate, Lexeme.relocate_token, unexpected_relocate]
  split
  · rfl
  · split <;> rfl

theorem closeOperand_relocate (stack : List Frame) (value : Expr) :
    closeOperand (stack.map (Frame.relocate move)) value (l.relocate move) =
      (closeOperand stack value l).relocate move := by
  obtain ⟨token, first, last⟩ := l
  cases stack with
  | nil => cases token <;> rfl
  | cons frame stack => cases frame <;> cases token <;> rfl

theorem followOperand_relocate (stack : List Frame) (value : Expr) :
    followOperand (stack.map (Frame.relocate move)) value (l.relocate move) =
      (followOperand stack value l).relocate move := by
  unfold followOperand
  rw [Lexeme.relocate_token]
  split
  · rw [reduce_relocate]
    rfl
  · rw [reduce_relocate]
    exact closeOperand_relocate _ _

theorem step_relocate : step options (state.relocate move) (l.relocate move) =
    (step options state l).relocate move := by
  obtain ⟨stack, phase⟩ := state
  cases phase with
  | operand => exact startOperand_relocate stack
  | complete value => exact followOperand_relocate stack value
  | named name =>
    simp only [step, State.relocate, Phase.relocate, Lexeme.relocate_token]
    split
    · rfl
    · exact followOperand_relocate stack _
  | opened name place =>
    simp only [step, State.relocate, Phase.relocate, Lexeme.relocate_token]
    split
    · rfl
    · exact startOperand_relocate (.call name place [] :: stack)

theorem consume_relocate {ls : List Lexeme} (h : consume options state ls = some t) :
    consume options (state.relocate move) (ls.map (Lexeme.relocate move)) =
      some (t.relocate move) := by
  induction ls generalizing state with
  | nil =>
    cases h
    rfl
  | cons l ls ih =>
    obtain ⟨u, hs, hu⟩ := consume_cons_some h
    have shifts : step options (state.relocate move) (l.relocate move) =
        .shift (u.relocate move) := by
      rw [step_relocate, hs]
      rfl
    rw [List.map_cons, consume_shift shifts, ih hu]

end Parser

/-! ## A whole parse -/

open FormulaLang.Parser

variable {τ σ : Type} [TokenSource τ] [TokenSource σ] {move : Position → Position}
  {related : τ → σ → Prop}

/-- Related sources give the same answers at moved places, and stay related. -/
def Follows (move : Position → Position) (related : τ → σ → Prop) : Prop :=
  ∀ s t, related s t → ∃ answer s' t', TokenSource.next s = (answer, s') ∧
    TokenSource.next t = (relocateAnswer move answer, t') ∧ related s' t'

section

variable {s s' : τ} {t : σ} {l : Lexeme} {ls : List Lexeme} {error : TokenError}

theorem Follows.gives (h : Follows move related) (hr : related s t)
    (hn : TokenSource.next s = (.ok l, s')) :
    ∃ t', TokenSource.next t = (.ok (l.relocate move), t') ∧ related s' t' := by
  obtain ⟨answer, _, t', hs, ht, hr'⟩ := h s t hr
  cases hs.symm.trans hn
  exact ⟨t', ht, hr'⟩

theorem Follows.fails (h : Follows move related) (hr : related s t)
    (hn : TokenSource.next s = (.error error, s')) :
    ∃ t', TokenSource.next t = (.error (error.relocate move), t') := by
  obtain ⟨answer, _, t', hs, ht, -⟩ := h s t hr
  cases hs.symm.trans hn
  exact ⟨t', ht⟩

theorem Follows.delivers (h : Follows move related) (hr : related s t) (hd : Delivers s ls s') :
    ∃ t', Delivers t (ls.map (Lexeme.relocate move)) t' ∧ related s' t' := by
  induction hd generalizing t with
  | nil => exact ⟨t, .nil t, hr⟩
  | cons hn _ ih =>
    obtain ⟨u, hu, hr'⟩ := h.gives hr hn
    obtain ⟨t', hd, hr''⟩ := ih hr'
    exact ⟨t', .cons hu hd, hr''⟩

end

/-- Related sources parse alike: to the same tree, or to the same error at moved places. -/
theorem parse_relocate {source : τ} {source' : σ} (h : Follows move related)
    (hr : related source source') (options : ParseOptions) :
    (parse options source').result =
      (parse options source).result.mapError (ParseError.relocate move) := by
  obtain ⟨ls, rest, t, hd, hc, he⟩ := parse_ends options .initial source
  obtain ⟨rest', hd', hr'⟩ := h.delivers hr hd
  have hc' : consume options (State.initial.relocate move) (ls.map (Lexeme.relocate move)) =
      some (t.relocate move) := consume_relocate hc
  rcases he with ⟨failure, _, hf⟩ | ⟨l, last, hn, stuck⟩
  · obtain ⟨_, hf'⟩ := h.fails hr' hf
    rw [parse_failure hd hc hf, parse_failure hd' hc' hf']
    rfl
  · obtain ⟨last', hn', hr''⟩ := h.gives hr' hn
    have delivered := hd.snoc hn
    have delivered' := hd'.snoc hn'
    have same : step options (t.relocate move) (l.relocate move) =
        (step options t l).relocate move := step_relocate
    cases ha : step options t l with
    | shift u => exact absurd ha (stuck u)
    | accept e =>
      rw [ha] at same
      rw [parse_accept delivered hc ha, parse_accept delivered' hc' same]
      rfl
    | refuse error =>
      rw [ha] at same
      rw [parse_refuse delivered hc ha, parse_refuse delivered' hc' same]
      rfl
    | reject error =>
      rw [ha] at same
      obtain ⟨answer, _, _, hb, hb', -⟩ := h _ _ hr''
      rw [parse_reject delivered hc ha, parse_reject delivered' hc' same, hb, hb']
      cases answer <;> rfl

end FormulaLang
