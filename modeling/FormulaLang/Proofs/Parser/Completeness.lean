import FormulaLang.Proofs.Parser.Transitions
import FormulaLang.Proofs.Sentences

/-!
# Consuming what the grammar derives

The machine consumes every phrase where one is due. It leaves negations and operations of the
phrase on its stack, so what it has read is compared with the tree of the derivation through
the reductions that whatever follows the phrase will make.
-/
namespace FormulaLang.Parser

/-- The operand read last stands for `value` inside `frames`, as soon as an operation that binds
no tighter than `q` or the end of the expression follows. -/
def Settled (q : Nat) (frames : List Frame) (value : Expr) (state : State) : Prop :=
  ∃ v, state.value? = some v ∧ ∀ p, p ≤ q → reduce p state.stack v = reduce p frames value

/-- A phrase of this kind can be due inside the frames: they hold nothing that the operations
between its parts would finish, and arguments are due only inside a call. -/
def Fits : Phrase → List Frame → Prop
  | .factor, _ => True
  | .term, frames => ∀ x, reduce 2 frames x = (frames, x)
  | .expression, frames => ∀ p x, reduce p frames x = (frames, x)
  | .arguments, frames => ∃ name place args outer, frames = .call name place args :: outer

/-- What a phrase of this kind that stood inside the frames leaves behind. -/
def Holds : Phrase → List Frame → List Expr → State → Prop
  | .factor, frames, es, t => ∃ e, es = [e] ∧ Settled 2 frames e t
  | .term, frames, es, t => ∃ e, es = [e] ∧ Settled 2 frames e t
  | .expression, frames, es, t => ∃ e, es = [e] ∧ Settled 1 frames e t
  | .arguments, frames, es, t => ∃ name place args outer args' last,
      frames = .call name place args :: outer ∧
        Settled 1 (.call name place args' :: outer) last t ∧
        (last :: args').reverse = args.reverse ++ es

/-- The machine consumes the tokens where the phrase is due, and reads its meaning. -/
def Consumable (p : Phrase) (ts : List Token) (es : List Expr) : Prop :=
  ∀ ls state frames, tokens ls = ts → state.awaiting? = some frames → Fits p frames →
    ∃ t, consume ⟨none⟩ state ls = some t ∧ Holds p frames es t

variable {p : Phrase} {ts us : List Token} {es : List Expr} {ls ms : List Lexeme} {l : Lexeme}
  {state t u : State} {frames outer : List Frame} {value lhs e : Expr} {token : Token}
  {op : BinaryOp} {q : Nat}

theorem Fits.term (h : Fits .expression frames) : Fits .term frames := h 2

theorem fits_sum (h : Joins .expression token op) :
    Fits .term (.operation op lhs :: frames) := by
  intro x
  simp [reduce, h.sum]

theorem Settled.mono {r : Nat} (h : Settled r frames value state) (hq : q ≤ r) :
    Settled q frames value state := by
  obtain ⟨v, hv, hr⟩ := h
  exact ⟨v, hv, fun p hp => hr p (Nat.le_trans hp hq)⟩

theorem Settled.operation (hq : q ≤ op.precedence)
    (h : Settled q (.operation op lhs :: frames) value state) :
    Settled q frames (.binary op lhs value) state := by
  obtain ⟨v, hv, hr⟩ := h
  refine ⟨v, hv, fun p hp => (hr p hp).trans ?_⟩
  simp [reduce, Nat.le_trans hp hq]

theorem Settled.negation (h : Settled q (.negation :: frames) value state) :
    Settled q frames (.neg value) state := by
  obtain ⟨v, hv, hr⟩ := h
  exact ⟨v, hv, fun p hp => (hr p hp).trans (by rw [reduce])⟩

/-- What follows a phrase with operations between its parts finds it reduced. -/
theorem Holds.reduced (h : Holds p frames [e] t) (hf : Fits p frames) (hb : p.binding? = some q) :
    ∃ v, t.value? = some v ∧ reduce q t.stack v = (frames, e) := by
  cases p with
  | factor => cases hb
  | arguments => cases hb
  | term =>
    obtain ⟨e', he, v, hv, hr⟩ := h
    cases he
    cases hb
    exact ⟨v, hv, (hr 2 (Nat.le_refl 2)).trans (hf e)⟩
  | expression =>
    obtain ⟨e', he, v, hv, hr⟩ := h
    cases he
    cases hb
    exact ⟨v, hv, (hr 1 (Nat.le_refl 1)).trans (hf 1 e)⟩

theorem Holds.finished (h : Holds .expression frames [e] t) (hf : Fits .expression frames) :
    ∃ v, t.value? = some v ∧ reduce 0 t.stack v = (frames, e) := by
  obtain ⟨e', he, v, hv, hr⟩ := h
  cases he
  exact ⟨v, hv, (hr 0 (Nat.zero_le 1)).trans (hf 0 e)⟩

/-! ## Entering the parts of a phrase -/

theorem tokens_split (h : tokens ls = ts ++ token :: us) :
    ∃ xs x ys, ls = xs ++ x :: ys ∧ tokens xs = ts ∧ x.token = token ∧ tokens ys = us := by
  obtain ⟨xs, zs, rfl, hx, hz⟩ := List.map_eq_append_iff.mp h
  obtain ⟨x, ys, rfl, ht, hy⟩ := List.map_eq_cons_iff.mp hz
  exact ⟨xs, x, ys, rfl, hx, ht, hy⟩

theorem consume_then (h : consume ⟨none⟩ state ls = some t) (hs : Shift t l u) :
    consume ⟨none⟩ state (ls ++ l :: ms) = consume ⟨none⟩ u ms := by
  rw [consume_append, h]
  exact consume_shift (step_of_shift hs)

theorem enter_negation (ha : state.awaiting? = some frames) (ht : tokens ls = .minus :: ts) :
    ∃ xs, tokens xs = ts ∧
      consume ⟨none⟩ state ls = consume ⟨none⟩ ⟨.negation :: frames, .operand⟩ xs := by
  obtain ⟨sign, xs, rfl, hm, hx⟩ := List.map_eq_cons_iff.mp ht
  exact ⟨xs, hx, consume_shift (step_of_shift (.negation ha hm))⟩

theorem enter_group (ha : state.awaiting? = some frames) (ht : tokens ls = .openParen :: ts) :
    ∃ xs place, tokens xs = ts ∧
      consume ⟨none⟩ state ls = consume ⟨none⟩ ⟨.group place :: frames, .operand⟩ xs := by
  obtain ⟨left, xs, rfl, ho, hx⟩ := List.map_eq_cons_iff.mp ht
  exact ⟨xs, left.first, hx, consume_shift (step_of_shift (.group ha ho))⟩

theorem enter_call {n : String} (ha : state.awaiting? = some frames)
    (ht : tokens ls = .identifier n :: .openParen :: ts) :
    ∃ xs place, tokens xs = ts ∧
      consume ⟨none⟩ state ls = consume ⟨none⟩ ⟨frames, .opened n place⟩ xs := by
  obtain ⟨name, zs, rfl, hn, hz⟩ := List.map_eq_cons_iff.mp ht
  obtain ⟨left, xs, rfl, ho, hx⟩ := List.map_eq_cons_iff.mp hz
  refine ⟨xs, left.first, hx, ?_⟩
  rw [consume_shift (step_of_shift (.name ha hn)), consume_shift (step_of_shift (.callee ho))]

theorem enter_operand (h : Consumable p ts [lhs]) (hj : Joins p token op)
    (ha : state.awaiting? = some frames) (hf : Fits p frames)
    (ht : tokens ls = ts ++ token :: us) :
    ∃ ys, tokens ys = us ∧
      consume ⟨none⟩ state ls = consume ⟨none⟩ ⟨.operation op lhs :: frames, .operand⟩ ys := by
  obtain ⟨xs, x, ys, rfl, hx, hop, hy⟩ := tokens_split ht
  obtain ⟨t, hc, hh⟩ := h xs state frames hx ha hf
  obtain ⟨v, hv, hr⟩ := hh.reduced hf hj.binding?
  exact ⟨ys, hy, consume_then hc (.operation hv (hop ▸ hj.operation?) hr)⟩

theorem enter_argument {n : String} {place : Position} {args : List Expr}
    (h : Consumable .expression ts [e]) (ha : state.awaiting? = some (.call n place args :: outer))
    (ht : tokens ls = ts ++ .comma :: us) :
    ∃ ys, tokens ys = us ∧ consume ⟨none⟩ state ls =
      consume ⟨none⟩ ⟨.call n place (e :: args) :: outer, .operand⟩ ys := by
  obtain ⟨xs, x, ys, rfl, hx, hcomma, hy⟩ := tokens_split ht
  obtain ⟨t, hc, hh⟩ := h xs state _ hx ha fun _ _ => rfl
  obtain ⟨v, hv, hr⟩ := hh.finished fun _ _ => rfl
  exact ⟨ys, hy, consume_then hc (.argument hv hcomma hr)⟩

theorem consumable_of_derives (h : Derives p ts es) : Consumable p ts es := by
  -- `Consumable` leaves the frames open, since each part of a phrase has frames of its own.
  induction h with
  | number x =>
    intro ls state frames ht ha _
    obtain ⟨l, rfl, hl⟩ := List.map_eq_singleton_iff.mp ht
    exact ⟨_, consume_shift (step_of_shift (.number ha hl)), _, rfl, _, rfl, fun _ _ => rfl⟩
  | name n =>
    intro ls state frames ht ha _
    obtain ⟨l, rfl, hl⟩ := List.map_eq_singleton_iff.mp ht
    exact ⟨_, consume_shift (step_of_shift (.name ha hl)), _, rfl, _, rfl, fun _ _ => rfl⟩
  | emptyCall n =>
    intro ls state frames ht ha _
    obtain ⟨xs, place, hx, hc⟩ := enter_call ha ht
    obtain ⟨right, rfl, hr⟩ := List.map_eq_singleton_iff.mp hx
    refine ⟨⟨frames, .complete (.call n [])⟩, ?_, _, rfl, _, rfl, fun _ _ => rfl⟩
    rw [hc, consume_shift (step_of_shift (.emptyCall hr)), consume]
  | @call n ts args _ ih =>
    intro ls state frames ht ha _
    obtain ⟨zs, place, hz, hc⟩ := enter_call ha ht
    obtain ⟨xs, right, rest, rfl, hx, hr, hn⟩ := tokens_split hz
    cases List.map_eq_nil_iff.mp hn
    obtain ⟨t, ht, _, _, _, _, args', last, hf, ⟨v, hv, hs⟩, hargs⟩ :=
      ih xs ⟨frames, .opened n place⟩ _ hx rfl ⟨_, _, _, _, rfl⟩
    cases hf
    refine ⟨⟨frames, .complete (.call n args)⟩, ?_, _, rfl, _, rfl, fun _ _ => rfl⟩
    rw [hc, consume_then ht (.closeCall hv hr (hs 0 (Nat.zero_le 1))), consume]
    simpa using hargs
  | negation _ ih =>
    intro ls state frames ht ha _
    obtain ⟨xs, hx, hc⟩ := enter_negation ha ht
    obtain ⟨t, ht, e, he, hs⟩ := ih xs ⟨.negation :: frames, .operand⟩ _ hx rfl trivial
    cases he
    exact ⟨t, hc.trans ht, _, rfl, hs.negation⟩
  | @group ts e _ ih =>
    intro ls state frames ht ha _
    obtain ⟨zs, place, hz, hc⟩ := enter_group ha ht
    obtain ⟨xs, right, rest, rfl, hx, hr, hn⟩ := tokens_split hz
    cases List.map_eq_nil_iff.mp hn
    obtain ⟨t, ht, hh⟩ := ih xs ⟨.group place :: frames, .operand⟩ _ hx rfl fun _ _ => rfl
    obtain ⟨v, hv, hs⟩ := hh.finished fun _ _ => rfl
    refine ⟨⟨frames, .complete e⟩, ?_, _, rfl, _, rfl, fun _ _ => rfl⟩
    rw [hc, consume_then ht (.closeGroup hv hr hs), consume]
  | factor _ ih =>
    intro ls state frames ht ha _
    exact ih ls state frames ht ha trivial
  | @product ts us lhs r token op _ hj _ ihl ihr =>
    intro ls state frames ht ha hf
    obtain ⟨ys, hy, hc⟩ := enter_operand ihl hj ha hf ht
    obtain ⟨u, hu, r, hr, hs⟩ := ihr ys ⟨.operation op lhs :: frames, .operand⟩ _ hy rfl trivial
    cases hr
    exact ⟨u, hc.trans hu, _, rfl, hs.operation (Nat.le_of_eq hj.product.symm)⟩
  | term _ ih =>
    intro ls state frames ht ha hf
    obtain ⟨t, hc, e, he, hs⟩ := ih ls state frames ht ha hf.term
    exact ⟨t, hc, e, he, hs.mono (Nat.le_succ 1)⟩
  | @sum ts us lhs r token op _ hj _ ihl ihr =>
    intro ls state frames ht ha hf
    obtain ⟨ys, hy, hc⟩ := enter_operand ihl hj ha hf ht
    obtain ⟨u, hu, r, hr, hs⟩ :=
      ihr ys ⟨.operation op lhs :: frames, .operand⟩ _ hy rfl (fits_sum hj)
    cases hr
    have hs := (hs.mono (Nat.le_succ 1)).operation (Nat.le_of_eq hj.sum.symm)
    exact ⟨u, hc.trans hu, _, rfl, hs⟩
  | lastArgument _ ih =>
    intro ls state frames ht ha hf
    obtain ⟨n, place, args, outer, rfl⟩ := hf
    obtain ⟨t, hc, e, he, hs⟩ := ih ls state _ ht ha fun _ _ => rfl
    cases he
    exact ⟨t, hc, n, place, args, outer, args, _, rfl, hs, List.reverse_cons⟩
  | @argument ts us e es _ _ ihe ihs =>
    intro ls state frames ht ha hf
    obtain ⟨n, place, args, outer, rfl⟩ := hf
    obtain ⟨ys, hy, hc⟩ := enter_argument ihe ha ht
    obtain ⟨u, hu, _, _, _, _, args', last, he, hs, hargs⟩ :=
      ihs ys ⟨.call n place (e :: args) :: outer, .operand⟩ _ hy rfl ⟨_, _, _, _, rfl⟩
    cases he
    exact ⟨u, hc.trans hu, n, place, args, outer, args', last, rfl, hs, by simpa using hargs⟩

end FormulaLang.Parser
