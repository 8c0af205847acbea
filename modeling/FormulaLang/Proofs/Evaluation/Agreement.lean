import FormulaLang.Proofs.Evaluation.Names

/-!
# Only the names in an expression matter

Two contexts that answer the requests of an expression alike give it the same result. For standard
contexts this means: the variables read and the functions called must agree, each in its own
namespace. What else is bound, and under which other names, makes no difference; nor do the
calls that are already in the log.
-/
namespace FormulaLang

/-! ## Two evaluations side by side -/

variable {σ τ ε α β : Type} {R : σ → τ → Prop}

/-- From related states the computations give the same result and leave related states. -/
def Stateful.Matches (R : σ → τ → Prop) (x : Stateful ε σ α) (y : Stateful ε τ α) : Prop :=
  ∀ s t, R s t → (x.run.run s).1 = (y.run.run t).1 ∧ R (x.run.run s).2 (y.run.run t).2

namespace Stateful.Matches

variable {x : Stateful ε σ α} {y : Stateful ε τ α} {f : α → Stateful ε σ β}
  {g : α → Stateful ε τ β}

theorem pure (v : α) : Matches R (pure v : Stateful ε σ α) (pure v) :=
  fun _ _ hr => ⟨rfl, hr⟩

theorem bind (h : Matches R x y) (k : ∀ v, Matches R (f v) (g v)) :
    Matches R (x >>= f) (y >>= g) := by
  intro s t hr
  obtain ⟨same, hr'⟩ := h s t hr
  rw [run_bind, run_bind]
  rcases hx : x.run.run s with ⟨error | v, s'⟩
  · rcases hy : y.run.run t with ⟨error' | w, t'⟩
    · rw [hx, hy] at same hr'
      cases same
      exact ⟨rfl, hr'⟩
    · rw [hx, hy] at same
      cases same
  · rcases hy : y.run.run t with ⟨error' | w, t'⟩
    · rw [hx, hy] at same
      cases same
    · rw [hx, hy] at same hr'
      cases same
      exact k v s' t' hr'

end Stateful.Matches

def Expr.MayAsk (e : Expr) : Context.Request → Prop
  | .resolve name => (Expr.var name).Occurs e
  | .call callee _ => ∃ args, (Expr.call callee args).Occurs e

theorem Expr.MayAsk.of_part {part e : Expr} {request : Context.Request} (h : part.MayAsk request)
    (up : ∀ {node : Expr}, node.Occurs part → node.Occurs e) : e.MayAsk request := by
  cases request with
  | resolve name => exact up h
  | call callee values =>
    obtain ⟨args, hc⟩ := h
    exact ⟨args, up hc⟩

namespace Context

variable {c : Context (ExceptT ε (StateM σ))} {d : Context (ExceptT ε (StateM τ))}

def AnswerAlike (R : σ → τ → Prop) (c : Context (ExceptT ε (StateM σ)))
    (d : Context (ExceptT ε (StateM τ))) (request : Request) : Prop :=
  ∀ s t, R s t → (c.ask request s).1 = (d.ask request t).1 ∧
    R (c.ask request s).2 (d.ask request t).2

mutual

theorem evaluate_matches (e : Expr) (h : ∀ request, e.MayAsk request → AnswerAlike R c d request) :
    Stateful.Matches R (evaluate c e) (evaluate d e) := by
  cases e with
  | num value => exact .pure value
  | var name => exact h (.resolve name) .whole
  | call callee args =>
    rw [evaluate, evaluate]
    refine .bind (evaluateArgs_matches args fun arg hm request ha => h request ?_) fun values => ?_
    · exact ha.of_part (.arg hm)
    · exact h (.call callee values) ⟨args, .whole⟩
  | neg operand =>
    rw [evaluate, evaluate]
    refine .bind (evaluate_matches operand fun request ha => h request ?_) fun _ => .pure _
    exact ha.of_part .operand
  | binary op lhs rhs =>
    rw [evaluate, evaluate]
    refine .bind (evaluate_matches lhs fun request ha => h request ?_) fun _ => ?_
    · exact ha.of_part .lhs
    · refine .bind (evaluate_matches rhs fun request ha => h request ?_) fun _ => .pure _
      exact ha.of_part .rhs

theorem evaluateArgs_matches (args : List Expr)
    (h : ∀ arg ∈ args, ∀ request, arg.MayAsk request → AnswerAlike R c d request) :
    Stateful.Matches R (evaluateArgs c args) (evaluateArgs d args) := by
  cases args with
  | nil => exact .pure []
  | cons arg args =>
    obtain ⟨ha, hs⟩ := List.forall_mem_cons.mp h
    rw [evaluateArgs, evaluateArgs]
    refine .bind (evaluate_matches arg ha) fun _ => ?_
    exact .bind (evaluateArgs_matches args hs) fun _ => .pure _

end

end Context

/-! ## Requests that no random number answers -/

namespace Builtin

theorem named?_random {name : String} {builtin : Builtin} (h : named? name = some builtin)
    (random : builtin.isRandom = true) : name = "rand" := by
  unfold named? at h
  split at h
  all_goals first
    | rfl
    | cases h <;> cases random

theorem invoke?_of_not_random {builtin : Builtin} (h : builtin.isRandom = false)
    (draw draw' : Float) (args : List Float) :
    builtin.invoke? draw args = builtin.invoke? draw' args := by
  unfold invoke?
  split
  all_goals try rfl
  cases h

end Builtin

namespace Standard

variable {s t : Standard} {name callee : String} {args : List Float}

theorem unset_congr (h : name ≠ "r") (draw draw' : Float) : unset draw name = unset draw' name := by
  simp [unset, h]

theorem resolve_congr (same : s.values.get? name = t.values.get? name)
    (steady : name = "r" → t.values.get? name ≠ none) :
    (s.resolve name).1 = (t.resolve name).1 := by
  rw [resolve_eq, resolve_eq, same]
  cases hv : t.values.get? name with
  | some value => rfl
  | none => exact unset_congr (fun hr => steady hr hv) _ _

theorem callBuiltin_congr (s t : Standard) (args : List Float) (h : callee ≠ "rand") :
    (s.callBuiltin callee args).1 = (t.callBuiltin callee args).1 := by
  unfold callBuiltin
  cases hb : Builtin.named? callee with
  | none => rfl
  | some builtin =>
    have steady : builtin.isRandom = false :=
      Bool.eq_false_iff.mpr fun random => h (Builtin.named?_random hb random)
    dsimp only
    rw [Builtin.invoke?_of_not_random steady (s.draws s.drawn) (t.draws t.drawn)]
    cases builtin.invoke? (t.draws t.drawn) args <;> rfl

end Standard

/-! ## Contexts that agree on the names in an expression -/

/-- The answers of the function do not depend on the calls before. -/
def Registered.Pure (host : Registered) : Prop :=
  ∀ earlier later args, host.function earlier args = host.function later args

def Registered.AnswersLike (host other : Registered) : Prop :=
  ∀ args, host.function host.earlier args = other.function other.earlier args

theorem Registered.AnswersLike.after {host other : Registered} (h : host.AnswersLike other)
    (hp : host.Pure) (op : other.Pure) (more more' : List (List Float)) :
    (host.after more).AnswersLike (other.after more') := by
  intro args
  calc host.function (more ++ host.earlier) args
      = host.function host.earlier args := hp ..
    _ = other.function other.earlier args := h args
    _ = other.function (more' ++ other.earlier) args := op ..

/-- The expression asks this context for no random number, and the host functions that it calls
are pure. -/
structure Standard.Steady (s : Standard) (e : Expr) : Prop where
  vars : (Expr.var "r").Occurs e → s.values.get? "r" ≠ none
  functions : ∀ args, (Expr.call "rand" args).Occurs e → s.functions.get? "rand" ≠ none
  pure : ∀ callee args host, (Expr.call callee args).Occurs e →
    s.functions.get? callee = some host → host.Pure

/-- The contexts give the same answer for each variable in the expression, and for each name that
it calls they have host functions that answer alike, or both have none. -/
structure Standard.AgreeOn (e : Expr) (s t : Standard) : Prop where
  vars : ∀ name, (Expr.var name).Occurs e → (s.resolve name).1 = (t.resolve name).1
  functions : ∀ callee args, (Expr.call callee args).Occurs e →
    Option.Rel Registered.AnswersLike (s.functions.get? callee) (t.functions.get? callee)

namespace Standard

variable {s t : Standard} {e : Expr} {request : Context.Request}

theorem Steady.ask (h : s.Steady e) (request : Context.Request) :
    (context.ask request s).2.Steady e := by
  constructor
  · intro ho
    rw [values_ask]
    exact h.vars ho
  · intro args ho
    rw [functions_ask, ne_eq, Option.map_eq_none_iff]
    exact h.functions args ho
  · intro callee args host ho hh
    rw [functions_ask, Option.map_eq_some_iff] at hh
    obtain ⟨before, hb, rfl⟩ := hh
    exact h.pure callee args before ho hb

theorem Steady.resolve_ask (h : s.Steady e) (request : Context.Request) {name : String}
    (ho : (Expr.var name).Occurs e) :
    ((context.ask request s).2.resolve name).1 = (s.resolve name).1 := by
  apply resolve_congr
  · rw [values_ask]
  · rintro rfl
    exact h.vars ho

theorem AgreeOn.host_or_none (h : AgreeOn e s t) {callee : String} {args : List Expr}
    (ho : (Expr.call callee args).Occurs e) :
    (s.functions.get? callee = none ∧ t.functions.get? callee = none) ∨
      ∃ host other, s.functions.get? callee = some host ∧ t.functions.get? callee = some other ∧
        host.AnswersLike other := by
  have rel := h.functions callee args ho
  generalize s.functions.get? callee = left at rel ⊢
  generalize t.functions.get? callee = right at rel ⊢
  cases rel with
  | none => exact Or.inl ⟨rfl, rfl⟩
  | some alike => exact Or.inr ⟨_, _, rfl, rfl, alike⟩

theorem AgreeOn.ask (h : AgreeOn e s t) (hs : s.Steady e) (ht : t.Steady e)
    (request : Context.Request) :
    AgreeOn e (context.ask request s).2 (context.ask request t).2 := by
  constructor
  · intro name ho
    rw [hs.resolve_ask request ho, ht.resolve_ask request ho]
    exact h.vars name ho
  · intro callee args ho
    rw [functions_ask, functions_ask]
    rcases h.host_or_none ho with ⟨hf, hg⟩ | ⟨host, other, hf, hg, alike⟩
    · rw [hf, hg]
      exact .none
    · rw [hf, hg]
      have pure := hs.pure callee args host ho hf
      have pure' := ht.pure callee args other ho hg
      exact .some (alike.after pure pure' _ _)

theorem AgreeOn.answer (h : AgreeOn e s t) (hs : s.Steady e) (ha : e.MayAsk request) :
    (context.ask request s).1 = (context.ask request t).1 := by
  cases request with
  | resolve name => exact h.vars name ha
  | call callee values =>
    obtain ⟨args, ho⟩ := ha
    change (s.call callee values).1 = (t.call callee values).1
    rcases h.host_or_none ho with ⟨hf, hg⟩ | ⟨host, other, hf, hg, alike⟩
    · rw [call_builtin hf, call_builtin hg]
      apply callBuiltin_congr
      rintro rfl
      exact hs.functions args ho hf
    · rw [call_host hf, call_host hg]
      exact alike values

end Standard

/-! ## Contexts that are the same but for other names -/

def Context.Request.Among (vars functions : String → Prop) : Context.Request → Prop
  | .resolve name => vars name
  | .call callee _ => functions callee

namespace Standard

variable {s t : Standard} {vars functions : String → Prop} {request : Context.Request}
  {name : String}

/-- These variables and functions are the same in both contexts, and so are the random numbers to
come. -/
structure Same (vars functions : String → Prop) (s t : Standard) : Prop where
  values : ∀ name, vars name → s.values.get? name = t.values.get? name
  functions : ∀ name, functions name → s.functions.get? name = t.functions.get? name
  draws : s.draws = t.draws
  drawn : s.drawn = t.drawn

theorem Same.resolve (h : Same vars functions s t) {name : String} (hv : vars name) :
    (s.resolve name).1 = (t.resolve name).1 ∧
      (s.resolve name).2.drawn = (t.resolve name).2.drawn := by
  simp only [Standard.resolve, draw, h.values name hv, h.draws, h.drawn]
  repeat' split
  all_goals exact ⟨rfl, by simp [h.drawn]⟩

theorem callBuiltin_draws (draws : s.draws = t.draws) (drawn : s.drawn = t.drawn)
    (callee : String) (args : List Float) :
    (s.callBuiltin callee args).1 = (t.callBuiltin callee args).1 ∧
      (s.callBuiltin callee args).2.drawn = (t.callBuiltin callee args).2.drawn := by
  unfold callBuiltin draw
  rw [draws, drawn]
  repeat' split
  all_goals exact ⟨rfl, by simp [drawn]⟩

theorem Same.call (h : Same vars functions s t) {callee : String} (hf : functions callee)
    (args : List Float) :
    (s.call callee args).1 = (t.call callee args).1 ∧
      (s.call callee args).2.drawn = (t.call callee args).2.drawn := by
  have same := h.functions callee hf
  cases hg : t.functions.get? callee with
  | none =>
    rw [call_builtin (same.trans hg), call_builtin hg]
    apply callBuiltin_draws
    · exact h.draws
    · exact h.drawn
  | some host =>
    rw [call_host (same.trans hg), call_host hg]
    exact ⟨rfl, h.drawn⟩

theorem Same.ask (h : Same vars functions s t) (hn : request.Among vars functions) :
    (context.ask request s).1 = (context.ask request t).1 ∧
      Same vars functions (context.ask request s).2 (context.ask request t).2 := by
  have answered : (context.ask request s).1 = (context.ask request t).1 ∧
      (context.ask request s).2.drawn = (context.ask request t).2.drawn := by
    cases request with
    | resolve name => exact h.resolve hn
    | call callee args => exact h.call hn args
  obtain ⟨answer, drawn⟩ := answered
  refine ⟨answer, ?_⟩
  constructor
  · intro name hv
    rw [values_ask, values_ask]
    exact h.values name hv
  · intro name hf
    rw [functions_ask, functions_ask, h.functions name hf]
  · rw [draws_ask, draws_ask]
    exact h.draws
  · exact drawn

theorem Same.eval (h : Same vars functions s t) {e : Expr}
    (hn : ∀ request, e.MayAsk request → request.Among vars functions) :
    (s.eval e).1 = (t.eval e).1 ∧ Same vars functions (s.eval e).2 (t.eval e).2 :=
  Context.evaluate_matches e (fun request ha _ _ h => h.ask (hn request ha)) s t h

theorem setVariable_same (s : Standard) (value : Float) (hv : ¬ vars name) :
    Same vars functions (s.setVariable name value) s := by
  refine ⟨fun other ho => ?_, fun _ _ => rfl, rfl, rfl⟩
  rw [setVariable, Bindings.get?_set, if_neg]
  rintro rfl
  exact hv ho

theorem register_same (s : Standard) (function : HostFunction) (hf : ¬ functions name) :
    Same vars functions (s.register name function) s := by
  refine ⟨fun _ _ => rfl, fun other ho => ?_, rfl, rfl⟩
  rw [register, Bindings.get?_set, if_neg]
  rintro rfl
  exact hf ho

/-! ## Contexts that are the same but for the log -/

theorem ask_clearLog (s : Standard) (request : Context.Request) :
    (context.ask request s.clearLog).1 = (context.ask request s).1 ∧
      (context.ask request s.clearLog).2.clearLog = (context.ask request s).2.clearLog := by
  cases request with
  | resolve name =>
    change (s.clearLog.resolve name).1 = (s.resolve name).1 ∧
      (s.clearLog.resolve name).2.clearLog = (s.resolve name).2.clearLog
    simp only [resolve, draw, clearLog]
    repeat' split
    all_goals exact ⟨rfl, rfl⟩
  | call callee args =>
    change (s.clearLog.call callee args).1 = (s.call callee args).1 ∧
      (s.clearLog.call callee args).2.clearLog = (s.call callee args).2.clearLog
    simp only [Standard.call, callBuiltin, draw, clearLog]
    repeat' split
    all_goals exact ⟨rfl, rfl⟩

/-- An evaluation does not read the log, and adds to it what it would put into an empty one. -/
theorem eval_clearLog (s : Standard) (e : Expr) :
    (s.clearLog.eval e).1 = (s.eval e).1 ∧
      (s.clearLog.eval e).2.clearLog = (s.eval e).2.clearLog ∧
      (s.eval e).2.log = s.log ++ (s.clearLog.eval e).2.log := by
  let R (s' t : Standard) : Prop := s'.clearLog = t.clearLog ∧ t.log = s.log ++ s'.log
  have alike (request : Context.Request) : Context.AnswerAlike R context context request := by
    rintro s' t ⟨same, log⟩
    obtain ⟨answer, after⟩ := ask_clearLog s' request
    obtain ⟨answer', after'⟩ := ask_clearLog t request
    rw [same] at answer after
    refine ⟨answer.symm.trans answer', after.symm.trans after', ?_⟩
    rw [log_ask, log_ask, log, List.append_assoc]
  have related : R s.clearLog s := ⟨rfl, by simp [Standard.log, clearLog]⟩
  exact Context.evaluate_matches e (fun request _ => alike request) s.clearLog s related

end Standard

/-- Two contexts that agree on the variables and functions in an expression, each in its own
role, give it the same result when it asks for no random number and all functions it calls are
pure. A variable or a function of any other name makes no difference even to random numbers and
to functions that are not pure; nor does a variable that has the name of a function, or a
function that has the name of a variable. -/
theorem eval_depends_on_names (e : Expr) :
    (∀ s t : Standard, s.Steady e → t.Steady e → Standard.AgreeOn e s t →
      (s.eval e).1 = (t.eval e).1) ∧
    ∀ s : Standard,
      (∀ name value, ¬ (Expr.var name).Occurs e →
        ((s.setVariable name value).eval e).1 = (s.eval e).1) ∧
      ∀ name function, (∀ args, ¬ (Expr.call name args).Occurs e) →
        ((s.register name function).eval e).1 = (s.eval e).1 := by
  constructor
  · intro s t hs ht agree
    -- The memories of the functions and the random numbers drawn need not agree.
    let R (s t : Standard) : Prop := s.Steady e ∧ t.Steady e ∧ Standard.AgreeOn e s t
    have alike (request : Context.Request) (ha : e.MayAsk request) :
        Context.AnswerAlike R Standard.context Standard.context request :=
      fun s t ⟨hs, ht, agree⟩ =>
        ⟨agree.answer hs ha, hs.ask request, ht.ask request, agree.ask hs ht request⟩
    exact (Context.evaluate_matches e alike s t ⟨hs, ht, agree⟩).1
  · intro s
    let vars (name : String) : Prop := (Expr.var name).Occurs e
    let functions (name : String) : Prop := ∃ args, (Expr.call name args).Occurs e
    have among (request : Context.Request) (ha : e.MayAsk request) :
        request.Among vars functions := by
      cases request with
      | resolve name => exact ha
      | call callee values => exact ha
    constructor
    · intro name value hn
      exact ((Standard.setVariable_same s value hn).eval among).1
    · intro name function hn
      exact ((Standard.register_same s function fun ⟨args, ho⟩ => hn args ho).eval among).1

def firstOrZero : HostFunction := fun _ args => .ok (args.headD 0)

def absOfFirst : Expr := .call "abs" [.call "first" [.var "x"]]

def twoNames (draws : Nat → Float) : Standard :=
  ((Standard.fresh draws).setVariable "x" 2).register "first" firstOrZero

/-- More names in the wrong roles, and other random numbers to come. -/
def twoNamesAmongOthers : Standard :=
  ((twoNames fun _ => 1).setVariable "abs" 3).register "x" firstOrZero

theorem eval_depends_on_names_absOfFirst :
    (twoNames fun _ => 0).Steady absOfFirst ∧ twoNamesAmongOthers.Steady absOfFirst ∧
      Standard.AgreeOn absOfFirst (twoNames fun _ => 0) twoNamesAmongOthers ∧
      ((twoNames fun _ => 0).eval absOfFirst).1 = (twoNamesAmongOthers.eval absOfFirst).1 := by
  have vars {name : String} (ho : (Expr.var name).Occurs absOfFirst) : name = "x" := by
    simpa [Expr.root, absOfFirst, Expr.postorder, Expr.argsPostorder] using ho.root_mem
  have functions {callee : String} {args : List Expr}
      (ho : (Expr.call callee args).Occurs absOfFirst) : callee = "first" ∨ callee = "abs" := by
    have hm := ho.root_mem
    simp only [Expr.root, absOfFirst, Expr.postorder, Expr.argsPostorder, List.append_nil,
      List.cons_append, List.nil_append, List.mem_cons, Instruction.call.injEq] at hm
    grind
  have steady (s : Standard) (first : s.functions.get? "first" = some ⟨firstOrZero, []⟩)
      (abs : s.functions.get? "abs" = none) : s.Steady absOfFirst := by
    constructor
    · intro ho
      exact absurd (vars ho) (by decide)
    · intro args ho
      exact absurd (functions ho) (by decide)
    · intro callee args host ho hh
      rcases functions ho with rfl | rfl
      · rw [first] at hh
        cases hh
        exact fun _ _ _ => rfl
      · rw [abs] at hh
        cases hh
  have hs := steady (twoNames fun _ => 0) rfl rfl
  have ht := steady twoNamesAmongOthers rfl rfl
  have agree : Standard.AgreeOn absOfFirst (twoNames fun _ => 0) twoNamesAmongOthers := by
    constructor
    · intro name ho
      obtain rfl := vars ho
      rfl
    · intro callee args ho
      rcases functions ho with rfl | rfl
      · exact .some fun _ => rfl
      · exact .none
  exact ⟨hs, ht, agree, (eval_depends_on_names absOfFirst).1 _ _ hs ht agree⟩

end FormulaLang
