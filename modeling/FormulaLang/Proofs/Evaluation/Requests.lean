import FormulaLang.Context.Standard
import FormulaLang.Proofs.Evaluation.Postorder

/-!
# What an evaluation asks its context

A context may answer by everything it has been asked before. A recording context keeps the list
of requests, so the requests of an evaluation can be compared with those of the stack machine
and with the names in the tree: each is asked for once, in postorder, up to the first failure.
-/
namespace FormulaLang

inductive Context.Request where
  | resolve (name : String)
  | call (callee : String) (args : List Float)

def Context.Request.instruction : Context.Request → Instruction
  | .resolve name => .load name
  | .call callee args => .call callee args.length

def Instruction.asks : Instruction → Bool
  | .load _ => true
  | .call _ _ => true
  | _ => false

variable {σ ε α β : Type}

/-- A computation that may fail and keeps a state, failing or not. -/
abbrev Stateful (ε σ α : Type) : Type := ExceptT ε (StateM σ) α

theorem Stateful.run_bind (x : Stateful ε σ α) (f : α → Stateful ε σ β) (s : σ) :
    (x >>= f).run.run s =
      match x.run.run s with
      | (.ok v, t) => (f v).run.run t
      | (.error error, t) => (.error error, t) := by
  simp only [ExceptT.run_bind, StateT.run_bind]
  rcases x.run.run s with ⟨_ | v, t⟩
  · rfl
  · rfl

namespace Context

def ask (context : Context (ExceptT ε (StateM σ))) (request : Request) (s : σ) :
    Except ε Float × σ :=
  match request with
  | .resolve name => (context.resolve name).run.run s
  | .call callee args => (context.call callee args).run.run s

def askRecorded (context : Context (ExceptT ε (StateM σ))) (request : Request) :
    Stateful ε (σ × List Request) Float :=
  ExceptT.mk fun (s, asked) =>
    ((context.ask request s).1, (context.ask request s).2, asked ++ [request])

def recorded (context : Context (ExceptT ε (StateM σ))) :
    Context (ExceptT ε (StateM (σ × List Request))) where
  resolve name := context.askRecorded (.resolve name)
  call callee args := context.askRecorded (.call callee args)

/-- The requests are made one after the other, and each of them is answered with a value. -/
inductive Answers (context : Context (ExceptT ε (StateM σ))) : σ → List Request → σ → Prop where
  | nil (s : σ) : Answers context s [] s
  | cons {s t u : σ} {request requests value} : context.ask request s = (.ok value, t) →
      Answers context t requests u → Answers context s (request :: requests) u

/-- All requests but the last are answered with a value, and the last one fails. -/
def FailsAt (context : Context (ExceptT ε (StateM σ))) (s : σ) (requests : List Request)
    (error : ε) (u : σ) : Prop :=
  ∃ earlier last t, requests = earlier ++ [last] ∧ Answers context s earlier t ∧
    context.ask last t = (.error error, u)

variable {context : Context (ExceptT ε (StateM σ))} {s t u : σ}
  {earlier later asked : List Request} {error : ε} {due due' : List Instruction}

theorem Answers.append (h : Answers context s earlier t) (k : Answers context t later u) :
    Answers context s (earlier ++ later) u := by
  induction h with
  | nil => exact k
  | cons ha _ ih => exact .cons ha (ih k)

theorem Answers.failsAt (h : Answers context s earlier t) (k : FailsAt context t later error u) :
    FailsAt context s (earlier ++ later) error u := by
  obtain ⟨more, last, v, rfl, ha, hf⟩ := k
  exact ⟨earlier ++ more, last, v, by simp, h.append ha, hf⟩

/-- What became of requests that were due: all of them were answered, or one of them failed and
none was made after it. -/
def Made (context : Context (ExceptT ε (StateM σ))) (due : List Instruction) (s : σ)
    (asked : List Request) : Except ε α × σ → Prop
  | (.ok _, t) => Answers context s asked t ∧ asked.map Request.instruction = due
  | (.error error, t) =>
    FailsAt context s asked error t ∧ asked.map Request.instruction <+: due

theorem Made.of_answers {r : Except ε α × σ} (h : Answers context s asked t)
    (hm : Made context due t later r) :
    Made context (asked.map Request.instruction ++ due) s (asked ++ later) r := by
  rcases r with ⟨error | v, u⟩
  · obtain ⟨hf, hd⟩ := hm
    refine ⟨h.failsAt hf, ?_⟩
    rw [List.map_append]
    exact (List.prefix_append_right_inj _).mpr hd
  · obtain ⟨ha, rfl⟩ := hm
    exact ⟨h.append ha, List.map_append⟩

/-- The second computation is the first with its requests recorded. They are those due, and a
value at the end satisfies `post`. -/
def Records (context : Context (ExceptT ε (StateM σ))) (due : List Instruction) (post : α → Prop)
    (x : Stateful ε σ α) (y : Stateful ε (σ × List Request) α) : Prop :=
  ∀ s before, ∃ asked,
    y.run.run (s, before) = ((x.run.run s).1, (x.run.run s).2, before ++ asked) ∧
      Made context due s asked (x.run.run s) ∧ ∀ v, (x.run.run s).1 = .ok v → post v

namespace Records

variable {post : α → Prop} {post' : β → Prop} {x : Stateful ε σ α}
  {y : Stateful ε (σ × List Request) α} {f : α → Stateful ε σ β}
  {g : α → Stateful ε (σ × List Request) β}

theorem pure {v : α} (h : post v) : Records context [] post (pure v) (pure v) := by
  intro s before
  refine ⟨[], by rw [List.append_nil]; rfl, ⟨.nil s, rfl⟩, ?_⟩
  intro w hw
  cases hw
  exact h

theorem bind (h : Records context due post x y)
    (k : ∀ v, post v → Records context due' post' (f v) (g v)) :
    Records context (due ++ due') post' (x >>= f) (y >>= g) := by
  intro s before
  obtain ⟨asked, hy, hm, hp⟩ := h s before
  rw [Stateful.run_bind, Stateful.run_bind, hy]
  rcases hx : x.run.run s with ⟨error | v, t⟩
  · -- The failure of the first part is that of the whole, and nothing follows it.
    rw [hx] at hm
    obtain ⟨hf, hd⟩ := hm
    exact ⟨asked, rfl, ⟨hf, hd.trans (List.prefix_append due due')⟩, by simp⟩
  · rw [hx] at hm hp
    obtain ⟨ha, rfl⟩ := hm
    obtain ⟨later, hg, hl, hq⟩ := k v (hp v rfl) t (before ++ asked)
    exact ⟨asked ++ later, by simpa using hg, Made.of_answers ha hl, hq⟩

theorem request (request : Request) {x : Stateful ε σ Float}
    (hx : ∀ s, x.run.run s = context.ask request s) :
    Records context [request.instruction] (fun _ => True) x (context.askRecorded request) := by
  intro s before
  refine ⟨[request], by rw [hx]; rfl, ?_, fun _ _ => trivial⟩
  rw [hx]
  rcases ha : context.ask request s with ⟨error | v, t⟩
  · exact ⟨⟨[], request, s, rfl, .nil s, ha⟩, List.prefix_rfl⟩
  · exact ⟨.cons ha (.nil t), rfl⟩

end Records

mutual

theorem evaluate_records (context : Context (ExceptT ε (StateM σ))) (e : Expr) :
    Records context (e.postorder.filter Instruction.asks) (fun _ => True) (evaluate context e)
      (evaluate context.recorded e) := by
  cases e with
  | num value => exact .pure trivial
  | var name => exact .request (.resolve name) fun _ => rfl
  | call callee args =>
    rw [Expr.postorder, List.filter_append, evaluate, evaluate]
    refine (evaluateArgs_records context args).bind fun values hv => ?_
    change Records context [.call callee args.length] _ _ _
    -- The instruction counts the arguments and the request has their values.
    rw [← hv]
    exact .request (.call callee values) fun _ => rfl
  | neg operand =>
    rw [Expr.postorder, List.filter_append, evaluate, evaluate]
    exact (evaluate_records context operand).bind fun _ _ => .pure trivial
  | binary op lhs rhs =>
    rw [Expr.postorder, List.filter_append, List.filter_append, List.append_assoc, evaluate,
      evaluate]
    refine (evaluate_records context lhs).bind fun x _ => ?_
    exact (evaluate_records context rhs).bind fun y _ => .pure trivial

theorem evaluateArgs_records (context : Context (ExceptT ε (StateM σ))) (args : List Expr) :
    Records context ((Expr.argsPostorder args).filter Instruction.asks)
      (fun values => values.length = args.length) (evaluateArgs context args)
      (evaluateArgs context.recorded args) := by
  cases args with
  | nil => exact .pure rfl
  | cons arg args =>
    rw [Expr.argsPostorder, List.filter_append, evaluateArgs, evaluateArgs]
    refine (evaluate_records context arg).bind fun value _ => ?_
    rw [← List.append_nil (List.filter _ _)]
    refine (evaluateArgs_records context args).bind fun values hv => .pure ?_
    rw [List.length_cons, hv, List.length_cons]

end

end Context

/-! ## What a standard context answers -/

namespace Standard

def unset (draw : Float) (name : String) : Except EvalError Float :=
  if name = "e" then .ok Builtin.euler
  else if name = "pi" then .ok Builtin.pi
  else if name = "r" then .ok draw
  else .error (.unknownVariable name)

/-- This is the answer of the built-in function: its body is reached exactly with the numbers of
arguments that it takes. -/
def AnswersBuiltin (draw : Float) (name : String) (args : List Float)
    (answer : Except EvalError Float) : Prop :=
  match Builtin.named? name with
  | none => answer = .error (.unknownFunction name)
  | some builtin =>
    if builtin.arity.accepts args.length then
      ∃ value, builtin.invoke? draw args = some value ∧ answer = .ok value
    else answer = .error (.wrongArity name builtin.arity args.length)

theorem resolve_eq (s : Standard) (name : String) :
    (s.resolve name).1 = match s.values.get? name with
      | some value => .ok value
      | none => unset (s.draws s.drawn) name := by
  unfold resolve unset draw
  cases s.values.get? name with
  | some value => rfl
  | none =>
    dsimp only
    split
    · rfl
    split
    · rfl
    split <;> rfl

theorem callBuiltin_answers (s : Standard) (name : String) (args : List Float) :
    AnswersBuiltin (s.draws s.drawn) name args (s.callBuiltin name args).1 := by
  unfold AnswersBuiltin callBuiltin
  cases Builtin.named? name with
  | none => rfl
  | some builtin =>
    dsimp only
    rw [← Builtin.isSome_invoke? (s.draws s.drawn)]
    cases builtin.invoke? (s.draws s.drawn) args with
    | none => rfl
    | some value => exact ⟨value, rfl, rfl⟩

end Standard

/-! ## What a request changes in a standard context -/

def Context.Request.argsTo (name : String) : Context.Request → List (List Float)
  | .resolve _ => []
  | .call callee args => if callee = name then [args] else []

/-- The function when it has been called with these arguments too, the latest first. -/
def Registered.after (host : Registered) (more : List (List Float)) : Registered :=
  ⟨host.function, more ++ host.earlier⟩

@[simp] theorem Registered.after_nil (host : Registered) : host.after [] = host := rfl

namespace Standard

variable {standard t : Standard} {asked : List Context.Request} {error : EvalError}

theorem resolve_state (standard : Standard) (name : String) :
    ∃ drawn, (standard.resolve name).2 = { standard with drawn } := by
  simp only [resolve, draw]
  repeat' split
  all_goals exact ⟨_, rfl⟩

theorem callBuiltin_state (standard : Standard) (name : String) (args : List Float) :
    ∃ drawn, (standard.callBuiltin name args).2 = { standard with drawn } := by
  unfold callBuiltin
  split
  · exact ⟨_, rfl⟩
  · split
    · split <;> exact ⟨_, rfl⟩
    · exact ⟨_, rfl⟩

theorem call_host {name : String} {host : Registered}
    (h : standard.functions.get? name = some host) (args : List Float) :
    standard.call name args =
      (host.function host.earlier args,
        { standard with
          calls := (name, args) :: standard.calls
          functions := standard.functions.set name ⟨host.function, args :: host.earlier⟩ }) := by
  simp [call, h]

theorem call_builtin {name : String} (h : standard.functions.get? name = none)
    (args : List Float) : standard.call name args =
      { standard with calls := (name, args) :: standard.calls }.callBuiltin name args := by
  simp [call, h]

theorem calls_call (standard : Standard) (name : String) (args : List Float) :
    (standard.call name args).2.calls = (name, args) :: standard.calls := by
  cases h : standard.functions.get? name with
  | some host => rw [call_host h]
  | none =>
    obtain ⟨drawn, hs⟩ :=
      callBuiltin_state { standard with calls := (name, args) :: standard.calls } name args
    rw [call_builtin h, hs]

theorem ask_state (standard : Standard) (request : Context.Request) :
    ∃ functions drawn calls,
      (context.ask request standard).2 = { standard with functions, drawn, calls } := by
  cases request with
  | resolve name =>
    obtain ⟨drawn, hs⟩ := resolve_state standard name
    exact ⟨_, drawn, _, hs⟩
  | call name args =>
    change ∃ functions drawn calls,
      (standard.call name args).2 = { standard with functions, drawn, calls }
    cases h : standard.functions.get? name with
    | some host =>
      rw [call_host h]
      exact ⟨_, _, _, rfl⟩
    | none =>
      obtain ⟨drawn, hs⟩ :=
        callBuiltin_state { standard with calls := (name, args) :: standard.calls } name args
      rw [call_builtin h, hs]
      exact ⟨_, _, _, rfl⟩

theorem values_ask (standard : Standard) (request : Context.Request) :
    (context.ask request standard).2.values = standard.values := by
  obtain ⟨_, _, _, h⟩ := ask_state standard request
  rw [h]

theorem draws_ask (standard : Standard) (request : Context.Request) :
    (context.ask request standard).2.draws = standard.draws := by
  obtain ⟨_, _, _, h⟩ := ask_state standard request
  rw [h]

/-- A request leaves all functions bound, and only the one it calls notes the call. -/
theorem functions_ask (standard : Standard) (request : Context.Request) (name : String) :
    (context.ask request standard).2.functions.get? name =
      (standard.functions.get? name).map (Registered.after · (request.argsTo name)) := by
  cases request with
  | resolve other =>
    obtain ⟨drawn, hs⟩ := resolve_state standard other
    change (standard.resolve other).2.functions.get? name = _
    rw [hs]
    simp [Context.Request.argsTo]
  | call callee args =>
    change (standard.call callee args).2.functions.get? name = _
    cases h : standard.functions.get? callee with
    | some host =>
      rw [call_host h, Bindings.get?_set]
      by_cases hn : callee = name
      · subst hn
        simp [h, Context.Request.argsTo, Registered.after]
      · simp [hn, Ne.symm hn, Context.Request.argsTo]
    | none =>
      obtain ⟨drawn, hs⟩ :=
        callBuiltin_state { standard with calls := (callee, args) :: standard.calls } callee args
      rw [call_builtin h, hs]
      by_cases hn : callee = name
      · subst hn
        simp [h]
      · simp [hn, Context.Request.argsTo]

end Standard

/-! ## The log of a standard context -/

def Context.Request.record? : Context.Request → Option LogRecord
  | .resolve _ => none
  | .call callee args => some (.call callee args)

namespace Standard

variable {standard t : Standard} {asked : List Context.Request} {error : EvalError}

theorem log_ask (standard : Standard) (request : Context.Request) :
    (context.ask request standard).2.log = standard.log ++ request.record?.toList := by
  cases request with
  | resolve name =>
    obtain ⟨drawn, hs⟩ := resolve_state standard name
    have h : (context.ask (.resolve name) standard).2 = { standard with drawn } := hs
    simp [log, h, Context.Request.record?]
  | call callee args =>
    have h : (context.ask (.call callee args) standard).2.calls =
        (callee, args) :: standard.calls := calls_call standard callee args
    simp [log, h, Context.Request.record?]

theorem log_answers (h : context.Answers standard asked t) :
    t.log = standard.log ++ asked.filterMap Context.Request.record? := by
  induction h with
  | nil => simp
  | @cons s t u request requests value ha _ ih =>
    have hl := log_ask s request
    rw [ha] at hl
    rw [ih, hl, List.append_assoc]
    cases request with
    | resolve => rfl
    | call => rfl

theorem log_failsAt (h : context.FailsAt standard asked error t) :
    t.log = standard.log ++ asked.filterMap Context.Request.record? := by
  obtain ⟨earlier, last, u, rfl, ha, hf⟩ := h
  have hl := log_ask u last
  rw [hf, log_answers ha] at hl
  rw [hl, List.filterMap_append, List.append_assoc]
  cases last with
  | resolve => rfl
  | call => rfl

theorem log_made {α : Type} {due : List Instruction} {r : Except EvalError α × Standard}
    (h : context.Made due standard asked r) :
    r.2.log = standard.log ++ asked.filterMap Context.Request.record? := by
  rcases r with ⟨error | v, u⟩
  · exact log_failsAt h.1
  · exact log_answers h.1

end Standard

theorem Stateful.run_map_pure (x : Stateful ε σ α) (f : α → β) (s : σ) :
    (x >>= fun v => pure (f v)).run.run s = ((x.run.run s).1.map f, (x.run.run s).2) := by
  rw [Stateful.run_bind]
  rcases x.run.run s with ⟨error | v, t⟩
  · rfl
  · rfl

/-- Evaluating an expression has the result, the requests and the effects of running its
postorder on a stack, which ends with one value. On success each name in the tree is asked for
once, in that order; on failure the last request is the one that failed, and its error is the
result. A standard context has logged exactly the calls among the requests, each when it was
made. -/
theorem evaluate_runs_postorder (context : Context (ExceptT ε (StateM σ))) (e : Expr) (s : σ) :
    let result := (evaluate context e).run.run s
    (StackMachine.run context e.postorder []).run.run s =
        (result.1.map fun v => some [v], result.2) ∧
      (∃ asked, (evaluate context.recorded e).run.run (s, []) = (result.1, result.2, asked) ∧
        (StackMachine.run context.recorded e.postorder []).run.run (s, []) =
          (result.1.map fun v => some [v], result.2, asked) ∧
        context.Made (e.postorder.filter Instruction.asks) s asked result) ∧
      ∀ standard : Standard,
        (∀ request, (Standard.context.ask request standard).2.log =
          standard.log ++ request.record?.toList) ∧
        ∃ asked, (evaluate Standard.context.recorded e).run.run (standard, []) =
            ((standard.eval e).1, (standard.eval e).2, asked) ∧
          (standard.eval e).2.log = standard.log ++ asked.filterMap Context.Request.record? := by
  have machine {τ : Type} (c : Context (ExceptT ε (StateM τ))) (t : τ) :
      (StackMachine.run c e.postorder []).run.run t =
        (((evaluate c e).run.run t).1.map fun v => some [v], ((evaluate c e).run.run t).2) := by
    rw [← List.append_nil e.postorder, StackMachine.run_postorder]
    exact Stateful.run_map_pure _ (fun v => some [v]) t
  refine ⟨machine context s, ?_, fun standard => ⟨Standard.log_ask standard, ?_⟩⟩
  · obtain ⟨asked, hr, hm, -⟩ := Context.evaluate_records context e s []
    exact ⟨asked, hr, by rw [machine, hr]; rfl, hm⟩
  · obtain ⟨asked, hr, hm, -⟩ := Context.evaluate_records Standard.context e standard []
    exact ⟨asked, hr, Standard.log_made hm⟩

end FormulaLang
