import FormulaLang.Proofs.Evaluation.Agreement

/-!
# Sessions with a standard context

A session sets variables, registers functions, asks for names and evaluates expressions in any
order. Its log has all that reached the context, each evaluation as the requests that it made.
What the context answers is read off the log: a name stands for what it was bound to last, and a
function of the host has seen the calls under its name since it was registered. Logs and sessions
are lists with the latest member first.
-/
namespace FormulaLang

namespace Standard

inductive Event where
  | set (name : String) (value : Float)
  | register (name : String) (function : HostFunction)
  | ask (request : Context.Request)

/-- One step of a session: a single event, or all those of an evaluation. -/
inductive Step where
  | single (event : Event)
  | eval (e : Expr)

def Event.perform (s : Standard) : Event → Standard
  | .set name value => s.setVariable name value
  | .register name function => s.register name function
  | .ask request => (context.ask request s).2

def Step.perform (s : Standard) : Step → Standard
  | .single event => event.perform s
  | .eval e => (s.eval e).2

def asked (s : Standard) (e : Expr) : List Context.Request :=
  ((evaluate context.recorded e).run.run (s, [])).2.2

def Step.events (s : Standard) : Step → List Event
  | .single event => [event]
  | .eval e => ((s.asked e).map .ask).reverse

def after (s : Standard) (events : List Event) : Standard :=
  events.foldr (fun event t => event.perform t) s

/-- The context after a session that starts without bindings. -/
def session (draws : Nat → Float) : List Step → Standard
  | [] => fresh draws
  | step :: steps => step.perform (session draws steps)

/-- All that reaches the context in a session. -/
def sessionLog (draws : Nat → Float) : List Step → List Event
  | [] => []
  | step :: steps => step.events (session draws steps) ++ sessionLog draws steps

/-! ## What a log says -/

namespace Event

def value? (name : String) : Event → Option Float
  | .set other value => if other = name then some value else none
  | _ => none

def function? (name : String) : Event → Option HostFunction
  | .register other function => if other = name then some function else none
  | _ => none

def argsTo (name : String) : Event → List (List Float)
  | .ask request => request.argsTo name
  | _ => []

end Event

/-- The arguments of all calls under a name since a function was registered for it. -/
def callsSince (name : String) (log : List Event) : List (List Float) :=
  (log.takeWhile fun event => (event.function? name).isNone).flatMap (Event.argsTo name)

variable {s t : Standard} {log later earlier : List Event} {name : String}

theorem callsSince_cons (event : Event) :
    callsSince name (event :: log) =
      if (event.function? name).isNone then event.argsTo name ++ callsSince name log else [] := by
  unfold callsSince
  rw [List.takeWhile_cons]
  split <;> rfl

/-! ## The context is what the log says -/

theorem after_append (s : Standard) (later earlier : List Event) :
    s.after (later ++ earlier) = (s.after earlier).after later := List.foldr_append

theorem values_after (draws : Nat → Float) (log : List Event) (name : String) :
    ((fresh draws).after log).values.get? name = log.findSome? (Event.value? name) := by
  induction log with
  | nil => rfl
  | cons event log ih =>
    rw [List.findSome?_cons, ← ih]
    cases event with
    | set other value =>
      change (((fresh draws).after log).values.set other value).get? name = _
      rw [Bindings.get?_set]
      by_cases hn : other = name
      · simp [Event.value?, hn]
      · simp [Event.value?, hn, Ne.symm hn]
    | register other function => rfl
    | ask request => exact congrArg (·.get? name) (values_ask _ request)

theorem functions_after (draws : Nat → Float) (log : List Event) (name : String) :
    ((fresh draws).after log).functions.get? name =
      (log.findSome? (Event.function? name)).map (⟨·, callsSince name log⟩) := by
  induction log with
  | nil => rfl
  | cons event log ih =>
    rw [List.findSome?_cons, callsSince_cons]
    cases event with
    | set other value => exact ih
    | register other function =>
      change (((fresh draws).after log).functions.set other ⟨function, []⟩).get? name = _
      rw [Bindings.get?_set, ih]
      by_cases hn : other = name
      · simp [Event.function?, hn]
      · simp [Event.function?, Event.argsTo, hn, Ne.symm hn]
    | ask request =>
      change (context.ask request ((fresh draws).after log)).2.functions.get? name = _
      rw [functions_ask, ih, Option.map_map]
      rfl

theorem draws_after (s : Standard) (log : List Event) : (s.after log).draws = s.draws := by
  induction log with
  | nil => rfl
  | cons event log ih =>
    rw [← ih]
    cases event with
    | set => rfl
    | register => rfl
    | ask request => exact draws_ask _ request

theorem after_answers {requests : List Context.Request} (h : context.Answers s requests t) :
    s.after (requests.map Event.ask).reverse = t := by
  induction h with
  | nil => rfl
  | cons ha _ ih =>
    rw [List.map_cons, List.reverse_cons, after_append, ← ih]
    exact congrArg (after · _) (congrArg Prod.snd ha)

theorem after_asked (s : Standard) (e : Expr) :
    s.after ((s.asked e).map Event.ask).reverse = (s.eval e).2 := by
  obtain ⟨requests, hr, hm, -⟩ := Context.evaluate_records context e s []
  have hq : s.asked e = requests := congrArg (·.2.2) hr
  change context.Made _ s requests (s.eval e) at hm
  rw [hq]
  rcases he : s.eval e with ⟨error | value, t⟩
  · rw [he] at hm
    obtain ⟨⟨before, last, u, rfl, ha, hl⟩, -⟩ := hm
    -- The request that fails may still change the context, as a call of a host function does.
    rw [List.map_append, List.reverse_append, after_append, after_answers ha]
    exact congrArg Prod.snd hl
  · rw [he] at hm
    exact after_answers hm.1

theorem after_events (s : Standard) (step : Step) : s.after (step.events s) = step.perform s := by
  cases step with
  | single event => rfl
  | eval e => exact after_asked s e

theorem after_sessionLog (draws : Nat → Float) (steps : List Step) :
    (fresh draws).after (sessionLog draws steps) = session draws steps := by
  induction steps with
  | nil => rfl
  | cons step steps ih => rw [sessionLog, after_append, ih, after_events, session]

theorem session_event (draws : Nat → Float) (log : List Event) :
    session draws (log.map .single) = (fresh draws).after log := by
  induction log with
  | nil => rfl
  | cons event log ih =>
    rw [List.map_cons, session, ih]
    rfl

theorem draws_session (draws : Nat → Float) (steps : List Step) :
    (session draws steps).draws = draws := by
  rw [← after_sessionLog, draws_after]
  rfl

theorem resolve_session (draws : Nat → Float) (steps : List Step) (name : String) :
    ((session draws steps).resolve name).1 =
      match (sessionLog draws steps).findSome? (Event.value? name) with
      | some value => .ok value
      | none => unset (draws (session draws steps).drawn) name := by
  have bound := values_after draws (sessionLog draws steps) name
  have answer := resolve_eq (session draws steps) name
  rw [after_sessionLog] at bound
  rw [bound, draws_session] at answer
  exact answer

theorem call_session (draws : Nat → Float) (steps : List Step) (name : String)
    (args : List Float) :
    match (sessionLog draws steps).findSome? (Event.function? name) with
    | some function => ((session draws steps).call name args).1 =
        function (callsSince name (sessionLog draws steps)) args
    | none => AnswersBuiltin (draws (session draws steps).drawn) name args
        ((session draws steps).call name args).1 := by
  have registered := functions_after draws (sessionLog draws steps) name
  rw [after_sessionLog] at registered
  cases hf : (sessionLog draws steps).findSome? (Event.function? name) with
  | some function =>
    rw [hf] at registered
    exact congrArg Prod.fst (call_host registered args)
  | none =>
    rw [hf] at registered
    have answer := callBuiltin_answers
      { session draws steps with calls := (name, args) :: (session draws steps).calls } name args
    rw [← call_builtin registered] at answer
    rwa [draws_session] at answer

/-! ## Asking keeps all bindings -/

/-- The variables and functions bound are the same. What the functions remember may differ. -/
structure SameBindings (s t : Standard) : Prop where
  values : s.values = t.values
  functions : ∀ name, (s.functions.get? name).map Registered.function =
    (t.functions.get? name).map Registered.function

theorem SameBindings.ask (h : SameBindings s t) (request : Context.Request) :
    SameBindings (context.ask request s).2 t := by
  constructor
  · rw [values_ask]
    exact h.values
  · intro name
    rw [functions_ask, Option.map_map, ← h.functions]
    rfl

theorem sameBindings_eval (s : Standard) (e : Expr) : SameBindings (s.eval e).2 s := by
  rw [← after_asked, ← List.map_reverse]
  induction (s.asked e).reverse with
  | nil => exact ⟨rfl, fun _ => rfl⟩
  | cons request _ ih => exact ih.ask request

/-! ## Contexts that nothing tells apart -/

/-- Every request and every evaluation gets the same answer. -/
structure Indistinct (s t : Standard) : Prop where
  ask : ∀ request, (context.ask request s).1 = (context.ask request t).1
  eval : ∀ e, (s.eval e).1 = (t.eval e).1

/-- The contexts have the same bindings, and their functions remember the same calls. -/
abbrev Alike (s t : Standard) : Prop := Same (fun _ => True) (fun _ => True) s t

theorem among_all (request : Context.Request) :
    request.Among (fun _ => True) (fun _ => True) := by
  cases request with
  | resolve => exact trivial
  | call => exact trivial

theorem Alike.indistinct (h : Alike s t) : Indistinct s t :=
  ⟨fun request => (h.ask (among_all request)).1,
    fun _ => (Same.eval h fun request _ => among_all request).1⟩

theorem Alike.event (h : Alike s t) (event : Event) :
    Alike (event.perform s) (event.perform t) := by
  cases event with
  | set name value =>
    refine ⟨fun other _ => ?_, h.functions, h.draws, h.drawn⟩
    change (s.values.set name value).get? other = (t.values.set name value).get? other
    rw [Bindings.get?_set, Bindings.get?_set, h.values other trivial]
  | register name function =>
    refine ⟨h.values, fun other _ => ?_, h.draws, h.drawn⟩
    change (s.functions.set name _).get? other = (t.functions.set name _).get? other
    rw [Bindings.get?_set, Bindings.get?_set, h.functions other trivial]
  | ask request => exact (h.ask (among_all request)).2

theorem Alike.step (h : Alike s t) (step : Step) : Alike (step.perform s) (step.perform t) := by
  cases step with
  | single event => exact h.event event
  | eval e => exact (Same.eval h fun request _ => among_all request).2

theorem Alike.session {draws : Nat → Float} {steps steps' : List Step}
    (h : Alike (session draws steps) (session draws steps')) (later : List Step) :
    Alike (session draws (later ++ steps)) (session draws (later ++ steps')) := by
  induction later with
  | nil => exact h
  | cons step later ih => exact ih.step step

theorem alike_set_set {x y : String} (hn : x ≠ y) (s : Standard) (v w : Float) :
    Alike ((s.setVariable x v).setVariable y w) ((s.setVariable y w).setVariable x v) := by
  refine ⟨fun other _ => ?_, fun _ _ => rfl, rfl, rfl⟩
  simp only [setVariable, Bindings.get?_set]
  grind

theorem alike_register_register (s : Standard) (name : String) (old new : HostFunction) :
    Alike ((s.register name old).register name new) (s.register name new) := by
  refine ⟨fun _ _ => rfl, fun other _ => ?_, rfl, rfl⟩
  simp only [register, Bindings.get?_set]
  grind

end Standard

open Standard

/-- In every session the answers follow from the log. A variable has the value it was set to
last, and without one it is a constant, a random number or unknown. A call reaches the function
registered last under its name with the arguments as they are and the calls since then, and
without one it reaches the built-in function. Evaluations act by their requests alone, and no
request or evaluation, failing or not, changes a binding. It makes no difference for the rest of
the session in which order different variables are set, or which function is replaced by a new
one; and replacing it leaves the other functions and their memories as they are. -/
theorem session_answers_from_log (draws : Nat → Float) (steps : List Step) :
    let s := session draws steps
    let log := sessionLog draws steps
    (∀ name, (s.resolve name).1 = match log.findSome? (Event.value? name) with
      | some value => .ok value
      | none => unset (draws s.drawn) name) ∧
    (∀ name args, match log.findSome? (Event.function? name) with
      | some function => (s.call name args).1 = function (callsSince name log) args
      | none => AnswersBuiltin (draws s.drawn) name args (s.call name args).1) ∧
    session draws (log.map .single) = s ∧
    (∀ request, SameBindings (context.ask request s).2 s) ∧
    (∀ e, SameBindings (s.eval e).2 s) ∧
    (∀ later x y v w, x ≠ y →
      Indistinct (session draws (later ++ .single (.set y w) :: .single (.set x v) :: steps))
        (session draws (later ++ .single (.set x v) :: .single (.set y w) :: steps))) ∧
    (∀ later name old new,
      Indistinct
        (session draws
          (later ++ .single (.register name new) :: .single (.register name old) :: steps))
        (session draws (later ++ .single (.register name new) :: steps))) ∧
    ∀ name new other, other ≠ name →
      (s.register name new).functions.get? other = s.functions.get? other := by
  intro s log
  refine ⟨resolve_session draws steps, call_session draws steps, ?_, ?_, sameBindings_eval s,
    ?_, ?_, ?_⟩
  · rw [session_event]
    exact after_sessionLog draws steps
  · exact fun request => SameBindings.ask ⟨rfl, fun _ => rfl⟩ request
  · intro later x y v w hn
    apply Alike.indistinct
    apply Alike.session
    exact alike_set_set hn s v w
  · intro later name old new
    apply Alike.indistinct
    apply Alike.session
    exact alike_register_register s name old new
  · intro name new other hn
    rw [register, Bindings.get?_set, if_neg hn]

def counter : HostFunction := fun earlier _ => .ok (Float.ofNat earlier.length)

/-- The sum `tick() + tick()` stands between the registrations of two counters. -/
def twoCounters : List Step :=
  [.single (.register "tock" counter), .eval (.binary .add (.call "tick" []) (.call "tick" [])),
    .single (.register "tick" counter)]

theorem session_answers_from_log_twoCounters :
    ((session (fun _ => 0) twoCounters).call "tick" []).1 = .ok (Float.ofNat 2) ∧
      ((session (fun _ => 0) twoCounters).call "tock" []).1 = .ok (Float.ofNat 0) ∧
      "x" ≠ "y" ∧ Indistinct
        (session (fun _ => 0) (.single (.set "y" 2) :: .single (.set "x" 1) :: twoCounters))
        (session (fun _ => 0) (.single (.set "x" 1) :: .single (.set "y" 2) :: twoCounters)) := by
  obtain ⟨-, calls, -, -, -, order, -⟩ := session_answers_from_log (fun _ => 0) twoCounters
  have different : "x" ≠ "y" := by decide
  exact ⟨calls "tick" [], calls "tock" [], different, order [] "x" "y" 1 2 different⟩

end FormulaLang
