import FormulaLang.Proofs.Evaluation.Requests

/-!
# Names decide whether an expression has a value

Without host functions, the standard context fails for unknown names and wrong numbers of
arguments and for nothing else. So the names in an expression tell whether it has a value, and
the first wrong one in postorder tells the error. The values bound to the names, the random
numbers and the values of arguments make no difference.
-/
namespace FormulaLang

/-! ## Parts of an expression -/

/-- The first expression is a part of the second one, or all of it. -/
inductive Expr.Occurs (part : Expr) : Expr → Prop where
  | whole : Occurs part part
  | arg {callee args arg} : arg ∈ args → Occurs part arg → Occurs part (.call callee args)
  | operand {operand} : Occurs part operand → Occurs part (.neg operand)
  | lhs {op lhs rhs} : Occurs part lhs → Occurs part (.binary op lhs rhs)
  | rhs {op lhs rhs} : Occurs part rhs → Occurs part (.binary op lhs rhs)

def Expr.root : Expr → Instruction
  | .num value => .push value
  | .var name => .load name
  | .call callee args => .call callee args.length
  | .neg _ => .negate
  | .binary op _ _ => .apply op

theorem Expr.mem_argsPostorder {args : List Expr} {i : Instruction} :
    i ∈ argsPostorder args ↔ ∃ arg ∈ args, i ∈ arg.postorder := by
  induction args with
  | nil => simp [argsPostorder]
  | cons arg args ih => simp [argsPostorder, ih]

theorem Expr.Occurs.root_mem {part e : Expr} (h : part.Occurs e) : part.root ∈ e.postorder := by
  induction h with
  | whole => cases part <;> simp [root, postorder]
  | arg hm _ ih =>
    rw [postorder]
    exact List.mem_append_left _ (mem_argsPostorder.mpr ⟨_, hm, ih⟩)
  | operand _ ih => exact List.mem_append_left _ ih
  | lhs _ ih =>
    rw [postorder, List.append_assoc]
    exact List.mem_append_left _ ih
  | rhs _ ih =>
    rw [postorder, List.append_assoc]
    exact List.mem_append_right _ (List.mem_append_left _ ih)

theorem Expr.mem_postorder {e : Expr} {i : Instruction} :
    i ∈ e.postorder ↔ ∃ part : Expr, part.Occurs e ∧ part.root = i := by
  refine ⟨fun h => ?_, fun ⟨part, hp, hr⟩ => hr ▸ hp.root_mem⟩
  match e with
  | .num value =>
    obtain rfl := List.mem_singleton.mp h
    exact ⟨_, .whole, rfl⟩
  | .var name =>
    obtain rfl := List.mem_singleton.mp h
    exact ⟨_, .whole, rfl⟩
  | .call callee args =>
    rw [postorder, List.mem_append, mem_argsPostorder, List.mem_singleton] at h
    obtain ⟨arg, hm, h⟩ | rfl := h
    · obtain ⟨part, hp, hr⟩ := mem_postorder.mp h
      exact ⟨part, .arg hm hp, hr⟩
    · exact ⟨_, .whole, rfl⟩
  | .neg operand =>
    rw [postorder, List.mem_append, List.mem_singleton] at h
    obtain h | rfl := h
    · obtain ⟨part, hp, hr⟩ := mem_postorder.mp h
      exact ⟨part, .operand hp, hr⟩
    · exact ⟨_, .whole, rfl⟩
  | .binary op lhs rhs =>
    rw [postorder, List.mem_append, List.mem_append, List.mem_singleton] at h
    obtain (h | h) | rfl := h
    · obtain ⟨part, hp, hr⟩ := mem_postorder.mp h
      exact ⟨part, .lhs hp, hr⟩
    · obtain ⟨part, hp, hr⟩ := mem_postorder.mp h
      exact ⟨part, .rhs hp, hr⟩
    · exact ⟨_, .whole, rfl⟩

/-! ## Requests of a standard context -/

def Standard.constants : List String := ["e", "pi", "r"]

/-- The error of a node when only these variables are bound and no function is. The nodes below
it play no part but for their number. -/
def Instruction.offence? (bound : String → Bool) : Instruction → Option EvalError
  | .load name =>
    if bound name || name ∈ Standard.constants then none else some (.unknownVariable name)
  | .call callee count =>
    match Builtin.named? callee with
    | none => some (.unknownFunction callee)
    | some builtin =>
      if builtin.arity.accepts count then none
      else some (.wrongArity callee builtin.arity count)
  | _ => none

namespace Standard

/-- Exactly these variables are bound, and no function is. -/
structure Knows (bound : String → Bool) (s : Standard) : Prop where
  values : ∀ name, (s.values.get? name).isSome = bound name
  functions : ∀ name, s.functions.get? name = none

variable {bound : String → Bool} {s t : Standard} {asked : List Context.Request}
  {error : EvalError}

theorem Knows.drawing (h : s.Knows bound) (drawn : Nat) : Knows bound { s with drawn } :=
  ⟨h.values, h.functions⟩

theorem Knows.note (h : s.Knows bound) (name : String) (args : List Float) :
    Knows bound { s with calls := (name, args) :: s.calls } := ⟨h.values, h.functions⟩

theorem Knows.resolve (h : s.Knows bound) (name : String) : (s.resolve name).2.Knows bound := by
  obtain ⟨drawn, hs⟩ := resolve_state s name
  exact hs ▸ h.drawing drawn

theorem Knows.callBuiltin (h : s.Knows bound) (name : String) (args : List Float) :
    (s.callBuiltin name args).2.Knows bound := by
  obtain ⟨drawn, hs⟩ := callBuiltin_state s name args
  exact hs ▸ h.drawing drawn

theorem Knows.ask (h : s.Knows bound) (request : Context.Request) :
    (context.ask request s).2.Knows bound := by
  cases request with
  | resolve name => exact h.resolve name
  | call callee args =>
    change (s.call callee args).2.Knows bound
    rw [call_builtin (h.functions callee)]
    exact (h.note callee args).callBuiltin callee args

theorem unset_error_iff (draw : Float) (name : String) :
    unset draw name = .error error ↔ name ∉ constants ∧ error = .unknownVariable name := by
  unfold unset constants
  by_cases he : name = "e"
  · simp [he]
  by_cases hp : name = "pi"
  · simp [hp]
  by_cases hr : name = "r"
  · simp [hr]
  simp [he, hp, hr, eq_comm]

theorem Knows.resolve_error_iff (h : s.Knows bound) (name : String) :
    (s.resolve name).1 = .error error ↔ (Instruction.load name).offence? bound = some error := by
  rw [resolve_eq, Instruction.offence?, ← h.values name]
  cases s.values.get? name with
  | some value => simp
  | none =>
    rw [unset_error_iff]
    simp [eq_comm]

/-- The arity that is compared with the number of arguments is that of the body. -/
theorem callBuiltin_error_iff (s : Standard) (name : String) (args : List Float) :
    (s.callBuiltin name args).1 = .error error ↔
      (Instruction.call name args.length).offence? bound = some error := by
  simp only [callBuiltin, Instruction.offence?]
  cases Builtin.named? name with
  | none => simp
  | some builtin =>
    dsimp only
    rw [← Builtin.isSome_invoke? (s.draws s.drawn)]
    cases builtin.invoke? (s.draws s.drawn) args <;> simp

theorem Knows.ask_error_iff (h : s.Knows bound) (request : Context.Request) :
    (context.ask request s).1 = .error error ↔
      request.instruction.offence? bound = some error := by
  cases request with
  | resolve name => exact h.resolve_error_iff name
  | call callee args =>
    change (s.call callee args).1 = .error error ↔ _
    rw [call_builtin (h.functions callee)]
    exact callBuiltin_error_iff _ callee args

theorem Knows.answered {request : Context.Request} {value : Float} (h : s.Knows bound)
    (ha : context.ask request s = (.ok value, t)) :
    t.Knows bound ∧ request.instruction.offence? bound = none := by
  have hk := h.ask request
  rw [ha] at hk
  refine ⟨hk, Option.eq_none_iff_forall_ne_some.mpr fun error ho => ?_⟩
  have he := (h.ask_error_iff request).mpr ho
  rw [ha] at he
  cases he

theorem Knows.answers (h : s.Knows bound) (ha : context.Answers s asked t) :
    t.Knows bound ∧
      (asked.map Context.Request.instruction).findSome? (Instruction.offence? bound) = none := by
  induction ha with
  | nil => exact ⟨h, rfl⟩
  | cons hr _ ih =>
    obtain ⟨hk, ho⟩ := h.answered hr
    obtain ⟨ht, hn⟩ := ih hk
    exact ⟨ht, by rw [List.map_cons, List.findSome?_cons, ho, hn]⟩

theorem Knows.failsAt (h : s.Knows bound) (hf : context.FailsAt s asked error t) :
    (asked.map Context.Request.instruction).findSome? (Instruction.offence? bound) =
      some error := by
  obtain ⟨earlier, last, u, rfl, ha, hl⟩ := hf
  obtain ⟨hk, hn⟩ := h.answers ha
  have ho := (hk.ask_error_iff last).mp (by rw [hl])
  simp [List.findSome?_append, hn, ho]

end Standard

theorem Instruction.findSome?_asks (bound : String → Bool) (is : List Instruction) :
    (is.filter asks).findSome? (offence? bound) = is.findSome? (offence? bound) := by
  induction is with
  | nil => rfl
  | cons i is ih =>
    cases i with
    | load name => rw [List.filter_cons_of_pos rfl, List.findSome?_cons, List.findSome?_cons, ih]
    | call callee count =>
      rw [List.filter_cons_of_pos rfl, List.findSome?_cons, List.findSome?_cons, ih]
    | push value => exact ih
    | negate => exact ih
    | apply op => exact ih

theorem Instruction.offence?_load_eq_none {bound : String → Bool} {name : String} :
    (load name).offence? bound = none ↔ bound name = true ∨ name ∈ Standard.constants := by
  cases h : bound name <;> simp [offence?, h]

theorem Instruction.offence?_call_eq_none {bound : String → Bool} {callee : String}
    {count : Nat} : (call callee count).offence? bound = none ↔
      ∃ builtin, Builtin.named? callee = some builtin ∧ builtin.arity.accepts count = true := by
  simp only [offence?]
  cases Builtin.named? callee <;> simp

variable {bound : String → Bool} {s : Standard}

theorem Standard.Knows.eval_error_iff (h : s.Knows bound) (e : Expr) {error : EvalError} :
    (s.eval e).1 = .error error ↔
      e.postorder.findSome? (Instruction.offence? bound) = some error := by
  obtain ⟨asked, -, hm, -⟩ := Context.evaluate_records Standard.context e s []
  change Standard.context.Made _ s asked (s.eval e) at hm
  rw [← Instruction.findSome?_asks]
  rcases hr : s.eval e with ⟨failed | value, t⟩
  · rw [hr] at hm
    obtain ⟨hf, hd⟩ := hm
    rw [hd.findSome?_eq_some (h.failsAt hf)]
    simp
  · rw [hr] at hm
    obtain ⟨ha, hd⟩ := hm
    rw [← hd, (h.answers ha).2]
    simp

theorem Standard.Knows.eval_ok_iff (h : s.Knows bound) (e : Expr) :
    (∃ value, (s.eval e).1 = .ok value) ↔
      ∀ part : Expr, part.Occurs e → part.root.offence? bound = none := by
  have hn : (∃ value, (s.eval e).1 = .ok value) ↔
      e.postorder.findSome? (Instruction.offence? bound) = none := by
    rw [Option.eq_none_iff_forall_ne_some]
    simp only [ne_eq, ← h.eval_error_iff e]
    cases (s.eval e).1 <;> simp
  rw [hn, List.findSome?_eq_none_iff]
  constructor
  · exact fun h part hp => h _ hp.root_mem
  · intro h i hi
    obtain ⟨part, hp, rfl⟩ := Expr.mem_postorder.mp hi
    exact h part hp

/-- Without host functions an expression has a value exactly when each variable in it is bound
or a constant and each function a built-in one that takes as many arguments. Otherwise the error
is that of the first node in postorder that breaks this. No body of a built-in function lacks an
argument, and none but the accepted numbers of arguments reach it. -/
theorem eval_decided_by_names (h : s.Knows bound) (e : Expr) :
    ((∃ value, (s.eval e).1 = .ok value) ↔
      (∀ name, (Expr.var name).Occurs e → bound name = true ∨ name ∈ Standard.constants) ∧
      ∀ callee args, (Expr.call callee args).Occurs e → ∃ builtin,
        Builtin.named? callee = some builtin ∧ builtin.arity.accepts args.length = true) ∧
    (∀ error, (s.eval e).1 = .error error ↔
      ∃ before i after, e.postorder = before ++ i :: after ∧ i.offence? bound = some error ∧
        ∀ j ∈ before, j.offence? bound = none) ∧
    (∀ name args error, (s.call name args).1 = .error error ↔
      (Instruction.call name args.length).offence? bound = some error) ∧
    ∀ (builtin : Builtin) draw args,
      (builtin.invoke? draw args).isSome = builtin.arity.accepts args.length := by
  refine ⟨?_, fun error => ?_, fun name args error => ?_, fun builtin draw args => ?_⟩
  · rw [h.eval_ok_iff]
    constructor
    · intro ho
      refine ⟨fun name hp => ?_, fun callee args hp => ?_⟩
      · exact Instruction.offence?_load_eq_none.mp (ho _ hp)
      · exact Instruction.offence?_call_eq_none.mp (ho _ hp)
    · rintro ⟨hv, hf⟩ part hp
      cases part with
      | var name => exact Instruction.offence?_load_eq_none.mpr (hv name hp)
      | call callee args => exact Instruction.offence?_call_eq_none.mpr (hf callee args hp)
      | num value => rfl
      | neg operand => rfl
      | binary op lhs rhs => rfl
  · rw [h.eval_error_iff, List.findSome?_eq_some_iff]
  · exact h.ask_error_iff (.call name args)
  · exact Builtin.isSome_invoke? draw builtin args

def oneVariable : Standard := (Standard.fresh fun _ => 0).setVariable "x" 2

/-- In `pow(x) + q` the call comes before the unknown name. -/
theorem eval_decided_by_names_call :
    oneVariable.Knows (· = "x") ∧
      (oneVariable.eval (.binary .add (.call "pow" [.var "x"]) (.var "q"))).1 =
        .error (.wrongArity "pow" (.exactly 2) 1) := by
  have known : oneVariable.Knows (· = "x") := by
    refine ⟨fun name => ?_, fun name => rfl⟩
    simp only [oneVariable, Standard.setVariable, Bindings.get?_set]
    split <;> simp_all [Standard.fresh]
  refine ⟨known, ((eval_decided_by_names known _).2.1 _).mpr ?_⟩
  exact ⟨[.load "x"], .call "pow" 1, [.load "q", .apply .add], rfl, rfl, by decide⟩

end FormulaLang
