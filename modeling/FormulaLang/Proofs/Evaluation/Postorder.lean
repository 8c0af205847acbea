import FormulaLang.Expr.StackMachine

/-!
# Evaluating is running the postorder

In every lawful monad the stack machine does to a context what evaluation does: the postorder of
an expression, in front of any other instructions and on top of any stack, leaves the value of
the expression on the stack. A stack of trees is left with the expression itself, so a postorder
has no other tree.
-/
namespace FormulaLang

/-- The arguments of a call lie on the stack with the last one on top. -/
theorem take_drop_arguments {α : Type} (args rest : List α) :
    (args.reverse ++ rest).take args.length = args.reverse ∧
      (args.reverse ++ rest).drop args.length = rest :=
  ⟨List.take_left' List.length_reverse, List.drop_left' List.length_reverse⟩

/-! ## Rebuilding the tree -/

namespace Expr

theorem argsPostorder_append (args more : List Expr) :
    argsPostorder (args ++ more) = argsPostorder args ++ argsPostorder more := by
  induction args with
  | nil => rfl
  | cons arg args ih => simp [argsPostorder, ih]

theorem argsPostorder_reverse_cons (e : Expr) (trees : List Expr) :
    argsPostorder (e :: trees).reverse = argsPostorder trees.reverse ++ e.postorder := by
  simp [argsPostorder_append, argsPostorder]

theorem stack?_call (callee : String) (args trees : List Expr) :
    stack? (args.reverse ++ trees) (.call callee args.length) =
      some (.call callee args :: trees) := by
  obtain ⟨top, below⟩ := take_drop_arguments args trees
  simp [stack?, top, below]

mutual

theorem foldlM_postorder (e : Expr) (rest : List Instruction) (trees : List Expr) :
    (e.postorder ++ rest).foldlM stack? trees = rest.foldlM stack? (e :: trees) := by
  cases e with
  | num value => rfl
  | var name => rfl
  | call callee args =>
    rw [postorder, List.append_assoc, foldlM_argsPostorder, List.singleton_append,
      List.foldlM_cons, stack?_call]
    rfl
  | neg operand =>
    rw [postorder, List.append_assoc, foldlM_postorder]
    rfl
  | binary op lhs rhs =>
    rw [postorder, List.append_assoc, List.append_assoc, foldlM_postorder, foldlM_postorder]
    rfl

theorem foldlM_argsPostorder (args : List Expr) (rest : List Instruction) (trees : List Expr) :
    (argsPostorder args ++ rest).foldlM stack? trees =
      rest.foldlM stack? (args.reverse ++ trees) := by
  cases args with
  | nil => rfl
  | cons arg args =>
    rw [argsPostorder, List.append_assoc, foldlM_postorder, foldlM_argsPostorder]
    simp

end

variable {trees trees' : List Expr} {instruction : Instruction} {instructions : List Instruction}

/-- No instruction is lost on the stack. -/
theorem stack?_flattens (h : stack? trees instruction = some trees') :
    argsPostorder trees'.reverse = argsPostorder trees.reverse ++ [instruction] := by
  cases instruction with
  | push value =>
    cases h
    rw [argsPostorder_reverse_cons, postorder]
  | load name =>
    cases h
    rw [argsPostorder_reverse_cons, postorder]
  | negate =>
    match trees with
    | operand :: rest =>
      cases h
      simp only [argsPostorder_reverse_cons, postorder, List.append_assoc]
  | apply op =>
    match trees with
    | rhs :: lhs :: rest =>
      cases h
      simp only [argsPostorder_reverse_cons, postorder, List.append_assoc]
  | call callee count =>
    simp only [stack?, Option.ite_none_right_eq_some] at h
    obtain ⟨enough, h⟩ := h
    cases h
    have parts : trees.reverse = (trees.drop count).reverse ++ (trees.take count).reverse := by
      rw [← List.reverse_append, List.take_append_drop]
    have length : (trees.take count).reverse.length = count := by
      rw [List.length_reverse, List.length_take, Nat.min_eq_left enough]
    rw [argsPostorder_reverse_cons, postorder, length, parts, argsPostorder_append,
      List.append_assoc]

theorem foldlM_flattens (h : instructions.foldlM stack? trees = some trees') :
    argsPostorder trees'.reverse = argsPostorder trees.reverse ++ instructions := by
  induction instructions generalizing trees with
  | nil =>
    cases h
    rw [List.append_nil]
  | cons instruction instructions ih =>
    rw [List.foldlM_cons] at h
    obtain ⟨middle, hs, h⟩ := Option.bind_eq_some_iff.mp h
    rw [ih h, stack?_flattens hs, List.append_assoc, List.singleton_append]

/-- The tree that is rebuilt is the only one with this postorder. -/
theorem ofPostorder?_eq_some_iff {e : Expr} :
    ofPostorder? instructions = some e ↔ instructions = e.postorder := by
  constructor
  · intro h
    unfold ofPostorder? at h
    split at h
    next tree hf =>
      cases h
      simpa [argsPostorder] using (foldlM_flattens hf).symm
    next => cases h
  · rintro rfl
    have hf := foldlM_postorder e [] []
    rw [List.append_nil] at hf
    simp [ofPostorder?, hf]

end Expr

/-! ## Evaluating the tree -/

variable {m : Type → Type u} [Monad m] [LawfulMonad m] {context : Context m}

/-- Arguments have as many values as there are arguments. -/
theorem evaluateArgs_bind_congr {α : Type} {args : List Expr} {f g : List Float → m α}
    (h : ∀ values, values.length = args.length → f values = g values) :
    evaluateArgs context args >>= f = evaluateArgs context args >>= g := by
  induction args generalizing f g with
  | nil => simpa [evaluateArgs] using h [] rfl
  | cons arg args ih =>
    simp only [evaluateArgs, bind_assoc, pure_bind]
    refine bind_congr fun value => ih fun values hv => ?_
    exact h (value :: values) (by simp [hv])

namespace StackMachine

variable {rest : List Instruction} {stack : List Float}

theorem run_push (value : Float) :
    run context (.push value :: rest) stack = run context rest (value :: stack) := by
  simp [run, step]

theorem run_load (name : String) : run context (.load name :: rest) stack =
    context.resolve name >>= fun value => run context rest (value :: stack) := by
  simp [run, step]

theorem run_negate (value : Float) :
    run context (.negate :: rest) (value :: stack) = run context rest (-value :: stack) := by
  simp [run, step]

theorem run_apply (op : BinaryOp) (x y : Float) :
    run context (.apply op :: rest) (y :: x :: stack) =
      run context rest (op.apply x y :: stack) := by
  simp [run, step]

theorem run_call (callee : String) (values : List Float) :
    run context (.call callee values.length :: rest) (values.reverse ++ stack) =
      context.call callee values >>= fun value => run context rest (value :: stack) := by
  obtain ⟨top, below⟩ := take_drop_arguments values stack
  simp [run, step, top, below]

mutual

theorem run_postorder (e : Expr) (rest : List Instruction) (stack : List Float) :
    run context (e.postorder ++ rest) stack =
      evaluate context e >>= fun value => run context rest (value :: stack) := by
  cases e with
  | num value => simp [Expr.postorder, evaluate, run_push]
  | var name => simp [Expr.postorder, evaluate, run_load]
  | call callee args =>
    rw [Expr.postorder, List.append_assoc, run_argsPostorder, evaluate, bind_assoc]
    refine evaluateArgs_bind_congr fun values hv => ?_
    rw [List.singleton_append, ← hv, run_call]
  | neg operand =>
    rw [Expr.postorder, List.append_assoc, run_postorder, evaluate, bind_assoc]
    simp [run_negate]
  | binary op lhs rhs =>
    rw [Expr.postorder, List.append_assoc, List.append_assoc, run_postorder, evaluate, bind_assoc]
    refine bind_congr fun x => ?_
    rw [run_postorder, bind_assoc]
    simp [run_apply]

theorem run_argsPostorder (args : List Expr) (rest : List Instruction) (stack : List Float) :
    run context (Expr.argsPostorder args ++ rest) stack =
      evaluateArgs context args >>= fun values => run context rest (values.reverse ++ stack) := by
  cases args with
  | nil => simp [Expr.argsPostorder, evaluateArgs]
  | cons arg args =>
    rw [Expr.argsPostorder, List.append_assoc, run_postorder, evaluateArgs, bind_assoc]
    refine bind_congr fun value => ?_
    rw [run_argsPostorder, bind_assoc]
    simp

end

end StackMachine

end FormulaLang
