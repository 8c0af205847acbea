import FormulaLang.Proofs.Expr.RoundTrip

/-!
# What a listing tells about its tree

The listing of an expression is a symbolic expression: a word, or a list in parentheses with a
word at its head. Such a text can be read in one way only. So the listings of two trees are equal
exactly when their symbolic expressions are, and a symbolic expression gives its tree back but for
two things: a negation is listed like a call of `neg`, and infinity like the variable `inf`.
-/
namespace FormulaLang

/-! ## Symbolic expressions -/

inductive Symbolic where
  | word (text : List Char)
  | list (head : List Char) (items : List Symbolic)

namespace Symbolic

mutual

def text : Symbolic → List Char
  | .word w => w
  | .list head items => '(' :: (head ++ (itemsText items ++ [')']))

/-- The texts of the items, a space before each. -/
def itemsText : List Symbolic → List Char
  | [] => []
  | item :: items => ' ' :: (text item ++ itemsText items)

end

/-- None of the characters around words is in it. -/
def IsWord (w : List Char) : Prop := ' ' ∉ w ∧ '(' ∉ w ∧ ')' ∉ w

instance (w : List Char) : Decidable (IsWord w) := inferInstanceAs (Decidable (_ ∧ _))

/-- What follows a symbolic expression inside a list, or at the end of the text. -/
def Ends (rest : List Char) : Prop := ∀ c ∈ rest.head?, c = ' ' ∨ c = ')'

mutual

/-- All words in it are words. -/
def Clean : Symbolic → Prop
  | .word w => IsWord w
  | .list head items => IsWord head ∧ AllClean items

def AllClean : List Symbolic → Prop
  | [] => True
  | item :: items => item.Clean ∧ AllClean items

end

variable {w v r r' rest : List Char} {c : Char}

theorem IsWord.tail (h : IsWord (c :: w)) : IsWord w := by
  obtain ⟨hs, ho, hc⟩ := h
  exact ⟨fun hm => hs (.tail _ hm), fun hm => ho (.tail _ hm), fun hm => hc (.tail _ hm)⟩

theorem IsWord.not_ends (h : IsWord (c :: w)) : ¬ Ends (c :: rest) := by
  intro he
  rcases he c rfl with rfl | rfl
  · exact h.1 (List.mem_cons_self ..)
  · exact h.2.2 (List.mem_cons_self ..)

/-- What follows a word shows where it ends. -/
theorem IsWord.append_inj (hw : IsWord w) (hv : IsWord v) (hr : Ends r) (hr' : Ends r')
    (h : w ++ r = v ++ r') : w = v ∧ r = r' := by
  induction w generalizing v with
  | nil =>
    cases v with
    | nil => exact ⟨rfl, h⟩
    | cons c v =>
      rw [List.nil_append] at h
      exact absurd (h ▸ hr) hv.not_ends
  | cons c w ih =>
    cases v with
    | nil =>
      rw [List.nil_append] at h
      exact absurd (h ▸ hr') hw.not_ends
    | cons d v =>
      obtain ⟨rfl, he⟩ := List.cons.inj h
      obtain ⟨rfl, rfl⟩ := ih hw.tail hv.tail he
      exact ⟨rfl, rfl⟩

theorem IsWord.ne_open (hw : IsWord w) (hr : Ends r) : w ++ r ≠ '(' :: rest := by
  intro h
  cases w with
  | nil =>
    rw [List.nil_append] at h
    subst h
    exact absurd (hr '(' rfl) (by decide)
  | cons c w =>
    obtain ⟨rfl, -⟩ := List.cons.inj h
    exact hw.2.1 (List.mem_cons_self ..)

theorem ends_items (items : List Symbolic) (rest : List Char) :
    Ends (itemsText items ++ ')' :: rest) := by
  intro c hc
  cases items with
  | nil =>
    cases hc
    exact .inr rfl
  | cons item items =>
    cases hc
    exact .inl rfl

mutual

/-- A symbolic expression ends at one place only, whatever follows it. -/
theorem text_append_inj (s t : Symbolic) (hs : s.Clean) (ht : t.Clean) {r r' : List Char}
    (hr : Ends r) (hr' : Ends r') (h : s.text ++ r = t.text ++ r') : s = t ∧ r = r' := by
  -- A list begins with a parenthesis, and neither a word nor what follows it does.
  cases s with
  | word w =>
    cases t with
    | word v =>
      obtain ⟨rfl, rfl⟩ := IsWord.append_inj hs ht hr hr' h
      exact ⟨rfl, rfl⟩
    | list head items => exact absurd h (IsWord.ne_open hs hr)
  | list head items =>
    cases t with
    | word v => exact absurd h.symm (IsWord.ne_open ht hr')
    | list head' items' =>
      obtain ⟨hw, hi⟩ := hs
      obtain ⟨hw', hi'⟩ := ht
      simp only [text, List.cons_append, List.append_assoc, List.nil_append, List.cons.injEq,
        true_and] at h
      obtain ⟨rfl, he⟩ := hw.append_inj hw' (ends_items items r) (ends_items items' r') h
      obtain ⟨rfl, rfl⟩ := itemsText_append_inj items items' hi hi' he
      exact ⟨rfl, rfl⟩

theorem itemsText_append_inj (ss ts : List Symbolic) (hs : AllClean ss) (ht : AllClean ts)
    {r r' : List Char} (h : itemsText ss ++ ')' :: r = itemsText ts ++ ')' :: r') :
    ss = ts ∧ r = r' := by
  cases ss with
  | nil =>
    cases ts with
    | nil => exact ⟨rfl, (List.cons.inj h).2⟩
    | cons t ts => exact absurd (List.cons.inj h).1 (by decide)
  | cons s ss =>
    cases ts with
    | nil => exact absurd (List.cons.inj h).1 (by decide)
    | cons t ts =>
      obtain ⟨hs, hss⟩ := hs
      obtain ⟨ht, hts⟩ := ht
      simp only [itemsText, List.cons_append, List.append_assoc, List.cons.injEq, true_and] at h
      obtain ⟨rfl, he⟩ := text_append_inj s t hs ht (ends_items ss r) (ends_items ts r') h
      obtain ⟨rfl, rfl⟩ := itemsText_append_inj ss ts hss hts he
      exact ⟨rfl, rfl⟩

end

theorem text_inj {s t : Symbolic} (hs : s.Clean) (ht : t.Clean) (h : s.text = t.text) :
    s = t := by
  have nothing : Ends [] := by simp [Ends]
  refine (text_append_inj s t hs ht nothing nothing ?_).1
  rw [List.append_nil, List.append_nil, h]

end Symbolic

/-! ## Listings are symbolic expressions -/

namespace Expr

mutual

def symbolic : Expr → Symbolic
  | .num value => .word (NumberFormat.plain.write value).toList
  | .var name => .word name.toList
  | .call callee args => .list callee.toList (argsSymbolic args)
  | .neg operand => .list "neg".toList [symbolic operand]
  | .binary op lhs rhs => .list [op.symbol] [symbolic lhs, symbolic rhs]

def argsSymbolic : List Expr → List Symbolic
  | [] => []
  | arg :: args => symbolic arg :: argsSymbolic args

end

mutual

theorem toList_listing (e : Expr) : e.listing.toList = e.symbolic.text := by
  cases e with
  | num value => rfl
  | var name => rfl
  | call callee args => simp [listing, symbolic, Symbolic.text, toList_argsListing args]
  | neg operand =>
    simp [listing, symbolic, Symbolic.text, Symbolic.itemsText, toList_listing operand]
  | binary op lhs rhs =>
    simp [listing, symbolic, Symbolic.text, Symbolic.itemsText, toList_listing lhs,
      toList_listing rhs]

theorem toList_argsListing (args : List Expr) :
    (argsListing args).toList = Symbolic.itemsText (argsSymbolic args) := by
  cases args with
  | nil => rfl
  | cons arg args =>
    simp [argsListing, argsSymbolic, Symbolic.itemsText, toList_listing arg,
      toList_argsListing args]

end

/-! ## Two things listed alike -/

def isInfinity (value : Float) : Bool :=
  Magnitude.ofFloat value = Magnitude.infinite && !Magnitude.isNegative value

mutual

/-- The tree with a call of `neg` for each negation and the variable `inf` for infinity. -/
def conflated : Expr → Expr
  | .num value => if isInfinity value then .var "inf" else .num value
  | .var name => .var name
  | .call callee args => .call callee (argsConflated args)
  | .neg operand => .call "neg" [conflated operand]
  | .binary op lhs rhs => .binary op (conflated lhs) (conflated rhs)

def argsConflated : List Expr → List Expr
  | [] => []
  | arg :: args => conflated arg :: argsConflated args

end

theorem write_infinity {value : Float} (h : isInfinity value = true) :
    NumberFormat.plain.write value = "inf" := by
  simp only [isInfinity, Bool.and_eq_true, decide_eq_true_eq, Bool.not_eq_true'] at h
  obtain ⟨hr, hs⟩ := h
  simp [NumberFormat.write, NumberFormat.magnitudeText, hr, hs]

theorem numberWritten_finite {value : Float} (h : isInfinity value = false) :
    numberWritten value = NumberFormat.plain.write value := by
  simp only [isInfinity] at h
  simp [numberWritten, h]

mutual

theorem symbolic_conflated (e : Expr) : e.conflated.symbolic = e.symbolic := by
  cases e with
  | num value =>
    by_cases hi : isInfinity value = true
    · simp [conflated, symbolic, hi, write_infinity hi]
    · simp [conflated, symbolic, hi]
  | var name => rfl
  | call callee args => rw [conflated, symbolic, argsSymbolic_conflated args, symbolic]
  | neg operand =>
    simp [conflated, symbolic, argsSymbolic, symbolic_conflated operand]
  | binary op lhs rhs =>
    rw [conflated, symbolic, symbolic_conflated lhs, symbolic_conflated rhs, symbolic]

theorem argsSymbolic_conflated (args : List Expr) :
    argsSymbolic (argsConflated args) = argsSymbolic args := by
  cases args with
  | nil => rfl
  | cons arg args =>
    rw [argsConflated, argsSymbolic, symbolic_conflated arg, argsSymbolic_conflated args,
      argsSymbolic]

end

end Expr

/-! ## Trees of symbolic expressions -/

theorem IsName.part {w : List Char} {c : Char} (h : IsName w) (hc : c ∈ w) :
    Text.isNamePart c = true := by
  obtain ⟨d, t, rfl, hd, ht⟩ := h
  rcases List.mem_cons.mp hc with rfl | hc
  · by_contra hn
    rw [isNameStart_of_isNamePart (by simpa using hn)] at hd
    cases hd
  · exact ht c hc

theorem isName_inf : IsName "inf".toList :=
  ⟨'i', ['n', 'f'], rfl, by decide +kernel, List.all_eq_true.mp (by decide +kernel)⟩

namespace Symbolic

/-- The tree of a word. The first character tells numbers from names. -/
def wordExpr (w : List Char) : Expr :=
  if w.head?.any Text.isNumberStart then
    match Literal.read w with
    | .ok value => .num value
    | .error _ => .var (String.ofList w)
  else .var (String.ofList w)

/-- The tree of a list: an operation of two operands, or a call. -/
def listExpr (head : List Char) (args : List Expr) : Expr :=
  match head, args with
  | [c], [lhs, rhs] =>
    match (Token.ofChar c).operation? with
    | some op => .binary op lhs rhs
    | none => .call (String.ofList [c]) [lhs, rhs]
  | head, args => .call (String.ofList head) args

mutual

def expr : Symbolic → Expr
  | .word w => wordExpr w
  | .list head items => listExpr head (itemsExpr items)

def itemsExpr : List Symbolic → List Expr
  | [] => []
  | item :: items => expr item :: itemsExpr items

end

theorem isWord_of_class {w : List Char} (p : Char → Bool) (h : ∀ c ∈ w, p c = true)
    (space : p ' ' = false) (opening : p '(' = false) (closing : p ')' = false) : IsWord w := by
  refine ⟨fun hm => ?_, fun hm => ?_, fun hm => ?_⟩
  · exact absurd (h ' ' hm) (Bool.eq_false_iff.mp space)
  · exact absurd (h '(' hm) (Bool.eq_false_iff.mp opening)
  · exact absurd (h ')' hm) (Bool.eq_false_iff.mp closing)

theorem isWord_name {w : List Char} (h : IsName w) : IsWord w :=
  isWord_of_class Text.isNamePart (fun _ => h.part) (by decide +kernel) (by decide +kernel)
    (by decide +kernel)

theorem isWord_numeral {w : List Char} (h : IsNumeral w) : IsWord w :=
  isWord_of_class Text.isNumberStart (fun _ => h.start) (by decide) (by decide) (by decide)

theorem isNumberStart_of_isNameStart {c : Char} (h : Text.isNameStart c = true) :
    Text.isNumberStart c = false := by
  by_contra hn
  rw [Text.isNameStart_of_numberStart (by simpa using hn)] at h
  cases h

theorem wordExpr_name {w : List Char} (h : IsName w) : wordExpr w = .var (String.ofList w) := by
  obtain ⟨c, t, rfl, hc, -⟩ := h
  simp [wordExpr, isNumberStart_of_isNameStart hc]

theorem wordExpr_numeral {w : List Char} {value : Float} (h : IsNumeral w)
    (hv : Literal.read w = .ok value) : wordExpr w = .num value := by
  obtain ⟨c, t, rfl⟩ := List.exists_cons_of_ne_nil h.nonempty
  simp [wordExpr, h.start (List.mem_cons_self ..), hv]

theorem operation?_name {c : Char} (h : Text.isNamePart c = true) :
    (Token.ofChar c).operation? = none := by
  have symbol {d : Char} (hd : d ∈ symbols) : c ≠ d := by
    rintro rfl
    rw [(symbols_classes hd).1] at h
    cases h
  unfold Token.ofChar
  rw [if_neg (symbol (by decide)), if_neg (symbol (by decide)), if_neg (symbol (by decide)),
    if_neg (symbol (by decide))]
  repeat' split
  all_goals rfl

theorem listExpr_name {head : List Char} (h : IsName head) (args : List Expr) :
    listExpr head args = .call (String.ofList head) args := by
  unfold listExpr
  split
  next c lhs rhs =>
    rw [operation?_name (h.part (List.mem_cons_self ..))]
  next => rfl

theorem listExpr_symbol (op : BinaryOp) (lhs rhs : Expr) :
    listExpr [op.symbol] [lhs, rhs] = .binary op lhs rhs := by
  cases op <;> rfl

end Symbolic

namespace Expr

mutual

theorem clean_symbolic (e : Expr) (h : e.WellFormed) : e.symbolic.Clean := by
  cases e with
  | num value =>
    by_cases hi : isInfinity value = true
    · rw [symbolic, write_infinity hi]
      exact Symbolic.isWord_name isName_inf
    · rw [symbolic, ← numberWritten_finite (Bool.eq_false_iff.mpr hi)]
      exact Symbolic.isWord_numeral (numberWritten_writes h).isNumeral
  | var name => exact Symbolic.isWord_name h
  | call callee args =>
    obtain ⟨hc, ha⟩ := h
    exact ⟨Symbolic.isWord_name hc, clean_argsSymbolic args ha⟩
  | neg operand => exact ⟨by decide, clean_symbolic operand h, trivial⟩
  | binary op lhs rhs =>
    obtain ⟨hl, hr⟩ := h
    exact ⟨by cases op <;> decide, clean_symbolic lhs hl, clean_symbolic rhs hr, trivial⟩

theorem clean_argsSymbolic (args : List Expr) (h : AllWellFormed args) :
    Symbolic.AllClean (argsSymbolic args) := by
  cases args with
  | nil => trivial
  | cons arg args =>
    obtain ⟨ha, hs⟩ := h
    exact ⟨clean_symbolic arg ha, clean_argsSymbolic args hs⟩

end

mutual

theorem expr_symbolic (e : Expr) (h : e.WellFormed) : e.symbolic.expr = e.conflated := by
  cases e with
  | num value =>
    by_cases hi : isInfinity value = true
    · rw [symbolic, conflated, if_pos hi, write_infinity hi, Symbolic.expr]
      exact Symbolic.wordExpr_name isName_inf
    · rw [symbolic, conflated, if_neg hi, ← numberWritten_finite (Bool.eq_false_iff.mpr hi)]
      exact Symbolic.wordExpr_numeral (numberWritten_writes h).isNumeral (read_numberWritten h)
  | var name =>
    rw [symbolic, conflated, Symbolic.expr, Symbolic.wordExpr_name h, String.ofList_toList]
  | call callee args =>
    obtain ⟨hc, ha⟩ := h
    rw [symbolic, conflated, Symbolic.expr, Symbolic.listExpr_name hc, String.ofList_toList,
      itemsExpr_argsSymbolic args ha]
  | neg operand =>
    rw [symbolic, conflated, Symbolic.expr, Symbolic.itemsExpr, Symbolic.itemsExpr,
      expr_symbolic operand h]
    rfl
  | binary op lhs rhs =>
    obtain ⟨hl, hr⟩ := h
    rw [symbolic, conflated, Symbolic.expr, Symbolic.itemsExpr, Symbolic.itemsExpr,
      Symbolic.itemsExpr, expr_symbolic lhs hl, expr_symbolic rhs hr, Symbolic.listExpr_symbol]

theorem itemsExpr_argsSymbolic (args : List Expr) (h : AllWellFormed args) :
    Symbolic.itemsExpr (argsSymbolic args) = argsConflated args := by
  cases args with
  | nil => rfl
  | cons arg args =>
    obtain ⟨ha, hs⟩ := h
    rw [argsSymbolic, Symbolic.itemsExpr, expr_symbolic arg ha, itemsExpr_argsSymbolic args hs,
      argsConflated]

end

end Expr

/-- The listings of two trees that a parse can return are equal exactly when the trees are, up to
negations and calls of `neg` and to infinity and the variable `inf`. -/
theorem listing_eq_iff :
    (∀ e f : Expr, e.WellFormed → f.WellFormed →
      (e.listing = f.listing ↔ e.conflated = f.conflated)) ∧
    ∀ options options' source source' e f, (parseSource options source).result = .ok e →
      (parseSource options' source').result = .ok f →
      (e.listing = f.listing ↔ e.conflated = f.conflated) := by
  have listed : ∀ e f : Expr, e.WellFormed → f.WellFormed →
      (e.listing = f.listing ↔ e.conflated = f.conflated) := by
    intro e f he hf
    constructor
    · intro h
      have text : e.symbolic.text = f.symbolic.text := by
        rw [← Expr.toList_listing, ← Expr.toList_listing, h]
      have same : e.symbolic = f.symbolic :=
        Symbolic.text_inj (Expr.clean_symbolic e he) (Expr.clean_symbolic f hf) text
      rw [← Expr.expr_symbolic e he, ← Expr.expr_symbolic f hf, same]
    · -- The conflated tree has the same listing.
      intro h
      apply String.toList_injective
      rw [Expr.toList_listing, Expr.toList_listing, ← Expr.symbolic_conflated e, h,
        Expr.symbolic_conflated f]
  refine ⟨listed, fun options options' source source' e f he hf => ?_⟩
  exact listed e f (parseSource_wellFormed he) (parseSource_wellFormed hf)

/-- A negation and infinity in a sum. -/
def negatedPlusInfinity : Expr :=
  .binary .add (.neg (.var "inf")) (.num Magnitude.infinity)

/-- The listing of `neg(inf) + inf` is the same. -/
theorem listing_eq_iff_negatedPlusInfinity :
    negatedPlusInfinity.WellFormed ∧
      (Expr.binary .add (.call "neg" [.var "inf"]) (.var "inf")).WellFormed ∧
      negatedPlusInfinity.listing =
        (Expr.binary .add (.call "neg" [.var "inf"]) (.var "inf")).listing := by
  have neg : IsName "neg".toList :=
    ⟨'n', ['e', 'g'], rfl, by decide +kernel, List.all_eq_true.mp (by decide +kernel)⟩
  have negated : negatedPlusInfinity.WellFormed :=
    ⟨isName_inf, Magnitude.isNonnegative_toFloat (Nat.le_refl _)⟩
  have called : (Expr.binary .add (.call "neg" [.var "inf"]) (.var "inf")).WellFormed :=
    ⟨⟨neg, isName_inf, trivial⟩, isName_inf⟩
  have infinite : Expr.isInfinity Magnitude.infinity = true := by decide +kernel
  refine ⟨negated, called, (listing_eq_iff.1 _ _ negated called).mpr ?_⟩
  simp [negatedPlusInfinity, Expr.conflated, Expr.argsConflated, infinite]

end FormulaLang
