import FormulaLang.CommandLine.Outcome
import FormulaLang.Proofs.Evaluation.Requests
import Mathlib.Data.List.Forall2
import Mathlib.Data.List.TakeDrop
import Mathlib.Data.List.TakeWhile

/-!
# Depths and definitions

What the texts given with the options mean, said of the texts alone: which of them are depths
and definitions, and what is wrong with the others. The readers give exactly these answers.
-/
namespace FormulaLang

open Text (isBlank)

/-! ## Depths -/

def unsignedDepth : List Char → List Char
  | '+' :: digits => digits
  | digits => digits

/-- What a text is as a depth. A number that is too large is noticed before a character behind
its digits that is none. -/
inductive ReadsDepth : List Char → Except DepthError Nat → Prop where
  | empty : ReadsDepth [] (.error .empty)
  | signAlone : ReadsDepth ['+'] (.error .invalidDigit)
  | invalidDigit {text digits c rest} : unsignedDepth text = digits ++ c :: rest →
      (∀ d ∈ digits, d.isDigit = true) → digitsValue digits < 0x10000000000000000 →
      c.isDigit = false → ReadsDepth text (.error .invalidDigit)
  | tooLarge {text digits rest} : unsignedDepth text = digits ++ rest →
      (∀ d ∈ digits, d.isDigit = true) → 0x10000000000000000 ≤ digitsValue digits →
      ReadsDepth text (.error .tooLarge)
  | depth {text} : unsignedDepth text ≠ [] → (∀ d ∈ unsignedDepth text, d.isDigit = true) →
      digitsValue (unsignedDepth text) < 0x10000000000000000 →
      ReadsDepth text (.ok (digitsValue (unsignedDepth text)))

namespace Invocation

variable {digits rest : List Char} {c : Char} {value : Nat}

def valueOnto (value : Nat) (digits : List Char) : Nat :=
  digits.foldl (fun n c => 10 * n + (c.toNat - '0'.toNat)) value

theorem le_valueOnto (value : Nat) (digits : List Char) : value ≤ valueOnto value digits := by
  induction digits generalizing value with
  | nil => exact Nat.le_refl _
  | cons c digits ih =>
    have first : value ≤ 10 * value + (c.toNat - '0'.toNat) := by omega
    exact Nat.le_trans first (ih _)

theorem readDigits_append (hd : ∀ d ∈ digits, d.isDigit = true)
    (hv : valueOnto value digits < 0x10000000000000000) :
    readDigits value (digits ++ rest) = readDigits (valueOnto value digits) rest := by
  induction digits generalizing value with
  | nil => rfl
  | cons c digits ih =>
    obtain ⟨hc, hd⟩ := List.forall_mem_cons.mp hd
    have first := Nat.lt_of_le_of_lt (le_valueOnto _ digits) hv
    rw [List.cons_append, readDigits, hc, Bool.not_true, if_neg Bool.false_ne_true,
      if_neg (Nat.not_le_of_lt first)]
    exact ih hd hv

theorem readDigits_tooLarge (hd : ∀ d ∈ digits, d.isDigit = true)
    (hi : value < 0x10000000000000000) (hv : 0x10000000000000000 ≤ valueOnto value digits) :
    readDigits value (digits ++ rest) = .error .tooLarge := by
  induction digits generalizing value with
  | nil => exact absurd hv (Nat.not_le_of_lt hi)
  | cons c digits ih =>
    obtain ⟨hc, hd⟩ := List.forall_mem_cons.mp hd
    rw [List.cons_append, readDigits, hc, Bool.not_true, if_neg Bool.false_ne_true]
    by_cases first : 0x10000000000000000 ≤ 10 * value + (c.toNat - '0'.toNat)
    · rw [if_pos first]
    · rw [if_neg first]
      exact ih hd (Nat.lt_of_not_le first) hv

theorem readDepth_unsigned {text : String} (h : unsignedDepth text.toList ≠ []) :
    readDepth text = readDigits 0 (unsignedDepth text.toList) := by
  unfold readDepth
  split
  next he => exact absurd (by rw [he]; rfl) h
  next he => exact absurd (by rw [he]; rfl) h
  next he => rw [he, unsignedDepth]
  next hn => rw [unsignedDepth.eq_2 _ hn]

theorem readDepth_eq {text : String} {result : Except DepthError Nat}
    (h : ReadsDepth text.toList result) : readDepth text = result := by
  have unsigned := @readDepth_unsigned text
  have value : ∀ digits, valueOnto 0 digits = digitsValue digits := fun _ => rfl
  generalize ht : text.toList = cs at h unsigned
  cases h with
  | empty => simp [readDepth, ht]
  | signAlone => simp [readDepth, ht]
  | invalidDigit hu hd hv hc =>
    rw [unsigned (by simp [hu]), hu, readDigits_append hd hv, readDigits, hc]
    rfl
  | @tooLarge _ digits rest hu hd hv =>
    have nonempty : digits ≠ [] := by
      rintro rfl
      exact absurd hv (by decide)
    rw [unsigned (by simp [hu, nonempty]), hu, readDigits_tooLarge hd (by decide) hv]
  | depth hn hd hv =>
    have all := @readDigits_append _ [] _ hd hv
    rw [List.append_nil] at all
    rw [unsigned hn, all, readDigits, value]

theorem exists_readsDepth (text : List Char) : ∃ result, ReadsDepth text result := by
  by_cases hn : unsignedDepth text = []
  · unfold unsignedDepth at hn
    split at hn
    next => exact hn ▸ ⟨_, .signAlone⟩
    next => exact hn ▸ ⟨_, .empty⟩
  have split := List.takeWhile_append_dropWhile (p := Char.isDigit) (l := unsignedDepth text)
  have hd : ∀ d ∈ (unsignedDepth text).takeWhile Char.isDigit, d.isDigit = true :=
    fun d hd => List.mem_takeWhile_imp hd
  by_cases hv : 0x10000000000000000 ≤ digitsValue ((unsignedDepth text).takeWhile Char.isDigit)
  · exact ⟨_, .tooLarge split.symm hd hv⟩
  have hv := Nat.lt_of_not_le hv
  cases hr : (unsignedDepth text).dropWhile Char.isDigit with
  | nil =>
    rw [hr, List.append_nil] at split
    rw [split] at hd hv
    exact ⟨_, .depth hn hd hv⟩
  | cons c rest =>
    rw [hr] at split
    have hc : c.isDigit = false := by
      have stop := List.head?_dropWhile_not Char.isDigit (unsignedDepth text)
      rwa [hr] at stop
    exact ⟨_, .invalidDigit split.symm hd hv hc⟩

end Invocation

inductive ReadsLimit : Option String → Except String ParseOptions → Prop where
  | unlimited : ReadsLimit none (.ok ⟨none⟩)
  | limit {text depth} : ReadsDepth text.toList (.ok depth) →
      ReadsLimit (some text) (.ok ⟨some depth⟩)
  | error {text error} : ReadsDepth text.toList (.error error) →
      ReadsLimit (some text) (.error s!"invalid --max-depth '{text}': {error.message}")

namespace ReadsLimit

variable {i : Invocation} {result : Except String ParseOptions}

theorem parseOptions (h : ReadsLimit i.maxDepth result) : i.parseOptions = result := by
  unfold Invocation.parseOptions
  generalize i.maxDepth = depth at h
  cases h with
  | unlimited => rfl
  | limit hd => simp only [Invocation.readDepth_eq hd]
  | error hd => simp only [Invocation.readDepth_eq hd]

theorem total (depth : Option String) : ∃ result, ReadsLimit depth result := by
  cases depth with
  | none => exact ⟨_, .unlimited⟩
  | some text =>
    obtain ⟨result, h⟩ := Invocation.exists_readsDepth text.toList
    cases result with
    | ok depth => exact ⟨_, .limit h⟩
    | error error => exact ⟨_, .error h⟩

end ReadsLimit

/-! ## Definitions -/

/-- The second text is the first one without the white space around it. -/
def Trims (text inner : List Char) : Prop :=
  ∃ front back, text = front ++ (inner ++ back) ∧ (∀ c ∈ front, isBlank c = true) ∧
    (∀ c ∈ back, isBlank c = true) ∧ (∀ c ∈ inner.head?, isBlank c = false) ∧
    ∀ c ∈ inner.getLast?, isBlank c = false

namespace Trims

variable {text front inner rest : List Char}

theorem dropWhile_front (hf : ∀ c ∈ front, isBlank c = true)
    (hr : ∀ c ∈ rest.head?, isBlank c = false) : (front ++ rest).dropWhile isBlank = rest := by
  rw [List.dropWhile_append_of_pos hf]
  cases rest with
  | nil => rfl
  | cons c rest => rw [List.dropWhile_cons_of_neg (by simp [hr c rfl])]

theorem trim (h : Trims text inner) : Invocation.trim text = inner := by
  obtain ⟨front, back, rfl, hf, hb, hh, hl⟩ := h
  have back_reverse : ∀ c ∈ back.reverse, isBlank c = true := fun c hc =>
    hb c (List.mem_reverse.mp hc)
  unfold Invocation.trim
  cases inner with
  | nil =>
    rw [List.nil_append, List.dropWhile_append_of_pos hf, List.dropWhile_eq_nil_iff.mpr hb]
    rfl
  | cons c inner =>
    rw [dropWhile_front hf (by simpa using hh), List.reverse_append,
      dropWhile_front back_reverse (by rwa [List.head?_reverse]), List.reverse_reverse]

theorem not_blank_dropWhile (text : List Char) :
    ∀ c ∈ (text.dropWhile isBlank).head?, isBlank c = false := by
  intro c hc
  have stop := List.head?_dropWhile_not isBlank text
  rwa [hc] at stop

theorem trims_trim (text : List Char) : Trims text (Invocation.trim text) := by
  have front := List.takeWhile_append_dropWhile (p := isBlank) (l := text)
  have head := not_blank_dropWhile text
  unfold Invocation.trim
  generalize text.dropWhile isBlank = kept at front head ⊢
  have back := congrArg List.reverse
    (List.takeWhile_append_dropWhile (p := isBlank) (l := kept.reverse))
  rw [List.reverse_append, List.reverse_reverse] at back
  have last := not_blank_dropWhile kept.reverse
  generalize kept.reverse.dropWhile isBlank = inner at back last ⊢
  refine ⟨text.takeWhile isBlank, (kept.reverse.takeWhile isBlank).reverse, ?_, ?_, ?_, ?_, ?_⟩
  · rw [back, front]
  · exact fun c hc => List.mem_takeWhile_imp hc
  · exact fun c hc => List.mem_takeWhile_imp (List.mem_reverse.mp hc)
  · intro c hc
    refine head c ?_
    rw [← back, List.head?_append, Option.mem_def.mp hc]
    rfl
  · rwa [List.getLast?_reverse]

end Trims

/-- What a text is as a definition: the name in front of the first equals sign and the number
behind it, both without white space around them, or the message about it. -/
inductive ReadsDefinition (definition : String) : Except String (String × Float) → Prop where
  | unequal : '=' ∉ definition.toList →
      ReadsDefinition definition (.error s!"expected name=value, got '{definition}'")
  | invalid {name value number error} : definition.toList = name ++ '=' :: value →
      '=' ∉ name → Trims value number → Literal.read number = .error error →
      ReadsDefinition definition
        (.error s!"invalid value for '{String.ofList name}': {error.message}")
  | defines {name value inner number x} : definition.toList = name ++ '=' :: value →
      '=' ∉ name → Trims name inner → Trims value number → Literal.read number = .ok x →
      ReadsDefinition definition (.ok (String.ofList inner, x))

theorem span_equals {name rest : List Char} (hn : '=' ∉ name)
    (hr : ∀ c ∈ rest.head?, c = '=') : (name ++ rest).span (· ≠ '=') = (name, rest) := by
  have front : ∀ c ∈ name, decide (c ≠ '=') = true := fun c hc =>
    decide_eq_true fun he => hn (he ▸ hc)
  rw [List.span_eq_takeWhile_dropWhile, List.takeWhile_append_of_pos front,
    List.dropWhile_append_of_pos front]
  cases rest with
  | nil => simp
  | cons c rest => simp [hr c rfl]

namespace ReadsDefinition

variable {definition : String} {result : Except String (String × Float)}

/-- The reader keeps the white space around the name, which binding it takes off. -/
theorem readDefinition (h : ReadsDefinition definition result) :
    (Invocation.readDefinition definition).map
      (fun binding => (String.ofList (Invocation.trim binding.1.toList), binding.2)) = result := by
  unfold Invocation.readDefinition
  cases h with
  | unequal hn =>
    have span := @span_equals _ [] hn (by simp)
    rw [List.append_nil] at span
    simp only [span]
    rfl
  | @invalid name value number error hs hn hv hx =>
    have span := @span_equals _ ('=' :: value) hn (by simp)
    simp only [hs, span, hv.trim, hx]
    rfl
  | @defines name value inner number x hs hn hi hv hx =>
    have span := @span_equals _ ('=' :: value) hn (by simp)
    simp only [hs, span, hv.trim, hx]
    rw [Except.map, String.toList_ofList, hi.trim]

theorem total (definition : String) : ∃ result, ReadsDefinition definition result := by
  by_cases he : '=' ∈ definition.toList
  · obtain ⟨name, value, hs, hn⟩ := List.eq_append_cons_of_mem he
    cases hx : Literal.read (Invocation.trim value) with
    | error error => exact ⟨_, .invalid hs hn (Trims.trims_trim value) hx⟩
    | ok x => exact ⟨_, .defines hs hn (Trims.trims_trim name) (Trims.trims_trim value) hx⟩
  · exact ⟨_, .unequal he⟩

end ReadsDefinition

abbrev DefinesAll : List String → List (String × Float) → Prop :=
  List.Forall₂ fun definition binding => ReadsDefinition definition (.ok binding)

def Standard.defining (draws : Nat → Float) (bindings : List (String × Float)) : Standard :=
  bindings.foldl (fun context binding => context.setVariable binding.1 binding.2) (.fresh draws)

theorem DefinesAll.total (definitions : List String) :
    (∃ bindings, DefinesAll definitions bindings) ∨
      ∃ good bindings bad rest message, definitions = good ++ bad :: rest ∧
        DefinesAll good bindings ∧ ReadsDefinition bad (.error message) := by
  induction definitions with
  | nil => exact .inl ⟨[], .nil⟩
  | cons definition definitions ih =>
    obtain ⟨result, h⟩ := ReadsDefinition.total definition
    cases result with
    | error message => exact .inr ⟨[], [], definition, definitions, message, rfl, .nil, h⟩
    | ok binding =>
      rcases ih with ⟨bindings, hb⟩ | ⟨good, bindings, bad, rest, message, rfl, hg, hm⟩
      · exact .inl ⟨_, .cons h hb⟩
      · exact .inr ⟨_, _, bad, rest, message, rfl, .cons h hg, hm⟩

namespace Invocation

variable {definition message : String} {definitions good rest : List String}
  {binding : String × Float} {bindings : List (String × Float)}

theorem bind_cons_ok (context : Standard) (h : ReadsDefinition definition (.ok binding)) :
    (bind context (definition :: definitions)).2 =
      (bind (context.setVariable binding.1 binding.2) definitions).2 := by
  have hr := h.readDefinition
  rw [bind]
  cases hd : readDefinition definition with
  | error message =>
    rw [hd] at hr
    cases hr
  | ok found =>
    rw [hd] at hr
    cases hr
    rfl

theorem bind_ok (context : Standard) (h : DefinesAll definitions bindings) :
    (bind context definitions).2 = .ok (bindings.foldl
      (fun context binding => context.setVariable binding.1 binding.2) context) := by
  induction h generalizing context with
  | nil => rfl
  | cons h _ ih => rw [bind_cons_ok context h, ih, List.foldl_cons]

theorem bind_error (context : Standard) (h : DefinesAll good bindings)
    (hb : ReadsDefinition definition (.error message)) :
    (bind context (good ++ definition :: rest)).2 = .error message := by
  induction h generalizing context with
  | nil =>
    have hr := hb.readDefinition
    rw [List.nil_append, bind]
    cases hd : readDefinition definition with
    | error other =>
      rw [hd] at hr
      cases hr
      rfl
    | ok found =>
      rw [hd] at hr
      cases hr
  | cons h _ ih => rw [List.cons_append, bind_cons_ok context h, ih]

end Invocation

namespace Standard

variable {draws : Nat → Float} {bindings before after : List (String × Float)} {name : String}

theorem get?_foldl (context : Standard) (h : ∀ b ∈ bindings, b.1 ≠ name) :
    (bindings.foldl (fun context binding => context.setVariable binding.1 binding.2)
      context).values.get? name = context.values.get? name := by
  induction bindings generalizing context with
  | nil => rfl
  | cons binding bindings ih =>
    obtain ⟨hb, hr⟩ := List.forall_mem_cons.mp h
    rw [List.foldl_cons, ih _ hr, setVariable, Bindings.get?_set, if_neg hb.symm]

theorem foldl_draws (context : Standard) (bindings : List (String × Float)) :
    let bound := bindings.foldl (fun context binding => context.setVariable binding.1 binding.2)
      context
    bound.draws bound.drawn = context.draws context.drawn := by
  induction bindings generalizing context with
  | nil => rfl
  | cons binding bindings ih => exact ih (context.setVariable binding.1 binding.2)

/-- The last definition of a name counts, also of the names of constants. -/
theorem resolve_defining_last (x : Float) (h : ∀ b ∈ after, b.1 ≠ name) :
    ((defining draws (before ++ (name, x) :: after)).resolve name).1 = .ok x := by
  rw [resolve_eq, defining, List.foldl_append, List.foldl_cons, get?_foldl _ h, setVariable,
    Bindings.get?_set, if_pos rfl]

theorem resolve_defining_other (h : ∀ b ∈ bindings, b.1 ≠ name) :
    ((defining draws bindings).resolve name).1 = unset (draws 0) name := by
  rw [resolve_eq, defining, get?_foldl _ h, foldl_draws]
  rfl

end Standard

end FormulaLang
