import FormulaLang.Proofs.CommandLine.Options
import FormulaLang.Proofs.Token.ReadingAhead

/-!
# Runs of the program

A run is what the library does with what the options ask for. The relations here go through the
stages one after the other and end at the first failure; a run reports their result and, but for
a listing of tokens, nothing else.
-/
namespace FormulaLang

/-! ## Results -/

inductive ShowsTree (depth : Option String) (source : Source) : Except String Expr → Prop where
  | depth {message} : ReadsLimit depth (.error message) → ShowsTree depth source (.error message)
  | parsing {options error} : ReadsLimit depth (.ok options) →
      (parseSource options source).result = .error error →
      ShowsTree depth source (.error error.message)
  | tree {options e} : ReadsLimit depth (.ok options) →
      (parseSource options source).result = .ok e → ShowsTree depth source (.ok e)

/-- The value of an expression under a depth and definitions, or the message of the first failure:
of the depth, the definitions from left to right, the expression, its evaluation. -/
inductive Evaluates (depth : Option String) (definitions : List String) (draws : Nat → Float)
    (source : Source) : Except String Float → Prop where
  | depth {message} : ReadsLimit depth (.error message) →
      Evaluates depth definitions draws source (.error message)
  | definition {options good bindings bad rest message} : ReadsLimit depth (.ok options) →
      definitions = good ++ bad :: rest → DefinesAll good bindings →
      ReadsDefinition bad (.error message) →
      Evaluates depth definitions draws source (.error message)
  | parsing {options bindings error} : ReadsLimit depth (.ok options) →
      DefinesAll definitions bindings → (parseSource options source).result = .error error →
      Evaluates depth definitions draws source (.error error.message)
  | evaluation {options bindings e error} : ReadsLimit depth (.ok options) →
      DefinesAll definitions bindings → (parseSource options source).result = .ok e →
      ((Standard.defining draws bindings).eval e).1 = .error error →
      Evaluates depth definitions draws source (.error error.message)
  | value {options bindings e value} : ReadsLimit depth (.ok options) →
      DefinesAll definitions bindings → (parseSource options source).result = .ok e →
      ((Standard.defining draws bindings).eval e).1 = .ok value →
      Evaluates depth definitions draws source (.ok value)

/-- The lexemes of a source up to its end, or up to a failure and its message. -/
inductive ListsTokens (source : Source) : List Lexeme → Option String → Prop where
  | unreadable {error l} : Lexer.start source = (some error, l) →
      ListsTokens source [] (some error.detail)
  | failure {l lexemes m error n} : Lexer.start source = (none, l) →
      Lexer.Emits l (lexemes.map .ok) m → (∀ found ∈ lexemes, found.token.isEof = false) →
      m.next = (.error error, n) → ListsTokens source lexemes (some error.message)
  | listed {l lexemes m found n} : Lexer.start source = (none, l) →
      Lexer.Emits l (lexemes.map .ok) m → (∀ found ∈ lexemes, found.token.isEof = false) →
      m.next = (.ok found, n) → found.token.isEof = true →
      ListsTokens source (lexemes ++ [found]) none

namespace Outcome

def standardOutput (o : Outcome) : String := String.join (o.output.map (· ++ "\n"))

/-- The outcome of a run is one line, or a failure and nothing else. -/
def Reports (o : Outcome) : Except String String → Prop
  | .ok line => o.status = 0 ∧ o.standardOutput = line ++ "\n" ∧ o.failure = none
  | .error message => o.status = 1 ∧ o.standardOutput = "" ∧ o.failure = some message

theorem reports_ok {o : Outcome} {line : String} (ho : o.output = [line])
    (hf : o.failure = none) : o.Reports (.ok line) := by
  refine ⟨by rw [status, hf]; rfl, ?_, hf⟩
  rw [standardOutput, ho]
  simp

theorem reports_error {o : Outcome} {message : String} (ho : o.output = [])
    (hf : o.failure = some message) : o.Reports (.error message) := by
  refine ⟨by rw [status, hf]; rfl, ?_, hf⟩
  rw [standardOutput, ho]
  rfl

end Outcome

namespace Invocation

variable {i : Invocation} {draws : Nat → Float} {input : Source} {message : String}
  {definitions : List String}

theorem reports_of_run {result : Except String String} (h : (i.run draws input).Reports result) :
    (i.outcome draws input).Reports result := by
  cases result with
  | ok line => exact h
  | error message => exact h

theorem reports_depth (h : ReadsLimit i.maxDepth (.error message)) :
    (i.outcome draws input).Reports (.error message) := by
  apply reports_of_run
  rw [run, h.parseOptions]
  exact Outcome.reports_error rfl rfl

theorem reports_tree {result : Except String Expr} (hc : i.command = .ast)
    (h : ShowsTree i.maxDepth (i.source input) result) :
    (i.outcome draws input).Reports (result.map Expr.listing) := by
  have stages : ∀ options, ReadsLimit i.maxDepth (.ok options) →
      i.run draws input = showTree options (i.source input) := by
    intro options hl
    rw [run, hl.parseOptions, hc]
  cases h with
  | depth hd => exact reports_depth hd
  | parsing hl hp =>
    apply reports_of_run
    rw [stages _ hl]
    simp only [showTree, hp]
    exact Outcome.reports_error rfl rfl
  | tree hl hp =>
    apply reports_of_run
    rw [stages _ hl]
    simp only [showTree, hp]
    exact Outcome.reports_ok rfl rfl

theorem reports_value {result : Except String Float} (hc : i.command = .eval definitions)
    (h : Evaluates i.maxDepth definitions draws (i.source input) result) :
    (i.outcome draws input).Reports (result.map NumberFormat.plain.write) := by
  have stages : ∀ options, ReadsLimit i.maxDepth (.ok options) →
      i.run draws input = evaluate options (.fresh draws) definitions (i.source input) := by
    intro options hl
    rw [run, hl.parseOptions, hc]
  have bound : ∀ {context : Except String Standard}, (bind (.fresh draws) definitions).2 = context →
      ∃ log, bind (.fresh draws) definitions = (log, context) := fun hb => ⟨_, Prod.ext rfl hb⟩
  have defining : ∀ {bindings}, DefinesAll definitions bindings →
      (bind (.fresh draws) definitions).2 = .ok (.defining draws bindings) := bind_ok _
  cases h with
  | depth hd => exact reports_depth hd
  | definition hl hs hg hb =>
    obtain ⟨log, hb⟩ := bound (hs ▸ bind_error (.fresh draws) hg hb)
    apply reports_of_run
    rw [stages _ hl, evaluate, hb]
    exact Outcome.reports_error rfl rfl
  | parsing hl hd hp =>
    obtain ⟨log, hb⟩ := bound (defining hd)
    apply reports_of_run
    rw [stages _ hl, evaluate, hb]
    simp only [hp]
    exact Outcome.reports_error rfl rfl
  | @evaluation _ bindings e _ hl hd hp he =>
    obtain ⟨log, hb⟩ := bound (defining hd)
    apply reports_of_run
    rw [stages _ hl, evaluate, hb]
    rcases hv : (Standard.defining draws bindings).eval e with ⟨answer, after⟩
    obtain rfl : answer = _ := (congrArg Prod.fst hv).symm.trans he
    simp only [hp, hv]
    exact Outcome.reports_error rfl rfl
  | @value _ bindings e _ hl hd hp he =>
    obtain ⟨log, hb⟩ := bound (defining hd)
    apply reports_of_run
    rw [stages _ hl, evaluate, hb]
    rcases hv : (Standard.defining draws bindings).eval e with ⟨answer, after⟩
    obtain rfl : answer = _ := (congrArg Prod.fst hv).symm.trans he
    simp only [hp, hv]
    exact Outcome.reports_ok rfl rfl

end Invocation

/-! ## Every run has a result -/

theorem ShowsTree.total (depth : Option String) (source : Source) :
    ∃ result, ShowsTree depth source result := by
  obtain ⟨limit, hl⟩ := ReadsLimit.total depth
  cases limit with
  | error message => exact ⟨_, .depth hl⟩
  | ok options =>
    cases hp : (parseSource options source).result with
    | error error => exact ⟨_, .parsing hl hp⟩
    | ok e => exact ⟨_, .tree hl hp⟩

theorem Evaluates.total (depth : Option String) (definitions : List String) (draws : Nat → Float)
    (source : Source) : ∃ result, Evaluates depth definitions draws source result := by
  obtain ⟨limit, hl⟩ := ReadsLimit.total depth
  cases limit with
  | error message => exact ⟨_, .depth hl⟩
  | ok options =>
    rcases DefinesAll.total definitions with ⟨bindings, hd⟩ | ⟨good, bindings, bad, rest, message,
      hs, hg, hb⟩
    · cases hp : (parseSource options source).result with
      | error error => exact ⟨_, .parsing hl hd hp⟩
      | ok e =>
        cases he : ((Standard.defining draws bindings).eval e).1 with
        | error error => exact ⟨_, .evaluation hl hd hp he⟩
        | ok value => exact ⟨_, .value hl hd hp he⟩
    · exact ⟨_, .definition hl hs hg hb⟩

/-! ## Listings of tokens -/

namespace Invocation

theorem listTokens_error {l n : Lexer} {error : TokenError} (h : l.next = (.error error, n)) :
    listTokens l = ([], some error) := by
  rw [listTokens]
  split
  next hn => cases hn.symm.trans h; rfl
  next hn => cases hn.symm.trans h

theorem listTokens_ok {l n : Lexer} {found : Lexeme} (h : l.next = (.ok found, n)) :
    listTokens l = if found.token.isEof then ([found.listing], none)
      else (found.listing :: (listTokens n).1, (listTokens n).2) := by
  rw [listTokens]
  split
  next hn => cases hn.symm.trans h
  next hn =>
    cases hn.symm.trans h
    by_cases he : found.token.isEof = true
    · rw [dif_pos he, if_pos he]
    · rw [dif_neg he, if_neg he]

theorem listTokens_emits (l : Lexer) : ∃ (lexemes : List Lexeme) (m n : Lexer),
    Lexer.Emits l (lexemes.map .ok) m ∧ (∀ found ∈ lexemes, found.token.isEof = false) ∧
    ((∃ error, m.next = (.error error, n) ∧
        listTokens l = (lexemes.map Lexeme.listing, some error)) ∨
      ∃ found, m.next = (.ok found, n) ∧ found.token.isEof = true ∧
        listTokens l = ((lexemes ++ [found]).map Lexeme.listing, none)) := by
  induction l using listTokens.induct with
  | case1 l error n hn =>
    exact ⟨[], l, n, .nil l, List.forall_mem_nil _, .inl ⟨error, hn, listTokens_error hn⟩⟩
  | case2 l found n hn he =>
    refine ⟨[], l, n, .nil l, List.forall_mem_nil _, .inr ⟨found, hn, he, ?_⟩⟩
    rw [listTokens_ok hn, if_pos he]
    rfl
  | case3 l found n hn he _ _ _ ih =>
    obtain ⟨lexemes, m, n', hm, hl, ends⟩ := ih
    have first := listTokens_ok hn
    rw [if_neg he] at first
    refine ⟨found :: lexemes, m, n', .cons hn hm,
      List.forall_mem_cons.mpr ⟨Bool.eq_false_iff.mpr he, hl⟩, ?_⟩
    rcases ends with ⟨error, hnext, rest⟩ | ⟨last, hnext, hend, rest⟩
    · exact .inl ⟨error, hnext, by rw [first, rest]; rfl⟩
    · exact .inr ⟨last, hnext, hend, by rw [first, rest]; rfl⟩

theorem tokenize_lists (source : Source) : ∃ lexemes message,
    ListsTokens source lexemes message ∧
      tokenize source = ⟨[], lexemes.map Lexeme.listing, message⟩ := by
  rcases hs : Lexer.start source with ⟨_ | error, l⟩
  · obtain ⟨lexemes, m, n, hm, hl, ends⟩ := listTokens_emits l
    rcases ends with ⟨error, hn, hlist⟩ | ⟨found, hn, he, hlist⟩
    · exact ⟨_, _, .failure hs hm hl hn, by simp only [tokenize, hs, hlist]; rfl⟩
    · exact ⟨_, _, .listed hs hm hl hn he, by simp only [tokenize, hs, hlist]; rfl⟩
  · exact ⟨_, _, .unreadable hs, by simp only [tokenize, hs]; rfl⟩

end Invocation

/-! ## The program -/

theorem Outcome.status_iff {o : Outcome} {α : Type} {text : α → String}
    {gives : Except String α → Prop} (total : ∃ result, gives result)
    (reports : ∀ result, gives result → o.Reports (result.map text)) :
    o.status = 0 ↔ ∃ value, gives (.ok value) := by
  constructor
  · intro hs
    obtain ⟨result, h⟩ := total
    cases result with
    | ok value => exact ⟨value, h⟩
    | error message => cases hs.symm.trans (reports _ h).1
  · rintro ⟨value, h⟩
    exact (reports _ h).1

/-- An evaluation has the value that the options and the library give it, or the message of the
first failure and no output; so has a tree. A listing of tokens needs the depth to be one, but
does not depend on it. The names of the definitions hide those of the constants. -/
theorem command_line_refines_library (i : Invocation) (draws : Nat → Float) (input : Source) :
    (∀ definitions, i.command = .eval definitions →
      (∃ result, Evaluates i.maxDepth definitions draws (i.source input) result) ∧
      (∀ result, Evaluates i.maxDepth definitions draws (i.source input) result →
        (i.outcome draws input).Reports (result.map NumberFormat.plain.write)) ∧
      ((i.outcome draws input).status = 0 ↔
        ∃ value, Evaluates i.maxDepth definitions draws (i.source input) (.ok value))) ∧
    (i.command = .ast →
      (∃ result, ShowsTree i.maxDepth (i.source input) result) ∧
      (∀ result, ShowsTree i.maxDepth (i.source input) result →
        (i.outcome draws input).Reports (result.map Expr.listing)) ∧
      ((i.outcome draws input).status = 0 ↔
        ∃ e, ShowsTree i.maxDepth (i.source input) (.ok e))) ∧
    (i.command = .tokenize →
      (∀ message, ReadsLimit i.maxDepth (.error message) →
        (i.outcome draws input).Reports (.error message)) ∧
      ∀ options, ReadsLimit i.maxDepth (.ok options) → ∃ lexemes message,
        ListsTokens (i.source input) lexemes message ∧
        (i.outcome draws input).output = lexemes.map Lexeme.listing ∧
        (i.outcome draws input).failure = message ∧
        ((i.outcome draws input).status = 0 ↔ message = none)) ∧
    (∀ bindings name,
      (∀ before x after, bindings = before ++ (name, x) :: after → (∀ b ∈ after, b.1 ≠ name) →
        ((Standard.defining draws bindings).resolve name).1 = .ok x) ∧
      ((∀ b ∈ bindings, b.1 ≠ name) →
        ((Standard.defining draws bindings).resolve name).1 = Standard.unset (draws 0) name)) := by
  refine ⟨fun definitions hc => ?_, fun hc => ?_, fun hc => ⟨fun message hd => ?_,
    fun options hl => ?_⟩, fun bindings name => ⟨?_, Standard.resolve_defining_other⟩⟩
  · have total := Evaluates.total i.maxDepth definitions draws (i.source input)
    have reports := fun result => @Invocation.reports_value i draws input definitions result hc
    exact ⟨total, reports, Outcome.status_iff total reports⟩
  · have total := ShowsTree.total i.maxDepth (i.source input)
    have reports := fun result => @Invocation.reports_tree i draws input result hc
    exact ⟨total, reports, Outcome.status_iff total reports⟩
  · exact Invocation.reports_depth hd
  · have run : i.run draws input = Invocation.tokenize (i.source input) := by
      rw [Invocation.run, hl.parseOptions, hc]
    obtain ⟨lexemes, message, lists, same⟩ := Invocation.tokenize_lists (i.source input)
    rw [same] at run
    refine ⟨lexemes, message, lists, by rw [Invocation.outcome, run], by
      rw [Invocation.outcome, run], ?_⟩
    rw [Invocation.outcome, run, Outcome.status]
    cases message with
    | none => exact iff_of_true rfl rfl
    | some message => exact iff_of_false Nat.one_ne_zero (Option.some_ne_none message)
  · rintro before x after rfl latest
    exact Standard.resolve_defining_last x latest

theorem read_one : Literal.read ['1'] = .ok (Magnitude.toFloat false 0x3FF0000000000000) := by
  have digits : Literal.readDecimal? ['1'] = some ⟨1, 0⟩ := by decide +kernel
  have rank : Decimal.rank ⟨1, 0⟩ = 0x3FF0000000000000 := by decide +kernel
  simp [Literal.read, Literal.splitSign, Literal.readUnsigned?, digits, rank]

theorem readsDefinition_spaced : ReadsDefinition " é = 1"
    (.ok ("é", Magnitude.toFloat false 0x3FF0000000000000)) := by
  have blank : ∀ c ∈ [' '], Text.isBlank c = true := List.forall_mem_singleton.mpr (by decide)
  have letter : Text.isBlank 'é' = false := by decide +kernel
  have digit : Text.isBlank '1' = false := by decide +kernel
  have name : Trims [' ', 'é', ' '] ['é'] :=
    ⟨[' '], [' '], rfl, blank, blank, by simpa using letter, by simpa using letter⟩
  have number : Trims [' ', '1'] ['1'] :=
    ⟨[' '], [], rfl, blank, List.forall_mem_nil _, by simpa using digit, by simpa using digit⟩
  exact @ReadsDefinition.defines _ [' ', 'é', ' '] [' ', '1'] _ _ _ rfl (by decide) name number
    read_one

/-- An expression and its only definition. A depth that is none is reported before a definition
and an expression that are none. -/
theorem command_line_refines_library_oneDefinition :
    (Invocation.outcome ⟨0, none, some "é", .eval [" é = 1"]⟩ (fun _ => 0) (.ofText "")).Reports
      (.ok "1") ∧
    (Invocation.outcome ⟨0, some "1x", some ")", .eval ["y"]⟩ (fun _ => 0) (.ofText "")).Reports
      (.error "invalid --max-depth '1x': invalid digit found in string") := by
  have text : NumberFormat.plain.write (Magnitude.toFloat false 0x3FF0000000000000) = "1" := by
    decide +kernel
  have value : Evaluates none [" é = 1"] (fun _ => 0) (.ofText "é")
      (.ok (Magnitude.toFloat false 0x3FF0000000000000)) :=
    .value .unlimited (.cons readsDefinition_spaced .nil) parse_letter rfl
  have letter : ReadsDepth "1x".toList (.error .invalidDigit) :=
    @ReadsDepth.invalidDigit _ ['1'] 'x' [] rfl (List.forall_mem_singleton.mpr (by decide))
      (by decide) (by decide)
  have depth : Evaluates (some "1x") ["y"] (fun _ => 0) (.ofText ")")
      (.error "invalid --max-depth '1x': invalid digit found in string") :=
    .depth (.error letter)
  obtain ⟨-, reports, -⟩ := (command_line_refines_library
    ⟨0, none, some "é", .eval [" é = 1"]⟩ (fun _ => 0) (.ofText "")).1 _ rfl
  obtain ⟨-, fails, -⟩ := (command_line_refines_library
    ⟨0, some "1x", some ")", .eval ["y"]⟩ (fun _ => 0) (.ofText "")).1 _ rfl
  have one := reports _ value
  rw [Except.map, text] at one
  exact ⟨one, fails _ depth⟩

end FormulaLang
