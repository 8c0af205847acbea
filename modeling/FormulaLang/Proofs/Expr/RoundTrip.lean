import FormulaLang.Proofs.Expr.WellFormed
import FormulaLang.Proofs.Parser.Language

/-!
# Writing a formula and parsing it

The tokens of a written formula derive its tree, because parentheses stand around every operand
that binds too loosely for its place. Its text has exactly these tokens, because each name and
each number in it is followed by a symbol or by nothing. So the parser reads what was written.
-/
namespace FormulaLang

namespace Expr

/-! ## The tokens of a formula -/

def encloseTokens (needed : Bool) (ts : List Token) : List Token :=
  if needed then .openParen :: (ts ++ [.closeParen]) else ts

mutual

def writtenTokens : Expr → List Token
  | .num value => [.number value]
  | .var name => [.identifier name]
  | .call callee args => .identifier callee :: .openParen :: (argsTokens args ++ [.closeParen])
  | .neg operand => .minus :: encloseTokens operand.isOperation operand.writtenTokens
  | .binary .add lhs rhs =>
    lhs.writtenTokens ++ .plus :: encloseTokens rhs.isSum rhs.writtenTokens
  | .binary .sub lhs rhs =>
    lhs.writtenTokens ++ .minus :: encloseTokens rhs.isSum rhs.writtenTokens
  | .binary .mul lhs rhs =>
    encloseTokens lhs.isSum lhs.writtenTokens ++
      .star :: encloseTokens rhs.isOperation rhs.writtenTokens
  | .binary .div lhs rhs =>
    encloseTokens lhs.isSum lhs.writtenTokens ++
      .slash :: encloseTokens rhs.isOperation rhs.writtenTokens

def argsTokens : List Expr → List Token
  | [] => []
  | [arg] => arg.writtenTokens
  | arg :: args => arg.writtenTokens ++ .comma :: argsTokens args

end

end Expr

/-! ## Deriving a formula -/

/-- The tokens mean the tree. Only a sum is no term, and only an operation is no factor. -/
structure Means (ts : List Token) (e : Expr) : Prop where
  expression : Derives .expression ts [e]
  term : e.isSum = false → Derives .term ts [e]
  factor : e.isOperation = false → Derives .factor ts [e]

namespace Means

variable {ts us : List Token} {e l r : Expr} {token : Token} {op : BinaryOp}

theorem of_factor (h : Derives .factor ts [e]) : Means ts e :=
  ⟨.term (.factor h), fun _ => .factor h, fun _ => h⟩

/-- Parentheses make a term of a sum. -/
theorem enclosed_term (h : Means ts e) : Derives .term (Expr.encloseTokens e.isSum ts) [e] := by
  cases hs : e.isSum with
  | true => exact .factor (.group h.expression)
  | false => exact h.term hs

/-- Parentheses make a factor of an operation. -/
theorem enclosed_factor (h : Means ts e) :
    Derives .factor (Expr.encloseTokens e.isOperation ts) [e] := by
  cases ho : e.isOperation with
  | true => exact .group h.expression
  | false => exact h.factor ho

theorem sum (hl : Means ts l) (hj : Joins .expression token op) (hr : Means us r) :
    Means (ts ++ token :: Expr.encloseTokens r.isSum us) (.binary op l r) where
  expression := .sum hl.expression hj hr.enclosed_term
  term hs := by cases hj <;> cases hs
  factor ho := by cases ho

theorem product (hl : Means ts l) (hj : Joins .term token op) (hr : Means us r) :
    Means (Expr.encloseTokens l.isSum ts ++ token :: Expr.encloseTokens r.isOperation us)
      (.binary op l r) :=
  have h := .product hl.enclosed_term hj hr.enclosed_factor
  ⟨.term h, fun _ => h, fun ho => by cases ho⟩

end Means

mutual

theorem means_written (e : Expr) : Means e.writtenTokens e := by
  cases e with
  | num value => exact .of_factor (.number value)
  | var name => exact .of_factor (.name name)
  | call callee args =>
    by_cases ha : args = []
    · rw [ha]
      exact .of_factor (.emptyCall callee)
    · exact .of_factor (.call (derives_argsWritten args ha))
  | neg operand => exact .of_factor (.negation (means_written operand).enclosed_factor)
  | binary op lhs rhs =>
    have hl := means_written lhs
    have hr := means_written rhs
    cases op with
    | add => exact hl.sum .plus hr
    | sub => exact hl.sum .minus hr
    | mul => exact hl.product .star hr
    | div => exact hl.product .slash hr

theorem derives_argsWritten (args : List Expr) (h : args ≠ []) :
    Derives .arguments (Expr.argsTokens args) args := by
  cases args with
  | nil => exact absurd rfl h
  | cons arg args =>
    cases args with
    | nil => exact .lastArgument (means_written arg).expression
    | cons next args =>
      exact .argument (means_written arg).expression
        (derives_argsWritten (next :: args) (List.cons_ne_nil next args))

end

/-! ## The longest lexemes of a formula -/

open Text (isBlank isNameStart isNamePart isNumberStart)
open Magnitude (IsNonnegative)

/-- The characters that are tokens of a formula by themselves. -/
def symbols : List Char := ['+', '-', '*', '/', '(', ')', ',']

/-- Neither a name nor a number goes on here. -/
def Delimited (rest : List Char) : Prop :=
  ∀ c ∈ rest.head?, isNamePart c = false ∧ isNumberStart c = false

/-- In front of a delimiter the longest lexemes of a text return these tokens. -/
def Spells (cs : List Char) (ts : List Token) : Prop :=
  ∀ rest, Delimited rest → ∀ p pieces trailing, Splits (p.after cs) rest pieces trailing →
    ∃ ls all, tokens ls = ts ∧ all.map Piece.answer = ls.map .ok ++ pieces.map Piece.answer ∧
      Splits p (cs ++ rest) all trailing

theorem symbols_classes {c : Char} (h : c ∈ symbols) :
    isNamePart c = false ∧ isNumberStart c = false ∧ isBlank c = false := by
  have all : (symbols.all fun c => !isNamePart c && !isNumberStart c && !isBlank c) = true := by
    decide +kernel
  simpa [and_assoc] using List.all_eq_true.mp all c h

theorem isNameStart_of_isNamePart {c : Char} (h : isNamePart c = false) :
    isNameStart c = false := by
  simp only [isNamePart, Bool.or_eq_false_iff] at h
  simp only [isNameStart, Bool.or_eq_false_iff]
  exact ⟨h.1.1, h.2⟩

variable {c : Char} {cs ds rest w : List Char} {ts us : List Token} {x : Float}

theorem delimited_symbol (h : c ∈ symbols) : Delimited (c :: rest) := by
  intro d hd
  cases hd
  obtain ⟨hn, hs, -⟩ := symbols_classes h
  exact ⟨hn, hs⟩

namespace Spells

theorem nil : Spells [] [] :=
  fun _ _ _ _ _ hs => ⟨[], _, rfl, rfl, hs⟩

theorem munch {token : Token} (h : ∀ rest, Delimited rest → ∀ first last,
    Munch first last w rest (.ok ⟨token, first, last⟩)) : Spells w [token] := by
  intro rest hr p pieces trailing hs
  exact ⟨[⟨token, p, p.after w.dropLast⟩], _, rfl, rfl, .lexeme (h rest hr _ _) hs⟩

theorem name (h : IsName w) : Spells w [.identifier (String.ofList w)] :=
  munch fun _ hr _ _ => .name h fun c hc => (hr c hc).1

theorem number (h : IsNumeral w) (hx : Literal.read w = .ok x) : Spells w [.number x] := by
  refine munch fun rest hr _ _ => .number h (fun c hc => ?_) hx
  have hs := (hr c hc).2
  simp only [isNumberStart, Bool.or_eq_false_iff, decide_eq_false_iff_not] at hs
  exact ⟨hs.1, fun _ => hs.2⟩

/-- A symbol ends what stands before it and lets anything follow. -/
theorem symbol (h : Spells cs ts) (hc : c ∈ symbols) (k : Spells ds us) :
    Spells (cs ++ c :: ds) (ts ++ Token.ofChar c :: us) := by
  intro rest hr p pieces trailing hs
  obtain ⟨hn, hd, hb⟩ := symbols_classes hc
  -- The pieces are put together from the end of the text, as each needs those behind it.
  rw [Position.after_append, Position.after_cons] at hs
  obtain ⟨ls, all, hl, ha, hs⟩ := k rest hr _ pieces trailing hs
  have hs := Splits.lexeme (.single (isNameStart_of_isNamePart hn) hd hb) hs
  obtain ⟨ls', all', hl', ha', hs⟩ := h _ (delimited_symbol hc) p _ trailing hs
  refine ⟨ls' ++ .single (Token.ofChar c) (p.after cs) :: ls, all', ?_, ?_, ?_⟩
  · simp [hl, hl', Lexeme.single]
  · simpa [ha, Lexeme.single] using ha'
  · simpa using hs

theorem parenthesized (h : Spells cs ts) :
    Spells ('(' :: (cs ++ [')'])) (.openParen :: (ts ++ [.closeParen])) :=
  nil.symbol (c := '(') (by decide) (h.symbol (c := ')') (by decide) nil)

theorem enclose {text : String} (h : Spells text.toList ts) (needed : Bool) :
    Spells (Expr.enclose needed text).toList (Expr.encloseTokens needed ts) := by
  cases needed with
  | false => exact h
  | true => simpa [Expr.enclose, Expr.encloseTokens] using h.parenthesized

end Spells

mutual

theorem spells_written (e : Expr) (h : e.WellFormed) :
    Spells e.written.toList e.writtenTokens := by
  cases e with
  | num value => exact .number (numberWritten_writes h).isNumeral (read_numberWritten h)
  | var name => simpa [Expr.written, Expr.writtenTokens] using Spells.name h
  | call callee args =>
    obtain ⟨hc, ha⟩ := h
    have ha := (spells_argsWritten args ha).symbol (c := ')') (by decide) .nil
    have hs := (Spells.name hc).symbol (c := '(') (by decide) ha
    simpa [Expr.written, Expr.writtenTokens, Token.ofChar] using hs
  | neg operand =>
    have hs := Spells.nil.symbol (c := '-') (by decide)
      ((spells_written operand h).enclose operand.isOperation)
    simpa [Expr.written, Expr.writtenTokens, Token.ofChar] using hs
  | binary op lhs rhs =>
    have hl := spells_written lhs h.1
    have hr := spells_written rhs h.2
    cases op with
    | add =>
      have hs := hl.symbol (c := '+') (by decide) (hr.enclose rhs.isSum)
      simpa [Expr.written, Expr.writtenTokens, Token.ofChar] using hs
    | sub =>
      have hs := hl.symbol (c := '-') (by decide) (hr.enclose rhs.isSum)
      simpa [Expr.written, Expr.writtenTokens, Token.ofChar] using hs
    | mul =>
      have hs := (hl.enclose lhs.isSum).symbol (c := '*') (by decide)
        (hr.enclose rhs.isOperation)
      simpa [Expr.written, Expr.writtenTokens, Token.ofChar] using hs
    | div =>
      have hs := (hl.enclose lhs.isSum).symbol (c := '/') (by decide)
        (hr.enclose rhs.isOperation)
      simpa [Expr.written, Expr.writtenTokens, Token.ofChar] using hs

theorem spells_argsWritten (args : List Expr) (h : Expr.AllWellFormed args) :
    Spells (Expr.argsWritten args).toList (Expr.argsTokens args) := by
  cases args with
  | nil => exact .nil
  | cons arg args =>
    obtain ⟨ha, hs⟩ := h
    cases args with
    | nil => exact spells_written arg ha
    | cons next args =>
      have hs := (spells_written arg ha).symbol (c := ',') (by decide)
        (spells_argsWritten (next :: args) hs)
      simpa [Expr.argsWritten, Expr.argsTokens, Token.ofChar] using hs

end

/-! ## Parsing a formula -/

theorem Lexer.Emits.delivers {l m : Lexer} {ls : List Lexeme} (h : Emits l (ls.map .ok) m) :
    Delivers l ls m := by
  induction ls generalizing l with
  | nil =>
    cases h
    exact .nil _
  | cons t ls ih =>
    cases h with
    | cons hn h => exact .cons hn (ih h)

theorem parseText_of_spells {text : String} {e : Expr} (h : Spells text.toList ts)
    (hd : Derives .expression ts [e]) : parseText text = .ok e := by
  obtain ⟨ls, all, rfl, ha, hs⟩ := h [] (by simp [Delimited]) .start [] [] (.done (by simp))
  rw [List.append_nil] at hs
  rw [List.map_nil, List.append_nil] at ha
  obtain ⟨l, hl, hf⟩ := Lexer.start_faces (Text.readsAs_ofText text)
  obtain ⟨m, he, hm⟩ := hf.emits hs
  rw [ha] at he
  obtain ⟨t, hc, haccept⟩ := Parser.accepts_of_derives hd
  have hdel := he.delivers.snoc (Prod.ext hm rfl)
  have hparse := Parser.parse_accept hdel hc (haccept _ rfl)
  simpa [parseText, parseSource, hl] using hparse

/-- Parsing what was written gives the tree back, for all the trees that a parse can return. -/
theorem parse_written :
    (∀ e : Expr, e.WellFormed → parseText e.written = .ok e) ∧
    ∀ options source e, (parseSource options source).result = .ok e →
      e.WellFormed ∧ parseText e.written = .ok e := by
  have written : ∀ e : Expr, e.WellFormed → parseText e.written = .ok e := fun e h =>
    parseText_of_spells (spells_written e h) (means_written e).expression
  refine ⟨written, fun options source e h => ?_⟩
  have hw := parseSource_wellFormed h
  exact ⟨hw, written e hw⟩

/-- Operations under a minus sign, on the right of differences and around quotients, and the
number three halves. -/
def enclosedOperations : Expr :=
  .binary .sub (.neg (.binary .add (.var "a") (.call "f" [.var "x", .var "y"])))
    (.binary .sub (.var "c")
      (.binary .div (.binary .mul (.var "b") (.num (Magnitude.toFloat false 0x3FF8000000000000)))
        (.binary .div (.var "c") (.var "d"))))

/-- The product on the left of a quotient and the quotient on the right of a difference need no
parentheses, and the other operations do. -/
theorem parse_written_enclosedOperations : enclosedOperations.WellFormed ∧
    (parseSource ⟨none⟩ (.ofText "-(a+f(x,y))-(c-b*1.5/(c/d))")).result =
      .ok enclosedOperations ∧
    parseText enclosedOperations.written = .ok enclosedOperations := by
  have letter {c : Char} (h : Text.isNameStart c = true) : IsName [c] :=
    ⟨c, [], rfl, h, List.forall_mem_nil _⟩
  have number : IsNonnegative (Magnitude.toFloat false 0x3FF8000000000000) :=
    Magnitude.isNonnegative_toFloat (by decide)
  have call : (Expr.call "f" [.var "x", .var "y"]).WellFormed :=
    ⟨letter (by decide), letter (by decide), letter (by decide), trivial⟩
  have wellFormed : enclosedOperations.WellFormed :=
    ⟨⟨letter (by decide), call⟩, letter (by decide), ⟨letter (by decide), number⟩,
      letter (by decide), letter (by decide)⟩
  have text : enclosedOperations.written = "-(a+f(x,y))-(c-b*1.5/(c/d))" := by decide +kernel
  have parsed := parse_written.1 enclosedOperations wellFormed
  rw [text] at parsed
  exact ⟨(parse_written.2 _ _ _ parsed).1, parsed, (parse_written.2 _ _ _ parsed).2⟩

end FormulaLang
