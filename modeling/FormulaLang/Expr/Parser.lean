import FormulaLang.Expr.ParseError
import FormulaLang.Log
import FormulaLang.Token.Feed
import FormulaLang.Token.Lexer

/-!
# From tokens to expressions

The parser is a machine with a stack of unfinished phrases that consumes one token a step. The
token after the consumed one is always taken before the step counts, so a token error there
comes first; only input after a complete expression and nesting beyond the limit are reported
without looking further. No step consumes the end of the input and goes on.
-/
namespace FormulaLang

structure ParseOptions where
  /-- An operand may start inside fewer than this many negations, groups and calls. -/
  maxDepth : Option Nat
  deriving DecidableEq, Repr

def Token.operation? : Token → Option BinaryOp
  | .plus => some .add
  | .minus => some .sub
  | .star => some .mul
  | .slash => some .div
  | _ => none

namespace Parser

inductive Frame where
  | negation
  | group (opened : Position)
  /-- A call waits for an argument to end; `args` are those before it, the latest first. -/
  | call (name : String) (opened : Position) (args : List Expr)
  | operation (op : BinaryOp) (lhs : Expr)

inductive Phase where
  | operand
  | named (name : String)
  | opened (name : String) (place : Position)
  | complete (value : Expr)

structure State where
  stack : List Frame
  phase : Phase

def State.initial : State := ⟨[], .operand⟩

inductive Action where
  | shift (state : State)
  | accept (value : Expr)
  /-- Consume it, but it is wrong. -/
  | reject (error : ParseError)
  /-- Stop in front of it. -/
  | refuse (error : ParseError)

def operandStart : String := "a number, identifier, '-' or '('"

def unexpected (expected : String) (found : Lexeme) : ParseError :=
  if found.token.isEof then .unexpectedEof expected found.first
  else .unexpectedToken expected found.token found.first

def Frame.nests : Frame → Bool
  | .negation => true
  | .group _ => true
  | .call _ _ _ => true
  | .operation _ _ => false

def depth (stack : List Frame) : Nat := stack.countP Frame.nests

def exceeds (options : ParseOptions) (stack : List Frame) : Option Nat :=
  options.maxDepth.filter (· ≤ depth stack)

/-- Finishes negations, and operations that bind at least as tightly as `precedence`, with a
complete operand. -/
def reduce (precedence : Nat) : List Frame → Expr → List Frame × Expr
  | .negation :: stack, value => reduce precedence stack (.neg value)
  | .operation op lhs :: stack, value =>
    if precedence ≤ op.precedence then reduce precedence stack (.binary op lhs value)
    else (.operation op lhs :: stack, value)
  | stack, value => (stack, value)

def startOperand (options : ParseOptions) (stack : List Frame) (current : Lexeme) : Action :=
  match exceeds options stack with
  | some limit => .refuse (.tooDeep limit current.first)
  | none =>
    match current.token with
    | .number value => .shift ⟨stack, .complete (.num value)⟩
    | .identifier name => .shift ⟨stack, .named name⟩
    | .minus => .shift ⟨.negation :: stack, .operand⟩
    | .openParen => .shift ⟨.group current.first :: stack, .operand⟩
    | _ => .reject (unexpected operandStart current)

def closeOperand (stack : List Frame) (value : Expr) (current : Lexeme) : Action :=
  match stack with
  | .group opened :: outer =>
    match current.token with
    | .closeParen => .shift ⟨outer, .complete value⟩
    | found => .reject (.unclosedParen opened found current.first)
  | .call name opened args :: outer =>
    match current.token with
    | .closeParen => .shift ⟨outer, .complete (.call name (value :: args).reverse)⟩
    | .comma => .shift ⟨.call name opened (value :: args) :: outer, .operand⟩
    | found => .reject (.unclosedParen opened found current.first)
  | _ =>
    if current.token.isEof then .accept value
    else .refuse (.trailingInput current.token current.first)

def followOperand (stack : List Frame) (value : Expr) (current : Lexeme) : Action :=
  match current.token.operation? with
  | some op =>
    let (outer, lhs) := reduce op.precedence stack value
    .shift ⟨.operation op lhs :: outer, .operand⟩
  | none =>
    let (outer, whole) := reduce 0 stack value
    closeOperand outer whole current

def step (options : ParseOptions) (state : State) (current : Lexeme) : Action :=
  match state.phase with
  | .operand => startOperand options state.stack current
  | .named name =>
    match current.token with
    | .openParen => .shift ⟨state.stack, .opened name current.first⟩
    | _ => followOperand state.stack (.var name) current
  | .opened name place =>
    match current.token with
    | .closeParen => .shift ⟨state.stack, .complete (.call name [])⟩
    | _ => startOperand options (.call name place [] :: state.stack) current
  | .complete value => followOperand state.stack value current

theorem startOperand_eof {options stack} {current : Lexeme} (eof : current.token.isEof = true)
    (state) : startOperand options stack current ≠ .shift state := by
  unfold startOperand
  cases h : current.token <;> simp_all [Token.isEof]
  split <;> simp

theorem followOperand_eof {stack value} {current : Lexeme} (eof : current.token.isEof = true)
    (state) : followOperand stack value current ≠ .shift state := by
  unfold followOperand closeOperand
  cases h : current.token <;> simp_all [Token.isEof, Token.operation?]
  split <;> simp

/-- The machine never goes on behind the end of the input. -/
theorem step_eof {options state} {current : Lexeme} (eof : current.token.isEof = true)
    (state') : step options state current ≠ .shift state' := by
  unfold step
  split
  · exact startOperand_eof eof _
  · split
    next h => simp [h, Token.isEof] at eof
    · exact followOperand_eof eof _
  · split
    next h => simp [h, Token.isEof] at eof
    · exact startOperand_eof eof _
  · exact followOperand_eof eof _

def run {τ : Type} [TokenSource τ] (options : ParseOptions) (state : State) (current : Lexeme)
    (feed : Feed τ) : Except ParseError Expr × Feed τ :=
  match _ : step options state current with
  | .accept value => (.ok value, feed)
  | .refuse error => (.error error, feed)
  | .reject error =>
    match feed.take with
    | (.ok _, feed') => (.error error, feed')
    | (.error tokenError, feed') => (.error (.token tokenError), feed')
  | .shift state' =>
    match _ : feed.take with
    | (.ok l, feed') => run options state' l feed'
    | (.error tokenError, feed') => (.error (.token tokenError), feed')
termination_by if current.token.isEof then 0 else TokenSource.remaining feed.source + 1
decreasing_by
  cases eof : current.token.isEof
  · cases notEof : l.token.isEof
    · simpa using Feed.remaining_take ‹_› notEof
    · simp
  · exact absurd ‹_› (step_eof eof _)

end Parser

structure ParseRun (τ : Type) where
  result : Except ParseError Expr
  feed : Feed τ

def parse {τ : Type} [TokenSource τ] (options : ParseOptions) (source : τ) : ParseRun τ :=
  match (Feed.fresh source).take with
  | (.error error, feed) => ⟨.error (.token error), feed⟩
  | (.ok l, feed) =>
    let (result, feed) := Parser.run options .initial l feed
    ⟨result, feed⟩

namespace ParseRun

def log {τ : Type} (r : ParseRun τ) : List LogRecord :=
  r.feed.taken.reverse.map .token ++
    match r.result with
    | .ok value => [.parsed value]
    | .error _ => []

end ParseRun

/-- Parses the characters of a byte source. A source whose first character cannot be read is
unreadable before any token is taken. -/
def parseSource (options : ParseOptions) (source : Source) : ParseRun Lexer :=
  match Lexer.start source with
  | (some error, lexer) => ⟨.error (.token (.unreadable error)), .fresh lexer⟩
  | (none, lexer) => parse options lexer

def parseText (text : String) : Except ParseError Expr :=
  (parseSource ⟨none⟩ (.ofText text)).result

end FormulaLang
