import FormulaLang.Expr
import FormulaLang.Token

/-!
# The grammar of formulas

Which sequences of tokens are formulas, and the trees they stand for. Sums and products group
to the left, a minus sign in front of an operand binds tighter than any operation, parentheses
leave no node behind, and a name is called when an opening parenthesis follows it.
-/
namespace FormulaLang

inductive Phrase where
  | expression
  | term
  | factor
  | arguments
  deriving DecidableEq, Repr

/-- The tokens between the parts of a phrase, and what they make of the parts. -/
inductive Joins : Phrase → Token → BinaryOp → Prop where
  | plus : Joins .expression .plus .add
  | minus : Joins .expression .minus .sub
  | star : Joins .term .star .mul
  | slash : Joins .term .slash .div

/-- `Derives phrase tokens trees`: the tokens are a phrase of this kind, and the trees are its
meaning, one for each argument and exactly one for every other kind. -/
inductive Derives : Phrase → List Token → List Expr → Prop where
  | number (value) : Derives .factor [.number value] [.num value]
  | name (n) : Derives .factor [.identifier n] [.var n]
  | emptyCall (n) : Derives .factor [.identifier n, .openParen, .closeParen] [.call n []]
  | call {n ts args} : Derives .arguments ts args →
      Derives .factor (.identifier n :: .openParen :: (ts ++ [.closeParen])) [.call n args]
  | negation {ts e} : Derives .factor ts [e] → Derives .factor (.minus :: ts) [.neg e]
  | group {ts e} : Derives .expression ts [e] →
      Derives .factor (.openParen :: (ts ++ [.closeParen])) [e]
  | factor {ts e} : Derives .factor ts [e] → Derives .term ts [e]
  | product {ts us l r token op} : Derives .term ts [l] → Joins .term token op →
      Derives .factor us [r] → Derives .term (ts ++ token :: us) [.binary op l r]
  | term {ts e} : Derives .term ts [e] → Derives .expression ts [e]
  | sum {ts us l r token op} : Derives .expression ts [l] → Joins .expression token op →
      Derives .term us [r] → Derives .expression (ts ++ token :: us) [.binary op l r]
  | lastArgument {ts e} : Derives .expression ts [e] → Derives .arguments ts [e]
  | argument {ts us e es} : Derives .expression ts [e] → Derives .arguments us es →
      Derives .arguments (ts ++ .comma :: us) (e :: es)

end FormulaLang
