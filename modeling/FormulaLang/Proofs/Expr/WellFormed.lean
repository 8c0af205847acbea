import FormulaLang.Proofs.Number.Texts
import FormulaLang.Proofs.Parser.Calls
import FormulaLang.Proofs.Token.Lexing

/-!
# The trees that a parse can return

A formula has no negative numbers and no NaN, and its names are those of the lexical rules. This
is so because the lexer returns no other tokens, whatever it reads, and phrases have the numbers
and names of their tokens.
-/
namespace FormulaLang

open Magnitude (IsNonnegative)

mutual

/-- Every number is nonnegative and every name is legal. -/
def Expr.WellFormed : Expr → Prop
  | .num value => IsNonnegative value
  | .var name => IsName name.toList
  | .call callee args => IsName callee.toList ∧ AllWellFormed args
  | .neg operand => operand.WellFormed
  | .binary _ lhs rhs => lhs.WellFormed ∧ rhs.WellFormed

def Expr.AllWellFormed : List Expr → Prop
  | [] => True
  | e :: es => e.WellFormed ∧ AllWellFormed es

end

def Token.Legal : Token → Prop
  | .identifier name => IsName name.toList
  | .number value => IsNonnegative value
  | _ => True

/-! ## Tokens of a lexer -/

namespace LongToken

variable {kind kind' : LongToken} {w text : List Char} {c : Char} {first last : Position}
  {found : Lexeme} {pointSeen : Bool}

theorem finish_legal (hc : ofFirst? c = some kind) (h : kind.after? w = some kind')
    (hf : kind.finish (c :: w) first last = .ok found) : found.token.Legal := by
  cases kind with
  | name =>
    cases hf
    simpa [Token.Legal] using isName_of_after? hc h
  | number pointSeen =>
    simp only [finish] at hf
    split at hf
    next hx =>
      cases hf
      exact Literal.isNonnegative_of_read (isNumeral_of_after? hc h) hx
    next => cases hf

end LongToken

namespace Lexer

variable {l m : Lexer} {kind : LongToken} {text found : List Char} {last place : Position}
  {t : Lexeme}

theorem readOn_after? (h : l.readOn kind text last = (.ok (found, place), m)) :
    ∃ w kind', found = text.reverse ++ w ∧ kind.after? w = some kind' := by
  fun_induction readOn l kind text last with
  | case1 =>
    cases h
    exact ⟨[], _, by simp, rfl⟩
  | case2 =>
    cases h
    exact ⟨[], _, by simp, rfl⟩
  | case3 => cases h
  | case4 l kind text last c _ next hc _ _ ih =>
    obtain ⟨w, kind', hf, hw⟩ := ih h
    refine ⟨c :: w, kind', by simpa using hf, ?_⟩
    rw [LongToken.after?_cons, hc]
    exact hw

theorem ofChar_legal (c : Char) : (Token.ofChar c).Legal := by
  unfold Token.ofChar
  repeat' split
  all_goals trivial

/-- Each token that a lexer returns is legal, also between failing reads. -/
theorem next_legal (h : l.next = (.ok t, m)) : t.token.Legal := by
  unfold next at h
  split at h
  · cases h
  · split at h
    · cases h
      trivial
    next c _ =>
      split at h
      · cases h
      · split at h
        · cases h
          exact ofChar_legal c
        next kind hc =>
          split at h
          · cases h
          next hr =>
            obtain ⟨w, kind', rfl, hw⟩ := readOn_after? hr
            exact LongToken.finish_legal hc hw (Prod.mk.inj h).1

end Lexer

theorem Delivers.legal {l m : Lexer} {ls : List Lexeme} (h : Delivers l ls m) :
    ∀ t ∈ tokens ls, t.Legal := by
  induction h with
  | nil => simp
  | cons hn _ ih => exact List.forall_mem_cons.mpr ⟨Lexer.next_legal hn, ih⟩

/-! ## Trees of a parse -/

theorem Derives.wellFormed {p : Phrase} {ts : List Token} {es : List Expr} (h : Derives p ts es)
    (hl : ∀ t ∈ ts, t.Legal) : Expr.AllWellFormed es := by
  induction h with
  | number x => exact ⟨hl (.number x) (by simp), trivial⟩
  | name n => exact ⟨hl (.identifier n) (by simp), trivial⟩
  | emptyCall n => exact ⟨⟨hl (.identifier n) (by simp), trivial⟩, trivial⟩
  | @call n ts args _ ih =>
    exact ⟨⟨hl (.identifier n) (by simp), ih fun t ht => hl t (by simp [ht])⟩, trivial⟩
  | negation _ ih =>
    obtain ⟨he, -⟩ := ih fun t ht => hl t (by simp [ht])
    exact ⟨he, trivial⟩
  | group _ ih => exact ih fun t ht => hl t (by simp [ht])
  | factor _ ih => exact ih hl
  | product _ _ _ ihl ihr =>
    obtain ⟨hlhs, -⟩ := ihl fun t ht => hl t (by simp [ht])
    obtain ⟨hrhs, -⟩ := ihr fun t ht => hl t (by simp [ht])
    exact ⟨⟨hlhs, hrhs⟩, trivial⟩
  | term _ ih => exact ih hl
  | sum _ _ _ ihl ihr =>
    obtain ⟨hlhs, -⟩ := ihl fun t ht => hl t (by simp [ht])
    obtain ⟨hrhs, -⟩ := ihr fun t ht => hl t (by simp [ht])
    exact ⟨⟨hlhs, hrhs⟩, trivial⟩
  | lastArgument _ ih => exact ih hl
  | argument _ _ ihe ihs =>
    obtain ⟨he, -⟩ := ihe fun t ht => hl t (by simp [ht])
    exact ⟨he, ihs fun t ht => hl t (by simp [ht])⟩

theorem parseSource_wellFormed {options : ParseOptions} {source : Source} {e : Expr}
    (h : (parseSource options source).result = .ok e) : e.WellFormed := by
  unfold parseSource at h
  split at h
  · cases h
  · obtain ⟨ls, ending, hd, hder⟩ := parse_ok_delivers h
    obtain ⟨rest, hd, -⟩ := hd.delivered.split_last
    exact (hder.wellFormed hd.legal).1

end FormulaLang
