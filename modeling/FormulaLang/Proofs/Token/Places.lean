import FormulaLang.Proofs.Text.Reads
import FormulaLang.Proofs.Token.Lexing

/-!
# The places of the items

The lexer counts places as it goes on; here they are read off the text. A lexeme never goes on
behind a line end, so the two places of an item are on one line and as far apart as the lexeme
is long, and the places of later items come behind them.
-/
namespace FormulaLang

open Text (IsGroup decodeGroup isBlank isNameStart isNamePart isNumberStart isLineEnd)

namespace Position

/-- The line ends of a text, and the characters behind the last of them. -/
def behind (cs : List Char) : Position :=
  ⟨cs.countP isLineEnd, (cs.reverse.takeWhile fun c => !isLineEnd c).length⟩

/-- The place of the character with this number in a text, or of its end. -/
def ofIndex (cs : List Char) (k : Nat) : Position := behind (cs.take k)

/-- Reading order, by lines and then by columns. -/
def Before (p q : Position) : Prop := p.line < q.line ∨ p.line = q.line ∧ p.column < q.column

variable {p q r : Position} {c : Char} {cs w : List Char}

theorem next_behind (cs : List Char) (c : Char) :
    (behind cs).next (isLineEnd c) = behind (cs ++ [c]) := by
  by_cases h : isLineEnd c = true
  · simp [behind, next, h]
  · simp [behind, next, h]

theorem after_behind (cs w : List Char) : (behind cs).after w = behind (cs ++ w) := by
  induction w generalizing cs with
  | nil => simp
  | cons c w ih => rw [after_cons, next_behind, ih, List.append_assoc, List.singleton_append]

theorem start_after (cs : List Char) : start.after cs = behind cs := after_behind [] cs

theorem ofIndex_length (cs w : List Char) : ofIndex (cs ++ w) cs.length = behind cs := by
  simp [ofIndex]

/-! ## Order -/

theorem Before.trans (h : p.Before q) (k : q.Before r) : p.Before r := by
  unfold Before at *
  omega

theorem before_next (p : Position) (endsLine : Bool) : p.Before (p.next endsLine) := by
  unfold next
  split
  · exact Or.inl (Nat.lt_succ_self _)
  · exact Or.inr ⟨rfl, Nat.lt_succ_self _⟩

theorem before_after (p : Position) (hw : w ≠ []) : p.Before (p.after w) := by
  induction w generalizing p with
  | nil => exact absurd rfl hw
  | cons c w ih =>
    have first := before_next p (isLineEnd c)
    by_cases he : w = []
    · subst he
      exact first
    · exact first.trans (ih _ he)

/-- Characters without a line end count columns only. -/
theorem after_line (p : Position) (h : ∀ c ∈ w, isLineEnd c = false) :
    p.after w = ⟨p.line, p.column + w.length⟩ := by
  induction w generalizing p with
  | nil => rfl
  | cons c w ih =>
    obtain ⟨hc, hw⟩ := List.forall_mem_cons.mp h
    rw [after_cons, ih _ hw, hc]
    simp [next]
    omega

end Position

/-! ## Lexemes -/

variable {c : Char} {p first last : Position} {cs w rest trailing : List Char}
  {answer : Except TokenError Lexeme} {piece : Piece} {pieces before after : List Piece}

theorem isLineEnd_of_class (holds : Char → Bool) (hn : holds '\n' = false)
    (hr : holds '\r' = false) (hc : holds c = true) : isLineEnd c = false := by
  rw [Bool.eq_false_iff]
  intro h
  simp only [isLineEnd, Bool.or_eq_true, decide_eq_true_eq] at h
  rcases h with rfl | rfl
  · exact absurd (hn.symm.trans hc) (by decide)
  · exact absurd (hr.symm.trans hc) (by decide)

theorem IsName.oneLine (h : IsName w) : ∀ c ∈ w, isLineEnd c = false := by
  obtain ⟨c, t, rfl, hc, ht⟩ := h
  refine List.forall_mem_cons.mpr ⟨?_, fun d hd => ?_⟩
  · exact isLineEnd_of_class isNameStart (by decide +kernel) (by decide +kernel) hc
  · exact isLineEnd_of_class isNamePart (by decide +kernel) (by decide +kernel) (ht d hd)

theorem IsNumeral.oneLine (h : IsNumeral w) : ∀ c ∈ w, isLineEnd c = false :=
  fun _ hc => isLineEnd_of_class isNumberStart (by decide) (by decide) (h.start hc)

theorem Munch.oneLine (h : Munch first last w rest answer) :
    ∀ c ∈ w.dropLast, isLineEnd c = false := by
  intro c hc
  have hm := List.dropLast_subset _ hc
  cases h with
  | name hn => exact hn.oneLine c hm
  | number hn => exact hn.oneLine c hm
  | malformed hn => exact hn.oneLine c hm
  | single => cases hc

theorem Splits.munch (h : Splits p cs (before ++ piece :: after) trailing) :
    ∃ left rest, left = (before.flatMap fun q => q.blanks ++ q.lexeme) ++ piece.blanks ∧
      cs = left ++ (piece.lexeme ++ rest) ∧
      Munch (p.after left) ((p.after left).after piece.lexeme.dropLast) piece.lexeme rest
        piece.answer := by
  induction before generalizing p cs with
  | nil =>
    cases h with
    | piece _ hm _ => exact ⟨_, _, rfl, rfl, hm⟩
  | cons _ before ih =>
    cases h with
    | piece _ _ hs =>
      obtain ⟨left, rest, rfl, rfl, hm⟩ := ih hs
      exact ⟨_, rest, rfl, by simp, by simpa using hm⟩

/-- An item for the characters from number `a` to number `b` of a text. -/
structure Piece.Located (cs : List Char) (a b : Nat) (piece : Piece) : Prop where
  lexeme : (cs.drop a).take piece.lexeme.length = piece.lexeme
  length : b + 1 = a + piece.lexeme.length
  span : span? piece.answer = some (.ofIndex cs a, .ofIndex cs b)
  line : (Position.ofIndex cs a).line = (Position.ofIndex cs b).line
  column : (Position.ofIndex cs b).column + 1 =
    (Position.ofIndex cs a).column + piece.lexeme.length
  single : Position.ofIndex cs a = .ofIndex cs b ↔ piece.lexeme.length = 1

theorem Munch.final (h : Munch first last w rest answer) :
    ∃ body final, w = body ++ [final] ∧ w.dropLast = body :=
  ⟨_, _, (List.dropLast_concat_getLast h.ne_nil).symm, rfl⟩

theorem Splits.located (h : Splits .start cs (before ++ piece :: after) trailing) :
    ∃ b, Piece.Located cs
      ((before.flatMap fun q => q.blanks ++ q.lexeme) ++ piece.blanks).length b piece := by
  obtain ⟨left, rest, rfl, rfl, hm⟩ := h.munch
  generalize (before.flatMap fun q => q.blanks ++ q.lexeme) ++ piece.blanks = left at hm ⊢
  have oneLine := hm.oneLine
  have hs := hm.span
  obtain ⟨body, final, hw, hd⟩ := hm.final
  rw [hd] at oneLine hs
  have length : piece.lexeme.length = body.length + 1 := by simp [hw]
  have first : Position.ofIndex (left ++ (piece.lexeme ++ rest)) left.length = .behind left :=
    Position.ofIndex_length left _
  have last : Position.ofIndex (left ++ (piece.lexeme ++ rest)) (left ++ body).length =
      (Position.behind left).after body := by
    rw [Position.after_behind, ← Position.ofIndex_length (left ++ body) (final :: rest), hw]
    simp
  rw [Position.start_after, ← last, ← first] at hs
  rw [Position.after_line _ oneLine] at last
  refine ⟨(left ++ body).length, by simp, ?_, hs, ?_, ?_, ?_⟩
  · simp only [length, List.length_append, Nat.add_assoc]
  · rw [first, last]
  · rw [first, last, length, Nat.add_assoc]
  · rw [first, last, length]
    simp [Position.behind]

/-! ## Successive items -/

theorem Splits.increasing (h : Splits p cs pieces trailing) :
    (((pieces.map Piece.answer).filterMap span? ++ [(p.after cs, p.after cs)]).Pairwise
      fun s t => s.2.Before t.1) ∧
    ∀ s ∈ (pieces.map Piece.answer).filterMap span? ++ [(p.after cs, p.after cs)],
      ∃ skipped, s.1 = p.after skipped := by
  induction h with
  | @done p trailing =>
    refine ⟨List.pairwise_singleton .., fun s hs => ?_⟩
    obtain rfl := List.mem_singleton.mp hs
    exact ⟨trailing, rfl⟩
  | @piece p blanks w rest answer pieces trailing _ hm _ ih =>
    obtain ⟨sorted, behind⟩ := ih
    simp only [List.map_cons, List.filterMap_cons_some hm.span, List.cons_append,
      Position.after_append, List.pairwise_cons, List.forall_mem_cons]
    refine ⟨⟨fun t ht => ?_, sorted⟩, ⟨blanks, rfl⟩, fun t ht => ?_⟩
    · obtain ⟨skipped, hp⟩ := behind t ht
      obtain ⟨body, final, hw, hd⟩ := hm.final
      have later := Position.before_after ((p.after blanks).after body)
        (List.cons_ne_nil final skipped)
      rw [hp, hd, hw]
      simpa using later
    · obtain ⟨skipped, hp⟩ := behind t ht
      exact ⟨blanks ++ (w ++ skipped), by simp [hp]⟩

/-! ## A whole run -/

variable {source : Source}

/-- The items before the first end of the input report the places of their first and last
characters, and the end reports the place behind all characters. Each item comes behind the one
before it. A group of bytes counts as one character, also where it encodes none. -/
theorem item_places (h : Reader.ReadsAs ⟨source, none⟩ cs) :
    ∃ (l m : Lexer) (pieces : List Piece) (trailing : List Char),
      Lexer.start source = (none, l) ∧ Lexer.Emits l (pieces.map Piece.answer) m ∧
      Splits .start cs pieces trailing ∧
      m.next.1 = .ok (.single .eof (.ofIndex cs cs.length)) ∧
      (∀ piece ∈ pieces, ∀ found, piece.answer = .ok found → found.token.isEof = false) ∧
      (∀ before piece after, pieces = before ++ piece :: after → ∃ b, Piece.Located cs
        ((before.flatMap fun q => q.blanks ++ q.lexeme) ++ piece.blanks).length b piece) ∧
      (((pieces.map Piece.answer ++ [m.next.1]).filterMap span?).Pairwise
        fun s t => s.2.Before t.1) ∧
      ∃ (answers : List ReadAnswer) (groups : List (List UInt8)) (t : Source),
        source.Performs answers t ∧ Unfailing answers ∧
        answers.filterMap ReadAnswer.byte? = groups.flatten ∧
        (∀ group ∈ groups, IsGroup group) ∧ cs = groups.map decodeGroup := by
  obtain ⟨l, hl, hf⟩ := Lexer.start_faces h
  obtain ⟨pieces, trailing, hs⟩ := exists_splits .start cs
  obtain ⟨m, he, hm⟩ := hf.emits hs
  obtain ⟨answers, groups, r, hu, hn, held, hg, hc⟩ := h.uses
  have place : Position.start.after cs = .ofIndex cs cs.length := by
    simp [Position.start_after, Position.ofIndex]
  refine ⟨l, m, pieces, trailing, hl, he, hs, place ▸ hm, ?_, ?_, ?_, answers, groups, r.source,
    hu.performed, hn, by simpa [held] using hu.bytes, hg, hc⟩
  · intro piece hp found hfound
    obtain ⟨-, first, last, rest, hw⟩ := hs.of_mem hp
    exact (hfound ▸ hw).not_eof
  · rintro before piece after rfl
    exact hs.located
  · rw [hm, List.filterMap_append]
    exact hs.increasing.1

/-- A character of two bytes counts once, and a carriage return and a line feed are two line
ends. -/
theorem item_places_lineEnds :
    Reader.ReadsAs ⟨.ofText "é\r\nab", none⟩ ['é', '\r', '\n', 'a', 'b'] ∧
      ∃ (l m : Lexer) (pieces : List Piece) (trailing : List Char),
        Lexer.start (.ofText "é\r\nab") = (none, l) ∧
        Lexer.Emits l (pieces.map Piece.answer) m ∧
        Splits .start ['é', '\r', '\n', 'a', 'b'] pieces trailing ∧
        m.next.1 = .ok (.single .eof ⟨2, 2⟩) := by
  have h := Text.readsAs_ofText "é\r\nab"
  obtain ⟨l, m, pieces, trailing, hl, he, hs, hm, -⟩ := item_places h
  exact ⟨h, l, m, pieces, trailing, hl, he, hs, hm⟩

end FormulaLang
