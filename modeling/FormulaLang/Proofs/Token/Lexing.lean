import FormulaLang.Proofs.Text.Decoding
import FormulaLang.Proofs.Token.Lexemes

/-!
# Lexing is lossless and takes the longest lexemes

A lexer that has characters ahead of it skips white space and returns the longest lexeme behind
it, and then has the remaining characters ahead. A whole run of it therefore is the split of the
text into white space and longest lexemes.
-/
namespace FormulaLang

open Text (isBlank isNameStart isNamePart isNumberStart isLineEnd)

namespace LongToken

/-- The kind of token after more characters, if all of them can belong to it. -/
def after? (kind : LongToken) (w : List Char) : Option LongToken := w.foldlM extend? kind

variable {c : Char} {w rest : List Char} {kind kind' : LongToken} {first last : Position}
  {pointSeen : Bool}

@[simp] theorem after?_nil : kind.after? [] = some kind := rfl

@[simp] theorem after?_cons :
    kind.after? (c :: w) = (kind.extend? c).bind fun next => next.after? w := rfl

theorem after?_name (h : ∀ c ∈ w, isNamePart c = true) : name.after? w = some .name := by
  induction w with
  | nil => rfl
  | cons c w ih =>
    obtain ⟨hc, hw⟩ := List.forall_mem_cons.mp h
    simp [extend?, hc, ih hw]

theorem after?_number (h : ∀ c ∈ w, c.isDigit = true ∨ c = '.')
    (hp : w.count '.' + pointSeen.toNat ≤ 1) :
    (number pointSeen).after? w = some (.number (pointSeen || decide ('.' ∈ w))) := by
  induction w generalizing pointSeen with
  | nil => simp
  | cons c w ih =>
    obtain ⟨hc, hw⟩ := List.forall_mem_cons.mp h
    by_cases hd : c = '.'
    · subst hd
      have unseen : pointSeen = false := by
        cases pointSeen with
        | false => rfl
        | true => simp at hp
      subst unseen
      have more := @ih true hw (by simpa using hp)
      simp [extend?, more]
    · have hc : c.isDigit = true := hc.resolve_right hd
      have more := ih hw (by simpa [hd] using hp)
      simp [extend?, hd, hc, more, Ne.symm hd]

theorem after?_numeral (hw : IsNumeral (c :: w)) (he : EndsNumeral (c :: w) rest) :
    ∃ kind, (number (c = '.')).after? w = some kind ∧
      ∀ d ∈ rest.head?, kind.extend? d = none := by
  have hp : w.count '.' + (decide (c = '.')).toNat ≤ 1 := by
    have h := hw.onePoint
    by_cases hc : c = '.'
    · simpa [hc] using h
    · simpa [hc] using h
  refine ⟨_, after?_number (fun d hd => hw.digits d (List.mem_cons_of_mem c hd)) hp, ?_⟩
  intro d hd
  obtain ⟨notDigit, notPoint⟩ := he d hd
  by_cases hdot : d = '.'
  · have seen : '.' ∈ c :: w := Decidable.byContradiction fun h => notPoint h hdot
    have seen : c = '.' ∨ '.' ∈ w := by simpa [eq_comm] using seen
    simp [extend?, hdot, seen]
  · simp [extend?, hdot, notDigit]

theorem ofFirst?_numeral (h : IsNumeral (c :: w)) :
    ofFirst? c = some (.number (c = '.')) := by
  have hs : isNumberStart c = true := h.start (List.mem_cons_self ..)
  simp [ofFirst?, Text.isNameStart_of_numberStart hs, hs]

/-! ## What has been read on is a lexeme -/

theorem isNamePart_of_after? (h : name.after? w = some kind) :
    ∀ c ∈ w, isNamePart c = true := by
  induction w with
  | nil => simp
  | cons c w ih =>
    obtain ⟨next, hc, hw⟩ := Option.bind_eq_some_iff.mp h
    simp only [extend?, Option.ite_none_right_eq_some] at hc
    obtain ⟨hc, hn⟩ := hc
    cases hn
    exact List.forall_mem_cons.mpr ⟨hc, ih hw⟩

theorem digits_of_after? (h : (number pointSeen).after? w = some kind) :
    (∀ c ∈ w, c.isDigit = true ∨ c = '.') ∧ w.count '.' + pointSeen.toNat ≤ 1 := by
  induction w generalizing pointSeen with
  | nil => exact ⟨List.forall_mem_nil _, by cases pointSeen <;> decide⟩
  | cons c w ih =>
    obtain ⟨next, hc, hw⟩ := Option.bind_eq_some_iff.mp h
    simp only [extend?] at hc
    split at hc
    next hp =>
      subst hp
      split at hc
      next => cases hc
      next hs =>
        cases hc
        obtain ⟨hd, hn⟩ := ih hw
        refine ⟨List.forall_mem_cons.mpr ⟨.inr rfl, hd⟩, ?_⟩
        simpa [hs] using hn
    next hp =>
      split at hc
      next hd =>
        cases hc
        obtain ⟨hw, hn⟩ := ih hw
        refine ⟨List.forall_mem_cons.mpr ⟨.inl hd, hw⟩, ?_⟩
        simpa [hp] using hn
      next => cases hc

theorem isName_of_after? (hc : ofFirst? c = some .name) (h : name.after? w = some kind) :
    IsName (c :: w) := by
  refine ⟨c, w, rfl, ?_, isNamePart_of_after? h⟩
  unfold ofFirst? at hc
  split at hc
  next hn => exact hn
  next => split at hc <;> cases hc

theorem start_of_ofFirst? (hc : ofFirst? c = some (.number pointSeen)) :
    isNumberStart c = true ∧ pointSeen = decide (c = '.') := by
  unfold ofFirst? at hc
  split at hc
  next => cases hc
  next =>
    split at hc
    next hs =>
      cases hc
      exact ⟨hs, rfl⟩
    next => cases hc

theorem isNumeral_of_after? (hc : ofFirst? c = some (.number pointSeen))
    (h : (number pointSeen).after? w = some kind) : IsNumeral (c :: w) := by
  obtain ⟨hw, hn⟩ := digits_of_after? h
  obtain ⟨hs, rfl⟩ := start_of_ofFirst? hc
  have hs : c.isDigit = true ∨ c = '.' := by simpa [isNumberStart] using hs
  refine ⟨List.cons_ne_nil c w, List.forall_mem_cons.mpr ⟨hs, hw⟩, ?_⟩
  by_cases hp : c = '.'
  · simpa [hp] using hn
  · simpa [hp] using hn

theorem endsNumeral_of_after? (hc : ofFirst? c = some (.number pointSeen))
    (h : (number pointSeen).after? w = some kind) (hr : ∀ d ∈ rest.head?, kind.extend? d = none) :
    EndsNumeral (c :: w) rest := by
  obtain ⟨hw, hn⟩ := digits_of_after? h
  obtain ⟨-, rfl⟩ := start_of_ofFirst? hc
  cases h.symm.trans (after?_number hw hn)
  intro d hd
  have stops := hr d hd
  unfold extend? at stops
  by_cases hp : d = '.'
  · subst hp
    refine ⟨by decide, fun hm => ?_⟩
    simp only [List.mem_cons, not_or] at hm
    simp [hm.2, Ne.symm hm.1] at stops
  · refine ⟨?_, fun _ => hp⟩
    simpa [hp] using stops

theorem isName_or_isNumeral (hc : ofFirst? c = some kind) (h : kind.after? w = some kind') :
    IsName (c :: w) ∨ IsNumeral (c :: w) := by
  cases kind with
  | name => exact Or.inl (isName_of_after? hc h)
  | number pointSeen => exact Or.inr (isNumeral_of_after? hc h)

theorem not_start_of_ofFirst? (h : ofFirst? c = none) :
    isNameStart c = false ∧ isNumberStart c = false := by
  unfold ofFirst? at h
  split at h
  next => cases h
  next hn =>
    split at h
    next => cases h
    next hs => exact ⟨Bool.eq_false_iff.mpr hn, Bool.eq_false_iff.mpr hs⟩

/-- A first character and as many behind it as belong to its token are a longest lexeme. -/
theorem munch_of_after? (hc : ofFirst? c = some kind) (hw : kind.after? w = some kind')
    (hr : ∀ d ∈ rest.head?, kind'.extend? d = none) :
    Munch first last (c :: w) rest (kind.finish (c :: w) first last) := by
  cases kind with
  | name =>
    cases hw.symm.trans (after?_name (isNamePart_of_after? hw))
    exact .name (isName_of_after? hc hw) fun d hd => by simpa [extend?] using hr d hd
  | number pointSeen =>
    have numeral := isNumeral_of_after? hc hw
    have ends := endsNumeral_of_after? hc hw hr
    unfold finish
    cases hx : Literal.read (c :: w) with
    | ok x => exact .number numeral ends hx
    | error error => exact .malformed numeral ends hx

end LongToken

namespace Lexer

variable {l m : Lexer} {p : Position} {c : Char} {cs w rest blanks trailing text : List Char}
  {kind kind' : LongToken} {last : Position}

/-! ## One character at a time -/

theorem skipBlanks_stop (h : ∀ c ∈ l.ahead, isBlank c = false) : l.skipBlanks = (none, l) := by
  rw [skipBlanks]
  split
  · rfl
  next ha => simp [h _ ha]

theorem skipBlanks_blank (ha : l.ahead = some c) (hc : isBlank c = true)
    (hm : l.advance = (none, m)) : l.skipBlanks = m.skipBlanks := by
  rw [skipBlanks]
  split
  next hn => cases hn.symm.trans ha
  next hs =>
    cases hs.symm.trans ha
    rw [if_pos hc]
    split
    next hf => cases hf.symm.trans hm
    next hf => cases hf.symm.trans hm; rfl

theorem readOn_stop (h : ∀ c ∈ l.ahead, kind.extend? c = none) :
    l.readOn kind text last = (.ok (text.reverse, last), l) := by
  rw [readOn]
  split
  · rfl
  next ha => simp [h _ ha]

theorem readOn_extend (ha : l.ahead = some c) (he : kind.extend? c = some kind')
    (hm : l.advance = (none, m)) :
    l.readOn kind text last = m.readOn kind' (c :: text) l.place := by
  rw [readOn]
  split
  next hn => cases hn.symm.trans ha
  next hs =>
    cases hs.symm.trans ha
    split
    next hf => cases hf.symm.trans he
    next hf =>
      cases hf.symm.trans he
      split
      next hf => cases hf.symm.trans hm
      next hf => cases hf.symm.trans hm; rfl

/-- These characters are ahead of the lexer, the first of them at the place. -/
inductive Faces : Lexer → Position → List Char → Prop where
  | nil {reader p} : Faces ⟨reader, none, p, p⟩ p []
  | cons {reader p c cs} : Reader.ReadsAs reader cs →
      Faces ⟨reader, some c, p, p.next (isLineEnd c)⟩ p (c :: cs)

theorem advance_faces (h : Reader.ReadsAs l.reader cs) :
    ∃ m, l.advance = (none, m) ∧ Faces m l.upcoming cs := by
  cases h with
  | nil hr => exact ⟨_, by rw [advance, hr], .nil⟩
  | cons hr h => exact ⟨_, by rw [advance, hr], .cons h⟩

theorem start_faces {source : Source} (h : Reader.ReadsAs ⟨source, none⟩ cs) :
    ∃ l, start source = (none, l) ∧ Faces l .start cs :=
  advance_faces (l := ⟨⟨source, none⟩, none, .start, .start⟩) h

namespace Faces

theorem advance (h : Faces l p (c :: cs)) :
    ∃ m, l.advance = (none, m) ∧ Faces m (p.next (isLineEnd c)) cs := by
  cases h with
  | cons hr => exact advance_faces hr

theorem ahead (h : Faces l p cs) : l.ahead = cs.head? := by
  cases h with
  | nil => rfl
  | cons => rfl

theorem place (h : Faces l p cs) : l.place = p := by
  cases h with
  | nil => rfl
  | cons => rfl

theorem skipBlanks (h : Faces l p (blanks ++ rest)) (hb : ∀ c ∈ blanks, isBlank c = true)
    (hr : ∀ c ∈ rest.head?, isBlank c = false) :
    ∃ m, l.skipBlanks = (none, m) ∧ Faces m (p.after blanks) rest := by
  induction blanks generalizing l p with
  | nil => exact ⟨l, skipBlanks_stop (h.ahead ▸ hr), h⟩
  | cons c blanks ih =>
    obtain ⟨hc, hb⟩ := List.forall_mem_cons.mp hb
    obtain ⟨m, hm, hf⟩ := h.advance
    obtain ⟨n, hn, hf⟩ := ih hf hb
    exact ⟨n, (skipBlanks_blank h.ahead hc hm).trans hn, hf⟩

/-- Reading on behind a character `c` at `p` goes over all of `w`, and the last place is that of
the last character of `c :: w`. -/
theorem readOn (text : List Char) (h : Faces l (p.next (isLineEnd c)) (w ++ rest))
    (hw : kind.after? w = some kind') (hr : ∀ d ∈ rest.head?, kind'.extend? d = none) :
    ∃ m, l.readOn kind text p = (.ok (text.reverse ++ w, p.after (c :: w).dropLast), m) ∧
      Faces m (p.after (c :: w)) rest := by
  induction w generalizing l p c kind text with
  | nil =>
    cases hw
    exact ⟨l, by rw [readOn_stop (h.ahead ▸ hr)]; simp, h⟩
  | cons d w ih =>
    obtain ⟨next, hd, hw⟩ := Option.bind_eq_some_iff.mp hw
    obtain ⟨m, hm, hf⟩ := h.advance
    obtain ⟨n, hn, hf⟩ := ih (d :: text) hf hw
    refine ⟨n, ?_, hf⟩
    rw [readOn_extend h.ahead hd hm, h.place, hn]
    simp

/-! ## One call -/

theorem next_end (h : Faces l p trailing) (hb : ∀ c ∈ trailing, isBlank c = true) :
    ∃ m, l.next = (.ok (.single .eof (p.after trailing)), m) ∧ Faces m (p.after trailing) [] := by
  rw [← List.append_nil trailing] at h
  obtain ⟨m, hm, hf⟩ := h.skipBlanks hb (by simp)
  refine ⟨m, ?_, hf⟩
  simp [Lexer.next, hm, hf.ahead, hf.place]

theorem next_long (h : Faces l p (blanks ++ (c :: w ++ rest)))
    (hb : ∀ c ∈ blanks, isBlank c = true) (hc : isBlank c = false)
    (hk : LongToken.ofFirst? c = some kind) (hw : kind.after? w = some kind')
    (hr : ∀ d ∈ rest.head?, kind'.extend? d = none) :
    ∃ m, l.next = (kind.finish (c :: w) (p.after blanks)
        ((p.after blanks).after (c :: w).dropLast), m) ∧
      Faces m ((p.after blanks).after (c :: w)) rest := by
  obtain ⟨k, hskip, hf⟩ := h.skipBlanks hb (by simp [hc])
  obtain ⟨n, hadvance, hn⟩ := hf.advance
  obtain ⟨m, hread, hm⟩ := hn.readOn [c] hw hr
  refine ⟨m, ?_, hm⟩
  simp only [Lexer.next, hskip, hf.ahead, List.cons_append, List.head?_cons, hadvance, hk,
    hf.place, hread]
  simp

theorem next_single (h : Faces l p (blanks ++ (c :: rest)))
    (hb : ∀ c ∈ blanks, isBlank c = true) (hc : isBlank c = false)
    (hk : LongToken.ofFirst? c = none) :
    ∃ m, l.next = (.ok (.single (.ofChar c) (p.after blanks)), m) ∧
      Faces m ((p.after blanks).after [c]) rest := by
  obtain ⟨k, hskip, hf⟩ := h.skipBlanks hb (by simp [hc])
  obtain ⟨n, hadvance, hn⟩ := hf.advance
  refine ⟨n, ?_, hn⟩
  simp only [Lexer.next, hskip, hf.ahead, List.head?_cons, hadvance, hk, hf.place]

theorem next_munch {answer : Except TokenError Lexeme} (h : Faces l p (blanks ++ (w ++ rest)))
    (hb : ∀ c ∈ blanks, isBlank c = true)
    (hm : Munch (p.after blanks) ((p.after blanks).after w.dropLast) w rest answer) :
    ∃ m, l.next = (answer, m) ∧ Faces m ((p.after blanks).after w) rest := by
  obtain ⟨c, t, rfl⟩ := List.exists_cons_of_ne_nil hm.ne_nil
  have hc := hm.not_blank
  -- The first character decides what the lexer reads, and the rest of `w` belongs to it.
  cases hm with
  | name hn he =>
    obtain ⟨_, _, ht, hs, hp⟩ := hn
    cases ht
    have first : LongToken.ofFirst? c = some .name := by simp [LongToken.ofFirst?, hs]
    exact next_long h hb hc first (LongToken.after?_name hp) fun d hd => by
      simp [LongToken.extend?, he d hd]
  | number hn he hx =>
    have first := LongToken.ofFirst?_numeral hn
    obtain ⟨kind, hk, hr⟩ := LongToken.after?_numeral hn he
    obtain ⟨m, hm, hf⟩ := next_long h hb hc first hk hr
    exact ⟨m, by rw [hm, LongToken.finish, hx], hf⟩
  | malformed hn he hx =>
    have first := LongToken.ofFirst?_numeral hn
    obtain ⟨kind, hk, hr⟩ := LongToken.after?_numeral hn he
    obtain ⟨m, hm, hf⟩ := next_long h hb hc first hk hr
    exact ⟨m, by rw [hm, LongToken.finish, hx], hf⟩
  | single hs hd _ =>
    have first : LongToken.ofFirst? c = none := by simp [LongToken.ofFirst?, hs, hd]
    exact next_single h hb hc first

end Faces

/-! ## A whole run -/

/-- The answers to the next calls, one after the other. -/
inductive Emits : Lexer → List (Except TokenError Lexeme) → Lexer → Prop where
  | nil (l : Lexer) : Emits l [] l
  | cons {l m n : Lexer} {answer answers} : l.next = (answer, m) → Emits m answers n →
      Emits l (answer :: answers) n

theorem Faces.emits {pieces : List Piece} (h : Faces l p cs) (hs : Splits p cs pieces trailing) :
    ∃ m, Emits l (pieces.map Piece.answer) m ∧
      m.next.1 = .ok (.single .eof (p.after cs)) := by
  induction hs generalizing l with
  | done hb =>
    obtain ⟨m, hm, -⟩ := h.next_end hb
    exact ⟨l, .nil l, by rw [hm]⟩
  | piece hb hm _ ih =>
    obtain ⟨n, hn, hf⟩ := h.next_munch hb hm
    obtain ⟨m, he, hm⟩ := ih hf
    exact ⟨m, .cons hn he, by simpa using hm⟩

end Lexer

variable {source : Source} {cs : List Char}

/-- The calls before the first end of the input return one item for each lexeme of a split of
the whole text into white space and longest lexemes; none of these is lost or empty. -/
theorem lexing_is_lossless_munch (h : Reader.ReadsAs ⟨source, none⟩ cs) :
    ∃ (l m : Lexer) (pieces : List Piece) (trailing : List Char),
      Lexer.start source = (none, l) ∧
      Lexer.Emits l (pieces.map Piece.answer) m ∧
      m.next.1 = .ok (.single .eof (Position.start.after cs)) ∧
      Splits .start cs pieces trailing ∧
      (pieces.flatMap fun piece => piece.blanks ++ piece.lexeme) ++ trailing = cs ∧
      pieces.length ≤ cs.length ∧
      ∀ piece ∈ pieces, piece.lexeme ≠ [] ∧
        ∀ found, piece.answer = .ok found → found.token.isEof = false := by
  obtain ⟨l, hl, hf⟩ := Lexer.start_faces h
  obtain ⟨pieces, trailing, hs⟩ := exists_splits .start cs
  obtain ⟨m, he, hm⟩ := hf.emits hs
  refine ⟨l, m, pieces, trailing, hl, he, hm, hs, hs.concat, hs.length_le, ?_⟩
  intro piece hp
  obtain ⟨-, first, last, rest, hw⟩ := hs.of_mem hp
  exact ⟨hw.ne_nil, fun found hf => (hf ▸ hw).not_eof⟩

/-- A second point ends a numeral, and a superscript ends a name. -/
theorem lexing_secondPoint :
    Reader.ReadsAs ⟨.ofText "1.2.3 x²", none⟩ ['1', '.', '2', '.', '3', ' ', 'x', '²'] ∧
      ∃ (l m : Lexer) (pieces : List Piece) (trailing : List Char),
        Lexer.start (.ofText "1.2.3 x²") = (none, l) ∧
        Lexer.Emits l (pieces.map Piece.answer) m ∧
        m.next.1 = .ok (.single .eof ⟨0, 8⟩) ∧
        (pieces.flatMap fun piece => piece.blanks ++ piece.lexeme) ++ trailing =
          ['1', '.', '2', '.', '3', ' ', 'x', '²'] := by
  have h : Reader.ReadsAs ⟨.ofText "1.2.3 x²", none⟩ ['1', '.', '2', '.', '3', ' ', 'x', '²'] :=
    Text.readsAs_ofText "1.2.3 x²"
  obtain ⟨l, m, pieces, trailing, hl, he, hm, -, hc, -, -⟩ := lexing_is_lossless_munch h
  exact ⟨h, l, m, pieces, trailing, hl, he, hm, hc⟩

end FormulaLang
