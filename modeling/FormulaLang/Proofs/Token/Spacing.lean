import FormulaLang.Proofs.Parser.Relocation
import FormulaLang.Proofs.Token.Places

/-!
# White space between lexemes

A lexeme is as long as it can be, and white space goes on with none. So more white space
between, before or behind the lexemes of a text leaves the lexemes as they are and moves their
places. Two texts with white space between them have the lexemes of the first and then those of
the second, since nothing of the first is remembered behind it.
-/
namespace FormulaLang

open Text (isBlank isNameStart isNamePart isNumberStart isLineEnd)

/-- The text has the lexemes of these pieces, with at least their white space in front of each
and behind the last. Lexemes that touch each other may be drawn apart. -/
inductive Spaced : List Piece → List Char → List Char → Prop where
  | done {trailing blanks} : trailing.Sublist blanks → (∀ c ∈ blanks, isBlank c = true) →
      Spaced [] trailing blanks
  | piece {piece pieces trailing blanks text} : piece.blanks.Sublist blanks →
      (∀ c ∈ blanks, isBlank c = true) → Spaced pieces trailing text →
      Spaced (piece :: pieces) trailing (blanks ++ (piece.lexeme ++ text))

def Position.offset (base p : Position) : Position :=
  if p.line = 0 then ⟨base.line, base.column + p.column⟩ else ⟨base.line + p.line, p.column⟩

variable {p q base first last : Position} {c : Char} {cs w rest text blanks trailing : List Char}
  {answer : Except TokenError Lexeme} {pieces : List Piece}

/-! ## Moving lexemes -/

theorem Text.isBlank_of_namePart (h : isNamePart c = true) : isBlank c = false := by
  simp only [isNamePart, Bool.or_eq_true] at h
  rcases h with (ha | hd) | hu
  · exact isBlank_of_nameStart (by simp [isNameStart, ha])
  · exact isBlank_of_numberStart (by simp [isNumberStart, hd])
  · exact isBlank_of_nameStart (by simp [isNameStart, hu])

theorem EndsName.of_blank (h : EndsName rest)
    (hr : ∀ c ∈ text.head?, isBlank c = true ∨ c ∈ rest.head?) : EndsName text := by
  intro c hc
  rcases hr c hc with hb | hc
  · rw [Bool.eq_false_iff]
    intro hp
    cases hb.symm.trans (Text.isBlank_of_namePart hp)
  · exact h c hc

theorem EndsNumeral.of_blank (h : EndsNumeral w rest)
    (hr : ∀ c ∈ text.head?, isBlank c = true ∨ c ∈ rest.head?) : EndsNumeral w text := by
  intro c hc
  rcases hr c hc with hb | hc
  · have hs : isNumberStart c = false := by
      rw [Bool.eq_false_iff]
      intro hs
      cases hb.symm.trans (Text.isBlank_of_numberStart hs)
    simp only [isNumberStart, Bool.or_eq_false_iff, decide_eq_false_iff_not] at hs
    exact ⟨hs.1, fun _ => hs.2⟩
  · exact h c hc

theorem Munch.of_blank (h : Munch first last w rest answer)
    (hr : ∀ c ∈ text.head?, isBlank c = true ∨ c ∈ rest.head?) :
    Munch first last w text answer := by
  cases h with
  | name hn he => exact .name hn (he.of_blank hr)
  | number hn he hx => exact .number hn (he.of_blank hr) hx
  | malformed hn he hx => exact .malformed hn (he.of_blank hr) hx
  | single hs hd hb => exact .single hs hd hb

theorem Munch.relocate (h : Munch first last w rest answer) (move : Position → Position) :
    Munch (move first) (move last) w rest (relocateAnswer move answer) := by
  cases h with
  | name hn he => exact .name hn he
  | number hn he hx => exact .number hn he hx
  | malformed hn he hx => exact .malformed hn he hx
  | single hs hd hb => exact .single hs hd hb

theorem head?_of_cons_append {α : Type} {xs ys : List α} (h : xs ≠ []) :
    (xs ++ ys).head? = xs.head? := by
  cases xs with
  | nil => exact absurd rfl h
  | cons x xs => rfl

theorem Splits.head_spaced (h : Splits p rest pieces trailing) (hs : Spaced pieces trailing text) :
    ∀ c ∈ text.head?, isBlank c = true ∨ c ∈ rest.head? := by
  intro c hc
  cases hs with
  | done _ hb => exact Or.inl (hb c (List.mem_of_mem_head? hc))
  | @piece _ _ _ blanks _ hsub hb _ =>
    cases h with
    | @piece _ old _ _ _ _ _ _ hm _ =>
      cases blanks with
      | nil =>
        have none : old = [] := List.sublist_nil.mp hsub
        subst none
        rw [List.nil_append, head?_of_cons_append hm.ne_nil] at hc ⊢
        exact Or.inr hc
      | cons b blanks =>
        cases hc
        exact Or.inl (hb c (List.mem_cons_self ..))

/-! ## More white space -/

namespace Position

instance (p q : Position) : Decidable (p.Before q) :=
  inferInstanceAs (Decidable (_ ∨ _ ∧ _))

/-- The place that is as far behind `q` in its line as `r` is behind `p`. -/
def along (p q r : Position) : Position := ⟨q.line, r.column - p.column + q.column⟩

theorem along_after (p q : Position) (h : ∀ c ∈ w, isLineEnd c = false) :
    along p q (p.after w) = q.after w := by
  rw [after_line p h, after_line q h, along, Nat.add_sub_cancel_left, Nat.add_comm]

theorem not_after_before (p : Position) (w : List Char) : ¬ (p.after w).Before p := by
  intro hb
  have irrefl : ¬ p.Before p := by
    unfold Before
    omega
  by_cases hw : w = []
  · subst hw
    exact irrefl hb
  · exact irrefl ((before_after p hw).trans hb)

/-- Moves places along a line up to the end of a lexeme at `p`, and from there on as `moves`
does. -/
def carry (p q : Position) (w : List Char) (moves : Position → Position) (r : Position) :
    Position :=
  if r.Before (p.after w) then along p q r else moves r

theorem carry_behind (p q : Position) (w v : List Char) (moves : Position → Position) :
    carry p q w moves ((p.after w).after v) = moves ((p.after w).after v) :=
  if_neg (not_after_before _ v)

theorem carry_inside (p q : Position) {w body more : List Char} {final : Char}
    (moves : Position → Position) (hw : w = body ++ final :: more)
    (line : ∀ c ∈ body, isLineEnd c = false) :
    carry p q w moves (p.after body) = q.after body := by
  have hlt : (p.after body).Before (p.after w) := by
    rw [hw, after_append]
    exact before_after _ (List.cons_ne_nil final more)
  rw [carry, if_pos hlt, along_after p q line]

theorem carry_start (p q : Position) {w : List Char} (moves : Position → Position)
    (hw : w ≠ []) : carry p q w moves p = q := by
  obtain ⟨c, t, rfl⟩ := List.exists_cons_of_ne_nil hw
  exact @carry_inside p q (c :: t) [] t c moves rfl (List.forall_mem_nil _)

end Position

/-- Some move of the places takes the items of a text to those of a spaced one. What it does in
front of the text does not matter. -/
theorem Splits.spaced (h : Splits p cs pieces trailing) (hs : Spaced pieces trailing text)
    (q : Position) : ∃ moves : Position → Position, ∀ move : Position → Position,
      (∀ w, move (p.after w) = moves (p.after w)) →
      ∃ pieces' trailing', Splits q text pieces' trailing' ∧
        pieces'.map Piece.lexeme = pieces.map Piece.lexeme ∧
        pieces'.map Piece.answer = pieces.map (fun piece => relocateAnswer move piece.answer) ∧
        move (p.after cs) = q.after text := by
  induction h generalizing text q with
  | done =>
    cases hs with
    | done _ hb =>
      exact ⟨fun _ => q.after text, fun move hmove => ⟨[], text, .done hb, rfl, rfl, hmove _⟩⟩
  | @piece p blanks w rest answer pieces trailing _ hm hsplits ih =>
    cases hs with
    | @piece _ _ _ blanks' text _ hb hs =>
      obtain ⟨moves, hmoves⟩ := ih hs ((q.after blanks').after w)
      refine ⟨(p.after blanks).carry (q.after blanks') w moves, fun move hmove => ?_⟩
      have lexeme : ∀ v, move ((p.after blanks).after v) =
          (p.after blanks).carry (q.after blanks') w moves ((p.after blanks).after v) := by
        intro v
        simpa using hmove (blanks ++ v)
      obtain ⟨pieces', trailing', hsplits', hl, ha, hend⟩ := hmoves move fun v => by
        rw [← Position.after_append, lexeme, Position.after_append, Position.carry_behind]
      obtain ⟨body, final, hw, hd⟩ := hm.final
      have first : move (p.after blanks) = q.after blanks' :=
        (lexeme []).trans (Position.carry_start _ _ moves hm.ne_nil)
      have last : move ((p.after blanks).after w.dropLast) =
          (q.after blanks').after w.dropLast := by
        rw [lexeme, Position.carry_inside _ _ moves (hd.symm ▸ hw) hm.oneLine]
      have munch := (hm.relocate move).of_blank (hsplits.head_spaced hs)
      rw [first, last] at munch
      exact ⟨⟨blanks', w, relocateAnswer move answer⟩ :: pieces', trailing',
        .piece hb munch hsplits', by simp [hl], by simp [ha], by simpa using hend⟩

/-! ## One text behind another -/

namespace Position

theorem offset_next (base p : Position) (endsLine : Bool) :
    (base.offset p).next endsLine = base.offset (p.next endsLine) := by
  cases endsLine with
  | true =>
    by_cases hl : p.line = 0
    · simp [offset, next, hl]
    · simp [offset, next, hl, Nat.add_assoc]
  | false =>
    by_cases hl : p.line = 0
    · simp [offset, next, hl, Nat.add_assoc]
    · simp [offset, next, hl]

theorem offset_after (base p : Position) (cs : List Char) :
    (base.offset p).after cs = base.offset (p.after cs) := by
  induction cs generalizing p with
  | nil => rfl
  | cons c cs ih => rw [after_cons, offset_next, ih, after_cons]

end Position

theorem Splits.offset (h : Splits p cs pieces trailing) (base : Position) :
    ∃ pieces', Splits (base.offset p) cs pieces' trailing ∧
      pieces'.map Piece.answer =
        pieces.map (fun piece => relocateAnswer base.offset piece.answer) := by
  induction h with
  | done hb => exact ⟨[], .done hb, rfl⟩
  | @piece p blanks w rest answer pieces trailing hb hm _ ih =>
    obtain ⟨pieces', hs, ha⟩ := ih
    have hm := hm.relocate base.offset
    simp only [← Position.offset_after] at hm hs
    exact ⟨⟨blanks, w, _⟩ :: pieces', .piece hb hm hs, by simp [ha]⟩

theorem Splits.indent (h : Splits (p.after blanks) cs pieces trailing)
    (hb : ∀ c ∈ blanks, isBlank c = true) : ∃ pieces' trailing',
      Splits p (blanks ++ cs) pieces' trailing' ∧
        pieces'.map Piece.answer = pieces.map Piece.answer := by
  cases h with
  | done ht => exact ⟨[], _, .done (List.forall_mem_append.mpr ⟨hb, ht⟩), rfl⟩
  | @piece _ more w rest answer pieces _ hmore hm hs =>
    rw [← Position.after_append p blanks more] at hm hs
    have hall := List.forall_mem_append.mpr ⟨hb, hmore⟩
    refine ⟨⟨blanks ++ more, w, answer⟩ :: pieces, trailing, ?_, rfl⟩
    simpa using Splits.piece hall hm hs

theorem Splits.append {cs' : List Char} {pieces' : List Piece} {trailing' : List Char}
    (h : Splits p cs pieces trailing) (hb : ∀ c ∈ blanks, isBlank c = true) (hne : blanks ≠ [])
    (k : Splits (p.after (cs ++ blanks)) cs' pieces' trailing') : ∃ all trailing'',
      Splits p (cs ++ (blanks ++ cs')) all trailing'' ∧
        all.map Piece.answer = pieces.map Piece.answer ++ pieces'.map Piece.answer := by
  induction h with
  | done ht =>
    have hall := List.forall_mem_append.mpr ⟨ht, hb⟩
    simpa using k.indent hall
  | @piece p skipped w rest answer pieces trailing hskipped hm _ ih =>
    obtain ⟨all, trailing'', hs, ha⟩ := ih (by simpa using k)
    have munch : Munch (p.after skipped) ((p.after skipped).after w.dropLast) w
        (rest ++ (blanks ++ cs')) answer := by
      refine hm.of_blank fun c hc => ?_
      cases rest with
      | nil =>
        rw [List.nil_append, head?_of_cons_append hne] at hc
        exact Or.inl (hb c (List.mem_of_mem_head? hc))
      | cons d rest => exact Or.inr hc
    refine ⟨⟨skipped, w, answer⟩ :: all, trailing'', ?_, by simp [ha]⟩
    simpa using Splits.piece hskipped munch hs

/-! ## Two lexers -/

/-- The move of places takes the items of a text to those of another, and its end to the end. -/
structure Carries (move : Position → Position) (p q : Position) (cs text : List Char)
    (pieces pieces' : List Piece) : Prop where
  items : pieces'.map Piece.answer = pieces.map fun piece => relocateAnswer move piece.answer
  ending : move (p.after cs) = q.after text

/-- The lexers face texts with the same lexemes at places that the move takes to each other. -/
inductive Lexer.Aligned (move : Position → Position) : Lexer → Lexer → Prop where
  | intro {l l' p q cs text pieces pieces' trailing trailing'} : Faces l p cs →
      Splits p cs pieces trailing → Faces l' q text → Splits q text pieces' trailing' →
      Carries move p q cs text pieces pieces' → Aligned move l l'

theorem Lexer.aligned_follows (move : Position → Position) : Follows move (Aligned move) := by
  rintro l l' ⟨hf, hs, hf', hs', carries⟩
  have items := carries.items
  have ending := carries.ending
  cases hs with
  | done hb =>
    cases List.map_eq_nil_iff.mp items
    cases hs' with
    | done hb' =>
      obtain ⟨m, hm, hm'⟩ := hf.next_end hb
      obtain ⟨n, hn, hn'⟩ := hf'.next_end hb'
      refine ⟨_, m, n, hm, ?_, ?_⟩
      · rw [show TokenSource.next l' = l'.next from rfl, hn, ← ending]
        rfl
      · exact .intro hm' (.done (List.forall_mem_nil _)) hn' (.done (List.forall_mem_nil _))
          ⟨rfl, ending⟩
  | piece hb hm hs =>
    cases hs' with
    | done => cases items
    | piece hb' hm' hs' =>
      obtain ⟨answer, items⟩ := List.cons.inj items
      obtain ⟨m, hn, hf⟩ := hf.next_munch hb hm
      obtain ⟨n, hn', hf'⟩ := hf'.next_munch hb' hm'
      refine ⟨_, m, n, hn, hn'.trans ?_, .intro hf hs hf' hs' ⟨items, by simpa using ending⟩⟩
      exact Prod.ext answer rfl

/-- The calls before the first end of the input return these items, and the end stands at the
place. -/
structure Source.Returns (source : Source) (answers : List (Except TokenError Lexeme))
    (ending : Position) : Prop where
  run : ∃ l m, Lexer.start source = (none, l) ∧ Lexer.Emits l answers m ∧
    m.next.1 = .ok (.single .eof ending)
  inner : ∀ found, .ok found ∈ answers → found.token.isEof = false

theorem Splits.returns {source : Source} (h : Reader.ReadsAs ⟨source, none⟩ cs)
    (hs : Splits .start cs pieces trailing) :
    source.Returns (pieces.map Piece.answer) (Position.start.after cs) := by
  obtain ⟨l, hl, hf⟩ := Lexer.start_faces h
  obtain ⟨m, he, hm⟩ := hf.emits hs
  refine ⟨⟨l, m, hl, he, hm⟩, fun found hfound => ?_⟩
  obtain ⟨piece, hp, answer⟩ := List.mem_map.mp hfound
  obtain ⟨-, _, _, _, hw⟩ := hs.of_mem hp
  exact (answer ▸ hw).not_eof

theorem parseSource_carries {source source' : Source} {pieces' : List Piece}
    {trailing' : List Char} {move : Position → Position} (h : Reader.ReadsAs ⟨source, none⟩ cs)
    (h' : Reader.ReadsAs ⟨source', none⟩ text) (hs : Splits .start cs pieces trailing)
    (hs' : Splits .start text pieces' trailing')
    (carries : Carries move .start .start cs text pieces pieces') (options : ParseOptions) :
    (parseSource options source').result =
      (parseSource options source).result.mapError (ParseError.relocate move) := by
  obtain ⟨l, hl, hf⟩ := Lexer.start_faces h
  obtain ⟨l', hl', hf'⟩ := Lexer.start_faces h'
  have aligned : Lexer.Aligned move l l' := .intro hf hs hf' hs' carries
  unfold parseSource
  rw [hl, hl']
  exact parse_relocate (Lexer.aligned_follows move) aligned options

/-- More white space around the lexemes of a text leaves the items of a lexer as they are, up to
their places; some move takes the places of the old items and of the old end to the new ones, and
every such move takes the result of a parse, under any limit, to the new result. Two texts with
white space between them return the items of the first and then those of the second, behind it. -/
theorem white_space_moves_places {source : Source} (h : Reader.ReadsAs ⟨source, none⟩ cs)
    (hs : Splits .start cs pieces trailing) :
    source.Returns (pieces.map Piece.answer) (Position.start.after cs) ∧
    (∀ spaced text, Reader.ReadsAs ⟨spaced, none⟩ text → Spaced pieces trailing text →
      ∃ pieces' trailing', Splits .start text pieces' trailing' ∧
        pieces'.map Piece.lexeme = pieces.map Piece.lexeme ∧
        spaced.Returns (pieces'.map Piece.answer) (Position.start.after text) ∧
        (∃ move, Carries move .start .start cs text pieces pieces') ∧
        ∀ move, Carries move .start .start cs text pieces pieces' → ∀ options,
          (parseSource options spaced).result =
            (parseSource options source).result.mapError (ParseError.relocate move)) ∧
    ∀ second both cs' blanks pieces' trailing', Reader.ReadsAs ⟨second, none⟩ cs' →
      Splits .start cs' pieces' trailing' → blanks ≠ [] → (∀ c ∈ blanks, isBlank c = true) →
      Reader.ReadsAs ⟨both, none⟩ (cs ++ (blanks ++ cs')) →
      second.Returns (pieces'.map Piece.answer) (Position.start.after cs') ∧
        both.Returns (pieces.map Piece.answer ++ pieces'.map fun piece =>
            relocateAnswer (Position.start.after (cs ++ blanks)).offset piece.answer)
          (Position.start.after (cs ++ (blanks ++ cs'))) := by
  refine ⟨hs.returns h, fun spaced text hr ht => ?_, ?_⟩
  · obtain ⟨moves, hmoves⟩ := hs.spaced ht .start
    obtain ⟨pieces', trailing', hs', hl, ha, he⟩ := hmoves moves fun _ => rfl
    exact ⟨pieces', trailing', hs', hl, hs'.returns hr, ⟨moves, ha, he⟩,
      fun move carries => parseSource_carries h hr hs hs' carries⟩
  · intro second both cs' blanks pieces' trailing' hr hs' hne hb hboth
    obtain ⟨moved, hmoved, ha⟩ := hs'.offset (Position.start.after (cs ++ blanks))
    obtain ⟨all, _, hall, hanswers⟩ := hs.append hb hne hmoved
    refine ⟨hs'.returns hr, ?_⟩
    rw [← ha, ← hanswers]
    exact hall.returns hboth

def twoPoints : List Piece :=
  let point (place : Position) : Piece :=
    ⟨[], ['.'], .error (.malformedNumber "." Literal.Error.malformed.message place place)⟩
  [⟨[], ['x'], .ok (.single (.identifier "x") ⟨0, 0⟩)⟩, point ⟨0, 1⟩, point ⟨0, 2⟩,
    ⟨[], ['y'], .ok (.single (.identifier "y") ⟨0, 3⟩)⟩]

theorem splits_twoPoints : Splits .start ['x', '.', '.', 'y'] twoPoints [] := by
  have names : isNameStart 'x' = true ∧ isNameStart 'y' = true ∧ isNamePart '.' = false := by
    decide +kernel
  obtain ⟨hx, hy, hp⟩ := names
  have name (place : Position) {c : Char} {rest : List Char} (hc : isNameStart c = true)
      (he : EndsName rest) :
      Munch place place [c] rest (.ok (.single (.identifier (String.ofList [c])) place)) :=
    .name ⟨c, [], rfl, hc, List.forall_mem_nil _⟩ he
  have point (place : Position) {rest : List Char} (he : EndsNumeral ['.'] rest) :
      Munch place place ['.'] rest
        (.error (.malformedNumber "." Literal.Error.malformed.message place place)) :=
    .malformed ⟨by simp, by simp, by simp⟩ he rfl
  have last : Splits ⟨0, 3⟩ ['y'] _ [] :=
    .lexeme (w := ['y']) (name ⟨0, 3⟩ hy (by simp [EndsName])) (.done (List.forall_mem_nil _))
  have third : Splits ⟨0, 2⟩ ['.', 'y'] _ [] :=
    .lexeme (w := ['.']) (point ⟨0, 2⟩ (by simp [EndsNumeral])) last
  have second : Splits ⟨0, 1⟩ ['.', '.', 'y'] _ [] :=
    .lexeme (w := ['.']) (point ⟨0, 1⟩ (by simp [EndsNumeral])) third
  exact .lexeme (w := ['x']) (name ⟨0, 0⟩ hx (by simp [EndsName, hp])) second

/-- White space draws the two points apart, and between two copies of the text it keeps them
apart. -/
theorem white_space_moves_twoPoints :
    Reader.ReadsAs ⟨.ofText "x..y", none⟩ ['x', '.', '.', 'y'] ∧
    Splits .start ['x', '.', '.', 'y'] twoPoints [] ∧
    Spaced twoPoints [] ['x', ' ', '.', '\n', '.', 'y'] ∧
    (∃ pieces' move, (Source.ofText "x .\n.y").Returns (pieces'.map Piece.answer) ⟨1, 2⟩ ∧
      Carries move .start .start ['x', '.', '.', 'y'] ['x', ' ', '.', '\n', '.', 'y']
        twoPoints pieces' ∧
      ∀ options, (parseSource options (.ofText "x .\n.y")).result =
        (parseSource options (.ofText "x..y")).result.mapError (ParseError.relocate move)) ∧
    (Source.ofText "x..y x..y").Returns (twoPoints.map Piece.answer ++
      twoPoints.map fun piece => relocateAnswer (Position.mk 0 5).offset piece.answer) ⟨0, 9⟩ := by
  have h : Reader.ReadsAs ⟨.ofText "x..y", none⟩ ['x', '.', '.', 'y'] :=
    Text.readsAs_ofText "x..y"
  have gap : ∀ c ∈ [' '], isBlank c = true := List.forall_mem_singleton.mpr (by decide)
  have line : ∀ c ∈ ['\n'], isBlank c = true := List.forall_mem_singleton.mpr (by decide)
  have touching : ∀ c ∈ [], isBlank c = true := List.forall_mem_nil _
  have spaced : Spaced twoPoints [] ['x', ' ', '.', '\n', '.', 'y'] :=
    .piece (.refl []) touching (.piece (List.nil_sublist _) gap (.piece (List.nil_sublist _) line
      (.piece (.refl []) touching (.done (.refl []) touching))))
  obtain ⟨-, insertion, behind⟩ := white_space_moves_places h splits_twoPoints
  obtain ⟨pieces', _, -, -, hr, ⟨move, carries⟩, parses⟩ :=
    insertion _ _ (Text.readsAs_ofText "x .\n.y") spaced
  obtain ⟨-, both⟩ := behind _ _ _ [' '] _ _ h splits_twoPoints (by simp) gap
    (Text.readsAs_ofText "x..y x..y")
  exact ⟨h, splits_twoPoints, spaced, ⟨pieces', move, hr, carries, parses move carries⟩, both⟩

end FormulaLang
