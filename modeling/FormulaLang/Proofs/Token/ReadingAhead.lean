import FormulaLang.Proofs.Parser.Calls
import FormulaLang.Proofs.Text.Decoding
import FormulaLang.Proofs.Token.Failures

/-!
# Reading one character ahead

The reads of a lexer are dealt out to the characters that it has decoded, which are those it has
passed and the one ahead. So it has read their bytes and at most one more, and nothing is read
behind the end of the input.
-/
namespace FormulaLang

open Text (Fills Fetches furtherBytes isContinuation decodeGroup isBlank isLineEnd)

namespace Text

/-- A group that lacks bytes which its first one announces. -/
def IsTruncated (group : List UInt8) : Prop :=
  ∃ first more, group = first :: more ∧ more.length < furtherBytes first

/-- The reads are those of characters with these groups. The byte held back behind the last one
is not part of any group yet. -/
inductive Dealt : List ReadAnswer → List (List UInt8) → Option UInt8 → Prop where
  | nil : Dealt [] [] none
  | snoc {reads groups before answers group after} : Dealt reads groups before →
      Fetches before answers group after → Dealt (reads ++ answers) (groups ++ [group]) after

variable {reads : List ReadAnswer} {groups : List (List UInt8)} {after : Option UInt8}
  {byte : UInt8}

theorem Dealt.bytes (h : Dealt reads groups after) :
    reads.filterMap ReadAnswer.byte? = groups.flatten ++ after.toList := by
  induction h with
  | nil => rfl
  | snoc _ hf ih =>
    rw [List.filterMap_append, ih, List.append_assoc, hf.bytes]
    simp

theorem Dealt.held (h : Dealt reads groups (some byte)) :
    ∃ earlier last, groups = earlier ++ [last] ∧ IsTruncated last ∧
      isContinuation byte = false := by
  cases h with
  | snoc _ hf =>
    obtain ⟨start, first, answers, more, -, -, rfl, fills, -⟩ := hf.reads
    cases fills with
    | stopped _ hl hb => exact ⟨_, _, rfl, ⟨first, more, rfl, hl⟩, hb⟩

end Text

open Text (Dealt IsTruncated)

/-! ## What a lexer has read -/

/-- The reads of all characters decoded, and once nothing is ahead the one behind them, which
found the end of the input. -/
inductive Lexer.HasRead (m : Lexer) : List ReadAnswer → List (List UInt8) → Prop where
  | ahead {reads groups c} : m.ahead = some c → Dealt reads groups m.reader.held →
      HasRead m reads groups
  | ended {reads groups} : m.ahead = none → m.reader.held = none → Dealt reads groups none →
      HasRead m (reads ++ [.nothing]) groups

structure Stands (source : Source) (reads : List ReadAnswer) (groups : List (List UInt8))
    (passed : List Char) (m : Lexer) : Prop where
  performed : source.Performs reads m.reader.source
  hasRead : m.HasRead reads groups
  chars : groups.map decodeGroup = passed ++ m.ahead.toList
  place : m.place = Position.start.after passed
  coherent : m.Coherent

section

variable {source : Source} {reads : List ReadAnswer} {groups : List (List UInt8)}
  {passed w : List Char} {c : Char} {l m n : Lexer}

theorem stands_of_advance (performed : source.Performs reads l.reader.source)
    (dealt : Dealt reads groups l.reader.held) (decoded : groups.map decodeGroup = passed)
    (upcoming : l.upcoming = Position.start.after passed) (h : l.advance = (none, m)) :
    ∃ reads groups, Stands source reads groups passed m := by
  unfold Lexer.advance at h
  split at h
  next => cases h
  next hr =>
    cases h
    have used := Reader.readChar_none hr
    have after := Reader.readChar_none_held hr
    have before : l.reader.held = none := by
      simpa [after, ReadAnswer.byte?] using used.bytes
    refine ⟨reads ++ [.nothing], groups, ?_⟩
    constructor
    · exact performed.append used.performed
    · exact .ended rfl after (before ▸ dealt)
    · simpa using decoded
    · exact upcoming
    · rfl
  next hr =>
    cases h
    obtain ⟨answers, group, hp, hf, rfl⟩ := Reader.readChar_some hr
    refine ⟨reads ++ answers, groups ++ [group], ?_⟩
    constructor
    · exact performed.append hp
    · exact .ahead rfl (dealt.snoc hf)
    · simp [decoded]
    · exact upcoming
    · rfl

theorem stands_start (h : Lexer.start source = (none, l)) :
    ∃ reads groups, Stands source reads groups [] l :=
  stands_of_advance (l := Lexer.fresh source) (.nil source) .nil rfl rfl h

theorem Stands.advance (h : Stands source reads groups passed l) (ha : l.ahead = some c)
    (hm : l.advance = (none, m)) :
    ∃ reads groups, Stands source reads groups (passed ++ [c]) m := by
  have dealt : Dealt reads groups l.reader.held := by
    cases h.hasRead with
    | ahead _ hd => exact hd
    | ended hn => cases hn.symm.trans ha
  have decoded := h.chars
  have upcoming : l.upcoming = l.place.after l.ahead.toList := h.coherent
  rw [ha] at decoded upcoming
  rw [h.place, ← Position.after_append] at upcoming
  exact stands_of_advance h.performed dealt decoded upcoming hm

theorem Stands.crosses (h : Stands source reads groups passed l) (hx : l.Crosses w m) :
    ∃ reads groups, Stands source reads groups (passed ++ w) m := by
  induction hx generalizing reads groups passed with
  | nil => exact ⟨reads, groups, by simpa using h⟩
  | cons ha hm _ ih =>
    obtain ⟨reads, groups, hs⟩ := h.advance ha hm
    simpa using ih hs

end

/-! ## Calls -/

/-- Successive calls that do not fail, and what each of them takes. -/
inductive Lexer.Collects : Lexer → List Piece → Lexer → Prop where
  | nil (l) : Collects l [] l
  | cons {l m n piece pieces} : l.next = (piece.answer, m) → Yields l piece m →
      Collects m pieces n → Collects l (piece :: pieces) n

def Piece.text (piece : Piece) : List Char := piece.blanks ++ piece.lexeme

section

variable {source s t : Source} {reads : List ReadAnswer} {answers : List (Except TokenError Lexeme)}
  {answer : Except TokenError Lexeme} {error : ReadError} {piece : Piece} {pieces : List Piece}
  {l m n : Lexer} {found : Lexeme}

theorem Source.Performs.unfailing (h : s.Performs reads t) (hs : Unfailing s.upcoming) :
    Unfailing reads ∧ Unfailing t.upcoming := by
  induction h with
  | nil => exact ⟨unfailing_nil, hs⟩
  | @cons s t u answer answers hr _ ih =>
    obtain ⟨upcoming, count⟩ := s
    cases upcoming with
    | nil =>
      cases hr
      obtain ⟨ha, hu⟩ := ih hs
      refine ⟨fun error hm => ?_, hu⟩
      rcases List.mem_cons.mp hm with hm | hm
      · cases hm
      · exact ha error hm
    | cons first upcoming =>
      cases hr
      obtain ⟨ha, hu⟩ := ih fun error hm => hs error (List.mem_cons_of_mem _ hm)
      refine ⟨fun error hm => ?_, hu⟩
      rcases List.mem_cons.mp hm with rfl | hm
      · exact hs error (List.mem_cons_self ..)
      · exact ha error hm

theorem FailsLast.not_unfailing (h : FailsLast reads error) : ¬ Unfailing reads := by
  obtain ⟨earlier, rfl, -⟩ := h
  intro hu
  exact hu error (by simp)

theorem start_succeeds (h : Unfailing source.upcoming) : ∃ l, Lexer.start source = (none, l) := by
  rcases hs : Lexer.start source with ⟨_ | error, l⟩
  · exact ⟨l, rfl⟩
  · obtain ⟨reads, lost, hb⟩ := Lexer.advance_breaks (l := Lexer.fresh source) rfl hs
    exact absurd (hb.passes.uses.performed.unfailing h).1 hb.failsLast.not_unfailing

theorem next_readable (hl : l.Coherent) (hu : Unfailing l.reader.source.upcoming)
    (h : l.next = (answer, m)) : answer ≠ .error (.unreadable error) := by
  rintro rfl
  obtain ⟨reads, groups, lost, blanks, taken, c, hb, -⟩ := Lexer.next_breaks hl h
  exact hb.failsLast.not_unfailing (hb.passes.uses.performed.unfailing hu).1

theorem Lexer.Yields.crosses (h : Yields l piece m) : l.Crosses piece.text m := by
  cases h with
  | item hx => exact hx
  | ending hx => simpa [Piece.text] using hx

theorem collects_of_emits (hl : l.Coherent) (hu : Unfailing l.reader.source.upcoming)
    (h : l.Emits answers m) :
    ∃ pieces, pieces.map Piece.answer = answers ∧ l.Collects pieces m := by
  induction h with
  | nil l => exact ⟨[], rfl, .nil l⟩
  | cons hn _ ih =>
    obtain ⟨blanks, taken, hy⟩ := Lexer.next_yields hl hn fun _ => next_readable hl hu hn
    obtain ⟨reads, groups, hg⟩ := hy.crosses.goes hl
    obtain ⟨pieces, rfl, hc⟩ :=
      ih hg.passes.coherent (hg.passes.uses.performed.unfailing hu).2
    exact ⟨_ :: pieces, rfl, .cons hn hy hc⟩

theorem Lexer.Collects.crosses (h : l.Collects pieces m) :
    l.Crosses (pieces.flatMap Piece.text) m := by
  induction h with
  | nil l => exact .nil l
  | cons _ hy _ ih => exact hy.crosses.append ih

/-! ## The end of the input -/

theorem finish_not_eof {kind : LongToken} {text : List Char} {first last : Position}
    (h : kind.finish text first last = .ok found) : found.token.isEof = false := by
  unfold LongToken.finish at h
  split at h
  · cases h
    rfl
  · split at h
    · cases h
      rfl
    · cases h

theorem next_eof (h : l.next = (.ok found, m)) (he : found.token.isEof = true) :
    m.ahead = none ∧ found = .single .eof m.place := by
  unfold Lexer.next at h
  split at h
  next => cases h
  next k _ =>
    split at h
    next ha =>
      cases h
      exact ⟨ha, rfl⟩
    next c _ =>
      -- Whatever begins with a character is another token than the end.
      split at h
      next => cases h
      next =>
        split at h
        next =>
          cases h
          cases (Token.isEof_ofChar c).symm.trans he
        next =>
          split at h
          next => cases h
          next => cases (finish_not_eof (Prod.mk.inj h).1).symm.trans he

theorem next_at_end (ha : l.ahead = none) : l.next = (.ok (.single .eof l.place), l) := by
  have skips : l.skipBlanks = (none, l) := Lexer.skipBlanks_stop (by simp [ha])
  unfold Lexer.next
  simp [skips, ha]

theorem emits_at_end (ha : l.ahead = none) (h : l.Emits answers m) :
    m = l ∧ ∀ answer ∈ answers, answer = .ok (.single .eof l.place) := by
  induction h with
  | nil => exact ⟨rfl, List.forall_mem_nil _⟩
  | cons hn _ ih =>
    cases (next_at_end ha).symm.trans hn
    obtain ⟨rfl, hall⟩ := ih ha
    exact ⟨rfl, List.forall_mem_cons.mpr ⟨rfl, hall⟩⟩

end

/-! ## The number of reads for a text -/

namespace Reader

variable {group more : List UInt8} {rest : List ReadAnswer} {count : Nat}

theorem fillGroup_continuations (h : ∀ byte ∈ more, isContinuation byte = true) :
    fillGroup more.length group ⟨⟨more.map .byte ++ rest, count⟩, none⟩ =
      (.ok (group ++ more), ⟨⟨rest, count + more.length⟩, none⟩) := by
  induction more generalizing group count with
  | nil => simp [fillGroup]
  | cons byte more ih =>
    obtain ⟨hb, hm⟩ := List.forall_mem_cons.mp h
    have first : takeByte ⟨⟨(byte :: more).map .byte ++ rest, count⟩, none⟩ =
        (.ok (some byte), ⟨⟨more.map .byte ++ rest, count + 1⟩, none⟩) := rfl
    rw [List.length_cons, fillGroup, first]
    simp only [hb, if_true]
    rw [ih hm, List.append_assoc, Nat.add_right_comm, Nat.add_assoc]
    rfl

/-- An encoded character takes one read for each of its bytes. -/
theorem readChar_encoded (c : Char) :
    readChar ⟨⟨(String.utf8EncodeChar c).map .byte ++ rest, count⟩, none⟩ =
      (.ok (some c), ⟨⟨rest, count + (String.utf8EncodeChar c).length⟩, none⟩) := by
  obtain ⟨first, more, he, -, hl, hm⟩ := Text.encoded_shape c
  have decoded := Text.decodeGroup_encoded c
  rw [he] at decoded ⊢
  have taken : takeByte ⟨⟨(first :: more).map .byte ++ rest, count⟩, none⟩ =
      (.ok (some first), ⟨⟨more.map .byte ++ rest, count + 1⟩, none⟩) := rfl
  rw [readChar, taken]
  simp only [hl, fillGroup_continuations hm, List.singleton_append, decoded, List.length_cons]
  rw [Nat.add_assoc, Nat.add_comm 1]

end Reader

/-- The lexer is in a text with this number of bytes, or has made the read behind it. -/
inductive Lexer.InText (size : Nat) (rest : List ReadAnswer) : Lexer → Prop where
  | inside {l c} {cs : List Char} {count} : l.ahead = some c →
      l.reader = ⟨⟨(cs.flatMap String.utf8EncodeChar).map .byte ++ rest, count⟩, none⟩ →
      count + (cs.flatMap String.utf8EncodeChar).length = size → InText size rest l
  | behind {l} : l.ahead = none → l.reader.source.reads = size + 1 → InText size rest l

section

variable {size count : Nat} {rest : List ReadAnswer} {cs w : List Char} {l m : Lexer}
  {ls : List Lexeme}

theorem inText_of_advance (ends : ∀ answer ∈ rest.head?, answer = .nothing)
    (hr : l.reader = ⟨⟨(cs.flatMap String.utf8EncodeChar).map .byte ++ rest, count⟩, none⟩)
    (hs : count + (cs.flatMap String.utf8EncodeChar).length = size)
    (h : l.advance = (none, m)) : Lexer.InText size rest m := by
  unfold Lexer.advance at h
  cases cs with
  | nil =>
    have found : ∃ reader, l.reader.readChar = (.ok none, reader) ∧
        reader.source.reads = size + 1 := by
      rw [hr, ← hs]
      cases rest with
      | nil => exact ⟨_, rfl, rfl⟩
      | cons answer rest =>
        obtain rfl := ends answer rfl
        exact ⟨_, rfl, rfl⟩
    obtain ⟨reader, hn, hc⟩ := found
    rw [hn] at h
    cases h
    exact .behind rfl hc
  | cons c cs =>
    rw [List.flatMap_cons, List.map_append, List.append_assoc] at hr
    rw [hr, Reader.readChar_encoded] at h
    cases h
    refine .inside rfl rfl ?_
    rw [← hs, List.flatMap_cons, List.length_append, Nat.add_assoc]

theorem Lexer.Crosses.inText (hx : l.Crosses w m)
    (ends : ∀ answer ∈ rest.head?, answer = .nothing) (h : l.InText size rest) :
    m.InText size rest := by
  induction hx with
  | nil => exact h
  | cons ha hm _ ih =>
    cases h with
    | inside _ hr hs => exact ih (inText_of_advance ends hr hs hm)
    | behind hn => cases hn.symm.trans ha

theorem Delivers.crosses (hl : l.Coherent) (h : Delivers l ls m) : ∃ w, l.Crosses w m := by
  induction h with
  | nil l => exact ⟨[], .nil l⟩
  | cons hn _ ih =>
    obtain ⟨blanks, taken, hy⟩ := Lexer.next_yields hl hn nofun
    obtain ⟨reads, groups, hg⟩ := hy.crosses.goes hl
    obtain ⟨w, hw⟩ := ih hg.passes.coherent
    exact ⟨_, hy.crosses.append hw⟩

theorem parse_reads {options : ParseOptions} {source : Source} {text : String} {e : Expr}
    (hs : source = .ofAnswers (text.toUTF8.toList.map .byte ++ rest))
    (ends : ∀ answer ∈ rest.head?, answer = .nothing)
    (h : (parseSource options source).result = .ok e) :
    (parseSource options source).feed.source.reader.source.reads = text.utf8ByteSize + 1 := by
  have bytes : (text.toList.flatMap String.utf8EncodeChar).length = text.utf8ByteSize := by
    rw [← Text.toUTF8_toList, Text.toList_eq_data]
    rfl
  rw [Text.toUTF8_toList] at hs
  subst hs
  unfold parseSource at h ⊢
  split at h
  next => cases h
  next l hstart =>
    have first : l.InText text.utf8ByteSize rest :=
      inText_of_advance (l := Lexer.fresh _) ends rfl (by rw [Nat.zero_add, bytes]) hstart
    obtain ⟨_, _, hl⟩ := stands_start hstart
    obtain ⟨ls, ending, hd, -⟩ := parse_ok_delivers h
    obtain ⟨w, hw⟩ := hd.delivered.crosses hl.coherent
    obtain ⟨k, -, hn⟩ := hd.delivered.split_last
    -- The last token taken is the end, so the lexer is no longer inside the text.
    cases hw.inText ends first with
    | inside ha => cases (next_eof hn hd.eof).1.symm.trans ha
    | behind _ hc => exact hc

end

theorem Lexer.HasRead.bytes {m : Lexer} {reads : List ReadAnswer} {groups : List (List UInt8)}
    (h : m.HasRead reads groups) :
    reads.filterMap ReadAnswer.byte? = groups.flatten ++ m.reader.held.toList := by
  cases h with
  | ahead _ hd => exact hd.bytes
  | ended _ hh hd =>
    rw [List.filterMap_append, hd.bytes, hh]
    simp [ReadAnswer.byte?]

theorem Lexer.HasRead.held {m : Lexer} {reads : List ReadAnswer} {groups : List (List UInt8)}
    (h : m.HasRead reads groups) : ∀ byte ∈ m.reader.held, ∃ earlier last,
      groups = earlier ++ [last] ∧ IsTruncated last ∧ isContinuation byte = false := by
  intro byte hb
  cases h with
  | ahead _ hd =>
    rw [Option.mem_def.mp hb] at hd
    exact hd.held
  | ended _ hh => cases hh.symm.trans hb

/-- When no read fails, the reads of a lexer are those of the characters that its calls have taken
and of the one ahead, and it holds back at most one byte, which has cut the last of these short.
Once a call has returned the end of the input, all later ones return the same and read nothing.
So a successful parse of a text takes one read for each byte and one more. -/
theorem reads_one_character_ahead :
    (∀ source : Source, Unfailing source.upcoming → ∃ l, Lexer.start source = (none, l) ∧
      ∀ answers m, l.Emits answers m → ∃ reads groups pieces,
        l.Collects pieces m ∧ pieces.map Piece.answer = answers ∧
        Stands source reads groups (pieces.flatMap Piece.text) m ∧
        reads.filterMap ReadAnswer.byte? = groups.flatten ++ m.reader.held.toList ∧
        ∀ byte ∈ m.reader.held, ∃ earlier last,
          groups = earlier ++ [last] ∧ IsTruncated last ∧ isContinuation byte = false) ∧
    (∀ (l : Lexer) found m, l.next = (.ok found, m) → found.token.isEof = true →
      ∀ answers n, m.Emits answers n → n = m ∧ ∀ answer ∈ answers, answer = .ok found) ∧
    ∀ options (text : String) rest e, (∀ answer ∈ rest.head?, answer = .nothing) →
      let run := parseSource options (.ofAnswers (text.toUTF8.toList.map .byte ++ rest))
      run.result = .ok e → run.feed.source.reader.source.reads = text.utf8ByteSize + 1 := by
  refine ⟨?_, ?_, ?_⟩
  · intro source hu
    obtain ⟨l, hl⟩ := start_succeeds hu
    obtain ⟨_, _, first⟩ := stands_start hl
    refine ⟨l, hl, fun answers m he => ?_⟩
    have later := (first.performed.unfailing hu).2
    obtain ⟨pieces, ha, hc⟩ := collects_of_emits first.coherent later he
    obtain ⟨reads, groups, hs⟩ := first.crosses hc.crosses
    exact ⟨reads, groups, pieces, hc, ha, hs, hs.hasRead.bytes, hs.hasRead.held⟩
  · intro l found m hn eof answers n he
    obtain ⟨ha, rfl⟩ := next_eof hn eof
    exact emits_at_end ha he
  · intro options text rest e ends run h
    exact parse_reads rfl ends h

/-- The first byte of two, cut short by a plus sign. -/
def cutByPlus : Source := .ofAnswers [.byte 0xC3, .byte 0x2B]

theorem parse_letter : (parseSource ⟨none⟩ (.ofText "é")).result = .ok (.var "é") := by
  have letter : IsName ['é'] := ⟨'é', [], rfl, by decide +kernel, List.forall_mem_nil _⟩
  have split : Splits .start ['é'] [⟨[], ['é'], .ok ⟨.identifier "é", .start, .start⟩⟩] [] :=
    @Splits.piece .start [] ['é'] [] _ [] [] (List.forall_mem_nil _)
      (.name letter (by simp [EndsName])) (.done (List.forall_mem_nil _))
  obtain ⟨l, hl, hf⟩ := Lexer.start_faces (Text.readsAs_ofText "é")
  obtain ⟨m, he, hm⟩ := hf.emits split
  have delivered : Delivers l [⟨.identifier "é", .start, .start⟩] m := by
    cases he with
    | cons hn he =>
      cases he
      exact .cons hn (.nil m)
  have accepted : (parse ⟨none⟩ l).result = .ok (.var "é") :=
    Parser.parse_accept (delivered.snoc (Prod.ext hm rfl)) rfl rfl
  unfold parseSource
  rw [hl]
  exact accepted

/-- The plus sign is held back. The two bytes of a letter take three reads. -/
theorem reads_one_character_ahead_heldPlus : Unfailing cutByPlus.upcoming ∧
    (∃ l reads groups, Lexer.start cutByPlus = (none, l) ∧ l.reader.held = some 0x2B ∧
      Stands cutByPlus reads groups [] l ∧
      reads.filterMap ReadAnswer.byte? = groups.flatten ++ [0x2B]) ∧
    (parseSource ⟨none⟩ (.ofText "é")).result = .ok (.var "é") ∧
    (parseSource ⟨none⟩ (.ofText "é")).feed.source.reader.source.reads = 3 := by
  have unfailing : Unfailing cutByPlus.upcoming := unfailing_bytes [0xC3, 0x2B]
  obtain ⟨ahead, -, reads⟩ := reads_one_character_ahead
  refine ⟨unfailing, ?_, parse_letter, ?_⟩
  · obtain ⟨l, hl, calls⟩ := ahead cutByPlus unfailing
    have held : l.reader.held = some 0x2B := by
      cases hl
      rfl
    obtain ⟨reads, groups, pieces, -, none, hs, hb, -⟩ := calls [] l (.nil l)
    rw [List.map_eq_nil_iff.mp none] at hs
    rw [held] at hb
    exact ⟨l, reads, groups, hl, held, hs, hb⟩
  · have three := reads ⟨none⟩ "é" [] (.var "é") (by simp)
    simp only [List.append_nil] at three
    exact three parse_letter

end FormulaLang
