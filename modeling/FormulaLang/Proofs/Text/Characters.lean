import FormulaLang.Text.Source

/-!
# The characters of a source

What the answers still to come mean for the calls of a reader. `ReadsAs` says which characters
follow before the end of the input when no read fails; for a source of plain bytes these are
`Text.decode`. Each call uses up a group of answers, and no answer is used twice.
-/
namespace FormulaLang

namespace Reader

/-- The answers still to come, a held back byte before all others. -/
def pending (r : Reader) : List ReadAnswer := r.held.toList.map .byte ++ r.source.upcoming

/-- No read fails before the first call without a character, and the calls before it give
these characters. -/
inductive ReadsAs : Reader → List Char → Prop where
  | nil {r s} : r.readChar = (.ok none, s) → ReadsAs r []
  | cons {r s c cs} : r.readChar = (.ok (some c), s) → ReadsAs s cs → ReadsAs r (c :: cs)

/-- The characters up to the first call without one. -/
def characters (r : Reader) : List Char :=
  match _ : r.readChar with
  | (.ok (some c), s) => c :: s.characters
  | _ => []
termination_by r.remaining
decreasing_by exact remaining_readChar_some ‹_›

variable {r s : Reader} {bytes group : List UInt8} {byte first : UInt8}

theorem characters_eq {cs : List Char} (h : ReadsAs r cs) : r.characters = cs := by
  induction h with
  | nil hr => rw [characters]; split <;> simp_all
  | cons hr _ ih => rw [characters]; split <;> simp_all

theorem pending_hold (h : r.held = none) :
    pending ⟨r.source, some byte⟩ = .byte byte :: r.pending := by
  simp [pending, h]

theorem takeByte_byte {rest : List ReadAnswer} (h : r.pending = .byte byte :: rest) :
    ∃ s, r.takeByte = (.ok (some byte), s) ∧ s.pending = rest ∧ s.held = none := by
  obtain ⟨⟨upcoming, reads⟩, held⟩ := r
  cases held with
  | some b =>
    obtain ⟨rfl, rfl⟩ : b = byte ∧ upcoming = rest := by simpa [pending] using h
    exact ⟨_, rfl, by simp [pending], rfl⟩
  | none =>
    obtain rfl : upcoming = .byte byte :: rest := by simpa [pending] using h
    exact ⟨_, rfl, by simp [pending], rfl⟩

theorem takeByte_end (h : r.pending = []) : ∃ s, r.takeByte = (.ok none, s) ∧ s.pending = [] := by
  obtain ⟨⟨upcoming, reads⟩, held⟩ := r
  obtain ⟨rfl, rfl⟩ : held = none ∧ upcoming = [] := by simpa [pending] using h
  exact ⟨_, rfl, rfl⟩

end Reader

namespace Text

/-- The continuation bytes in front, as many as there are but no more than wanted. -/
def continuations (want : Nat) (bytes : List UInt8) : List UInt8 :=
  (bytes.take want).takeWhile isContinuation

/-- Bytes in groups: a first byte with the continuation bytes it announces, as far as there
are any. -/
def groups : List UInt8 → List (List UInt8)
  | [] => []
  | first :: bytes =>
    (first :: continuations (furtherBytes first) bytes) ::
      groups (bytes.drop (continuations (furtherBytes first) bytes).length)
termination_by bytes => bytes.length

/-- The characters of a source that delivers these bytes. -/
def decode (bytes : List UInt8) : List Char := Reader.characters ⟨Source.ofBytes bytes, none⟩

variable {want : Nat} {bytes : List UInt8} {byte first : UInt8}

@[simp] theorem continuations_zero : continuations 0 bytes = [] := by simp [continuations]

@[simp] theorem continuations_nil : continuations want [] = [] := by simp [continuations]

theorem continuations_more (h : isContinuation byte = true) :
    continuations (want + 1) (byte :: bytes) = byte :: continuations want bytes := by
  simp [continuations, h]

theorem continuations_stop (h : isContinuation byte = false) :
    continuations want (byte :: bytes) = [] := by
  cases want <;> simp [continuations, h]

theorem continuations_isPrefix (want : Nat) (bytes : List UInt8) :
    continuations want bytes <+: bytes :=
  (List.takeWhile_prefix _).trans (List.take_prefix _ _)

theorem continuations_append_drop (want : Nat) (bytes : List UInt8) :
    continuations want bytes ++ bytes.drop (continuations want bytes).length = bytes :=
  List.prefix_iff_eq_append.mp (continuations_isPrefix want bytes)

theorem length_continuations_le : (continuations want bytes).length ≤ want := by
  calc (continuations want bytes).length
      ≤ (bytes.take want).length := (List.takeWhile_prefix _).length_le
    _ ≤ want := List.length_take_le want bytes

theorem furtherBytes_le (first : UInt8) : furtherBytes first ≤ 3 := by
  unfold furtherBytes
  split
  · decide
  · split
    · decide
    · split <;> decide

theorem groups_flatten (bytes : List UInt8) : (groups bytes).flatten = bytes := by
  fun_induction groups bytes with
  | case1 => rfl
  | case2 first bytes ih =>
    rw [List.flatten_cons, ih]
    exact congrArg (first :: ·) (continuations_append_drop _ bytes)

theorem length_of_mem_groups {group : List UInt8} (h : group ∈ groups bytes) :
    1 ≤ group.length ∧ group.length ≤ 4 := by
  fun_induction groups bytes with
  | case1 => simp at h
  | case2 first bytes ih =>
    rcases List.mem_cons.mp h with rfl | h
    · have hm := @length_continuations_le (furtherBytes first) bytes
      have hf := furtherBytes_le first
      simp only [List.length_cons]
      omega
    · exact ih h

end Text

namespace Reader

open Text

variable {r s : Reader} {bytes group : List UInt8} {first : UInt8}

theorem fillGroup_bytes (group : List UInt8) (want : Nat) (h : r.pending = bytes.map .byte) :
    ∃ s, fillGroup want group r = (.ok (group ++ continuations want bytes), s) ∧
      s.pending = (bytes.drop (continuations want bytes).length).map .byte := by
  induction want generalizing r bytes group with
  | zero => exact ⟨r, by simp [fillGroup], by simpa using h⟩
  | succ want ih =>
    cases bytes with
    | nil =>
      obtain ⟨s, hs, hp⟩ := takeByte_end h
      exact ⟨s, by simp [fillGroup, hs], by simpa using hp⟩
    | cons byte bytes =>
      obtain ⟨t, ht, hp, hf⟩ := takeByte_byte h
      by_cases hc : isContinuation byte = true
      · obtain ⟨s, hs, hq⟩ := ih (group ++ [byte]) hp
        refine ⟨s, ?_, ?_⟩
        · simp [fillGroup, ht, hc, hs, continuations_more]
        · simpa [continuations_more hc] using hq
      · -- The byte is held back, so the answers to come are what they were.
        rw [Bool.not_eq_true] at hc
        refine ⟨⟨t.source, some byte⟩, ?_, ?_⟩
        · simp [fillGroup, ht, hc, continuations_stop]
        · simp [pending_hold hf, hp, continuations_stop hc]

theorem readChar_bytes (h : r.pending = (first :: bytes).map .byte) :
    ∃ s, r.readChar =
        (.ok (some (decodeGroup (first :: continuations (furtherBytes first) bytes))), s) ∧
      s.pending = (bytes.drop (continuations (furtherBytes first) bytes).length).map .byte := by
  obtain ⟨t, ht, hp, -⟩ := takeByte_byte h
  obtain ⟨s, hs, hq⟩ := fillGroup_bytes [first] (furtherBytes first) hp
  exact ⟨s, by simp [readChar, ht, hs], hq⟩

theorem readChar_end (h : r.pending = []) :
    ∃ s, r.readChar = (.ok none, s) ∧ s.pending = [] := by
  obtain ⟨s, hs, hp⟩ := takeByte_end h
  exact ⟨s, by simp [readChar, hs], hp⟩

/-- The calls before the end of the input give these characters, each for the group of bytes
that the call uses up, and all bytes are used up. -/
inductive Takes : Reader → List (List UInt8 × Char) → Prop where
  | nil {r s : Reader} : r.readChar = (.ok none, s) → r.pending = [] → Takes r []
  | cons {r s : Reader} {g : List UInt8} {c rest} : r.readChar = (.ok (some c), s) →
      r.pending = g.map .byte ++ s.pending → Takes s rest → Takes r ((g, c) :: rest)

theorem Takes.readsAs {taken : List (List UInt8 × Char)} (h : Takes r taken) :
    ReadsAs r (taken.map Prod.snd) := by
  induction h with
  | nil hr => exact .nil hr
  | cons hr _ _ ih => exact .cons hr ih

theorem takes_bytes (h : r.pending = bytes.map .byte) :
    Takes r ((groups bytes).map fun group => (group, decodeGroup group)) := by
  fun_induction groups bytes generalizing r with
  | case1 =>
    obtain ⟨s, hs, -⟩ := readChar_end h
    exact .nil hs h
  | case2 first bytes ih =>
    obtain ⟨s, hs, hp⟩ := readChar_bytes h
    refine .cons hs ?_ (ih hp)
    rw [h, hp, ← List.map_append]
    exact congrArg (fun l => (first :: l).map ReadAnswer.byte)
      (continuations_append_drop _ bytes).symm

theorem pending_ofBytes (bytes : List UInt8) :
    pending ⟨Source.ofBytes bytes, none⟩ = bytes.map .byte := rfl

theorem takes_ofBytes (bytes : List UInt8) :
    Takes ⟨Source.ofBytes bytes, none⟩
      ((groups bytes).map fun group => (group, decodeGroup group)) :=
  takes_bytes (pending_ofBytes bytes)

theorem readsAs_decode (bytes : List UInt8) :
    ReadsAs ⟨Source.ofBytes bytes, none⟩ (decode bytes) := by
  rw [decode, characters_eq (takes_ofBytes bytes).readsAs]
  exact (takes_ofBytes bytes).readsAs

end Reader

theorem Text.decode_eq_groups (bytes : List UInt8) :
    decode bytes = (groups bytes).map decodeGroup := by
  rw [decode, Reader.characters_eq (Reader.takes_ofBytes bytes).readsAs]
  simp

end FormulaLang
