import FormulaLang.Proofs.Text.Characters

/-!
# The reads behind a character

What a call for a character reads, and what becomes of the bytes. They are those of the
character, but for one that may be held back before or after it. A failing read is the last one
of its call, and the bytes that the call has taken until then are lost.
-/
namespace FormulaLang

def ReadAnswer.byte? : ReadAnswer → Option UInt8
  | .byte value => some value
  | _ => none

def Unfailing (answers : List ReadAnswer) : Prop := ∀ error, .failure error ∉ answers

/-- The last of the reads fails, and no other does. -/
def FailsLast (answers : List ReadAnswer) (error : ReadError) : Prop :=
  ∃ earlier, answers = earlier ++ [.failure error] ∧ Unfailing earlier

section

variable {answers more : List ReadAnswer} {error : ReadError}

theorem unfailing_nil : Unfailing [] := fun _ => List.not_mem_nil

theorem Unfailing.append (h : Unfailing answers) (k : Unfailing more) :
    Unfailing (answers ++ more) := by
  intro error hm
  rcases List.mem_append.mp hm with hm | hm
  · exact h error hm
  · exact k error hm

theorem Unfailing.failsLast (h : Unfailing answers) (k : FailsLast more error) :
    FailsLast (answers ++ more) error := by
  obtain ⟨earlier, rfl, he⟩ := k
  exact ⟨answers ++ earlier, by simp, h.append he⟩

theorem unfailing_bytes (bytes : List UInt8) : Unfailing (bytes.map .byte) := by
  intro error hm
  simp at hm

theorem filterMap_bytes (bytes : List UInt8) :
    (bytes.map ReadAnswer.byte).filterMap ReadAnswer.byte? = bytes := by
  induction bytes with
  | nil => rfl
  | cons byte bytes ih => simp [ReadAnswer.byte?, ih]

end

/-- Successive reads of the first source give these answers and leave the second one. -/
inductive Source.Performs : Source → List ReadAnswer → Source → Prop where
  | nil (s) : Performs s [] s
  | cons {s t u answer answers} : s.read = (answer, t) → Performs t answers u →
      Performs s (answer :: answers) u

theorem Source.Performs.append {s t u : Source} {answers more : List ReadAnswer}
    (h : Performs s answers t) (k : Performs t more u) : Performs s (answers ++ more) u := by
  induction h with
  | nil => exact k
  | cons hr _ ih => exact .cons hr (ih k)

namespace Text

/-- A first byte and bytes that go on with it, no more than it announces. -/
def IsGroup (bytes : List UInt8) : Prop :=
  ∃ first more, bytes = first :: more ∧ more.length ≤ furtherBytes first ∧
    ∀ byte ∈ more, isContinuation byte = true

/-- The beginning of a group that lacks a byte, or nothing of it. -/
def IsCut (bytes : List UInt8) : Prop :=
  bytes = [] ∨ ∃ first more, bytes = first :: more ∧ more.length < furtherBytes first ∧
    ∀ byte ∈ more, isContinuation byte = true

/-- The reads behind the first byte of a character give all the bytes that it announces, or they
end too early: with a byte of another kind, which is held back, or with one that gives nothing. -/
inductive Fills (want : Nat) : List ReadAnswer → List UInt8 → Option UInt8 → Prop where
  | complete (more) : more.length = want → Fills want (more.map .byte) more none
  | stopped (more) {byte} : more.length < want → isContinuation byte = false →
      Fills want (more.map .byte ++ [.byte byte]) more (some byte)
  | starved (more) : more.length < want → Fills want (more.map .byte ++ [.nothing]) more none

/-- The reads of a character and its group of bytes, with the byte held back before the first of
them and after the last. A byte held back before is the first of the group. -/
structure Fetches (before : Option UInt8) (answers : List ReadAnswer) (group : List UInt8)
    (after : Option UInt8) : Prop where
  reads : ∃ start first reads more, before.toList ++ start = [first] ∧
    answers = start.map .byte ++ reads ∧ group = first :: more ∧
    Fills (furtherBytes first) reads more after ∧ ∀ byte ∈ more, isContinuation byte = true

variable {want : Nat} {answers : List ReadAnswer} {more group : List UInt8}
  {before after : Option UInt8} {byte : UInt8}

theorem Fills.cons (h : Fills want answers more after) :
    Fills (want + 1) (.byte byte :: answers) (byte :: more) after := by
  cases h with
  | complete _ hl => exact .complete (byte :: more) (congrArg Nat.succ hl)
  | stopped _ hl hb => exact .stopped (byte :: more) (Nat.succ_lt_succ hl) hb
  | starved _ hl => exact .starved (byte :: more) (Nat.succ_lt_succ hl)

theorem Fills.length_le (h : Fills want answers more after) : more.length ≤ want := by
  cases h <;> omega

theorem Fills.bytes (h : Fills want answers more after) :
    answers.filterMap ReadAnswer.byte? = more ++ after.toList := by
  cases h with
  | complete => simpa using filterMap_bytes more
  | stopped => rw [List.filterMap_append, filterMap_bytes]; rfl
  | starved => rw [List.filterMap_append, filterMap_bytes]; rfl

theorem Fills.unfailing (h : Fills want answers more after) : Unfailing answers := by
  cases h with
  | complete => exact unfailing_bytes more
  | stopped => exact (unfailing_bytes more).append (by simp [Unfailing])
  | starved => exact (unfailing_bytes more).append (by simp [Unfailing])

namespace Fetches

theorem bytes (h : Fetches before answers group after) :
    before.toList ++ answers.filterMap ReadAnswer.byte? = group ++ after.toList := by
  obtain ⟨start, first, reads, more, hs, rfl, rfl, hf, -⟩ := h.reads
  rw [List.filterMap_append, filterMap_bytes, ← List.append_assoc, hs, hf.bytes]
  rfl

theorem unfailing (h : Fetches before answers group after) : Unfailing answers := by
  obtain ⟨start, first, reads, more, -, rfl, -, hf, -⟩ := h.reads
  exact (unfailing_bytes start).append hf.unfailing

theorem isGroup (h : Fetches before answers group after) : IsGroup group := by
  obtain ⟨start, first, reads, more, -, -, rfl, hf, hall⟩ := h.reads
  exact ⟨first, more, rfl, hf.length_le, hall⟩

end Fetches

end Text

namespace Reader

open Text

/-- The reads from one reader to another, and the bytes used up on the way. A byte that the first
reader holds comes before those read, and one that the second holds is not used yet. -/
structure Uses (r : Reader) (answers : List ReadAnswer) (bytes : List UInt8) (s : Reader) :
    Prop where
  performed : r.source.Performs answers s.source
  bytes : r.held.toList ++ answers.filterMap ReadAnswer.byte? = bytes ++ s.held.toList

variable {r s t : Reader} {answers more : List ReadAnswer} {bytes bytes' group full : List UInt8}
  {byte : UInt8} {error : ReadError} {want : Nat} {c : Char}

theorem Uses.refl (r : Reader) : r.Uses [] [] r := ⟨.nil _, by simp⟩

theorem Uses.append (h : r.Uses answers bytes s) (k : s.Uses more bytes' t) :
    r.Uses (answers ++ more) (bytes ++ bytes') t := by
  refine ⟨h.performed.append k.performed, ?_⟩
  rw [List.filterMap_append, ← List.append_assoc, h.bytes, List.append_assoc, k.bytes,
    List.append_assoc]

theorem takeByte_some (h : r.takeByte = (.ok (some byte), s)) :
    ∃ start : List UInt8, r.source.Performs (start.map .byte) s.source ∧
      r.held.toList ++ start = [byte] := by
  unfold takeByte at h
  split at h
  next held =>
    cases h
    exact ⟨[], .nil _, by simp [held]⟩
  next free =>
    split at h
    next hr =>
      cases h
      exact ⟨[byte], .cons hr (.nil _), by simp [free]⟩
    next => cases h
    next => cases h

theorem takeByte_none (h : r.takeByte = (.ok none, s)) : r.Uses [.nothing] [] s := by
  unfold takeByte at h
  split at h
  next => cases h
  next free =>
    split at h
    next => cases h
    next hr =>
      cases h
      exact ⟨.cons hr (.nil _), by simp [free, ReadAnswer.byte?]⟩
    next => cases h

theorem takeByte_error (h : r.takeByte = (.error error, s)) : r.Uses [.failure error] [] s := by
  unfold takeByte at h
  split at h
  next => cases h
  next free =>
    split at h
    next => cases h
    next => cases h
    next hr =>
      cases h
      exact ⟨.cons hr (.nil _), by simp [free, ReadAnswer.byte?]⟩

theorem takeByte_free (free : r.held = none) (h : r.takeByte = (.ok (some byte), s)) :
    r.source.Performs [.byte byte] s.source := by
  obtain ⟨start, hp, hs⟩ := takeByte_some h
  rw [free] at hs
  cases hs
  exact hp

theorem fillGroup_ok (free : r.held = none) (h : fillGroup want group r = (.ok full, s)) :
    ∃ answers more, r.source.Performs answers s.source ∧ full = group ++ more ∧
      Fills want answers more s.held ∧ ∀ byte ∈ more, isContinuation byte = true := by
  fun_induction fillGroup want group r with
  | case1 =>
    cases h
    exact ⟨[], [], .nil _, by simp, free ▸ .complete [] rfl, List.forall_mem_nil _⟩
  | case2 => cases h
  | case3 want group r t ht =>
    cases h
    refine ⟨[.nothing], [], (takeByte_none ht).performed, by simp, ?_, List.forall_mem_nil _⟩
    rw [takeByte_held ht]
    exact .starved [] (Nat.succ_pos want)
  | case4 want group r byte t ht hc ih =>
    obtain ⟨answers, more, hp, rfl, hf, hall⟩ := ih (takeByte_held ht) h
    exact ⟨.byte byte :: answers, byte :: more, (takeByte_free free ht).append hp, by simp,
      hf.cons, List.forall_mem_cons.mpr ⟨hc, hall⟩⟩
  | case5 want group r byte t ht hc =>
    cases h
    have read := takeByte_free free ht
    exact ⟨[.byte byte], [], read, by simp,
      .stopped [] (Nat.succ_pos want) (Bool.eq_false_iff.mpr hc), List.forall_mem_nil _⟩

theorem fillGroup_error (free : r.held = none) (h : fillGroup want group r = (.error error, s)) :
    ∃ answers more, r.Uses answers more s ∧ FailsLast answers error ∧ more.length < want ∧
      ∀ byte ∈ more, isContinuation byte = true := by
  fun_induction fillGroup want group r with
  | case1 => cases h
  | case2 want group r error' t ht =>
    cases h
    exact ⟨[.failure error], [], takeByte_error ht, ⟨[], rfl, unfailing_nil⟩, by simp⟩
  | case3 => cases h
  | case4 want group r byte t ht hc ih =>
    have used : r.Uses [.byte byte] [byte] t :=
      ⟨takeByte_free free ht, by simp [free, takeByte_held ht, ReadAnswer.byte?]⟩
    obtain ⟨answers, more, hu, hf, hl, hall⟩ := ih (takeByte_held ht) h
    exact ⟨.byte byte :: answers, byte :: more, used.append hu,
      (unfailing_bytes [byte]).failsLast hf, Nat.succ_lt_succ hl,
      List.forall_mem_cons.mpr ⟨hc, hall⟩⟩
  | case5 => cases h

/-! ## One call for a character -/

theorem readChar_some (h : r.readChar = (.ok (some c), s)) :
    ∃ answers group, r.source.Performs answers s.source ∧ Fetches r.held answers group s.held ∧
      c = decodeGroup group := by
  unfold readChar at h
  split at h
  next => cases h
  next => cases h
  next first t ht =>
    obtain ⟨start, hp, hs⟩ := takeByte_some ht
    split at h
    next => cases h
    next hf =>
      cases h
      obtain ⟨answers, more, hq, rfl, hm, hall⟩ := fillGroup_ok (takeByte_held ht) hf
      exact ⟨_, _, hp.append hq, ⟨start, first, answers, more, hs, rfl, rfl, hm, hall⟩, rfl⟩

theorem Uses.of_fetches (hp : r.source.Performs answers s.source)
    (h : Fetches r.held answers group s.held) : r.Uses answers group s :=
  ⟨hp, h.bytes⟩

theorem readChar_none (h : r.readChar = (.ok none, s)) : r.Uses [.nothing] [] s := by
  unfold readChar at h
  split at h
  next => cases h
  next ht =>
    cases h
    exact takeByte_none ht
  next => split at h <;> cases h

theorem readChar_error (h : r.readChar = (.error error, s)) :
    ∃ answers lost, r.Uses answers lost s ∧ FailsLast answers error ∧ IsCut lost := by
  unfold readChar at h
  split at h
  next ht =>
    cases h
    exact ⟨_, [], takeByte_error ht, ⟨[], rfl, unfailing_nil⟩, Or.inl rfl⟩
  next => cases h
  next first t ht =>
    obtain ⟨start, hp, hs⟩ := takeByte_some ht
    have used : r.Uses (start.map .byte) [first] t := by
      refine ⟨hp, ?_⟩
      rw [filterMap_bytes, hs, takeByte_held ht]
      rfl
    split at h
    next hf =>
      cases h
      obtain ⟨answers, more, hu, hm, hl, hall⟩ := fillGroup_error (takeByte_held ht) hf
      exact ⟨_, _, used.append hu, (unfailing_bytes start).failsLast hm,
        Or.inr ⟨first, more, rfl, hl, hall⟩⟩
    next => cases h

/-! ## All calls up to the end -/

theorem readChar_none_held (h : r.readChar = (.ok none, s)) : s.held = none := by
  unfold readChar at h
  split at h
  next => cases h
  next ht =>
    cases h
    exact takeByte_held ht
  next => split at h <;> cases h

/-- When no read fails, every byte read belongs to the group of one character. -/
theorem ReadsAs.uses {cs : List Char} (h : r.ReadsAs cs) :
    ∃ answers, ∃ groups : List (List UInt8), ∃ s, r.Uses answers groups.flatten s ∧
      Unfailing answers ∧ s.held = none ∧ (∀ group ∈ groups, IsGroup group) ∧
      cs = groups.map decodeGroup := by
  induction h with
  | nil hr =>
    exact ⟨[.nothing], [], _, readChar_none hr, by simp [Unfailing], readChar_none_held hr,
      List.forall_mem_nil _, rfl⟩
  | cons hr _ ih =>
    obtain ⟨answers, group, hp, hf, rfl⟩ := readChar_some hr
    obtain ⟨more, groups, s, hv, hm, hs, hall, rfl⟩ := ih
    have hu := Uses.of_fetches hp hf
    exact ⟨answers ++ more, group :: groups, s, by simpa using hu.append hv,
      hf.unfailing.append hm, hs, List.forall_mem_cons.mpr ⟨hf.isGroup, hall⟩, rfl⟩

end Reader

end FormulaLang
