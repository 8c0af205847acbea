import FormulaLang.Proofs.Text.Characters

/-!
# Damage in UTF-8 stays where it is

A group ends at the first byte that does not go on with it, so bytes that encode characters
start a group of their own, whatever comes before them. Decoding therefore keeps every
valid text behind damaged bytes, and stands U+FFFD for exactly the groups that encode nothing.
-/
namespace FormulaLang.Text

variable {want : Nat} {bytes more : List UInt8} {first : UInt8}

/-- The bytes go on with no group in front of them. -/
def StartsGroup (bytes : List UInt8) : Prop :=
  ∀ first ∈ bytes.head?, isContinuation first = false

theorem continuations_append (h : StartsGroup more) :
    continuations want (bytes ++ more) = continuations want bytes := by
  induction bytes generalizing want with
  | nil =>
    cases more with
    | nil => rfl
    | cons first more => simpa using continuations_stop (h first rfl)
  | cons byte bytes ih =>
    cases want with
    | zero => simp
    | succ want =>
      by_cases hc : isContinuation byte = true
      · rw [List.cons_append, continuations_more hc, continuations_more hc, ih]
      · rw [Bool.not_eq_true] at hc
        rw [List.cons_append, continuations_stop hc, continuations_stop hc]

theorem continuations_all (h : ∀ byte ∈ more, isContinuation byte = true) :
    continuations more.length (more ++ bytes) = more := by
  induction more with
  | nil => simp
  | cons byte more ih =>
    obtain ⟨hb, hm⟩ := List.forall_mem_cons.mp h
    rw [List.cons_append, List.length_cons, continuations_more hb, ih hm]

theorem groups_append (h : StartsGroup more) :
    groups (bytes ++ more) = groups bytes ++ groups more := by
  fun_induction groups bytes with
  | case1 => rfl
  | case2 first bytes ih =>
    have hl := (continuations_isPrefix (furtherBytes first) bytes).length_le
    rw [List.cons_append, groups, continuations_append h, List.drop_append_of_le_length hl, ih,
      List.cons_append]

/-! ## Encoded characters -/

theorem isContinuation_iff (byte : UInt8) :
    isContinuation byte = true ↔ 0x80 ≤ byte.toNat ∧ byte.toNat ≤ 0xBF := by
  simp [isContinuation, UInt8.le_iff_toNat_le]

theorem furtherBytes_toNat (first : UInt8) :
    furtherBytes first =
      if 0xC0 ≤ first.toNat ∧ first.toNat ≤ 0xDF then 1
      else if 0xE0 ≤ first.toNat ∧ first.toNat ≤ 0xEF then 2
      else if 0xF0 ≤ first.toNat ∧ first.toNat ≤ 0xF7 then 3 else 0 := by
  simp [furtherBytes, UInt8.le_iff_toNat_le]

/-- An encoded character is a first byte that announces how many bytes are behind it, and those,
which all go on with it. -/
theorem encoded_shape (c : Char) : ∃ first more, String.utf8EncodeChar c = first :: more ∧
    isContinuation first = false ∧ furtherBytes first = more.length ∧
    ∀ byte ∈ more, isContinuation byte = true := by
  simp only [← Bool.not_eq_true, isContinuation_iff, furtherBytes_toNat]
  unfold String.utf8EncodeChar
  generalize c.val.toNat = v
  dsimp only
  split
  · exact ⟨_, _, rfl, by simp; omega, by simp; grind, by simp⟩
  · split
    · exact ⟨_, _, rfl, by simp; omega, by simp; omega, by simp; omega⟩
    · split
      · exact ⟨_, _, rfl, by simp; omega, by simp; grind, by simp; omega⟩
      · exact ⟨_, _, rfl, by simp; omega, by simp; grind, by simp; omega⟩

theorem decodeGroup_encoded (c : Char) : decodeGroup (String.utf8EncodeChar c) = c := by
  have h := @ByteArray.utf8DecodeChar?_utf8EncodeChar_append ByteArray.empty c
  rw [ByteArray.append_empty] at h
  simp [decodeGroup, h]

theorem startsGroup_encoded (cs : List Char) :
    StartsGroup (cs.flatMap String.utf8EncodeChar) := by
  intro byte hb
  cases cs with
  | nil => simp at hb
  | cons c cs =>
    obtain ⟨first, more, he, hf, -, -⟩ := encoded_shape c
    rw [List.flatMap_cons, he] at hb
    cases hb
    exact hf

theorem groups_encoded (cs : List Char) :
    groups (cs.flatMap String.utf8EncodeChar) = cs.map String.utf8EncodeChar := by
  induction cs with
  | nil => rw [List.flatMap_nil, groups, List.map_nil]
  | cons c cs ih =>
    obtain ⟨first, more, he, -, hl, hm⟩ := encoded_shape c
    rw [List.flatMap_cons, List.map_cons, he, List.cons_append, groups, hl, continuations_all hm,
      List.drop_left, ih]

theorem toList_eq_data (bytes : ByteArray) : bytes.toList = bytes.data.toList := by
  have loop (i : Nat) (r : List UInt8) :
      ByteArray.toList.loop bytes i r = r.reverse ++ bytes.data.toList.drop i := by
    fun_induction ByteArray.toList.loop bytes i r with
    | case1 i r h ih =>
      have hi : i < bytes.data.toList.length := h
      rw [ih, List.reverse_cons, List.append_assoc, List.drop_eq_getElem_cons hi]
      simp [ByteArray.get!, getElem!_pos bytes.data i h]
    | case2 i r h =>
      have hi : bytes.data.toList.length ≤ i := Nat.le_of_not_lt h
      rw [List.drop_eq_nil_of_le hi, List.append_nil]
  exact loop 0 []

theorem toUTF8_toList (text : String) :
    text.toUTF8.toList = text.toList.flatMap String.utf8EncodeChar := by
  rw [String.toUTF8_eq_toByteArray, ← String.utf8Encode_toList, toList_eq_data]
  simp [List.utf8Encode]

theorem decodeGroup_exact (group : List UInt8) :
    decodeGroup group = replacement ∨ String.utf8EncodeChar (decodeGroup group) = group := by
  unfold decodeGroup
  split
  · split
    next h => exact Or.inr h
    next => exact Or.inl rfl
  · exact Or.inl rfl

theorem decode_append_text (bytes : List UInt8) (text : String) :
    decode (bytes ++ text.toUTF8.toList) = decode bytes ++ text.toList := by
  rw [toUTF8_toList, decode_eq_groups, decode_eq_groups,
    groups_append (startsGroup_encoded text.toList), groups_encoded, List.map_append, List.map_map]
  have hd : decodeGroup ∘ String.utf8EncodeChar = id := funext decodeGroup_encoded
  rw [hd, List.map_id]

theorem readsAs_ofText (text : String) :
    Reader.ReadsAs ⟨Source.ofText text, none⟩ text.toList := by
  have h := Reader.readsAs_decode text.toUTF8.toList
  rw [← List.nil_append text.toUTF8.toList, decode_append_text, decode_eq_groups, groups] at h
  exact h

/-- Damaged bytes in front of a valid text are decoded as if they stood alone, and the text comes
after them unharmed. No read fails; every byte is used up by exactly one character, of at most
four bytes, and a character that is not U+FFFD has exactly the bytes that encode it. -/
theorem decode_append_utf8 (bytes : List UInt8) :
    (∀ text : String, decode (bytes ++ text.toUTF8.toList) = decode bytes ++ text.toList) ∧
      ∃ taken, Reader.Takes ⟨Source.ofBytes bytes, none⟩ taken ∧
        (taken.map Prod.fst).flatten = bytes ∧ taken.map Prod.snd = decode bytes ∧
        ∀ group c, (group, c) ∈ taken → 1 ≤ group.length ∧ group.length ≤ 4 ∧
          (c = '\uFFFD' ∨ String.utf8EncodeChar c = group) := by
  refine ⟨decode_append_text bytes, _, Reader.takes_ofBytes bytes, ?_, ?_, ?_⟩
  · rw [List.map_map]
    exact (congrArg List.flatten (List.map_id _)).trans (groups_flatten bytes)
  · rw [List.map_map, decode_eq_groups]
    rfl
  · intro group c hg
    obtain ⟨g, hm, he⟩ := List.mem_map.mp hg
    cases he
    obtain ⟨low, high⟩ := length_of_mem_groups hm
    exact ⟨low, high, decodeGroup_exact group⟩

/-- A first byte of two cut short by a plus sign, which is kept. -/
example : decode [0x32, 0xC3, 0x2B, 0x31] = ['2', '\uFFFD', '+', '1'] := by decide +kernel

end FormulaLang.Text
