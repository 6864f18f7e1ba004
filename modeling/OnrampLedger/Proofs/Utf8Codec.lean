import OnrampLedger.Text.Utf8

/-!
# UTF-8 text reads back as itself

A text is written as the UTF-8 bytes of its characters, one character after another
(`Utf8.encode_eq_flatMap`), and the bytes of a scalar value are those the standard
encoder gives (`Utf8.encodeScalar_toNat`). The lenient decoder reads the bytes of each
character back as that character: a character's bytes are always the shortest form of a
scalar value that is no surrogate, which is exactly what `Utf8.sequence` accepts.

## Main results

* `Utf8.decode_utf8EncodeChar_append` — the bytes of one character, whatever follows them,
  read as that character.
* `Utf8.decodeText_encode` — the bytes of a text read back as the text.
-/

namespace OnrampLedger

namespace Utf8

/-- A character's scalar value is at most U+10FFFF and is no surrogate. -/
theorem toNat_valid (c : Char) :
    c.toNat < 0xD800 ∨ (0xDFFF < c.toNat ∧ c.toNat < 0x110000) := by
  have h := c.valid
  simp only [UInt32.isValidChar, Nat.isValidChar] at h
  exact h

/-- The encoder of scalar values writes a character as the standard encoder does. -/
theorem encodeScalar_toNat (c : Char) : encodeScalar c.toNat = String.utf8EncodeChar c := by
  have hv := toNat_valid c
  have hc : c.toNat = c.val.toNat := rfl
  unfold encodeScalar String.utf8EncodeChar
  rw [← hc]
  by_cases h1 : c.toNat < 0x80
  · simp [h1, show c.toNat ≤ 0x7f by omega]
  by_cases h2 : c.toNat < 0x800
  · simp only [h1, h2, if_false, if_true, show ¬c.toNat ≤ 0x7f by omega,
      show c.toNat ≤ 0x7ff by omega, List.cons.injEq, and_true]
    exact ⟨congrArg UInt8.ofNat (by omega), congrArg UInt8.ofNat (by omega)⟩
  by_cases h3 : c.toNat < 0x10000
  · simp only [h1, h2, h3, if_false, if_true, show ¬c.toNat ≤ 0x7f by omega,
      show ¬c.toNat ≤ 0x7ff by omega, show c.toNat ≤ 0xffff by omega, List.cons.injEq,
      and_true]
    exact ⟨congrArg UInt8.ofNat (by omega), congrArg UInt8.ofNat (by omega),
      congrArg UInt8.ofNat (by omega)⟩
  · simp only [h1, h2, h3, if_false, show ¬c.toNat ≤ 0x7f by omega,
      show ¬c.toNat ≤ 0x7ff by omega, show ¬c.toNat ≤ 0xffff by omega, List.cons.injEq,
      and_true]
    exact ⟨congrArg UInt8.ofNat (by omega), congrArg UInt8.ofNat (by omega),
      congrArg UInt8.ofNat (by omega), congrArg UInt8.ofNat (by omega)⟩

theorem toList_loop_eq (bs : ByteArray) (i : Nat) (r : List UInt8) :
    ByteArray.toList.loop bs i r = r.reverse ++ bs.data.toList.drop i := by
  fun_induction ByteArray.toList.loop bs i r with
  | case1 i r h ih =>
    have hi : i < bs.data.toList.length := by simpa using h
    rw [ih, List.drop_eq_getElem_cons hi]
    simp [ByteArray.get!, h]
  | case2 i r h =>
    rw [List.drop_eq_nil_of_le (by simpa using Nat.le_of_not_lt h)]
    simp

theorem toList_toByteArray (l : List UInt8) : l.toByteArray.toList = l := by
  rw [ByteArray.toList, toList_loop_eq, List.toList_data_toByteArray]
  simp

theorem toNat_toUInt8_of_lt {n : Nat} (h : n < 256) : n.toUInt8.toNat = n := by
  simp [Nat.mod_eq_of_lt h]

/-- A text's bytes are its characters' bytes, one after another. -/
theorem encode_eq_flatMap (s : String) : encode s = s.toList.flatMap String.utf8EncodeChar := by
  rw [encode, String.toUTF8_eq_toByteArray, ← String.ofList_toList (s := s),
    String.toByteArray_ofList, String.toList_ofList, List.utf8Encode, toList_toByteArray]

@[simp] theorem encode_append (a b : String) : encode (a ++ b) = encode a ++ encode b := by
  simp [encode_eq_flatMap]

/-- An ASCII character is written as its one byte. -/
theorem utf8EncodeChar_of_lt {c : Char} (h : c.toNat < 0x80) :
    String.utf8EncodeChar c = [c.toNat.toUInt8] := by
  rw [← encodeScalar_toNat, encodeScalar, if_pos h]

/-- A byte of a character's encoding is the character itself when that is ASCII, and
lies in the upper half of the byte range otherwise. -/
theorem mem_utf8EncodeChar {c : Char} {b : UInt8} (h : b ∈ String.utf8EncodeChar c) :
    (c.toNat < 0x80 ∧ b.toNat = c.toNat) ∨ (0x80 ≤ c.toNat ∧ 0x80 ≤ b.toNat) := by
  have hv := toNat_valid c
  rw [← encodeScalar_toNat] at h
  unfold encodeScalar at h
  split at h
  · next h1 =>
    rw [List.mem_singleton] at h
    subst h
    exact .inl ⟨h1, toNat_toUInt8_of_lt (by omega)⟩
  · next h1 =>
    refine .inr ⟨by omega, ?_⟩
    split at h
    · simp only [List.mem_cons, List.mem_nil_iff, or_false] at h
      rcases h with rfl | rfl <;> rw [toNat_toUInt8_of_lt (by omega)] <;> omega
    · split at h
      · simp only [List.mem_cons, List.mem_nil_iff, or_false] at h
        rcases h with rfl | rfl | rfl <;> rw [toNat_toUInt8_of_lt (by omega)] <;> omega
      · simp only [List.mem_cons, List.mem_nil_iff, or_false] at h
        rcases h with rfl | rfl | rfl | rfl <;> rw [toNat_toUInt8_of_lt (by omega)] <;> omega

theorem decode_cons_of_lt {b : UInt8} (hb : b.toNat < 0x80) (rest : List UInt8) :
    decode (b :: rest) = Char.ofNat b.toNat :: decode rest := by
  rw [decode]; simp [hb]

theorem decode_cons_of_sequence {b : UInt8} {rest : List UInt8} {v k : Nat} (hb : 0x80 ≤ b.toNat)
    (h : sequence b rest = some (v, k)) :
    decode (b :: rest) = Char.ofNat v :: decode (rest.drop k) := by
  rw [decode]; simp [show ¬b.toNat < 0x80 by omega, h]

/-- The bytes of one character read back as that character. -/
theorem decode_utf8EncodeChar_append (c : Char) (rest : List UInt8) :
    decode (String.utf8EncodeChar c ++ rest) = c :: decode rest := by
  have hv := toNat_valid c
  rw [← encodeScalar_toNat]
  by_cases h1 : c.toNat < 0x80
  · rw [encodeScalar, if_pos h1, List.singleton_append,
      decode_cons_of_lt (by rw [toNat_toUInt8_of_lt (by omega)]; exact h1),
      toNat_toUInt8_of_lt (by omega), Char.ofNat_toNat]
  have hlast : (0x80 + c.toNat % 64).toUInt8.toNat = 0x80 + c.toNat % 64 :=
    toNat_toUInt8_of_lt (by omega)
  by_cases h2 : c.toNat < 0x800
  · rw [encodeScalar, if_neg h1, if_pos h2]
    have hb0 : (0xC0 + c.toNat / 64).toUInt8.toNat = 0xC0 + c.toNat / 64 :=
      toNat_toUInt8_of_lt (by omega)
    have hs : sequence (0xC0 + c.toNat / 64).toUInt8 ((0x80 + c.toNat % 64).toUInt8 :: rest) =
        some (c.toNat, 1) := by
      simp only [sequence, within, payload, hb0, hlast, Bool.and_eq_true, decide_eq_true_eq]
      rw [if_pos (by omega), if_pos (by omega), Option.some.injEq, Prod.mk.injEq]
      omega
    rw [List.cons_append, List.cons_append, List.nil_append,
      decode_cons_of_sequence (by omega) hs, List.drop_one, List.tail_cons, Char.ofNat_toNat]
  have hmid : (0x80 + c.toNat / 64 % 64).toUInt8.toNat = 0x80 + c.toNat / 64 % 64 :=
    toNat_toUInt8_of_lt (by omega)
  by_cases h3 : c.toNat < 0x10000
  · rw [encodeScalar, if_neg h1, if_neg h2, if_pos h3]
    have hb0 : (0xE0 + c.toNat / 4096).toUInt8.toNat = 0xE0 + c.toNat / 4096 :=
      toNat_toUInt8_of_lt (by omega)
    have hs : sequence (0xE0 + c.toNat / 4096).toUInt8
        ((0x80 + c.toNat / 64 % 64).toUInt8 :: (0x80 + c.toNat % 64).toUInt8 :: rest) =
        some (c.toNat, 2) := by
      simp only [sequence, within, payload, hb0, hmid, hlast, Bool.and_eq_true, decide_eq_true_eq]
      rw [if_neg (by omega), if_pos (by omega), if_pos (by split <;> split <;> omega),
        Option.some.injEq, Prod.mk.injEq]
      omega
    rw [List.cons_append, List.cons_append, List.cons_append, List.nil_append,
      decode_cons_of_sequence (by omega) hs, List.drop_succ_cons, List.drop_one, List.tail_cons,
      Char.ofNat_toNat]
  · rw [encodeScalar, if_neg h1, if_neg h2, if_neg h3]
    have hb0 : (0xF0 + c.toNat / 262144).toUInt8.toNat = 0xF0 + c.toNat / 262144 :=
      toNat_toUInt8_of_lt (by omega)
    have hb1 : (0x80 + c.toNat / 4096 % 64).toUInt8.toNat = 0x80 + c.toNat / 4096 % 64 :=
      toNat_toUInt8_of_lt (by omega)
    have hs : sequence (0xF0 + c.toNat / 262144).toUInt8
        ((0x80 + c.toNat / 4096 % 64).toUInt8 :: (0x80 + c.toNat / 64 % 64).toUInt8 ::
          (0x80 + c.toNat % 64).toUInt8 :: rest) = some (c.toNat, 3) := by
      simp only [sequence, within, payload, hb0, hb1, hmid, hlast, Bool.and_eq_true,
        decide_eq_true_eq]
      rw [if_neg (by omega), if_neg (by omega), if_pos (by omega),
        if_pos (by split <;> split <;> omega), Option.some.injEq, Prod.mk.injEq]
      omega
    rw [List.cons_append, List.cons_append, List.cons_append, List.cons_append, List.nil_append,
      decode_cons_of_sequence (by omega) hs, List.drop_succ_cons, List.drop_succ_cons,
      List.drop_one, List.tail_cons, Char.ofNat_toNat]

@[simp] theorem decode_nil : decode [] = [] := by
  rw [decode]

/-- Characters' bytes read back as the characters, whatever follows them. -/
theorem decode_flatMap_append (cs : List Char) (rest : List UInt8) :
    decode (cs.flatMap String.utf8EncodeChar ++ rest) = cs ++ decode rest := by
  induction cs with
  | nil => rfl
  | cons c cs ih =>
    rw [List.flatMap_cons, List.append_assoc, decode_utf8EncodeChar_append, ih, List.cons_append]

theorem decodeText_flatMap (cs : List Char) :
    decodeText (cs.flatMap String.utf8EncodeChar) = String.ofList cs := by
  have h := decode_flatMap_append cs []
  rw [List.append_nil, decode_nil, List.append_nil] at h
  rw [decodeText, h]

/-- A text's bytes read back as the text. -/
theorem decodeText_encode (s : String) : decodeText (encode s) = s := by
  rw [encode_eq_flatMap, decodeText_flatMap, String.ofList_toList]

end Utf8

end OnrampLedger
