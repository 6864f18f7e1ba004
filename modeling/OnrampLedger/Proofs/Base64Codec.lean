import Mathlib
import OnrampLedger.Codec.Base64

/-!
# URL-safe base64 reads back

Writing bytes in the URL-safe alphabet and reading the text back gives the bytes: each
group of three bytes becomes four characters that read as the same three bytes, and a
final group of one or two bytes becomes two or three characters that read as those
bytes, the bits left over being zero. The text holds only characters of the alphabet, so
no dot, which lets three such texts be joined by dots and cut apart again.

## Main results

* `Base64.urlRaw_char_facts` — the alphabet table: each six-bit value's character reads
  as the value.
* `Base64.decodeUrl?_encodeUrl` — reading URL-safe text gives back the bytes written.
* `Base64.dot_not_mem_encodeUrl` — URL-safe text holds no dot.
-/

namespace OnrampLedger

namespace Base64

/-- The alphabet table: the character of each six-bit value reads as that value, and is
neither a line break nor a dot. -/
theorem urlRaw_char_facts : ∀ k < 64,
    urlRaw.value? (urlRaw.char k) = some k ∧ urlRaw.char k ≠ '\r' ∧ urlRaw.char k ≠ '\n' ∧
      urlRaw.char k ≠ '.' := by
  decide

/-- One step of the reader over a character of the alphabet: its value joins the group, and
a full group of four is turned into its three bytes. -/
theorem decodeWith_char {k : Nat} (hk : k < 64) (cs : List Char) (group : List Nat) :
    decodeWith urlRaw (urlRaw.char k :: cs) group =
      if group.length = 3 then (decodeWith urlRaw cs []).map (groupBytes (group ++ [k]) ++ ·)
      else decodeWith urlRaw cs (group ++ [k]) := by
  obtain ⟨hval, hr, hn, -⟩ := urlRaw_char_facts k hk
  rw [decodeWith]
  simp [hr, hn, hval, show urlRaw.padded = false from rfl]

theorem decodeWith_char_of_lt {k : Nat} (hk : k < 64) (cs : List Char) {group : List Nat}
    (hg : group.length < 3) :
    decodeWith urlRaw (urlRaw.char k :: cs) group = decodeWith urlRaw cs (group ++ [k]) := by
  rw [decodeWith_char hk, if_neg (by omega)]

/-- Text that ends with two or three values of a group gives their bytes. -/
theorem decodeWith_nil (a b : Nat) (rest : List Nat) :
    decodeWith urlRaw [] (a :: b :: rest) = some (groupBytes (a :: b :: rest)) := by
  simp [decodeWith, show urlRaw.padded = false from rfl]

/-- The three bytes of a full group of four six-bit values. -/
theorem groupBytes_four (a b c d : Nat) :
    groupBytes [a, b, c, d] =
      [((((a * 64 + b) * 64 + c) * 64 + d) / 65536 % 256).toUInt8,
        ((((a * 64 + b) * 64 + c) * 64 + d) / 256 % 256).toUInt8,
        ((((a * 64 + b) * 64 + c) * 64 + d) % 256).toUInt8] := by
  simp [groupBytes]

/-- A byte is its value, taken back to a byte. -/
theorem toUInt8_eq {x : UInt8} {n : Nat} (h : n = x.toNat) : n.toUInt8 = x := by
  rw [h]
  exact UInt8.ofNat_toNat

/-- **URL-safe base64 reads back**, three bytes at a time; a last byte or two comes back
from the two or three characters written for it. -/
theorem decodeWith_encodeWith : ∀ bs : List UInt8,
    decodeWith urlRaw (encodeWith urlRaw bs) [] = some bs
  | [] => rfl
  | [x] => by
    have hx := x.toNat_lt
    simp only [encodeWith, show urlRaw.padded = false from rfl, Bool.false_eq_true, if_false,
      List.append_nil]
    rw [decodeWith_char_of_lt (by omega) _ (by simp), decodeWith_char_of_lt (by omega) _ (by simp)]
    simp only [List.nil_append, List.singleton_append, decodeWith_nil]
    -- the two characters carry the byte's eight bits and four zero bits
    simp only [groupBytes, show Nat.pow 64 2 = 4096 from rfl, List.foldl, List.length_cons,
      List.length_nil, List.take, Option.some.injEq, List.cons.injEq, and_true]
    exact toUInt8_eq (by omega)
  | [x, y] => by
    have hx := x.toNat_lt
    have hy := y.toNat_lt
    simp only [encodeWith, show urlRaw.padded = false from rfl, Bool.false_eq_true, if_false,
      List.append_nil]
    rw [decodeWith_char_of_lt (by omega) _ (by simp), decodeWith_char_of_lt (by omega) _ (by simp),
      decodeWith_char_of_lt (by omega) _ (by simp)]
    simp only [List.nil_append, List.cons_append, decodeWith_nil]
    simp only [groupBytes, show Nat.pow 64 1 = 64 from rfl, List.foldl, List.length_cons,
      List.length_nil, List.take, Option.some.injEq, List.cons.injEq, and_true]
    exact ⟨toUInt8_eq (by omega), toUInt8_eq (by omega)⟩
  | x :: y :: z :: rest => by
    have hx := x.toNat_lt
    have hy := y.toNat_lt
    have hz := z.toNat_lt
    simp only [encodeWith]
    rw [decodeWith_char_of_lt (by omega) _ (by simp), decodeWith_char_of_lt (by omega) _ (by simp),
      decodeWith_char_of_lt (by omega) _ (by simp), decodeWith_char (by omega), if_pos (by simp),
      decodeWith_encodeWith rest]
    simp only [List.nil_append, List.cons_append, Option.map_some,
      groupBytes_four, Option.some.injEq, List.cons.injEq, and_true]
    exact ⟨toUInt8_eq (by omega), toUInt8_eq (by omega), toUInt8_eq (by omega)⟩

theorem decodeUrl?_encodeUrl (bs : List UInt8) : decodeUrl? (encodeUrl bs) = some bs := by
  rw [decodeUrl?, encodeUrl, String.toList_ofList, decodeWith_encodeWith]

/-- Every character of URL-safe text is the character of a six-bit value. -/
theorem mem_encodeWith_urlRaw : ∀ {bs : List UInt8} {c : Char}, c ∈ encodeWith urlRaw bs →
    ∃ k < 64, c = urlRaw.char k
  | [], _, h => by simp [encodeWith] at h
  | [x], c, h => by
    simp only [encodeWith, show urlRaw.padded = false from rfl, Bool.false_eq_true, if_false,
      List.append_nil, List.mem_cons, List.not_mem_nil, or_false] at h
    have hx := x.toNat_lt
    rcases h with rfl | rfl
    · exact ⟨_, by omega, rfl⟩
    · exact ⟨_, by omega, rfl⟩
  | [x, y], c, h => by
    simp only [encodeWith, show urlRaw.padded = false from rfl, Bool.false_eq_true, if_false,
      List.append_nil, List.mem_cons, List.not_mem_nil, or_false] at h
    have hx := x.toNat_lt
    have hy := y.toNat_lt
    rcases h with rfl | rfl | rfl
    · exact ⟨_, by omega, rfl⟩
    · exact ⟨_, by omega, rfl⟩
    · exact ⟨_, by omega, rfl⟩
  | x :: y :: z :: rest, c, h => by
    simp only [encodeWith, List.mem_cons] at h
    have hx := x.toNat_lt
    have hy := y.toNat_lt
    have hz := z.toNat_lt
    rcases h with rfl | rfl | rfl | rfl | h
    · exact ⟨_, by omega, rfl⟩
    · exact ⟨_, by omega, rfl⟩
    · exact ⟨_, by omega, rfl⟩
    · exact ⟨_, by omega, rfl⟩
    · exact mem_encodeWith_urlRaw h

/-- URL-safe text holds no dot. -/
theorem dot_not_mem_encodeUrl (bs : List UInt8) : '.' ∉ (encodeUrl bs).toList := by
  rw [encodeUrl, String.toList_ofList]
  intro h
  obtain ⟨k, hk, hc⟩ := mem_encodeWith_urlRaw h
  exact (urlRaw_char_facts k hk).2.2.2 hc.symm

end Base64

end OnrampLedger
