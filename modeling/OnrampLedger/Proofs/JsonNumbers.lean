import Mathlib
import OnrampLedger.Proofs.JsonReadBack
import OnrampLedger.Proofs.SecondsText

/-!
# Printed whole numbers read back

A whole number is printed as its decimal text: a minus sign below zero, then the digits of its
magnitude, the first of which is no zero unless the number is. The reader takes that text
whole as a number as long as what follows cannot continue it, as a comma or a closing brace
cannot: the digits are the integer part, and neither a fraction nor an exponent follows. So a
printed whole number is a value that reads back as its own text (`Json.readsAs_int`), and an
object mixing whole numbers and strings reads back member by member.

## Main results

* `Json.readNumber_toString` — a whole number's text is read whole as a number.
* `Json.readValue_int` — a printed whole number reads back as its text.
-/

namespace OnrampLedger

namespace Numeral

/-- The characters of a whole number's decimal text are a minus sign and digits. -/
theorem mem_toDigits_ten {m : Nat} {c : Char} (h : c ∈ Nat.toDigits 10 m) :
    ∃ k < 10, c = Nat.digitChar k := by
  induction m using Nat.strong_induction_on with
  | _ m ih =>
    rw [Nat.toDigits_eq_if (by decide)] at h
    split at h
    · next hlt => exact ⟨m, hlt, List.mem_singleton.mp h⟩
    · next hge =>
      rcases List.mem_append.mp h with h | h
      · exact ih (m / 10) (by omega) h
      · exact ⟨m % 10, Nat.mod_lt m (by decide), List.mem_singleton.mp h⟩

/-- The digits of a whole number start with a digit, which is no zero unless the number is. -/
theorem toDigits_eq_cons (m : Nat) :
    ∃ k < 10, ∃ ds, Nat.toDigits 10 m = Nat.digitChar k :: ds ∧ (0 < m → k ≠ 0) := by
  obtain ⟨d, ds, hds⟩ := List.exists_cons_of_ne_nil (@Nat.toDigits_ne_nil m 10)
  have hmem : d ∈ Nat.toDigits 10 m := by rw [hds]; exact List.mem_cons_self
  obtain ⟨k, hk, rfl⟩ := mem_toDigits_ten hmem
  refine ⟨k, hk, ds, hds, fun h0 hk0 => ?_⟩
  obtain ⟨d', ds', hds', hd'⟩ := toDigits_head_ne_zero h0
  rw [hds, hk0] at hds'
  exact hd' (List.cons.inj hds').1.symm

end Numeral

namespace Json

open Numeral

/-- How the reader sees a digit: one ASCII byte, a digit, and none of the bytes that would end
a number's digits or start anything else. -/
theorem digitChar_bytes : ∀ k < 10,
    (Nat.digitChar k).toNat < 0x80 ∧ isDigit (byte (Nat.digitChar k)) = true ∧
      isSpace (byte (Nat.digitChar k)) = false ∧ (byte (Nat.digitChar k) == byte '-') = false ∧
      (byte (Nat.digitChar k) == byte '0') = decide (k = 0) ∧
      (byte (Nat.digitChar k) == byte '\x7b') = false ∧ (byte (Nat.digitChar k) == byte '[') = false ∧
      (byte (Nat.digitChar k) == byte '"') = false ∧ (byte (Nat.digitChar k) == byte 't') = false ∧
      (byte (Nat.digitChar k) == byte 'f') = false ∧ (byte (Nat.digitChar k) == byte 'n') = false := by
  decide

/-- Bytes of ASCII characters read back as the characters. -/
theorem asciiText_map_byte {cs : List Char} (h : ∀ c ∈ cs, c.toNat < 0x80) :
    asciiText (cs.map byte) = String.ofList cs := by
  rw [asciiText, List.map_map]
  congr 1
  conv_rhs => rw [← List.map_id cs]
  apply List.map_congr_left
  intro c hc
  simp [toNat_byte (h c hc), Char.ofNat_toNat]

/-- The digits of a whole number are read whole as the integer part of a number, up to the
first byte that is no digit. -/
theorem integerPart_digits (m : Nat) {c : UInt8} (hc : isDigit c = false) (rest : List UInt8) :
    integerPart ((Nat.toDigits 10 m).map byte ++ c :: rest) =
      some ((Nat.toDigits 10 m).map byte, c :: rest) := by
  rcases Nat.eq_zero_or_pos m with rfl | h0
  · simp [Nat.toDigits_zero, integerPart]
  · obtain ⟨k, hk, ds, hds, hk0⟩ := toDigits_eq_cons m
    obtain ⟨-, hdig, -, -, hzero, -⟩ := digitChar_bytes k hk
    have hall : ∀ b ∈ (Nat.toDigits 10 m).map byte, isDigit b = true := by
      intro b hb
      obtain ⟨e, he, rfl⟩ := List.mem_map.mp hb
      obtain ⟨j, hj, rfl⟩ := mem_toDigits_ten he
      exact (digitChar_bytes j hj).2.1
    have hrun : digitRun ((Nat.toDigits 10 m).map byte ++ c :: rest) =
        ((Nat.toDigits 10 m).map byte, c :: rest) := by
      have hstop : (c :: rest).takeWhile isDigit = [] ∧ (c :: rest).dropWhile isDigit = c :: rest := by
        simp [hc]
      simp only [digitRun, List.takeWhile_append_of_pos hall, List.dropWhile_append_of_pos hall,
        hstop.1, hstop.2, List.append_nil]
    rw [← hrun, hds, List.map_cons, List.cons_append, integerPart]
    simp only [hzero, decide_eq_false (hk0 h0), Bool.false_eq_true, if_false, hdig, if_true]

/-- A whole number's text is ASCII. -/
theorem ascii_toString_int (n : Int) : ∀ x ∈ (toString n).toList, x.toNat < 0x80 := by
  intro x hx
  rw [Numeral.toList_toString_int] at hx
  rcases List.mem_append.mp hx with hx | hx
  · split at hx
    · rw [List.mem_singleton.mp hx]
      decide
    · simp at hx
  · obtain ⟨k, hk, rfl⟩ := mem_toDigits_ten hx
    exact (digitChar_bytes k hk).1

/-- A comma or a closing brace ends a number: it is no digit, and no point or exponent
follows. -/
theorem number_end {c : UInt8} (hc : c = byte ',' ∨ c = byte '\x7d') (rest : List UInt8) :
    isDigit c = false ∧ fractionPart (c :: rest) = some ([], c :: rest) ∧
      exponentPart (c :: rest) = some ([], c :: rest) := by
  have hbytes : isDigit c = false ∧ (c == byte '.') = false ∧ (c == byte 'e' || c == byte 'E') = false := by
    rcases hc with rfl | rfl <;> decide
  refine ⟨hbytes.1, ?_, ?_⟩
  · simp only [fractionPart, hbytes.2.1, Bool.false_eq_true, if_false]
  · simp only [exponentPart, hbytes.2.2, Bool.false_eq_true, if_false]

/-- A whole number's text is read whole as a number when a comma or a closing brace follows. -/
theorem readNumber_toString (n : Int) {c : UInt8} (hc : c = byte ',' ∨ c = byte '\x7d')
    (rest : List UInt8) :
    readNumber (Utf8.encode (toString n) ++ c :: rest) = some (toString n, c :: rest) := by
  obtain ⟨hcd, hfrac, hexp⟩ := number_end hc rest
  have hascii := ascii_toString_int n
  have hint := integerPart_digits n.natAbs hcd rest
  rw [encode_ascii hascii]
  have htext : toString n = String.ofList (toString n).toList := String.ofList_toList.symm
  conv_rhs => rw [htext, ← asciiText_map_byte hascii]
  rw [Numeral.toList_toString_int]
  split
  · -- a minus sign, then the digits of the magnitude
    simp only [readNumber, List.map_cons, List.cons_append, beq_self_eq_true, if_true,
      List.nil_append, hint, Option.bind_eq_bind, Option.bind_some, hfrac, hexp, List.append_nil,
      Option.pure_def]
  · -- the digits alone, the first of which is no minus sign
    obtain ⟨k, hk, ds, hds, -⟩ := toDigits_eq_cons n.natAbs
    have hminus := (digitChar_bytes k hk).2.2.2.1
    rw [List.nil_append]
    rw [hds] at hint ⊢
    simp only [readNumber, List.map_cons, List.cons_append, hminus, Bool.false_eq_true, if_false]
    simp only [List.map_cons, List.cons_append] at hint
    rw [hint]
    simp only [Option.bind_eq_bind, Option.bind_some, hfrac, hexp, List.append_nil,
      Option.pure_def, List.nil_append]

/-- A whole number's text starts with a minus sign or a digit: no space, and nothing that
starts a container, a string or a literal. -/
theorem toString_int_start (n : Int) :
    ∃ c cs, (toString n).toList = c :: cs ∧ isSpace (byte c) = false ∧
      (byte c == byte '\x7b') = false ∧ (byte c == byte '[') = false ∧
      (byte c == byte '"') = false ∧ (byte c == byte 't') = false ∧
      (byte c == byte 'f') = false ∧ (byte c == byte 'n') = false := by
  rw [Numeral.toList_toString_int]
  split
  · exact ⟨'-', _, rfl, by decide⟩
  · obtain ⟨k, hk, ds, hds, -⟩ := toDigits_eq_cons n.natAbs
    obtain ⟨-, -, hsp, -, -, h1, h2, h3, h4, h5, h6⟩ := digitChar_bytes k hk
    exact ⟨_, ds, by rw [List.nil_append, hds], hsp, h1, h2, h3, h4, h5, h6⟩

/-- **A printed whole number reads back as its text**, when a comma or a closing brace
follows it. -/
theorem readValue_int (fuel depth : Nat) (n : Int) {c : UInt8} (hc : c = byte ',' ∨ c = byte '\x7d')
    (rest : List UInt8) :
    readValue (fuel + 1) depth (Utf8.encode (render (int n)) ++ c :: rest) =
      some (.number (toString n), c :: rest) := by
  obtain ⟨c0, cs, hcs, hsp, h1, h2, h3, h4, h5, h6⟩ := toString_int_start n
  have hnum := readNumber_toString n hc rest
  rw [encode_ascii (ascii_toString_int n), hcs, List.map_cons, List.cons_append] at hnum
  show readValue (fuel + 1) depth (Utf8.encode (toString n) ++ c :: rest) = _
  rw [encode_ascii (ascii_toString_int n), hcs, List.map_cons, List.cons_append, readValue.eq_2,
    skipSpace_cons hsp]
  simp only [h1, h2, h3, h4, h5, h6, Bool.false_eq_true, if_false, hnum, Option.map_some]

theorem readsAs_int (n : Int) : ReadsAs (int n) (.number (toString n)) :=
  fun fuel depth _ rest hc => readValue_int fuel depth n hc rest

end Json

end OnrampLedger
