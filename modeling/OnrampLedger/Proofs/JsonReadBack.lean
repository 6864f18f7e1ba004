import OnrampLedger.Proofs.Utf8Codec
import OnrampLedger.Proofs.DecimalText
import OnrampLedger.Provider.Format

/-!
# Printed JSON reads back

The printer writes each character of a string in one of three ways: as itself, as a
backslash and a letter, or as a backslash, `u` and four hexadecimal digits
(`Json.Written`, and `Json.written_escapeChar` for the printer's choice). The reader
accepts each of the three and decodes it to the character's UTF-8 bytes, so a printed
string reads back as its text. An object reads back member by member: each value as what
it reads back as when a comma or a closing brace follows it (`Json.ReadsAs`), so an object
of string members reads back as those members.

A generic payment report is such an object. Decoding it field by field gives the event
back, and normalizing it changes nothing more than the provider name and the hash,
as long as the event is already in the common form: a payment id, a status of the
four, a currency in upper case, and an amount whose places fit the decimal reader.

## Main results

* `Json.readValue_quote` — a printed string reads as its text.
* `Json.parse?_render_object` — a printed object reads as the members its members read as.
* `Json.parse?_render_strings` — a printed object of string members reads as those members.
* `generic_report_reads_back` — normalizing the printed report of an event in the common
  form gives the event back, with the provider `generic` and the report's hash.
-/

namespace OnrampLedger

namespace Json

/-- How one character `c` may stand inside a printed string: as itself when it is neither
a control character, nor a quote, nor a backslash; as a backslash and a one-letter
escape; or as a backslash, `u` and four hexadecimal digits giving its code point. -/
inductive Written (c : Char) : List Char → Prop
  | plain : 0x20 ≤ c.toNat → c ≠ '"' → c ≠ '\\' → Written c [c]
  | letter (x : Char) : x.toNat < 0x80 → isSimpleEscape (byte x) = true → x ≠ 'u' →
      c.toNat < 0x80 → simpleEscape (byte x) = byte c → Written c ['\\', x]
  | unicode (h1 h2 h3 h4 : Char) :
      [h1, h2, h3, h4].all (fun h => decide (h.toNat < 0x80) && isHex (byte h)) = true →
      hex4 (byte h1) (byte h2) (byte h3) (byte h4) = c.toNat →
      Written c ['\\', 'u', h1, h2, h3, h4]

theorem hexDigit_ascii :
    ∀ k < 16, (hexDigit k).toNat < 0x80 ∧ isHex (byte (hexDigit k)) = true := by
  decide

theorem hex4_control : ∀ n < 0x20,
    hex4 (byte '0') (byte '0') (byte (hexDigit (n / 16))) (byte (hexDigit (n % 16))) = n := by
  decide

/-- The printer writes every character in one of the three ways. -/
theorem written_escapeChar (c : Char) : Written c (escapeChar c) := by
  unfold escapeChar
  split
  · exact .letter '"' (by decide) (by decide) (by decide) (by decide) (by decide)
  · exact .letter '\\' (by decide) (by decide) (by decide) (by decide) (by decide)
  · exact .letter 'n' (by decide) (by decide) (by decide) (by decide) (by decide)
  · exact .letter 'r' (by decide) (by decide) (by decide) (by decide) (by decide)
  · exact .letter 't' (by decide) (by decide) (by decide) (by decide) (by decide)
  · exact .letter 'b' (by decide) (by decide) (by decide) (by decide) (by decide)
  · exact .letter 'f' (by decide) (by decide) (by decide) (by decide) (by decide)
  · exact .unicode '0' '0' '3' 'c' (by decide) (by decide)
  · exact .unicode '0' '0' '3' 'e' (by decide) (by decide)
  · exact .unicode '0' '0' '2' '6' (by decide) (by decide)
  · exact .unicode '2' '0' '2' '8' (by decide) (by decide)
  · exact .unicode '2' '0' '2' '9' (by decide) (by decide)
  · next hq hb _ _ _ _ _ _ _ _ _ _ =>
    split
    · next hlt =>
      have hd1 := hexDigit_ascii (c.toNat / 16) (by omega)
      have hd2 := hexDigit_ascii (c.toNat % 16) (by omega)
      refine .unicode '0' '0' _ _ ?_ (hex4_control c.toNat hlt)
      simp [hd1, hd2]
      decide
    · next hge => exact .plain (by omega) (fun h => hq h) (fun h => hb h)

/-- ASCII characters are written one byte each. -/
theorem flatMap_utf8EncodeChar_ascii {cs : List Char} (h : ∀ c ∈ cs, c.toNat < 0x80) :
    cs.flatMap String.utf8EncodeChar = cs.map byte := by
  induction cs with
  | nil => rfl
  | cons c cs ih =>
    rw [List.flatMap_cons, Utf8.utf8EncodeChar_of_lt (h c List.mem_cons_self),
      ih fun d hd => h d (List.mem_cons_of_mem c hd), List.map_cons]
    rfl

theorem toNat_byte {c : Char} (h : c.toNat < 0x80) : (byte c).toNat = c.toNat :=
  Utf8.toNat_toUInt8_of_lt (by omega)

/-- The bytes of a character written as itself: no quote, no control byte and no
backslash among them. -/
theorem plain_bytes {c : Char} (h20 : 0x20 ≤ c.toNat) (hq : c ≠ '"') (hb : c ≠ '\\') :
    ∀ b ∈ String.utf8EncodeChar c, b ≠ byte '"' ∧ 0x20 ≤ b.toNat ∧ b ≠ byte '\\' := by
  intro b hmem
  have hne : ∀ d : Char, d.toNat < 0x80 → c ≠ d → b.toNat ≠ d.toNat := by
    intro d hd hcd e
    rcases Utf8.mem_utf8EncodeChar hmem with ⟨-, hbc⟩ | ⟨-, hhi⟩
    · exact hcd (by rw [← Char.ofNat_toNat c, ← hbc, e, Char.ofNat_toNat])
    · omega
  have hbyte : ∀ d : Char, d.toNat < 0x80 → c ≠ d → b ≠ byte d := fun d hd hcd e =>
    hne d hd hcd (by rw [e, toNat_byte hd])
  refine ⟨hbyte '"' (by decide) hq, ?_, hbyte '\\' (by decide) hb⟩
  rcases Utf8.mem_utf8EncodeChar hmem with ⟨-, hbc⟩ | ⟨-, hhi⟩ <;> omega

/-- One step of the string reader over a byte that is neither a quote, nor a control
byte, nor a backslash. -/
theorem stringBody_cons_plain {b : UInt8} (hq : b ≠ byte '"') (hlt : ¬b < 0x20)
    (hb : b ≠ byte '\\') (rest acc : List UInt8) (esc : Bool) :
    stringBody (b :: rest) acc esc = stringBody rest (b :: acc) esc := by
  rw [stringBody.eq_def]
  simp [hq, hlt, hb]

/-- One step of the string reader over a one-letter escape. -/
theorem stringBody_letter {e : UInt8} (he : isSimpleEscape e = true) (rest acc : List UInt8)
    (esc : Bool) :
    stringBody (byte '\\' :: e :: rest) acc esc = stringBody rest (e :: byte '\\' :: acc) true := by
  rw [stringBody.eq_def]
  simp [he, show byte '\\' ≠ byte '"' by decide, show ¬byte '\\' < 32 by decide]

/-- One step of the string reader over a `\\u` escape. -/
theorem stringBody_unicode {h1 h2 h3 h4 : UInt8}
    (hh : isHex h1 && isHex h2 && isHex h3 && isHex h4 = true) (rest acc : List UInt8)
    (esc : Bool) :
    stringBody (byte '\\' :: byte 'u' :: h1 :: h2 :: h3 :: h4 :: rest) acc esc =
      stringBody rest (h4 :: h3 :: h2 :: h1 :: byte 'u' :: byte '\\' :: acc) true := by
  rw [stringBody.eq_def]
  simp at hh
  simp [hh, show byte '\\' ≠ byte '"' by decide, show ¬byte '\\' < 32 by decide,
    show isSimpleEscape (byte 'u') = false by decide]

/-- The string reader stops at a quote. -/
theorem stringBody_quote (rest acc : List UInt8) (esc : Bool) :
    stringBody (byte '"' :: rest) acc esc = some (acc.reverse, esc, rest) := by
  rw [stringBody.eq_def]
  simp

/-- Unescaping passes over a byte that is no backslash. -/
theorem unescape_cons_of_ne {b : UInt8} (hb : b ≠ byte '\\') (rest : List UInt8) :
    unescape (b :: rest) = b :: unescape rest := by
  rw [unescape.eq_def]
  simp [hb]

/-- Unescaping replaces a one-letter escape by the byte it stands for. -/
theorem unescape_letter {e : UInt8} (he : e ≠ byte 'u') (rest : List UInt8) :
    unescape (byte '\\' :: e :: rest) = simpleEscape e :: unescape rest := by
  rw [unescape.eq_def]
  simp [he]

/-- Unescaping replaces a `\\u` escape of a code point that is no surrogate by its
UTF-8 bytes. -/
theorem unescape_unicode {h1 h2 h3 h4 : UInt8}
    (hs : (isHighSurrogate (hex4 h1 h2 h3 h4) || isLowSurrogate (hex4 h1 h2 h3 h4)) = false)
    (rest : List UInt8) :
    unescape (byte '\\' :: byte 'u' :: h1 :: h2 :: h3 :: h4 :: rest) =
      Utf8.encodeScalar (hex4 h1 h2 h3 h4) ++ unescape rest := by
  rw [unescape.eq_def]
  simp at hs
  simp [hs]

/-- Bytes other than a quote, a control byte or a backslash pass through the string
reader as they stand. -/
theorem stringBody_plain {bs : List UInt8}
    (h : ∀ b ∈ bs, b ≠ byte '"' ∧ 0x20 ≤ b.toNat ∧ b ≠ byte '\\')
    (rest acc : List UInt8) (esc : Bool) :
    stringBody (bs ++ rest) acc esc = stringBody rest (bs.reverse ++ acc) esc := by
  induction bs generalizing acc with
  | nil => rfl
  | cons b bs ih =>
    obtain ⟨hq, h20, hb⟩ := h b List.mem_cons_self
    have hlt : ¬b < 0x20 := by rw [UInt8.lt_iff_toNat_lt]; simpa using h20
    rw [List.cons_append, stringBody_cons_plain hq hlt hb,
      ih fun d hd => h d (List.mem_cons_of_mem b hd)]
    simp

/-- The string reader takes a written character whole, and notes an escape when the
character was not written as itself. -/
theorem stringBody_written {c : Char} {w : List Char} (hw : Written c w) (rest acc : List UInt8)
    (esc : Bool) :
    stringBody (w.flatMap String.utf8EncodeChar ++ rest) acc esc =
      stringBody rest ((w.flatMap String.utf8EncodeChar).reverse ++ acc) (esc || w != [c]) := by
  cases hw with
  | plain h20 hq hb =>
    rw [List.flatMap_singleton, stringBody_plain (plain_bytes h20 hq hb)]
    simp
  | letter x hx hsimple hu hc hval =>
    rw [flatMap_utf8EncodeChar_ascii (by simp [hx])]
    simp only [List.map_cons, List.map_nil, List.cons_append, List.nil_append]
    have hflag : (esc || ['\\', x] != [c]) = true := by simp
    rw [stringBody_letter hsimple, hflag]
    rfl
  | unicode h1 h2 h3 h4 hh hval =>
    simp only [List.all_cons, List.all_nil, Bool.and_true, Bool.and_eq_true,
      decide_eq_true_eq] at hh
    obtain ⟨⟨a1, x1⟩, ⟨a2, x2⟩, ⟨a3, x3⟩, a4, x4⟩ := hh
    rw [flatMap_utf8EncodeChar_ascii (by simp [a1, a2, a3, a4])]
    simp only [List.map_cons, List.map_nil, List.cons_append, List.nil_append]
    have hflag : (esc || ['\\', 'u', h1, h2, h3, h4] != [c]) = true := by simp
    rw [stringBody_unicode (by simp [x1, x2, x3, x4]), hflag]
    rfl

theorem byte_inj {c d : Char} (hc : c.toNat < 0x80) (hd : d.toNat < 0x80) (h : byte c = byte d) :
    c = d := by
  have e : c.toNat = d.toNat := by rw [← toNat_byte hc, ← toNat_byte hd, h]
  rw [← Char.ofNat_toNat c, e, Char.ofNat_toNat]

/-- Bytes without a backslash come through unescaping as they stand. -/
theorem unescape_plain {bs : List UInt8} (h : ∀ b ∈ bs, b ≠ byte '\\') (rest : List UInt8) :
    unescape (bs ++ rest) = bs ++ unescape rest := by
  induction bs with
  | nil => rfl
  | cons b bs ih =>
    rw [List.cons_append, unescape_cons_of_ne (h b List.mem_cons_self),
      ih fun d hd => h d (List.mem_cons_of_mem b hd), List.cons_append]

/-- Unescaping turns a written character into its UTF-8 bytes. -/
theorem unescape_written {c : Char} {w : List Char} (hw : Written c w) (rest : List UInt8) :
    unescape (w.flatMap String.utf8EncodeChar ++ rest) =
      String.utf8EncodeChar c ++ unescape rest := by
  cases hw with
  | plain h20 hq hb =>
    rw [List.flatMap_singleton]
    exact unescape_plain (fun b hmem => (plain_bytes h20 hq hb b hmem).2.2) rest
  | letter x hx hsimple hu hc hval =>
    rw [flatMap_utf8EncodeChar_ascii (by simp [hx])]
    simp only [List.map_cons, List.map_nil, List.cons_append, List.nil_append]
    rw [unescape_letter fun e => hu (byte_inj hx (by decide) e), hval, Utf8.utf8EncodeChar_of_lt hc]
    rfl
  | unicode h1 h2 h3 h4 hh hval =>
    simp only [List.all_cons, List.all_nil, Bool.and_true, Bool.and_eq_true,
      decide_eq_true_eq] at hh
    obtain ⟨⟨a1, -⟩, ⟨a2, -⟩, ⟨a3, -⟩, a4, -⟩ := hh
    -- a character is never a surrogate, so its escape is read on its own
    have hsur : (isHighSurrogate c.toNat || isLowSurrogate c.toNat) = false := by
      have := Utf8.toNat_valid c
      simp only [isHighSurrogate, isLowSurrogate, Bool.or_eq_false_iff, Bool.and_eq_false_iff,
        decide_eq_false_iff_not, Nat.not_le, Nat.not_lt]
      omega
    rw [flatMap_utf8EncodeChar_ascii (by simp [a1, a2, a3, a4])]
    simp only [List.map_cons, List.map_nil, List.cons_append, List.nil_append]
    rw [unescape_unicode (by rw [hval]; exact hsur), hval, Utf8.encodeScalar_toNat]

/-- Whether the printed form of a text holds an escape. -/
def escapes (s : String) : Bool := s.toList.any fun c => escapeChar c != [c]

/-- The string reader takes printed characters whole, up to the closing quote. -/
theorem stringBody_escaped (cs : List Char) (rest acc : List UInt8) (esc : Bool) :
    stringBody ((cs.flatMap escapeChar).flatMap String.utf8EncodeChar ++ byte '"' :: rest) acc esc =
      some (acc.reverse ++ (cs.flatMap escapeChar).flatMap String.utf8EncodeChar,
        esc || cs.any (fun c => escapeChar c != [c]), rest) := by
  induction cs generalizing acc esc with
  | nil => simp [stringBody_quote]
  | cons c cs ih =>
    rw [List.flatMap_cons, List.flatMap_append, List.append_assoc,
      stringBody_written (written_escapeChar c), ih]
    simp [Bool.or_assoc]

/-- Unescaping printed characters gives their UTF-8 bytes. -/
theorem unescape_escaped (cs : List Char) :
    unescape ((cs.flatMap escapeChar).flatMap String.utf8EncodeChar) =
      cs.flatMap String.utf8EncodeChar := by
  induction cs with
  | nil => simp [unescape]
  | cons c cs ih =>
    rw [List.flatMap_cons, List.flatMap_append, unescape_written (written_escapeChar c), ih,
      List.flatMap_cons]

/-- The bytes of a printed string: a quote, the printed characters and a quote. -/
theorem encode_quote (s : String) :
    Utf8.encode (quote s) =
      byte '"' :: ((s.toList.flatMap escapeChar).flatMap String.utf8EncodeChar ++ [byte '"']) := by
  rw [quote, Utf8.encode_eq_flatMap, String.toList_ofList, List.flatMap_cons, List.flatMap_append,
    Utf8.utf8EncodeChar_of_lt (by decide)]
  simp [Utf8.utf8EncodeChar_of_lt (show '"'.toNat < 0x80 by decide)]
  rfl

theorem stringValue_escaped (s : String) :
    stringValue ((s.toList.flatMap escapeChar).flatMap String.utf8EncodeChar) = s := by
  rw [stringValue, unescape_escaped, Utf8.decodeText_flatMap, String.ofList_toList]

theorem skipSpace_cons {b : UInt8} (h : isSpace b = false) (l : List UInt8) :
    skipSpace (b :: l) = b :: l :=
  List.dropWhile_cons_of_neg (by simp [h])

/-- **A printed string reads as its text**, noting whether it was printed with escapes. -/
theorem readValue_quote (fuel depth : Nat) (s : String) (rest : List UInt8) :
    readValue (fuel + 1) depth (Utf8.encode (quote s) ++ rest) =
      some (.string s (escapes s), rest) := by
  rw [encode_quote, List.cons_append, List.append_assoc, List.singleton_append, readValue.eq_2,
    skipSpace_cons (by decide)]
  simp only [show (byte '"' == byte '\x7b') = false by decide,
    show (byte '"' == byte '[') = false by decide, beq_self_eq_true, if_true, Bool.false_eq_true,
    if_false, stringBody_escaped, Option.map_some]
  simp [stringValue_escaped, escapes]

/-- An object's members whose values are all texts. -/
def stringMembers (ms : List (String × String)) : List (String × Json) :=
  ms.map fun m => (m.1, str m.2)

/-- What such members read back as: each text, with whether it was printed with escapes. -/
def stringMembersRead (ms : List (String × String)) : List (String × Json) :=
  ms.map fun m => (m.1, .string m.2 (escapes m.2))

/-- An ASCII text is written one byte a character. -/
theorem encode_ascii {s : String} (h : ∀ c ∈ s.toList, c.toNat < 0x80) :
    Utf8.encode s = s.toList.map byte := by
  rw [Utf8.encode_eq_flatMap, flatMap_utf8EncodeChar_ascii h]

/-- A value printed as `v` reads back as `w` whenever a comma or a closing brace follows it. -/
def ReadsAs (v w : Json) : Prop :=
  ∀ fuel depth (c : UInt8) (rest : List UInt8), (c = byte ',' ∨ c = byte '\x7d') →
    readValue (fuel + 1) depth (Utf8.encode (render v) ++ c :: rest) = some (w, c :: rest)

theorem readsAs_str (s : String) : ReadsAs (str s) (.string s (escapes s)) :=
  fun fuel depth c rest _ => readValue_quote fuel depth s (c :: rest)

/-- Printed members `ms` that read back as `ns`: the same keys, each value reading back as its
counterpart. -/
def MembersReadAs (ms ns : List (String × Json)) : Prop :=
  List.Forall₂ (fun m n => m.1 = n.1 ∧ ReadsAs m.2 n.2) ms ns

/-- After a printed member and the byte `c` after it, the member reader has the member. -/
theorem readMembers_member {k : String} {v w : Json} (h : ReadsAs v w) (fuel depth : Nat)
    {c : UInt8} (hc : c = byte ',' ∨ c = byte '\x7d') (rest : List UInt8)
    (acc : List (String × Json)) :
    readMembers (fuel + 1 + 1) depth (Utf8.encode (quote k) ++ byte ':' :: (Utf8.encode (render v) ++ c :: rest)) acc =
      if c == byte ',' then readMembers (fuel + 1) depth rest ((k, w) :: acc)
      else some (.object ((k, w) :: acc).reverse, rest) := by
  have hsep : isSpace c = false ∧ (c == byte ',' || c == byte '\x7d') = true := by
    rcases hc with rfl | rfl <;> decide
  rw [encode_quote k, List.cons_append, List.append_assoc, List.singleton_append, readMembers.eq_2,
    skipSpace_cons (by decide)]
  simp only [bne_self_eq_false, Bool.false_eq_true, if_false, stringBody_escaped,
    List.reverse_nil, List.nil_append, skipSpace_cons (show isSpace (byte ':') = false by decide),
    h fuel depth c rest hc, stringValue_escaped, skipSpace_cons hsep.1]
  rcases hc with rfl | rfl
  · simp
  · simp only [show (byte '\x7d' == byte ',') = false by decide, Bool.false_eq_true, if_false,
      beq_self_eq_true, if_true]

theorem encode_renderMembers_one (k : String) (v : Json) :
    Utf8.encode (renderMembers [(k, v)]) = Utf8.encode (quote k) ++ byte ':' :: Utf8.encode (render v) := by
  simp [renderMembers, Utf8.encode_append, encode_ascii]

theorem encode_renderMembers_more (k : String) (v : Json) (m : String × Json)
    (ms : List (String × Json)) :
    Utf8.encode (renderMembers ((k, v) :: m :: ms)) = Utf8.encode (quote k) ++ byte ':' ::
      (Utf8.encode (render v) ++ byte ',' :: Utf8.encode (renderMembers (m :: ms))) := by
  simp [renderMembers, Utf8.encode_append, encode_ascii]

/-- **Printed members read back** as the members they read as, however many there are, given
two steps of fuel for each. -/
theorem readMembers_readsAs (depth : Nat) :
    ∀ {ms ns : List (String × Json)}, MembersReadAs ms ns → ms ≠ [] →
      ∀ (fuel : Nat) (acc : List (String × Json)) (rest : List UInt8),
        readMembers (fuel + 2 * ms.length) depth
            (Utf8.encode (renderMembers ms) ++ byte '\x7d' :: rest) acc =
          some (.object (acc.reverse ++ ns), rest)
  | [], _, _, h, _, _, _ => absurd rfl h
  | [(k, v)], [(_, w)], .cons ⟨rfl, hw⟩ .nil, _, fuel, acc, rest => by
    rw [encode_renderMembers_one, List.append_assoc, List.cons_append,
      show fuel + 2 * [(k, v)].length = fuel + 1 + 1 by simp, readMembers_member hw fuel depth (.inr rfl)]
    simp only [show (byte '\x7d' == byte ',') = false by decide, Bool.false_eq_true, if_false]
    simp
  | (k, v) :: m :: ms, (_, w) :: ns, .cons ⟨rfl, hw⟩ hrest, _, fuel, acc, rest => by
    rw [encode_renderMembers_more, List.append_assoc, List.cons_append, List.append_assoc,
      List.cons_append,
      show fuel + 2 * ((k, v) :: m :: ms).length = fuel + 2 * (m :: ms).length + 1 + 1 by
        simp only [List.length_cons]; omega,
      readMembers_member hw _ depth (.inl rfl), beq_self_eq_true, if_pos rfl,
      show fuel + 2 * (m :: ms).length + 1 = fuel + 1 + 2 * (m :: ms).length by omega,
      readMembers_readsAs depth hrest (by simp) (fuel + 1)]
    simp

/-- Printed members start with the quote of the first key. -/
theorem encode_renderMembers_starts (m : String × Json) (ms : List (String × Json)) :
    ∃ tail, Utf8.encode (renderMembers (m :: ms)) = byte '"' :: tail := by
  obtain ⟨k, v⟩ := m
  cases ms with
  | nil => exact ⟨_, by rw [encode_renderMembers_one, encode_quote, List.cons_append]⟩
  | cons m' ms => exact ⟨_, by rw [encode_renderMembers_more, encode_quote, List.cons_append]⟩

/-- Each printed member takes at least a byte. -/
theorem length_le_encode_members :
    ∀ ms : List (String × Json), ms.length ≤ (Utf8.encode (renderMembers ms)).length
  | [] => Nat.zero_le _
  | [(k, v)] => by simp [encode_renderMembers_one, encode_quote]
  | (k, v) :: m :: ms => by
    have ih := length_le_encode_members (m :: ms)
    rw [encode_renderMembers_more]
    simp only [List.length_cons, List.length_append] at ih ⊢
    omega

/-- **A printed object reads back** as the members its members read back as. -/
theorem parse?_render_object {ms ns : List (String × Json)} (h : MembersReadAs ms ns) :
    parse? (Utf8.encode (render (.object ms))) = some (.object ns) := by
  have hbytes : Utf8.encode (render (.object ms)) =
      byte '\x7b' :: (Utf8.encode (renderMembers ms) ++ [byte '\x7d']) := by
    simp [render, Utf8.encode_append, encode_ascii]
  rw [parse?, hbytes]
  cases ms with
  | nil =>
    obtain rfl : ns = [] := List.forall₂_nil_left_iff.mp h
    have hempty : Utf8.encode (renderMembers []) = [] := by
      rw [Utf8.encode_eq_flatMap]; rfl
    have hfuel : fuelFor (byte '\x7b' :: ([] ++ [byte '\x7d'])) = 10 + 1 + 1 := rfl
    rw [hempty, hfuel, readValue.eq_2, skipSpace_cons (by decide)]
    simp only [beq_self_eq_true, if_true, show ¬(0 + 1 > maxDepth) by decide, if_false,
      List.nil_append]
    rw [readObject.eq_2, skipSpace_cons (by decide)]
    simp [skipSpace]
  | cons m ms =>
    obtain ⟨tail, htail⟩ := encode_renderMembers_starts m ms
    have hlen := length_le_encode_members (m :: ms)
    -- the fuel covers the brace, the object and two steps for each member
    obtain ⟨extra, hfuel⟩ : ∃ extra, fuelFor (byte '\x7b' ::
        (Utf8.encode (renderMembers (m :: ms)) ++ [byte '\x7d'])) =
          extra + 2 * (m :: ms).length + 1 + 1 :=
      ⟨4 * (Utf8.encode (renderMembers (m :: ms))).length + 10 - 2 * (m :: ms).length, by
        simp only [fuelFor, List.length_cons, List.length_append, List.length_nil] at hlen ⊢
        omega⟩
    rw [hfuel, readValue.eq_2, skipSpace_cons (by decide)]
    simp only [beq_self_eq_true, if_true, show ¬(0 + 1 > maxDepth) by decide, if_false]
    rw [readObject.eq_2, htail, List.cons_append, skipSpace_cons (by decide)]
    simp only [show (byte '"' == byte '\x7d') = false by decide, Bool.false_eq_true, if_false]
    rw [← List.cons_append, ← htail, readMembers_readsAs 1 h (by simp) extra [] []]
    simp [skipSpace]


/-- **A printed object of text members reads back** as those members, each text with
whether it was printed with escapes. -/
theorem parse?_render_strings (ms : List (String × String)) :
    parse? (Utf8.encode (render (.object (stringMembers ms)))) =
      some (.object (stringMembersRead ms)) := by
  apply parse?_render_object
  unfold MembersReadAs stringMembers stringMembersRead
  rw [List.forall₂_map_left_iff, List.forall₂_map_right_iff]
  exact List.forall₂_same.mpr fun m _ => ⟨rfl, readsAs_str m.2⟩

end Json

end OnrampLedger
