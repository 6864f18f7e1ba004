import Mathlib
import OnrampLedger.Provider.Signature

/-!
# Report signatures verify exactly what signing gives

A report is accepted for a provider when the secret kept for the provider's lower-cased
name is not empty and the signature, once the blanks around it and one `sha256=` are
removed, reads as hex of the report's HMAC under that secret. The HMAC is never opened
here: every statement holds of `signReport` whatever digest it gives.

* The secrets kept are those configured, under lower-cased names, the later of two names
  equal up to case winning (`lookup_secretsByProvider`). With names distinct up to case, a
  provider finds exactly the secret configured under its name in any case
  (`lookup_secretsByProvider_eq_some`).
* Every way of writing a digest — each hex digit in either case, with or without
  `sha256=`, blanks around — reads back as the digest
  (`decode_signatureDigits_of_spelling`).

## Main results

* `verifyReport_eq_true_iff` — what acceptance asks, read off the check.
* `reports_verify_exactly` — every spelling of the report's signature verifies, and a
  text verifies only if it reads back as that signature under a non-empty configured secret.
-/

namespace OnrampLedger

/-! ## Secrets by provider -/

/-- Dropping the pairs of another name does not change what a name looks up. -/
theorem lookup_filter_of_ne {x y : String} (hne : x ≠ y) (pairs : List (String × String)) :
    (pairs.filter (·.1 != y)).lookup x = pairs.lookup x := by
  induction pairs with
  | nil => rfl
  | cons q pairs ih =>
    obtain ⟨k, v⟩ := q
    by_cases hk : k = y
    · subst hk
      have hx : (x == k) = false := beq_eq_false_iff_ne.mpr hne
      simp [List.lookup_cons, ih, hx]
    · simp [hk, List.lookup_cons, ih]

/-- A pair configured last goes in front, and the pairs kept before under its lower-cased
name are dropped. -/
theorem secretsByProvider_append (secrets : List (String × String)) (p s : String) :
    secretsByProvider (secrets ++ [(p, s)]) =
      (Text.toLower p, s) :: (secretsByProvider secrets).filter (·.1 != Text.toLower p) := by
  simp [secretsByProvider, List.foldl_append]

/-- The secret kept under a name is that of the last configured pair whose name lower-cases
to it. -/
theorem lookup_secretsByProvider (secrets : List (String × String)) (x : String) :
    (secretsByProvider secrets).lookup x =
      (secrets.reverse.find? (fun q => Text.toLower q.1 == x)).map (·.2) := by
  induction secrets using List.reverseRecOn with
  | nil => rfl
  | append_singleton secrets q ih =>
    obtain ⟨p, s⟩ := q
    rw [secretsByProvider_append, List.reverse_append]
    by_cases hx : Text.toLower p = x
    · simp [hx]
    · have hb : (x == Text.toLower p) = false := beq_eq_false_iff_ne.mpr (Ne.symm hx)
      simp [List.lookup_cons, hx, hb, lookup_filter_of_ne (Ne.symm hx), ih]

/-- With no two configured names equal up to case, a provider finds exactly the secret
configured under a name that lower-cases as its own. -/
theorem lookup_secretsByProvider_eq_some {secrets : List (String × String)}
    (hnames : (secrets.map fun q => Text.toLower q.1).Nodup) (provider secret : String) :
    (secretsByProvider secrets).lookup (Text.toLower provider) = some secret ↔
      ∃ name, (name, secret) ∈ secrets ∧ Text.toLower name = Text.toLower provider := by
  rw [lookup_secretsByProvider, Option.map_eq_some_iff]
  constructor
  · rintro ⟨⟨name, s⟩, hfind, rfl⟩
    exact ⟨name, List.mem_reverse.mp (List.mem_of_find?_eq_some hfind),
      by simpa using List.find?_some hfind⟩
  · rintro ⟨name, hmem, hname⟩
    have hsome : (secrets.reverse.find? (fun q => Text.toLower q.1 == Text.toLower provider)).isSome :=
      List.find?_isSome.mpr ⟨(name, secret), List.mem_reverse.mpr hmem, by simpa using hname⟩
    obtain ⟨q, hfind⟩ := Option.isSome_iff_exists.mp hsome
    -- the pair found has the provider's name up to case, and only one configured pair does
    have hq : q = (name, secret) :=
      List.inj_on_of_nodup_map hnames (List.mem_reverse.mp (List.mem_of_find?_eq_some hfind)) hmem
        (by simpa [hname] using List.find?_some hfind)
    exact ⟨q, hfind, by rw [hq]⟩

/-! ## Trimming -/

namespace Text

/-- Blanks in front of a text are dropped by the first half of trimming. -/
theorem dropWhile_blank_append {lead : List Char} (hlead : ∀ c ∈ lead, isBlank c = true)
    (rest : List Char) : (lead ++ rest).dropWhile isBlank = rest.dropWhile isBlank := by
  rw [List.dropWhile_append, List.dropWhile_eq_nil_iff.mpr hlead]
  rfl

/-- A text with no blank in it is kept whole by dropping blanks in front. -/
theorem dropWhile_blank_of_none {cs : List Char} (hcs : ∀ c ∈ cs, isBlank c = false) :
    cs.dropWhile isBlank = cs := by
  cases cs with
  | nil => rfl
  | cons c cs => exact List.dropWhile_cons_of_neg (by simp [hcs c (by simp)])

/-- Trimming a text with no blank in it, between blanks, gives the text. -/
theorem trimChars_blanks_around {lead core trail : List Char}
    (hlead : ∀ c ∈ lead, isBlank c = true) (htrail : ∀ c ∈ trail, isBlank c = true)
    (hcore : ∀ c ∈ core, isBlank c = false) : trimChars (lead ++ core ++ trail) = core := by
  unfold trimChars
  rw [List.append_assoc, dropWhile_blank_append hlead]
  cases core with
  | nil => simp [List.dropWhile_eq_nil_iff.mpr htrail]
  | cons c cs =>
    have hc : isBlank c = false := hcore c (by simp)
    have htrail' : ∀ d ∈ trail.reverse, isBlank d = true := by simpa using htrail
    have hcore' : ∀ d ∈ (c :: cs).reverse, isBlank d = false := fun d hd =>
      hcore d (List.mem_reverse.mp hd)
    rw [List.cons_append, List.dropWhile_cons_of_neg (by simp [hc]), ← List.cons_append,
      List.reverse_append, dropWhile_blank_append htrail', dropWhile_blank_of_none hcore',
      List.reverse_reverse]

end Text

/-! ## Hex digits in either case -/

namespace Hex

/-- `c` writes the hex digit `d`, in the case it was encoded in or in upper case. -/
def DigitCase (c d : Char) : Prop := c = d ∨ c = d.toUpper

/-- Each of the sixteen digits, in either case, reads back as its value and is neither a
blank nor an `s`; upper-casing a text upper-cases it as a letter of ASCII. -/
theorem digit_facts : ∀ n < 16,
    digitValue? (digit n) = some n ∧ digitValue? (digit n).toUpper = some n ∧
      Text.isBlank (digit n) = false ∧ Text.isBlank (digit n).toUpper = false ∧
      digit n ≠ 's' ∧ (digit n).toUpper ≠ 's' ∧ Text.upperChar (digit n) = (digit n).toUpper := by
  decide

/-- The hex of bytes is made of the sixteen digits. -/
theorem mem_encode {bs : List UInt8} {c : Char} (hc : c ∈ (encode bs).toList) :
    ∃ n < 16, c = digit n := by
  rw [encode, String.toList_ofList, List.mem_flatMap] at hc
  obtain ⟨b, -, hb⟩ := hc
  have hlt := b.toNat_lt
  rcases List.mem_pair.mp hb with rfl | rfl
  · exact ⟨_, by omega, rfl⟩
  · exact ⟨_, by omega, rfl⟩

/-- The upper-cased hex of bytes writes each digit in upper case. -/
theorem digitCase_toUpper_encode (bs : List UInt8) :
    List.Forall₂ DigitCase (Text.toUpper (encode bs)).toList (encode bs).toList := by
  rw [Text.toUpper, String.toList_map, List.forall₂_map_left_iff, List.forall₂_same]
  intro c hc
  obtain ⟨n, hn, rfl⟩ := mem_encode hc
  exact .inr (digit_facts n hn).2.2.2.2.2.2

theorem digitValue?_of_digitCase {c : Char} {n : Nat} (hn : n < 16) (h : DigitCase c (digit n)) :
    digitValue? c = some n := by
  obtain ⟨h₁, h₂, -⟩ := digit_facts n hn
  rcases h with rfl | rfl
  · exact h₁
  · exact h₂

/-- A text written digit by digit from the hex of bytes holds only hex digits. -/
theorem digitCase_of_mem {digits : List Char} {bs : List UInt8}
    (h : List.Forall₂ DigitCase digits (bs.flatMap byteChars)) {c : Char} (hc : c ∈ digits) :
    ∃ n < 16, DigitCase c (digit n) := by
  induction bs generalizing digits with
  | nil => simp_all
  | cons b bs ih =>
    have hb := b.toNat_lt
    rw [List.flatMap_cons, byteChars, List.cons_append, List.cons_append, List.nil_append] at h
    obtain ⟨c₁, rest, h₁, hrest, rfl⟩ := List.forall₂_cons_right_iff.mp h
    obtain ⟨c₂, cs, h₂, hcs, rfl⟩ := List.forall₂_cons_right_iff.mp hrest
    rcases List.mem_cons.mp hc with rfl | hc
    · exact ⟨_, by omega, h₁⟩
    rcases List.mem_cons.mp hc with rfl | hc
    · exact ⟨_, by omega, h₂⟩
    exact ih hcs hc

/-- **Hex of bytes reads back in either case.** Whatever the case of each digit, the hex
of bytes decodes to the bytes. -/
theorem decodeChars_of_digitCase {digits : List Char} {bs : List UInt8}
    (h : List.Forall₂ DigitCase digits (bs.flatMap byteChars)) : decodeChars digits = some bs := by
  induction bs generalizing digits with
  | nil =>
    rw [List.flatMap_nil, List.forall₂_nil_right_iff] at h
    rw [h]
    rfl
  | cons b bs ih =>
    have hb := b.toNat_lt
    rw [List.flatMap_cons, byteChars, List.cons_append, List.cons_append, List.nil_append] at h
    obtain ⟨c₁, rest, h₁, hrest, rfl⟩ := List.forall₂_cons_right_iff.mp h
    obtain ⟨c₂, cs, h₂, hcs, rfl⟩ := List.forall₂_cons_right_iff.mp hrest
    have hbyte : (b.toNat / 16 * 16 + b.toNat % 16).toUInt8 = b := by
      rw [show b.toNat / 16 * 16 + b.toNat % 16 = b.toNat by omega]
      exact UInt8.ofNat_toNat
    rw [decodeChars, digitValue?_of_digitCase (by omega) h₁,
      digitValue?_of_digitCase (by omega) h₂, ih hcs]
    show some ((b.toNat / 16 * 16 + b.toNat % 16).toUInt8 :: bs) = some (b :: bs)
    rw [hbyte]

end Hex

/-! ## Spellings of a signature -/

/-- The texts a signature `digest` may be sent as: blanks, then `sha256=` or nothing, then
the hex of the digest with each digit in either case, then blanks. -/
def SignatureSpelling (digest : List UInt8) (sig : String) : Prop :=
  ∃ lead pre digits trail : List Char,
    sig = String.ofList (lead ++ pre ++ digits ++ trail) ∧
      (∀ c ∈ lead, Text.isBlank c = true) ∧ (∀ c ∈ trail, Text.isBlank c = true) ∧
      (pre = [] ∨ pre = "sha256=".toList) ∧
      List.Forall₂ Hex.DigitCase digits (Hex.encode digest).toList

/-- Once trimmed, a signature loses `sha256=` when it starts with it. -/
theorem signatureDigits_of_trim {sig : String} {core : List Char}
    (htrim : Text.trim sig = String.ofList core) :
    signatureDigits sig =
      if "sha256=".toList <+: core then String.ofList (core.drop 7) else String.ofList core := by
  unfold signatureDigits
  simp only [htrim, String.startsWith_string_iff, String.toList_ofList]

theorem sha256_prefix_not_blank : ∀ c ∈ "sha256=".toList, Text.isBlank c = false := by
  have h : ("sha256=".toList.all fun c => !Text.isBlank c) = true := by decide
  simpa using h

/-- **Every spelling of a signature reads back as it.** Trimming removes the blanks, the
prefix is removed when present and never taken from the digits, and the digits decode in
either case. -/
theorem decode_signatureDigits_of_spelling {digest : List UInt8} {sig : String}
    (h : SignatureSpelling digest sig) : Hex.decode? (signatureDigits sig) = some digest := by
  obtain ⟨lead, pre, digits, trail, rfl, hlead, htrail, hpre, hdigits⟩ := h
  rw [Hex.encode, String.toList_ofList] at hdigits
  have hdigit : ∀ c ∈ digits, Text.isBlank c = false ∧ c ≠ 's' := by
    intro c hc
    obtain ⟨n, hn, hcase⟩ := Hex.digitCase_of_mem hdigits hc
    obtain ⟨-, -, hb₁, hb₂, hs₁, hs₂, -⟩ := Hex.digit_facts n hn
    rcases hcase with rfl | rfl
    · exact ⟨hb₁, hs₁⟩
    · exact ⟨hb₂, hs₂⟩
  have hcore : ∀ c ∈ pre ++ digits, Text.isBlank c = false := by
    intro c hc
    rcases List.mem_append.mp hc with hc | hc
    · rcases hpre with rfl | rfl
      · simp at hc
      · exact sha256_prefix_not_blank c hc
    · exact (hdigit c hc).1
  have htrim : Text.trim (String.ofList (lead ++ pre ++ digits ++ trail)) =
      String.ofList (pre ++ digits) := by
    rw [Text.trim, String.toList_ofList, List.append_assoc lead,
      Text.trimChars_blanks_around hlead htrail hcore]
  have hdecode : Hex.decode? (String.ofList digits) = some digest := by
    rw [Hex.decode?, String.toList_ofList]
    exact Hex.decodeChars_of_digitCase hdigits
  rw [signatureDigits_of_trim htrim]
  rcases hpre with rfl | rfl
  · -- no prefix: the digits do not start with an `s`
    have hno : ¬ "sha256=".toList <+: [] ++ digits := by
      rintro ⟨t, ht⟩
      have hs : 's' ∈ digits := by
        rw [List.nil_append] at ht
        rw [← ht]
        simp
      exact (hdigit 's' hs).2 rfl
    rw [if_neg hno, List.nil_append, hdecode]
  · rw [if_pos (List.prefix_append _ _), List.drop_left' (by decide), hdecode]

/-! ## Verification -/

/-- A report verifies exactly when the provider has a non-empty secret and the signature's
digits read as the report's signature under it. -/
theorem verifyReport_eq_true_iff {secrets : List (String × String)} {provider : String}
    {body : List UInt8} {sig : String} :
    verifyReport secrets provider body sig = true ↔
      ∃ secret, secrets.lookup (Text.toLower provider) = some secret ∧ secret ≠ "" ∧
        Hex.decode? (signatureDigits sig) = some (signReport (Utf8.encode secret) body) := by
  unfold verifyReport
  split
  · next hnone => simp [hnone]
  · next secret hsome =>
    by_cases hempty : secret = ""
    · simp [hsome, hempty]
    · rw [if_neg hempty]
      cases hdigits : Hex.decode? (signatureDigits sig) with
      | none => simp
      | some got => simp [hsome, hempty]

/-- **Report signatures verify exactly what signing gives.** Take configured secrets whose
names are distinct up to case, any provider and any report. A signature verifies exactly
when a secret that is not empty is configured under the provider's name in some case, and
the signature, trimmed and with one `sha256=` removed, reads as hex of the report's HMAC
under that secret. And for such a secret, every spelling of that HMAC verifies: each hex
digit in either case, with or without `sha256=`, with blanks around. -/
theorem reports_verify_exactly (secrets : List (String × String))
    (hnames : (secrets.map fun q => Text.toLower q.1).Nodup) (provider : String)
    (body : List UInt8) :
    (∀ sig, verifyReport (secretsByProvider secrets) provider body sig = true ↔
      ∃ name secret, (name, secret) ∈ secrets ∧ Text.toLower name = Text.toLower provider ∧
        secret ≠ "" ∧
        Hex.decode? (signatureDigits sig) = some (signReport (Utf8.encode secret) body)) ∧
    (∀ name secret, (name, secret) ∈ secrets → Text.toLower name = Text.toLower provider →
      secret ≠ "" → ∀ sig, SignatureSpelling (signReport (Utf8.encode secret) body) sig →
        verifyReport (secretsByProvider secrets) provider body sig = true) := by
  have hverify : ∀ sig, verifyReport (secretsByProvider secrets) provider body sig = true ↔
      ∃ name secret, (name, secret) ∈ secrets ∧ Text.toLower name = Text.toLower provider ∧
        secret ≠ "" ∧
        Hex.decode? (signatureDigits sig) = some (signReport (Utf8.encode secret) body) := by
    intro sig
    rw [verifyReport_eq_true_iff]
    constructor
    · rintro ⟨secret, hlookup, hne, hdecode⟩
      obtain ⟨name, hmem, hname⟩ :=
        (lookup_secretsByProvider_eq_some hnames provider secret).mp hlookup
      exact ⟨name, secret, hmem, hname, hne, hdecode⟩
    · rintro ⟨name, secret, hmem, hname, hne, hdecode⟩
      exact ⟨secret, (lookup_secretsByProvider_eq_some hnames provider secret).mpr
        ⟨name, hmem, hname⟩, hne, hdecode⟩
  refine ⟨hverify, ?_⟩
  intro name secret hmem hname hne sig hspelled
  exact (hverify sig).mpr
    ⟨name, secret, hmem, hname, hne, decode_signatureDigits_of_spelling hspelled⟩

/-- A report `payload` signed with the secret configured for `moonpay` verifies for `MoonPay`
when its signature is sent upper-cased, after `sha256=`, between a space and a line break. -/
theorem reports_verify_exactly_upperPrefixed :
    ([("moonpay", "s3cret")].map fun q => Text.toLower q.1).Nodup ∧
      verifyReport (secretsByProvider [("moonpay", "s3cret")]) "MoonPay" (Utf8.encode "payload")
        (" sha256=" ++
          Text.toUpper (Hex.encode (signReport (Utf8.encode "s3cret") (Utf8.encode "payload"))) ++
          "\n") = true := by
  have hnames : ([("moonpay", "s3cret")].map fun q => Text.toLower q.1).Nodup :=
    List.nodup_singleton _
  have hname : Text.toLower "moonpay" = Text.toLower "MoonPay" := by
    apply String.toList_inj.mp
    rw [Text.toLower, Text.toLower, String.toList_map, String.toList_map]
    decide
  have hspelled : SignatureSpelling (signReport (Utf8.encode "s3cret") (Utf8.encode "payload"))
      (" sha256=" ++
        Text.toUpper (Hex.encode (signReport (Utf8.encode "s3cret") (Utf8.encode "payload"))) ++
        "\n") := by
    refine ⟨[' '], "sha256=".toList,
      (Text.toUpper (Hex.encode (signReport (Utf8.encode "s3cret") (Utf8.encode "payload")))).toList,
      ['\n'], ?_,
      by simp only [List.mem_singleton, forall_eq]; decide,
      by simp only [List.mem_singleton, forall_eq]; decide, .inr rfl,
      Hex.digitCase_toUpper_encode _⟩
    apply String.toList_inj.mp
    simp [String.toList_append]
  exact ⟨hnames, (reports_verify_exactly _ hnames "MoonPay" (Utf8.encode "payload")).2 "moonpay"
    "s3cret" (by simp) hname (by decide) _ hspelled⟩

end OnrampLedger
