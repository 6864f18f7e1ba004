import OnrampLedger.Proofs.JsonReadBack

/-!
# Generic reports read back as their events

A payment event printed as JSON is the generic provider's report format: an object of
seven text members, the amount among them in plain decimal notation. Normalizing such a
report as `generic` reads every member back into the field it came from, so the event
comes back whole, with two fields stamped by normalization: the provider name, which
becomes `generic`, and the hash of the report. Nothing else changes when the event is
already in the common form, since folding a status of the four and upper-casing an
upper-case currency leave them as they are.

## Main results

* `PaymentEvent.decodeDocument_generic` — the generic fields decode a printed event back.
* `generic_report_reads_back` — normalizing the printed event as `generic` gives it back.
-/

namespace OnrampLedger

/-- The characters of a number's text are printed as they stand. -/
theorem Json.escapeChar_numeral {c : Char} (h : c.isDigit ∨ c = '.' ∨ c = '-') :
    Json.escapeChar c = [c] := by
  have hrange : 45 ≤ c.toNat ∧ c.toNat < 58 := by
    rcases h with h | rfl | rfl
    · simp only [Char.isDigit, Bool.and_eq_true, decide_eq_true_eq] at h
      have h0 : '0'.toNat ≤ c.toNat := h.1
      have h9 : c.toNat ≤ '9'.toNat := h.2
      have : '0'.toNat = 48 := rfl
      have : '9'.toNat = 57 := rfl
      omega
    · decide
    · decide
  have key : ∀ n < 58, 45 ≤ n → Json.escapeChar (Char.ofNat n) = [Char.ofNat n] := by decide
  rw [← Char.ofNat_toNat c]
  exact key _ hrange.2 hrange.1

/-- An amount's text holds no character that needs escaping. -/
theorem Decimal.escapes_render (d : Decimal) : Json.escapes d.render = false := by
  rw [Json.escapes, List.any_eq_false]
  intro c hc
  simp [Json.escapeChar_numeral (Decimal.mem_placeText hc)]

/-- A decimal field reads an amount back from its printed text, provided its places fit
the decimal reader. -/
theorem Json.decimalOf_render (d : Decimal) (h : d.scale ≤ 2 ^ 31) :
    Json.decimalOf (.string d.render (Json.escapes d.render)) = .ok (some d) := by
  have hne : d.render.toList ≠ [] := Decimal.placeText_ne_nil _ _ _
  rw [Decimal.escapes_render, Json.decimalOf, if_neg Bool.false_ne_true,
    Decimal.ofJsonText_quoted hne (Decimal.parse_render d h)]
  rfl

namespace PaymentEvent

/-- The members of an event's JSON, each a text. -/
def members (e : PaymentEvent) : List (String × String) :=
  [("provider", e.provider), ("external_id", e.externalId), ("user_id", e.userId),
    ("amount", e.amount.render), ("currency", e.currency), ("status", e.status),
    ("payload_hash", e.payloadHash)]

theorem toJson_eq_stringMembers (e : PaymentEvent) :
    e.toJson = .object (Json.stringMembers e.members) :=
  rfl

/-- **The generic fields decode a printed event back**, when its amount's places fit the
decimal reader. -/
theorem decodeDocument_generic (e : PaymentEvent) (h : e.amount.scale ≤ 2 ^ 31) :
    Json.decodeDocument (Provider.fields .generic) empty (Utf8.encode e.toJson.render) = .ok e := by
  rw [Json.decodeDocument, toJson_eq_stringMembers, Json.parse?_render_strings]
  simp [Json.decodeValue, Json.takeRecord, Json.takeMembers, Json.stringMembersRead, members,
    Json.Field.find?, Provider.fields, Json.Field.text, Json.Field.decimal,
    Json.decimalOf_render _ h, bind, Except.bind]

end PaymentEvent

/-- A status of the four is its own fold. -/
theorem foldStatus_canonical {s : String}
    (hs : s ∈ ["completed", "pending", "failed", "refunded"]) : foldStatus s = s := by
  simp only [List.mem_cons, List.mem_nil_iff, or_false] at hs
  have hword : Text.toLower (Text.trim s) = s := by
    apply String.toList_inj.mp
    rw [Text.toLower, String.toList_map, Text.trim, String.toList_ofList]
    rcases hs with rfl | rfl | rfl | rfl <;> decide
  rw [foldStatus, hword]
  rcases hs with rfl | rfl | rfl | rfl <;> rfl

/-- **A generic report reads back as its event.** Normalizing the printed JSON of an event
as a `generic` report gives the event back, with the provider `generic` and the report's
hash, when the event is in the common form: it has a payment id, one of the four
statuses, an upper-case currency, and an amount whose places fit the decimal reader. -/
theorem generic_report_reads_back (ev : PaymentEvent) (hid : ev.externalId ≠ "")
    (hstatus : ev.status ∈ ["completed", "pending", "failed", "refunded"])
    (hcurrency : Text.toUpper ev.currency = ev.currency) (hscale : ev.amount.scale ≤ 2 ^ 31) :
    normalize "generic" (Utf8.encode ev.toJson.render) =
      .ok { ev with provider := "generic",
                    payloadHash := payloadHash (Utf8.encode ev.toJson.render) } := by
  have hkey : Text.toLower "generic" = "generic" := by
    apply String.toList_inj.mp
    rw [Text.toLower, String.toList_map]
    decide
  simp only [normalize, hkey, Provider.ofName?, PaymentEvent.decodeDocument_generic ev hscale,
    hcurrency, foldStatus_canonical hstatus, if_neg hid]

/-- An event whose id and user are printed with escapes, and whose amount is below zero
with two places, reads back from its generic report. -/
theorem generic_report_reads_back_escapedTexts :
    let ev : PaymentEvent :=
      ⟨"moonpay", "pay<1>&2", "user \"7\"", Decimal.make (-12345) 2, "USD", "completed", "abc"⟩
    ev.externalId ≠ "" ∧ ev.status ∈ ["completed", "pending", "failed", "refunded"] ∧
      Text.toUpper ev.currency = ev.currency ∧ ev.amount.scale ≤ 2 ^ 31 ∧
      normalize "generic" (Utf8.encode ev.toJson.render) =
        .ok { ev with provider := "generic",
                      payloadHash := payloadHash (Utf8.encode ev.toJson.render) } := by
  intro ev
  have hid : ev.externalId ≠ "" := by decide
  have hstatus : ev.status ∈ ["completed", "pending", "failed", "refunded"] := by decide
  have hcurrency : Text.toUpper ev.currency = ev.currency := by
    apply String.toList_inj.mp
    rw [Text.toUpper, String.toList_map]
    decide
  have hscale : ev.amount.scale ≤ 2 ^ 31 := by decide
  exact ⟨hid, hstatus, hcurrency, hscale,
    generic_report_reads_back ev hid hstatus hcurrency hscale⟩

end OnrampLedger
