import OnrampLedger.Proofs.DeadLetters
import OnrampLedger.Proofs.Idempotency

/-!
# Payments credit once

A provider may deliver a payment any number of times, verified or not, with any status,
user, amount or currency, while retry cycles and operators act on its row in between.
The payment is still credited once. For every payment id `x` the store holds at most one
row of `x`; the ledger holds one provider credit under `x` while that row is processed
and none otherwise; and a processed row stays as it is, naming that credit and the
wallet it went to (`Store.CreditedOnce`). A delivery that is unverified or not completed
changes nothing.

The account of each payment rests on facts of the whole store (`Store.PaymentRows`): a
payment id has one row at most, and a provider credit is referenced by its payment id.
With every entry written under the key its own fields derive (`Store.Keyed`), a credit
that processing finds already made under its key is a provider credit of the payment,
which the account of an unprocessed payment rules out.

Two writes could credit under a payment id outside its processing, and are kept out
(`Command.KeepsCredits`): a direct credit naming the provider as its source, and an
operator's replay of a missing-webhook case whose credit takes the payment id `manual_`
followed by the case's id.

## Main results

* `Intake.Processed.creditedOnce` — processing a payment keeps the account of every
  payment.
* `Command.Step.creditedOnce` — so does every step the account allows.
* `payments_credit_once` — along every run from an empty store.
-/

namespace OnrampLedger

/-- The provider credits of payment `x`: ledger entries from the provider under its id. -/
def Store.creditsOf (s : Store) (x : String) : List LedgerEntry :=
  s.ledger.filter fun e => e.source == .webhook && e.providerEventId == x

/-- Whether the row of payment `x` is processed. -/
def Store.processedFor (s : Store) (x : String) : Bool :=
  s.webhooks.any fun r => r.externalId == x && r.status == .processed

/-- The facts of a whole store the account of each payment rests on: one row per
payment id, and provider credits referenced by their payment id. -/
structure Store.PaymentRows (s : Store) : Prop where
  externalIds : (s.webhooks.map (·.externalId)).Nodup
  references : ∀ e ∈ s.ledger, e.source = .webhook → e.reference = e.providerEventId

/-- The account of payment `x`: one provider credit while its row is processed and none
otherwise, and a processed row names that credit and the wallet it went to. -/
structure Store.CreditedOnce (s : Store) (x : String) : Prop where
  count : (s.creditsOf x).length = if s.processedFor x then 1 else 0
  entry : ∀ r ∈ s.webhooks, r.externalId = x → r.status = .processed →
    ∃ e ∈ s.creditsOf x, e.id = r.transactionId ∧ e.wallet = r.walletId

/-- The commands that credit under payment id `x` only by processing the payment: a
direct credit does not name the provider as its source, and an operator's replay does
not credit under `x`. -/
def Command.KeepsCredits (x : String) : Command → Prop
  | .credit r => r.source ≠ Source.webhook.name
  | .replayMissing id _ => "manual_" ++ id ≠ x
  | _ => True

theorem Store.PaymentRows.empty : Store.empty.PaymentRows :=
  ⟨List.nodup_nil, fun _ h => by cases h⟩

theorem Store.CreditedOnce.empty (x : String) : Store.empty.CreditedOnce x :=
  ⟨rfl, fun _ h => by cases h⟩

theorem Store.processedFor_iff {s : Store} {x : String} :
    s.processedFor x = true ↔ ∃ r ∈ s.webhooks, r.externalId = x ∧ r.status = .processed := by
  simp [Store.processedFor]

/-- With distinct payment ids, a payment has one row at most. -/
theorem Store.rows_le_one {s : Store} (h : (s.webhooks.map (·.externalId)).Nodup) (x : String) :
    (s.webhooks.filter (·.externalId == x)).length ≤ 1 := by
  rw [← List.countP_eq_length_filter]
  have hcount := List.nodup_iff_count_le_one.mp h x
  rwa [List.count, List.countP_map] at hcount

/-- With distinct payment ids, a row is what its payment id finds. -/
theorem Store.PaymentRows.webhookByExternal?_of_mem {s : Store} (h : s.PaymentRows)
    {r : WebhookEvent} (hr : r ∈ s.webhooks) : s.webhookByExternal? r.externalId = some r :=
  find?_key_of_mem h.externalIds hr

/-- A payment whose row, if any, is not processed is not processed. -/
theorem Store.PaymentRows.processedFor_eq_false {s : Store} (h : s.PaymentRows) {x : String}
    (hprior : ∀ p, s.webhookByExternal? x = some p → p.status ≠ .processed) :
    s.processedFor x = false := by
  refine Bool.eq_false_iff.mpr fun hx => ?_
  obtain ⟨r, hr, hext, hproc⟩ := Store.processedFor_iff.mp hx
  have hfound := h.webhookByExternal?_of_mem hr
  rw [hext] at hfound
  exact hprior r hfound hproc

/-! ## Writing a payment's row -/

section
variable {s : Store} {X : String} {row r : WebhookEvent}

/-- The rows after the row of payment `X` is written over its earlier row, or as a new
row, with payment ids and row ids distinct: the new row, and the rows of every other
payment as they were. -/
theorem Store.mem_webhooksWith_iff (hext : (s.webhooks.map (·.externalId)).Nodup)
    (hids : (s.webhooks.map (·.id)).Nodup) (hrow : row.externalId = X)
    (hid : ∀ p, s.webhookByExternal? X = some p → row.id = p.id) :
    r ∈ s.webhooksWith (s.webhookByExternal? X) row ↔
      r = row ∨ (r ∈ s.webhooks ∧ r.externalId ≠ X) := by
  cases hp : s.webhookByExternal? X with
  | none =>
    have hnone : ∀ z ∈ s.webhooks, z.externalId ≠ X := by
      simpa [Store.webhookByExternal?, List.find?_eq_none] using hp
    simp only [Store.webhooksWith, List.mem_append, List.mem_singleton]
    constructor
    · rintro (hr | rfl)
      exacts [.inr ⟨hr, hnone r hr⟩, .inl rfl]
    · rintro (rfl | ⟨hr, -⟩)
      exacts [.inr rfl, .inl hr]
  | some p =>
    have hpmem : p ∈ s.webhooks := List.mem_of_find?_eq_some hp
    have hpext : p.externalId = X := Store.externalId_of_webhookByExternal? hp
    have hrid : row.id = p.id := hid p hp
    simp only [Store.webhooksWith]
    constructor
    -- the row written over is `p`, the only row of `X`
    · intro hr
      rcases mem_replaceFirst_of_nodup hids hr with rfl | ⟨hr, hne⟩
      · exact .inl rfl
      · refine .inr ⟨hr, fun hrx => hne ?_⟩
        rw [List.inj_on_of_nodup_map hext hr hpmem (hrx.trans hpext.symm), hrid]
    · rintro (rfl | ⟨hr, hrx⟩)
      · exact List.mem_of_find?_eq_some
          (find?_replaceFirst_self (by simp) ⟨p, hpmem, by simp [hrid]⟩)
      · refine mem_replaceFirst_of_not hr (beq_eq_false_iff_ne.mpr fun hid' => hrx ?_)
        rw [List.inj_on_of_nodup_map hids hr hpmem (hid'.trans hrid), hpext]

/-- Writing the row of payment `X` keeps payment ids distinct. -/
theorem Store.externalIds_webhooksWith (hext : (s.webhooks.map (·.externalId)).Nodup)
    (hids : (s.webhooks.map (·.id)).Nodup) (hrow : row.externalId = X)
    (hid : ∀ p, s.webhookByExternal? X = some p → row.id = p.id) :
    ((s.webhooksWith (s.webhookByExternal? X) row).map (·.externalId)).Nodup := by
  cases hp : s.webhookByExternal? X with
  | none =>
    have hnone : ∀ z ∈ s.webhooks, z.externalId ≠ X := by
      simpa [Store.webhookByExternal?, List.find?_eq_none] using hp
    rw [Store.webhooksWith, List.map_append, List.nodup_append]
    refine ⟨hext, List.nodup_singleton _, fun a ha b hb => ?_⟩
    obtain ⟨z, hz, rfl⟩ := List.mem_map.mp ha
    rw [List.map_singleton, List.mem_singleton] at hb
    rw [hb, hrow]
    exact hnone z hz
  | some p =>
    have hpmem : p ∈ s.webhooks := List.mem_of_find?_eq_some hp
    have hrid : row.id = p.id := hid p hp
    rw [Store.webhooksWith, map_replaceFirst_of_find? fun z hz => ?_]
    · exact hext
    -- the row replaced is `p`, of payment `X`
    · rw [hrid, find?_key_of_mem hids hpmem] at hz
      rw [← Option.some.inj hz, Store.externalId_of_webhookByExternal? hp, hrow]

end

/-- A key of a credit, with a source and a wallet free of colons, is on an entry with
that source, reference and wallet. -/
theorem Store.Keyed.creditKey_entry {s : Store} (h : s.Keyed) {src ref wallet : String}
    {e : LedgerEntry} (he : s.entryByKey? (IdempotencyKey.credit src ref wallet).render = some e)
    (hsrc : Text.NoColon src) (hwallet : Text.NoColon wallet) :
    e ∈ s.ledger ∧ e.source.name = src ∧ e.reference = ref ∧ e.wallet = wallet := by
  unfold Store.entryByKey? at he
  rw [if_neg (IdempotencyKey.render_ne_empty _)] at he
  have hmem : e ∈ s.ledger := List.mem_of_find?_eq_some he
  have hkey : e.key = (IdempotencyKey.credit src ref wallet).render := by
    simpa using List.find?_some he
  have hparts : IdempotencyKey.ofEntry e = IdempotencyKey.credit src ref wallet := by
    have haction : Text.NoColon (if e.type.isCredit then "credit" else "debit") := by
      split <;> simp [Text.NoColon]
    refine IdempotencyKey.render_injective (Source.noColon_name e.source)
      (h.entryWallets e hmem) haction hsrc hwallet (by simp [Text.NoColon, IdempotencyKey.credit]) ?_
    rw [← h.key e hmem, hkey]
  simp only [IdempotencyKey.ofEntry, IdempotencyKey.credit, IdempotencyKey.mk.injEq] at hparts
  exact ⟨hmem, hparts.1, hparts.2.1, hparts.2.2.1⟩

/-! ## The account of one payment -/

namespace Store.CreditedOnce

variable {s s' : Store} {x : String}

/-- The account of payment `x` reads only its processed rows and its provider credits. -/
theorem of_rows (h : s.CreditedOnce x)
    (hrows : ∀ r, r.externalId = x → r.status = .processed → (r ∈ s'.webhooks ↔ r ∈ s.webhooks))
    (hcredits : s'.creditsOf x = s.creditsOf x) : s'.CreditedOnce x := by
  have hproc : s'.processedFor x = s.processedFor x := by
    rw [Bool.eq_iff_iff, Store.processedFor_iff, Store.processedFor_iff]
    constructor
    · rintro ⟨r, hr, hext, hst⟩
      exact ⟨r, (hrows r hext hst).mp hr, hext, hst⟩
    · rintro ⟨r, hr, hext, hst⟩
      exact ⟨r, (hrows r hext hst).mpr hr, hext, hst⟩
  refine ⟨by rw [hcredits, hproc, h.count], fun r hr hext hst => ?_⟩
  rw [hcredits]
  exact h.entry r ((hrows r hext hst).mp hr) hext hst

theorem of_kept (h : s.CreditedOnce x) (hk : s.Kept s') : s'.CreditedOnce x :=
  h.of_rows (fun _ _ _ => by rw [hk.webhooks]) (by rw [Store.creditsOf, Store.creditsOf, hk.ledger])

/-- An unprocessed payment has no provider credit. -/
theorem creditsOf_eq_nil (h : s.CreditedOnce x) (hx : s.processedFor x = false) :
    s.creditsOf x = [] := by
  have hcount := h.count
  rw [hx, if_neg Bool.false_ne_true] at hcount
  exact List.length_eq_zero_iff.mp hcount

end Store.CreditedOnce

/-- Entries appended that are no provider credit under `x` keep its credits. -/
theorem Store.creditsOf_append_of_ne {s s' : Store} {x : String} {es : List LedgerEntry}
    (hl : s'.ledger = s.ledger ++ es)
    (hes : ∀ e ∈ es, e.source = .webhook → e.providerEventId ≠ x) :
    s'.creditsOf x = s.creditsOf x := by
  have hnone : es.filter (fun e => e.source == .webhook && e.providerEventId == x) = [] := by
    refine List.filter_eq_nil_iff.mpr fun e he hp => ?_
    simp only [Bool.and_eq_true, beq_iff_eq] at hp
    exact hes e he hp.1 hp.2
  rw [Store.creditsOf, Store.creditsOf, hl, List.filter_append, hnone, List.append_nil]

theorem Store.externalId_getD (s : Store) (X : String) :
    ((s.webhookByExternal? X).map (·.externalId)).getD X = X := by
  cases hp : s.webhookByExternal? X with
  | none => rfl
  | some p => exact Store.externalId_of_webhookByExternal? hp

theorem Source.eq_webhook_of_name {t : Source} (h : t.name = Source.webhook.name) :
    t = .webhook := by
  cases t <;> simp_all [Source.name]

/-! ## What each command credits -/

/-- **Only processing a payment credits under its id.** Among the entries a command that
keeps the account of `x` may append, a provider credit is referenced by its payment id,
and one under `x` comes from processing a payment with id `x`. -/
theorem Command.Appends.provider {c : Command} {W : World} {es : List LedgerEntry} {x : String}
    (ha : c.Appends W es) (hc : c.KeepsCredits x) :
    ∀ e ∈ es, e.source = .webhook → e.reference = e.providerEventId ∧
      (e.providerEventId = x → ∃ ev v, c = .process ev v ∧ ev.externalId = x) := by
  intro e he hsrc
  cases c
  -- a direct credit names another source
  case credit r =>
    rcases ha with rfl | ⟨e', he', rfl⟩
    · cases he
    · rw [List.mem_singleton.mp he] at hsrc
      exact absurd (Source.eq_name_of_ofName? (hsrc ▸ he'.source)) hc
  case manualCredit =>
    rcases ha with rfl | ⟨e', he', rfl⟩
    · cases he
    · rw [List.mem_singleton.mp he] at hsrc
      have hname := Source.eq_name_of_ofName? (hsrc ▸ he'.source)
      simp [Wallets.manualRequest, Source.name] at hname
  case debit =>
    rcases ha with rfl | ⟨e', he', rfl⟩
    · cases he
    · rw [List.mem_singleton.mp he, he'.source] at hsrc
      cases hsrc
  case transfer =>
    rcases ha with rfl | ⟨out, inward, hlegs, -, rfl⟩
    · cases he
    · rcases List.mem_pair.mp he with rfl | rfl
      · rw [hlegs.outSource] at hsrc
        cases hsrc
      · rw [hlegs.inSource] at hsrc
        cases hsrc
  case process ev v =>
    rcases ha with rfl | ⟨w, e', -, he', rfl⟩
    · cases he
    · rw [List.mem_singleton.mp he]
      exact ⟨by rw [he'.reference, he'.providerEventId]; rfl,
        fun hx => ⟨ev, v, rfl, by rw [← hx, he'.providerEventId]; rfl⟩⟩
  -- a replay credits under its case's id, which is not `x`
  case replayMissing id admin =>
    rcases ha with rfl | ⟨a, o, e', rfl, he', rfl⟩
    · cases he
    · rw [List.mem_singleton.mp he]
      exact ⟨by rw [he'.reference, he'.providerEventId]; rfl,
        fun hx => absurd (he'.providerEventId.symm.trans hx) hc⟩
  all_goals
    have hnil : es = [] := ha
    rw [hnil] at he
    cases he

/-! ## What each step does to processed rows -/

namespace Command.Step

variable {c : Command} {W W' : World}

/-- **A processed row stays as it is**: no step writes over it. -/
theorem mem_of_processed (hs : c.Step W W') (hf : W.Fresh) :
    ∀ r ∈ W.store.webhooks, r.status = .processed → r ∈ W'.store.webhooks := by
  intro r hr hproc
  rcases hs.rows with ⟨hw, -⟩ | ⟨_, _, _, -, hrw⟩ | ⟨-, hcyc⟩ | ⟨_, _, -, hsent⟩ |
    ⟨_, _, _, _, -, hres⟩ | ⟨_, _, -, harch⟩
  · rwa [hw]
  · exact hrw.mem_of_settled hf hr (.inl hproc)
  · exact hcyc.mem_of_settled hf hr (.inl hproc)
  -- the row sent back is dead-lettered, so it is not `r`
  · obtain ⟨d, e, -, he, hedead, -, rfl⟩ := hsent
    have hemem : e ∈ W.store.webhooks := List.mem_of_find?_eq_some he
    refine mem_replaceFirst_of_not hr (beq_eq_false_iff_ne.mpr fun hid => ?_)
    have hre : r = e := List.inj_on_of_nodup_map hf.webhooks.nodup hr hemem hid
    rw [hre, hedead] at hproc
    cases hproc
  · obtain ⟨_, _, -, -, rfl⟩ := hres
    exact hr
  · obtain ⟨_, -, -, rfl⟩ := harch
    exact hr

/-- Only processing a payment makes a row processed: after any other step, every
processed row was there before. -/
theorem processed_mem_of_ne (hs : c.Step W W') (hf : W.Fresh) (hc : ∀ ev v, c ≠ .process ev v) :
    ∀ r ∈ W'.store.webhooks, r.status = .processed → r ∈ W.store.webhooks := by
  intro r hr hproc
  rcases hs.rows with ⟨hw, -⟩ | ⟨ev, v, _, hcp, -⟩ | ⟨-, hcyc⟩ | ⟨_, _, -, hsent⟩ |
    ⟨_, _, _, _, -, hres⟩ | ⟨_, _, -, harch⟩
  · rwa [hw] at hr
  · exact absurd hcp (hc ev v)
  -- a row a cycle takes up is left failed or dead-lettered
  · rw [hcyc.webhooks_eq hf] at hr
    obtain ⟨r₀, hr₀, rfl⟩ := List.mem_map.mp hr
    by_cases hin : r₀.id ∈ (Retry.due W.settings.retryBatch W.store.webhooks).map (·.id)
    · rw [if_pos hin] at hproc
      rcases Retry.attempt_status_cases W.settings.maxRetries W.now r₀ with hst | hst <;>
        rw [hst] at hproc <;> cases hproc
    · rwa [if_neg hin]
  · obtain ⟨d, e, -, -, -, -, rfl⟩ := hsent
    rcases mem_replaceFirst hr with rfl | hr
    · cases hproc
    · exact hr
  · obtain ⟨_, _, -, -, rfl⟩ := hres
    exact hr
  · obtain ⟨_, -, -, rfl⟩ := harch
    exact hr

/-- **Every step keeps payment ids distinct**: a payment's row is written over its earlier
row or as its payment's first, and the other writers keep each row's payment id. -/
theorem externalIds_nodup (hs : c.Step W W') (hf : W.Fresh)
    (h : (W.store.webhooks.map (·.externalId)).Nodup) :
    (W'.store.webhooks.map (·.externalId)).Nodup := by
  rcases hs.rows with ⟨hw, -⟩ | ⟨ev, v, row, -, hrw⟩ | ⟨-, hcyc⟩ | ⟨_, _, -, hsent⟩ |
    ⟨_, _, _, _, -, hres⟩ | ⟨_, _, -, harch⟩
  · rwa [hw]
  -- a payment's row keeps the payment id of its earlier row, or is its payment's first
  · rw [hrw.webhooks]
    refine Store.externalIds_webhooksWith h hf.webhooks.nodup ?_ fun p hp => ?_
    · rw [hrw.externalId, Store.externalId_getD]
    · obtain ⟨k, hk, -⟩ := hrw.id
      rw [hk, hp]
      rfl
  · rw [hcyc.webhooks_eq hf, List.map_map]
    convert h using 1
    refine List.map_congr_left fun r _ => ?_
    simp only [Function.comp]
    split
    · exact Retry.attempt_externalId _ _ _
    · rfl
  -- the row sent back keeps its payment id
  · obtain ⟨d, e, -, he, -, -, rfl⟩ := hsent
    have hemem : e ∈ W.store.webhooks := List.mem_of_find?_eq_some he
    show ((replaceFirst (·.id == e.id) _ W.store.webhooks).map (·.externalId)).Nodup
    rw [map_replaceFirst_of_find? fun z hz => ?_]
    · exact h
    · rw [find?_key_of_mem hf.webhooks.nodup hemem] at hz
      rw [← Option.some.inj hz]
  · obtain ⟨_, _, -, -, rfl⟩ := hres
    exact h
  · obtain ⟨_, -, -, rfl⟩ := harch
    exact h

/-- Every step the account of a payment allows keeps payment ids distinct and provider
credits referenced by their payment id. -/
theorem paymentRows {x : String} (hs : c.Step W W') (hc : c.KeepsCredits x) (hf : W.Fresh)
    (h : W.store.PaymentRows) : W'.store.PaymentRows := by
  refine ⟨hs.externalIds_nodup hf h.externalIds, ?_⟩
  obtain ⟨es, ha, hl⟩ := hs.appends
  intro e he hsrc
  rw [hl] at he
  rcases List.mem_append.mp he with he | he
  exacts [h.references e he hsrc, (ha.provider hc e he hsrc).1]

end Command.Step

/-! ## Processing a payment -/

namespace Intake.Processed

variable {ev : PaymentEvent} {verified : Bool} {i i' : Nat} {s s' : Store}

/-- What processing a payment wrote, read off its row and the ledger: the payment's row,
over its earlier row or new, either processed and naming a provider credit of the
payment, made now or found under the credit's key, or failed with the ledger as it was. -/
theorem written (h : Processed ev verified i i' s s') (hkeyed : s.Keyed) (hrows : s.PaymentRows) :
    ∃ row, row.externalId = ev.externalId ∧
      (∀ p, s.webhookByExternal? ev.externalId = some p → row.id = p.id) ∧
      s'.webhooks = s.webhooksWith (s.webhookByExternal? ev.externalId) row ∧
      ((row.status = .processed ∧ ∃ e, e.source = .webhook ∧
          e.providerEventId = ev.externalId ∧ e.id = row.transactionId ∧ e.wallet = row.walletId ∧
          ((s'.ledger = s.ledger ∧ e ∈ s.ledger) ∨ s'.ledger = s.ledger ++ [e])) ∨
        (row.status = .failed ∧ s'.ledger = s.ledger)) := by
  obtain ⟨-, -, -, -, -, ⟨_, hsettled⟩ | ⟨k, _, -, -, hrecorded⟩⟩ := h
  · obtain ⟨w, hw, s₁, view, hc, -, hled, -, _, row, -, -, hrow, hweb⟩ := hsettled
    refine ⟨row, by rw [hrow.externalId, Store.externalId_getD], fun p hp => by rw [hrow.id, hp]; rfl,
      hweb, .inl ⟨hrow.status, ?_⟩⟩
    rcases hc with ⟨-, hs₁, e, he, hview⟩ | ⟨_, m, -, -, hp, hce, hview⟩
    -- the credit's key was on an entry: a provider credit of this payment to the wallet
    · have hwmem : w ∈ s.wallets := List.mem_of_find?_eq_some hw
      obtain ⟨hmem, hsrc, href, hwallet⟩ := hkeyed.creditKey_entry he
        (by simp [Intake.creditFor, Text.NoColon]) (hkeyed.walletIds w hwmem)
      have hsrc' : e.source = .webhook := Source.eq_webhook_of_name hsrc
      refine ⟨e, hsrc', ?_, by rw [hrow.transactionId, hview], by rw [hrow.walletId, hwallet]; rfl,
        .inl ⟨by rw [hled, hs₁], hmem⟩⟩
      rw [← hrows.references e hmem hsrc', href]
      rfl
    -- the credit made now
    · refine ⟨m.2, ?_, hce.providerEventId, by rw [hrow.transactionId, hview],
        by rw [hrow.walletId, hce.wallet]; rfl, .inr (hled.trans hp.ledger)⟩
      have hsource := hce.source
      simp only [Intake.creditFor, Source.ofName?, Option.some.injEq] at hsource
      exact hsource.symm
  · obtain ⟨row, -, hstatus, -, hext, hid, hS⟩ := hrecorded
    refine ⟨row, by rw [hext, Store.externalId_getD], fun p hp => by rw [hid, hp]; rfl, ?_,
      .inr ⟨hstatus, ?_⟩⟩ <;> rcases hS with rfl | ⟨_, -, rfl⟩ <;> rfl

/-- **Processing a payment keeps the account of every payment.** The payment processed
had no processed row, so no provider credit: its row becomes processed with the one
credit made now, or failed with none. Every other payment keeps its rows and credits. -/
theorem creditedOnce (h : Processed ev verified i i' s s') (hkeyed : s.Keyed)
    (hrows : s.PaymentRows) (hids : (s.webhooks.map (·.id)).Nodup) {x : String}
    (hx : s.CreditedOnce x) : s'.CreditedOnce x := by
  obtain ⟨row, hext, hid, hweb, hcase⟩ := h.written hkeyed hrows
  obtain ⟨-, -, -, -, hprior, -⟩ := h
  have hmem (r : WebhookEvent) :
      r ∈ s'.webhooks ↔ r = row ∨ (r ∈ s.webhooks ∧ r.externalId ≠ ev.externalId) := by
    rw [hweb]
    exact Store.mem_webhooksWith_iff hrows.externalIds hids hext hid
  by_cases hxX : x = ev.externalId
  · subst hxX
    have hnil := hx.creditsOf_eq_nil (hrows.processedFor_eq_false fun p hp => (hprior p hp).1)
    rcases hcase with ⟨hst, e, hsrc, hpid, hid', hwal, ⟨-, he⟩ | hl⟩ | ⟨hst, hl⟩
    -- a credit already under the key would be a provider credit of the payment
    · have hcredit : e ∈ s.creditsOf ev.externalId := List.mem_filter.mpr ⟨he, by simp [hsrc, hpid]⟩
      rw [hnil] at hcredit
      cases hcredit
    · have hcredits : s'.creditsOf ev.externalId = [e] := by
        rw [Store.creditsOf, hl, List.filter_append, ← Store.creditsOf, hnil]
        simp [hsrc, hpid]
      have hproc : s'.processedFor ev.externalId = true :=
        Store.processedFor_iff.mpr ⟨row, (hmem row).mpr (.inl rfl), hext, hst⟩
      refine ⟨by rw [hcredits, hproc]; rfl, fun r hr hrx _ => ?_⟩
      rcases (hmem r).mp hr with rfl | ⟨-, hne⟩
      exacts [⟨e, by rw [hcredits]; exact List.mem_singleton_self e, hid', hwal⟩, absurd hrx hne]
    -- a failure recorded: no credit, and the payment's one row is failed
    · have hcredits : s'.creditsOf ev.externalId = [] := by
        rw [Store.creditsOf, hl, ← Store.creditsOf, hnil]
      have hfailed : ∀ r ∈ s'.webhooks, r.externalId = ev.externalId → r.status ≠ .processed := by
        intro r hr hrx hrst
        rcases (hmem r).mp hr with rfl | ⟨-, hne⟩
        · rw [hst] at hrst
          cases hrst
        · exact hne hrx
      have hproc : s'.processedFor ev.externalId = false := Bool.eq_false_iff.mpr fun hp => by
        obtain ⟨r, hr, hrx, hrst⟩ := Store.processedFor_iff.mp hp
        exact hfailed r hr hrx hrst
      exact ⟨by rw [hcredits, hproc]; rfl, fun r hr hrx hrst => absurd hrst (hfailed r hr hrx)⟩
  -- another payment: its rows and its credits are as they were
  · refine hx.of_rows (fun r hrx _ => ?_) ?_
    · rw [hmem r]
      constructor
      · rintro (rfl | ⟨hr, -⟩)
        exacts [absurd (hrx.symm.trans hext) hxX, hr]
      · exact fun hr => .inr ⟨hr, hrx ▸ hxX⟩
    · rcases hcase with ⟨-, e, -, hpid, -, -, ⟨hl, -⟩ | hl⟩ | ⟨-, hl⟩
      · rw [Store.creditsOf, Store.creditsOf, hl]
      · exact Store.creditsOf_append_of_ne hl fun e' he' _ => by
          rw [List.mem_singleton.mp he', hpid]
          exact Ne.symm hxX
      · rw [Store.creditsOf, Store.creditsOf, hl]

end Intake.Processed

/-- **Every step the account of payment `x` allows keeps it.** Processing a payment keeps
it; any other step appends no provider credit under `x` and leaves processed rows as they
were. -/
theorem Command.Step.creditedOnce {c : Command} {W W' : World} {x : String} (hs : c.Step W W')
    (hc : c.KeepsCredits x) (hf : W.Fresh) (hkeyed : W.store.Keyed) (hrows : W.store.PaymentRows)
    (h : W.store.CreditedOnce x) : W'.store.CreditedOnce x := by
  by_cases hp : ∃ ev v, c = .process ev v
  · obtain ⟨ev, v, rfl⟩ := hp
    rcases hs.1 with hk | hproc
    exacts [h.of_kept hk, hproc.creditedOnce hkeyed hrows hf.webhooks.nodup h]
  · push Not at hp
    obtain ⟨es, ha, hl⟩ := hs.appends
    refine h.of_rows (fun r _ hproc => ⟨fun hr => hs.processed_mem_of_ne hf hp r hr hproc,
      fun hr => hs.mem_of_processed hf r hr hproc⟩) ?_
    refine Store.creditsOf_append_of_ne hl fun e he hsrc hpid => ?_
    obtain ⟨ev, v, hcp, -⟩ := (ha.provider hc e he hsrc).2 hpid
    exact hp ev v hcp

/-! ## Runs -/

/-- The account of payment `x` in a world, with the facts it rests on. -/
structure World.PaymentAccount (x : String) (W : World) : Prop where
  rows : W.store.PaymentRows
  keyed : W.store.Keyed
  once : W.store.CreditedOnce x

namespace Command

/-- Every run from an empty store whose commands keep the account of payment `x` keeps
it. -/
theorem paymentAccount_runAll (cs : List Command) (w : World) (x : String)
    (hcs : ∀ c ∈ cs, c.KeepsCredits x)
    (hbound : (runAll cs { w with store := Store.empty }).issued < 2 ^ 48) :
    (runAll cs { w with store := Store.empty }).PaymentAccount x :=
  runAll_fresh_invariant (fun c hc W hf h _ =>
      ⟨(run_step c W).paymentRows hc hf h.rows, Store.Keyed.step (run_step c W) h.keyed,
        (run_step c W).creditedOnce hc hf h.keyed h.rows h.once⟩)
    hcs (World.fresh_empty w) ⟨.empty, .empty, .empty x⟩ hbound

/-- A processed row stays in every later world of a run. -/
theorem processed_mem_take (cs : List Command) {W₀ : World} (hf : W₀.Fresh)
    (hbound : (runAll cs W₀).issued < 2 ^ 48) {i j : Nat} (hij : i ≤ j) (hj : j ≤ cs.length)
    {r : WebhookEvent} (hr : r ∈ (runAll (cs.take i) W₀).store.webhooks)
    (hproc : r.status = .processed) : r ∈ (runAll (cs.take j) W₀).store.webhooks := by
  -- induction on the later world, one command at a time
  induction j, hij using Nat.le_induction with
  | base => exact hr
  | succ j _ ih =>
    have hlt : j < cs.length := hj
    have hfj : (runAll (cs.take j) W₀).Fresh :=
      fresh_runAll hf ((issued_take_le cs j W₀).trans_lt hbound)
    rw [runAll_take_succ (List.getElem?_eq_getElem hlt)]
    exact (run_step _ _).mem_of_processed hfj r (ih hlt.le) hproc

end Command

/-- **Payments credit once.** Along every run from an empty store in which no direct
credit names the provider as its source and no replay credits under the payment id `x`:
`x` has one row at most; the ledger holds one provider credit under `x` while that row
is processed and none otherwise; and a processed row names that credit and the wallet it
went to, and stays in every later world. A delivery that is unverified or not completed
changes nothing at all. -/
theorem payments_credit_once (cs : List Command) (w : World) (x : String)
    (hcs : ∀ c ∈ cs, c.KeepsCredits x)
    (hbound : (Command.runAll cs { w with store := Store.empty }).issued < 2 ^ 48) :
    let W := fun i => Command.runAll (cs.take i) { w with store := Store.empty }
    (∀ i ≤ cs.length,
      ((W i).store.webhooks.filter (·.externalId == x)).length ≤ 1 ∧
      ((W i).store.creditsOf x).length = (if (W i).store.processedFor x then 1 else 0) ∧
      ∀ r ∈ (W i).store.webhooks, r.externalId = x → r.status = .processed →
        (∃ e ∈ (W i).store.creditsOf x, e.id = r.transactionId ∧ e.wallet = r.walletId) ∧
        ∀ j, i ≤ j → j ≤ cs.length → r ∈ (W j).store.webhooks) ∧
    ∀ ev verified (V : World), (verified = false ∨ ev.status ≠ completedStatus) →
      (Command.process ev verified).run V = V := by
  intro W
  refine ⟨fun i hi => ?_, fun ev verified V h => Command.run_process_untouched (h.imp_right .inl)⟩
  have hbound' : (W i).issued < 2 ^ 48 := (Command.issued_take_le cs i _).trans_lt hbound
  have hacc : (W i).PaymentAccount x := Command.paymentAccount_runAll (cs.take i) w x
    (fun c hc => hcs c (List.mem_of_mem_take hc)) hbound'
  refine ⟨Store.rows_le_one hacc.rows.externalIds x, hacc.once.count, fun r hr hrx hproc =>
    ⟨hacc.once.entry r hr hrx hproc, fun j hij hj => ?_⟩⟩
  exact Command.processed_mem_take cs (World.fresh_empty w) hbound hij hj hr hproc

end OnrampLedger
