import OnrampLedger.Proofs.DebitRace
import OnrampLedger.Proofs.PaymentCredits
import OnrampLedger.Proofs.Serializable
import OnrampLedger.Service.Concurrency

/-!
# Payments credit once, whatever the schedule

Deliveries of payments, failure records, retries, dead-letter actions and every other
transaction of the engine run as threads of one `Machine`, each step of each thread at
the scheduler's choice (`EngineCall`). Under every schedule the account of each payment
`x` holds in every store the machine passes through, as it does along sequential runs
(`Store.CreditedOnce`): one provider credit under `x` while its row is processed and none
otherwise, the processed row naming that credit, and at most one row of `x`. A processed
row stays in every later store.

The store's part of the invariant (`Store.Accounts`) adds what the account rests on:
every payment row carries the payment its id belongs to (`pay`), and an entry under the
key of a provider credit of `x` is one. A thread's part is a property of what remains of
its transaction (`Tx.Pays`): whatever a store that keeps the account answers, its commit,
if it comes, stages writes that keep the account (`TxState.Settles`). Those writes stage
at most one payment row, written back only over a row that is not processed; a provider
credit of `x` only together with `x`'s row written processed and naming it; and a row of
`x` written processed with no credit only after a credit of `x` was found under its key.

The commit's checks run against the store as it stands, which is what makes these
enough (`Store.Accounts.commit`): a row of `x` written new or written back passes its
check only while `x` has no processed row, so no credit; and a credit found by an earlier
call is still in the ledger, so `x` is processed by then and the row's check fails.

The threads are taken piece by piece, one lemma for each piece of a transaction (a lock,
an entry posted, a credit made or found, the purchase completed), its premise about what
follows quantified over the states that can follow. Threads that write no payment row
stage only writes quiet about `x` (`TxState.Quiet`); the others write one row, with
nothing before it but the credit it names, if it names one (`TxState.Settles.of_row`).

## Main results

* `Store.Accounts.commit` — a commit of writes that settle keeps the account.
* `Machine.Credits.perform` — every choice of the scheduler keeps the invariant.
* `EngineCall.pays_body` — every thread of the engine keeps the account of `x`, given
  that no direct credit names the provider and no replay credits under `x`.
* `payments_credit_once_interleaved` — payments credit once along sequential runs and
  under every schedule of the engine's threads.
-/

namespace OnrampLedger

/-! ## The account of a payment in a store -/

/-- Whether an entry is a provider credit of payment `x`. -/
def LedgerEntry.isCreditOf (x : String) (e : LedgerEntry) : Bool :=
  e.source == .webhook && e.providerEventId == x

theorem Store.creditsOf_eq_filter (s : Store) (x : String) :
    s.creditsOf x = s.ledger.filter (LedgerEntry.isCreditOf x) := rfl

/-- An entry under the key of a provider credit of payment `x`, to a wallet whose id has no
colon, is a provider credit of `x`. -/
def LedgerEntry.KeyedFor (x : String) (e : LedgerEntry) : Prop :=
  ∀ w, Text.NoColon w → e.key = (IdempotencyKey.credit "webhook" x w).render →
    e.isCreditOf x = true

/-- The account of payment `x` in a store whose payment rows carry the payments `pay`
gives their ids, with what it rests on: wallet ids with no colon, one row per payment,
and entries under a credit key of `x` that are credits of `x`. -/
structure Store.Accounts (x : String) (pay : String → String) (s : Store) : Prop where
  walletIds : ∀ w ∈ s.wallets, Text.NoColon w.id
  rows : ∀ r ∈ s.webhooks, r.externalId = pay r.id
  externalIds : (s.webhooks.map (·.externalId)).Nodup
  keyed : ∀ e ∈ s.ledger, e.KeyedFor x
  once : s.CreditedOnce x

/-- A payment with a provider credit in the store is processed. -/
theorem Store.CreditedOnce.processedFor_of_credit {s : Store} {x : String} (h : s.CreditedOnce x)
    {e : LedgerEntry} (he : e ∈ s.ledger) (hc : e.isCreditOf x = true) : s.processedFor x = true := by
  by_contra hx
  have hnil := h.creditsOf_eq_nil (Bool.eq_false_iff.mpr hx)
  have hmem : e ∈ s.creditsOf x := List.mem_filter.mpr ⟨he, hc⟩
  rw [hnil] at hmem
  cases hmem

/-- A payment none of whose rows is processed is not processed. -/
theorem Store.processedFor_eq_false_of {s : Store} {x : String}
    (h : ∀ r ∈ s.webhooks, r.externalId = x → r.status ≠ .processed) : s.processedFor x = false :=
  Bool.eq_false_iff.mpr fun hx => by
    obtain ⟨r, hr, hrx, hst⟩ := Store.processedFor_iff.mp hx
    exact h r hr hrx hst

/-! ## Payment rows written by a commit -/

namespace Write

/-- The payment row a write writes, if it writes one. -/
def row? : Write → Option WebhookEvent
  | .insertEvent row | .updateEvent row _ => some row
  | _ => none

/-- The write makes a row of payment `x` processed. -/
def Processes (x : String) (w : Write) : Prop :=
  ∃ row ∈ w.row?, row.externalId = x ∧ row.status = .processed

/-- The write makes a row of payment `x` processed, naming the entry `e` and its wallet. -/
def Names (x : String) (e : LedgerEntry) (w : Write) : Prop :=
  ∃ row ∈ w.row?, row.externalId = x ∧ row.status = .processed ∧ row.transactionId = e.id ∧
    row.walletId = e.wallet

theorem touchesEvents_eq_false {w : Write} (h : w.row? = none) : w.touchesEvents = false := by
  cases w <;> simp_all [row?, touchesEvents]

theorem row?_of_touchesEvents {w : Write} (h : w.touchesEvents = true) : ∃ row, w.row? = some row := by
  cases w <;> simp_all [row?, touchesEvents]

theorem touchesEvents_of_row? {w : Write} {row : WebhookEvent} (h : w.row? = some row) :
    w.touchesEvents = true := by
  cases w <;> simp_all [row?, touchesEvents]

/-- A write of a payment row stages no entry. -/
theorem appended_of_row? {w : Write} {row : WebhookEvent} (h : w.row? = some row) :
    w.appended = [] := by
  cases w <;> simp_all [row?, appended]

end Write

/-- How a commit leaves the payment rows `l` as `l'`: untouched, when it writes no row;
or with the one row it writes, `row`, as the only row of its payment, which had no
processed row before, every other payment keeping its rows. -/
inductive RowsWritten (ws : List Write) (l l' : List WebhookEvent) : Prop
  | none : (∀ w ∈ ws, w.row? = none) → l' = l → RowsWritten ws l l'
  | one (row : WebhookEvent) : (∃ w ∈ ws, w.row? = some row) → (∀ w ∈ ws, ∀ r ∈ w.row?, r = row) →
      (∀ r ∈ l, r.externalId = row.externalId → r.status ≠ .processed) → row ∈ l' →
      (∀ r ∈ l', r.externalId = row.externalId → r = row) →
      (∀ r, r.externalId ≠ row.externalId → (r ∈ l' ↔ r ∈ l)) → RowsWritten ws l l'

/-- Processed rows stay through a commit. -/
theorem RowsWritten.processed_mem {ws : List Write} {l l' : List WebhookEvent}
    (h : RowsWritten ws l l') {r : WebhookEvent} (hr : r ∈ l) (hst : r.status = .processed) :
    r ∈ l' := by
  cases h with
  | none _ hl => rwa [hl]
  | one row _ _ hbefore _ _ hother =>
    -- the payment written had no processed row, so `r` is another payment's
    exact (hother r fun hx => hbefore r hr hx hst).mpr hr

section
variable {pay : String → String} {s : Store} {w : Write} {row : WebhookEvent}

/-- **A payment row written, as a commit whose check passed writes it**, over rows that
carry their ids' payments with one row per payment. The rows still carry their ids'
payments, one row per payment; the row's payment had no processed row before, and has the
row as its only row after; every other payment keeps its rows. -/
theorem Write.events_row (hrows : ∀ r ∈ s.webhooks, r.externalId = pay r.id)
    (hext : (s.webhooks.map (·.externalId)).Nodup) (hw : w.row? = some row)
    (hpay : row.externalId = pay row.id) (hopen : ∀ st, w = .updateEvent row st → st ≠ .processed)
    (hcheck : w.check s = true) :
    (∀ r ∈ w.events s.webhooks, r.externalId = pay r.id) ∧
      ((w.events s.webhooks).map (·.externalId)).Nodup ∧
      (∀ r ∈ s.webhooks, r.externalId = row.externalId → r.status ≠ .processed) ∧
      row ∈ w.events s.webhooks ∧
      (∀ r ∈ w.events s.webhooks, r.externalId = row.externalId → r = row) ∧
      (∀ r, r.externalId ≠ row.externalId → (r ∈ w.events s.webhooks ↔ r ∈ s.webhooks)) := by
  cases w with
  | insertEvent _ =>
    cases hw
    have hfree : ∀ r ∈ s.webhooks, r.externalId ≠ row.externalId := by
      simpa [Write.check, Store.webhookByExternal?, List.find?_eq_none] using hcheck
    have hnodup : ((s.webhooks ++ [row]).map (·.externalId)).Nodup := by
      rw [List.map_append, List.nodup_append]
      refine ⟨hext, List.nodup_singleton _, fun a ha b hb => ?_⟩
      obtain ⟨r, hr, rfl⟩ := List.mem_map.mp ha
      rw [List.map_singleton, List.mem_singleton] at hb
      rw [hb]
      exact hfree r hr
    simp only [Write.events]
    refine ⟨fun r hr => ?_, hnodup, fun r hr hx => absurd hx (hfree r hr), by simp, ?_, ?_⟩
    · rcases List.mem_append.mp hr with hr | hr
      · exact hrows r hr
      · rw [List.mem_singleton.mp hr]
        exact hpay
    · intro r hr hx
      rcases List.mem_append.mp hr with hr | hr
      · exact absurd hx (hfree r hr)
      · exact List.mem_singleton.mp hr
    · intro r hx
      simp only [List.mem_append, List.mem_singleton]
      exact ⟨fun h => h.resolve_right fun hrow => hx (by rw [hrow]), .inl⟩
  | updateEvent _ st =>
    cases hw
    -- the row written over: the one with the row's id, of the row's payment
    obtain ⟨r₀, hfind, hst⟩ : ∃ r₀, s.webhooks.find? (·.id == row.id) = some r₀ ∧ r₀.status = st := by
      simp only [Write.check, Store.webhook?, Option.any_eq_true, beq_iff_eq] at hcheck
      exact hcheck
    have hr₀ : r₀ ∈ s.webhooks := List.mem_of_find?_eq_some hfind
    have hid₀ : r₀.id = row.id := by simpa using List.find?_some hfind
    have hext₀ : r₀.externalId = row.externalId := by rw [hrows r₀ hr₀, hid₀, hpay]
    have huniq : ∀ r ∈ s.webhooks, r.externalId = row.externalId → r = r₀ := fun r hr hx =>
      List.inj_on_of_nodup_map hext hr hr₀ (hx.trans hext₀.symm)
    have hnodup : ((replaceFirst (·.id == row.id) row s.webhooks).map (·.externalId)).Nodup := by
      rw [map_replaceFirst_of_find? fun z hz => by rw [hfind] at hz; rw [← Option.some.inj hz, hext₀]]
      exact hext
    have hmem : row ∈ replaceFirst (·.id == row.id) row s.webhooks :=
      List.mem_of_find?_eq_some (find?_replaceFirst_self (by simp) ⟨r₀, hr₀, by simp [hid₀]⟩)
    simp only [Write.events]
    refine ⟨fun r hr => ?_, hnodup, fun r hr hx => ?_, hmem, fun r hr hx => ?_, fun r hx => ⟨?_, ?_⟩⟩
    · rcases mem_replaceFirst hr with rfl | hr
      exacts [hpay, hrows r hr]
    · rw [huniq r hr hx, hst]
      exact hopen st rfl
    · exact List.inj_on_of_nodup_map hnodup hr hmem hx
    · intro hr
      rcases mem_replaceFirst hr with rfl | hr
      exacts [absurd rfl hx, hr]
    -- another payment's row has another id
    · intro hr
      refine mem_replaceFirst_of_not hr (beq_eq_false_iff_ne.mpr fun hid => hx ?_)
      rw [hrows r hr, hid, hpay]
  | _ => cases hw

/-- **The payment rows through a commit** of writes that carry their ids' payments, write
at most one row, and write back only over rows that are not processed. -/
theorem Store.rowsWritten {ws : List Write} (hrows : ∀ r ∈ s.webhooks, r.externalId = pay r.id)
    (hext : (s.webhooks.map (·.externalId)).Nodup)
    (hpay : ∀ w ∈ ws, ∀ row ∈ w.row?, row.externalId = pay row.id)
    (hopen : ∀ row st, Write.updateEvent row st ∈ ws → st ≠ .processed)
    (hsingle : (ws.filter Write.touchesEvents).length ≤ 1) (hchecks : ∀ w ∈ ws, w.check s = true) :
    (∀ r ∈ (ws.foldl Write.apply s).webhooks, r.externalId = pay r.id) ∧
      ((ws.foldl Write.apply s).webhooks.map (·.externalId)).Nodup ∧
      RowsWritten ws s.webhooks (ws.foldl Write.apply s).webhooks := by
  rw [Store.foldl_webhooks]
  match hf : ws.filter Write.touchesEvents, hsingle with
  | [], _ =>
    have hnone : ∀ w ∈ ws, w.row? = none := by
      intro w hw
      cases hrow : w.row? with
      | none => rfl
      | some row =>
        have htouch : w.touchesEvents = true := Write.touchesEvents_of_row? hrow
        have : w ∈ ws.filter Write.touchesEvents := List.mem_filter.mpr ⟨hw, htouch⟩
        rw [hf] at this
        cases this
    exact ⟨hrows, hext, .none hnone rfl⟩
  | [w], _ =>
    have hw : w ∈ ws ∧ w.touchesEvents = true := List.mem_filter.mp (by rw [hf]; simp)
    obtain ⟨row, hrow⟩ := Write.row?_of_touchesEvents hw.2
    have hopen' : ∀ st, w = .updateEvent row st → st ≠ .processed := by
      rintro st rfl
      exact hopen row st hw.1
    obtain ⟨hrows', hext', hbefore, hmem, honly, hother⟩ :=
      Write.events_row hrows hext hrow (hpay w hw.1 row (by simp [hrow])) hopen' (hchecks w hw.1)
    refine ⟨hrows', hext', .one row ⟨w, hw.1, hrow⟩ (fun w' hw' r hr => ?_) hbefore hmem honly hother⟩
    -- the one write that writes a row is `w`
    have htouch : w'.touchesEvents = true := Write.touchesEvents_of_row? (Option.mem_def.mp hr)
    have hw'f : w' ∈ ws.filter Write.touchesEvents := List.mem_filter.mpr ⟨hw', htouch⟩
    rw [hf, List.mem_singleton] at hw'f
    subst hw'f
    rw [hrow] at hr
    exact (Option.some.inj hr).symm
  | _ :: _ :: _, h => simp at h

end

/-- The rows of a payment no write writes are what they were. -/
theorem RowsWritten.other {ws : List Write} {l l' : List WebhookEvent} (h : RowsWritten ws l l')
    {x : String} (hx : ∀ w ∈ ws, ∀ row ∈ w.row?, row.externalId ≠ x) :
    ∀ r, r.externalId = x → (r ∈ l' ↔ r ∈ l) := by
  intro r hr
  cases h with
  | none _ hl => rw [hl]
  | one row hw _ _ _ _ hother =>
    obtain ⟨w, hw, hrow⟩ := hw
    exact hother r (hr ▸ (hx w hw row (by simp [hrow])).symm)

/-! ## Writes that settle -/

/-- How a thread's writes stand to the credit of payment `x`: they stage no credit of `x`
and make no row of `x` processed; or they stage one credit of `x` and make a row of `x`
processed naming it; or they stage no credit of `x`, one having been found under its key. -/
inductive TxState.CreditsFor (x : String) (t : TxState) : Prop
  | none : (t.writes.flatMap Write.appended).filter (LedgerEntry.isCreditOf x) = [] →
      (∀ w ∈ t.writes, ¬ w.Processes x) → t.CreditsFor x
  | made {e : LedgerEntry} :
      (t.writes.flatMap Write.appended).filter (LedgerEntry.isCreditOf x) = [e] →
      (∃ w ∈ t.writes, w.Names x e) → t.CreditsFor x
  | found {k : String} {e : LedgerEntry} :
      (t.writes.flatMap Write.appended).filter (LedgerEntry.isCreditOf x) = [] →
      Reading.key k (some e) ∈ t.seen → e.isCreditOf x = true → t.CreditsFor x

/-- Writes whose commit keeps the account of payment `x`: every row written carries its
id's payment; at most one row is written, and written back only over a row that is not
processed; every entry under a credit key of `x` is a credit of `x`; and a credit of `x`
is staged only with its row. -/
structure TxState.Settles (x : String) (pay : String → String) (t : TxState) : Prop where
  rows : ∀ w ∈ t.writes, ∀ row ∈ w.row?, row.externalId = pay row.id
  single : (t.writes.filter Write.touchesEvents).length ≤ 1
  unprocessed : ∀ row st, Write.updateEvent row st ∈ t.writes → st ≠ .processed
  keyed : ∀ e ∈ t.writes.flatMap Write.appended, e.KeyedFor x
  credit : t.CreditsFor x

namespace Store.Accounts

variable {x : String} {pay : String → String} {s s' : Store} {t : TxState}

/-- The account of `x` after a commit whose new credits of `x` are `new`, from how the
commit wrote the rows and how its writes stand to the credit of `x`. -/
theorem creditedOnce_commit (hs : s.Accounts x pay) (hcr : t.CreditsFor x)
    (hfound : ∀ k e, Reading.key k (some e) ∈ t.seen → e ∈ s.ledger)
    (hw : RowsWritten t.writes s.webhooks s'.webhooks)
    (hcredits : s'.creditsOf x =
      s.creditsOf x ++ (t.writes.flatMap Write.appended).filter (LedgerEntry.isCreditOf x)) :
    s'.CreditedOnce x := by
  cases hcr with
  | none hnil hnot =>
    rw [hnil, List.append_nil] at hcredits
    refine hs.once.of_rows (fun r hr hst => ?_) hcredits
    cases hw with
    | none _ hl => rw [hl]
    | one row hrow _ hbefore _ honly hother =>
      by_cases hx : row.externalId = r.externalId
      -- a row of `x` written, not processed, over no processed row
      · obtain ⟨w, hw, hwrow⟩ := hrow
        have hnotproc : row.status ≠ .processed := fun hp =>
          hnot w hw ⟨row, by simp [hwrow], by rw [hx, hr], hp⟩
        refine iff_of_false (fun hr' => hnotproc ?_) (fun hr' => hbefore r hr' hx.symm hst)
        rw [← honly r hr' hx.symm, hst]
      · exact hother r (Ne.symm hx)
  | made hone hnames =>
    rename_i e
    obtain ⟨w, hw', row, hrow, hx, hproc, htid, hwal⟩ := hnames
    cases hw with
    | none hnone _ => simp [hnone w hw'] at hrow
    | one row' _ hall hbefore hmem honly _ =>
      have hrow' : row = row' := hall w hw' row hrow
      subst hrow'
      -- `x` had no processed row, so no credit; now it has the one made
      have hprior : s.processedFor x = false :=
        Store.processedFor_eq_false_of fun r hr hrx => hbefore r hr (hrx.trans hx.symm)
      rw [hs.once.creditsOf_eq_nil hprior, hone, List.nil_append] at hcredits
      have hproc' : s'.processedFor x = true :=
        Store.processedFor_iff.mpr ⟨row, hmem, hx, hproc⟩
      refine ⟨by rw [hcredits, hproc']; rfl, fun r hr hrx _ => ?_⟩
      rw [honly r hr (hrx.trans hx.symm), hcredits]
      exact ⟨e, List.mem_singleton_self e, htid.symm, hwal.symm⟩
  | found hnil hseen hcredit =>
    rename_i k e
    rw [hnil, List.append_nil] at hcredits
    -- the credit found is in the ledger, so `x` has a processed row, and no row of `x`
    -- written passed its check
    obtain ⟨r₀, hr₀, hx₀, hst₀⟩ := Store.processedFor_iff.mp
      (hs.once.processedFor_of_credit (hfound k e hseen) hcredit)
    have hnotx : ∀ w ∈ t.writes, ∀ row ∈ w.row?, row.externalId ≠ x := by
      intro w hw' row hrow hx
      cases hw with
      | none hnone _ => simp [hnone w hw'] at hrow
      | one row' _ hall hbefore _ _ _ =>
        rw [hall w hw' row hrow] at hx
        exact hbefore r₀ hr₀ (hx₀.trans hx.symm) hst₀
    exact hs.once.of_rows (fun r hr _ => hw.other hnotx r hr) hcredits

/-- Wallet ids are kept through a commit. -/
theorem walletIds_commit (hs : s.Accounts x pay) (ws : List Write) :
    ∀ w ∈ (ws.foldl Write.apply s).wallets, Text.NoColon w.id := by
  intro w hw
  have hkeys : w.keys ∈ s.wallets.map Wallet.keys := by
    rw [← Store.foldl_walletKeys ws]
    exact List.mem_map_of_mem hw
  obtain ⟨w₀, hw₀, hk⟩ := List.mem_map.mp hkeys
  have hid : w₀.id = w.id := congrArg Prod.fst hk
  exact hid ▸ hs.walletIds w₀ hw₀

/-- **A commit of writes that settle keeps the account**, when every credit the
transaction found is still in the ledger; and processed rows stay. -/
theorem commit (hs : s.Accounts x pay) (ht : t.Settles x pay)
    (hfound : ∀ k e, Reading.key k (some e) ∈ t.seen → e ∈ s.ledger)
    (hc : s.commit? t.writes = some s') :
    s'.Accounts x pay ∧ ∀ r ∈ s.webhooks, r.status = .processed → r ∈ s'.webhooks := by
  obtain ⟨hchecks, rfl⟩ := Store.commit?_eq_some hc
  obtain ⟨hrows, hext, hwritten⟩ :=
    Store.rowsWritten hs.rows hs.externalIds ht.rows ht.unprocessed ht.single hchecks
  -- the ledger grows by the staged entries
  have hledger := Store.foldl_ledger (s := s) t.writes
  have hcredits : (t.writes.foldl Write.apply s).creditsOf x =
      s.creditsOf x ++ (t.writes.flatMap Write.appended).filter (LedgerEntry.isCreditOf x) := by
    rw [Store.creditsOf_eq_filter, Store.creditsOf_eq_filter, hledger, List.filter_append]
  have hkeyed : ∀ e ∈ (t.writes.foldl Write.apply s).ledger, e.KeyedFor x := by
    intro e he
    rw [hledger] at he
    rcases List.mem_append.mp he with he | he
    exacts [hs.keyed e he, ht.keyed e he]
  exact ⟨⟨hs.walletIds_commit t.writes, hrows, hext, hkeyed,
      hs.creditedOnce_commit ht.credit hfound hwritten hcredits⟩,
    fun r hr hst => hwritten.processed_mem hr hst⟩

end Store.Accounts

/-! ## Threads that keep the account -/

/-- A thread that keeps the account of payment `x`, from the state `t`: whatever a store
that keeps the account answers each of its calls, its commit, if it comes, settles. -/
inductive Tx.Pays (x : String) (pay : String → String) : Tx → TxState → Prop
  | commit {t : TxState} : t.Settles x pay → Tx.Pays x pay .commit t
  | rollback {t : TxState} : Tx.Pays x pay .rollback t
  | call {c : Call} {k : c.Answer → Tx} {t : TxState} :
      (∀ s a, s.Accounts x pay → c.result s t = some a → Tx.Pays x pay (k a) (c.next t a)) →
        Tx.Pays x pay (.call c k) t

/-- An entry a call finds under a key, unless the transaction found it before, is in the
store that answered the call. -/
theorem Call.found_next {c : Call} {s : Store} {t : TxState} {a : c.Answer}
    (hr : c.result s t = some a) {k : String} {e : LedgerEntry}
    (he : Reading.key k (some e) ∈ (c.next t a).seen) : Reading.key k (some e) ∈ t.seen ∨ e ∈ s.ledger := by
  cases c with
  | entryByKey key =>
    simp only [Call.next] at he
    split at he
    · exact .inl he
    · next hstaged =>
      rcases List.mem_append.mp he with he | he
      · exact .inl he
      · -- nothing staged has the key: the store answered
        simp only [List.mem_singleton, Reading.key.injEq] at he
        obtain ⟨rfl, rfl⟩ := he
        simp only [Call.result, Option.some.injEq] at hr
        rw [Option.not_isSome_iff_eq_none.mp hstaged, Option.none_or] at hr
        unfold Store.entryByKey? at hr
        split at hr
        · cases hr
        · exact .inr (List.mem_of_find?_eq_some hr)
  | post e' => simp [Call.next] at he; exact .inl he
  | eventByExternal x =>
    simp only [Call.next] at he
    split at he
    · exact .inl he
    · exact .inl (by simpa using he)
  | _ => exact .inl (by simpa [Call.next] using he)

/-! ## Writes quiet about a payment -/

namespace TxState

variable {x : String} {pay : String → String} {t t' : TxState}

/-- The copies of rows a transaction keeps are of wallets whose ids have no colon. -/
def Plain (t : TxState) : Prop := ∀ w ∈ t.cache, Text.NoColon w.id

/-- `t'` comes after `t` by calls that stage nothing: locks taken, rows copied and facts
read. -/
structure Reads (t t' : TxState) : Prop where
  writes : t'.writes = t.writes
  entries : t'.entries = t.entries
  seen : t.seen ⊆ t'.seen

theorem Reads.refl (t : TxState) : t.Reads t := ⟨rfl, rfl, List.Subset.refl _⟩

theorem Reads.trans {t'' : TxState} (h : t.Reads t') (h' : t'.Reads t'') : t.Reads t'' :=
  ⟨h'.writes.trans h.writes, h'.entries.trans h.entries, List.Subset.trans h.seen h'.seen⟩

/-- Writes that write no payment row and stage no provider credit of `x`, every entry
they stage being keyed for `x`. -/
def Quiet (x : String) (t : TxState) : Prop :=
  ∀ w ∈ t.writes, w.row? = none ∧ ∀ e ∈ w.appended, e.KeyedFor x ∧ e.isCreditOf x = false

theorem Quiet.of_writes_nil (h : t.writes = []) : t.Quiet x := by
  intro w hw
  rw [h] at hw
  cases hw

theorem Quiet.of_reads (h : t.Quiet x) (hr : t.Reads t') : t'.Quiet x := by
  intro w hw
  rw [hr.writes] at hw
  exact h w hw

theorem Quiet.stage (h : t.Quiet x) {w : Write} (hrow : w.row? = none) (happ : w.appended = []) :
    ((Call.stage w).next t ()).Quiet x := by
  intro v hv
  simp only [Call.next, List.mem_append, List.mem_singleton] at hv
  rcases hv with hv | rfl
  · exact h v hv
  · exact ⟨hrow, by simp [happ]⟩

theorem Quiet.post (h : t.Quiet x) {e : LedgerEntry} (hkeyed : e.KeyedFor x)
    (hc : e.isCreditOf x = false) : ((Call.post e).next t ()).Quiet x := by
  intro v hv
  simp only [Call.next, List.mem_append, List.mem_cons, List.not_mem_nil, or_false] at hv
  rcases hv with hv | rfl | rfl
  · exact h v hv
  · exact ⟨rfl, by simp [Write.appended]⟩
  · exact ⟨rfl, by simp [Write.appended, hkeyed, hc]⟩

/-- **Quiet writes settle.** -/
theorem Settles.of_quiet (h : t.Quiet x) : t.Settles x pay where
  rows w hw row hrow := by simp [(h w hw).1] at hrow
  single := by
    rw [List.filter_eq_nil_iff.mpr fun w hw => by simp [Write.touchesEvents_eq_false (h w hw).1]]
    simp
  unprocessed row st hw := by simpa [Write.row?] using (h _ hw).1
  keyed e he := by
    obtain ⟨w, hw, he⟩ := List.mem_flatMap.mp he
    exact ((h w hw).2 e he).1
  credit := .none
    (List.filter_eq_nil_iff.mpr fun e he => by
      obtain ⟨w, hw, he⟩ := List.mem_flatMap.mp he
      simp [((h w hw).2 e he).2])
    fun w hw ⟨row, hrow, _⟩ => by simp [(h w hw).1] at hrow

/-- Writes with no provider credit of `x` and no row of `x` made processed stand to the
credit of `x` as writes that stage none. -/
theorem CreditsFor.of_unprocessed (hflat : (t.writes.flatMap Write.appended).filter
      (LedgerEntry.isCreditOf x) = [])
    (h : ∀ w ∈ t.writes, ∀ row ∈ w.row?, row.externalId = x → row.status ≠ .processed) :
    t.CreditsFor x :=
  .none hflat fun w hw ⟨row, hrow, hx, hst⟩ => h w hw row hrow hx hst

/-- A payment row written over writes that wrote none: the writes settle when the row
carries its id's payment, is written back only over a row that is not processed, and
the writes stand to the credit of `x` as they should. -/
theorem Settles.of_row {u : TxState} {w : Write} {row : WebhookEvent}
    (hw : t.writes = u.writes ++ [w]) (hpre : ∀ v ∈ u.writes, v.row? = none)
    (hkeyed : ∀ e ∈ u.writes.flatMap Write.appended, e.KeyedFor x) (hrow : w.row? = some row)
    (hpay : row.externalId = pay row.id) (hopen : ∀ st, w = .updateEvent row st → st ≠ .processed)
    (hcredit : t.CreditsFor x) : t.Settles x pay := by
  have happ : w.appended = [] := Write.appended_of_row? hrow
  refine ⟨fun v hv r hr => ?_, ?_, fun r st hv => ?_, fun e he => ?_, hcredit⟩
  · rw [hw, List.mem_append, List.mem_singleton] at hv
    rcases hv with hv | rfl
    · simp [hpre v hv] at hr
    · rw [hrow, Option.mem_some_iff] at hr
      rw [← hr]
      exact hpay
  · rw [hw, List.filter_append, List.filter_eq_nil_iff.mpr fun v hv => by
      simp [Write.touchesEvents_eq_false (hpre v hv)]]
    exact List.length_filter_le _ _
  · rw [hw, List.mem_append, List.mem_singleton] at hv
    rcases hv with hv | hv
    · have hnone := hpre _ hv
      simp [Write.row?] at hnone
    · rw [← hv] at hrow
      cases hrow
      exact hopen st hv.symm
  · rw [hw, List.flatMap_append, List.flatMap_singleton, happ, List.append_nil] at he
    exact hkeyed e he

/-- A payment row written not processed, after nothing else: the writes settle when the
row carries its id's payment and is written back only over a row that is not processed. -/
theorem Settles.of_unprocessed_row {u : TxState} {w : Write} {row : WebhookEvent}
    (hw : t.writes = u.writes ++ [w]) (hu : u.writes = []) (hrow : w.row? = some row)
    (hpay : row.externalId = pay row.id) (hopen : ∀ st, w = .updateEvent row st → st ≠ .processed)
    (hst : row.status ≠ .processed) : t.Settles x pay := by
  rw [hu, List.nil_append] at hw
  refine .of_row (u := u) (by rw [hw, hu, List.nil_append]) (by simp [hu]) (by simp [hu]) hrow hpay
    hopen (.of_unprocessed ?_ fun v hv r hr _ => ?_)
  · rw [hw, List.flatMap_singleton, Write.appended_of_row? hrow, List.filter_nil]
  · rw [hw, List.mem_singleton] at hv
    subst hv
    rw [hrow, Option.mem_some_iff] at hr
    rw [← hr]
    exact hst

/-- One payment row written after nothing else, by a transaction that found the entry `e`
under a key: the writes stand to the credit of `x` as they should when `e` is a credit of
`x` as soon as the row is of `x`. -/
theorem CreditsFor.of_found_row {u : TxState} {w : Write} {row : WebhookEvent} {k : String}
    {e : LedgerEntry} (hw : t.writes = u.writes ++ [w]) (hu : u.writes = [])
    (hrow : w.row? = some row) (hseen : Reading.key k (some e) ∈ t.seen)
    (hcredit : row.externalId = x → e.isCreditOf x = true) : t.CreditsFor x := by
  rw [hu, List.nil_append] at hw
  have hflat : (t.writes.flatMap Write.appended).filter (LedgerEntry.isCreditOf x) = [] := by
    rw [hw, List.flatMap_singleton, Write.appended_of_row? hrow, List.filter_nil]
  by_cases hx : row.externalId = x
  · exact .found hflat hseen (hcredit hx)
  · refine .of_unprocessed hflat fun v hv r hr hrx => absurd ?_ hx
    rw [hw, List.mem_singleton] at hv
    subst hv
    rw [hrow, Option.mem_some_iff] at hr
    rw [hr, hrx]

/-- A credit's entry `e` with its balance, then one payment row processed naming `e`: the
writes stand to the credit of `x` as they should when `e` is a credit of `x` exactly when
the row is of `x`. -/
theorem CreditsFor.of_made_row {u : TxState} {w : Write} {row : WebhookEvent} {e : LedgerEntry}
    (hw : t.writes = u.writes ++ [w]) (hu : u.writes = [.balance e.wallet e.after e.createdAt, .entry e])
    (hrow : w.row? = some row) (hst : row.status = .processed) (htid : row.transactionId = e.id)
    (hwal : row.walletId = e.wallet) (hcredit : e.isCreditOf x = true ↔ row.externalId = x) :
    t.CreditsFor x := by
  rw [hu] at hw
  have hflat : t.writes.flatMap Write.appended = [e] := by
    simp only [hw, List.flatMap_append, List.flatMap_cons, List.flatMap_nil,
      Write.appended_of_row? hrow]
    rfl
  by_cases hx : row.externalId = x
  · refine .made (by simp [hflat, hcredit.mpr hx]) ⟨w, by simp [hw], row, by simp [hrow], hx, hst,
      htid, hwal⟩
  · refine .of_unprocessed (by simp [hflat, mt hcredit.mp hx]) fun v hv r hr hrx => absurd ?_ hx
    simp only [hw, List.cons_append, List.nil_append, List.mem_cons, List.not_mem_nil,
      or_false] at hv
    rcases hv with rfl | rfl | rfl
    · simp [Write.row?] at hr
    · simp [Write.row?] at hr
    · rw [hrow, Option.mem_some_iff] at hr
      rw [hr, hrx]

theorem CreditsFor.stage (h : t.CreditsFor x) {w : Write} (hrow : w.row? = .none)
    (happ : w.appended = []) : ((Call.stage w).next t ()).CreditsFor x := by
  have hflat : ((Call.stage w).next t ()).writes.flatMap Write.appended =
      t.writes.flatMap Write.appended := by
    simp [Call.next, happ]
  cases h with
  | none hnil hnot =>
    refine .none (by rw [hflat]; exact hnil) fun v hv => ?_
    simp only [Call.next, List.mem_append, List.mem_singleton] at hv
    rcases hv with hv | rfl
    · exact hnot v hv
    · rintro ⟨row, hr, _⟩
      simp [hrow] at hr
  | made hone hnames =>
    obtain ⟨v, hv, hn⟩ := hnames
    exact .made (by rw [hflat]; exact hone) ⟨v, by simp [Call.next, hv], hn⟩
  | found hnil hseen hc => exact .found (by rw [hflat]; exact hnil) hseen hc

/-- A write of no payment row and no entry, staged after writes that settle. -/
theorem Settles.stage (h : t.Settles x pay) {w : Write} (hrow : w.row? = none)
    (happ : w.appended = []) : ((Call.stage w).next t ()).Settles x pay where
  rows v hv := by
    simp only [Call.next, List.mem_append, List.mem_singleton] at hv
    rcases hv with hv | rfl
    · exact h.rows v hv
    · intro row hr
      simp [hrow] at hr
  single := by
    simpa [Call.next, List.filter_append, Write.touchesEvents_eq_false hrow] using h.single
  unprocessed row st hv := by
    simp only [Call.next, List.mem_append, List.mem_singleton] at hv
    rcases hv with hv | hv
    · exact h.unprocessed row st hv
    · rw [← hv] at hrow
      cases hrow
  keyed e he := by
    simp only [Call.next, List.flatMap_append, List.flatMap_singleton, happ, List.append_nil] at he
    exact h.keyed e he
  credit := h.credit.stage hrow happ

end TxState

/-! ## Keys of credits -/

/-- The entry a store finds under a key is in the ledger, under that key. -/
theorem Store.mem_of_entryByKey? {s : Store} {k : String} {e : LedgerEntry}
    (h : s.entryByKey? k = some e) : e ∈ s.ledger ∧ e.key = k := by
  unfold Store.entryByKey? at h
  split at h
  · cases h
  · exact ⟨List.mem_of_find?_eq_some h, by simpa using List.find?_some h⟩

namespace LedgerEntry

variable {x : String} {e : LedgerEntry}

/-- An entry under the key of a credit, from a source and to a wallet with no colon, is
keyed for `x` when it is a credit of `x` as soon as that key is the key of a provider
credit of `x`. -/
theorem keyedFor_of_credit_key {src ref wallet : String}
    (hkey : e.key = (IdempotencyKey.credit src ref wallet).render) (hsrc : Text.NoColon src)
    (hwallet : Text.NoColon wallet) (h : src = "webhook" → ref = x → e.isCreditOf x = true) :
    e.KeyedFor x := by
  intro w hw hk
  have heq := @IdempotencyKey.render_injective (.credit src ref wallet)
    (.credit "webhook" x w) hsrc hwallet (by simp [Text.NoColon, IdempotencyKey.credit])
    (Source.noColon_name .webhook) hw (by simp [Text.NoColon, IdempotencyKey.credit])
    (hkey.symm.trans hk)
  simp only [IdempotencyKey.credit, IdempotencyKey.mk.injEq] at heq
  exact h heq.1 heq.2.1

/-- An entry under the key of a debit is keyed for every payment: no debit key is a
credit key. -/
theorem keyedFor_of_debit_key {src ref wallet : String}
    (hkey : e.key = (IdempotencyKey.debit src ref wallet).render) : e.KeyedFor x := by
  intro w _ hk
  have haction := @IdempotencyKey.action_eq_of_render_eq (.debit src ref wallet)
    (.credit "webhook" x w) (by simp [Text.NoColon, IdempotencyKey.debit])
    (by simp [Text.NoColon, IdempotencyKey.credit]) (hkey.symm.trans hk)
  simp [IdempotencyKey.debit, IdempotencyKey.credit] at haction

end LedgerEntry

/-- The source of a credit that passes its checks is the one its request names. -/
theorem Tx.creditTerms_source {r : CreditRequest} {source : Source} {amount : Decimal}
    {type : EntryType} (h : Tx.creditTerms r = some (source, amount, type)) :
    r.source = source.name := by
  unfold Tx.creditTerms at h
  cases hs : Source.ofName? r.source with
  | none => simp [hs] at h
  | some src =>
    have hname := Source.eq_name_of_ofName? hs
    cases src <;> simp only [hs] at h <;> (try split at h) <;> simp_all

/-! ## The machine -/

namespace Machine

variable {n : Nat} {x : String} {pay : String → String} {M : Machine n}

/-- The invariant of a machine whose threads keep the account of payment `x`: the store
keeps it, every running thread keeps it, and every credit a thread found is in the
ledger. -/
structure Credits (x : String) (pay : String → String) (M : Machine n) : Prop where
  store : M.store.Accounts x pay
  threads : ∀ i tx, (M.threads i).phase = .running tx → tx.Pays x pay (M.threads i).state
  found : ∀ i k e, Reading.key k (some e) ∈ (M.threads i).state.seen → e ∈ M.store.ledger

/-- The invariant after thread `i` alone changes. -/
theorem Credits.setThread (h : M.Credits x pay) {i : Fin n} {th : Thread}
    (hth : ∀ tx, th.phase = .running tx → tx.Pays x pay th.state)
    (hfound : ∀ k e, Reading.key k (some e) ∈ th.state.seen → e ∈ M.store.ledger) :
    (M.setThread i th).Credits x pay where
  store := h.store
  threads j := by
    rw [setThread_threads]
    split
    · exact hth
    · exact h.threads j
  found j := by
    rw [setThread_threads, setThread_store]
    split
    · exact hfound
    · exact h.found j

/-- A thread that stops running, with the readings it had, keeps the invariant. -/
theorem Credits.stop (h : M.Credits x pay) (i : Fin n) {th : Thread}
    (hphase : ∀ tx, th.phase ≠ .running tx) (hseen : th.state.seen = (M.threads i).state.seen) :
    (M.setThread i th).Credits x pay :=
  h.setThread (fun tx htx => absurd htx (hphase tx)) (hseen ▸ h.found i)

/-- **A commit keeps the invariant**, and the processed rows. -/
theorem Credits.commit (h : M.Credits x pay) {i : Fin n} {s' : Store}
    (hph : (M.threads i).phase = .running .commit)
    (hs' : M.store.commit? (M.threads i).state.writes = some s') :
    ({ M with store := s', committed := M.committed ++ [(M.threads i).body] }.setThread i
        { M.threads i with phase := .releasing }).Credits x pay ∧
      ∀ r ∈ M.store.webhooks, r.status = .processed → r ∈ s'.webhooks := by
  have hset : (M.threads i).state.Settles x pay := by
    cases h.threads i _ hph with
    | commit hset => exact hset
  obtain ⟨hacc, hkeep⟩ := h.store.commit hset (h.found i) hs'
  -- the ledger only grows, so every credit found stays in it
  have hgrow : ∀ e ∈ M.store.ledger, e ∈ s'.ledger := by
    obtain ⟨-, rfl⟩ := Store.commit?_eq_some hs'
    intro e he
    rw [Store.foldl_ledger]
    exact List.mem_append_left _ he
  have hM' : Credits x pay { M with store := s', committed := M.committed ++ [(M.threads i).body] } :=
    ⟨hacc, h.threads, fun j k e he => hgrow e (h.found j k e he)⟩
  exact ⟨hM'.stop i (by simp) rfl, hkeep⟩

/-- **Every step keeps the invariant**, and the processed rows. -/
theorem Credits.step (h : M.Credits x pay) (i : Fin n) :
    (M.step i).Credits x pay ∧ ∀ r ∈ M.store.webhooks, r.status = .processed → r ∈ (M.step i).store.webhooks := by
  unfold Machine.step
  dsimp only
  split
  · exact ⟨h, fun _ hr _ => hr⟩
  · next hph =>
    split
    · exact ⟨h.stop i (by simp) rfl, fun _ hr _ => hr⟩
    · exact ⟨h.stop i (by simp [hph]) rfl, fun _ hr _ => hr⟩
  · next hph =>
    split
    · next s' hs' => exact h.commit hph hs'
    · exact ⟨h.stop i (by simp) rfl, fun _ hr _ => hr⟩
  · exact ⟨h.stop i (by simp) rfl, fun _ hr _ => hr⟩
  · next c k hph =>
    split
    · exact ⟨h, fun _ hr _ => hr⟩
    · unfold answer
      split
      · next a ha =>
        -- the call answered by the store as it stands
        have hpays := h.threads i _ hph
        cases hpays with
        | call hk =>
          refine ⟨h.setThread (fun tx htx => ?_) fun k' e he => ?_, fun _ hr _ => hr⟩
          · cases htx
            exact hk M.store a h.store ha
          · rcases Call.found_next ha he with he | he
            exacts [h.found i k' e he, he]
      · exact ⟨h.setThread (fun tx htx => by cases htx; exact .rollback) (h.found i),
          fun _ hr _ => hr⟩

/-- A wait cut short keeps the invariant. -/
theorem Credits.cancel (h : M.Credits x pay) (i : Fin n) : (M.cancel i).Credits x pay := by
  unfold Machine.cancel
  dsimp only
  split
  · exact h.setThread (fun tx htx => by cases htx; exact .rollback) (h.found i)
  · exact h

/-- **Every choice of the scheduler keeps the invariant**, and the processed rows. -/
theorem Credits.perform (h : M.Credits x pay) (ch : Choice n) :
    (M.perform ch).Credits x pay ∧
      ∀ r ∈ M.store.webhooks, r.status = .processed → r ∈ (M.perform ch).store.webhooks := by
  cases ch with
  | step i => exact h.step i
  | cancel i =>
    refine ⟨h.cancel i, fun r hr _ => ?_⟩
    -- a wait cut short leaves the store as it was
    have hstore : (M.cancel i).store = M.store := by
      unfold Machine.cancel
      dsimp only
      split <;> rfl
    simpa [Machine.perform, hstore] using hr

theorem Credits.run (h : M.Credits x pay) (schedule : List (Choice n)) :
    (M.run schedule).Credits x pay ∧
      ∀ r ∈ M.store.webhooks, r.status = .processed → r ∈ (M.run schedule).store.webhooks := by
  induction schedule generalizing M with
  | nil => exact ⟨h, fun _ hr _ => hr⟩
  | cons ch rest ih =>
    obtain ⟨h₁, hkeep₁⟩ := h.perform ch
    obtain ⟨h₂, hkeep₂⟩ := ih h₁
    exact ⟨h₂, fun r hr hst => hkeep₂ r (hkeep₁ r hr hst) hst⟩

end Machine

/-! ## The engine's transactions, piece by piece -/

namespace Tx

variable {x : String} {pay : String → String} {t : TxState}

/-- A lock keeps the account when the continuation does, from every state that only read
since and with the row of a wallet whose id has no colon. -/
theorem pays_lockWallet {id : String} {k : Wallet → Tx} (hplain : t.Plain)
    (hk : ∀ w t', t.Reads t' → t'.Plain → w.id = id → Text.NoColon id → Tx.Pays x pay (k w) t') :
    Tx.Pays x pay (lockWallet id k) t := by
  refine .call fun s a _ hr => ?_
  simp only [Call.result, Option.some.injEq] at hr
  subst hr
  simp only [Call.next]
  cases hc : t.cache.find? (·.id == id) with
  | some w =>
    -- the transaction's own copy
    have hw : w.id = id := by simpa using List.find?_some hc
    exact hk w t (.refl t) hplain hw (hw ▸ hplain w (List.mem_of_find?_eq_some hc))
  | none =>
    refine .call fun s₁ _ hs₁ hr₁ => .call fun _ _ _ _ => .call fun _ w _ hr₃ => ?_
    -- the wallet was in a store that keeps the account, so its id has no colon
    have hid : Text.NoColon id := by
      simp only [Call.result] at hr₁
      split at hr₁
      · next hsome =>
        obtain ⟨w₀, hw₀⟩ := Option.isSome_iff_exists.mp hsome
        have hid₀ : w₀.id = id := by simpa using List.find?_some hw₀
        exact hid₀ ▸ hs₁.walletIds w₀ (List.mem_of_find?_eq_some hw₀)
      · cases hr₁
    have hw : w.id = id := by
      simp only [Call.result, Store.wallet?] at hr₃
      simpa using List.find?_some hr₃
    refine hk w _ ⟨by simp [Call.next], by simp [Call.next], by simp [Call.next]⟩ ?_ hw hid
    intro v hv
    simp only [Call.next, List.mem_append, List.mem_singleton] at hv
    rcases hv with hv | rfl
    · exact hplain v hv
    · exact hw ▸ hid

theorem pays_lockEach (ids : List String) {k : List Wallet → Tx} (hplain : t.Plain)
    (hk : ∀ ws t', t.Reads t' → t'.Plain → (∀ w ∈ ws, Text.NoColon w.id) → Tx.Pays x pay (k ws) t') :
    Tx.Pays x pay (lockEach ids k) t := by
  induction ids generalizing t k with
  | nil => exact hk [] t (.refl t) hplain (by simp)
  | cons id ids ih =>
    apply pays_lockWallet hplain
    intro w t₁ h₁ hp₁ hw hid
    apply ih hp₁
    intro ws t₂ h₂ hp₂ hws
    refine hk (w :: ws) t₂ (h₁.trans h₂) hp₂ ?_
    intro v hv
    rcases List.mem_cons.mp hv with rfl | hv
    · exact hw ▸ hid
    · exact hws v hv

theorem pays_lockWallets (ids : List String) {k : List Wallet → Tx} (hplain : t.Plain)
    (hk : ∀ ws t', t.Reads t' → t'.Plain → (∀ w ∈ ws, Text.NoColon w.id) → Tx.Pays x pay (k ws) t') :
    Tx.Pays x pay (lockWallets ids k) t :=
  pays_lockEach _ hplain hk

theorem pays_applyEntry {w : Wallet} {type : EntryType} {amount : Decimal}
    {key reference description : String} {source : Source} {providerEventId entryId : String}
    {now : Instant} {k : Mutation → Tx}
    (hk : Tx.Pays x pay (k ({ w with balance := (postedEntry w type amount key reference description
        source providerEventId entryId now).after, updatedAt := now },
        postedEntry w type amount key reference description source providerEventId entryId now))
      ((Call.post (postedEntry w type amount key reference description source providerEventId
        entryId now)).next t ())) :
    Tx.Pays x pay (applyEntry w type amount key reference description source providerEventId entryId
      now k) t := by
  unfold applyEntry
  dsimp only
  split
  · exact .rollback
  · exact .call fun _ _ _ _ => hk

/-- **A credit inside a transaction keeps the account** when its continuation does: from
a state that found an entry under the credit's key, which is then keyed for `x`; and
from the state that posted the credit's entry, under its key, to the wallet locked. -/
theorem pays_creditIn {r : CreditRequest} {entryId : String} {now : Instant} {k : String → Tx}
    (hplain : t.Plain) (hentries : t.entries = [])
    (hfound : ∀ e t', t.Reads t' → Text.NoColon r.wallet → e.key = Wallets.creditKey r →
      e.KeyedFor x → Reading.key (Wallets.creditKey r) (some e) ∈ t'.seen → Tx.Pays x pay (k e.id) t')
    (hmade : ∀ w source amount type t', t.Reads t' → t'.Plain → w.id = r.wallet →
      Text.NoColon r.wallet → creditTerms r = some (source, amount, type) →
      Tx.Pays x pay (k entryId) ((Call.post (postedEntry w type amount (Wallets.creditKey r)
        r.reference r.description source r.providerEventId entryId now)).next t' ())) :
    Tx.Pays x pay (creditIn r entryId now k) t := by
  unfold creditIn
  split
  · exact .rollback
  · next source amount type hterms =>
    apply pays_lockWallet hplain
    intro w t₁ h₁ hp₁ hw hid
    have hentries₁ : t₁.entries = [] := h₁.entries.trans hentries
    refine .call fun s a hs hr => ?_
    -- nothing is staged, so the key is looked up in the store and the lookup is read
    have hnext : (Call.entryByKey (Wallets.creditKey r)).next t₁ a =
        { t₁ with seen := t₁.seen ++ [.key (Wallets.creditKey r) a] } := by
      simp [Call.next, hentries₁]
    have hreads : t.Reads ((Call.entryByKey (Wallets.creditKey r)).next t₁ a) :=
      h₁.trans ⟨by rw [hnext], by rw [hnext], by simp [hnext]⟩
    cases a with
    | some e =>
      have hstore : s.entryByKey? (Wallets.creditKey r) = some e := by
        simpa [Call.result, hentries₁] using hr
      obtain ⟨hmem, hkey⟩ := Store.mem_of_entryByKey? hstore
      exact hfound e _ hreads hid hkey (hs.keyed e hmem) (by simp [hnext])
    | none =>
      exact pays_applyEntry (hmade w source amount type _ hreads (by rwa [hnext]) hw hid hterms)

/-- Completing the purchase keeps writes that settle. -/
theorem pays_completeOnRamp {wallet provider : String} {amount : Decimal} {now : Instant}
    (h : t.Settles x pay) : Tx.Pays x pay (completeOnRamp wallet provider amount now) t := by
  refine .call fun _ o _ _ => ?_
  cases o with
  | some o => exact .call fun _ _ _ _ => .commit (h.stage rfl rfl)
  | none => exact .commit h

/-- A call that stages nothing only reads. -/
theorem reads_next {c : Call} (a : c.Answer) (hpost : ∀ e, c ≠ .post e)
    (hinsert : ∀ row, c ≠ .insertEvent row) (hstage : ∀ w, c ≠ .stage w) : t.Reads (c.next t a) := by
  cases c with
  | post e => exact absurd rfl (hpost e)
  | insertEvent row => exact absurd rfl (hinsert row)
  | stage w => exact absurd rfl (hstage w)
  | entryByKey k =>
    simp only [Call.next]
    split
    exacts [.refl t, ⟨rfl, rfl, by simp⟩]
  | eventByExternal k =>
    simp only [Call.next]
    split
    exacts [.refl t, ⟨rfl, rfl, by simp⟩]
  | _ => exact ⟨rfl, rfl, by simp [Call.next]⟩

/-- A source whose name is the provider's is the provider. -/
theorem creditTerms_webhook {r : CreditRequest} {source : Source} {amount : Decimal}
    {type : EntryType} (hsrc : r.source = "webhook") (h : creditTerms r = some (source, amount, type)) :
    source = .webhook := by
  have hname := Source.ofName?_name source
  rw [← creditTerms_source h, hsrc] at hname
  simpa [Source.ofName?] using hname.symm

/-! ## The engine's threads -/

theorem empty_plain : TxState.empty.Plain := by
  simp [TxState.Plain, TxState.empty]

/-- **A direct credit keeps the account** when it does not name the provider. -/
theorem pays_credit {r : CreditRequest} {entryId : String} {now : Instant}
    (hsrc : r.source ≠ Source.webhook.name) : Tx.Pays x pay (credit r entryId now) .empty := by
  apply pays_creditIn empty_plain rfl
  · intro e t' hr _ _ _ _
    exact .commit (.of_quiet (.of_reads (.of_writes_nil rfl) hr))
  · intro w source amount type t' hr _ _ hwallet hterms
    have hname := creditTerms_source hterms
    refine .commit (.of_quiet (.post (.of_reads (.of_writes_nil rfl) hr) ?_ ?_))
    · exact LedgerEntry.keyedFor_of_credit_key rfl (hname ▸ Source.noColon_name source) hwallet
        fun h => absurd h hsrc
    · have hsource : source ≠ .webhook := fun h => hsrc (h ▸ hname)
      simp [LedgerEntry.isCreditOf, postedEntry, hsource]

/-- **A debit keeps the account.** -/
theorem pays_debit {r : DebitRequest} {amount : Decimal} {type : EntryType} {entryId : String}
    {now : Instant} : Tx.Pays x pay (debit r amount type entryId now) .empty := by
  apply pays_lockWallet empty_plain
  intro w t' hr _ _ _
  unfold debitLocked debitOwned debitFree
  split
  · exact .rollback
  · refine .call fun _ a _ _ => ?_
    cases a with
    | some _ => exact .rollback
    | none =>
      dsimp only
      split
      · exact .rollback
      · have hq : ((Call.entryByKey (Wallets.debitKey r)).next t' none).Quiet x :=
          .of_reads (.of_writes_nil rfl) (hr.trans
            (reads_next (c := .entryByKey (Wallets.debitKey r)) none (by simp) (by simp) (by simp)))
        refine pays_applyEntry (.commit (.of_quiet (.post hq ?_ ?_)))
        · exact LedgerEntry.keyedFor_of_debit_key rfl
        · simp [LedgerEntry.isCreditOf, postedEntry]

/-- **A transfer keeps the account**: its entries are the user's, under a debit key and a
credit key of the user. -/
theorem pays_transfer {r : TransferRequest} {amount : Decimal} {outId inId : String}
    {now : Instant} : Tx.Pays x pay (transfer r amount outId inId now) .empty := by
  unfold transfer
  dsimp only
  split
  · exact .rollback
  · apply pays_lockWallets _ empty_plain
    intro locked t' hr _ hlocked
    split
    · next src dst _ hdst =>
      -- the receiving wallet was locked, so its id has no colon
      have htarget : Text.NoColon r.target := by
        have hid : dst.id = r.target := by simpa using List.find?_some hdst
        exact hid ▸ hlocked dst (List.mem_of_find?_eq_some hdst)
      split
      · exact .rollback
      · refine .call fun _ a _ _ => ?_
        cases a with
        | some _ => exact .rollback
        | none =>
          dsimp only
          split
          · exact .rollback
          · have hq := TxState.Quiet.of_reads (x := x) (.of_writes_nil hr.writes) (reads_next (t := t')
              (c := .entryByKey (IdempotencyKey.debit "user" ("transfer:" ++ r.reference) r.source).render)
              none (by simp) (by simp) (by simp))
            refine pays_applyEntry (pays_applyEntry (.commit (.of_quiet (.post (.post hq ?_ ?_) ?_ ?_))))
            · exact LedgerEntry.keyedFor_of_debit_key rfl
            · simp [LedgerEntry.isCreditOf, postedEntry]
            · exact LedgerEntry.keyedFor_of_credit_key rfl (Source.noColon_name .user) htarget
                fun h => absurd h (by decide)
            · simp [LedgerEntry.isCreditOf, postedEntry]
    · exact .rollback

theorem pays_flagEach (locked : List Wallet) (now : Instant) (ids : List String) (h : t.Quiet x) :
    Tx.Pays x pay (flagEach locked now ids) t := by
  induction ids generalizing t with
  | nil => exact .commit (.of_quiet h)
  | cons id ids ih =>
    rw [flagEach]
    split
    · exact .rollback
    · refine .call fun _ sums _ _ => .call fun _ latest _ _ => ?_
      have hq : ((Call.latestAfter id).next ((Call.ledgerSums id).next t sums) latest).Quiet x :=
        .of_reads h ((reads_next sums (by simp) (by simp) (by simp)).trans
          (reads_next latest (by simp) (by simp) (by simp)))
      split
      · exact ih hq
      · split
        · exact ih hq
        · exact .call fun _ _ _ _ => ih (hq.stage rfl rfl)

/-- **The integrity monitor's flags keep the account.** -/
theorem pays_flagSuspects (ids : List String) (now : Instant) :
    Tx.Pays x pay (flagSuspects ids now) .empty :=
  pays_lockWallets _ empty_plain fun locked _ hr _ _ =>
    pays_flagEach locked now ids (.of_reads (.of_writes_nil rfl) hr)

/-- **Processing a payment keeps the account**, given that the id its new row would get
belongs to the payment. The row it read is the store's, of the payment; the credit it
found under its key, if it found one, is a credit of the payment, and one it makes is
named by the row it writes processed. -/
theorem pays_process {ev : PaymentEvent} {rowId entryId : String} {now : Instant}
    (hrowId : pay rowId = ev.externalId) : Tx.Pays x pay (process ev rowId entryId now) .empty := by
  refine .call fun s prior hs hr => ?_
  have hprior : ∀ p ∈ prior, p.externalId = ev.externalId ∧ p.externalId = pay p.id := by
    intro p hp
    simp only [Call.result, TxState.empty, List.find?_nil, Option.none_or, Option.some.injEq] at hr
    rw [Option.mem_def, ← hr] at hp
    exact ⟨Store.externalId_of_webhookByExternal? hp, hs.rows p (List.mem_of_find?_eq_some hp)⟩
  split
  · exact .commit (.of_quiet (.of_writes_nil (by simp [Call.next, TxState.empty])))
  · next hsettled =>
    have hopen : ∀ p ∈ prior, p.status ≠ .processed := by
      intro p hp hst
      rw [Option.mem_def] at hp
      subst hp
      simp [hst] at hsettled
    refine .call fun _ a _ _ => ?_
    rcases a with _ | ⟨walletId, currency⟩
    · exact .rollback
    dsimp only
    split
    · exact .rollback
    have hplain : ((Call.walletOfUser ev.userId).next ((Call.eventByExternal ev.externalId).next
        .empty prior) (some (walletId, currency))).Plain := by
      simp [TxState.Plain, Call.next, TxState.empty]
    apply pays_creditIn hplain (by simp [Call.next, TxState.empty])
    · -- a credit found under the key: of `x` when the payment is `x`
      intro e t' hr' hwallet hkey hkeyed hseen
      have hnil : t'.writes = [] := by rw [hr'.writes]; simp [Call.next, TxState.empty]
      have hcredit : ev.externalId = x → e.isCreditOf x = true := fun hx =>
        hkeyed walletId hwallet (by rw [hkey, ← hx]; rfl)
      cases prior with
      | none =>
        exact .call fun _ _ _ _ => pays_completeOnRamp (.of_row rfl (by simp [hnil]) (by simp [hnil])
          rfl hrowId.symm (by simp) (.of_found_row rfl hnil rfl (List.mem_append_left _ hseen) hcredit))
      | some p =>
        obtain ⟨hext, hpay⟩ := hprior p rfl
        refine .call fun _ _ _ _ => pays_completeOnRamp (.of_row rfl (by simp [hnil]) (by simp [hnil])
          rfl hpay (fun st h => ?_) (.of_found_row rfl hnil rfl hseen (by rw [hext]; exact hcredit)))
        cases h
        exact hopen p rfl
    · -- the credit made: named by the row, and a credit of `x` when the payment is `x`
      intro w source amount type t' hr' _ hw hwallet hterms
      have hnil : t'.writes = [] := by rw [hr'.writes]; simp [Call.next, TxState.empty]
      have hsource : source = .webhook := creditTerms_webhook rfl hterms
      let e := postedEntry w type amount (Wallets.creditKey (Intake.creditFor ev walletId))
        ev.externalId (Intake.creditFor ev walletId).description source ev.externalId entryId now
      have hcredit : e.isCreditOf x = true ↔ ev.externalId = x := by
        simp [e, LedgerEntry.isCreditOf, postedEntry, hsource]
      have hkeyed : e.KeyedFor x :=
        LedgerEntry.keyedFor_of_credit_key rfl (Source.noColon_name .webhook) hwallet
          fun _ href => hcredit.mpr href
      -- the writes of the credit: its balance and its entry
      have hu : ((Call.post e).next t' ()).writes = [.balance e.wallet e.after e.createdAt, .entry e] := by
        simp [Call.next, hnil]
      have hpre : ∀ v ∈ ((Call.post e).next t' ()).writes, v.row? = none := by
        simp [hu, Write.row?]
      have hkeyedPre : ∀ e' ∈ ((Call.post e).next t' ()).writes.flatMap Write.appended,
          e'.KeyedFor x := by
        simpa [hu, Write.appended] using hkeyed
      cases prior with
      | none =>
        exact .call fun _ _ _ _ => pays_completeOnRamp (.of_row rfl hpre hkeyedPre rfl hrowId.symm
          (by simp) (.of_made_row rfl hu rfl rfl rfl (by exact hw.symm) hcredit))
      | some p =>
        obtain ⟨hext, hpay⟩ := hprior p rfl
        refine .call fun _ _ _ _ => pays_completeOnRamp (.of_row rfl hpre hkeyedPre rfl hpay
          (fun st h => ?_) (.of_made_row rfl hu rfl rfl rfl (by exact hw.symm) (by rw [hext]; exact hcredit)))
        cases h
        exact hopen p rfl

/-- The credit of a replay and the case written settled keep the account, when the
replay does not credit under `x`. -/
theorem pays_replayCredit {a : MissingWebhookAlert} {o : OnRamp} {admin : Actor} {entryId : String}
    {now : Instant} (hx : "manual_" ++ a.id ≠ x) (hplain : t.Plain) (hentries : t.entries = [])
    (hq : t.Quiet x) :
    Tx.Pays x pay (creditIn (Reconcile.replayCredit a o admin) entryId now fun _ =>
      .call (.stage (.updateMissing a .pending)) fun _ => .commit) t := by
  apply pays_creditIn hplain hentries
  · intro e t' hr _ _ _ _
    exact .call fun _ _ _ _ => .commit (.of_quiet ((hq.of_reads hr).stage rfl rfl))
  · intro w source amount type t' hr _ _ hwallet hterms
    have hsource : source = .webhook := creditTerms_webhook rfl hterms
    refine .call fun _ _ _ _ => .commit (.of_quiet (TxState.Quiet.stage
      (.post (hq.of_reads hr) ?_ ?_) rfl rfl))
    · refine LedgerEntry.keyedFor_of_credit_key rfl (Source.noColon_name .webhook) hwallet
        fun _ href => ?_
      have hmanual : "manual_" ++ a.id = x := href
      simp [LedgerEntry.isCreditOf, postedEntry, Reconcile.replayCredit, hsource, hmanual]
    · simp [LedgerEntry.isCreditOf, postedEntry, Reconcile.replayCredit, hx]

/-- **A replay keeps the account** when it does not credit under `x`. -/
theorem pays_replay {a : MissingWebhookAlert} {o : OnRamp} {admin : Actor} {entryId : String}
    {now : Instant} (hx : "manual_" ++ a.id ≠ x) : Tx.Pays x pay (replay a o admin entryId now) .empty := by
  unfold replay
  dsimp only
  split
  · refine .call fun _ _ _ _ => ?_
    split
    · exact .rollback
    · exact pays_replayCredit hx (by simp [TxState.Plain, Call.next, TxState.empty]) rfl
        ((TxState.Quiet.of_writes_nil rfl).stage rfl rfl)
  · split
    · exact .rollback
    · exact pays_replayCredit hx empty_plain rfl (.of_writes_nil rfl)

/-- **A failure recorded keeps the account**: its row, new or read before, is written
failed. -/
theorem pays_recordFailure {ev : PaymentEvent} {prior : Option WebhookEvent}
    {walletId message rowId : String} {now : Instant} (hnew : prior = none → pay rowId = ev.externalId)
    (hprior : ∀ p ∈ prior, p.externalId = pay p.id ∧ p.status ≠ .processed) :
    Tx.Pays x pay (recordFailure ev prior walletId message rowId now) .empty := by
  cases prior with
  | none =>
    exact .call fun _ _ _ _ => .commit (.of_unprocessed_row rfl rfl rfl (hnew rfl).symm (by simp)
      (by simp))
  | some p =>
    obtain ⟨hpay, hst⟩ := hprior p rfl
    exact .call fun _ _ _ _ => .commit (.of_unprocessed_row rfl rfl rfl hpay
      (fun st h => by cases h; exact hst) (by simp [Intake.markFailed]))

/-- **A retry keeps the account**, of a row listed not processed. -/
theorem pays_retry {max : Int} {now : Instant} {letterId : String} {e : WebhookEvent}
    (hpay : e.externalId = pay e.id) (hst : e.status ≠ .processed) :
    Tx.Pays x pay (retry max now letterId e) .empty := by
  unfold retry
  dsimp only
  have hset : ((Call.stage (.updateEvent (Retry.attempt max now e) e.status)).next .empty ()).Settles
      x pay := by
    refine .of_unprocessed_row rfl rfl rfl ?_ (fun st h => by cases h; exact hst) ?_
    · rw [Retry.attempt_externalId, Retry.attempt_id]
      exact hpay
    · rcases Retry.attempt_status_cases max now e with h | h <;> simp [h]
  refine .call fun _ _ _ _ => ?_
  split
  · exact .call fun _ _ _ _ => .commit (hset.stage rfl rfl)
  · exact .commit hset

/-- **A dead letter sent back keeps the account**: its row is written failed, and only over
a dead-lettered row. -/
theorem pays_sendBack {d : DeadLetterItem} {e : WebhookEvent} {admin : String} {now : Instant}
    (hpay : e.externalId = pay e.id) : Tx.Pays x pay (sendBack d e admin now) .empty :=
  .call fun _ _ _ _ => .call fun _ _ _ _ => .commit (TxState.Settles.stage
    (.of_unprocessed_row rfl rfl rfl (by exact hpay) (fun st h => by cases h; simp) (by simp)) rfl rfl)

/-- **A dead letter settled or archived keeps the account.** -/
theorem pays_transition {d : DeadLetterItem} {expected : ReviewStatus} :
    Tx.Pays x pay (transition d expected) .empty :=
  .call fun _ _ _ _ => .commit (.of_quiet ((TxState.Quiet.of_writes_nil rfl).stage rfl rfl))

end Tx

/-- The threads of the engine that keep the account of payment `x`, their rows carrying
the payments `pay` gives their ids: a direct credit does not name the provider; a replay
does not credit under `x`; a new row is written under an id of its payment; and a row
read before, written back, carries its id's payment and, where it is written back on
condition of the status read, is not processed. -/
def EngineCall.Keeps (x : String) (pay : String → String) : EngineCall → Prop
  | .tx (.credit r ..) => r.source ≠ Source.webhook.name
  | .tx (.replay a ..) => "manual_" ++ a.id ≠ x
  | .tx (.process ev rowId ..) => pay rowId = ev.externalId
  | .tx _ => True
  | .recordFailure ev prior _ _ rowId _ =>
    (prior = none → pay rowId = ev.externalId) ∧
      ∀ p ∈ prior, p.externalId = pay p.id ∧ p.status ≠ .processed
  | .retry _ _ _ e => e.externalId = pay e.id ∧ e.status ≠ .processed
  | .sendBack _ e _ _ => e.externalId = pay e.id
  | .transition .. => True

/-- **Every thread of the engine keeps the account of `x`** from its first call, when it
keeps it by `EngineCall.Keeps`. -/
theorem EngineCall.pays_body {x : String} {pay : String → String} {c : EngineCall}
    (h : c.Keeps x pay) : c.body.Pays x pay .empty := by
  cases c with
  | tx t =>
    cases t with
    | credit => exact Tx.pays_credit h
    | debit => exact Tx.pays_debit
    | transfer => exact Tx.pays_transfer
    | process => exact Tx.pays_process h
    | replay => exact Tx.pays_replay h
    | flag ids now => exact Tx.pays_flagSuspects ids now
  | recordFailure => exact Tx.pays_recordFailure h.1 h.2
  | retry => exact Tx.pays_retry h.1 h.2
  | sendBack => exact Tx.pays_sendBack h
  | transition => exact Tx.pays_transition

/-! ## Every schedule -/

/-- The account of `x` in a store of the engine's sequential runs, whose rows carry the
payments `pay` gives their ids: an entry under the key of a provider credit of `x` is,
by the key it derives from its own fields, a provider credit referenced by `x`. -/
theorem Store.Accounts.of_keyed {s : Store} {x : String} {pay : String → String} (hk : s.Keyed)
    (hr : s.PaymentRows) (ho : s.CreditedOnce x) (hpay : ∀ r ∈ s.webhooks, r.externalId = pay r.id) :
    s.Accounts x pay where
  walletIds := hk.walletIds
  rows := hpay
  externalIds := hr.externalIds
  keyed e he w hw hkey := by
    have haction : Text.NoColon (if e.type.isCredit then "credit" else "debit") := by
      split <;> simp [Text.NoColon]
    have heq := @IdempotencyKey.render_injective (IdempotencyKey.ofEntry e)
      (.credit "webhook" x w) (Source.noColon_name e.source) (hk.entryWallets e he)
      haction (Source.noColon_name .webhook) hw (by simp [Text.NoColon, IdempotencyKey.credit])
      ((hk.key e he).symm.trans hkey)
    simp only [IdempotencyKey.ofEntry, IdempotencyKey.credit, IdempotencyKey.mk.injEq] at heq
    obtain ⟨hsrc, href, -, -⟩ := heq
    have hsource : e.source = .webhook := by
      have hname := Source.ofName?_name e.source
      rw [hsrc] at hname
      simpa [Source.ofName?] using hname.symm
    simp [LedgerEntry.isCreditOf, hsource, ← hr.references e he hsource, href]
  once := ho

namespace Machine

variable {n : Nat} {x : String} {pay : String → String}

/-- Threads that keep the account, started over a store that keeps it. -/
theorem Credits.start {s : Store} {bodies : Fin n → Tx} (hs : s.Accounts x pay)
    (hb : ∀ i, (bodies i).Pays x pay .empty) : (Machine.start s bodies).Credits x pay where
  store := hs
  threads i tx h := by
    cases h
    exact hb i
  found i k e h := by simp [Machine.start, TxState.empty] at h

theorem run_append (M : Machine n) (l₁ l₂ : List (Choice n)) :
    M.run (l₁ ++ l₂) = (M.run l₁).run l₂ :=
  List.foldl_append

/-- Along a schedule, a processed row stays from each point of it to every later one. -/
theorem Credits.processed_mem_take {M : Machine n} (h : M.Credits x pay) (schedule : List (Choice n))
    {k j : Nat} (hkj : k ≤ j) {r : WebhookEvent} (hr : r ∈ (M.run (schedule.take k)).store.webhooks)
    (hst : r.status = .processed) : r ∈ (M.run (schedule.take j)).store.webhooks := by
  have hsplit : schedule.take j = schedule.take k ++ (schedule.take j).drop k := by
    conv_lhs => rw [← List.take_append_drop k (schedule.take j)]
    rw [List.take_take, Nat.min_eq_left hkj]
  rw [hsplit, run_append]
  exact ((h.run _).1.run _).2 r hr hst

end Machine

/-- **Payments credit once, whatever the schedule.** From an empty store, along every run
of commands in which no direct credit names the provider as its source and no replay
credits under the payment id `x`, and then under every schedule of engine threads that
keep the account of `x` (`EngineCall.Keeps`), the rows of the store and the new rows of
the threads carrying the payments `pay` gives their ids: `x` has one row at most; the
ledger holds one provider credit under `x` while that row is processed and none
otherwise; and a processed row names that credit and the wallet it went to, and stays in
every later store. A delivery that is unverified or not completed changes nothing at
all. -/
theorem payments_credit_once_interleaved {n : Nat} (cs : List Command) (w : World) (x : String)
    (hcs : ∀ c ∈ cs, c.KeepsCredits x)
    (hbound : (Command.runAll cs { w with store := Store.empty }).issued < 2 ^ 48)
    (pay : String → String) (calls : Fin n → EngineCall) (schedule : List (Choice n))
    (hpay : ∀ r ∈ (Command.runAll cs { w with store := Store.empty }).store.webhooks,
      r.externalId = pay r.id)
    (hcalls : ∀ i, (calls i).Keeps x pay) :
    let W := fun i => Command.runAll (cs.take i) { w with store := Store.empty }
    let M := fun k => (Machine.start (W cs.length).store fun i => (calls i).body).run
      (schedule.take k)
    (∀ i ≤ cs.length,
      ((W i).store.webhooks.filter (·.externalId == x)).length ≤ 1 ∧
      ((W i).store.creditsOf x).length = (if (W i).store.processedFor x then 1 else 0) ∧
      ∀ r ∈ (W i).store.webhooks, r.externalId = x → r.status = .processed →
        (∃ e ∈ (W i).store.creditsOf x, e.id = r.transactionId ∧ e.wallet = r.walletId) ∧
        (∀ j, i ≤ j → j ≤ cs.length → r ∈ (W j).store.webhooks) ∧
        ∀ k ≤ schedule.length, r ∈ (M k).store.webhooks) ∧
    (∀ k ≤ schedule.length,
      ((M k).store.webhooks.filter (·.externalId == x)).length ≤ 1 ∧
      ((M k).store.creditsOf x).length = (if (M k).store.processedFor x then 1 else 0) ∧
      ∀ r ∈ (M k).store.webhooks, r.externalId = x → r.status = .processed →
        (∃ e ∈ (M k).store.creditsOf x, e.id = r.transactionId ∧ e.wallet = r.walletId) ∧
        ∀ j, k ≤ j → j ≤ schedule.length → r ∈ (M j).store.webhooks) ∧
    ∀ ev verified (V : World), (verified = false ∨ ev.status ≠ completedStatus) →
      (Command.process ev verified).run V = V := by
  intro W M
  obtain ⟨hseq, hquiet⟩ := payments_credit_once cs w x hcs hbound
  have hlast : W cs.length = Command.runAll cs { w with store := Store.empty } := by
    simp only [W, List.take_length]
  -- the machine starts from the store the run left, which keeps the account
  have hacc := Command.paymentAccount_runAll cs w x hcs hbound
  have hstart : (Machine.start (W cs.length).store fun i => (calls i).body).Credits x pay := by
    rw [hlast]
    exact .start (.of_keyed hacc.keyed hacc.rows hacc.once hpay) fun i => EngineCall.pays_body (hcalls i)
  have hkeep : ∀ k j, k ≤ j → ∀ r ∈ (M k).store.webhooks, r.status = .processed →
      r ∈ (M j).store.webhooks :=
    fun k j hkj r hr hst => hstart.processed_mem_take schedule hkj hr hst
  refine ⟨fun i hi => ?_, fun k _ => ?_, hquiet⟩
  · obtain ⟨hrows, hcount, hentry⟩ := hseq i hi
    refine ⟨hrows, hcount, fun r hr hrx hst => ⟨(hentry r hr hrx hst).1, (hentry r hr hrx hst).2,
      fun k _ => hkeep 0 k (Nat.zero_le k) r ?_ hst⟩⟩
    -- a processed row of the run is in the store the machine starts from
    exact (hentry r hr hrx hst).2 cs.length hi le_rfl
  · have hacc' := ((hstart.run (schedule.take k)).1).store
    exact ⟨Store.rows_le_one hacc'.externalIds x, hacc'.once.count, fun r hr hrx hst =>
      ⟨hacc'.once.entry r hr hrx hst, fun j hkj _ => hkeep k j hkj r hr hst⟩⟩

/-- Two deliveries of one payment raced against each other, after the user's wallet was
made. -/
theorem payments_credit_once_raced :
    let ev : PaymentEvent := ⟨"moonpay", "x", "u", 10, "USD", completedStatus, "h"⟩
    let cs : List Command := [.createWallet "u" "USD"]
    let w := Setup.world {}
    let calls : Fin 2 → EngineCall := fun i =>
      .tx (.process ev (if i.val = 0 then "r1" else "r2") (if i.val = 0 then "e1" else "e2") default)
    let schedule : List (Choice 2) := [.step 0, .step 1, .step 0, .step 1, .step 0, .step 1]
    let M := (Machine.start (Command.runAll (cs.take cs.length) { w with store := Store.empty }).store
      fun i => (calls i).body).run (schedule.take schedule.length)
    (∀ c ∈ cs, c.KeepsCredits "x") ∧ (Command.runAll cs { w with store := Store.empty }).issued < 2 ^ 48 ∧
      (∀ r ∈ (Command.runAll cs { w with store := Store.empty }).store.webhooks, r.externalId = "x") ∧
      (∀ i, (calls i).Keeps "x" fun _ => "x") ∧
      (M.store.creditsOf "x").length = if M.store.processedFor "x" then 1 else 0 := by
  intro ev cs w calls schedule M
  have hcs : ∀ c ∈ cs, c.KeepsCredits "x" := by
    simp [cs, Command.KeepsCredits]
  have hbound : (Command.runAll cs { w with store := Store.empty }).issued < 2 ^ 48 := by
    decide +kernel
  have hpay : ∀ r ∈ (Command.runAll cs { w with store := Store.empty }).store.webhooks,
      r.externalId = "x" := by
    decide +kernel
  have hcalls : ∀ i, (calls i).Keeps "x" fun _ => "x" := fun _ => rfl
  exact ⟨hcs, hbound, hpay, hcalls, ((payments_credit_once_interleaved cs w "x" hcs hbound
    (fun _ => "x") calls schedule hpay hcalls).2.1 schedule.length le_rfl).2.1⟩

end OnrampLedger
