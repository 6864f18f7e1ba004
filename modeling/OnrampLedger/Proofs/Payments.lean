import OnrampLedger.Proofs.Postings

/-!
# Provider payments and replays

The two ways money reaches a wallet from outside: a provider's payment, processed by
`Intake.process`, and an operator's replay of a purchase whose report never came,
`Reconcile.replay`. Both credit inside a transaction and keep the books as every
credit does. What differs is what a refusal leaves: a replay leaves the store as it
was, while a payment whose settlement fails has the failure written on its row,
outside the rolled-back transaction (`Store.FailureWritten`).

## Main results

* `Intake.process_spec` — processing a payment keeps the books; a refusal leaves the
  store as it was or only the failure written on the payment's row.
* `Reconcile.replay_spec` — a replay keeps the books, and a refused one writes nothing.
-/

namespace OnrampLedger

open Std.Do

set_option mvcgen.warning false

theorem Store.externalId_of_webhookByExternal? {s : Store} {x : String} {p : WebhookEvent}
    (h : s.webhookByExternal? x = some p) : p.externalId = x := by
  simpa using List.find?_some h

/-- The row a settled payment is written on: marked processed with the entry credited
and the user's wallet, its error text cleared, keeping the earlier row's id, payment id,
count of attempts and dead-letter time; a new row has the id `fresh`, no attempts and no
dead-letter time. -/
structure Intake.ProcessedRow (ev : PaymentEvent) (prior : Option WebhookEvent) (fresh : String)
    (w : Wallet) (entryId : String) (row : WebhookEvent) : Prop where
  id : row.id = (prior.map (·.id)).getD fresh
  externalId : row.externalId = (prior.map (·.externalId)).getD ev.externalId
  status : row.status = .processed
  retryCount : row.retryCount = (prior.map (·.retryCount)).getD 0
  deadLetterAt : row.deadLetterAt = prior.bind (·.deadLetterAt)
  transactionId : row.transactionId = entryId
  walletId : row.walletId = w.id
  errorMessage : row.errorMessage = ""

/-- What settling a payment wrote, from store `s` with `i` ids drawn to store `s'` with
`i'`: the user's wallet was found and credited (`Wallets.Credited`), and the payment's
row was marked processed with the entry credited (`Intake.ProcessedRow`), over its
earlier row or as a new row under an id drawn after `i`. The dead letters are as they
were. -/
def Store.Settled (ev : PaymentEvent) (prior : Option WebhookEvent) (wallet? : Option Wallet)
    (i i' : Nat) (s : Store) (change : Option Mutation) (s' : Store) : Prop :=
  ∃ w, wallet? = some w ∧ ∃ s₁ view, Wallets.Credited (Intake.creditFor ev w.id) s (view, change) s₁ ∧
    s'.wallets = s₁.wallets ∧ s'.ledger = s₁.ledger ∧ s'.deadLetters = s.deadLetters ∧
    ∃ k row, i < k ∧ k ≤ i' ∧ Intake.ProcessedRow ev prior (idText k) w view.entryId row ∧
      s'.webhooks = s.webhooksWith prior row

theorem Store.Settled.intro {ev : PaymentEvent} {prior : Option WebhookEvent} {w : Wallet}
    {i k i' : Nat} {s s₁ s' : Store} {view : WalletView} {change : Option Mutation}
    (row : WebhookEvent) (hc : Wallets.Credited (Intake.creditFor ev w.id) s (view, change) s₁)
    (hh : s'.webhooks = s₁.webhooksWith prior row) (hik : i < k) (hki : k ≤ i')
    (hrow : Intake.ProcessedRow ev prior (idText k) w view.entryId row)
    (hw : s'.wallets = s₁.wallets) (hl : s'.ledger = s₁.ledger)
    (hd : s'.deadLetters = s₁.deadLetters) : s.Settled ev prior (some w) i i' change s' := by
  obtain ⟨hwebhooks, hdead⟩ := hc.records
  refine ⟨w, rfl, s₁, view, hc, hw, hl, hd.trans hdead, k, row, hik, hki, hrow, ?_⟩
  rw [hh]
  cases prior <;> simp only [Store.webhooksWith, hwebhooks]

theorem Store.Settled.books {ev : PaymentEvent} {prior : Option WebhookEvent}
    {wallet? : Option Wallet} {i i' : Nat} {s s' : Store} {change : Option Mutation}
    (h : s.Settled ev prior wallet? i i' change s') (hbooks : Books s.wallets s.ledger) :
    Books s'.wallets s'.ledger := by
  obtain ⟨w, -, s₁, view, hcredited, hwallets, hledger, -⟩ := h
  rw [hwallets, hledger]
  exact hcredited.books hbooks

namespace Intake

/-- Settling a payment is one transaction: the credit, the payment's row marked
processed, and the purchase it completes, or nothing at all. -/
@[spec] theorem settle_spec (W₀ : World) (ev : PaymentEvent) (prior : Option WebhookEvent)
    (wallet? : Option Wallet) :
    ⦃fun W => ⌜W = W₀⌝⦄ settle ev prior wallet?
    ⦃post⟨fun res W => ⌜W₀.store.Settled ev prior wallet? W₀.issued W.issued res.2 W.store ∧
        W.settings = W₀.settings ∧ W₀.issued ≤ W.issued⌝,
      fun _ W => ⌜W.store = W₀.store ∧ W.settings = W₀.settings ∧ W₀.issued ≤ W.issued⌝⟩⦄ := by
  mvcgen [settle]
  all_goals simp_all +zetaDelta [World.records, Store.putWebhook]
  -- the row, new or over the earlier one, written after the credit under the next id
  all_goals
    rename_i row _ _ _ _ hcredited _ hframe
    exact ⟨.intro row hcredited.1 hframe.1.2.2.2.1 (by omega) (Nat.succ_le_of_lt hframe.2)
      ⟨rfl, rfl, rfl, rfl, rfl, rfl, rfl, rfl⟩ hframe.1.2.1 hframe.1.2.2.1 hframe.1.2.2.2.2, by omega⟩

/-- **Processing a payment**: an answer keeps the books; a refusal comes before any
write, or after a settlement that was rolled back and whose failure was then written. -/
theorem process_spec (S : Store) (ev : PaymentEvent) (verified : Bool) :
    ⦃fun W => ⌜W.store = S⌝⦄ process ev verified
    ⦃post⟨fun _ W => ⌜Books S.wallets S.ledger → Books W.store.wallets W.store.ledger⌝,
      fun e W => ⌜W.store = S ∨
        ∃ fresh, S.FailureWritten ev (S.webhookByExternal? ev.externalId) fresh e.message W.store⌝⟩⦄ := by
  mvcgen [process]
  all_goals simp_all +zetaDelta [World.records]
  -- a settled payment keeps the books; a failed one has its failure recorded on the
  -- store its settlement rolled back to
  all_goals
    first
    | exact (‹Store.Settled _ _ _ _ _ _ _ _ ∧ _›).1.books
    | exact .inr ⟨_, (‹Store.FailureRecorded _ _ _ _ _ _ ∧ _›).1.written⟩

end Intake

namespace Reconcile

/-- **A replay** credits the purchase's wallet as its report would have, in one
transaction with the purchase and the case it settles. -/
theorem replay_spec (S : Store) (id : String) (admin : Actor) :
    ⦃fun W => ⌜W.store = S⌝⦄ replay id admin
    ⦃post⟨fun _ W => ⌜Books S.wallets S.ledger → Books W.store.wallets W.store.ledger⌝,
      fun _ W => ⌜W.store = S⌝⟩⦄ := by
  mvcgen [replay, case]
  all_goals simp_all +zetaDelta [Store.putOnRamp, Store.putMissing, World.records]
  -- the credit, after the purchase is completed or found completed already
  all_goals
    rename_i hcredited _
    simpa using hcredited.1.books

end Reconcile

end OnrampLedger
