import OnrampLedger.Service.Wallets
import OnrampLedger.Provider.Payment

/-!
# Processing provider payments

A provider's payment, brought into the common form, credits the user's wallet once.

1. An unverified report is refused, and nothing is kept.
2. A payment that is not completed is passed over.
3. A payment without its id or its user is refused.
4. A payment already processed is a repeat; one waiting in the dead letters is passed
   over until an operator acts. Any other earlier row is taken up again.
5. The user's wallet must exist, and a named currency must match the wallet's up to
   case.
6. The credit is a verified provider credit keyed by the payment id; if that key is
   already on an entry, nothing is written and the row is still marked processed.
7. The payment's row is marked processed with the entry it credited, and the oldest
   pending purchase of that wallet, provider and amount is completed.

Steps 5 to 7 form one transaction. When it fails, the failure is recorded instead: on
the earlier row, or on a new row for the payment, with the refusal's text, and the
failure is counted towards the failure alert.
-/

namespace OnrampLedger

/-- What processing did with a payment. -/
structure IntakeResult where
  /-- `processed`, `duplicate` or `ignored`. -/
  outcome : String
  /-- The payment's row, when there is one. -/
  webhookEventId : String
  wallet : Option WalletView
  deriving Repr

/-- The result as JSON. -/
def IntakeResult.toJson (r : IntakeResult) : Json :=
  .object ([("outcome", .str r.outcome)] ++ Json.textIfAny "webhook_event_id" r.webhookEventId ++
    Json.someIf "wallet" (r.wallet.map WalletView.toJson))

namespace Intake

/-- Completes the oldest pending purchase of `wallet` through `provider` for `amount`. -/
def completePurchase (wallet provider : String) (amount : Decimal) (now : Instant) : Op Unit := do
  let s ← Op.store
  match s.onRamps.find? fun o => o.walletId == wallet && o.provider == provider && !o.completed && o.amount == amount with
  | some o => Op.modifyStore (·.putOnRamp { o with completedAt := some now })
  | none => pure ()

/-- Records a failed payment on its row and counts it towards the failure alert. -/
def recordFailure (ev : PaymentEvent) (prior : Option WebhookEvent) (walletId : String)
    (cause : Error) : Op Unit := do
  let now ← Op.now
  match prior with
  | none =>
    let id ← Op.freshId
    let row : WebhookEvent := ⟨id, ev.provider, ev.externalId, ev.payloadHash, .failed, 0, none, none,
      "", walletId, cause.message, now, now⟩
    Op.modifyStore fun s => { s with webhooks := s.webhooks ++ [row] }
  | some p =>
    let row := { p with status := .failed, errorMessage := cause.message, updatedAt := now,
                        walletId := if walletId != "" then walletId else p.walletId }
    Op.modifyStore (·.putWebhook row)
  Alerting.webhookFailure ev.provider ev.externalId (some cause.message)

/-- The credit a payment asks for on the user's wallet: a verified provider credit of a
deposit, referenced and keyed by the payment id. -/
def creditFor (ev : PaymentEvent) (wallet : String) : CreditRequest :=
  ⟨wallet, ev.amount, "deposit", ev.externalId,
    ev.provider ++ " on-ramp " ++ ev.amount.render ++ " " ++ ev.currency, "webhook",
    ev.externalId, true, default⟩

/-- The credit and bookkeeping of a payment, as one transaction. -/
def settle (ev : PaymentEvent) (prior : Option WebhookEvent) (wallet? : Option Wallet) :
    Op (IntakeResult × Option Mutation) := Op.atomically do
  let w ← Op.found wallet? (.noWalletForUser ev.userId)
  Op.require (ev.currency == "" || Text.equalFold ev.currency w.currency)
    (.eventCurrencyMismatch ev.currency w.currency)
  let (view, change) ← Wallets.creditWithin (creditFor ev w.id)
  let now ← Op.now
  let rowId ← Op.freshId
  match prior with
  | none =>
    let row : WebhookEvent := ⟨rowId, ev.provider, ev.externalId, ev.payloadHash, .processed, 0,
      none, none, view.entryId, w.id, "", now, now⟩
    Op.modifyStore fun s => { s with webhooks := s.webhooks ++ [row] }
    completePurchase w.id ev.provider ev.amount now
    return (⟨"processed", row.id, some view⟩, change)
  | some p =>
    let row := { p with errorMessage := "", status := .processed, transactionId := view.entryId,
                        walletId := w.id, updatedAt := now }
    Op.modifyStore (·.putWebhook row)
    completePurchase w.id ev.provider ev.amount now
    return (⟨"processed", row.id, some view⟩, change)

/-- Processes a provider payment. -/
def process (ev : PaymentEvent) (verified : Bool) : Op IntakeResult := do
  Op.require verified .signatureUnverified
  if ev.status != completedStatus then return ⟨"ignored", "", none⟩
  Op.require (ev.externalId != "" && ev.userId != "") .eventIdsRequired
  let prior := (← Op.store).webhookByExternal? ev.externalId
  if let some p := prior then
    if p.status == .processed then return ⟨"duplicate", p.id, none⟩
    if p.status == .deadLetter then return ⟨"ignored", p.id, none⟩
  let wallet? := (← Op.store).walletOfUser? ev.userId
  let (result, change) ← tryCatch (settle ev prior wallet?) fun e => do
    recordFailure ev prior ((wallet?.map (·.id)).getD "") e
    throw e
  Wallets.committed change.toList
  return result

/-- The row of the payment with provider id `externalId`. -/
def event (externalId : String) : Op WebhookEvent := do
  Op.found ((← Op.store).webhookByExternal? externalId) (.webhookNotFound externalId)

end Intake

end OnrampLedger
