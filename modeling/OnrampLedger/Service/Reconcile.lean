import OnrampLedger.Service.Wallets
import OnrampLedger.Provider.Format

/-!
# Purchases and reconciliation

A user starts a purchase (an on-ramp) through a known provider for a positive amount
of cents; an operator may mark it completed.

Reconciliation looks at the purchases completed within the lookback window. A purchase
with no provider report for its wallet and provider since it was made is missing its
report: the first time, a missing-webhook case is opened and an alert raised; while the
case is pending it is counted again; once settled it is left alone. A purchase with a
report but no provider credit to its wallet since it was made is missing its ledger
entry.

An operator settles a missing-webhook case either by replaying the credit the report
would have made (which also completes the purchase), or by recording that the report
did arrive or that the purchase was cancelled.
-/

namespace OnrampLedger

/-- What a reconciliation run found. -/
structure ReconcileReport where
  checked : Nat
  missingWebhooks : Nat
  missingLedgers : Nat
  deriving Repr

/-- The report as JSON. -/
def ReconcileReport.toJson (r : ReconcileReport) : Json :=
  .object [("checked_count", .int r.checked), ("missing_webhooks", .int r.missingWebhooks),
    ("missing_ledgers", .int r.missingLedgers)]

namespace Reconcile

/-- Starts a purchase for the caller's wallet. The provider is read trimmed and
lower-cased; the currency defaults to the wallet's and is kept upper-cased. -/
def createOnRamp (actor : Actor) (provider : String) (amount : Decimal) (currency : String) :
    Op OnRamp := do
  Op.require (actor.id != "") .onRampUnauthenticated
  let provider := Text.toLower (Text.trim provider)
  Op.require (Provider.ofName? provider).isSome (.unknownProvider provider)
  let amount ← Wallets.amountOf amount
  let w ← Op.found ((← Op.store).walletOfUser? actor.id) (.noWalletForUser actor.id)
  let currency := if currency = "" then w.currency else currency
  let id ← Op.freshId
  let o : OnRamp := ⟨id, w.id, provider, amount, Text.toUpper currency, none, ← Op.now⟩
  Op.modifyStore fun s => { s with onRamps := s.onRamps ++ [o] }
  return o

/-- The purchase with id `id`. -/
def onRamp (id : String) : Op OnRamp := do
  Op.found ((← Op.store).onRamp? id) (.onRampNotFound id)

/-- Marks a purchase completed; a completed one is left as it is. -/
def completeOnRamp (id : String) (admin : Actor) : Op OnRamp := do
  Op.require admin.isAdmin .onRampCompletionNeedsAdmin
  let o ← onRamp id
  if o.completed then return o
  let o := { o with completedAt := some (← Op.now) }
  Op.modifyStore (·.putOnRamp o)
  return o

/-- Opens a missing-webhook case for a purchase and raises its alert. -/
def openCase (o : OnRamp) : Op Unit := do
  let id ← Op.freshId
  let a : MissingWebhookAlert := ⟨id, o.id, o.walletId, o.provider, o.amount, .pending, none, ← Op.now⟩
  Op.modifyStore fun s => { s with missing := s.missing ++ [a] }
  Alerting.missingWebhook a

/-- Checks one completed purchase: whether it misses its report, and whether it
misses its ledger entry. -/
def check (o : OnRamp) : Op (Bool × Bool) := do
  let s ← Op.store
  let reported := s.webhooks.any fun e =>
    e.provider == o.provider && e.walletId == o.walletId && !(e.createdAt < o.createdAt)
  let credited := s.ledger.any fun e =>
    e.wallet == o.walletId && e.source == .webhook && e.providerEventId != "" && !(e.createdAt < o.createdAt)
  if reported then return (false, !credited)
  match s.missingFor? o.id with
  | some a => return (a.status == .pending, false)
  | none =>
    openCase o
    return (true, false)

/-- Minutes as nanoseconds, in 64-bit arithmetic. -/
def minutesNanos (m : Int) : Int := (m * 60 * Instant.nanosPerSecond).bmod (Nat.pow 2 64)

/-- One reconciliation run over the purchases completed within the last `lookback`
minutes (the configured lookback when not positive). The window reaches back by the
lookback negated and then scaled, both in 64-bit arithmetic, so a lookback too large for
it wraps around. -/
def run (lookback : Int) : Op ReconcileReport := do
  let configured := (← Op.settings).lookbackMinutes
  let lookback := if lookback ≤ 0 then configured else lookback
  let since := (← Op.now).addNanos (minutesNanos (-lookback))
  let due := (← Op.store).onRamps.filter fun o =>
    match o.completedAt with
    | some t => !(t < since)
    | none => false
  due.foldlM (fun r o => do
    let (noReport, noEntry) ← check o
    return ⟨r.checked + 1, r.missingWebhooks + (if noReport then 1 else 0),
      r.missingLedgers + (if noEntry then 1 else 0)⟩) ⟨0, 0, 0⟩

/-- Missing-webhook cases in the order they were opened, those with `status` only when
it is named. -/
def list (status : String) : Op (List MissingWebhookAlert) := do
  return (← Op.store).missing.filter fun a => status == "" || a.status.name == status

/-- The case with id `id`. -/
def case (id : String) : Op MissingWebhookAlert := do
  Op.found ((← Op.store).missing? id) (.missingAlertNotFound id)

/-- The credit an operator's replay of a missing-webhook case makes: the purchase's
amount on its wallet, as a verified provider credit keyed by the case. -/
def replayCredit (a : MissingWebhookAlert) (o : OnRamp) (admin : Actor) : CreditRequest :=
  let event := "manual_" ++ a.id
  ⟨o.walletId, o.amount, "deposit", event,
    s!"manual replay of missing webhook {a.id} by {admin.id}", "webhook", event, true, admin⟩

/-- Settles a pending case by making the credit its report would have made, completing
the purchase if it was not; as one transaction. -/
def replay (id : String) (admin : Actor) : Op (WalletView × MissingWebhookAlert) := do
  Op.require admin.isAdmin .replayNeedsAdmin
  let a ← case id
  Op.require (a.status == .pending) (.missingAlertSettled a.id a.status.name)
  let o ← Op.found ((← Op.store).onRamp? a.onRampId) (.onRampNotFound a.onRampId)
  let now ← Op.now
  let notes := s!"replayed {o.amount.renderFixed 2} {o.currency} credit"
  let a := { a with status := .manualReviewed, settlement := some ⟨.manualCredit, notes, admin.id, now⟩ }
  let (view, change) ← Op.atomically do
    if !o.completed then Op.modifyStore (·.putOnRamp { o with completedAt := some now })
    let result ← Wallets.creditWithin (replayCredit a o admin)
    Op.modifyStore (·.putMissing a)
    return result
  Wallets.committed change.toList
  return (view, a)

/-- Settles a pending case as the report having arrived, or the purchase cancelled. -/
def resolve (id resolution notes : String) (admin : Actor) : Op MissingWebhookAlert := do
  Op.require admin.isAdmin .missingResolutionNeedsAdmin
  let r ← match Resolution.ofName? resolution with
    | some .webhookReceived => pure Resolution.webhookReceived
    | some .cancelled => pure Resolution.cancelled
    | some .manualCredit => throw .resolutionNeedsReplay
    | _ => throw (.invalidMissingResolution resolution)
  let a ← case id
  Op.require (a.status == .pending) (.missingAlertSettled a.id a.status.name)
  let now ← Op.now
  let a := { a with status := .manualReviewed, settlement := some ⟨r, notes, admin.id, now⟩ }
  Op.modifyStore (·.putMissing a)
  return a

end Reconcile

end OnrampLedger
