import OnrampLedger.Service.World

/-!
# Raising alerts

Alerts are raised on four anomalies, each by its own rule:

* a wallet whose cached balance is off from its ledger by at least the mismatch
  threshold (critical above the critical delta);
* provider reports failing: the failures within the last window are counted, and an
  alert goes out once the count reaches the threshold;
* credits to one wallet within the last minute adding up to more than the per-minute
  threshold;
* a background job that crashed.

A completed purchase without a provider report is recorded too. Repeats of the
failure, spike and crash alerts are held back for the cooldown after each one raised:
a key may fire when it never fired or its quiet period is over, and firing starts a
new one. A window holds the events strictly after its start. The failure window starts
at the clock plus the window negated, in 64-bit arithmetic as every duration of the
service: the least window, `-2 ^ 63` nanoseconds, negates to itself, so its start lies
`2 ^ 63` nanoseconds back and every earlier failure stays in it.

Operators list alerts newest first, acknowledge them and resolve them.
-/

namespace OnrampLedger

/-- A wallet whose cached balance is off from its ledger. -/
structure Mismatch where
  walletId : String
  userId : String
  walletBalance : Decimal
  ledgerBalance : Decimal
  latestAfter : Decimal
  delta : Decimal
  deriving Repr

/-- The mismatch as JSON. -/
def Mismatch.toJson (m : Mismatch) : Json :=
  .object [("wallet_id", .str m.walletId), ("user_id", .str m.userId),
    ("wallet_balance", .decimal m.walletBalance), ("ledger_balance", .decimal m.ledgerBalance),
    ("latest_balance_after", .decimal m.latestAfter), ("delta", .decimal m.delta)]

namespace Alerting

/-- The memory of alerting. -/
def memory : Op AlertMemory := return (← get).memory

/-- Changes the memory of alerting. -/
def modifyMemory (f : AlertMemory → AlertMemory) : Op Unit :=
  modify fun w => { w with memory := f w.memory }

/-- The thresholds in force. -/
def thresholds : Op AlertThresholds := return (← Op.settings).thresholds

/-- Whether alerts under `key` may fire now; when they may, they are quiet for `ttl`
from now on. -/
def allow (key : String) (ttl : Duration) : Op Bool := do
  let now ← Op.now
  match (← memory).quietUntil.lookup key with
  | some t => if now < t then return false else pure ()
  | none => pure ()
  modifyMemory fun m =>
    { m with quietUntil := (key, now.addNanos ttl.nanos) :: m.quietUntil.filter (·.1 != key) }
  return true

/-- Records an alert. -/
def raise (type severity title message : String) (metadata : List (String × String)) : Op Unit := do
  let id ← Op.freshId
  let now ← Op.now
  let a : AlertLog := ⟨id, type, severity, title, message, metadata, none, false, "", none, now⟩
  Op.modifyStore fun s => { s with alerts := s.alerts ++ [a] }

/-- Alerts on a wallet whose balance is off by at least the mismatch threshold. -/
def balanceMismatch (m : Mismatch) : Op Unit := do
  let th ← thresholds
  let size := m.delta.abs
  if size < th.balanceMismatch then return
  let severity := if th.criticalDelta < size then "critical" else "high"
  raise "balance_mismatch" severity "Wallet balance does not match ledger"
    s!"wallet {m.walletId} cached balance {m.walletBalance.render}, ledger balance {m.ledgerBalance.render} (delta {m.delta.render})"
    [("wallet_id", m.walletId), ("user_id", m.userId), ("wallet_balance", m.walletBalance.render),
     ("ledger_balance", m.ledgerBalance.render), ("delta", m.delta.render)]

/-- Counts a failed provider report and alerts when the failures within the window
reach the threshold. -/
def webhookFailure (provider externalId : String) (cause : Option String) : Op Unit := do
  let th ← thresholds
  let now ← Op.now
  let start := now.addNanos th.webhookFailureWindow.negate.nanos
  modifyMemory fun m => { m with failures := m.failures.filter (start < ·) ++ [now] }
  let count : Int := (← memory).failures.length
  if th.webhookFailureCount ≤ 0 ∨ count < th.webhookFailureCount then return
  unless ← allow "webhook_failures" th.cooldown do return
  let severity := if 2 * th.webhookFailureCount ≤ count then "high" else "medium"
  let window := th.webhookFailureWindow.render
  let causeText := cause.getD ""
  raise "webhook_failures" severity "Webhook failures above threshold"
    s!"{count} webhook failures in the last {window}; latest {provider}/{externalId}: {causeText}"
    [("count", toString count), ("window", window), ("provider", provider),
     ("external_id", externalId)]

/-- One minute, in nanoseconds. -/
def minute : Int := 60 * Instant.nanosPerSecond

/-- Counts a credit to a wallet and tells whether the wallet's credits within the last
minute exceed the per-minute threshold, alerting unless a spike alert for the wallet
is still quiet. -/
def creditSpike (wallet : String) (amount : Decimal) : Op Bool := do
  let th ← thresholds
  let now ← Op.now
  let start := now.addNanos (-minute)
  let recent := (((← memory).credits.lookup wallet).getD []).filter fun (t, _) => start < t
  let kept := recent ++ [(now, amount)]
  modifyMemory fun m => { m with credits := (wallet, kept) :: m.credits.filter (·.1 != wallet) }
  let total := kept.foldl (fun acc (_, a) => acc + a) 0
  if th.creditSpikePerMinute = 0 ∨ total ≤ th.creditSpikePerMinute then return false
  unless ← allow ("credit_spike:" ++ wallet) th.cooldown do return true
  let limit := th.creditSpikePerMinute.render
  raise "credit_spike" "high" "Credit spike"
    s!"wallet {wallet} received {total.render} in the last minute (threshold {limit})"
    [("wallet_id", wallet), ("total", total.render), ("threshold", limit)]
  return true

/-- Records that a background job crashed. -/
def crash (job : String) (cause : Option String) : Op Unit := do
  unless ← allow ("crash:" ++ job) (← thresholds).cooldown do return
  let causeText := cause.getD "unknown error"
  raise "reconciliation_crash" "critical" "Background job crashed"
    s!"{job} failed: {causeText}" [("job", job)]

/-- Records a completed purchase that no provider report arrived for. -/
def missingWebhook (a : MissingWebhookAlert) : Op Unit :=
  raise "missing_webhook" "medium" "Completed on-ramp without webhook"
    s!"{a.provider} on-ramp {a.onRampId} for wallet {a.walletId} ({a.amount.renderFixed 2}) has no webhook"
    [("missing_webhook_alert_id", a.id), ("onramp_id", a.onRampId), ("wallet_id", a.walletId),
     ("provider", a.provider)]

/-- Alerts newest first, only unresolved ones if asked, at most `limit` when positive. -/
def list (unresolvedOnly : Bool) (limit : Int) : Op (List AlertLog) := do
  let all := (← Op.store).alerts.reverse.filter fun a => !(unresolvedOnly && a.resolved)
  return if limit > 0 then all.take limit.toNat else all

/-- The alert with id `id`. -/
def get (id : String) : Op AlertLog := do Op.found ((← Op.store).alert? id) (.alertNotFound id)

/-- Marks an alert as seen; seeing it again changes nothing. -/
def acknowledge (id : String) (admin : Actor) : Op AlertLog := do
  Op.require admin.isAdmin .acknowledgeNeedsAdmin
  let a ← get id
  if a.acknowledgedAt.isSome then return a
  let a := { a with acknowledgedAt := some (← Op.now) }
  Op.modifyStore (·.putAlert a)
  return a

/-- Closes an alert, acknowledging it if it was not. -/
def resolve (id : String) (admin : Actor) : Op AlertLog := do
  Op.require admin.isAdmin .resolveAlertNeedsAdmin
  let a ← get id
  Op.require (!a.resolved) (.alertAlreadyResolved id)
  let now ← Op.now
  let a := { a with acknowledgedAt := some (a.acknowledgedAt.getD now), resolved := true,
                    resolvedBy := admin.id, resolvedAt := some now }
  Op.modifyStore (·.putAlert a)
  return a

end Alerting

end OnrampLedger
