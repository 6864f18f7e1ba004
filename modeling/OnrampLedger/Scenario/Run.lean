import OnrampLedger.Scenario.Setup
import OnrampLedger.Scenario.Reference
import OnrampLedger.Scenario.Outcome
import OnrampLedger.Scenario.Step
import OnrampLedger.Http.Router

/-!
# Running a scenario

Steps run one after another on one world, each ending in its outcome. A step that is
refused leaves the world as the service leaves it on that refusal; the next step runs
either way.

A request to the router carries a bearer token when the step names a caller: the
token is signed with the configured secret, issued at 2099-01-01T00:00:00Z for ten
years of 365 days, so it is current whenever it is checked. A step may instead give
the `Authorization` header outright. A body to be signed is signed with the secret
configured under the provider's lower-cased name, or with the empty secret when there
is none.

## Main definitions

* `Scenario.step`: the outcome of one step.
* `Scenario.run`: the outcomes of a whole scenario.
-/

namespace OnrampLedger

namespace Scenario

/-- The outcome of an operation, its value written by `write`. -/
def outcome {α : Type} (x : Op α) (write : α → Json) : StateM World Json := do
  match ← x.run with
  | .ok a => pure (Outcome.ok (write a))
  | .error e => pure (Outcome.failure e)

/-- What an id field names. -/
def refer (text : String) : Op String := return Reference.resolve (← Op.store) text

/-- Text with its braced references filled. -/
def fillIn (text : String) : Op String := return Reference.fillText (← Op.store) text

/-- The secret a step signs a provider's report with: the one configured under the
provider's lower-cased name, or the empty secret. -/
def signingSecret (setup : Setup) (provider : String) : List UInt8 :=
  Utf8.encode ((setup.webhookSecrets.lookup (Text.toLower provider)).getD "")

/-- The signature a step puts on a provider's report. -/
def signatureFor (setup : Setup) (provider : String) (body : List UInt8) : String :=
  Hex.encode (signReport (signingSecret setup provider) body)

/-- When the tokens of requests are issued: 2099-01-01T00:00:00Z. -/
def tokenIssued : Instant := ⟨4070908800 * Instant.nanosPerSecond⟩

/-- How long the tokens of requests last, in seconds: ten years of 365 days. -/
def tokenLifetime : Int := 10 * 365 * 86400

/-- The request a step sends. -/
def request (setup : Setup) (c : HttpCall) : Op Http.Request := do
  let target ← fillIn c.path
  let body ← match c.body with
    | .text t => Utf8.encode <$> fillIn t
    | .bytes bs => pure bs
  let secret := Utf8.encode (← Op.settings).jwtSecret
  let headers := c.headers.foldl (fun hs (k, v) => Http.Request.setHeader hs k v) []
  let headers := match c.authorization, c.actor with
    | some h, _ => Http.Request.setHeader headers "Authorization" h
    | none, some a =>
      Http.Request.setHeader headers "Authorization" ("Bearer " ++ Token.sign secret a tokenIssued tokenLifetime)
    | none, none => headers
  let headers := match c.signFor with
    | some p => Http.Request.setHeader headers "X-Signature" (signatureFor setup p body)
    | none => headers
  return ⟨if c.method = "" then "GET" else c.method, target, headers, body⟩

/-- A response as a step's value: its status, content type and body, the body as JSON
when it is JSON and as text otherwise. -/
def responseJson (r : Http.Response) : Json :=
  let body := match r.body with
    | .json v => ("body", v)
    | .text t => ("body_text", Json.str t)
  .object [("status", .int r.status), ("content_type", .str r.contentType), body]

/-- Whether a provider's report is taken as verified. -/
def verified (setup : Setup) (provider : String) (body : List UInt8) : Proof → Op Bool
  | .given v => pure v
  | .signature s => return verifyReport (← Op.settings).webhookSecrets provider body s
  | .signed => return verifyReport (← Op.settings).webhookSecrets provider body (signatureFor setup provider body)

/-- A list of records as JSON. -/
def listed {α : Type} (write : α → Json) (xs : List α) : Json := .array (xs.map write)

/-- The outcome of one step. -/
def step (setup : Setup) : Step → StateM World Json
  | .createWallet user currency => outcome (Wallets.create user currency) Wallet.toJson
  | .credit r => outcome (do
      Wallets.credit { r with wallet := ← refer r.wallet, reference := ← fillIn r.reference,
                              providerEventId := ← fillIn r.providerEventId })
      WalletView.toJson
  | .debit r => outcome (do Wallets.debit { r with wallet := ← refer r.wallet }) WalletView.toJson
  | .transfer r => outcome (do
      Wallets.transfer { r with source := ← refer r.source, target := ← refer r.target })
      WalletView.toJson
  | .manualCredit wallet amount reason actor =>
    outcome (do Wallets.manualCredit (← refer wallet) amount reason actor) WalletView.toJson
  | .getWallet wallet => outcome (do Wallets.get (← refer wallet)) Wallet.toJson
  | .getWalletOfUser user => outcome (Wallets.getOfUser user) Wallet.toJson
  | .ledgerIntegrity wallet => outcome (do Wallets.integrity (← refer wallet)) LedgerIntegrity.toJson
  | .listLedger wallet actor =>
    outcome (do Wallets.ledger (← refer wallet) actor) (listed LedgerEntry.toJson)
  | .corrupt wallet balance =>
    outcome (do Wallets.overwriteBalance (← refer wallet) balance) fun _ => .null
  | .listWallets after limit =>
    outcome (do return (← Op.store).walletsAfter (← refer after) limit) (listed Wallet.toJson)
  | .published => do
    let w ← get
    set { w with published := [] }
    return Outcome.ok (listed LedgerEvent.toJson w.published)
  | .advance seconds millis => do
    modify fun w => { w with now := w.now.addNanos (seconds * Instant.nanosPerSecond + millis * 1000000) }
    return Outcome.ok (.instant (← get).now)
  | .report provider body proof =>
    match normalize provider body with
    | .error e => pure (Outcome.malformed e)
    | .ok ev => outcome (do Intake.process ev (← verified setup provider body proof)) IntakeResult.toJson
  | .event ev ok => outcome (Intake.process ev ok) IntakeResult.toJson
  | .webhookEvent externalId => outcome (Intake.event externalId) WebhookEvent.toJson
  | .retryCycle => outcome Retry.cycle RetryStats.toJson
  | .listDeadLetters status => outcome (Retry.list status) (listed DeadLetterItem.toJson)
  | .retryDeadLetter id actor =>
    outcome (do Retry.retryDeadLetter (← refer id) actor) WebhookEvent.toJson
  | .resolveDeadLetter id resolution notes actor =>
    outcome (do Retry.resolve (← refer id) resolution notes actor) DeadLetterItem.toJson
  | .archiveDeadLetter id actor => outcome (do Retry.archive (← refer id) actor) DeadLetterItem.toJson
  | .createOnRamp actor provider amount currency =>
    outcome (Reconcile.createOnRamp actor provider amount currency) OnRamp.toJson
  | .completeOnRamp id actor => outcome (do Reconcile.completeOnRamp (← refer id) actor) OnRamp.toJson
  | .getOnRamp id => outcome (do Reconcile.onRamp (← refer id)) OnRamp.toJson
  | .reconcile lookback => outcome (Reconcile.run lookback) ReconcileReport.toJson
  | .listMissing status => outcome (Reconcile.list status) (listed MissingWebhookAlert.toJson)
  | .replayMissing id actor =>
    outcome (do Reconcile.replay (← refer id) actor) fun (view, alert) =>
      .object [("wallet", view.toJson), ("alert", alert.toJson)]
  | .resolveMissing id resolution notes actor =>
    outcome (do Reconcile.resolve (← refer id) resolution notes actor) MissingWebhookAlert.toJson
  | .integrityRun => outcome Integrity.run IntegrityReport.toJson
  | .clearFlag wallet actor => outcome (do Integrity.clearFlag (← refer wallet) actor) fun _ => .null
  | .balanceMismatch m =>
    outcome (do Alerting.balanceMismatch { m with walletId := ← refer m.walletId }) fun _ => .null
  | .webhookFailure provider externalId cause =>
    outcome (Alerting.webhookFailure provider externalId cause) fun _ => .null
  | .creditSpike wallet amount => outcome (do Alerting.creditSpike (← refer wallet) amount) Json.bool
  | .crash job cause => outcome (Alerting.crash job cause) fun _ => .null
  | .listAlerts unresolved limit => outcome (Alerting.list unresolved limit) (listed AlertLog.toJson)
  | .acknowledgeAlert id actor => outcome (do Alerting.acknowledge (← refer id) actor) AlertLog.toJson
  | .resolveAlert id actor => outcome (do Alerting.resolve (← refer id) actor) AlertLog.toJson
  | .http call => outcome (do Http.Router.handle (← request setup call)) responseJson

/-- The outcomes of steps run in order from the world they start in. A step that could
not be read is answered as such and changes nothing. -/
def steps (setup : Setup) : List (Except String Step) → StateM World (List Json)
  | [] => pure []
  | s :: rest => do
    let first ← match s with
      | .ok s => step setup s
      | .error message => pure (Outcome.badInput message)
    return first :: (← steps setup rest)

/-- The outcomes of the steps of a scenario, in order. -/
def run (setup : Setup) (all : List (Except String Step)) : List Json :=
  (Id.run ((steps setup all).run setup.world)).1

end Scenario

end OnrampLedger
