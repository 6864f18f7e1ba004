import OnrampLedger.Time.Instant
import OnrampLedger.Json.Value

/-!
# Received provider events

Every provider payment report that reached processing leaves one row, unique by the
provider's payment id: `processed` once it credited, `failed` while it awaits another
attempt, `dead_letter` once attempts ran out and an operator has to decide. The report
itself is not kept, only its hash.
-/

namespace OnrampLedger

/-- Where a received provider event stands. -/
inductive WebhookStatus
  | pending
  | processed
  | failed
  | error
  | deadLetter
  deriving DecidableEq, Repr, Inhabited

/-- The name a status travels under. -/
def WebhookStatus.name : WebhookStatus → String
  | .pending => "pending"
  | .processed => "processed"
  | .failed => "failed"
  | .error => "error"
  | .deadLetter => "dead_letter"

/-- A received provider event. -/
structure WebhookEvent where
  id : String
  provider : String
  externalId : String
  payloadHash : String
  status : WebhookStatus
  retryCount : Nat
  lastRetryAt : Option Instant
  deadLetterAt : Option Instant
  /-- The ledger entry the event credited; empty until then. -/
  transactionId : String
  walletId : String
  errorMessage : String
  createdAt : Instant
  updatedAt : Instant
  deriving Repr, Inhabited

/-- The event as JSON; unset times and empty texts are left out. -/
def WebhookEvent.toJson (e : WebhookEvent) : Json :=
  .object ([("id", .str e.id), ("provider", .str e.provider), ("external_id", .str e.externalId),
    ("payload_hash", .str e.payloadHash), ("status", .str e.status.name),
    ("retry_count", .int e.retryCount)] ++
    Json.someIf "last_retry_at" (e.lastRetryAt.map Json.instant) ++
    Json.someIf "dead_letter_at" (e.deadLetterAt.map Json.instant) ++
    Json.textIfAny "transaction_id" e.transactionId ++ Json.textIfAny "wallet_id" e.walletId ++
    Json.textIfAny "error_message" e.errorMessage ++
    [("created_at", .instant e.createdAt), ("updated_at", .instant e.updatedAt)])

end OnrampLedger
