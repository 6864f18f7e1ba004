import OnrampLedger.Money.Decimal
import OnrampLedger.Time.Instant
import OnrampLedger.Json.Value
import OnrampLedger.Codec.Base64

/-!
# Review items

Two kinds of case wait for an operator. A dead letter is a provider report whose
processing attempts ran out; a missing-webhook case is a completed purchase for which
no provider report ever arrived. Each is `pending` until an operator settles it
(`manual_reviewed`, with a resolution, notes, who and when), and a dead letter may then
be `archived`.
-/

namespace OnrampLedger

/-- Where a review item stands. -/
inductive ReviewStatus
  | pending
  | manualReviewed
  | archived
  deriving DecidableEq, Repr, Inhabited

/-- The name a review status travels under. -/
def ReviewStatus.name : ReviewStatus → String
  | .pending => "pending"
  | .manualReviewed => "manual_reviewed"
  | .archived => "archived"

/-- What an operator decided for a review item. -/
inductive Resolution
  | webhookReceived
  | manualCredit
  | cancelled
  | reprocessed
  | refunded
  | ignored
  deriving DecidableEq, Repr, Inhabited

namespace Resolution

/-- The name a resolution travels under. -/
def name : Resolution → String
  | .webhookReceived => "webhook_received"
  | .manualCredit => "manual_credit"
  | .cancelled => "cancelled"
  | .reprocessed => "reprocessed"
  | .refunded => "refunded"
  | .ignored => "ignored"

/-- The resolution a name stands for. -/
def ofName? : String → Option Resolution
  | "webhook_received" => some .webhookReceived
  | "manual_credit" => some .manualCredit
  | "cancelled" => some .cancelled
  | "reprocessed" => some .reprocessed
  | "refunded" => some .refunded
  | "ignored" => some .ignored
  | _ => none

end Resolution

/-- How an operator settled an item. -/
structure Settlement where
  resolution : Resolution
  notes : String
  resolvedBy : String
  resolvedAt : Instant
  deriving Repr

/-- The members describing a settlement, or none while unsettled. -/
def Settlement.members : Option Settlement → List (String × Json)
  | none => []
  | some s =>
    [("resolution", .str s.resolution.name)] ++ Json.textIfAny "notes" s.notes ++
      Json.textIfAny "resolved_by" s.resolvedBy ++ [("resolved_at", .instant s.resolvedAt)]

/-- A completed purchase with no provider report. -/
structure MissingWebhookAlert where
  id : String
  onRampId : String
  walletId : String
  provider : String
  amount : Decimal
  status : ReviewStatus
  settlement : Option Settlement
  createdAt : Instant
  deriving Repr

/-- The case as JSON. -/
def MissingWebhookAlert.toJson (a : MissingWebhookAlert) : Json :=
  .object ([("id", .str a.id), ("onramp_id", .str a.onRampId), ("wallet_id", .str a.walletId),
    ("provider", .str a.provider), ("amount", .decimal a.amount), ("status", .str a.status.name)] ++
    Settlement.members a.settlement ++ [("created_at", .instant a.createdAt)])

/-- A provider report whose processing attempts ran out. -/
structure DeadLetterItem where
  id : String
  webhookEventId : String
  eventId : String
  eventType : String
  provider : String
  reason : String
  retryCount : Nat
  maxRetries : Int
  lastError : String
  /-- A snapshot of the event, as bytes. -/
  payload : List UInt8
  status : ReviewStatus
  settlement : Option Settlement
  createdAt : Instant
  deriving Repr

/-- The item as JSON; the payload is written in base64 and left out when empty. -/
def DeadLetterItem.toJson (d : DeadLetterItem) : Json :=
  .object ([("id", .str d.id), ("webhook_event_id", .str d.webhookEventId),
    ("event_id", .str d.eventId), ("event_type", .str d.eventType), ("provider", .str d.provider),
    ("reason", .str d.reason), ("retry_count", .int d.retryCount), ("max_retries", .int d.maxRetries)] ++
    Json.textIfAny "last_error" d.lastError ++
    (if d.payload.isEmpty then [] else [("payload", .str (Base64.encode d.payload))]) ++
    [("status", .str d.status.name)] ++ Settlement.members d.settlement ++
    [("created_at", .instant d.createdAt)])

end OnrampLedger
