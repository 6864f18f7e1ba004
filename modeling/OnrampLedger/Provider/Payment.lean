import OnrampLedger.Json.Value
import OnrampLedger.Text.Blank
import OnrampLedger.Text.Case

/-!
# Provider payments

Payment providers report a fiat payment in their own formats. Each report is brought
into one form, a `PaymentEvent`: which provider, the provider's id for the payment,
the user it is for, the amount and currency, its status, and the hash of the report as
received (the report itself is not kept).

Providers name statuses in their own words. `foldStatus` maps them onto four: a
payment is `completed`, `failed`, `refunded`, or, when the word is none it knows,
`pending`. Only a completed payment moves money.
-/

namespace OnrampLedger

/-- A payment reported by a provider, in the one form all formats are brought into. -/
structure PaymentEvent where
  provider : String
  externalId : String
  userId : String
  amount : Decimal
  currency : String
  status : String
  payloadHash : String
  deriving Repr, Inhabited

namespace PaymentEvent

/-- The event with every field empty and a zero amount. -/
def empty : PaymentEvent := ⟨"", "", "", 0, "", "", ""⟩

/-- The event as JSON. -/
def toJson (e : PaymentEvent) : Json :=
  .object [("provider", .str e.provider), ("external_id", .str e.externalId),
    ("user_id", .str e.userId), ("amount", .decimal e.amount), ("currency", .str e.currency),
    ("status", .str e.status), ("payload_hash", .str e.payloadHash)]

end PaymentEvent

/-- The one status that moves money. -/
def completedStatus : String := "completed"

/-- A provider's status word in the common vocabulary, read without case and without
surrounding whitespace. -/
def foldStatus (s : String) : String :=
  match Text.toLower (Text.trim s) with
  | "completed" | "complete" | "success" | "succeeded" => "completed"
  | "failed" | "cancelled" | "canceled" | "expired" | "declined" => "failed"
  | "refunded" => "refunded"
  | _ => "pending"

end OnrampLedger
