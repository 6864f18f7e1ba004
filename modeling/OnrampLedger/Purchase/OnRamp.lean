import OnrampLedger.Money.Decimal
import OnrampLedger.Time.Instant
import OnrampLedger.Json.Value

/-!
# On-ramps

An on-ramp is a user's intent to buy funds through a provider: the wallet to credit,
the provider, the amount and currency. It is `pending` until the provider's report
arrives or an operator marks it done, and `completed` after, with the time.
-/

namespace OnrampLedger

/-- A fiat purchase through a provider. -/
structure OnRamp where
  id : String
  walletId : String
  provider : String
  amount : Decimal
  currency : String
  completedAt : Option Instant
  createdAt : Instant
  deriving Repr, Inhabited

namespace OnRamp

/-- Whether the purchase is done. -/
def completed (o : OnRamp) : Bool := o.completedAt.isSome

/-- The on-ramp as JSON. -/
def toJson (o : OnRamp) : Json :=
  .object ([("id", .str o.id), ("wallet_id", .str o.walletId), ("provider", .str o.provider),
    ("amount", .decimal o.amount), ("currency", .str o.currency),
    ("status", .str (if o.completed then "completed" else "pending"))] ++
    Json.someIf "completed_at" (o.completedAt.map Json.instant) ++
    [("created_at", .instant o.createdAt)])

end OnRamp

end OnrampLedger
