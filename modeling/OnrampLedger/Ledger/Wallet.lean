import OnrampLedger.Money.Decimal
import OnrampLedger.Time.Instant
import OnrampLedger.Json.Value

/-!
# Wallets

A wallet holds one user's balance in one currency. The balance is a cache of the
wallet's ledger: every change to it is written together with a ledger entry, so it
always equals the credits less the debits of the wallet's entries, unless something
outside the service overwrote it. A wallet found out of step is flagged for review,
with when and by how much.

A `WalletView` is what an operation on a wallet answers: the wallet's state after it,
the entry it wrote (or found written already), and whether it was a repeat.
-/

namespace OnrampLedger

/-- One user's balance in one currency. -/
structure Wallet where
  id : String
  userId : String
  currency : String
  balance : Decimal
  flagged : Bool
  /-- Why the wallet is flagged; empty when it is not. -/
  flagReason : String
  flaggedAt : Option Instant
  flagDelta : Option Decimal
  createdAt : Instant
  updatedAt : Instant
  deriving Repr, Inhabited

/-- The state of a wallet after an operation on it. -/
structure WalletView where
  walletId : String
  userId : String
  currency : String
  balance : Decimal
  /-- The entry the operation wrote or found; empty when there is none. -/
  entryId : String
  /-- Whether the operation had been done before and did nothing now. -/
  duplicate : Bool
  deriving Repr, Inhabited

namespace Wallet

/-- The wallet as JSON; flag details are left out when unset. -/
def toJson (w : Wallet) : Json :=
  .object ([("id", .str w.id), ("user_id", .str w.userId), ("currency", .str w.currency),
    ("balance", .decimal w.balance), ("flagged_for_review", .bool w.flagged)] ++
    Json.textIfAny "flag_reason" w.flagReason ++
    Json.someIf "flagged_at" (w.flaggedAt.map Json.instant) ++
    Json.someIf "flag_delta" (w.flagDelta.map Json.decimal) ++
    [("created_at", .instant w.createdAt), ("updated_at", .instant w.updatedAt)])

/-- The wallet's state, naming no entry. -/
def view (w : Wallet) : WalletView := ⟨w.id, w.userId, w.currency, w.balance, "", false⟩

end Wallet

/-- The view as JSON; an empty entry id is left out. -/
def WalletView.toJson (v : WalletView) : Json :=
  .object ([("wallet_id", .str v.walletId), ("user_id", .str v.userId),
    ("currency", .str v.currency), ("balance", .decimal v.balance)] ++
    Json.textIfAny "entry_id" v.entryId ++ [("duplicate", .bool v.duplicate)])

end OnrampLedger
