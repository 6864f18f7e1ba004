import OnrampLedger.Ledger.Entry
import OnrampLedger.Ledger.Wallet

/-!
# Ledger events

After a change to the ledger is committed, one event per new entry is published for
other systems: whether it was a credit or a debit, the wallet and its owner, the entry,
the amounts, the currency and the time.
-/

namespace OnrampLedger

/-- A published notice of one committed entry. -/
structure LedgerEvent where
  credit : Bool
  walletId : String
  userId : String
  entryId : String
  entryType : EntryType
  source : Source
  amount : Decimal
  before : Decimal
  after : Decimal
  currency : String
  reference : String
  timestamp : Instant
  deriving Repr

namespace LedgerEvent

/-- The event for an entry committed to wallet `w` (as it stands after the entry). -/
def ofEntry (w : Wallet) (e : LedgerEntry) : LedgerEvent :=
  ⟨e.type.isCredit, w.id, w.userId, e.id, e.type, e.source, e.amount, e.before, e.after,
    w.currency, e.reference, e.createdAt⟩

/-- The event as JSON. -/
def toJson (v : LedgerEvent) : Json :=
  .object [("event_type", .str (if v.credit then "ledger.credit" else "ledger.debit")),
    ("wallet_id", .str v.walletId), ("user_id", .str v.userId), ("entry_id", .str v.entryId),
    ("entry_type", .str v.entryType.name), ("source", .str v.source.name),
    ("amount", .decimal v.amount), ("balance_before", .decimal v.before),
    ("balance_after", .decimal v.after), ("currency", .str v.currency),
    ("reference", .str v.reference), ("timestamp", .instant v.timestamp)]

end LedgerEvent

end OnrampLedger
