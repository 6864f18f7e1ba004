import OnrampLedger.Money.Decimal
import OnrampLedger.Time.Instant
import OnrampLedger.Json.Value

/-!
# Ledger entries

A ledger entry records one balance change of one wallet. Its type says whether it adds
to the balance (`deposit`, `transfer_in`) or takes from it (`withdrawal`,
`transfer_out`, `trading`); its source says who caused it. Entries are never changed
once written: the ledger only grows.

Types and sources travel as text. `EntryType.ofName?` and `Source.ofName?` read the
exact lower-case names and nothing else, so a text names at most one of them.
-/

namespace OnrampLedger

/-- The kind of balance change an entry records. -/
inductive EntryType
  | deposit
  | withdrawal
  | transferIn
  | transferOut
  | trading
  deriving DecidableEq, Repr

namespace EntryType

/-- The name an entry type travels under. -/
def name : EntryType → String
  | .deposit => "deposit"
  | .withdrawal => "withdrawal"
  | .transferIn => "transfer_in"
  | .transferOut => "transfer_out"
  | .trading => "trading"

/-- The entry type a name stands for, if any. -/
def ofName? : String → Option EntryType
  | "deposit" => some .deposit
  | "withdrawal" => some .withdrawal
  | "transfer_in" => some .transferIn
  | "transfer_out" => some .transferOut
  | "trading" => some .trading
  | _ => none

/-- Credits add their amount to the balance; every other type takes it away. -/
def isCredit : EntryType → Bool
  | .deposit | .transferIn => true
  | _ => false

/-- Whether a type name names a credit; a name of no type is not a credit. -/
def nameIsCredit (t : String) : Bool :=
  match ofName? t with
  | some k => k.isCredit
  | none => false

theorem ofName?_name (t : EntryType) : ofName? t.name = some t := by
  cases t <;> rfl

/-- The balance after an entry of type `t` moving `amount` from `before`. -/
def applyTo (t : EntryType) (before amount : Decimal) : Decimal :=
  if t.isCredit then before + amount else before - amount

end EntryType

/-- Who caused a balance change. -/
inductive Source
  | admin
  | webhook
  | user
  deriving DecidableEq, Repr

namespace Source

/-- The name a source travels under. -/
def name : Source → String
  | .admin => "admin"
  | .webhook => "webhook"
  | .user => "user"

/-- The source a name stands for, if any. -/
def ofName? : String → Option Source
  | "admin" => some .admin
  | "webhook" => some .webhook
  | "user" => some .user
  | _ => none

theorem ofName?_name (s : Source) : ofName? s.name = some s := by
  cases s <;> rfl

end Source

/-- One immutable balance change of one wallet. -/
structure LedgerEntry where
  id : String
  wallet : String
  type : EntryType
  /-- Always positive: the type carries the direction. -/
  amount : Decimal
  before : Decimal
  after : Decimal
  /-- The idempotency key of the operation that wrote the entry. -/
  key : String
  reference : String
  description : String
  source : Source
  /-- The provider's event id for webhook credits, otherwise empty. -/
  providerEventId : String
  createdAt : Instant
  deriving Repr

/-- The entry as JSON; an empty key or provider event id is left out. -/
def LedgerEntry.toJson (e : LedgerEntry) : Json :=
  .object ([("id", .str e.id), ("wallet_id", .str e.wallet), ("type", .str e.type.name),
    ("amount", .decimal e.amount), ("balance_before", .decimal e.before),
    ("balance_after", .decimal e.after)] ++ Json.textIfAny "idempotency_key" e.key ++
    [("reference", .str e.reference), ("description", .str e.description),
     ("source", .str e.source.name)] ++ Json.textIfAny "provider_event_id" e.providerEventId ++
    [("created_at", .instant e.createdAt)])

end OnrampLedger
