import OnrampLedger.Service.Alerting
import OnrampLedger.Ledger.Key
import OnrampLedger.Ledger.Amount
import OnrampLedger.Ledger.Chain
import OnrampLedger.Text.Blank
import OnrampLedger.Text.Case

/-!
# The wallet engine

Balances change only here, and every change writes a ledger entry in the same
transaction. Each operation carries an idempotency key built from its source, the
caller's reference, the wallet and its direction; an operation whose key is already
on an entry does nothing and answers the wallet's current state, marked as a repeat.

* A credit comes from an operator (`admin`) or from a verified provider report
  (`webhook`); its amount is a positive number of cents and its type a credit type.
* A debit is made by the wallet's owner, for a withdrawal or a trade, and never takes
  more than the balance.
* A transfer moves an amount from the caller's wallet to another of the same currency,
  as a debit entry on one and a credit entry on the other, written together.
* A manual credit is an operator's credit with a stated reason.

Checks run in a fixed order, and the first that fails is the answer. After a commit,
each new entry is published and each credit is counted towards the wallet's credit
spike window.

Reads of a wallet are checked: a wallet whose cached balance differs from its ledger
is not shown.
-/

namespace OnrampLedger

/-- A request to credit a wallet. -/
structure CreditRequest where
  wallet : String
  amount : Decimal
  /-- An entry type name; empty means a deposit. -/
  type : String
  reference : String
  description : String
  /-- Who credits: `admin` or `webhook`. -/
  source : String
  providerEventId : String
  /-- Whether the provider report behind a `webhook` credit was verified. -/
  verified : Bool
  actor : Actor
  deriving Repr

/-- A request to debit a wallet. -/
structure DebitRequest where
  wallet : String
  amount : Decimal
  /-- An entry type name; empty means a withdrawal. -/
  type : String
  reference : String
  actor : Actor
  deriving Repr

/-- A request to move an amount between two wallets. -/
structure TransferRequest where
  source : String
  target : String
  amount : Decimal
  reference : String
  actor : Actor
  deriving Repr

/-- A committed change: the wallet after it and the entry written. -/
abbrev Mutation := Wallet × LedgerEntry

/-- How a wallet compares with its ledger. -/
structure LedgerIntegrity where
  walletId : String
  walletBalance : Decimal
  ledgerBalance : Decimal
  latestAfter : Decimal
  consistent : Bool
  delta : Decimal
  chainIntact : Bool
  entryCount : Nat
  deriving Repr

/-- The comparison as JSON. -/
def LedgerIntegrity.toJson (i : LedgerIntegrity) : Json :=
  .object [("wallet_id", .str i.walletId), ("wallet_balance", .decimal i.walletBalance),
    ("ledger_balance", .decimal i.ledgerBalance), ("latest_balance_after", .decimal i.latestAfter),
    ("is_consistent", .bool i.consistent), ("delta", .decimal i.delta),
    ("chain_intact", .bool i.chainIntact), ("entry_count", .int i.entryCount)]

namespace Wallets

/-- Announces committed changes, in order: each is published, and each credit is
counted towards its wallet's credit spike window. -/
def committed (muts : List Mutation) : Op Unit :=
  muts.forM fun (w, e) => do
    modify fun s => { s with published := s.published ++ [LedgerEvent.ofEntry w e] }
    if e.type.isCredit then
      let _ ← Alerting.creditSpike w.id e.amount

/-- Opens a wallet for a user. The currency defaults to `USD` and is kept upper-cased;
the user id is kept as given. A drawn id that already names a wallet is refused as a
second wallet of the user would be. -/
def create (user currency : String) : Op Wallet := do
  Op.require (Text.trim user != "") .userIdRequired
  let currency := if currency = "" then "USD" else currency
  let id ← Op.freshId
  let now ← Op.now
  let s ← Op.store
  Op.require ((s.walletOfUser? user).isNone && (s.wallet? id).isNone) (.walletExists user)
  let w : Wallet := ⟨id, user, Text.toUpper currency, 0, false, "", none, none, now, now⟩
  Op.modifyStore fun s => { s with wallets := s.wallets ++ [w] }
  return w

/-- The wallet with id `id`, which the caller named. -/
def lock (id : String) : Op Wallet := do Op.found ((← Op.store).wallet? id) (.walletIdNotFound id)

/-- Answers an operation found done already: the wallet's current state, naming the
entry written under `key`. -/
def duplicateView (key wallet : String) : Op WalletView := do
  let s ← Op.store
  let w ← Op.found (s.wallet? wallet) .walletNotFound
  return { w.view with duplicate := true, entryId := ((s.entryByKey? key).map (·.id)).getD "" }

/-- Answers a repeated operation on a user's wallet, to its owner only. -/
def replayedFor (key wallet : String) (actor : Actor) : Op WalletView := do
  let w ← Op.found ((← Op.store).wallet? wallet) .walletNotFound
  Op.require (w.userId == actor.id) .notWalletOwner
  duplicateView key wallet

/-- Writes one entry to wallet `w` and moves its balance. A balance that would go below
zero is refused before anything is written; a key already on an entry is refused with
`taken` once the entry's id is drawn. -/
def apply (w : Wallet) (type : EntryType) (amount : Decimal) (key reference description : String)
    (source : Source) (providerEventId : String) (taken : Error) : Op Mutation := do
  let now ← Op.now
  let after := type.applyTo w.balance amount
  Op.require (¬ after < 0) (.insufficientBalance w.balance amount)
  let id ← Op.freshId
  Op.require ((← Op.store).entryByKey? key).isNone taken
  let w' := { w with balance := after, updatedAt := now }
  let e : LedgerEntry :=
    ⟨id, w.id, type, amount, w.balance, after, key, reference, description, source, providerEventId, now⟩
  Op.modifyStore fun s => { s.putWallet w' with ledger := s.ledger ++ [e] }
  return (w', e)

/-- Who may credit: an operator for `admin`, a verified report with an event id for
`webhook`, and no other source. -/
def authorizeCredit (r : CreditRequest) : Op Source :=
  match Source.ofName? r.source with
  | some .admin => do Op.require r.actor.isAdmin .adminCreditNeedsAdmin; pure .admin
  | some .webhook => do
    Op.require (r.verified && r.providerEventId != "") .webhookCreditUnverified
    pure .webhook
  | _ => throw (.sourceCannotCredit r.source)

/-- The amount, if it is a positive number of cents. -/
def amountOf (a : Decimal) : Op Decimal :=
  match normalizeAmount a with
  | .ok a => pure a
  | .error e => throw e

/-- The key of a credit request. -/
def creditKey (r : CreditRequest) : String := (IdempotencyKey.credit r.source r.reference r.wallet).render

/-- The key of a debit request; debits are always the user's own. -/
def debitKey (r : DebitRequest) : String := (IdempotencyKey.debit "user" r.reference r.wallet).render

/-- A credit inside a transaction the caller runs. A key already on an entry answers the
wallet's state as a repeat and writes nothing; otherwise the change is answered for the
caller to announce once committed. -/
def creditWithin (r : CreditRequest) : Op (WalletView × Option Mutation) := do
  let source ← authorizeCredit r
  let amount ← amountOf r.amount
  Op.require (r.reference != "") .referenceRequired
  let typeName := if r.type = "" then "deposit" else r.type
  let type ← match EntryType.ofName? typeName with
    | some t => if t.isCredit then pure t else throw (.notACredit typeName)
    | none => throw (.notACredit typeName)
  let key := creditKey r
  let w ← lock r.wallet
  match (← Op.store).entryByKey? key with
  | some e => return ({ w.view with entryId := e.id, duplicate := true }, none)
  | none =>
    let (w', e) ← apply w type amount key r.reference r.description source r.providerEventId
      .webhookCreditUnverified
    return ({ w'.view with entryId := e.id }, some (w', e))

/-- Credits a wallet, once per key. -/
def credit (r : CreditRequest) : Op WalletView := do
  let key := creditKey r
  if ((← Op.store).entryByKey? key).isSome then return (← duplicateView key r.wallet)
  let (view, change) ← Op.atomically (creditWithin r)
  committed change.toList
  return view

/-- Debits a wallet its owner names, once per key. -/
def debit (r : DebitRequest) : Op WalletView := do
  Op.require (r.actor.id != "") .debitUnauthenticated
  let amount ← amountOf r.amount
  Op.require (r.reference != "") .referenceRequired
  let typeName := if r.type = "" then "withdrawal" else r.type
  let type ← match EntryType.ofName? typeName with
    | some .withdrawal => pure EntryType.withdrawal
    | some .trading => pure EntryType.trading
    | _ => throw (.notADebit typeName)
  let key := (IdempotencyKey.debit "user" r.reference r.wallet).render
  if ((← Op.store).entryByKey? key).isSome then return (← replayedFor key r.wallet r.actor)
  let (w', e) ← Op.atomically do
    let w ← lock r.wallet
    Op.require (w.userId == r.actor.id) .notWalletOwner
    Op.require (¬ w.balance < amount) (.insufficientBalance w.balance amount)
    apply w type amount key r.reference "" .user "" .notWalletOwner
  committed [(w', e)]
  return { w'.view with entryId := e.id }

/-- Moves an amount from the caller's wallet to another, once per key. Both wallets are
looked up in order of their ids. -/
def transfer (r : TransferRequest) : Op WalletView := do
  Op.require (r.actor.id != "") .transferUnauthenticated
  Op.require (r.source != r.target) .sameWallet
  let amount ← amountOf r.amount
  Op.require (r.reference != "") .referenceRequired
  let ref := "transfer:" ++ r.reference
  let inRef := "transfer:" ++ r.source ++ ":" ++ r.reference
  let outKey := (IdempotencyKey.debit "user" ref r.source).render
  let inKey := (IdempotencyKey.credit "user" inRef r.target).render
  if ((← Op.store).entryByKey? outKey).isSome then return (← replayedFor outKey r.source r.actor)
  let (out, inward) ← Op.atomically do
    let _ ← lock (if r.source < r.target then r.source else r.target)
    let _ ← lock (if r.source < r.target then r.target else r.source)
    let src ← lock r.source
    let dst ← lock r.target
    Op.require (src.userId == r.actor.id) .notWalletOwner
    Op.require (src.currency == dst.currency) (.currencyMismatch src.currency dst.currency)
    Op.require (¬ src.balance < amount) (.insufficientBalance src.balance amount)
    let out ← apply src .transferOut amount outKey ref ("transfer to " ++ dst.id) .user ""
      (.transferCreditCollision r.reference)
    let inward ← apply dst .transferIn amount inKey inRef ("transfer from " ++ src.id) .user ""
      (.transferCreditCollision r.reference)
    return (out, inward)
  committed [out, inward]
  return { out.1.view with entryId := out.2.id }

/-- An operator's credit, with the reason recorded as the entry's description. -/
def manualCredit (wallet : String) (amount : Decimal) (reason : String) (admin : Actor) :
    Op WalletView := do
  Op.require admin.isAdmin .manualCreditNeedsAdmin
  let reason := Text.trim reason
  Op.require (reason.utf8ByteSize ≥ 10) .reasonTooShort
  let r ← Op.freshId
  credit ⟨wallet, amount, "deposit", "manual_" ++ r, reason, "admin", "", false, admin⟩

/-- A wallet, shown only when its cached balance agrees with its ledger. -/
def checked (w? : Option Wallet) : Op Wallet := do
  let w ← Op.found w? .walletNotFound
  Op.require (w.balance == (← Op.store).ledgerBalance w.id) .integrityViolation
  return w

/-- The wallet with id `id`, checked. -/
def get (id : String) : Op Wallet := do checked ((← Op.store).wallet? id)

/-- The wallet of a user, checked. -/
def getOfUser (user : String) : Op Wallet := do checked ((← Op.store).walletOfUser? user)

/-- How a wallet compares with its ledger; shown even when they disagree. -/
def integrity (id : String) : Op LedgerIntegrity := do
  let s ← Op.store
  let w ← Op.found (s.wallet? id) (.walletIdNotFound id)
  let entries := s.entriesOf id
  let ledger := s.ledgerBalance id
  let latest := s.latestAfter id
  return ⟨id, w.balance, ledger, latest, w.balance == ledger && w.balance == latest,
    w.balance - ledger, (firstBreak (entries.map LedgerEntry.link)).isNone, entries.length⟩

/-- A wallet's entries, oldest first, for its owner or an operator. -/
def ledger (id : String) (actor : Actor) : Op (List LedgerEntry) := do
  let s ← Op.store
  let w ← Op.found (s.wallet? id) (.walletIdNotFound id)
  Op.require (actor.isAdmin || w.userId == actor.id) .notWalletOwner
  return s.entriesOf id

/-- Overwrites a wallet's cached balance and nothing else, as damage from outside the
service would. -/
def overwriteBalance (id : String) (balance : Decimal) : Op Unit := do
  match (← Op.store).wallet? id with
  | some w => Op.modifyStore (·.putWallet { w with balance })
  | none => pure ()

end Wallets

end OnrampLedger
