import OnrampLedger.Store.Basic

/-!
# Store transactions, one call at a time

A transaction talks to the store through calls, each of which the store serves whole
before any other thread's: a read takes the store's read lock, a commit its write lock.
Writes are not made when called but *staged*: the transaction keeps them, with the
check each must pass, and applies them only at its commit, where all checks run first
against the store as it then stands and the writes are applied only if every one
passes. Until then the store does not change, whatever the transaction does.

A transaction locks a wallet row before changing it. The lock is a slot only one
transaction can fill; locking a row means checking that the wallet exists, waiting for
the slot, and then reading the row, three calls with other threads free to run between
them. A transaction keeps its own copy of each row it locked and moves that copy along
with the balances it stages. It releases its locks only after its commit has applied
its writes (or after it rolled back), so no other transaction can read a locked row
before the writes made under the lock are in the store.

Every call that returns an error makes the transaction return it, and the transaction
then rolls back: staged writes are dropped and locks released. Lookups that find
nothing are not errors; their callers decide.

A transaction is a `Tx`: a tree of calls, each branch continuing with what the call
answered. Its own state between calls is a `TxState`, which also records what each call
read from the store (`TxState.seen`): the readings an answer depends on, so that what a
transaction did can be compared with what it would do against another store.

`Tx.runAlone` runs a transaction with nothing else running: every lock is free and
every answer comes from the one store. Running transactions one after another this way,
`Tx.serial`, is what concurrent runs are measured against.

Two of the store's calls are merged here into the call after which they always come.
Staging a balance touches only the transaction's own state, and a transaction always
inserts its ledger entry right after, so the two are one call, `Call.post`. Everything
else is one call each.
-/

namespace OnrampLedger

namespace Store

/-- Changes the wallet with id `id`, if there is one, field by field. -/
def modifyWallet (s : Store) (id : String) (f : Wallet → Wallet) : Store :=
  { s with
    wallets := match s.wallet? id with
      | some w => replaceFirst (·.id == id) (f w) s.wallets
      | none => s.wallets }

/-- The oldest purchase still pending of `wallet` through `provider` for `amount`. -/
def pendingOnRamp? (s : Store) (wallet provider : String) (amount : Decimal) : Option OnRamp :=
  s.onRamps.find? fun o => o.walletId == wallet && o.provider == provider && !o.completed && o.amount == amount

end Store

/-! ## Staged writes -/

/-- A write a transaction stages, checked and applied at its commit. -/
inductive Write where
  /-- Sets a wallet's balance and its update time. -/
  | balance (wallet : String) (balance : Decimal) (time : Instant)
  /-- Appends a ledger entry; refused if an entry has its key already. -/
  | entry (e : LedgerEntry)
  /-- Appends a provider event row; refused if the provider's payment id has a row. -/
  | insertEvent (row : WebhookEvent)
  /-- Writes a provider event row back; refused unless the row has the status expected. -/
  | updateEvent (row : WebhookEvent) (expected : WebhookStatus)
  /-- Writes a purchase back; refused unless it exists. -/
  | updateOnRamp (o : OnRamp)
  /-- Writes a missing-webhook case back; refused unless it has the status expected. -/
  | updateMissing (a : MissingWebhookAlert) (expected : ReviewStatus)
  /-- Flags a wallet for review; refused unless the wallet exists. -/
  | flag (wallet reason : String) (delta : Decimal) (time : Instant)
  /-- Adds a dead letter; nothing is checked. -/
  | insertDeadLetter (d : DeadLetterItem)
  /-- Writes a dead letter back; refused unless it has the status expected. -/
  | updateDeadLetter (d : DeadLetterItem) (expected : ReviewStatus)

namespace Write

/-- The check a write must pass at commit. -/
def check (s : Store) : Write → Bool
  | .balance .. => true
  | .entry e => (s.entryByKey? e.key).isNone
  | .insertEvent row => (s.webhookByExternal? row.externalId).isNone
  | .updateEvent row expected => (s.webhook? row.id).any (·.status == expected)
  | .updateOnRamp o => (s.onRamp? o.id).isSome
  | .updateMissing a expected => (s.missing? a.id).any (·.status == expected)
  | .flag wallet .. => (s.wallet? wallet).isSome
  | .insertDeadLetter _ => true
  | .updateDeadLetter d expected => (s.deadLetter? d.id).any (·.status == expected)

/-- What a write does to the store. -/
def apply (s : Store) : Write → Store
  | .balance wallet b time => s.modifyWallet wallet fun w => { w with balance := b, updatedAt := time }
  | .entry e => { s with ledger := s.ledger ++ [e] }
  | .insertEvent row => { s with webhooks := s.webhooks ++ [row] }
  | .updateEvent row _ => s.putWebhook row
  | .updateOnRamp o => s.putOnRamp o
  | .updateMissing a _ => s.putMissing a
  | .flag wallet reason delta time => s.modifyWallet wallet fun w =>
      { w with flagged := true, flagReason := reason, flaggedAt := some time, flagDelta := some delta }
  | .insertDeadLetter d => { s with deadLetters := s.deadLetters ++ [d] }
  | .updateDeadLetter d _ => s.putDeadLetter d

end Write

/-- The store after a commit of `ws`: every check runs against the store as it stands,
and the writes are applied in order only if all pass. -/
def Store.commit? (s : Store) (ws : List Write) : Option Store :=
  if ws.all (·.check s) then some (ws.foldl Write.apply s) else none

/-! ## Calls -/

/-- One call a transaction makes to the store. -/
inductive Call where
  /-- The transaction's own copy of a row it locked, if it did. -/
  | cached (wallet : String)
  /-- Fails unless the wallet exists: the first step of locking it. -/
  | present (wallet : String)
  /-- Waits until no transaction holds the wallet's row lock, and takes it. -/
  | acquire (wallet : String)
  /-- Reads a wallet's row, under its lock, and keeps a copy; fails if it is gone. -/
  | readRow (wallet : String)
  /-- The entry under a key: one staged by the transaction, or else one in the store. -/
  | entryByKey (key : String)
  /-- The row of a provider payment: one staged by the transaction, or else the store's. -/
  | eventByExternal (externalId : String)
  /-- The id and currency of a user's wallet. -/
  | walletOfUser (user : String)
  /-- The oldest pending purchase of a wallet through a provider for an amount. -/
  | pendingOnRamp (wallet provider : String) (amount : Decimal)
  /-- The credits and the debits of a wallet's entries. -/
  | ledgerSums (wallet : String)
  /-- The balance after a wallet's newest entry, zero when it has none. -/
  | latestAfter (wallet : String)
  /-- Stages an entry and its wallet's new balance, moving the transaction's copy of the
  row; fails unless the row is locked by the transaction and no entry, in the store or
  staged, has the entry's key. -/
  | post (e : LedgerEntry)
  /-- Stages a new provider event row; fails if the payment has a row in the store. -/
  | insertEvent (row : WebhookEvent)
  /-- Stages a write with no check now: a provider event row, a purchase, a
  missing-webhook case or a dead letter written back, a dead letter added, or a wallet
  flagged. -/
  | stage (w : Write)

/-- What a call answers when it does not fail. -/
abbrev Call.Answer : Call → Type
  | .cached _ => Option Wallet
  | .present _ => Unit
  | .acquire _ => Unit
  | .readRow _ => Wallet
  | .entryByKey _ => Option LedgerEntry
  | .eventByExternal _ => Option WebhookEvent
  | .walletOfUser _ => Option (String × String)
  | .pendingOnRamp .. => Option OnRamp
  | .ledgerSums _ => Decimal × Decimal
  | .latestAfter _ => Decimal
  | .post _ => Unit
  | .insertEvent _ => Unit
  | .stage _ => Unit

/-- A fact a call read from the store. -/
inductive Reading where
  | present (wallet : String)
  | row (wallet : String) (w : Wallet)
  | key (key : String) (e : Option LedgerEntry)
  | event (externalId : String) (row : Option WebhookEvent)
  | user (user : String) (wallet : Option (String × String))
  | sums (wallet : String) (sums : Decimal × Decimal)
  | latest (wallet : String) (after : Decimal)

/-- The store shows the fact. -/
def Reading.Holds (s : Store) : Reading → Prop
  | .present id => (s.wallet? id).isSome
  | .row id w => s.wallet? id = some w
  | .key k e => s.entryByKey? k = e
  | .event x r => s.webhookByExternal? x = r
  | .user u a => (s.walletOfUser? u).map (fun w => (w.id, w.currency)) = a
  | .sums id v => Store.sumsOf (s.entriesOf id) = v
  | .latest id v => s.latestAfter id = v

/-- What a transaction holds between its calls. -/
structure TxState where
  /-- The row locks it took, in order. -/
  held : List String
  /-- Its copies of the rows it locked, with the balances it staged. -/
  cache : List Wallet
  /-- The entries it staged. -/
  entries : List LedgerEntry
  /-- The provider event rows it staged as new. -/
  events : List WebhookEvent
  /-- Its staged writes, in order. -/
  writes : List Write
  /-- What its calls read from the store, in order. -/
  seen : List Reading

/-- A transaction before its first call. -/
def TxState.empty : TxState := ⟨[], [], [], [], [], []⟩

namespace Call

/-- What the call answers against store `s`, or `none` when it fails. Waiting for a
lock is not decided here: a lone transaction never waits. -/
def result (s : Store) (t : TxState) : (c : Call) → Option c.Answer
  | .cached id => some (t.cache.find? (·.id == id))
  | .present id => if (s.wallet? id).isSome then some () else none
  | .acquire _ => some ()
  | .readRow id => s.wallet? id
  | .entryByKey k => some ((t.entries.find? (·.key == k)).or (s.entryByKey? k))
  | .eventByExternal x => some ((t.events.find? (·.externalId == x)).or (s.webhookByExternal? x))
  | .walletOfUser u => some ((s.walletOfUser? u).map fun w => (w.id, w.currency))
  | .pendingOnRamp w p a => some (s.pendingOnRamp? w p a)
  | .ledgerSums id => some (Store.sumsOf (s.entriesOf id))
  | .latestAfter id => some (s.latestAfter id)
  | .post e =>
    if (t.cache.find? (·.id == e.wallet)).isSome && (s.entryByKey? e.key).isNone &&
        (e.key == "" || (t.entries.find? (·.key == e.key)).isNone) then some ()
    else none
  | .insertEvent row => if (s.webhookByExternal? row.externalId).isNone then some () else none
  | .stage _ => some ()

/-- The transaction's state after the call answered `a`, with what the call read from
the store recorded. Lookups answered from the transaction's own staged rows read nothing. -/
def next (t : TxState) : (c : Call) → c.Answer → TxState
  | .cached _, _ => t
  | .present id, _ => { t with seen := t.seen ++ [.present id] }
  | .acquire id, _ => { t with held := t.held ++ [id] }
  | .readRow id, w => { t with cache := t.cache ++ [w], seen := t.seen ++ [.row id w] }
  | .entryByKey k, e =>
    if (t.entries.find? (·.key == k)).isSome then t else { t with seen := t.seen ++ [.key k e] }
  | .eventByExternal x, r =>
    if (t.events.find? (·.externalId == x)).isSome then t
    else { t with seen := t.seen ++ [.event x r] }
  | .walletOfUser u, a => { t with seen := t.seen ++ [.user u a] }
  | .pendingOnRamp .., _ => t
  | .ledgerSums id, v => { t with seen := t.seen ++ [.sums id v] }
  | .latestAfter id, v => { t with seen := t.seen ++ [.latest id v] }
  | .post e, _ =>
    { t with
      cache := t.cache.map fun w =>
        if w.id == e.wallet then { w with balance := e.after, updatedAt := e.createdAt } else w
      entries := t.entries ++ [e]
      writes := t.writes ++ [.balance e.wallet e.after e.createdAt, .entry e]
      seen := t.seen ++ [.key e.key none] }
  | .insertEvent row, _ =>
    { t with events := t.events ++ [row], writes := t.writes ++ [.insertEvent row],
             seen := t.seen ++ [.event row.externalId none] }
  | .stage w, _ => { t with writes := t.writes ++ [w] }

end Call

/-! ## Transactions -/

/-- A transaction: calls, each continuing with what it answered, ending in a commit or
a rollback. -/
inductive Tx where
  | commit
  | rollback
  | call (c : Call) (k : c.Answer → Tx)

namespace Tx

/-- The store after `tx` runs from state `t` with nothing else running: answers come
from `s`, which does not change before the commit; a failed call rolls back. -/
def runAlone (s : Store) : Tx → TxState → Store
  | .commit, t => (s.commit? t.writes).getD s
  | .rollback, _ => s
  | .call c k, t =>
    match c.result s t with
    | some a => (k a).runAlone s (c.next t a)
    | none => s

/-- Transactions run one after another, each alone. -/
def serial (s : Store) (txs : List Tx) : Store :=
  txs.foldl (fun s tx => tx.runAlone s TxState.empty) s

end Tx

end OnrampLedger
