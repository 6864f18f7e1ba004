import OnrampLedger.Store.Transaction

/-!
# The memory store, call by call

The store keeps each table in the order its rows were first added and, beside the
tables, four index maps from a row's unique key to the row: a user to the id of their
wallet, an idempotency key to the position of its entry in the ledger, a provider's
payment id to the id of its row, and a purchase to the id of its missing-webhook case.
The checks that keep those keys unique look the key up in its map.

A map is set when its row is added, and at no other time: writing a row back puts the
new row under its id and leaves the maps as they were. A row written back with another
key than it had stays indexed under its old key, and not under its new one.

Callers use the store in two ways. A call outside any transaction (`StoreCall`) is
checked and applied at once, under the store's write lock. A transaction stages its
writes (`Write`) and applies them at its commit: every check runs first, in the order
the writes were staged, against the store as it stands; the first that fails is the
commit's error and nothing is applied; otherwise every write is applied, in order. Two
calls of a transaction check at once as well, before they stage: an entry's key against
the map and against the entries the transaction staged before, and a payment's id
against the map only.

A run is any sequence of calls (`MemoryCall`): transactions begun, calls of any of them,
and calls outside any, in any order (`Memory.run`). Reads change nothing and are left
out; so is a wait for a row lock that runs out of time, which ends the call with an
error and changes nothing either.
-/

namespace OnrampLedger

/-- An error of the store: the row or key it concerns, worded as the store words it, and
what went wrong. -/
inductive StoreError where
  /-- No row under the id. -/
  | notFound (what : String)
  /-- A unique key already taken. -/
  | duplicate (what : String)
  /-- A row written back whose status is not the one expected. -/
  | conflict (what : String)
  /-- A call of a transaction that committed or rolled back. -/
  | txDone
  /-- A balance set on a wallet whose row the transaction has not locked. -/
  | notLocked (wallet : String)
  deriving DecidableEq, Repr

/-- Puts `x` under its key in a table kept as a map by key, in the order keys were first
added: over the row with that key if there is one, and last otherwise. -/
def putByKey {α : Type} (key : α → String) (x : α) (l : List α) : List α :=
  if l.any (key · == key x) then replaceFirst (key · == key x) x l else l ++ [x]

/-- A map from keys with key `k` set to `v`. -/
def setKey {α : Type} (m : String → Option α) (k : String) (v : α) : String → Option α :=
  fun k' => if k' = k then some v else m k'

/-- The store's tables and its index maps. -/
structure MemoryStore where
  tables : Store
  /-- The id of each user's wallet. -/
  walletByUser : String → Option String
  /-- The position in the ledger of the entry under each idempotency key. -/
  ledgerByKey : String → Option Nat
  /-- The id of the row of each provider payment. -/
  webhookByExt : String → Option String
  /-- The id of the missing-webhook case of each purchase. -/
  missingByOnRamp : String → Option String

namespace MemoryStore

/-- The store with no rows. -/
def empty : MemoryStore := ⟨Store.empty, fun _ => none, fun _ => none, fun _ => none, fun _ => none⟩

/-- The check of a staged write against the store as it stands: the error it fails
with, if it fails. -/
def check (m : MemoryStore) : Write → Option StoreError
  | .balance .. | .insertDeadLetter _ => none
  | .entry e =>
    if e.key ≠ "" ∧ (m.ledgerByKey e.key).isSome then some (.duplicate ("idempotency key " ++ e.key))
    else none
  | .insertEvent row =>
    if (m.webhookByExt row.externalId).isSome then some (.duplicate ("webhook " ++ row.externalId))
    else none
  | .updateEvent row expected =>
    match m.tables.webhook? row.id with
    | none => some (.notFound ("webhook event " ++ row.id))
    | some cur =>
      if cur.status = expected then none
      else some (.conflict ("webhook event " ++ row.id ++ " is " ++ cur.status.name ++ ", expected " ++
        expected.name))
  | .updateOnRamp o =>
    if (m.tables.onRamp? o.id).isSome then none else some (.notFound ("onramp " ++ o.id))
  | .updateMissing a expected =>
    match m.tables.missing? a.id with
    | none => some (.notFound ("missing webhook alert " ++ a.id))
    | some cur =>
      if cur.status = expected then none
      else some (.conflict ("missing webhook alert " ++ a.id ++ " is " ++ cur.status.name))
  | .flag wallet .. =>
    if (m.tables.wallet? wallet).isSome then none else some (.notFound ("wallet " ++ wallet))
  | .updateDeadLetter d expected =>
    match m.tables.deadLetter? d.id with
    | none => some (.notFound ("dead letter " ++ d.id))
    | some cur =>
      if cur.status = expected then none
      else some (.conflict ("dead letter " ++ d.id ++ " is " ++ cur.status.name))

/-- What a staged write does to the store. An entry is appended and indexed under its
key, when it has one; a new payment row is put under its id and indexed under its
payment id; a new dead letter is put under its id. Every other write changes its row as
`Write.apply` does, and no map. -/
def apply (m : MemoryStore) : Write → MemoryStore
  | .entry e =>
    { m with
      tables := { m.tables with ledger := m.tables.ledger ++ [e] }
      ledgerByKey := if e.key = "" then m.ledgerByKey else setKey m.ledgerByKey e.key m.tables.ledger.length }
  | .insertEvent row =>
    { m with
      tables := { m.tables with webhooks := putByKey (·.id) row m.tables.webhooks }
      webhookByExt := setKey m.webhookByExt row.externalId row.id }
  | .insertDeadLetter d =>
    { m with tables := { m.tables with deadLetters := putByKey (·.id) d m.tables.deadLetters } }
  | w => { m with tables := w.apply m.tables }

/-- A commit of writes staged in order: the error of the first that fails its check, with
nothing applied; otherwise the store with every write applied, in order. -/
def commit (m : MemoryStore) (ws : List Write) : Except StoreError MemoryStore :=
  match ws.findSome? m.check with
  | some e => .error e
  | none => .ok (ws.foldl apply m)

end MemoryStore

/-! ## Calls outside any transaction -/

/-- A call of the store outside any transaction. -/
inductive StoreCall where
  /-- Adds a wallet; refused if its owner has one, or its id is taken. -/
  | createWallet (w : Wallet)
  /-- Clears a wallet's review flag. -/
  | clearWalletFlag (wallet : String) (time : Instant)
  /-- Overwrites a wallet's balance, with no entry. -/
  | setWalletBalance (wallet : String) (balance : Decimal)
  /-- Adds a provider event row; refused if its payment has a row. -/
  | insertWebhookEvent (row : WebhookEvent)
  /-- Writes a provider event row back, on condition of its status. -/
  | updateWebhookEvent (row : WebhookEvent) (expected : WebhookStatus)
  /-- Adds a purchase; refused if its id is taken. -/
  | createOnRamp (o : OnRamp)
  /-- Adds a missing-webhook case; refused if its purchase has one. -/
  | insertMissing (a : MissingWebhookAlert)
  /-- Writes a missing-webhook case back, on condition of its status. -/
  | updateMissing (a : MissingWebhookAlert) (expected : ReviewStatus)
  /-- Writes a dead letter back, on condition of its status. -/
  | updateDeadLetter (d : DeadLetterItem) (expected : ReviewStatus)
  /-- Adds an alert; refused if its id is taken. -/
  | insertAlert (a : AlertLog)
  /-- Writes back the acknowledgement and resolution of an alert. -/
  | updateAlert (a : AlertLog)

/-- What a call outside any transaction does: the store after it, or its error. The
four that a transaction may also stage are checked and applied as a commit of that one
write. -/
def MemoryStore.call (m : MemoryStore) : StoreCall → Except StoreError MemoryStore
  | .createWallet w =>
    if (m.walletByUser w.userId).isSome then .error (.duplicate ("wallet for user " ++ w.userId))
    else if (m.tables.wallet? w.id).isSome then .error (.duplicate ("wallet " ++ w.id))
    else .ok { m with
      tables := { m.tables with wallets := m.tables.wallets ++ [w] }
      walletByUser := setKey m.walletByUser w.userId w.id }
  | .clearWalletFlag id time =>
    if (m.tables.wallet? id).isSome then
      .ok { m with tables := m.tables.modifyWallet id fun w =>
        { w with flagged := false, flagReason := "", flaggedAt := none, flagDelta := none,
                 updatedAt := time } }
    else .error (.notFound ("wallet " ++ id))
  | .setWalletBalance id b => .ok { m with tables := m.tables.modifyWallet id fun w => { w with balance := b } }
  | .insertWebhookEvent row => m.commit [.insertEvent row]
  | .updateWebhookEvent row expected => m.commit [.updateEvent row expected]
  | .createOnRamp o =>
    if (m.tables.onRamp? o.id).isSome then .error (.duplicate ("onramp " ++ o.id))
    else .ok { m with tables := { m.tables with onRamps := m.tables.onRamps ++ [o] } }
  | .insertMissing a =>
    if (m.missingByOnRamp a.onRampId).isSome then
      .error (.duplicate ("missing webhook alert for onramp " ++ a.onRampId))
    else .ok { m with
      tables := { m.tables with missing := putByKey (·.id) a m.tables.missing }
      missingByOnRamp := setKey m.missingByOnRamp a.onRampId a.id }
  | .updateMissing a expected => m.commit [.updateMissing a expected]
  | .updateDeadLetter d expected => m.commit [.updateDeadLetter d expected]
  | .insertAlert a =>
    if (m.tables.alert? a.id).isSome then .error (.duplicate ("alert " ++ a.id))
    else .ok { m with tables := { m.tables with alerts := m.tables.alerts ++ [a] } }
  | .updateAlert a =>
    match m.tables.alert? a.id with
    | none => .error (.notFound ("alert " ++ a.id))
    | some cur =>
      .ok { m with tables := m.tables.putAlert { cur with
        acknowledgedAt := a.acknowledgedAt, resolved := a.resolved, resolvedBy := a.resolvedBy,
        resolvedAt := a.resolvedAt } }

/-! ## Transactions -/

/-- What a transaction holds. -/
structure MemTx where
  /-- The wallets whose row locks it holds. -/
  held : List String
  /-- Its copies of the rows it locked, with the balances it set. -/
  wallets : List Wallet
  /-- The entries it staged. -/
  entries : List LedgerEntry
  /-- The provider event rows it staged as new. -/
  webhooks : List WebhookEvent
  /-- Its staged writes, in order. -/
  ops : List Write
  /-- It committed or rolled back. -/
  done : Bool

/-- A transaction just begun. -/
def MemTx.empty : MemTx := ⟨[], [], [], [], [], false⟩

/-- The transaction with one more write staged. -/
def MemTx.stage (t : MemTx) (w : Write) : MemTx := { t with ops := t.ops ++ [w] }

/-- The transaction closed: it takes no more calls and holds no lock. -/
def MemTx.close (t : MemTx) : MemTx := { t with done := true, held := [] }

/-- A call of a transaction. -/
inductive TxCall where
  /-- Locks a wallet's row and keeps a copy of it. -/
  | lockWallet (wallet : String)
  /-- Sets the balance of a locked wallet. -/
  | updateWalletBalance (wallet : String) (balance : Decimal) (time : Instant)
  | flagWallet (wallet reason : String) (delta : Decimal) (time : Instant)
  /-- Stages an entry; refused at once if its key, when not empty, is taken in the store
  or by an entry the transaction staged. -/
  | insertLedgerEntry (e : LedgerEntry)
  /-- Stages a new provider event row; refused at once if its payment has a row in the
  store. -/
  | insertWebhookEvent (row : WebhookEvent)
  | updateWebhookEvent (row : WebhookEvent) (expected : WebhookStatus)
  | insertDeadLetter (d : DeadLetterItem)
  | updateDeadLetter (d : DeadLetterItem) (expected : ReviewStatus)
  | updateOnRamp (o : OnRamp)
  | updateMissing (a : MissingWebhookAlert) (expected : ReviewStatus)
  | commit
  | rollback

/-- What a call answers. -/
inductive Reply where
  | ok
  | error (e : StoreError)
  deriving DecidableEq, Repr

/-- The store with the transactions begun on it, each under the number of transactions
begun before it. -/
structure Memory where
  store : MemoryStore
  txs : List MemTx

/-- A call: a transaction begun, a call of transaction `h`, or a call outside any
transaction. -/
inductive MemoryCall where
  | begin
  | tx (h : Nat) (c : TxCall)
  | store (c : StoreCall)

namespace Memory

/-- The store with no rows and no transaction. -/
def empty : Memory := ⟨MemoryStore.empty, []⟩

/-- Transaction `h` in state `t`. -/
def setTx (M : Memory) (h : Nat) (t : MemTx) : Memory := { M with txs := M.txs.set h t }

/-- A call of transaction `h`, open in state `t`: the memory after it and the reply, or
`none` while the call waits for a row lock another transaction holds. -/
def onTx (M : Memory) (h : Nat) (t : MemTx) : TxCall → Option (Memory × Reply)
  | .lockWallet id =>
    if t.wallets.any (·.id == id) then some (M, .ok)
    else
      match M.store.tables.wallet? id with
      | none => some (M, .error (.notFound ("wallet " ++ id)))
      | some w =>
        if M.txs.any (·.held.contains id) then none
        else some (M.setTx h { t with held := t.held ++ [id], wallets := t.wallets ++ [w] }, .ok)
  | .updateWalletBalance id b time =>
    if t.wallets.any (·.id == id) then
      some (M.setTx h { t.stage (.balance id b time) with
        wallets := t.wallets.map fun w => if w.id == id then { w with balance := b, updatedAt := time } else w },
        .ok)
    else some (M, .error (.notLocked id))
  | .flagWallet id reason delta time => some (M.setTx h (t.stage (.flag id reason delta time)), .ok)
  | .insertLedgerEntry e =>
    if e.key ≠ "" ∧ ((M.store.ledgerByKey e.key).isSome ∨ t.entries.any (·.key == e.key)) then
      some (M, .error (.duplicate ("idempotency key " ++ e.key)))
    else some (M.setTx h { t.stage (.entry e) with entries := t.entries ++ [e] }, .ok)
  | .insertWebhookEvent row =>
    if (M.store.webhookByExt row.externalId).isSome then
      some (M, .error (.duplicate ("webhook " ++ row.externalId)))
    else some (M.setTx h { t.stage (.insertEvent row) with webhooks := t.webhooks ++ [row] }, .ok)
  | .updateWebhookEvent row expected => some (M.setTx h (t.stage (.updateEvent row expected)), .ok)
  | .insertDeadLetter d => some (M.setTx h (t.stage (.insertDeadLetter d)), .ok)
  | .updateDeadLetter d expected => some (M.setTx h (t.stage (.updateDeadLetter d expected)), .ok)
  | .updateOnRamp o => some (M.setTx h (t.stage (.updateOnRamp o)), .ok)
  | .updateMissing a expected => some (M.setTx h (t.stage (.updateMissing a expected)), .ok)
  | .commit =>
    match M.store.commit t.ops with
    | .ok m => some ({ M with store := m }.setTx h t.close, .ok)
    | .error e => some (M.setTx h t.close, .error e)
  | .rollback => some (M.setTx h t.close, .ok)

/-- What a call does: the memory after it and its reply, or `none` when the call cannot
be made now: a call of a transaction never begun, or one waiting for a row lock. A
closed transaction refuses every call but a rollback, which answers with no error. -/
def step (M : Memory) : MemoryCall → Option (Memory × Reply)
  | .begin => some ({ M with txs := M.txs ++ [MemTx.empty] }, .ok)
  | .store c =>
    match M.store.call c with
    | .ok m => some ({ M with store := m }, .ok)
    | .error e => some (M, .error e)
  | .tx h c =>
    match M.txs[h]? with
    | none => none
    | some t =>
      if t.done then
        match c with
        | .rollback => some (M, .ok)
        | _ => some (M, .error .txDone)
      else M.onTx h t c

/-- The memory after a sequence of calls, each made when it can be and passed over
when it cannot. -/
def run (M : Memory) : List MemoryCall → Memory
  | [] => M
  | c :: cs => (((M.step c).map (·.1)).getD M).run cs

end Memory

end OnrampLedger
