import OnrampLedger.Store.Transaction
import OnrampLedger.Service.Intake
import OnrampLedger.Service.Integrity
import OnrampLedger.Service.Reconcile

/-!
# The engine's transactions, call by call

The transactions of the engine as the store sees them, each a `Tx` that makes the
store calls its operation makes inside its transaction, in the same order, branching on
what they answer the way the operation does:

* `Tx.credit` — a credit (also a manual credit): the credit inside a transaction, and
  the commit.
* `Tx.debit` — a debit: the wallet locked, its owner checked, its key looked up under
  the lock, its balance checked, and the entry written.
* `Tx.transfer` — a transfer: both wallets locked in order of their ids, the sender's
  ownership, the currencies, the sender's key and its balance checked, then the two
  entries.
* `Tx.process` — processing a provider payment: its row looked up, the user's wallet
  found, the credit, the row written processed, and the matching purchase completed.
* `Tx.replay` — replaying a missing-webhook case: the purchase completed, the credit,
  and the case settled, on condition that it is still pending.
* `Tx.flagSuspects` — the integrity monitor's flags: the suspects locked, each compared
  again with its ledger under its lock, and those still out of step flagged.

Each takes what its operation fixed before the transaction began: the request as its
checks left it, the ids drawn for the rows it may write, and the time. `EngineTx` names
one of them with those values.
-/

namespace OnrampLedger

namespace Tx

/-- Locks a wallet the transaction has not locked yet and continues with its row: the
wallet must exist, its lock is taken, and its row is read under the lock. -/
def lockFresh (id : String) (k : Wallet → Tx) : Tx :=
  .call (.present id) fun _ => .call (.acquire id) fun _ => .call (.readRow id) k

/-- Locks a wallet and continues with its row: the transaction's own copy if it locked
the row already, or else the row read under a lock newly taken. -/
def lockWallet (id : String) (k : Wallet → Tx) : Tx :=
  .call (.cached id) fun
    | some w => k w
    | none => lockFresh id k

/-- Locks the wallets in the order given and continues with their rows in that order. -/
def lockEach : List String → (List Wallet → Tx) → Tx
  | [], k => k []
  | id :: ids, k => lockWallet id fun w => lockEach ids fun ws => k (w :: ws)

/-- Locks several wallets, each once, in ascending order of their ids, so that two
transactions never wait for each other's locks in a circle. -/
def lockWallets (ids : List String) (k : List Wallet → Tx) : Tx :=
  lockEach (ids.eraseDups.mergeSort fun a b => decide (a ≤ b)) k

/-- The entry that moves the balance of `w` by `amount` as an entry of `type`. -/
def postedEntry (w : Wallet) (type : EntryType) (amount : Decimal)
    (key reference description : String) (source : Source) (providerEventId entryId : String)
    (now : Instant) : LedgerEntry :=
  ⟨entryId, w.id, type, amount, w.balance, type.applyTo w.balance amount, key, reference,
    description, source, providerEventId, now⟩

/-- Writes one entry to the locked wallet `w` and moves its balance, then continues with
the wallet and the entry; a balance that would go below zero is refused. -/
def applyEntry (w : Wallet) (type : EntryType) (amount : Decimal)
    (key reference description : String) (source : Source) (providerEventId entryId : String)
    (now : Instant) (k : Mutation → Tx) : Tx :=
  let e := postedEntry w type amount key reference description source providerEventId entryId now
  if e.after < 0 then .rollback
  else .call (.post e) fun _ => k ({ w with balance := e.after, updatedAt := now }, e)

/-- What a credit checks before its first call: who may credit, a positive amount of
whole cents, a reference, and a credit type, a deposit when none is named. -/
def creditTerms (r : CreditRequest) : Option (Source × Decimal × EntryType) :=
  let source? : Option Source := match Source.ofName? r.source with
    | some .admin => if r.actor.isAdmin then some .admin else none
    | some .webhook => if r.verified && r.providerEventId != "" then some .webhook else none
    | _ => none
  match source?, normalizeAmount r.amount, EntryType.ofName? (if r.type = "" then "deposit" else r.type) with
  | some source, .ok amount, some type =>
    if r.reference != "" && type.isCredit then some (source, amount, type) else none
  | _, _, _ => none

/-- A credit inside the caller's transaction, continuing with the id of the entry it
wrote, or of the entry already under its key, in which case it writes nothing. -/
def creditIn (r : CreditRequest) (entryId : String) (now : Instant) (k : String → Tx) : Tx :=
  match creditTerms r with
  | none => .rollback
  | some (source, amount, type) =>
    lockWallet r.wallet fun w =>
      .call (.entryByKey (Wallets.creditKey r)) fun
        | some e => k e.id
        | none =>
          applyEntry w type amount (Wallets.creditKey r) r.reference r.description source
            r.providerEventId entryId now fun m => k m.2.id

/-- The transaction of a credit. -/
def credit (r : CreditRequest) (entryId : String) (now : Instant) : Tx :=
  creditIn r entryId now fun _ => .commit

/-- A debit whose key was found free, with its wallet's row: the balance checked, and
the entry written. -/
def debitFree (r : DebitRequest) (amount : Decimal) (type : EntryType) (entryId : String)
    (now : Instant) (w : Wallet) : Tx :=
  if w.balance < amount then .rollback
  else applyEntry w type amount (Wallets.debitKey r) r.reference "" .user "" entryId now fun _ => .commit

/-- A debit by the owner of the wallet whose row `w` it read under the lock: its key is
looked up under the lock, and a key already taken refuses it. -/
def debitOwned (r : DebitRequest) (amount : Decimal) (type : EntryType) (entryId : String)
    (now : Instant) (w : Wallet) : Tx :=
  .call (.entryByKey (Wallets.debitKey r)) fun
    | some _ => .rollback
    | none => debitFree r amount type entryId now w

/-- A debit once its wallet is locked, with the row read: the owner checked first. -/
def debitLocked (r : DebitRequest) (amount : Decimal) (type : EntryType) (entryId : String)
    (now : Instant) (w : Wallet) : Tx :=
  if w.userId != r.actor.id then .rollback else debitOwned r amount type entryId now w

/-- The transaction of a debit of `amount` as an entry of `type`, the values its checks
accepted. -/
def debit (r : DebitRequest) (amount : Decimal) (type : EntryType) (entryId : String)
    (now : Instant) : Tx :=
  lockWallet r.wallet (debitLocked r amount type entryId now)

/-- The transaction of a transfer of `amount`. A transfer between one wallet and itself
is refused before any transaction. -/
def transfer (r : TransferRequest) (amount : Decimal) (outId inId : String) (now : Instant) :
    Tx :=
  let ref := "transfer:" ++ r.reference
  let inRef := "transfer:" ++ r.source ++ ":" ++ r.reference
  let outKey := (IdempotencyKey.debit "user" ref r.source).render
  let inKey := (IdempotencyKey.credit "user" inRef r.target).render
  if r.source == r.target then .rollback
  else
    lockWallets [r.source, r.target] fun locked =>
      match locked.find? (·.id == r.source), locked.find? (·.id == r.target) with
      | some src, some dst =>
        if src.userId != r.actor.id || src.currency != dst.currency then .rollback
        else
          .call (.entryByKey outKey) fun
            | some _ => .rollback
            | none =>
              if src.balance < amount then .rollback
              else
                applyEntry src .transferOut amount outKey ref ("transfer to " ++ dst.id) .user ""
                  outId now fun _ =>
                applyEntry dst .transferIn amount inKey inRef ("transfer from " ++ src.id) .user ""
                  inId now fun _ => .commit
      | _, _ => .rollback

/-- Marks the purchase found, if one was, completed, and commits. -/
def completeFound (now : Instant) : Option OnRamp → Tx
  | some o => .call (.stage (.updateOnRamp { o with completedAt := some now })) fun _ => .commit
  | none => .commit

/-- Completes the oldest pending purchase of a wallet through a provider for an amount,
if there is one, and commits. -/
def completeOnRamp (wallet provider : String) (amount : Decimal) (now : Instant) : Tx :=
  .call (.pendingOnRamp wallet provider amount) (completeFound now)

/-- The transaction of processing a payment, verified and completed. A payment whose row
is processed or dead-lettered commits with nothing written; otherwise the credit is
made, or found made, and the row is written processed: a new row under `rowId`, or the
earlier row, on condition that its status is still the one read. -/
def process (ev : PaymentEvent) (rowId entryId : String) (now : Instant) : Tx :=
  .call (.eventByExternal ev.externalId) fun prior =>
    if prior.any fun p => p.status == .processed || p.status == .deadLetter then .commit
    else
      .call (.walletOfUser ev.userId) fun
        | none => .rollback
        | some (walletId, currency) =>
          if !(ev.currency == "" || Text.equalFold ev.currency currency) then .rollback
          else
            creditIn (Intake.creditFor ev walletId) entryId now fun credited =>
              match prior with
              | none =>
                .call (.insertEvent ⟨rowId, ev.provider, ev.externalId, ev.payloadHash, .processed,
                    0, none, none, credited, walletId, "", now, now⟩) fun _ =>
                  completeOnRamp walletId ev.provider ev.amount now
              | some p =>
                let row : WebhookEvent := { p with
                  errorMessage := "", status := .processed, transactionId := credited,
                  walletId := walletId, updatedAt := now }
                .call (.stage (.updateEvent row p.status)) fun _ =>
                  completeOnRamp walletId ev.provider ev.amount now

/-- The transaction of replaying the missing-webhook case `a`, as it will be written
settled, for its purchase `o`, both read before the transaction: the purchase is
completed if it was not, the credit is made, and the case is written on condition that
it is still pending. -/
def replay (a : MissingWebhookAlert) (o : OnRamp) (admin : Actor) (entryId : String)
    (now : Instant) : Tx :=
  let rest : Tx :=
    if !admin.isAdmin then .rollback
    else
      creditIn (Reconcile.replayCredit a o admin) entryId now fun _ =>
        .call (.stage (.updateMissing a .pending)) fun _ => .commit
  if !o.completed then .call (.stage (.updateOnRamp { o with completedAt := some now })) fun _ => rest
  else rest

/-- Flags, in the order given, the locked wallets that still disagree with their ledger
and are not flagged for that already, then commits. -/
def flagEach (locked : List Wallet) (now : Instant) : List String → Tx
  | [] => .commit
  | id :: ids =>
    match locked.find? (·.id == id) with
    | none => .rollback
    | some w =>
      .call (.ledgerSums id) fun sums =>
        .call (.latestAfter id) fun latest =>
          match Integrity.mismatch w (sums.1 - sums.2) latest with
          | none => flagEach locked now ids
          | some m =>
            if w.flagged && w.flagReason == Integrity.flagReason then flagEach locked now ids
            else
              .call (.stage (.flag id Integrity.flagReason m.delta now)) fun _ =>
                flagEach locked now ids

/-- The transaction of the integrity monitor's flags for the suspects `ids`: all are
locked, then each is compared again under its lock. -/
def flagSuspects (ids : List String) (now : Instant) : Tx :=
  lockWallets ids fun locked => flagEach locked now ids

end Tx

/-- One of the engine's transactions, with what its operation fixed before it began. -/
inductive EngineTx where
  | credit (r : CreditRequest) (entryId : String) (now : Instant)
  | debit (r : DebitRequest) (amount : Decimal) (type : EntryType) (entryId : String)
      (now : Instant)
  | transfer (r : TransferRequest) (amount : Decimal) (outId inId : String) (now : Instant)
  | process (ev : PaymentEvent) (rowId entryId : String) (now : Instant)
  | replay (a : MissingWebhookAlert) (o : OnRamp) (admin : Actor) (entryId : String)
      (now : Instant)
  | flag (ids : List String) (now : Instant)

namespace EngineTx

/-- The transaction's calls. -/
def body : EngineTx → Tx
  | .credit r entryId now => Tx.credit r entryId now
  | .debit r amount type entryId now => Tx.debit r amount type entryId now
  | .transfer r amount outId inId now => Tx.transfer r amount outId inId now
  | .process ev rowId entryId now => Tx.process ev rowId entryId now
  | .replay a o admin entryId now => Tx.replay a o admin entryId now
  | .flag ids now => Tx.flagSuspects ids now

/-- The id a new provider event row of the transaction gets, for the one kind that may
write one. -/
def newRow : EngineTx → Option String
  | .process _ rowId _ _ => some rowId
  | _ => none

end EngineTx

end OnrampLedger
