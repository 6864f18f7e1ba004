import OnrampLedger.Store.Interleaving
import OnrampLedger.Service.Transactions
import OnrampLedger.Service.Retry

/-!
# The engine's calls running together

Besides its transactions, the engine writes payment rows by single store calls outside
any transaction, each writing back a whole copy of a row it read by an earlier call, on
condition that the row's status is still the one read:

* a retry cycle lists the rows due for an attempt, and then writes each back with one
  more attempt counted;
* a payment whose transaction failed has its failure written back on the row that
  transaction read (`Intake.markFailed`).

`Tx.writeBack` is such a call as a thread of `Machine` runs it: the read, then the
conditional write, with other threads free to run between the two. The engine's own
writers of that kind take the row as their caller read it, earlier, with other threads
free to run since:

* `Tx.recordFailure` — a payment's failure recorded on the row its transaction read, or
  on a new row when it read none;
* `Tx.retry` — one more attempt on a row a retry cycle listed, moving it to the dead
  letters, with its dead letter, once the retry limit is reached;
* `Tx.sendBack` — a dead letter sent back for retrying, its row failed again;
* `Tx.transition` — a dead letter settled or archived.

`EngineCall` names one thread of the engine: a transaction, or one of those writes.

A caller tells the ways its transaction can end apart by the store's errors
(`TxError`): a call or a commit check that finds a row or an entry's key taken is a
duplicate, a row written back whose status moved is a conflict. `Machine.endingOf`
follows a schedule and records how each thread's transaction ended; `Intake.deliveryOf`
reads off it what a delivery of a payment answers, the duplicate error counting as a
repeat of the payment.
-/

namespace OnrampLedger

namespace Intake

/-- A payment's row with the failure of its processing recorded: failed, with the
refusal's text, and with the user's wallet once it was found. -/
def markFailed (walletId message : String) (now : Instant) (p : WebhookEvent) : WebhookEvent :=
  { p with status := .failed, errorMessage := message, updatedAt := now,
           walletId := if walletId != "" then walletId else p.walletId }

end Intake

namespace Tx

/-- Writes back the row of payment `x` as `f` makes it from the copy read, on condition
that the row's status is still the one read; with no row, nothing is written. -/
def writeBack (x : String) (f : WebhookEvent → WebhookEvent) : Tx :=
  .call (.eventByExternal x) fun
    | some p => .call (.stage (.updateEvent (f p) p.status)) fun _ => .commit
    | none => .rollback

/-- The failure of a payment's processing written down outside its transaction, with
what that transaction read of the payment's row (`prior`): a new failed row under
`rowId` when it read none, refused if the payment has a row by then; or else the row
read, written back failed on condition that its status is still the one read. -/
def recordFailure (ev : PaymentEvent) (prior : Option WebhookEvent)
    (walletId message rowId : String) (now : Instant) : Tx :=
  match prior with
  | none =>
    .call (.stage (.insertEvent ⟨rowId, ev.provider, ev.externalId, ev.payloadHash, .failed, 0,
      none, none, "", walletId, message, now, now⟩)) fun _ => .commit
  | some p =>
    .call (.stage (.updateEvent (Intake.markFailed walletId message now p) p.status)) fun _ =>
      .commit

/-- One more attempt counted on a row a retry cycle listed, as it was listed (`e`): the
row written back on condition that its status is still the one listed, and, once its
count of attempts reaches the retry limit `max`, moved to the dead letters with its dead
letter `letterId`, in one transaction. -/
def retry (max : Int) (now : Instant) (letterId : String) (e : WebhookEvent) : Tx :=
  let attempted := Retry.attempt max now e
  .call (.stage (.updateEvent attempted e.status)) fun _ =>
    if attempted.status = .deadLetter then
      .call (.stage (.insertDeadLetter (Retry.letter letterId max now attempted))) fun _ => .commit
    else .commit

/-- A dead letter `d` sent back for retrying by the operator `admin`, with its row `e` as
read: the row written back failed with no attempts counted, on condition that it is
still dead-lettered, and the dead letter settled as reprocessed, on condition that it is
still pending, in one transaction. -/
def sendBack (d : DeadLetterItem) (e : WebhookEvent) (admin : String) (now : Instant) : Tx :=
  let revived : WebhookEvent :=
    { e with status := .failed, retryCount := 0, deadLetterAt := none, updatedAt := now }
  let settled : DeadLetterItem :=
    { d with status := .manualReviewed, settlement := some ⟨.reprocessed, "", admin, now⟩ }
  .call (.stage (.updateEvent revived .deadLetter)) fun _ =>
    .call (.stage (.updateDeadLetter settled .pending)) fun _ => .commit

/-- A dead letter written back as `d`, settled or archived, on condition that its status
is still `expected`. -/
def transition (d : DeadLetterItem) (expected : ReviewStatus) : Tx :=
  .call (.stage (.updateDeadLetter d expected)) fun _ => .commit

end Tx

/-- One thread of the engine as the store sees it: one of its transactions, or one of
the writes it makes outside them with what its caller read before. -/
inductive EngineCall where
  | tx (t : EngineTx)
  | recordFailure (ev : PaymentEvent) (prior : Option WebhookEvent) (walletId message rowId : String)
      (now : Instant)
  | retry (max : Int) (now : Instant) (letterId : String) (e : WebhookEvent)
  | sendBack (d : DeadLetterItem) (e : WebhookEvent) (admin : String) (now : Instant)
  | transition (d : DeadLetterItem) (expected : ReviewStatus)

/-- The thread's calls. -/
def EngineCall.body : EngineCall → Tx
  | .tx t => t.body
  | .recordFailure ev prior walletId message rowId now =>
    Tx.recordFailure ev prior walletId message rowId now
  | .retry max now letterId e => Tx.retry max now letterId e
  | .sendBack d e admin now => Tx.sendBack d e admin now
  | .transition d expected => Tx.transition d expected

/-! ## How a transaction ends -/

/-- The error a transaction ends with, as its caller tells them apart. -/
inductive TxError where
  /-- A row or an entry whose key is taken: the store's duplicate error. -/
  | duplicate
  /-- A row written back whose status is no longer the one expected. -/
  | conflict
  /-- A row that is not there. -/
  | notFound
  /-- A wait for a row lock cut short. -/
  | lockWait
  /-- The operation's own refusal of what it read, or a row not locked. -/
  | refused
  deriving DecidableEq, Repr

/-- The error of the commit check of `w` when it fails on `s`. -/
def Write.refusal (s : Store) : Write → TxError
  | .entry _ | .insertEvent _ => .duplicate
  | .updateEvent row _ => if (s.webhook? row.id).isSome then .conflict else .notFound
  | .updateMissing a _ => if (s.missing? a.id).isSome then .conflict else .notFound
  | .updateDeadLetter d _ => if (s.deadLetter? d.id).isSome then .conflict else .notFound
  | .balance .. | .updateOnRamp _ | .flag .. | .insertDeadLetter _ => .notFound

/-- The error a commit of `ws` on `s` ends with: the commit checks its writes in order
and stops at the first that fails. -/
def Store.refusal (s : Store) (ws : List Write) : TxError :=
  ((ws.find? fun w => !w.check s).map (Write.refusal s)).getD .refused

/-- The error of call `c` when it fails in state `t`: a posting whose wallet is locked
fails only on its key; a new payment row only on a row already there. -/
def Call.error (t : TxState) : Call → TxError
  | .post e => if (t.cache.find? (·.id == e.wallet)).isSome then .duplicate else .refused
  | .insertEvent _ => .duplicate
  | _ => .notFound

/-- How a thread's transaction ended. -/
inductive Ending where
  | committed
  | failed (e : TxError)
  deriving DecidableEq, Repr

/-- The thread a scheduler's choice moves. -/
def Choice.thread {n : Nat} : Choice n → Fin n
  | .step i | .cancel i => i

namespace Machine

variable {n : Nat}

/-- How the scheduler's choice `c` ends the transaction of its thread, if it does: a
commit, passed or refused; a call that failed; a rollback; a wait cut short. -/
def ending (M : Machine n) : Choice n → Option Ending
  | .step i =>
    let th := M.threads i
    match th.phase with
    | .running .commit =>
      some (if (M.store.commit? th.state.writes).isSome then .committed
        else .failed (M.store.refusal th.state.writes))
    | .running .rollback => some (.failed .refused)
    | .running (.call c _) =>
      if M.blocked c || (c.result M.store th.state).isSome then none
      else some (.failed (c.error th.state))
    | _ => none
  | .cancel i =>
    match (M.threads i).phase with
    | .running (.call (.acquire _) _) => some (.failed .lockWait)
    | _ => none

/-- The endings along a schedule, in order, each with its thread. -/
def endings (M : Machine n) : List (Choice n) → List (Fin n × Ending)
  | [] => []
  | c :: cs => ((M.ending c).map fun e => (c.thread, e)).toList ++ (M.perform c).endings cs

/-- How thread `i`'s transaction ended along a schedule: the first ending recorded for
it, since a failed call or a cut wait is followed by the rollback it causes. -/
def endingOf (M : Machine n) (schedule : List (Choice n)) (i : Fin n) : Option Ending :=
  ((M.endings schedule).find? (·.1 == i)).map (·.2)

end Machine

/-! ## What a delivery answers -/

/-- What a delivery of a payment answers once its transaction ended. -/
inductive Delivery where
  | processed
  | duplicate
  | ignored
  /-- Answered with the error, and the failure recorded on the payment's row and counted
  towards the failure alert. -/
  | failed
  deriving DecidableEq, Repr

namespace Intake

/-- The answer of a delivery whose transaction ended as `e` in state `t`. A commit that
wrote the payment's row processed it; one that wrote nothing found the row processed,
or dead-lettered. An error is a repeat of the payment when the store found a row or an
entry's key taken, and a failure otherwise. -/
def delivery (t : TxState) : Ending → Delivery
  | .committed =>
    if !t.writes.isEmpty then .processed
    else match t.seen with
      | .event _ (some p) :: _ => if p.status == .deadLetter then .ignored else .duplicate
      | _ => .duplicate
  | .failed .duplicate => .duplicate
  | .failed _ => .failed

/-- What delivery `i` answered, once a schedule ended its transaction. -/
def deliveryOf {n : Nat} (M : Machine n) (schedule : List (Choice n)) (i : Fin n) :
    Option Delivery :=
  (M.endingOf schedule i).map (delivery ((M.run schedule).threads i).state)

end Intake

end OnrampLedger
