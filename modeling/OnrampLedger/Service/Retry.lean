import OnrampLedger.Service.Alerting
import OnrampLedger.Text.Utf8

/-!
# Retrying failed payments

A retry cycle takes the failed payment rows, oldest first, up to the batch size, and
counts one more attempt on each. A row below the retry limit stays failed for the next
cycle; a row that reaches it moves to the dead letters, with a snapshot of the row for
the operator.

Operators then act on a dead letter: send it back for retrying, settle it with a
resolution, or archive it once settled.
-/

namespace OnrampLedger

/-- What a retry cycle did. -/
structure RetryStats where
  attempts : Nat
  successes : Nat
  failures : Nat
  movedToDeadLetter : Nat
  deriving Repr

/-- The counts as JSON. -/
def RetryStats.toJson (s : RetryStats) : Json :=
  .object [("attempts", .int s.attempts), ("successes", .int s.successes),
    ("failures", .int s.failures), ("moved_to_dead_letter", .int s.movedToDeadLetter)]

namespace Retry

/-- The snapshot of a row kept with its dead letter: its payment id, payload hash,
provider and wallet, as a JSON object with sorted keys. -/
def snapshot (e : WebhookEvent) : List UInt8 :=
  Utf8.encode (Json.sortedObject [("external_id", .str e.externalId), ("provider", .str e.provider),
    ("wallet_id", .str e.walletId), ("payload_hash", .str e.payloadHash)]).render

/-- Counts one more attempt on a row; tells whether it moved to the dead letters. -/
def retryOne (e : WebhookEvent) : Op Bool := do
  let now ← Op.now
  let max := (← Op.settings).maxRetries
  let e := { e with retryCount := e.retryCount + 1, lastRetryAt := some now, updatedAt := now }
  if (e.retryCount : Int) < max then
    Op.modifyStore (·.putWebhook { e with status := .failed })
    return false
  let e := { e with status := .deadLetter, deadLetterAt := some now }
  let id ← Op.freshId
  let item : DeadLetterItem := ⟨id, e.id, e.externalId, "payment.completed", e.provider, "max_retries",
    e.retryCount, max, e.errorMessage, snapshot e, .pending, none, now⟩
  Op.modifyStore fun s => { s.putWebhook e with deadLetters := s.deadLetters ++ [item] }
  return true

/-- One retry cycle over the failed rows, oldest first, up to the batch size. -/
def cycle : Op RetryStats := do
  let batch := (← Op.settings).retryBatch
  let due := (← Op.store).webhooks.filter fun e => e.status == .failed || e.status == .error
  let due := if batch > 0 then due.take batch.toNat else due
  due.foldlM (fun st e => do
    let moved ← retryOne e
    return if moved then ⟨st.attempts + 1, st.successes, st.failures, st.movedToDeadLetter + 1⟩
      else ⟨st.attempts + 1, st.successes + 1, st.failures, st.movedToDeadLetter⟩) ⟨0, 0, 0, 0⟩

/-- A payment row after one more attempt at `now` under the retry limit `max`: failed
again while its count of attempts stays below the limit, and moved to the dead letters
once the count reaches it. -/
def attempt (max : Int) (now : Instant) (e : WebhookEvent) : WebhookEvent :=
  let e := { e with retryCount := e.retryCount + 1, lastRetryAt := some now, updatedAt := now }
  if (e.retryCount : Int) < max then { e with status := .failed }
  else { e with status := .deadLetter, deadLetterAt := some now }

/-- The dead letter of a row `e` moved to the dead letters at `now`, under the id `id`:
pending, with a snapshot of the row. -/
def letter (id : String) (max : Int) (now : Instant) (e : WebhookEvent) : DeadLetterItem :=
  ⟨id, e.id, e.externalId, "payment.completed", e.provider, "max_retries", e.retryCount, max,
    e.errorMessage, snapshot e, .pending, none, now⟩

/-- Dead letters in the order they were made, those with `status` only when it is named. -/
def list (status : String) : Op (List DeadLetterItem) := do
  return (← Op.store).deadLetters.filter fun d => status == "" || d.status.name == status

/-- The dead letter with id `id`. -/
def item (id : String) : Op DeadLetterItem := do
  Op.found ((← Op.store).deadLetter? id) (.deadLetterNotFound id)

/-- Sends a dead letter back for retrying: its row is failed again with no attempts
counted, and the dead letter is settled as reprocessed. -/
def retryDeadLetter (id : String) (admin : Actor) : Op WebhookEvent := do
  Op.require admin.isAdmin .deadLetterRetryNeedsAdmin
  let d ← item id
  let e ← Op.found ((← Op.store).webhook? d.webhookEventId) (.deadLetterNotFound id)
  Op.require (e.status == .deadLetter) (.eventNotDeadLettered e.id e.status.name)
  Op.require (d.status == .pending) (.deadLetterSettled d.id d.status.name)
  let now ← Op.now
  let e := { e with status := .failed, retryCount := 0, deadLetterAt := none, updatedAt := now }
  let d := { d with status := .manualReviewed, settlement := some ⟨.reprocessed, "", admin.id, now⟩ }
  Op.modifyStore fun s => (s.putWebhook e).putDeadLetter d
  return e

/-- Settles a pending dead letter with a resolution and notes. -/
def resolve (id resolution notes : String) (admin : Actor) : Op DeadLetterItem := do
  Op.require admin.isAdmin .deadLetterResolveNeedsAdmin
  let r ← match Resolution.ofName? resolution with
    | some r =>
      if r == .reprocessed || r == .refunded || r == .ignored || r == .manualCredit then pure r
      else throw (.invalidDeadLetterResolution resolution)
    | none => throw (.invalidDeadLetterResolution resolution)
  let d ← item id
  Op.require (d.status == .pending) (.deadLetterSettled d.id d.status.name)
  let now ← Op.now
  let d := { d with status := .manualReviewed, settlement := some ⟨r, notes, admin.id, now⟩ }
  Op.modifyStore (·.putDeadLetter d)
  return d

/-- Archives a settled dead letter. -/
def archive (id : String) (admin : Actor) : Op DeadLetterItem := do
  Op.require admin.isAdmin .deadLetterArchiveNeedsAdmin
  let d ← item id
  Op.require (d.status == .manualReviewed) (.deadLetterNotReviewed d.id)
  let d := { d with status := .archived }
  Op.modifyStore (·.putDeadLetter d)
  return d

end Retry

end OnrampLedger
