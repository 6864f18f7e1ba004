import OnrampLedger.Store.Basic
import OnrampLedger.Ledger.Error
import OnrampLedger.Ledger.Event
import OnrampLedger.Alerts.Thresholds
import OnrampLedger.Text.Quote
import OnrampLedger.Auth.Actor

/-!
# The service's world

Operations run against a `World`: the store, a clock that moves only when told to, a
counter from which fresh ids are drawn, what the alerting keeps in memory (recent
failures, recent credits per wallet, cooldowns), and the ledger events published and
not yet collected.

An operation is an `Op`: it reads and changes the world and may refuse with an
`Error`. A refusal does not undo what was done before it; `atomically` runs an
operation as a transaction, so that when it refuses the store is as it was before.
Ids drawn, the clock and alerting memory stay as they are either way: they are not
part of the store.

Ids are drawn from the counter in a fixed form, `00000000-0000-4000-8000-` followed by
twelve hex digits of the counter times `0x5DEECE66D`, modulo `2 ^ 48`. Distinct counter
values below `2 ^ 48` give distinct ids, since the multiplier is odd.
-/

namespace OnrampLedger

/-- What the service is configured with. -/
structure ServiceSettings where
  maxRetries : Int
  retryBatch : Int
  lookbackMinutes : Int
  integrityBatch : Int
  thresholds : AlertThresholds
  /-- Provider secrets, keyed by lower-cased provider name. -/
  webhookSecrets : List (String × String)
  jwtSecret : String
  corsOrigins : List String
  deriving Repr

/-- What alerting remembers between calls. -/
structure AlertMemory where
  /-- Times of recent failed provider reports. -/
  failures : List Instant
  /-- Recent credits per wallet, with their times. -/
  credits : List (String × List (Instant × Decimal))
  /-- For each alert key, the time until which it stays quiet. -/
  quietUntil : List (String × Instant)
  deriving Repr, Inhabited

/-- Everything an operation can see and change. -/
structure World where
  settings : ServiceSettings
  store : Store
  now : Instant
  /-- How many ids have been drawn. -/
  issued : Nat
  memory : AlertMemory
  /-- Ledger events published and not yet collected, oldest first. -/
  published : List LedgerEvent

/-- An operation on the world that may refuse. -/
abbrev Op := ExceptT Error (StateM World)

/-- The text of the `n`-th id. -/
def idText (n : Nat) : String :=
  let v := n * 0x5DEECE66D % Nat.pow 2 48
  "00000000-0000-4000-8000-" ++ String.ofList (Text.hexDigits v 12)

namespace Op

/-- The store as it stands. -/
def store : Op Store := return (← get).store

/-- Changes the store. -/
def modifyStore (f : Store → Store) : Op Unit :=
  modify fun w => { w with store := f w.store }

/-- The current time. -/
def now : Op Instant := return (← get).now

/-- The settings. -/
def settings : Op ServiceSettings := return (← get).settings

/-- Draws a fresh id. -/
def freshId : Op String := do
  let w ← get
  set { w with issued := w.issued + 1 }
  return idText (w.issued + 1)

/-- Runs `x` as a transaction: if it refuses, the store is put back as it was. -/
def atomically {α : Type} (x : Op α) : Op α := do
  let saved ← store
  tryCatch x fun e => do
    modifyStore fun _ => saved
    throw e

/-- Refuses with `e` unless `ok`. -/
def require (ok : Bool) (e : Error) : Op Unit := if ok then pure () else throw e

/-- The value, or a refusal with `e` when there is none. -/
def found {α : Type} (x : Option α) (e : Error) : Op α :=
  match x with
  | some a => pure a
  | none => throw e

end Op

end OnrampLedger
