import OnrampLedger.Ledger.Wallet
import OnrampLedger.Ledger.Entry
import OnrampLedger.Intake.WebhookEvent
import OnrampLedger.Purchase.OnRamp
import OnrampLedger.Review.Item
import OnrampLedger.Alerts.Log

/-!
# The store

Everything the service keeps, as tables in the order rows were added. Rows are found
by their id or by the one field that is unique for them: a wallet by its owner, a
ledger entry by its idempotency key, a provider event by the provider's payment id, a
missing-webhook case by its purchase. Reads hand out copies: a table changes only
through the operations here.

## Main definitions

* `Store.ledgerBalance`: the credits less the debits of a wallet's entries, the value
  its cached balance must equal.
-/

namespace OnrampLedger

/-- Everything the service keeps. -/
structure Store where
  wallets : List Wallet
  ledger : List LedgerEntry
  webhooks : List WebhookEvent
  onRamps : List OnRamp
  missing : List MissingWebhookAlert
  deadLetters : List DeadLetterItem
  alerts : List AlertLog
  deriving Inhabited

/-- Replaces the first row with the property by `x`. -/
def replaceFirst {α : Type} (p : α → Bool) (x : α) : List α → List α
  | [] => []
  | y :: ys => if p y then x :: ys else y :: replaceFirst p x ys

namespace Store

/-- The store with no rows. -/
def empty : Store := ⟨[], [], [], [], [], [], []⟩

/-! ## Wallets -/

/-- The wallet with id `id`. -/
def wallet? (s : Store) (id : String) : Option Wallet := s.wallets.find? (·.id == id)

/-- The wallet owned by `user`. -/
def walletOfUser? (s : Store) (user : String) : Option Wallet := s.wallets.find? (·.userId == user)

/-- Writes a wallet back, by id. -/
def putWallet (s : Store) (w : Wallet) : Store :=
  { s with wallets := replaceFirst (·.id == w.id) w s.wallets }

/-- The wallets with ids after `after`, by id, at most `limit` of them when `limit` is
positive. -/
def walletsAfter (s : Store) (after : String) (limit : Int) : List Wallet :=
  let ws := (s.wallets.filter fun w => after < w.id).mergeSort fun a b => decide (a.id ≤ b.id)
  if limit > 0 then ws.take limit.toNat else ws

/-! ## The ledger -/

/-- The entry written under idempotency key `key`. -/
def entryByKey? (s : Store) (key : String) : Option LedgerEntry :=
  if key = "" then none else s.ledger.find? (·.key == key)

/-- The entries of a wallet, oldest first. -/
def entriesOf (s : Store) (wallet : String) : List LedgerEntry := s.ledger.filter (·.wallet == wallet)

/-- The credits and the debits of a list of entries, each summed on its own. -/
def sumsOf (es : List LedgerEntry) : Decimal × Decimal :=
  es.foldl (fun acc e => if e.type.isCredit then (acc.1 + e.amount, acc.2) else (acc.1, acc.2 + e.amount))
    (0, 0)

/-- The credits less the debits of a wallet's entries, each side summed first. -/
def ledgerBalance (s : Store) (wallet : String) : Decimal :=
  let sums := sumsOf (s.entriesOf wallet)
  sums.1 - sums.2

/-- The balance after a wallet's newest entry, zero when it has none. -/
def latestAfter (s : Store) (wallet : String) : Decimal :=
  ((s.entriesOf wallet).getLast?.map (·.after)).getD 0

/-! ## Provider events -/

/-- The provider event with the provider's payment id `ext`. -/
def webhookByExternal? (s : Store) (ext : String) : Option WebhookEvent :=
  s.webhooks.find? (·.externalId == ext)

/-- The provider event with id `id`. -/
def webhook? (s : Store) (id : String) : Option WebhookEvent := s.webhooks.find? (·.id == id)

/-- Writes a provider event back, by id. -/
def putWebhook (s : Store) (e : WebhookEvent) : Store :=
  { s with webhooks := replaceFirst (·.id == e.id) e s.webhooks }

/-! ## Purchases -/

/-- The on-ramp with id `id`. -/
def onRamp? (s : Store) (id : String) : Option OnRamp := s.onRamps.find? (·.id == id)

/-- Writes an on-ramp back, by id. -/
def putOnRamp (s : Store) (o : OnRamp) : Store :=
  { s with onRamps := replaceFirst (·.id == o.id) o s.onRamps }

/-! ## Review items -/

/-- The missing-webhook case with id `id`. -/
def missing? (s : Store) (id : String) : Option MissingWebhookAlert := s.missing.find? (·.id == id)

/-- The missing-webhook case raised for an on-ramp. -/
def missingFor? (s : Store) (onRamp : String) : Option MissingWebhookAlert :=
  s.missing.find? (·.onRampId == onRamp)

/-- Writes a missing-webhook case back, by id. -/
def putMissing (s : Store) (a : MissingWebhookAlert) : Store :=
  { s with missing := replaceFirst (·.id == a.id) a s.missing }

/-- The dead letter with id `id`. -/
def deadLetter? (s : Store) (id : String) : Option DeadLetterItem := s.deadLetters.find? (·.id == id)

/-- Writes a dead letter back, by id. -/
def putDeadLetter (s : Store) (d : DeadLetterItem) : Store :=
  { s with deadLetters := replaceFirst (·.id == d.id) d s.deadLetters }

/-! ## Alerts -/

/-- The alert with id `id`. -/
def alert? (s : Store) (id : String) : Option AlertLog := s.alerts.find? (·.id == id)

/-- Writes an alert back, by id. -/
def putAlert (s : Store) (a : AlertLog) : Store :=
  { s with alerts := replaceFirst (·.id == a.id) a s.alerts }

end Store

end OnrampLedger
