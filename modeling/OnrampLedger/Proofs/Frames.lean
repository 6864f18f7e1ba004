import OnrampLedger.Proofs.Run
import OnrampLedger.Proofs.Tables

/-!
# What the bookkeeping operations write

Only the wallet engine moves money, only provider intake writes payment rows, and only
the retry pipeline writes dead letters. Alerting, purchases and reconciliation write
their own tables and never the settings, the wallets, the ledger, the payment rows or
the dead letters (`World.records`); the integrity monitor writes review flags on wallet
rows, so it keeps what the engine reads of a wallet (`Wallet.money`) but not the whole
row. Each frame here says so for one operation, on every run, answered or refused, and
also that the operation takes back no id it drew: the count of ids drawn only grows.

The operations of the retry pipeline and the small steps of alerting get exact
triples instead: what each writes, written out. A retry changes one payment row as
`Retry.attempt` says and, when the row runs out of attempts, adds its dead letter
(`Retry.letter`); a cycle does so for the rows `Retry.due` takes up, one after the
other.

All triples are marked for `mvcgen`, so that an operation built from these sees them as
steps that keep the money and the payment records where they were.
-/

namespace OnrampLedger

open Std.Do

set_option mvcgen.warning false

/-- What the wallet engine reads of a wallet row: its id, its owner, its currency and its
balance. Review flags are left out. -/
def Wallet.money (w : Wallet) : String × String × String × Decimal :=
  (w.id, w.userId, w.currency, w.balance)

/-- The records that only the wallet engine, provider intake and the retry pipeline
write, and the settings, which nothing writes. -/
structure Records where
  settings : ServiceSettings
  wallets : List Wallet
  ledger : List LedgerEntry
  webhooks : List WebhookEvent
  deadLetters : List DeadLetterItem

/-- The records of a world. -/
def World.records (W : World) : Records :=
  ⟨W.settings, W.store.wallets, W.store.ledger, W.store.webhooks, W.store.deadLetters⟩

theorem World.records_eq {W : World} {R : Records} :
    W.records = R ↔ W.settings = R.settings ∧ W.store.wallets = R.wallets ∧
      W.store.ledger = R.ledger ∧ W.store.webhooks = R.webhooks ∧
      W.store.deadLetters = R.deadLetters := by
  cases R
  simp [World.records]

variable (R : Records) (i : Nat)

/-! ## Alerting -/

namespace Alerting

/-- Quieting alerts under a key writes only the memory of alerting. -/
@[spec] theorem allow_spec (W₀ : World) (key : String) (ttl : Duration) :
    ⦃fun W => ⌜W = W₀⌝⦄ allow key ttl
    ⦃post⟨fun _ W => ⌜W.store = W₀.store ∧ W.settings = W₀.settings ∧ W.issued = W₀.issued⌝,
      fun _ _ => ⌜False⌝⟩⦄ := by
  mvcgen [allow, memory, modifyMemory]
  all_goals simp_all +zetaDelta

/-- Raising an alert adds it, under a fresh id, and changes no other table. -/
@[spec] theorem raise_spec (W₀ : World) (type severity title message : String)
    (metadata : List (String × String)) :
    ⦃fun W => ⌜W = W₀⌝⦄ raise type severity title message metadata
    ⦃post⟨fun _ W => ⌜W.store = { W₀.store with alerts := W₀.store.alerts ++
        [⟨idText (W₀.issued + 1), type, severity, title, message, metadata, none, false, "", none, W₀.now⟩] } ∧
        W.settings = W₀.settings ∧ W.issued = W₀.issued + 1⌝,
      fun _ _ => ⌜False⌝⟩⦄ := by
  mvcgen [raise]
  simp_all +zetaDelta

@[spec] theorem balanceMismatch_frame (m : Mismatch) :
    ⦃fun W => ⌜W.records = R ∧ i ≤ W.issued⌝⦄ balanceMismatch m
    ⦃post⟨fun _ W => ⌜W.records = R ∧ i ≤ W.issued⌝, fun _ _ => ⌜False⌝⟩⦄ := by
  mvcgen [balanceMismatch, thresholds]
  all_goals simp_all [World.records]
  omega

/-- Counting a failed report changes no table but the alerts, and those only by one
`webhook_failures` alert when the failures reach the threshold. -/
@[spec] theorem webhookFailure_spec (W₀ : World) (provider externalId : String)
    (cause : Option String) :
    ⦃fun W => ⌜W = W₀⌝⦄ webhookFailure provider externalId cause
    ⦃post⟨fun _ W => ⌜(W.store = W₀.store ∨ ∃ a : AlertLog, a.type = "webhook_failures" ∧
          W.store = { W₀.store with alerts := W₀.store.alerts ++ [a] }) ∧
        W.settings = W₀.settings ∧ W₀.issued ≤ W.issued⌝,
      fun _ _ => ⌜False⌝⟩⦄ := by
  mvcgen [webhookFailure, thresholds, memory, modifyMemory]
  all_goals simp_all +zetaDelta

@[spec] theorem creditSpike_frame (wallet : String) (amount : Decimal) :
    ⦃fun W => ⌜W.records = R ∧ i ≤ W.issued⌝⦄ creditSpike wallet amount
    ⦃post⟨fun _ W => ⌜W.records = R ∧ i ≤ W.issued⌝, fun _ _ => ⌜False⌝⟩⦄ := by
  mvcgen [creditSpike, thresholds, memory, modifyMemory]
  all_goals simp_all +zetaDelta [World.records]
  omega

@[spec] theorem crash_frame (job : String) (cause : Option String) :
    ⦃fun W => ⌜W.records = R ∧ i ≤ W.issued⌝⦄ crash job cause
    ⦃post⟨fun _ W => ⌜W.records = R ∧ i ≤ W.issued⌝, fun _ _ => ⌜False⌝⟩⦄ := by
  mvcgen [crash, thresholds]
  all_goals simp_all +zetaDelta [World.records]
  omega

@[spec] theorem missingWebhook_frame (a : MissingWebhookAlert) :
    ⦃fun W => ⌜W.records = R ∧ i ≤ W.issued⌝⦄ missingWebhook a
    ⦃post⟨fun _ W => ⌜W.records = R ∧ i ≤ W.issued⌝, fun _ _ => ⌜False⌝⟩⦄ := by
  mvcgen [missingWebhook]
  simp_all [World.records]
  omega

@[spec] theorem acknowledge_frame (id : String) (admin : Actor) :
    ⦃fun W => ⌜W.records = R ∧ i ≤ W.issued⌝⦄ acknowledge id admin
    ⦃post⟨fun _ W => ⌜W.records = R ∧ i ≤ W.issued⌝,
      fun _ W => ⌜W.records = R ∧ i ≤ W.issued⌝⟩⦄ := by
  mvcgen [acknowledge, get]

@[spec] theorem resolve_frame (id : String) (admin : Actor) :
    ⦃fun W => ⌜W.records = R ∧ i ≤ W.issued⌝⦄ resolve id admin
    ⦃post⟨fun _ W => ⌜W.records = R ∧ i ≤ W.issued⌝,
      fun _ W => ⌜W.records = R ∧ i ≤ W.issued⌝⟩⦄ := by
  mvcgen [resolve, get]

end Alerting

/-! ## Announcing changes and recording failures -/

/-- Announcing committed changes publishes them and counts credits towards spike
alerts; it never refuses. -/
@[spec] theorem Wallets.committed_frame (muts : List Mutation) :
    ⦃fun W => ⌜W.records = R ∧ i ≤ W.issued⌝⦄ Wallets.committed muts
    ⦃post⟨fun _ W => ⌜W.records = R ∧ i ≤ W.issued⌝, fun _ _ => ⌜False⌝⟩⦄ := by
  induction muts with
  | nil => mvcgen [Wallets.committed]
  | cons m ms ih =>
      simp only [Wallets.committed, List.forM_eq_forM, List.forM_cons] at ih ⊢
      mvcgen [ih]
      all_goals simp_all +zetaDelta [World.records]
      omega

/-- The provider events after the row of a payment is written: over its earlier row
`prior`, by id, or as a new row when there was none. -/
def Store.webhooksWith (s : Store) (prior : Option WebhookEvent) (row : WebhookEvent) :
    List WebhookEvent :=
  match prior with
  | none => s.webhooks ++ [row]
  | some _ => replaceFirst (·.id == row.id) row s.webhooks

/-- What recording a failure writes: the payment's row, marked failed with the text
`message`, over its earlier row `prior` or as a new row with id `fresh`; and possibly a
`webhook_failures` alert. No other table changes. -/
def Store.FailureWritten (ev : PaymentEvent) (prior : Option WebhookEvent) (fresh message : String)
    (s s' : Store) : Prop :=
  ∃ row : WebhookEvent, row.status = .failed ∧ row.errorMessage = message ∧
    row.externalId = (prior.map (·.externalId)).getD ev.externalId ∧
    row.id = (prior.map (·.id)).getD fresh ∧
    let S := { s with webhooks := s.webhooksWith prior row }
    (s' = S ∨ ∃ a : AlertLog, a.type = "webhook_failures" ∧ s' = { S with alerts := S.alerts ++ [a] })

/-- Writing a failure leaves the wallets and the ledger as they were. -/
theorem Store.FailureWritten.money {ev : PaymentEvent} {prior : Option WebhookEvent}
    {fresh message : String} {s s' : Store} (h : s.FailureWritten ev prior fresh message s') :
    s'.wallets = s.wallets ∧ s'.ledger = s.ledger := by
  obtain ⟨row, -, -, -, -, hs' | ⟨a, -, hs'⟩⟩ := h <;> simp [hs']

/-- The row a failure is recorded on, beyond what `Store.FailureWritten` says of it: it
keeps the count of attempts, the dead-letter time and the credited entry of the earlier
row, and a new row starts with none of them. -/
structure Intake.FailedRow (prior : Option WebhookEvent) (row : WebhookEvent) : Prop where
  retryCount : row.retryCount = (prior.map (·.retryCount)).getD 0
  deadLetterAt : row.deadLetterAt = prior.bind (·.deadLetterAt)
  transactionId : row.transactionId = (prior.map (·.transactionId)).getD ""

/-- What recording a failure writes, with the row written named: `Store.FailureWritten`
for that row, which is an `Intake.FailedRow`. -/
def Store.FailureRecorded (ev : PaymentEvent) (prior : Option WebhookEvent) (fresh message : String)
    (s s' : Store) : Prop :=
  ∃ row : WebhookEvent, Intake.FailedRow prior row ∧ row.status = .failed ∧
    row.errorMessage = message ∧ row.externalId = (prior.map (·.externalId)).getD ev.externalId ∧
    row.id = (prior.map (·.id)).getD fresh ∧
    let S := { s with webhooks := s.webhooksWith prior row }
    (s' = S ∨ ∃ a : AlertLog, a.type = "webhook_failures" ∧ s' = { S with alerts := S.alerts ++ [a] })

theorem Store.FailureRecorded.written {ev : PaymentEvent} {prior : Option WebhookEvent}
    {fresh message : String} {s s' : Store} (h : s.FailureRecorded ev prior fresh message s') :
    s.FailureWritten ev prior fresh message s' := by
  obtain ⟨row, -, hrow⟩ := h
  exact ⟨row, hrow⟩

namespace Intake

/-- Recording a failure marks the payment's row failed with the refusal's text, on the
row it had or on a new row under a fresh id, and counts the failure. -/
@[spec] theorem recordFailure_spec (W₀ : World) (ev : PaymentEvent) (prior : Option WebhookEvent)
    (walletId : String) (cause : Error) :
    ⦃fun W => ⌜W = W₀⌝⦄ recordFailure ev prior walletId cause
    ⦃post⟨fun _ W => ⌜W₀.store.FailureRecorded ev prior (idText (W₀.issued + 1)) cause.message W.store ∧
        W.settings = W₀.settings ∧ W₀.issued ≤ W.issued ∧ (prior = none → W₀.issued < W.issued)⌝,
      fun _ _ => ⌜False⌝⟩⦄ := by
  mvcgen [recordFailure]
  all_goals simp_all +zetaDelta
  -- the row written, new or over the earlier one, is the witness; the failure count
  -- then leaves the store as it was or adds its alert
  case vc1.h_1.post.success =>
    intro hcount _ hissued
    refine ⟨⟨_, ⟨?_, ?_, ?_⟩, ?_, ?_, ?_, ?_, hcount⟩, hissued.le⟩ <;> rfl
  case vc2.h_2.post.success =>
    intro hcount _ _
    refine ⟨_, ⟨?_, ?_, ?_⟩, ?_, ?_, ?_, ?_, hcount⟩ <;> rfl

@[spec] theorem completePurchase_frame (wallet provider : String) (amount : Decimal) (now : Instant) :
    ⦃fun W => ⌜W.records = R ∧ i ≤ W.issued⌝⦄ completePurchase wallet provider amount now
    ⦃post⟨fun _ W => ⌜W.records = R ∧ i ≤ W.issued⌝, fun _ _ => ⌜False⌝⟩⦄ := by
  mvcgen [completePurchase]

end Intake

/-! ## Retries and dead letters -/

namespace Retry

/-- The dead letters a retry adds: the row's own when it moved to the dead letters. -/
def lettersOf (id : String) (max : Int) (now : Instant) (e : WebhookEvent) : List DeadLetterItem :=
  if e.status = .deadLetter then [letter id max now e] else []

/-- The rows a cycle takes up: the failed ones, oldest first, at most `batch` of them
when `batch` is positive. -/
def due (batch : Int) (rows : List WebhookEvent) : List WebhookEvent :=
  let due := rows.filter fun e => e.status == .failed || e.status == .error
  if batch > 0 then due.take batch.toNat else due

/-- The payment rows after the rows `es` are attempted once more, one after the other. -/
def attemptAll (max : Int) (now : Instant) (es rows : List WebhookEvent) : List WebhookEvent :=
  es.foldl (fun rows e => replaceFirst (·.id == e.id) (attempt max now e) rows) rows

theorem attempt_of_lt {max : Int} {now : Instant} {e : WebhookEvent}
    (h : (e.retryCount : Int) + 1 < max) :
    attempt max now e =
      { e with retryCount := e.retryCount + 1, lastRetryAt := some now, updatedAt := now,
               status := .failed } := by
  simp [attempt, h]

theorem attempt_of_le {max : Int} {now : Instant} {e : WebhookEvent}
    (h : max ≤ (e.retryCount : Int) + 1) :
    attempt max now e =
      { e with retryCount := e.retryCount + 1, lastRetryAt := some now, updatedAt := now,
               status := .deadLetter, deadLetterAt := some now } := by
  simp [attempt, not_lt.mpr h]

theorem attempt_id (max : Int) (now : Instant) (e : WebhookEvent) : (attempt max now e).id = e.id := by
  by_cases h : (e.retryCount : Int) + 1 < max
  · rw [attempt_of_lt h]
  · rw [attempt_of_le (not_lt.mp h)]

/-- **One retry**: the row is written back attempted once more, and, when that moved it
to the dead letters, its dead letter is added under a fresh id. -/
@[spec] theorem retryOne_spec (W₀ : World) (e : WebhookEvent) :
    ⦃fun W => ⌜W = W₀⌝⦄ retryOne e
    ⦃post⟨fun _ W => ⌜W.store = { W₀.store.putWebhook (attempt W₀.settings.maxRetries W₀.now e) with
          deadLetters := W₀.store.deadLetters ++ lettersOf (idText (W₀.issued + 1))
            W₀.settings.maxRetries W₀.now (attempt W₀.settings.maxRetries W₀.now e) } ∧
        W.settings = W₀.settings ∧ W.now = W₀.now ∧
        W.issued = W₀.issued + (lettersOf (idText (W₀.issued + 1)) W₀.settings.maxRetries W₀.now
          (attempt W₀.settings.maxRetries W₀.now e)).length⌝,
      fun _ _ => ⌜False⌝⟩⦄ := by
  mvcgen [retryOne]
  -- below the limit the row stays failed; at the limit it moves to the dead letters
  all_goals simp_all +zetaDelta [attempt_of_lt, attempt_of_le, lettersOf, letter, Store.putWebhook]

/-- The ids drawn after the `i`-th, one for each of `n` rows, in order. -/
def idsFrom (i n : Nat) : List String := (List.range n).map fun j => idText (i + j + 1)

theorem idsFrom_succ (i n : Nat) : idsFrom i (n + 1) = idsFrom i n ++ [idText (i + n + 1)] := by
  simp [idsFrom, List.range_succ]

/-- What a cycle leaves after the first rows `done` of those it takes up: each attempted
once more, and a dead letter added for each that moved to the dead letters, under the
ids drawn one after the other. -/
def Cycled (W₀ : World) (done : List WebhookEvent) (W : World) : Prop :=
  W.settings = W₀.settings ∧ W.now = W₀.now ∧
    ∃ added : List DeadLetterItem,
      W.store = { W₀.store with
        webhooks := attemptAll W₀.settings.maxRetries W₀.now done W₀.store.webhooks,
        deadLetters := W₀.store.deadLetters ++ added } ∧
      added.map (fun d => (d.webhookEventId, d.status, d.settlement)) =
        ((done.map (attempt W₀.settings.maxRetries W₀.now)).filter (·.status = .deadLetter)).map
          (fun e => (e.id, ReviewStatus.pending, (none : Option Settlement))) ∧
      W.issued = W₀.issued + added.length ∧ added.map (·.id) = idsFrom W₀.issued added.length

theorem cycled_nil (W₀ : World) : Cycled W₀ [] W₀ :=
  ⟨rfl, rfl, [], by simp [attemptAll], rfl, rfl, rfl⟩

/-- One more row attempted keeps a cycle's account. -/
theorem Cycled.snoc {W₀ W W' : World} {done : List WebhookEvent} {e : WebhookEvent}
    (h : Cycled W₀ done W)
    (hstep : W'.store = { W.store.putWebhook (attempt W.settings.maxRetries W.now e) with
        deadLetters := W.store.deadLetters ++ lettersOf (idText (W.issued + 1))
          W.settings.maxRetries W.now (attempt W.settings.maxRetries W.now e) })
    (hset : W'.settings = W.settings) (hnow : W'.now = W.now)
    (hiss : W'.issued = W.issued + (lettersOf (idText (W.issued + 1)) W.settings.maxRetries W.now
      (attempt W.settings.maxRetries W.now e)).length) :
    Cycled W₀ (done ++ [e]) W' := by
  obtain ⟨hs, hn, added, hstore, hadded, hi, hids⟩ := h
  refine ⟨hset.trans hs, hnow.trans hn, added ++ lettersOf (idText (W.issued + 1))
    W.settings.maxRetries W.now (attempt W.settings.maxRetries W.now e), ?_, ?_, ?_, ?_⟩
  · rw [hstep, hstore]
    simp [attemptAll, Store.putWebhook, List.foldl_append, attempt_id, hs, hn]
  · rw [List.map_append, hadded, hs, hn]
    unfold lettersOf letter
    split <;> simp_all [attempt_id]
  · rw [hiss, hi, List.length_append]
    omega
  -- the letter, if any, takes the id drawn after those of the letters before it
  · unfold lettersOf letter
    split
    · rw [List.length_append, List.length_singleton, idsFrom_succ, List.map_append, hids, hi]
      rfl
    · simpa using hids

/-- **A retry cycle** attempts the rows it takes up once more, one after the other, and
adds a dead letter for each that ran out of attempts. -/
@[spec] theorem cycle_spec (W₀ : World) :
    ⦃fun W => ⌜W = W₀⌝⦄ cycle
    ⦃post⟨fun _ W => ⌜Cycled W₀ (due W₀.settings.retryBatch W₀.store.webhooks) W⌝,
      fun _ _ => ⌜False⌝⟩⦄ := by
  mvcgen [cycle]
  case inv1 => exact post⟨fun (cur, _) W => ⌜Cycled W₀ cur.prefix W⌝, fun _ _ => ⌜False⌝⟩
  all_goals simp_all +zetaDelta [due]
  · rename_i hcyc hstep
    exact hcyc.snoc hstep.1 hstep.2.1 hstep.2.2.1 hstep.2.2.2
  · exact cycled_nil _

/-- What sending the dead letter `id` back wrote: the dead letter was pending and its
row dead-lettered, and the two are written back, the row failed again with no attempts
counted and the dead letter settled as reprocessed. -/
def SentBack (id : String) (admin : Actor) (W₀ W : World) : Prop :=
  ∃ d e, W₀.store.deadLetter? id = some d ∧ W₀.store.webhook? d.webhookEventId = some e ∧
    e.status = .deadLetter ∧ d.status = .pending ∧
    W = { W₀ with
      store := (W₀.store.putWebhook
          { e with status := .failed, retryCount := 0, deadLetterAt := none,
                   updatedAt := W₀.now }).putDeadLetter
        { d with status := .manualReviewed,
                 settlement := some ⟨.reprocessed, "", admin.id, W₀.now⟩ } }

/-- What settling the dead letter `id` wrote: it was pending, and is written back
settled with a resolution and `notes`. -/
def Resolved (id notes : String) (admin : Actor) (W₀ W : World) : Prop :=
  ∃ d r, W₀.store.deadLetter? id = some d ∧ d.status = .pending ∧
    W = { W₀ with
      store := W₀.store.putDeadLetter
        { d with status := .manualReviewed, settlement := some ⟨r, notes, admin.id, W₀.now⟩ } }

/-- What archiving the dead letter `id` wrote: it was settled, and is written back
archived. -/
def Archived (id : String) (W₀ W : World) : Prop :=
  ∃ d, W₀.store.deadLetter? id = some d ∧ d.status = .manualReviewed ∧
    W = { W₀ with store := W₀.store.putDeadLetter { d with status := .archived } }

/-- Sends a dead letter back for retrying (`SentBack`); refused, nothing changed. -/
@[spec] theorem retryDeadLetter_spec (W₀ : World) (id : String) (admin : Actor) :
    ⦃fun W => ⌜W = W₀⌝⦄ retryDeadLetter id admin
    ⦃post⟨fun _ W => ⌜SentBack id admin W₀ W⌝, fun _ W => ⌜W = W₀⌝⟩⦄ := by
  mvcgen [retryDeadLetter, item]
  all_goals simp_all +zetaDelta [SentBack]

/-- Settles a pending dead letter with a resolution (`Resolved`); refused, nothing
changed. -/
@[spec] theorem resolve_spec (W₀ : World) (id resolution notes : String) (admin : Actor) :
    ⦃fun W => ⌜W = W₀⌝⦄ resolve id resolution notes admin
    ⦃post⟨fun _ W => ⌜Resolved id notes admin W₀ W⌝, fun _ W => ⌜W = W₀⌝⟩⦄ := by
  mvcgen [resolve, item]
  all_goals simp_all +zetaDelta [Resolved]
  exact ⟨_, rfl⟩

/-- Archives a settled dead letter (`Archived`); refused, nothing changed. -/
@[spec] theorem archive_spec (W₀ : World) (id : String) (admin : Actor) :
    ⦃fun W => ⌜W = W₀⌝⦄ archive id admin
    ⦃post⟨fun _ W => ⌜Archived id W₀ W⌝, fun _ W => ⌜W = W₀⌝⟩⦄ := by
  mvcgen [archive, item]
  all_goals simp_all +zetaDelta [Archived]

end Retry

/-! ## Purchases and reconciliation -/

namespace Reconcile

@[spec] theorem createOnRamp_frame (actor : Actor) (provider : String) (amount : Decimal)
    (currency : String) :
    ⦃fun W => ⌜W.records = R ∧ i ≤ W.issued⌝⦄ createOnRamp actor provider amount currency
    ⦃post⟨fun _ W => ⌜W.records = R ∧ i ≤ W.issued⌝,
      fun _ W => ⌜W.records = R ∧ i ≤ W.issued⌝⟩⦄ := by
  mvcgen [createOnRamp, Wallets.amountOf]
  all_goals simp_all +zetaDelta [World.records]
  omega

@[spec] theorem completeOnRamp_frame (id : String) (admin : Actor) :
    ⦃fun W => ⌜W.records = R ∧ i ≤ W.issued⌝⦄ completeOnRamp id admin
    ⦃post⟨fun _ W => ⌜W.records = R ∧ i ≤ W.issued⌝,
      fun _ W => ⌜W.records = R ∧ i ≤ W.issued⌝⟩⦄ := by
  mvcgen [completeOnRamp, onRamp]

@[spec] theorem check_frame (o : OnRamp) :
    ⦃fun W => ⌜W.records = R ∧ i ≤ W.issued⌝⦄ check o
    ⦃post⟨fun _ W => ⌜W.records = R ∧ i ≤ W.issued⌝, fun _ _ => ⌜False⌝⟩⦄ := by
  mvcgen [check, openCase]
  all_goals simp_all +zetaDelta [World.records]
  omega

@[spec] theorem run_frame (lookback : Int) :
    ⦃fun W => ⌜W.records = R ∧ i ≤ W.issued⌝⦄ run lookback
    ⦃post⟨fun _ W => ⌜W.records = R ∧ i ≤ W.issued⌝, fun _ _ => ⌜False⌝⟩⦄ := by
  mvcgen [run]
  case inv1 => exact post⟨fun _ W => ⌜W.records = R ∧ i ≤ W.issued⌝, fun _ _ => ⌜False⌝⟩
  all_goals simp_all +zetaDelta
  omega

@[spec] theorem resolve_frame (id resolution notes : String) (admin : Actor) :
    ⦃fun W => ⌜W.records = R ∧ i ≤ W.issued⌝⦄ resolve id resolution notes admin
    ⦃post⟨fun _ W => ⌜W.records = R ∧ i ≤ W.issued⌝,
      fun _ W => ⌜W.records = R ∧ i ≤ W.issued⌝⟩⦄ := by
  mvcgen [resolve, case]

end Reconcile

/-! ## The integrity monitor

The monitor writes wallet rows, but only their review flags: each row it writes back
is the row its id finds with other flags, so what the engine reads of the wallets stays.
Its frame keeps `Wallet.money` of every wallet, in order, and the other records whole. -/

/-- The records of a world, with each wallet read as the engine reads it. -/
def World.moneyRecords (W : World) : Records × List (String × String × String × Decimal) :=
  ({ W.records with wallets := [] }, W.store.wallets.map Wallet.money)

variable (M : Records × List (String × String × String × Decimal))

/-- Writing back, under its own id, a row that keeps what the engine reads of the row that
id finds keeps that of every wallet. -/
theorem Store.money_putWallet {s : Store} {id : String} {cur v : Wallet}
    (h : s.wallet? id = some cur) (hv : v.money = cur.money) :
    (s.putWallet v).wallets.map Wallet.money = s.wallets.map Wallet.money := by
  have hid : v.id = cur.id := congrArg Prod.fst hv
  have hcur : cur.id = id := by simpa using List.find?_some h
  apply map_replaceFirst_of_find?
  intro z hz
  have hfind : s.wallets.find? (·.id == id) = some z := by rwa [hid, hcur] at hz
  rw [show s.wallet? id = s.wallets.find? (·.id == id) from rfl, hfind] at h
  cases h
  exact hv.symm

namespace Integrity

@[spec] theorem flagPage_frame (suspects : List Wallet) :
    ⦃fun W => ⌜W.moneyRecords = M ∧ i ≤ W.issued⌝⦄ flagPage suspects
    ⦃post⟨fun _ W => ⌜W.moneyRecords = M ∧ i ≤ W.issued⌝, fun _ _ => ⌜False⌝⟩⦄ := by
  mvcgen [flagPage]
  case inv1 => exact post⟨fun _ W => ⌜W.moneyRecords = M ∧ i ≤ W.issued⌝, fun _ _ => ⌜False⌝⟩
  all_goals simp_all +zetaDelta
  -- the one write: the row found for the suspect's id, with its flags set
  rename_i hnow hfound _ _
  rw [← hnow.1]
  simp only [World.moneyRecords, World.records, Prod.mk.injEq]
  refine ⟨rfl, Store.money_putWallet hfound ?_⟩
  rfl

/-- Paging through the wallets: induction on the pages left, one `flagPage` a page. -/
@[spec] theorem pages_frame (batch fuel : Nat) (after : String) (r : IntegrityReport) :
    ⦃fun W => ⌜W.moneyRecords = M ∧ i ≤ W.issued⌝⦄ pages batch fuel after r
    ⦃post⟨fun _ W => ⌜W.moneyRecords = M ∧ i ≤ W.issued⌝, fun _ _ => ⌜False⌝⟩⦄ := by
  induction fuel generalizing after r with
  | zero => mvcgen [pages]
  | succ fuel ih =>
      mvcgen [pages, ih]
      all_goals simp_all +zetaDelta
      all_goals omega

/-- Reporting the new mismatches raises alerts, one mismatch after another. -/
theorem forM_balanceMismatch_frame (ms : List Mismatch) :
    ⦃fun W => ⌜W.records = R ∧ i ≤ W.issued⌝⦄ ms.forM Alerting.balanceMismatch
    ⦃post⟨fun _ W => ⌜W.records = R ∧ i ≤ W.issued⌝, fun _ _ => ⌜False⌝⟩⦄ := by
  induction ms with
  | nil => mvcgen
  | cons m ms ih =>
      simp only [List.forM_eq_forM, List.forM_cons] at ih ⊢
      mvcgen [ih]
      simp_all
      omega

@[spec] theorem run_frame :
    ⦃fun W => ⌜W.moneyRecords = M ∧ i ≤ W.issued⌝⦄ run
    ⦃post⟨fun _ W => ⌜W.moneyRecords = M ∧ i ≤ W.issued⌝, fun _ _ => ⌜False⌝⟩⦄ := by
  mvcgen [run, forM_balanceMismatch_frame]
  all_goals simp_all +zetaDelta [World.moneyRecords, World.records]
  omega

@[spec] theorem clearFlag_frame (id : String) (admin : Actor) :
    ⦃fun W => ⌜W.moneyRecords = M ∧ i ≤ W.issued⌝⦄ clearFlag id admin
    ⦃post⟨fun _ W => ⌜W.moneyRecords = M ∧ i ≤ W.issued⌝,
      fun _ W => ⌜W.moneyRecords = M ∧ i ≤ W.issued⌝⟩⦄ := by
  mvcgen [clearFlag]
  all_goals simp_all +zetaDelta
  -- the one write: the row of `id` with its flags cleared
  rename_i hnow _ _ hfound _ _
  rw [← hnow.1]
  simp only [World.moneyRecords, World.records, Prod.mk.injEq]
  refine ⟨rfl, Store.money_putWallet hfound ?_⟩
  rfl

end Integrity

end OnrampLedger
