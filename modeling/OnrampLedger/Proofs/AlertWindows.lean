import OnrampLedger.Proofs.ReconcileWindow
import OnrampLedger.Scenario.Setup

/-!
# Alert windows and cooldowns

Two alerts are raised from rolling windows. Failed provider reports are counted: each
call drops the failures remembered from before the window's start, adds its own, and
alerts once the count reaches the threshold. Credits are summed per wallet over the last
minute in the same way, and the call tells whether the sum is above the per-minute
threshold. Both alerts are held back by a cooldown under their key: an alert fires when
the key never fired or its quiet period is over, and firing starts a new one.

Over a sequence of calls at times that never go back, the window remembered is the
history cut at the window's start (`FailureReport.Book.window`): a failure pruned at one
call lies before the window of every later one, since the windows' starts never go back
either. The key's quiet period ends a cooldown after the last alert raised
(`FailureReport.Book.quiet`), so that whether an alert fires is read off the alerts
already raised (`FailureReport.Book.alerts_record`), and the alerts raised are a
cooldown apart (`Spaced`). Credits keep the same book per wallet (`CreditCall.Book`).

## Main results

* `failure_alerts_follow_window` — at every failure counted, the count is one more than
  the earlier failures within the window; an alert is raised exactly when the count
  reaches the threshold and the last alert is a cooldown old, with its severity read off
  the count; and all alerts raised are a cooldown apart.
* `spike_checks_follow_window` — each credit's answer tells whether the wallet's sum
  within the minute passes a set threshold, whatever other wallets received; a spike
  alert is raised exactly when it does and the wallet's last alert is a cooldown old;
  and each wallet's alerts are a cooldown apart.
-/

namespace OnrampLedger

open Std.Do

set_option mvcgen.warning false

theorem Instant.le_iff {a b : Instant} : a ≤ b ↔ a.nanos ≤ b.nanos := Iff.rfl

@[simp] theorem Instant.le_refl (t : Instant) : t ≤ t := Instant.le_iff.mpr (Int.le_refl _)

/-- Moving two instants by the same span keeps their order. -/
theorem Instant.addNanos_le_addNanos {a b : Instant} (h : a ≤ b) (n : Int) :
    a.addNanos n ≤ b.addNanos n := by
  simp only [Instant.le_iff, Instant.addNanos] at h ⊢
  omega

/-! ## Cooldowns -/

theorem List.lookup_filter_key_ne {β : Type} (l : List (String × β)) {key k : String}
    (h : k ≠ key) : (l.filter (·.1 != key)).lookup k = l.lookup k := by
  induction l with
  | nil => rfl
  | cons p l ih =>
    obtain ⟨a, b⟩ := p
    by_cases ha : a = key
    · subst ha
      have hka : (k == a) = false := beq_false_of_ne h
      simp [List.lookup_cons, hka, ih]
    · by_cases hk : k = a <;> simp [ha, List.lookup_cons, ih, hk]

/-- A key put in front of the others, its old entry dropped, is found; the other keys
are found where they were. -/
theorem List.lookup_put {β : Type} (l : List (String × β)) (key k : String) (x : β) :
    ((key, x) :: l.filter (·.1 != key)).lookup k = if k = key then some x else l.lookup k := by
  by_cases h : k = key
  · simp [h]
  · have hb : (k == key) = false := beq_false_of_ne h
    simp [List.lookup_cons, hb, h, List.lookup_filter_key_ne _ h]

namespace AlertMemory

/-- Whether alerts under `key` may fire at `now`: the key never fired, or its quiet period
is over. -/
def mayFire (m : AlertMemory) (key : String) (now : Instant) : Bool :=
  match m.quietUntil.lookup key with
  | some t => decide (t ≤ now)
  | none => true

/-- The memory once alerts under `key` are quiet until `t`. -/
def quietFor (m : AlertMemory) (key : String) (t : Instant) : AlertMemory :=
  { m with quietUntil := (key, t) :: m.quietUntil.filter (·.1 != key) }

@[simp] theorem lookup_quietFor (m : AlertMemory) (key k : String) (t : Instant) :
    (m.quietFor key t).quietUntil.lookup k = if k = key then some t else m.quietUntil.lookup k :=
  List.lookup_put _ key k t

/-- When a key's quiet period ends a cooldown after the last of some alerts, the key may
fire exactly when that alert is a cooldown old, or there is none. -/
theorem mayFire_iff {m : AlertMemory} {key : String} {now : Instant} {C : Duration}
    {as : List AlertLog}
    (h : m.quietUntil.lookup key = as.getLast?.map (·.createdAt.addNanos C.nanos)) :
    m.mayFire key now = true ↔ ∀ a ∈ as.getLast?, a.createdAt.addNanos C.nanos ≤ now := by
  unfold mayFire
  rw [h]
  cases as.getLast? <;> simp

end AlertMemory

/-- Alerts in order of time, each a cooldown `C` after every earlier one. -/
def Spaced (C : Duration) (as : List AlertLog) : Prop :=
  as.Pairwise fun a b => a.createdAt ≤ b.createdAt ∧ a.createdAt.addNanos C.nanos ≤ b.createdAt

/-- A later alert a cooldown after the last of spaced alerts keeps them spaced: being in
time order, the others are no later than the last. -/
theorem Spaced.append {C : Duration} {as : List AlertLog} {a : AlertLog} (h : Spaced C as)
    (hle : ∀ b ∈ as, b.createdAt ≤ a.createdAt)
    (hlast : ∀ b ∈ as.getLast?, b.createdAt.addNanos C.nanos ≤ a.createdAt) :
    Spaced C (as ++ [a]) := by
  refine List.pairwise_append.mpr ⟨h, by simp, ?_⟩
  intro b hb a' ha'
  obtain rfl : a' = a := by simpa using ha'
  refine ⟨hle b hb, ?_⟩
  obtain ⟨init, last, rfl⟩ := List.eq_nil_or_concat as |>.resolve_left (List.ne_nil_of_mem hb)
  simp only [List.concat_eq_append] at h hb hlast
  have hl := hlast last (by simp)
  have hbl : b.createdAt ≤ last.createdAt := by
    rcases List.mem_append.mp hb with hb | hb
    · exact (List.pairwise_append.mp h).2.2 b hb last (by simp) |>.1
    · obtain rfl : b = last := by simpa using hb
      exact Instant.le_iff.mpr (le_refl _)
  simp only [Instant.le_iff, Instant.addNanos] at hl hbl ⊢
  omega

namespace Alerting

/-- Quieting alerts under a key, exactly: it may fire or not, and when it does its quiet
period starts. -/
theorem allow_exact (W₀ : World) (key : String) (ttl : Duration) :
    ⦃fun W => ⌜W = W₀⌝⦄ allow key ttl
    ⦃post⟨fun b W => ⌜b = W₀.memory.mayFire key W₀.now ∧
        W = if b then { W₀ with memory := W₀.memory.quietFor key (W₀.now.addNanos ttl.nanos) }
          else W₀⌝,
      fun _ _ => ⌜False⌝⟩⦄ := by
  cases hq : W₀.memory.quietUntil.lookup key with
  | none =>
    mvcgen [allow, memory, modifyMemory, -allow_spec]
    all_goals simp_all +zetaDelta [AlertMemory.mayFire, AlertMemory.quietFor,
      -List.lookup_eq_none_iff]
  | some t =>
    mvcgen [allow, memory, modifyMemory, -allow_spec]
    all_goals simp_all +zetaDelta [AlertMemory.mayFire, AlertMemory.quietFor, Instant.le_iff,
      Instant.lt_iff]

/-- Raising an alert, exactly: one id drawn, the alert appended, nothing else changed. -/
theorem raise_exact (W₀ : World) (type severity title message : String)
    (metadata : List (String × String)) :
    ⦃fun W => ⌜W = W₀⌝⦄ raise type severity title message metadata
    ⦃post⟨fun _ W => ⌜W = { W₀ with
        issued := W₀.issued + 1
        store := { W₀.store with alerts := W₀.store.alerts ++
          [⟨idText (W₀.issued + 1), type, severity, title, message, metadata, none, false, "",
            none, W₀.now⟩] } }⌝,
      fun _ _ => ⌜False⌝⟩⦄ := by
  mvcgen [raise, -raise_spec]
  simp_all +zetaDelta

/-! ## Failed reports -/

/-- The failures remembered once one more is counted at the world's time: those after
the window's start, and the new one. -/
def failuresKept (W : World) : List Instant :=
  W.memory.failures.filter (W.now.addNanos W.settings.thresholds.webhookFailureWindow.negate.nanos < ·) ++
    [W.now]

/-- Whether counting one more failure raises an alert: the threshold is set, the
failures remembered reach it, and the key's quiet period is over. -/
def failureFires (W : World) : Bool :=
  decide (0 < W.settings.thresholds.webhookFailureCount) &&
    decide (W.settings.thresholds.webhookFailureCount ≤ (failuresKept W).length) &&
    W.memory.mayFire "webhook_failures" W.now

/-- Counting a failed report: the window is cut and the failure added; when the alert
fires, the key is quieted for the cooldown and one alert is appended, high once the
count is twice the threshold. -/
theorem webhookFailure_effect (W₀ : World) (provider externalId : String)
    (cause : Option String) :
    ⦃fun W => ⌜W = W₀⌝⦄ webhookFailure provider externalId cause
    ⦃post⟨fun _ W => ⌜W.settings = W₀.settings ∧ W.memory.failures = failuresKept W₀ ∧
        (if failureFires W₀ then
          W.memory.quietUntil = (W₀.memory.quietFor "webhook_failures"
            (W₀.now.addNanos W₀.settings.thresholds.cooldown.nanos)).quietUntil ∧
          ∃ a : AlertLog, W.store.alerts = W₀.store.alerts ++ [a] ∧
            a.type = "webhook_failures" ∧
            a.severity = (if 2 * W₀.settings.thresholds.webhookFailureCount ≤
                (failuresKept W₀).length then "high" else "medium") ∧
            a.createdAt = W₀.now
        else W.memory.quietUntil = W₀.memory.quietUntil ∧
          W.store.alerts = W₀.store.alerts)⌝,
      fun _ _ => ⌜False⌝⟩⦄ := by
  mvcgen [webhookFailure, thresholds, memory, modifyMemory, allow_exact, raise_exact, -allow_spec,
    -raise_spec, -webhookFailure_spec]
  all_goals simp_all +zetaDelta [failureFires, failuresKept, AlertMemory.mayFire,
    AlertMemory.quietFor]
  -- the early return: the count is below the threshold, or the threshold is unset
  intros
  omega

/-! ## Credit spikes -/

/-- The credits to `wallet` remembered once `amount` is counted at the world's time:
those within the last minute, and the new one. -/
def creditsKept (W : World) (wallet : String) (amount : Decimal) : List (Instant × Decimal) :=
  (((W.memory.credits.lookup wallet).getD []).filter fun p => W.now.addNanos (-minute) < p.1) ++
    [(W.now, amount)]

/-- The sum of the credits remembered. -/
def creditTotal (kept : List (Instant × Decimal)) : Decimal := kept.foldl (fun acc p => acc + p.2) 0

/-- Whether the credits to `wallet` within the last minute, `amount` counted, are above a
set per-minute threshold. -/
def spikeAbove (W : World) (wallet : String) (amount : Decimal) : Bool :=
  !decide (W.settings.thresholds.creditSpikePerMinute = 0) &&
    !decide (creditTotal (creditsKept W wallet amount) ≤ W.settings.thresholds.creditSpikePerMinute)

/-- The key a wallet's spike alerts are quieted under. -/
def spikeKey (wallet : String) : String := "credit_spike:" ++ wallet

/-- Whether counting the credit raises a spike alert: the credits are above the threshold
and the wallet's key is not quiet. -/
def spikeFires (W : World) (wallet : String) (amount : Decimal) : Bool :=
  spikeAbove W wallet amount && W.memory.mayFire (spikeKey wallet) W.now

/-- Counting a credit: the wallet's window is cut and the credit added, the answer says
whether the window is above the threshold, and when the spike alert fires, the wallet's
key is quieted for the cooldown and one alert for the wallet is appended. -/
theorem creditSpike_effect (W₀ : World) (wallet : String) (amount : Decimal) :
    ⦃fun W => ⌜W = W₀⌝⦄ creditSpike wallet amount
    ⦃post⟨fun b W => ⌜b = spikeAbove W₀ wallet amount ∧ W.settings = W₀.settings ∧
        W.memory.credits = (wallet, creditsKept W₀ wallet amount) ::
          W₀.memory.credits.filter (·.1 != wallet) ∧
        (if spikeFires W₀ wallet amount then
          W.memory.quietUntil = (W₀.memory.quietFor (spikeKey wallet)
            (W₀.now.addNanos W₀.settings.thresholds.cooldown.nanos)).quietUntil ∧
          ∃ a : AlertLog, W.store.alerts = W₀.store.alerts ++ [a] ∧
            a.type = "credit_spike" ∧ a.metadata.lookup "wallet_id" = some wallet ∧
            a.createdAt = W₀.now
        else W.memory.quietUntil = W₀.memory.quietUntil ∧
          W.store.alerts = W₀.store.alerts)⌝,
      fun _ _ => ⌜False⌝⟩⦄ := by
  mvcgen [creditSpike, thresholds, memory, modifyMemory, allow_exact, raise_exact, -allow_spec,
    -raise_spec, -creditSpike_frame]
  all_goals simp_all +zetaDelta [spikeFires, spikeAbove, creditsKept, creditTotal, spikeKey,
    AlertMemory.mayFire, AlertMemory.quietFor]
  -- the early answer: no threshold, or the window is not above it
  rename_i hbelow
  rcases hbelow with h | h <;> simp [h]

end Alerting

/-- A failed provider report, counted at `time`. -/
structure FailureReport where
  time : Instant
  provider : String
  externalId : String
  cause : Option String

/-- The world after counting a failed report, the clock reading its time. -/
def FailureReport.record (r : FailureReport) (w : World) : World :=
  ((Alerting.webhookFailure r.provider r.externalId r.cause).exec { w with now := r.time }).2

/-- The world after counting failed reports one after the other. -/
def recordFailures (w : World) (rs : List FailureReport) : World :=
  rs.foldl (fun w r => r.record w) w

theorem recordFailures_append_singleton (w : World) (rs : List FailureReport) (r : FailureReport) :
    recordFailures w (rs ++ [r]) = r.record (recordFailures w rs) := by
  simp [recordFailures]

/-- The alerts raised since the world `w₀`. -/
def newAlerts (w₀ w : World) : List AlertLog := w.store.alerts.drop w₀.store.alerts.length

theorem newAlerts_of_eq {w₀ w : World} {as : List AlertLog}
    (h : w.store.alerts = w₀.store.alerts ++ as) : newAlerts w₀ w = as := by
  simp [newAlerts, h]

/-- Cutting at a window's start, then at a later one, is cutting at the later one. -/
theorem filter_after_filter_after {α : Type} (f : α → Instant) (l : List α) {c c' : Instant}
    (h : c ≤ c') :
    (l.filter fun x => c < f x).filter (fun x => c' < f x) = l.filter fun x => c' < f x := by
  rw [List.filter_filter]
  apply List.filter_congr
  intro x _
  simp only [Instant.le_iff] at h
  apply Bool.eq_iff_iff.mpr
  simp only [Bool.and_eq_true, decide_eq_true_eq, Instant.lt_iff]
  omega

/-! Both books below remember that each alert raised was made at the time of some call
before it; `time` reads a call's time. -/

section MadeAt

variable {α : Type} (time : α → Instant) {as : List AlertLog} {pre : List α}

/-- Alerts made at the times of calls no later than `t` are no later than `t`. -/
theorem createdAt_le_of_madeAt (h : ∀ a ∈ as, ∃ q ∈ pre, a.createdAt = time q) {t : Instant}
    (hle : ∀ q ∈ pre, time q ≤ t) : ∀ a ∈ as, a.createdAt ≤ t := by
  intro a ha
  obtain ⟨q, hq, hqt⟩ := h a ha
  exact hqt ▸ hle q hq

/-- A call that raises no alert leaves every alert made at an earlier call's time. -/
theorem madeAt_append_call (h : ∀ a ∈ as, ∃ q ∈ pre, a.createdAt = time q) (r : α) :
    ∀ a ∈ as, ∃ q ∈ pre ++ [r], a.createdAt = time q := by
  intro a ha
  obtain ⟨q, hq, hqt⟩ := h a ha
  exact ⟨q, List.mem_append_left _ hq, hqt⟩

/-- A call that raises an alert at its own time keeps every alert made at a call's time. -/
theorem madeAt_snoc (h : ∀ a ∈ as, ∃ q ∈ pre, a.createdAt = time q) {a : AlertLog} {r : α}
    (ha : a.createdAt = time r) :
    ∀ b ∈ as ++ [a], ∃ q ∈ pre ++ [r], b.createdAt = time q := by
  intro b hb
  rcases List.mem_append.mp hb with hb | hb
  · exact madeAt_append_call time h r b hb
  · obtain rfl : b = a := by simpa using hb
    exact ⟨r, by simp, ha⟩

end MadeAt

namespace FailureReport

variable {w₀ w : World} {pre : List FailureReport} {r : FailureReport}

/-- The start of the failure window at the report's time: the window negated in 64 bits,
added to the time. -/
def windowStart (r : FailureReport) (W : Duration) : Instant := r.time.addNanos W.negate.nanos

/-- What counting failures keeps, after the reports `pre` counted from `w₀`. The
failures remembered are the reports' times, cut at any instant at or past every
report's window start; the key's quiet period ends a cooldown after the last alert
raised; and the alerts raised are spaced, each at some report's time. -/
structure Book (w₀ : World) (pre : List FailureReport) (w : World) : Prop where
  settings : w.settings = w₀.settings
  window : ∀ c : Instant, (∀ q ∈ pre, q.windowStart w₀.settings.thresholds.webhookFailureWindow ≤ c) →
    w.memory.failures.filter (c < ·) = (pre.map (·.time)).filter (c < ·)
  alerts : w.store.alerts = w₀.store.alerts ++ newAlerts w₀ w
  quiet : w.memory.quietUntil.lookup "webhook_failures" =
    (newAlerts w₀ w).getLast?.map (·.createdAt.addNanos w₀.settings.thresholds.cooldown.nanos)
  spaced : Spaced w₀.settings.thresholds.cooldown (newAlerts w₀ w)
  atReports : ∀ a ∈ newAlerts w₀ w, ∃ q ∈ pre, a.createdAt = q.time

/-- A fresh failure window and an unused key: nothing counted yet. -/
theorem Book.init (hfresh : w₀.memory.failures = [])
    (hquiet : w₀.memory.quietUntil.lookup "webhook_failures" = none) : Book w₀ [] w₀ where
  settings := rfl
  window := by simp [hfresh]
  alerts := by simp [newAlerts]
  quiet := by simp [newAlerts, hquiet]
  spaced := by simp [newAlerts, Spaced]
  atReports := by simp [newAlerts]

/-- What counting one report does, read off `webhookFailure_effect`. -/
theorem record_spec (r : FailureReport) (w : World) :
    let W := { w with now := r.time }
    (r.record w).settings = w.settings ∧
      (r.record w).memory.failures = Alerting.failuresKept W ∧
      (if Alerting.failureFires W then
        (r.record w).memory.quietUntil = (w.memory.quietFor "webhook_failures"
          (r.time.addNanos w.settings.thresholds.cooldown.nanos)).quietUntil ∧
        ∃ a : AlertLog, (r.record w).store.alerts = w.store.alerts ++ [a] ∧
          a.type = "webhook_failures" ∧
          a.severity = (if 2 * w.settings.thresholds.webhookFailureCount ≤
              (Alerting.failuresKept W).length then "high" else "medium") ∧
          a.createdAt = r.time
      else (r.record w).memory.quietUntil = w.memory.quietUntil ∧
        (r.record w).store.alerts = w.store.alerts) :=
  Op.world_of_answered (Alerting.webhookFailure_effect _ r.provider r.externalId r.cause) rfl

theorem windowStart_le {q r : FailureReport} (W : Duration) (h : q.time ≤ r.time) :
    q.windowStart W ≤ r.windowStart W :=
  Instant.addNanos_le_addNanos h _

/-- The failures remembered after a report: the earlier reports after its window start,
and itself. -/
theorem Book.failures (hb : Book w₀ pre w) (hle : ∀ q ∈ pre, q.time ≤ r.time) :
    (r.record w).memory.failures =
      (pre.map (·.time)).filter
        (r.windowStart w₀.settings.thresholds.webhookFailureWindow < ·) ++ [r.time] := by
  rw [(record_spec r w).2.1, Alerting.failuresKept]
  simp only [hb.settings]
  rw [← hb.window _ (fun q hq => windowStart_le _ (hle q hq))]
  rfl

/-- The count at a report: its own failure and the earlier ones after its window start. -/
theorem Book.count (hb : Book w₀ pre w) (hle : ∀ q ∈ pre, q.time ≤ r.time) :
    (r.record w).memory.failures.length =
      (pre.filter
        (r.windowStart w₀.settings.thresholds.webhookFailureWindow < ·.time)).length + 1 := by
  rw [hb.failures hle, List.length_append, List.filter_map, List.length_map]
  rfl

/-- Whether an alert fires at a report, read off the book: the threshold is set, the
count reaches it, and the last alert raised is a cooldown old, or there is none. -/
theorem Book.fires_iff (hb : Book w₀ pre w) :
    Alerting.failureFires { w with now := r.time } = true ↔
      0 < w₀.settings.thresholds.webhookFailureCount ∧
        w₀.settings.thresholds.webhookFailureCount ≤
          ((r.record w).memory.failures.length : Int) ∧
        ∀ a ∈ (newAlerts w₀ w).getLast?,
          a.createdAt.addNanos w₀.settings.thresholds.cooldown.nanos ≤ r.time := by
  have hmay : w.memory.mayFire "webhook_failures" r.time = true ↔ _ :=
    AlertMemory.mayFire_iff hb.quiet
  rw [(record_spec r w).2.1]
  simp only [Alerting.failureFires, hb.settings, Bool.and_eq_true, decide_eq_true_eq, and_assoc]
  rw [← hmay]

/-- The alert at a report, read off the book: one alert, high once the count is twice
the threshold, exactly when the count reaches the threshold and the last alert raised is
a cooldown old; otherwise none. -/
theorem Book.alerts_record (hb : Book w₀ pre w)
    (hN : 0 < w₀.settings.thresholds.webhookFailureCount) :
    let count := (r.record w).memory.failures.length
    if w₀.settings.thresholds.webhookFailureCount ≤ (count : Int) ∧
        ∀ a ∈ (newAlerts w₀ w).getLast?,
          a.createdAt.addNanos w₀.settings.thresholds.cooldown.nanos ≤ r.time then
      ∃ a : AlertLog, (r.record w).store.alerts = w.store.alerts ++ [a] ∧
        a.type = "webhook_failures" ∧
        a.severity = (if 2 * w₀.settings.thresholds.webhookFailureCount ≤ (count : Int)
          then "high" else "medium") ∧
        a.createdAt = r.time
    else (r.record w).store.alerts = w.store.alerts := by
  intro count
  obtain ⟨-, hkept, hfires⟩ := record_spec r w
  split
  · next hc =>
    rw [if_pos (hb.fires_iff.mpr ⟨hN, hc.1, hc.2⟩)] at hfires
    obtain ⟨-, a, halerts, htype, hsev, hat⟩ := hfires
    refine ⟨a, halerts, htype, ?_, hat⟩
    rw [hsev, ← hkept, hb.settings]
  · next hc =>
    have hf : Alerting.failureFires { w with now := r.time } = false := by
      by_contra hf
      obtain ⟨-, hcount, hlast⟩ := hb.fires_iff.mp (by simpa using hf)
      exact hc ⟨hcount, hlast⟩
    rw [if_neg (by simp [hf])] at hfires
    exact hfires.2

/-- One more report keeps the book. -/
theorem Book.record (hb : Book w₀ pre w) (hle : ∀ q ∈ pre, q.time ≤ r.time) :
    Book w₀ (pre ++ [r]) (r.record w) := by
  obtain ⟨hset, -, hfires⟩ := record_spec r w
  have hbefore := createdAt_le_of_madeAt FailureReport.time hb.atReports hle
  have hwindow : ∀ c : Instant,
      (∀ q ∈ pre ++ [r], q.windowStart w₀.settings.thresholds.webhookFailureWindow ≤ c) →
      (r.record w).memory.failures.filter (c < ·) =
        ((pre ++ [r]).map (·.time)).filter (c < ·) := by
    intro c hc
    have hstart := hc r (by simp)
    have hcut := filter_after_filter_after (fun x : Instant => x) (pre.map (·.time)) hstart
    rw [hb.failures hle, List.filter_append, hcut, List.map_append, List.filter_append]
    rfl
  split at hfires
  · -- the alert fires: its key is quieted, and the alert is a cooldown after the last
    next hf =>
    obtain ⟨hquiet, a, halerts, -, -, hat⟩ := hfires
    have hnew : newAlerts w₀ (r.record w) = newAlerts w₀ w ++ [a] :=
      newAlerts_of_eq (by rw [halerts, hb.alerts, List.append_assoc])
    have hlast := (hb.fires_iff.mp hf).2.2
    refine ⟨hset.trans hb.settings, hwindow, ?_, ?_, ?_, ?_⟩
    · rw [hnew, halerts, hb.alerts, List.append_assoc]
    · rw [hquiet, hnew, AlertMemory.lookup_quietFor, if_pos rfl, hb.settings]
      simp [hat]
    · rw [hnew]
      exact hb.spaced.append (fun b hbm => hat ▸ hbefore b hbm) (fun b hbm => hat ▸ hlast b hbm)
    · rw [hnew]
      exact madeAt_snoc FailureReport.time hb.atReports hat
  · -- no alert: the alerts and the key stay as they were
    obtain ⟨hquiet, halerts⟩ := hfires
    have hnew : newAlerts w₀ (r.record w) = newAlerts w₀ w := by simp [newAlerts, halerts]
    refine ⟨hset.trans hb.settings, hwindow, ?_, ?_, ?_, ?_⟩
    · rw [hnew, halerts, hb.alerts]
    · rw [hquiet, hnew, hb.quiet]
    · exact hnew ▸ hb.spaced
    · rw [hnew]
      exact madeAt_append_call FailureReport.time hb.atReports r

end FailureReport

/-- Every sequence of failed reports at times that never go back, counted from a fresh
window and an unused key, keeps the book. -/
theorem book_recordFailures {w₀ : World} (hfresh : w₀.memory.failures = [])
    (hquiet : w₀.memory.quietUntil.lookup "webhook_failures" = none) {pre : List FailureReport}
    (hsorted : pre.Pairwise fun a b => a.time ≤ b.time) :
    FailureReport.Book w₀ pre (recordFailures w₀ pre) := by
  induction pre using List.reverseRecOn with
  | nil => exact FailureReport.Book.init hfresh hquiet
  | append_singleton pre r ih =>
    rw [List.pairwise_append] at hsorted
    rw [recordFailures_append_singleton]
    exact (ih hsorted.1).record fun q hq => hsorted.2.2 q hq r (by simp)

/-- **Failure alerts follow their window and cooldown.** Count failed reports at times
that never go back, from a fresh window and an unused key, with a threshold `N` of at
least one, a window `W` and a cooldown `C`. At each report, at time `t`:

* the count is one more than the earlier reports at times in `(t - W', t]`, where `W'`,
  the span the window reaches back, is `W` negated twice in 64 bits: `W` itself for every
  window but the least, `-2 ^ 63` nanoseconds, which negates to itself and reaches back
  `2 ^ 63` nanoseconds; when `W'` is positive this is the number of reports so far, this
  one included, at times in that window (a window that reaches back no span still counts
  the report itself);
* a `webhook_failures` alert is raised exactly when the count reaches `N` and the last
  alert raised, if any, is at least `C` old; it is high once the count is `2 N`, medium
  below that, and carries the report's time;
* all alerts raised are in time order and at least `C` apart. -/
theorem failure_alerts_follow_window (w₀ : World) (pre : List FailureReport) (r : FailureReport)
    (hsorted : (pre ++ [r]).Pairwise fun a b => a.time ≤ b.time)
    (hN : 0 < w₀.settings.thresholds.webhookFailureCount) (hfresh : w₀.memory.failures = [])
    (hquiet : w₀.memory.quietUntil.lookup "webhook_failures" = none) :
    let th := w₀.settings.thresholds
    let before := recordFailures w₀ pre
    let after := recordFailures w₀ (pre ++ [r])
    let count := after.memory.failures.length
    let inWindow := fun q : FailureReport =>
      decide (r.windowStart th.webhookFailureWindow < q.time ∧ q.time ≤ r.time)
    count = (pre.filter inWindow).length + 1 ∧
    (th.webhookFailureWindow.negate.nanos < 0 → count = ((pre ++ [r]).filter inWindow).length) ∧
    (if th.webhookFailureCount ≤ (count : Int) ∧
        ∀ a ∈ (newAlerts w₀ before).getLast?, a.createdAt.addNanos th.cooldown.nanos ≤ r.time then
      ∃ a : AlertLog, after.store.alerts = before.store.alerts ++ [a] ∧
        a.type = "webhook_failures" ∧
        a.severity = (if 2 * th.webhookFailureCount ≤ (count : Int) then "high" else "medium") ∧
        a.createdAt = r.time
    else after.store.alerts = before.store.alerts) ∧
    Spaced th.cooldown (newAlerts w₀ after) := by
  intro th before after count inWindow
  have hsplit := List.pairwise_append.mp hsorted
  have hle : ∀ q ∈ pre, q.time ≤ r.time := fun q hq => hsplit.2.2 q hq r (by simp)
  have hb : FailureReport.Book w₀ pre before := book_recordFailures hfresh hquiet hsplit.1
  have hafter : after = r.record before := recordFailures_append_singleton w₀ pre r
  -- every earlier report is no later than this one, so the window's end cuts nothing
  have hpre : pre.filter inWindow = pre.filter (r.windowStart th.webhookFailureWindow < ·.time) :=
    List.filter_congr fun q hq => by simp [inWindow, hle q hq]
  have hcount_after : count = (r.record before).memory.failures.length := by
    show after.memory.failures.length = _
    rw [hafter]
  have hcount : count = (pre.filter inWindow).length + 1 := by
    rw [hpre, hcount_after]
    exact hb.count hle
  refine ⟨hcount, ?_, ?_, ?_⟩
  · intro hW
    have hin : inWindow r = true := by
      simp only [inWindow, decide_eq_true_eq, FailureReport.windowStart, Instant.lt_iff,
        Instant.le_iff, Instant.addNanos]
      omega
    rw [hcount, List.filter_append, List.length_append, List.filter_singleton, hin]
    rfl
  · rw [hcount_after, hafter]
    exact hb.alerts_record hN
  · rw [hafter]
    exact (hb.record hle).spaced

/-- Five failures at one instant, with the default threshold of five: the fifth one's
count is five. -/
theorem failure_alerts_follow_window_fifthReport :
    let w₀ := Setup.world {}
    let report := fun id : String => (⟨w₀.now, "moonpay", id, none⟩ : FailureReport)
    let pre := [report "e1", report "e2", report "e3", report "e4"]
    ((pre ++ [report "e5"]).Pairwise fun a b => a.time ≤ b.time) ∧
      0 < w₀.settings.thresholds.webhookFailureCount ∧
      (recordFailures w₀ (pre ++ [report "e5"])).memory.failures.length = 5 := by
  intro w₀ report pre
  have hsorted : (pre ++ [report "e5"]).Pairwise fun a b => a.time ≤ b.time := by decide
  have hN : 0 < w₀.settings.thresholds.webhookFailureCount := by decide
  obtain ⟨hcount, -⟩ := failure_alerts_follow_window w₀ pre (report "e5") hsorted hN rfl rfl
  exact ⟨hsorted, hN, hcount.trans (by decide)⟩

/-- With a window of zero, the one failure counted is outside its own window, yet it is
counted, and with a threshold of one it raises an alert. -/
theorem failure_count_with_empty_window :
    let w₀ := Setup.world
      { thresholds := { webhookFailureCount := some 1, webhookFailureWindow := some ⟨0⟩ } }
    let r : FailureReport := ⟨w₀.now, "moonpay", "x", none⟩
    (recordFailures w₀ [r]).memory.failures.length = 1 ∧
      ([r].filter fun q => decide (r.windowStart w₀.settings.thresholds.webhookFailureWindow < q.time ∧
        q.time ≤ r.time)).length = 0 ∧
      (recordFailures w₀ [r]).store.alerts.length = 1 := by
  decide

/-! ## Credits per wallet -/

/-- A credit of `amount` to `wallet`, counted towards the wallet's spike window at `time`. -/
structure CreditCall where
  time : Instant
  wallet : String
  amount : Decimal

namespace CreditCall

/-- Counting the credit, the clock reading its time: the answer and the world after. -/
def check (c : CreditCall) (w : World) : Except Error Bool × World :=
  (Alerting.creditSpike c.wallet c.amount).exec { w with now := c.time }

/-- The sum of the amounts credited to the call's wallet within the minute up to it: the
calls of `cs` for that wallet at times in `(t - 1 minute, t]`. -/
def windowSum (cs : List CreditCall) (r : CreditCall) : Decimal :=
  ((cs.filter fun q => q.wallet = r.wallet ∧ r.time.addNanos (-Alerting.minute) < q.time ∧
    q.time ≤ r.time).map (·.amount)).foldl (· + ·) 0

end CreditCall

/-- The world after counting credits one after the other. -/
def checkCredits (w : World) (cs : List CreditCall) : World :=
  cs.foldl (fun w c => (c.check w).2) w

theorem checkCredits_append_singleton (w : World) (cs : List CreditCall) (c : CreditCall) :
    checkCredits w (cs ++ [c]) = (c.check (checkCredits w cs)).2 := by
  simp [checkCredits]

/-- The alerts among `as` raised for `wallet`. -/
def alertsFor (wallet : String) (as : List AlertLog) : List AlertLog :=
  as.filter fun a => a.metadata.lookup "wallet_id" == some wallet

theorem alertsFor_append_singleton (v : String) (as : List AlertLog) (a : AlertLog) :
    alertsFor v (as ++ [a]) =
      alertsFor v as ++ if a.metadata.lookup "wallet_id" = some v then [a] else [] := by
  by_cases h : a.metadata.lookup "wallet_id" = some v <;> simp [alertsFor, h]

theorem spikeKey_inj {v u : String} (h : Alerting.spikeKey v = Alerting.spikeKey u) : v = u :=
  (String.append_right_inj _).mp h

namespace CreditCall

variable {w₀ w : World} {pre : List CreditCall} {r : CreditCall}

/-- What counting one credit does, read off `creditSpike_effect`. -/
theorem check_spec (r : CreditCall) (w : World) :
    let W := { w with now := r.time }
    (r.check w).1 = .ok (Alerting.spikeAbove W r.wallet r.amount) ∧
    (r.check w).2.settings = w.settings ∧
    (r.check w).2.memory.credits = (r.wallet, Alerting.creditsKept W r.wallet r.amount) ::
      w.memory.credits.filter (·.1 != r.wallet) ∧
    (if Alerting.spikeFires W r.wallet r.amount then
      (r.check w).2.memory.quietUntil = (w.memory.quietFor (Alerting.spikeKey r.wallet)
        (r.time.addNanos w.settings.thresholds.cooldown.nanos)).quietUntil ∧
      ∃ a : AlertLog, (r.check w).2.store.alerts = w.store.alerts ++ [a] ∧
        a.type = "credit_spike" ∧ a.metadata.lookup "wallet_id" = some r.wallet ∧
        a.createdAt = r.time
    else (r.check w).2.memory.quietUntil = w.memory.quietUntil ∧
      (r.check w).2.store.alerts = w.store.alerts) := by
  intro W
  have hend := Op.ends_of_triple (Alerting.creditSpike_effect W r.wallet r.amount) rfl
  unfold check
  revert hend
  rcases (Alerting.creditSpike r.wallet r.amount).exec W with ⟨_ | b, w'⟩
  · simp
  · rintro ⟨rfl, hrest⟩
    exact ⟨rfl, hrest⟩

/-- What counting credits keeps, after the calls `pre` counted from `w₀`. Each wallet's
credits remembered are its calls' times and amounts, cut at any instant at or past
every call's window start; each wallet's key is quiet until a cooldown after the last
alert raised for it; and each wallet's alerts are spaced, each at some call's time. -/
structure Book (w₀ : World) (pre : List CreditCall) (w : World) : Prop where
  settings : w.settings = w₀.settings
  window : ∀ (v : String) (c : Instant), (∀ q ∈ pre, q.time.addNanos (-Alerting.minute) ≤ c) →
    ((w.memory.credits.lookup v).getD []).filter (fun p => c < p.1) =
      ((pre.filter (·.wallet = v)).map fun q => (q.time, q.amount)).filter fun p => c < p.1
  alerts : w.store.alerts = w₀.store.alerts ++ newAlerts w₀ w
  quiet : ∀ v, w.memory.quietUntil.lookup (Alerting.spikeKey v) =
    (alertsFor v (newAlerts w₀ w)).getLast?.map (·.createdAt.addNanos w₀.settings.thresholds.cooldown.nanos)
  spaced : ∀ v, Spaced w₀.settings.thresholds.cooldown (alertsFor v (newAlerts w₀ w))
  atCalls : ∀ a ∈ newAlerts w₀ w, ∃ q ∈ pre, a.createdAt = q.time

/-- No credit remembered and no wallet's key used: nothing counted yet. -/
theorem Book.init (hfresh : w₀.memory.credits = [])
    (hquiet : ∀ v, w₀.memory.quietUntil.lookup (Alerting.spikeKey v) = none) :
    Book w₀ [] w₀ where
  settings := rfl
  window := by simp [hfresh]
  alerts := by simp [newAlerts]
  quiet := by simp [newAlerts, alertsFor, hquiet]
  spaced := by simp [newAlerts, alertsFor, Spaced]
  atCalls := by simp [newAlerts]

theorem minuteStart_le {q r : CreditCall} (h : q.time ≤ r.time) :
    q.time.addNanos (-Alerting.minute) ≤ r.time.addNanos (-Alerting.minute) :=
  Instant.addNanos_le_addNanos h _

/-- The credits remembered for the call's wallet, this one counted: the wallet's earlier
credits within the minute, and this one. -/
theorem Book.kept (hb : Book w₀ pre w) (hle : ∀ q ∈ pre, q.time ≤ r.time) :
    Alerting.creditsKept { w with now := r.time } r.wallet r.amount =
      ((pre.filter (·.wallet = r.wallet)).map fun q => (q.time, q.amount)).filter
        (fun p => r.time.addNanos (-Alerting.minute) < p.1) ++ [(r.time, r.amount)] := by
  unfold Alerting.creditsKept
  rw [← hb.window r.wallet _ (fun q hq => minuteStart_le (hle q hq))]

/-- The credits remembered sum to the amounts of the wallet's calls within the minute up
to this one, this one included. -/
theorem Book.total (hb : Book w₀ pre w) (hle : ∀ q ∈ pre, q.time ≤ r.time) :
    Alerting.creditTotal (Alerting.creditsKept { w with now := r.time } r.wallet r.amount) =
      windowSum (pre ++ [r]) r := by
  have hr : r.time.addNanos (-Alerting.minute) < r.time := by
    simp only [Instant.lt_iff, Instant.addNanos, Alerting.minute, Instant.nanosPerSecond]
    omega
  -- every earlier call is no later than this one: within the minute means after its start
  have hpre : (pre.filter fun q =>
        q.wallet = r.wallet ∧ r.time.addNanos (-Alerting.minute) < q.time ∧ q.time ≤ r.time) =
      (pre.filter (·.wallet = r.wallet)).filter
        (r.time.addNanos (-Alerting.minute) < ·.time) := by
    rw [List.filter_filter]
    exact List.filter_congr fun q hq =>
      Bool.eq_iff_iff.mpr (by
        simp only [hle q hq, decide_eq_true_eq, Bool.and_eq_true, and_true]
        exact and_comm)
  rw [hb.kept hle, windowSum, List.filter_append, hpre, List.filter_map]
  simp [Alerting.creditTotal, List.foldl_map, hr]

/-- The answer's test, read off the book: a threshold is set and the minute's sum passes
it. -/
theorem Book.above_iff (hb : Book w₀ pre w) (hle : ∀ q ∈ pre, q.time ≤ r.time) :
    Alerting.spikeAbove { w with now := r.time } r.wallet r.amount =
      decide (w₀.settings.thresholds.creditSpikePerMinute ≠ 0 ∧
        w₀.settings.thresholds.creditSpikePerMinute < windowSum (pre ++ [r]) r) := by
  have htotal := hb.total hle
  unfold Alerting.spikeAbove
  rw [htotal]
  apply Bool.eq_iff_iff.mpr
  simp only [hb.settings, Bool.and_eq_true, Bool.not_eq_true', decide_eq_false_iff_not,
    decide_eq_true_eq, Decimal.le_iff_value, Decimal.lt_iff_value, not_le]

/-- Whether a spike alert fires at a call, read off the book: the minute's sum passes a
set threshold, and the last alert raised for the wallet is a cooldown old, or there is
none. -/
theorem Book.fires_iff (hb : Book w₀ pre w) (hle : ∀ q ∈ pre, q.time ≤ r.time) :
    Alerting.spikeFires { w with now := r.time } r.wallet r.amount = true ↔
      (w₀.settings.thresholds.creditSpikePerMinute ≠ 0 ∧
        w₀.settings.thresholds.creditSpikePerMinute < windowSum (pre ++ [r]) r) ∧
      ∀ a ∈ (alertsFor r.wallet (newAlerts w₀ w)).getLast?,
        a.createdAt.addNanos w₀.settings.thresholds.cooldown.nanos ≤ r.time := by
  have hmay : w.memory.mayFire (Alerting.spikeKey r.wallet) r.time = true ↔ _ :=
    AlertMemory.mayFire_iff (hb.quiet r.wallet)
  unfold Alerting.spikeFires
  rw [Bool.and_eq_true, hb.above_iff hle, decide_eq_true_eq]
  exact and_congr_right fun _ => hmay

/-- The alert at a call, read off the book: one alert for the wallet exactly when the
minute's sum passes a set threshold and the wallet's last alert is a cooldown old;
otherwise none. -/
theorem Book.alerts_check (hb : Book w₀ pre w) (hle : ∀ q ∈ pre, q.time ≤ r.time) :
    if (w₀.settings.thresholds.creditSpikePerMinute ≠ 0 ∧
          w₀.settings.thresholds.creditSpikePerMinute < windowSum (pre ++ [r]) r) ∧
        ∀ a ∈ (alertsFor r.wallet (newAlerts w₀ w)).getLast?,
          a.createdAt.addNanos w₀.settings.thresholds.cooldown.nanos ≤ r.time then
      ∃ a : AlertLog, (r.check w).2.store.alerts = w.store.alerts ++ [a] ∧
        a.type = "credit_spike" ∧ a.metadata.lookup "wallet_id" = some r.wallet ∧
        a.createdAt = r.time
    else (r.check w).2.store.alerts = w.store.alerts := by
  obtain ⟨-, -, -, hfires⟩ := check_spec r w
  split
  · next hc =>
    rw [if_pos ((hb.fires_iff hle).mpr hc)] at hfires
    exact hfires.2
  · next hc =>
    have hf : Alerting.spikeFires { w with now := r.time } r.wallet r.amount = false := by
      by_contra hf
      exact hc ((hb.fires_iff hle).mp (by simpa using hf))
    rw [if_neg (by simp [hf])] at hfires
    exact hfires.2

/-- One more call keeps the book. -/
theorem Book.record (hb : Book w₀ pre w) (hle : ∀ q ∈ pre, q.time ≤ r.time) :
    Book w₀ (pre ++ [r]) (r.check w).2 := by
  obtain ⟨-, hset, hcredits, hfires⟩ := check_spec r w
  have hbefore := createdAt_le_of_madeAt CreditCall.time hb.atCalls hle
  have hwindow : ∀ (v : String) (c : Instant),
      (∀ q ∈ pre ++ [r], q.time.addNanos (-Alerting.minute) ≤ c) →
      (((r.check w).2.memory.credits.lookup v).getD []).filter (fun p => c < p.1) =
        (((pre ++ [r]).filter (·.wallet = v)).map fun q => (q.time, q.amount)).filter
          fun p => c < p.1 := by
    intro v c hc
    rw [hcredits, List.lookup_put]
    by_cases hv : v = r.wallet
    · -- the call's own wallet: its window cut at this call's start, and the credit added
      subst hv
      have hcut := filter_after_filter_after (fun p : Instant × Decimal => p.1)
        ((pre.filter (·.wallet = r.wallet)).map fun q => (q.time, q.amount)) (hc r (by simp))
      simp only [if_pos, Option.getD_some]
      rw [hb.kept hle, List.filter_append, hcut, List.filter_append]
      simp
    · -- another wallet: nothing of it changes
      rw [if_neg hv, hb.window v c fun q hq => hc q (List.mem_append_left _ hq), List.filter_append]
      simp [Ne.symm hv]
  split at hfires
  · -- the alert fires: the wallet's key is quieted, and the alert is a cooldown after its
    -- last one
    next hf =>
    obtain ⟨hquiet, a, halerts, -, hwallet, hat⟩ := hfires
    have hnew : newAlerts w₀ (r.check w).2 = newAlerts w₀ w ++ [a] :=
      newAlerts_of_eq (by rw [halerts, hb.alerts, List.append_assoc])
    have hlast := ((hb.fires_iff hle).mp hf).2
    refine ⟨hset.trans hb.settings, hwindow, ?_, ?_, ?_, ?_⟩
    · rw [hnew, halerts, hb.alerts, List.append_assoc]
    · intro v
      rw [hquiet, hnew, alertsFor_append_singleton, hwallet, AlertMemory.lookup_quietFor]
      by_cases hv : v = r.wallet
      · subst hv
        simp [hat, hb.settings]
      · have hkey : Alerting.spikeKey v ≠ Alerting.spikeKey r.wallet :=
          fun h => hv (spikeKey_inj h)
        simp [hkey, Ne.symm hv, hb.quiet v]
    · intro v
      rw [hnew, alertsFor_append_singleton, hwallet]
      by_cases hv : v = r.wallet
      · subst hv
        simp only [if_pos]
        exact (hb.spaced r.wallet).append
          (fun b hbm => hat ▸ hbefore b (List.mem_of_mem_filter hbm))
          (fun b hbm => hat ▸ hlast b hbm)
      · simpa [Ne.symm hv] using hb.spaced v
    · rw [hnew]
      exact madeAt_snoc CreditCall.time hb.atCalls hat
  · -- no alert: the alerts and the keys stay as they were
    obtain ⟨hquiet, halerts⟩ := hfires
    have hnew : newAlerts w₀ (r.check w).2 = newAlerts w₀ w := by simp [newAlerts, halerts]
    refine ⟨hset.trans hb.settings, hwindow, ?_, ?_, ?_, ?_⟩
    · rw [hnew, halerts, hb.alerts]
    · intro v
      rw [hquiet, hnew, hb.quiet v]
    · exact hnew ▸ hb.spaced
    · rw [hnew]
      exact madeAt_append_call CreditCall.time hb.atCalls r

end CreditCall

/-- Every sequence of credits at times that never go back, counted from no credits
remembered and no wallet's key used, keeps the book. -/
theorem book_checkCredits {w₀ : World} (hfresh : w₀.memory.credits = [])
    (hquiet : ∀ v, w₀.memory.quietUntil.lookup (Alerting.spikeKey v) = none)
    {pre : List CreditCall}
    (hsorted : pre.Pairwise fun a b => a.time ≤ b.time) :
    CreditCall.Book w₀ pre (checkCredits w₀ pre) := by
  induction pre using List.reverseRecOn with
  | nil => exact CreditCall.Book.init hfresh hquiet
  | append_singleton pre r ih =>
    rw [List.pairwise_append] at hsorted
    rw [checkCredits_append_singleton]
    exact (ih hsorted.1).record fun q hq => hsorted.2.2 q hq r (by simp)

/-- Each credit's answer, over a sequence of credits at times that never go back: a
threshold is set and the wallet's sum within the minute passes it. -/
theorem answer_checkCredits {w₀ : World} (hfresh : w₀.memory.credits = [])
    (hquiet : ∀ v, w₀.memory.quietUntil.lookup (Alerting.spikeKey v) = none)
    {pre : List CreditCall}
    {r : CreditCall} (hsorted : (pre ++ [r]).Pairwise fun a b => a.time ≤ b.time) :
    (r.check (checkCredits w₀ pre)).1 =
      .ok (decide (w₀.settings.thresholds.creditSpikePerMinute ≠ 0 ∧
        w₀.settings.thresholds.creditSpikePerMinute < CreditCall.windowSum (pre ++ [r]) r)) := by
  have hsplit := List.pairwise_append.mp hsorted
  have hb := book_checkCredits hfresh hquiet hsplit.1
  rw [(CreditCall.check_spec r _).1, hb.above_iff fun q hq => hsplit.2.2 q hq r (by simp)]

/-- A wallet's sum within the minute counts its own calls only. -/
theorem windowSum_filter_wallet (pre : List CreditCall) (r : CreditCall) :
    CreditCall.windowSum (pre.filter (·.wallet = r.wallet) ++ [r]) r =
      CreditCall.windowSum (pre ++ [r]) r := by
  unfold CreditCall.windowSum
  rw [List.filter_append, List.filter_append, List.filter_filter]
  congr 3
  exact List.filter_congr fun q _ => by
    by_cases h : q.wallet = r.wallet <;> simp [h]

/-- **Credit spikes follow a per-wallet one-minute window.** Count credits at times that
never go back, from no credits remembered and no wallet's key used. At each call for a
wallet `w`, at time `t`:

* the answer is true exactly when the per-minute threshold `T` is set and the amounts
  of the calls for `w` at times in `(t - 1 minute, t]`, this one included, add up to
  more than `T`;
* calls for other wallets change nothing of it: the answer is the one the call would
  get had only `w`'s calls been made;
* a `credit_spike` alert for `w` is raised exactly when the answer is true and the last
  alert raised for `w`, if any, is at least the cooldown `C` old;
* each wallet's alerts are in time order and at least `C` apart. -/
theorem spike_checks_follow_window (w₀ : World) (pre : List CreditCall) (r : CreditCall)
    (hsorted : (pre ++ [r]).Pairwise fun a b => a.time ≤ b.time)
    (hfresh : w₀.memory.credits = [])
    (hquiet : ∀ v, w₀.memory.quietUntil.lookup (Alerting.spikeKey v) = none) :
    let th := w₀.settings.thresholds
    let before := checkCredits w₀ pre
    let after := checkCredits w₀ (pre ++ [r])
    let spike := th.creditSpikePerMinute ≠ 0 ∧
      th.creditSpikePerMinute < CreditCall.windowSum (pre ++ [r]) r
    (r.check before).1 = .ok (decide spike) ∧
    (r.check before).1 = (r.check (checkCredits w₀ (pre.filter (·.wallet = r.wallet)))).1 ∧
    (if spike ∧ ∀ a ∈ (alertsFor r.wallet (newAlerts w₀ before)).getLast?,
        a.createdAt.addNanos th.cooldown.nanos ≤ r.time then
      ∃ a : AlertLog, after.store.alerts = before.store.alerts ++ [a] ∧ a.type = "credit_spike" ∧
        a.metadata.lookup "wallet_id" = some r.wallet ∧ a.createdAt = r.time
    else after.store.alerts = before.store.alerts) ∧
    ∀ v, Spaced th.cooldown (alertsFor v (newAlerts w₀ after)) := by
  intro th before after spike
  have hsplit := List.pairwise_append.mp hsorted
  have hle : ∀ q ∈ pre, q.time ≤ r.time := fun q hq => hsplit.2.2 q hq r (by simp)
  have hb : CreditCall.Book w₀ pre before := book_checkCredits hfresh hquiet hsplit.1
  have hafter : after = (r.check before).2 := checkCredits_append_singleton w₀ pre r
  have hanswer : (r.check before).1 = .ok (decide spike) :=
    answer_checkCredits hfresh hquiet hsorted
  -- the wallet's own calls alone are still in time order, and have the same sum
  have hown : ((pre.filter (·.wallet = r.wallet)) ++ [r]).Pairwise fun a b => a.time ≤ b.time :=
    hsorted.sublist ((List.filter_sublist).append (List.Sublist.refl [r]))
  refine ⟨hanswer, ?_, ?_, ?_⟩
  · rw [hanswer, answer_checkCredits hfresh hquiet hown, windowSum_filter_wallet]
  · rw [hafter]
    exact hb.alerts_check hle
  · rw [hafter]
    exact (hb.record hle).spaced

/-- Credits of 6000 to `a`, 9000 to `b` and 5000 to `a` within one minute, with the
default threshold of 10000: the second credit to `a` passes it, whatever `b` received. -/
theorem spike_checks_follow_window_secondCredit :
    let w₀ := Setup.world {}
    let pre : List CreditCall := [⟨w₀.now, "a", 6000⟩, ⟨w₀.now, "b", 9000⟩]
    let r : CreditCall := ⟨w₀.now, "a", 5000⟩
    ((pre ++ [r]).Pairwise fun a b => a.time ≤ b.time) ∧
      (r.check (checkCredits w₀ pre)).1 = .ok true := by
  intro w₀ pre r
  have hsorted : (pre ++ [r]).Pairwise fun a b => a.time ≤ b.time := by decide
  obtain ⟨hanswer, -⟩ := spike_checks_follow_window w₀ pre r hsorted rfl (fun _ => rfl)
  exact ⟨hsorted, hanswer.trans (by decide)⟩

end OnrampLedger
