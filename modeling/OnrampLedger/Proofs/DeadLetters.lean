import OnrampLedger.Proofs.PaymentRows
import OnrampLedger.Scenario.Setup

/-!
# Retries and dead letters

A payment row whose processing failed is attempted again by each retry cycle, up to the
retry limit `M` of the settings. The row is dead-lettered on the cycle at which its count
of attempts reaches `M`, and a dead letter, pending, is made for it. Only an operator
brings it back, failed with no attempts counted, which settles its dead letter.

Four operations write payment rows and dead letters (`Command.Step.rows`), and each keeps
the account of the retry limit (`WebhookEvent.WithinRetries`): a row with attempts left
has fewer than `M`, a dead-lettered row has exactly `M` and its dead-letter time. A
pending dead letter names a dead-lettered row, and no row has two (`Store.PendingDead`,
`Store.OnePending`); and a dead letter's status only moves forward, its settlement fixed
once it is settled (`ReviewStatus.Next`).

## Main results

* `Command.withinRetries_step`, `Command.pending_step` — one step keeps the account of the
  retry limit, and the pending dead letters.
* `Command.Step.deadLettered_of_not`, `Command.Step.revived` — a row becomes dead-lettered
  only on a retry cycle that takes it up with one attempt left, and leaves the dead
  letters only when an operator sends it back.
* `Command.Step.lettersFor_length` — a step adds a dead letter for a row exactly when it
  dead-letters the row.
* `retries_end_in_dead_letters` — all of it over every run from an empty store.
-/

namespace OnrampLedger

/-- A payment row within the retry limit `M`: with attempts left while it is not
dead-lettered, and with all `M` used and the time it was dead-lettered once it is. -/
def WebhookEvent.WithinRetries (M : Int) (e : WebhookEvent) : Prop :=
  (e.status ≠ .deadLetter → (e.retryCount : Int) < M) ∧
    (e.status = .deadLetter → (e.retryCount : Int) = M ∧ e.deadLetterAt.isSome)

/-- Whether the payment row with id `x` is dead-lettered. -/
def Store.deadLettered (s : Store) (x : String) : Bool :=
  s.webhooks.any fun e => e.id == x && e.status == .deadLetter

/-- The dead letters made for the payment row with id `x`. -/
def Store.lettersFor (s : Store) (x : String) : List DeadLetterItem :=
  s.deadLetters.filter (·.webhookEventId == x)

/-- The pending dead letters of the payment row with id `x`. -/
def Store.pendingFor (s : Store) (x : String) : List DeadLetterItem :=
  s.deadLetters.filter fun d => d.webhookEventId == x && d.status == .pending

/-- Every pending dead letter names a row that is dead-lettered. -/
def Store.PendingDead (s : Store) : Prop :=
  ∀ d ∈ s.deadLetters, d.status = .pending →
    ∃ e ∈ s.webhooks, e.id = d.webhookEventId ∧ e.status = .deadLetter

/-- No row has two pending dead letters. -/
def Store.OnePending (s : Store) : Prop := ∀ x, (s.pendingFor x).length ≤ 1

/-- A dead letter's status moves forward one step at most: from pending to settled, or
from settled to archived. -/
def ReviewStatus.Next (a b : ReviewStatus) : Prop :=
  a = b ∨ (a = .pending ∧ b = .manualReviewed) ∨ (a = .manualReviewed ∧ b = .archived)

theorem Store.deadLettered_iff {s : Store} {x : String} :
    s.deadLettered x = true ↔ ∃ e ∈ s.webhooks, e.id = x ∧ e.status = .deadLetter := by
  simp [Store.deadLettered]

theorem Store.deadLettered_mono {s s' : Store}
    (h : ∀ r ∈ s'.webhooks, r.status = .deadLetter → r ∈ s.webhooks) {x : String}
    (hx : s'.deadLettered x = true) : s.deadLettered x = true := by
  obtain ⟨r, hr, hid, hdead⟩ := Store.deadLettered_iff.mp hx
  exact Store.deadLettered_iff.mpr ⟨r, h r hr hdead, hid, hdead⟩

/-- A row that is not dead-lettered has no pending dead letter. -/
theorem Store.PendingDead.pendingFor_eq_nil {s : Store} (h : s.PendingDead) {x : String}
    (hx : s.deadLettered x = false) : s.pendingFor x = [] := by
  refine List.filter_eq_nil_iff.mpr fun d hd hp => ?_
  simp only [Bool.and_eq_true, beq_iff_eq] at hp
  obtain ⟨r, hr, hid, hdead⟩ := h d hd hp.2
  have hx' := Store.deadLettered_iff.mpr ⟨r, hr, hid.trans hp.1, hdead⟩
  rw [hx] at hx'
  cases hx'

/-! ## Rows written -/

theorem Store.mem_webhooksWith {s : Store} {prior : Option WebhookEvent} {row y : WebhookEvent}
    (h : y ∈ s.webhooksWith prior row) : y = row ∨ y ∈ s.webhooks := by
  cases prior with
  | none =>
    rcases List.mem_append.mp h with h | h
    exacts [.inr h, .inl (List.mem_singleton.mp h)]
  | some _ => exact mem_replaceFirst h

namespace Retry

theorem mem_attemptAll {max : Int} {now : Instant} {es rows : List WebhookEvent}
    {y : WebhookEvent} (h : y ∈ attemptAll max now es rows) :
    y ∈ rows ∨ ∃ e ∈ es, y = attempt max now e := by
  induction es generalizing rows with
  | nil => exact .inl h
  | cons e es ih =>
    rcases ih h with h | ⟨e', he', rfl⟩
    · rcases mem_replaceFirst h with rfl | h
      · exact .inr ⟨e, List.mem_cons_self, rfl⟩
      · exact .inl h
    · exact .inr ⟨e', List.mem_cons_of_mem _ he', rfl⟩

/-- An attempt on a row with attempts left keeps it within the limit: failed again below
the limit, dead-lettered with all attempts used at it. -/
theorem attempt_withinRetries {M : Int} {now : Instant} {e : WebhookEvent}
    (he : (e.retryCount : Int) < M) : (attempt M now e).WithinRetries M := by
  by_cases h : (e.retryCount : Int) + 1 < M
  · rw [attempt_of_lt h]
    exact ⟨fun _ => by push_cast; exact h, fun h => by cases h⟩
  · rw [attempt_of_le (not_lt.mp h)]
    exact ⟨fun h => absurd rfl h, fun _ => ⟨by push_cast; omega, rfl⟩⟩

/-- An attempt dead-letters a row exactly when it uses the last attempt. -/
theorem attempt_status {M : Int} {now : Instant} {e : WebhookEvent} :
    (attempt M now e).status = .deadLetter ↔ M ≤ (e.retryCount : Int) + 1 := by
  by_cases h : (e.retryCount : Int) + 1 < M
  · rw [attempt_of_lt h]
    simp only [reduceCtorEq, false_iff, not_le]
    exact h
  · rw [attempt_of_le (not_lt.mp h)]
    simpa using h

theorem attempt_externalId (max : Int) (now : Instant) (e : WebhookEvent) :
    (attempt max now e).externalId = e.externalId := by
  by_cases h : (e.retryCount : Int) + 1 < max
  · rw [attempt_of_lt h]
  · rw [attempt_of_le (not_lt.mp h)]

/-- An attempt leaves a row failed or dead-lettered. -/
theorem attempt_status_cases (max : Int) (now : Instant) (e : WebhookEvent) :
    (attempt max now e).status = .failed ∨ (attempt max now e).status = .deadLetter := by
  by_cases h : (e.retryCount : Int) + 1 < max
  · rw [attempt_of_lt h]
    exact .inl rfl
  · rw [attempt_of_le (not_lt.mp h)]
    exact .inr rfl

/-- A cycle takes up no dead-lettered row. -/
theorem ne_deadLetter_of_mem_due {batch : Int} {rows : List WebhookEvent} {e : WebhookEvent}
    (he : e ∈ due batch rows) : e.status ≠ .deadLetter := by
  rcases status_of_mem_due he with hs | hs <;> rw [hs] <;> decide

end Retry

theorem WebhookStatus.ne_deadLetter_of_written {s : WebhookStatus}
    (h : s = .processed ∨ s = .failed) : s ≠ .deadLetter := by
  rcases h with rfl | rfl <;> decide

/-! ## The retry limit -/

namespace Command

/-- **One step keeps the account of the retry limit.** -/
theorem withinRetries_step {c : Command} {W W' : World} (hs : c.Step W W')
    (hM : 1 ≤ W.settings.maxRetries)
    (h : ∀ e ∈ W.store.webhooks, e.WithinRetries W.settings.maxRetries) :
    ∀ e ∈ W'.store.webhooks, e.WithinRetries W'.settings.maxRetries := by
  rw [hs.2.1]
  rcases hs.rows with ⟨hw, -⟩ | ⟨ev, _, row, -, hr⟩ | ⟨-, hcyc⟩ | ⟨_, _, -, hsent⟩ |
    ⟨_, _, _, _, -, hres⟩ | ⟨_, _, -, harch⟩
  · rwa [hw]
  -- a payment's row keeps the earlier row's attempts, or starts with none
  · intro e he
    rw [hr.webhooks] at he
    rcases Store.mem_webhooksWith he with rfl | he
    · refine ⟨fun _ => ?_, fun hdead => absurd hdead (WebhookStatus.ne_deadLetter_of_written hr.status)⟩
      rw [hr.retryCount]
      cases hp : W.store.webhookByExternal? ev.externalId with
      | none => simp only [Option.map_none, Option.getD_none, Nat.cast_zero]; omega
      | some p =>
        obtain ⟨hmem, -, hdead⟩ := hr.earlier p hp
        simpa using (h p hmem).1 hdead
    · exact h e he
  -- a cycle attempts rows that had attempts left
  · obtain ⟨-, -, added, hstore, -⟩ := hcyc
    intro e he
    rw [hstore] at he
    rcases Retry.mem_attemptAll he with he | ⟨e', he', rfl⟩
    · exact h e he
    · have hmem := (Retry.due_sublist _ _).subset he'
      exact Retry.attempt_withinRetries ((h e' hmem).1 (Retry.ne_deadLetter_of_mem_due he'))
  -- an operator brings a row back failed with no attempts counted
  · obtain ⟨-, _, -, -, -, -, rfl⟩ := hsent
    intro e he
    rcases mem_replaceFirst he with rfl | he
    · exact ⟨fun _ => by simp only [Nat.cast_zero]; omega, fun h => by cases h⟩
    · exact h e he
  · obtain ⟨-, -, -, -, rfl⟩ := hres
    exact h
  · obtain ⟨-, -, -, rfl⟩ := harch
    exact h

end Command

/-! ## What each writer does to the rows and the letters -/

/-- A list of at most one element holds one value. -/
theorem List.eq_of_mem_of_length_le_one {α : Type} {l : List α} {a b : α} (hl : l.length ≤ 1)
    (ha : a ∈ l) (hb : b ∈ l) : a = b := by
  match l, hl, ha, hb with
  | [_], _, ha, hb => rw [List.mem_singleton.mp ha, List.mem_singleton.mp hb]

namespace Intake.Rewrote

variable {ev : PaymentEvent} {W W' : World} {prior : Option WebhookEvent} {row : WebhookEvent}

/-- Processing a payment keeps every processed or dead-lettered row: the row it writes
over was neither. -/
theorem mem_of_settled (h : Intake.Rewrote ev W W' prior row) (hf : W.Fresh) {r : WebhookEvent}
    (hr : r ∈ W.store.webhooks) (hsettled : r.status = .processed ∨ r.status = .deadLetter) :
    r ∈ W'.store.webhooks := by
  rw [h.webhooks]
  cases prior with
  | none => exact List.mem_append_left _ hr
  | some p =>
    obtain ⟨hp, hpproc, hpdead⟩ := h.earlier p rfl
    obtain ⟨k, hid, -⟩ := h.id
    have hne : r.id ≠ p.id := fun heq => by
      obtain rfl := List.inj_on_of_nodup_map hf.webhooks.nodup hr hp heq
      rcases hsettled with hs | hs
      exacts [hpproc hs, hpdead hs]
    exact mem_replaceFirst_of_not hr (by simp [hid, hne])

/-- Processing a payment dead-letters no row. -/
theorem dead_of (h : Intake.Rewrote ev W W' prior row) {r : WebhookEvent}
    (hr : r ∈ W'.store.webhooks) (hdead : r.status = .deadLetter) : r ∈ W.store.webhooks := by
  rw [h.webhooks] at hr
  rcases Store.mem_webhooksWith hr with rfl | hr
  · exact absurd hdead (WebhookStatus.ne_deadLetter_of_written h.status)
  · exact hr

end Intake.Rewrote

namespace Retry.Cycled

variable {W W' : World}

/-- The rows after a cycle, with distinct ids: each row taken up attempted once more. -/
theorem webhooks_eq (h : Cycled W (due W.settings.retryBatch W.store.webhooks) W')
    (hf : W.Fresh) :
    W'.store.webhooks = W.store.webhooks.map fun r =>
      if r.id ∈ (due W.settings.retryBatch W.store.webhooks).map (·.id)
      then attempt W.settings.maxRetries W.now r else r := by
  obtain ⟨-, -, added, hstore, -⟩ := h
  rw [hstore]
  exact attemptAll_eq_map (due_sublist _ _) hf.webhooks.nodup

/-- Each row taken up is there after the cycle, attempted once more. -/
theorem attempt_mem (h : Cycled W (due W.settings.retryBatch W.store.webhooks) W') (hf : W.Fresh)
    {e : WebhookEvent} (he : e ∈ due W.settings.retryBatch W.store.webhooks) :
    attempt W.settings.maxRetries W.now e ∈ W'.store.webhooks := by
  rw [h.webhooks_eq hf]
  exact List.mem_map.mpr ⟨e, (due_sublist _ _).subset he, if_pos (List.mem_map_of_mem he)⟩

/-- A processed or dead-lettered row is not taken up, and stays. -/
theorem mem_of_settled (h : Cycled W (due W.settings.retryBatch W.store.webhooks) W')
    (hf : W.Fresh) {r : WebhookEvent} (hr : r ∈ W.store.webhooks)
    (hsettled : r.status = .processed ∨ r.status = .deadLetter) : r ∈ W'.store.webhooks := by
  have hnot : r.id ∉ (due W.settings.retryBatch W.store.webhooks).map (·.id) := fun hin => by
    have hdue := mem_of_key_mem (due_sublist _ _) hf.webhooks.nodup hr hin
    rcases status_of_mem_due hdue with hs | hs <;>
      rcases hsettled with hs' | hs' <;> rw [hs] at hs' <;> cases hs'
  rw [h.webhooks_eq hf]
  exact List.mem_map.mpr ⟨r, hr, if_neg hnot⟩

/-- The dead letters a cycle adds: pending and unsettled, each for a row it took up and
dead-lettered. -/
theorem mem_added (h : Cycled W (due W.settings.retryBatch W.store.webhooks) W') :
    ∃ added, W'.store.deadLetters = W.store.deadLetters ++ added ∧
      (∀ d ∈ added, d.status = .pending ∧ d.settlement = none ∧
        ∃ e ∈ due W.settings.retryBatch W.store.webhooks, e.id = d.webhookEventId ∧
          (attempt W.settings.maxRetries W.now e).status = .deadLetter) ∧
      ∀ x, (added.filter (·.webhookEventId == x)).length =
        ((due W.settings.retryBatch W.store.webhooks).filter fun e =>
          e.id == x && (attempt W.settings.maxRetries W.now e).status == .deadLetter).length := by
  obtain ⟨-, -, added, hstore, hadded, -⟩ := h
  refine ⟨added, by rw [hstore], fun d hd => ?_, fun x => ?_⟩
  · have hmem := List.mem_map_of_mem (f := fun d : DeadLetterItem => (d.webhookEventId, d.status, d.settlement)) hd
    rw [hadded] at hmem
    obtain ⟨e', he', hproj⟩ := List.mem_map.mp hmem
    obtain ⟨he', hdead⟩ := List.mem_filter.mp he'
    obtain ⟨e, he, rfl⟩ := List.mem_map.mp he'
    simp only [Prod.mk.injEq] at hproj
    exact ⟨hproj.2.1.symm, hproj.2.2.symm, e, he, by rw [← hproj.1, attempt_id],
      of_decide_eq_true hdead⟩
  · -- count through the letters' projection, which the cycle's account fixes
    rw [← List.countP_eq_length_filter, ← List.countP_eq_length_filter]
    have hcount := congrArg (List.countP fun t : String × ReviewStatus × Option Settlement => t.1 == x)
      hadded
    simp only [List.countP_map, List.countP_filter] at hcount
    rw [show (added.countP fun d => d.webhookEventId == x) = _ from hcount]
    refine List.countP_congr fun e _ => ?_
    simp [Function.comp, attempt_id]

/-- The rows a cycle leaves dead-lettered: those that were, and those it took up on their
last attempt. -/
theorem deadLettered_iff (h : Cycled W (due W.settings.retryBatch W.store.webhooks) W')
    (hf : W.Fresh) {x : String} :
    W'.store.deadLettered x = true ↔ W.store.deadLettered x = true ∨
      ∃ e ∈ due W.settings.retryBatch W.store.webhooks, e.id = x ∧
        W.settings.maxRetries ≤ (e.retryCount : Int) + 1 := by
  rw [Store.deadLettered_iff, Store.deadLettered_iff]
  constructor
  · rintro ⟨r, hr, hid, hdead⟩
    rw [h.webhooks_eq hf] at hr
    obtain ⟨r₀, hr₀, rfl⟩ := List.mem_map.mp hr
    -- the row was taken up and attempted, or left as it was
    by_cases hin : r₀.id ∈ (due W.settings.retryBatch W.store.webhooks).map (·.id)
    · rw [if_pos hin] at hid hdead
      refine .inr ⟨r₀, mem_of_key_mem (due_sublist _ _) hf.webhooks.nodup hr₀ hin, ?_,
        attempt_status.mp hdead⟩
      rwa [attempt_id] at hid
    · rw [if_neg hin] at hid hdead
      exact .inl ⟨r₀, hr₀, hid, hdead⟩
  · rintro (⟨r, hr, hid, hdead⟩ | ⟨e, he, rfl, hM⟩)
    · exact ⟨r, h.mem_of_settled hf hr (.inr hdead), hid, hdead⟩
    · exact ⟨_, h.attempt_mem hf he, attempt_id _ _ _, attempt_status.mpr hM⟩

/-- The rows a cycle dead-letters, counted by id: one for a row it moved to the dead
letters, none for any other. -/
theorem count_added (h : Cycled W (due W.settings.retryBatch W.store.webhooks) W')
    (hf : W.Fresh) (x : String) :
    ((due W.settings.retryBatch W.store.webhooks).filter fun e =>
        e.id == x && (attempt W.settings.maxRetries W.now e).status == .deadLetter).length =
      if !W.store.deadLettered x && W'.store.deadLettered x then 1 else 0 := by
  have hnodup : ((due W.settings.retryBatch W.store.webhooks).map (·.id)).Nodup :=
    hf.webhooks.nodup.sublist ((due_sublist _ _).map _)
  by_cases hx : ∃ e ∈ due W.settings.retryBatch W.store.webhooks, e.id = x
  · obtain ⟨e, he, rfl⟩ := hx
    -- the row with the id is the one taken up, so it was not dead-lettered
    have hbefore : W.store.deadLettered e.id = false := by
      refine Bool.eq_false_iff.mpr fun hdead => ?_
      obtain ⟨r, hr, hid, hrdead⟩ := Store.deadLettered_iff.mp hdead
      have hre : r = e :=
        List.inj_on_of_nodup_map hf.webhooks.nodup hr ((due_sublist _ _).subset he) hid
      exact ne_deadLetter_of_mem_due he (hre ▸ hrdead)
    have hafter : W'.store.deadLettered e.id =
        ((attempt W.settings.maxRetries W.now e).status == .deadLetter) := by
      rw [Bool.eq_iff_iff, h.deadLettered_iff hf, hbefore, beq_iff_eq, attempt_status]
      constructor
      · rintro (hfalse | ⟨e', he', hid, hM⟩)
        · cases hfalse
        · rwa [List.inj_on_of_nodup_map hnodup he' he hid] at hM
      · exact fun hM => .inr ⟨e, he, rfl, hM⟩
    rw [length_filter_key_eq hnodup he, hbefore, hafter]
    rfl
  · have hnone : ((due W.settings.retryBatch W.store.webhooks).filter fun e =>
        e.id == x && (attempt W.settings.maxRetries W.now e).status == .deadLetter) = [] := by
      refine List.filter_eq_nil_iff.mpr fun e he hp => ?_
      simp only [Bool.and_eq_true, beq_iff_eq] at hp
      exact hx ⟨e, he, hp.1⟩
    have hafter : W'.store.deadLettered x = true → W.store.deadLettered x = true := fun h' =>
      ((h.deadLettered_iff hf).mp h').resolve_right fun ⟨e, he, hid, _⟩ => hx ⟨e, he, hid⟩
    rw [hnone]
    cases h' : W'.store.deadLettered x
    · simp
    · simp [hafter h']

/-- **A cycle keeps the pending dead letters**: the rows the earlier letters name stay
dead-lettered, and each new letter names a row the cycle moved, which had none pending. -/
theorem keepsPending (h : Cycled W (due W.settings.retryBatch W.store.webhooks) W') (hf : W.Fresh)
    (hdead : W.store.PendingDead) (hone : W.store.OnePending) :
    W'.store.PendingDead ∧ W'.store.OnePending := by
  obtain ⟨added, hdl, hadded, hcount⟩ := h.mem_added
  refine ⟨fun d hd' hpend => ?_, fun x => ?_⟩
  · rw [hdl] at hd'
    rcases List.mem_append.mp hd' with hd' | hd'
    · obtain ⟨r, hr', hid, hrdead⟩ := hdead d hd' hpend
      exact ⟨r, h.mem_of_settled hf hr' (.inr hrdead), hid, hrdead⟩
    · obtain ⟨-, -, e, he, hid, hedead⟩ := hadded d hd'
      exact ⟨_, h.attempt_mem hf he, by rw [Retry.attempt_id, hid], hedead⟩
  · -- the new letters of a row: at most one, and only for a row that had none pending
    have hsplit : (W'.store.pendingFor x).length = (W.store.pendingFor x).length +
        (added.filter fun d => d.webhookEventId == x && d.status == .pending).length := by
      rw [Store.pendingFor, hdl, List.filter_append, List.length_append]
      rfl
    have hadd : (added.filter fun d => d.webhookEventId == x && d.status == .pending).length ≤
        ((Retry.due W.settings.retryBatch W.store.webhooks).filter fun e => e.id == x &&
          (Retry.attempt W.settings.maxRetries W.now e).status == .deadLetter).length := by
      rw [← hcount x, ← List.countP_eq_length_filter, ← List.countP_eq_length_filter]
      exact List.countP_mono_left fun d _ h => by
        simp only [Bool.and_eq_true] at h
        exact h.1
    rw [h.count_added hf x] at hadd
    -- a row the cycle dead-letters had no pending letter before
    by_cases hnew : (!W.store.deadLettered x && W'.store.deadLettered x) = true
    · rw [if_pos hnew] at hadd
      have hbefore : W.store.deadLettered x = false := by
        simp only [Bool.and_eq_true, Bool.not_eq_true'] at hnew
        exact hnew.1
      rw [hsplit, hdead.pendingFor_eq_nil hbefore, List.length_nil]
      omega
    · rw [if_neg hnew] at hadd
      have := hone x
      omega

end Retry.Cycled

/-- A dead letter written back, no longer pending, over its own row: every pending dead
letter after it was pending before, under another id, and no row gains a pending one. -/
theorem Store.pending_putDeadLetter {s : Store} {n : DeadLetterItem} (hn : n.status ≠ .pending)
    (hnodup : (s.deadLetters.map (·.id)).Nodup) :
    (∀ d ∈ (s.putDeadLetter n).deadLetters, d.status = .pending →
      d ∈ s.deadLetters ∧ d.id ≠ n.id) ∧
    ∀ x, ((s.putDeadLetter n).pendingFor x).length ≤ (s.pendingFor x).length := by
  refine ⟨fun d hd hpend => ?_, fun x => length_filter_replaceFirst_le (by simp [hn])⟩
  rcases mem_replaceFirst_of_nodup hnodup hd with rfl | hd
  exacts [absurd hpend hn, hd]

/-- Writing back the dead letter with id `id` as one that agrees with it on `f` keeps the
view `f` of the dead letters. -/
theorem Store.map_putDeadLetter {β : Type} {s : Store} {id : String} {d n : DeadLetterItem}
    {f : DeadLetterItem → β} (hd : s.deadLetter? id = some d) (hid : n.id = d.id)
    (hf : f n = f d) : (s.putDeadLetter n).deadLetters.map f = s.deadLetters.map f := by
  apply map_replaceFirst_of_find?
  intro z hz
  have hdid : d.id = id := by simpa using List.find?_some hd
  rw [hid, hdid] at hz
  have hzd : z = d := Option.some.inj (hz.symm.trans hd)
  rw [hzd, hf]

/-- Settling a dead letter in place keeps the pending dead letters: each names a
dead-lettered row, and no row has two. -/
theorem Store.keepsPending_putDeadLetter {s : Store} {n : DeadLetterItem} (hn : n.status ≠ .pending)
    (hnodup : (s.deadLetters.map (·.id)).Nodup) (hdead : s.PendingDead) (hone : s.OnePending) :
    (s.putDeadLetter n).PendingDead ∧ (s.putDeadLetter n).OnePending := by
  obtain ⟨hpend', hle⟩ := Store.pending_putDeadLetter hn hnodup
  exact ⟨fun d hd hpend => hdead d (hpend' d hd hpend).1 hpend, fun x => (hle x).trans (hone x)⟩

/-- **Sending a dead letter back keeps the pending dead letters**: it settles the letter
and revives its row, the only row that letter named, so every other pending letter still
names a dead-lettered row. -/
theorem Retry.SentBack.keepsPending {id : String} {admin : Actor} {W W' : World}
    (h : Retry.SentBack id admin W W') (hf : W.Fresh) (hdead : W.store.PendingDead)
    (hone : W.store.OnePending) : W'.store.PendingDead ∧ W'.store.OnePending := by
  obtain ⟨d, e, hd, he, hedead, hdpend, rfl⟩ := h
  obtain ⟨hpend', hle⟩ := Store.pending_putDeadLetter
    (s := W.store.putWebhook
      { e with status := .failed, retryCount := 0, deadLetterAt := none, updatedAt := W.now })
    (n := { d with status := .manualReviewed, settlement := some ⟨.reprocessed, "", admin.id, W.now⟩ })
    (by simp) hf.deadLetters.nodup
  refine ⟨fun d₂ hd₂ hpend => ?_, fun x => (hle x).trans (hone x)⟩
  obtain ⟨hd₂, hne⟩ := hpend' d₂ hd₂ hpend
  obtain ⟨r, hr, hid, hrdead⟩ := hdead d₂ hd₂ hpend
  refine ⟨r, ?_, hid, hrdead⟩
  -- the revived row is the one of `d`, the only pending letter of its row
  have hed : e.id = d.webhookEventId := by simpa using List.find?_some he
  have hdmem : d ∈ W.store.deadLetters := List.mem_of_find?_eq_some hd
  have hrne : r.id ≠ e.id := by
    intro hre
    have hsame : d₂ = d := List.eq_of_mem_of_length_le_one (hone d.webhookEventId)
      (List.mem_filter.mpr ⟨hd₂, by simp [← hid, hre, hed, hpend]⟩)
      (List.mem_filter.mpr ⟨hdmem, by simp [hdpend]⟩)
    exact hne (by rw [hsame])
  exact mem_replaceFirst_of_not hr (by simpa using hrne)

namespace Command

/-- **One step keeps the pending dead letters**: each names a dead-lettered row, and no
row has two. -/
theorem pending_step {c : Command} {W W' : World} (hs : c.Step W W') (hf : W.Fresh)
    (hdead : W.store.PendingDead) (hone : W.store.OnePending) :
    W'.store.PendingDead ∧ W'.store.OnePending := by
  rcases hs.rows with ⟨hw, hd⟩ | ⟨ev, _, row, -, hr⟩ | ⟨-, hcyc⟩ | ⟨_, admin, -, hsent⟩ |
    ⟨_, _, notes, admin, -, hres⟩ | ⟨_, _, -, harch⟩
  · refine ⟨fun d hd' hpend => ?_, fun x => ?_⟩
    · rw [hd] at hd'
      rw [hw]
      exact hdead d hd' hpend
    · rw [Store.pendingFor, hd]
      exact hone x
  -- a payment's row: the letters stay, and so do the dead-lettered rows they name
  · refine ⟨fun d hd' hpend => ?_, fun x => ?_⟩
    · rw [hr.deadLetters] at hd'
      obtain ⟨r, hr', hid, hrdead⟩ := hdead d hd' hpend
      exact ⟨r, hr.mem_of_settled hf hr' (.inr hrdead), hid, hrdead⟩
    · rw [Store.pendingFor, hr.deadLetters]
      exact hone x
  -- a cycle: earlier rows named stay dead-lettered, new letters name the rows it moved
  · exact hcyc.keepsPending hf hdead hone
  -- an operator's action settles a pending letter; sending back also revives its row
  · exact hsent.keepsPending hf hdead hone
  · obtain ⟨d, r, hd, hdpend, rfl⟩ := hres
    exact Store.keepsPending_putDeadLetter (by simp) hf.deadLetters.nodup hdead hone
  · obtain ⟨d, hd, hdrev, rfl⟩ := harch
    exact Store.keepsPending_putDeadLetter (by simp) hf.deadLetters.nodup hdead hone

end Command

/-! ## Becoming and leaving dead-lettered -/

namespace Command.Step

variable {c : Command} {W W' : World}

/-- Only a retry cycle dead-letters a row: after any other step, every dead-lettered row
was there before. -/
theorem dead_mem_of_ne (hs : c.Step W W') (hc : c ≠ .retryCycle) :
    ∀ r ∈ W'.store.webhooks, r.status = .deadLetter → r ∈ W.store.webhooks := by
  intro r hr hdead
  rcases hs.rows with ⟨hw, -⟩ | ⟨_, _, _, -, hrw⟩ | ⟨rfl, -⟩ | ⟨_, _, -, hsent⟩ |
    ⟨_, _, _, _, -, hres⟩ | ⟨_, _, -, harch⟩
  · rwa [hw] at hr
  · exact hrw.dead_of hr hdead
  · exact absurd rfl hc
  -- the row sent back is failed again
  · obtain ⟨d, e, -, -, -, -, rfl⟩ := hsent
    rcases mem_replaceFirst hr with rfl | hr
    · cases hdead
    · exact hr
  · obtain ⟨_, _, -, -, rfl⟩ := hres
    exact hr
  · obtain ⟨_, -, -, rfl⟩ := harch
    exact hr

/-- Only a retry cycle adds dead letters: after any other step, the dead letters name the
same rows, in order. -/
theorem letterRows_of_ne (hs : c.Step W W') (hc : c ≠ .retryCycle) :
    W'.store.deadLetters.map (·.webhookEventId) = W.store.deadLetters.map (·.webhookEventId) := by
  rcases hs.rows with ⟨-, hd⟩ | ⟨_, _, _, -, hrw⟩ | ⟨rfl, -⟩ | ⟨_, _, -, hsent⟩ |
    ⟨_, _, _, _, -, hres⟩ | ⟨_, _, -, harch⟩
  · rw [hd]
  · rw [hrw.deadLetters]
  · exact absurd rfl hc
  · obtain ⟨d, e, hd, -, -, -, rfl⟩ := hsent
    exact Store.map_putDeadLetter hd rfl rfl
  · obtain ⟨d, _, hd, -, rfl⟩ := hres
    exact Store.map_putDeadLetter hd rfl rfl
  · obtain ⟨d, hd, -, rfl⟩ := harch
    exact Store.map_putDeadLetter hd rfl rfl

/-- **A row becomes dead-lettered only on a retry cycle** that takes it up with one
attempt left. -/
theorem deadLettered_of_not (hs : c.Step W W') (hf : W.Fresh)
    (hw : ∀ e ∈ W.store.webhooks, e.WithinRetries W.settings.maxRetries) {x : String}
    (hbefore : W.store.deadLettered x = false) (hafter : W'.store.deadLettered x = true) :
    c = .retryCycle ∧ ∃ e ∈ Retry.due W.settings.retryBatch W.store.webhooks, e.id = x ∧
      (e.retryCount : Int) + 1 = W.settings.maxRetries := by
  by_cases hc : c = .retryCycle
  · subst hc
    have hcyc : Retry.Cycled W (Retry.due W.settings.retryBatch W.store.webhooks) W' := hs.1
    rcases (hcyc.deadLettered_iff hf).mp hafter with hdead | ⟨e, he, hid, hM⟩
    · rw [hbefore] at hdead
      cases hdead
    -- the row had attempts left, so this attempt was its last
    · have hleft := (hw e ((Retry.due_sublist _ _).subset he)).1 (Retry.ne_deadLetter_of_mem_due he)
      exact ⟨rfl, e, he, hid, by omega⟩
  · have hdead := Store.deadLettered_mono (hs.dead_mem_of_ne hc) hafter
    rw [hbefore] at hdead
    cases hdead

/-- A retry cycle dead-letters every row it takes up on its last attempt. -/
theorem deadLettered_of_due (hs : Command.retryCycle.Step W W') (hf : W.Fresh) {e : WebhookEvent}
    (he : e ∈ Retry.due W.settings.retryBatch W.store.webhooks)
    (hM : (e.retryCount : Int) + 1 = W.settings.maxRetries) : W'.store.deadLettered e.id = true :=
  (Retry.Cycled.deadLettered_iff hs.1 hf).mpr (.inr ⟨e, he, rfl, hM.ge⟩)

/-- **A row leaves the dead letters only when an operator sends it back**, failed with
no attempts counted. -/
theorem revived (hs : c.Step W W') (hf : W.Fresh) {x : String}
    (hbefore : W.store.deadLettered x = true) (hafter : W'.store.deadLettered x = false) :
    ∃ id admin, c = .retryDeadLetter id admin ∧
      ∃ r ∈ W'.store.webhooks, r.id = x ∧ r.status = .failed ∧ r.retryCount = 0 := by
  obtain ⟨r, hr, hid, hdead⟩ := Store.deadLettered_iff.mp hbefore
  have hgone : r ∉ W'.store.webhooks := fun hr' => by
    have hnow := Store.deadLettered_iff.mpr ⟨r, hr', hid, hdead⟩
    rw [hafter] at hnow
    cases hnow
  rcases hs.rows with ⟨hw, -⟩ | ⟨_, _, _, -, hrw⟩ | ⟨-, hcyc⟩ | ⟨id, admin, rfl, hsent⟩ |
    ⟨_, _, _, _, -, hres⟩ | ⟨_, _, -, harch⟩
  · exact absurd (hw ▸ hr) hgone
  · exact absurd (hrw.mem_of_settled hf hr (.inr hdead)) hgone
  · exact absurd (hcyc.mem_of_settled hf hr (.inr hdead)) hgone
  -- every row but the one sent back stays, so the one sent back is `r`
  · obtain ⟨d, e, -, he, -, -, rfl⟩ := hsent
    have hemem : e ∈ W.store.webhooks := List.mem_of_find?_eq_some he
    have hre : e.id = r.id := by
      by_contra hne
      exact hgone (mem_replaceFirst_of_not hr (by simpa using Ne.symm hne))
    refine ⟨id, admin, rfl, _, List.mem_of_find?_eq_some
      (find?_replaceFirst_self (by simp) ⟨e, hemem, by simp⟩), hre.trans hid, rfl, rfl⟩
  · obtain ⟨_, _, -, -, rfl⟩ := hres
    exact absurd hr hgone
  · obtain ⟨_, -, -, rfl⟩ := harch
    exact absurd hr hgone

/-- **A step adds a dead letter for a row exactly when it dead-letters the row.** -/
theorem lettersFor_length (hs : c.Step W W') (hf : W.Fresh) (x : String) :
    (W'.store.lettersFor x).length = (W.store.lettersFor x).length +
      if !W.store.deadLettered x && W'.store.deadLettered x then 1 else 0 := by
  by_cases hc : c = .retryCycle
  · subst hc
    have hcyc : Retry.Cycled W (Retry.due W.settings.retryBatch W.store.webhooks) W' := hs.1
    obtain ⟨added, hdl, -, hcount⟩ := hcyc.mem_added
    rw [Store.lettersFor, Store.lettersFor, hdl, List.filter_append, List.length_append, hcount x,
      hcyc.count_added hf x]
  -- any other step keeps the rows the letters name, and dead-letters no row
  · have hlen : (W'.store.lettersFor x).length = (W.store.lettersFor x).length := by
      simp only [Store.lettersFor, ← List.countP_eq_length_filter]
      have hcount := congrArg (List.countP (· == x)) (hs.letterRows_of_ne hc)
      simpa only [List.countP_map, Function.comp_def] using hcount
    rw [hlen]
    cases h' : W'.store.deadLettered x
    · simp
    · simp [Store.deadLettered_mono (hs.dead_mem_of_ne hc) h']

end Command.Step

/-! ## The review of dead letters -/

/-- How a dead letter stands after a step: under its id, its status moved forward one
step at most, and its settlement fixed once it is no longer pending. -/
structure DeadLetterItem.Moved (d d' : DeadLetterItem) : Prop where
  id : d'.id = d.id
  status : d.status.Next d'.status
  settlement : d.status ≠ .pending → d'.settlement = d.settlement

theorem DeadLetterItem.Moved.refl (d : DeadLetterItem) : d.Moved d := ⟨rfl, .inl rfl, fun _ => rfl⟩

/-- The dead letters after a step: each earlier one moved (`DeadLetterItem.Moved`), and
those under new ids pending and unsettled. -/
structure Store.LettersMoved (s s' : Store) : Prop where
  moved : ∀ d ∈ s.deadLetters, ∃ d' ∈ s'.deadLetters, d.Moved d'
  added : ∀ d' ∈ s'.deadLetters, d'.id ∉ s.deadLetters.map (·.id) →
    d'.status = .pending ∧ d'.settlement = none

theorem Store.LettersMoved.of_eq {s s' : Store} (h : s'.deadLetters = s.deadLetters) :
    s.LettersMoved s' :=
  ⟨fun d hd => ⟨d, h ▸ hd, .refl d⟩, fun _ hd' hnot => absurd (List.mem_map_of_mem (h ▸ hd')) hnot⟩

/-- Writing back the dead letter with id `id`, moved, moves it and keeps every other. -/
theorem Store.lettersMoved_putDeadLetter {s t : Store} {id : String} {d n : DeadLetterItem}
    (ht : t.deadLetters = s.deadLetters) (hd : s.deadLetter? id = some d)
    (hnodup : (s.deadLetters.map (·.id)).Nodup) (hmove : d.Moved n) :
    s.LettersMoved (t.putDeadLetter n) := by
  -- only the dead letters of `t` are read
  obtain ⟨_, _, _, _, _, _, _⟩ := t
  dsimp only at ht
  subst ht
  have hdmem : d ∈ s.deadLetters := List.mem_of_find?_eq_some hd
  refine ⟨fun d₂ hd₂ => ?_, fun d' hd' hnot => absurd ?_ hnot⟩
  · by_cases hid : d₂.id = d.id
    · obtain rfl := List.inj_on_of_nodup_map hnodup hd₂ hdmem hid
      exact ⟨n, List.mem_of_find?_eq_some
        (find?_replaceFirst_self (by simp) ⟨d₂, hdmem, by simp [hmove.id]⟩), hmove⟩
    · exact ⟨d₂, mem_replaceFirst_of_not hd₂ (by simpa [hmove.id] using hid), .refl d₂⟩
  · rw [← Store.map_putDeadLetter hd hmove.id hmove.id]
    exact List.mem_map_of_mem hd'

/-- **One step moves the dead letters forward**: a pending one may be settled, a settled
one archived, and a settlement is never rewritten. -/
theorem Command.Step.lettersMoved {c : Command} {W W' : World} (hs : c.Step W W') (hf : W.Fresh) :
    W.store.LettersMoved W'.store := by
  rcases hs.rows with ⟨-, hd⟩ | ⟨_, _, _, -, hrw⟩ | ⟨-, hcyc⟩ | ⟨_, admin, -, hsent⟩ |
    ⟨_, _, notes, admin, -, hres⟩ | ⟨_, _, -, harch⟩
  · exact .of_eq hd
  · exact .of_eq hrw.deadLetters
  -- a cycle only adds letters, each pending and unsettled
  · obtain ⟨added, hdl, hadded, -⟩ := hcyc.mem_added
    refine ⟨fun d hd => ⟨d, hdl ▸ List.mem_append_left _ hd, .refl d⟩, fun d' hd' hnot => ?_⟩
    rw [hdl] at hd'
    rcases List.mem_append.mp hd' with hd' | hd'
    · exact absurd (List.mem_map_of_mem hd') hnot
    · exact ⟨(hadded d' hd').1, (hadded d' hd').2.1⟩
  · obtain ⟨d, e, hd, -, -, hdpend, rfl⟩ := hsent
    exact Store.lettersMoved_putDeadLetter rfl hd hf.deadLetters.nodup
      ⟨rfl, .inr (.inl ⟨hdpend, rfl⟩), fun h => absurd hdpend h⟩
  · obtain ⟨d, r, hd, hdpend, rfl⟩ := hres
    exact Store.lettersMoved_putDeadLetter rfl hd hf.deadLetters.nodup
      ⟨rfl, .inr (.inl ⟨hdpend, rfl⟩), fun h => absurd hdpend h⟩
  · obtain ⟨d, hd, hdrev, rfl⟩ := harch
    exact Store.lettersMoved_putDeadLetter rfl hd hf.deadLetters.nodup
      ⟨rfl, .inr (.inr ⟨hdrev, rfl⟩), fun _ => rfl⟩

/-! ## Runs -/

/-- The retry account of a world: a retry limit of at least one, every row within it, and
every pending dead letter the only one of a dead-lettered row. -/
structure World.RetryAccount (W : World) : Prop where
  limit : 1 ≤ W.settings.maxRetries
  within : ∀ e ∈ W.store.webhooks, e.WithinRetries W.settings.maxRetries
  pendingDead : W.store.PendingDead
  onePending : W.store.OnePending

theorem World.retryAccount_empty (w : World) (hmax : 1 ≤ w.settings.maxRetries) :
    World.RetryAccount { w with store := Store.empty } :=
  ⟨hmax, (fun _ h => by cases h), (fun _ h => by cases h),
    fun _ => by simp [Store.pendingFor, Store.empty]⟩

theorem World.RetryAccount.step {c : Command} {W W' : World} (h : W.RetryAccount)
    (hs : c.Step W W') (hf : W.Fresh) : W'.RetryAccount := by
  obtain ⟨hdead, hone⟩ := Command.pending_step hs hf h.pendingDead h.onePending
  refine ⟨?_, Command.withinRetries_step hs h.limit h.within, hdead, hone⟩
  rw [hs.2.1]
  exact h.limit

namespace Command

theorem settings_runAll (cs : List Command) (W : World) : (runAll cs W).settings = W.settings := by
  induction cs generalizing W with
  | nil => rfl
  | cons c cs ih => rw [runAll_cons, ih, (run_step c W).2.1]

/-- Every run from an empty store keeps the retry account. -/
theorem retryAccount_runAll (cs : List Command) (w : World) (hmax : 1 ≤ w.settings.maxRetries)
    (hbound : (runAll cs { w with store := Store.empty }).issued < 2 ^ 48) :
    (runAll cs { w with store := Store.empty }).RetryAccount :=
  runAll_fresh_invariant (fun c _ W hf h _ => h.step (run_step c W) hf) (fun _ _ => trivial)
    (World.fresh_empty w) (World.retryAccount_empty w hmax) hbound

/-- **A row's dead letters number the times it was dead-lettered**: along the first `i`
commands of a run, one is added at each step that dead-letters the row. -/
theorem lettersFor_length_take (cs : List Command) {W₀ : World} (hf : W₀.Fresh)
    (hbound : (runAll cs W₀).issued < 2 ^ 48) (x : String) {i : Nat} (hi : i ≤ cs.length) :
    ((runAll (cs.take i) W₀).store.lettersFor x).length = (W₀.store.lettersFor x).length +
      (List.range i).countP fun j => !(runAll (cs.take j) W₀).store.deadLettered x &&
        (runAll (cs.take (j + 1)) W₀).store.deadLettered x := by
  -- induction on the prefix: the step from `i` to `i + 1` runs the `i`-th command
  induction i with
  | zero => simp
  | succ i ih =>
    have hlt : i < cs.length := hi
    have hrun := runAll_take_succ (List.getElem?_eq_getElem hlt) W₀
    have hfi : (runAll (cs.take i) W₀).Fresh :=
      fresh_runAll hf ((issued_take_le cs i W₀).trans_lt hbound)
    rw [hrun, (run_step _ _).lettersFor_length hfi x, ih hlt.le, ← hrun]
    simp only [List.range_succ, List.countP_append, List.countP_singleton]
    omega

end Command

/-- **Retries end in dead letters, and only an operator brings a row back.** Along every
run from an empty store, with a retry limit `M` of at least one: every row is within the
limit; a retry cycle takes up no dead-lettered row, and processing its payment again
writes nothing; a row's dead letters number the steps that dead-lettered it, at most one
of them is pending, and a pending one names a dead-lettered row. At each step a row
becomes dead-lettered exactly when a retry cycle takes it up on its last attempt, and
leaves the dead letters only when an operator sends it back, failed with no attempts
counted; and the dead letters only move forward. -/
theorem retries_end_in_dead_letters (cs : List Command) (w : World)
    (hmax : 1 ≤ w.settings.maxRetries)
    (hbound : (Command.runAll cs { w with store := Store.empty }).issued < 2 ^ 48) :
    let W := fun i => Command.runAll (cs.take i) { w with store := Store.empty }
    let M := w.settings.maxRetries
    ∀ i ≤ cs.length,
      (∀ e ∈ (W i).store.webhooks, e.WithinRetries M) ∧
      (∀ e ∈ Retry.due (W i).settings.retryBatch (W i).store.webhooks, e.status ≠ .deadLetter) ∧
      (∀ ev verified p, (W i).store.webhookByExternal? ev.externalId = some p →
        p.status = .deadLetter → (Command.process ev verified).run (W i) = W i) ∧
      (∀ x, ((W i).store.lettersFor x).length = (List.range i).countP fun j =>
        !(W j).store.deadLettered x && (W (j + 1)).store.deadLettered x) ∧
      (W i).store.OnePending ∧ (W i).store.PendingDead ∧
      ∀ c, cs[i]? = some c →
        (∀ x, (W i).store.deadLettered x = false → (W (i + 1)).store.deadLettered x = true →
          c = .retryCycle ∧ ∃ e ∈ Retry.due (W i).settings.retryBatch (W i).store.webhooks,
            e.id = x ∧ (e.retryCount : Int) + 1 = M) ∧
        (c = .retryCycle → ∀ e ∈ Retry.due (W i).settings.retryBatch (W i).store.webhooks,
          (e.retryCount : Int) + 1 = M → (W (i + 1)).store.deadLettered e.id = true) ∧
        (∀ x, (W i).store.deadLettered x = true → (W (i + 1)).store.deadLettered x = false →
          ∃ id admin, c = .retryDeadLetter id admin ∧ ∃ r ∈ (W (i + 1)).store.webhooks,
            r.id = x ∧ r.status = .failed ∧ r.retryCount = 0) ∧
        (W i).store.LettersMoved (W (i + 1)).store := by
  intro W M i hi
  have hbound' : (W i).issued < 2 ^ 48 := (Command.issued_take_le cs i _).trans_lt hbound
  have hf : (W i).Fresh := Command.fresh_runAll (World.fresh_empty w) hbound'
  have hacc : (W i).RetryAccount := Command.retryAccount_runAll _ w hmax hbound'
  have hM : (W i).settings.maxRetries = M := by
    show (Command.runAll _ _).settings.maxRetries = _
    rw [Command.settings_runAll]
  refine ⟨hM ▸ hacc.within, fun _ he => Retry.ne_deadLetter_of_mem_due he,
    fun _ _ p hp hdead => Command.run_process_untouched (.inr (.inr ⟨p, hp, .inr hdead⟩)),
    fun x => ?_, hacc.onePending, hacc.pendingDead, fun c hc => ?_⟩
  · have hcount := Command.lettersFor_length_take cs (World.fresh_empty w) hbound x hi
    rw [show ({ w with store := Store.empty } : World).store.lettersFor x = [] from rfl,
      List.length_nil, Nat.zero_add] at hcount
    exact hcount
  · -- the step from the `i`-th world to the next runs `c`
    have hs : c.Step (W i) (W (i + 1)) := by
      show c.Step (W i) (Command.runAll (cs.take (i + 1)) _)
      rw [Command.runAll_take_succ hc]
      exact Command.run_step c _
    refine ⟨fun x hb ha => hM ▸ hs.deadLettered_of_not hf hacc.within hb ha, ?_,
      fun x hb ha => hs.revived hf hb ha, hs.lettersMoved hf⟩
    rintro rfl e he hlast
    exact hs.deadLettered_of_due hf he (hM ▸ hlast)

/-- A payment in a currency its wallet does not hold fails, and under the default limit
of three the third retry cycle dead-letters its row, which it took up on its last
attempt. -/
theorem retries_end_in_dead_letters_threeCycles :
    let ev : PaymentEvent := ⟨"moonpay", "x", "u", 10, "EUR", completedStatus, "h"⟩
    let cs : List Command :=
      [.createWallet "u" "USD", .process ev true, .retryCycle, .retryCycle, .retryCycle]
    let w := Setup.world {}
    let W := fun i => Command.runAll (cs.take i) { w with store := Store.empty }
    1 ≤ w.settings.maxRetries ∧ (Command.runAll cs { w with store := Store.empty }).issued < 2 ^ 48 ∧
      ∃ e ∈ Retry.due (W 4).settings.retryBatch (W 4).store.webhooks,
        e.id = idText 2 ∧ (e.retryCount : Int) + 1 = w.settings.maxRetries := by
  intro ev cs w W
  have hmax : 1 ≤ w.settings.maxRetries := by decide +kernel
  have hbound : (Command.runAll cs { w with store := Store.empty }).issued < 2 ^ 48 := by
    decide +kernel
  have hbefore : (W 4).store.deadLettered (idText 2) = false := by decide +kernel
  have hafter : (W 5).store.deadLettered (idText 2) = true := by decide +kernel
  have hrun := retries_end_in_dead_letters cs w hmax hbound 4 (by decide)
  have hdead := (hrun.2.2.2.2.2.2 .retryCycle rfl).1 _ hbefore hafter
  -- both sides in one form first: unifying `(fun i => _) 4` with `W 4` as they stand
  -- runs the whole scenario
  beta_reduce at hdead
  refine ⟨hmax, hbound, ?_⟩
  dsimp only [W]
  exact hdead.2

end OnrampLedger
