import OnrampLedger.Proofs.DeadLetters

/-!
# One retry cycle, exactly

A retry cycle takes up the failed payment rows (status `failed` or `error`), oldest first,
at most a batch of them, and attempts each once more, one after the other: the row's count
of attempts goes up by one and its retry and update times become now; below the retry limit
it is failed again, at the limit it moves to the dead letters with a pending dead letter of
its own, under the next id drawn. Each attempt writes one row back by its id, so with
distinct ids the rows after the cycle are the rows before it with exactly those taken up
attempted (`Retry.attemptAll_eq_map`).

The cycle's counts follow the same attempts: one attempt per row taken up, a success for
each row failed again, a move for each row dead-lettered, and never a failure, since no
write of a cycle can be refused when it runs alone.

## Main results

* `Retry.retryOne_exact` — one retry, with the answer whether the row moved.
* `Retry.cycle_exact` — a whole cycle, through `Retry.Retried`.
* `retry_cycle_exact` — the cycle's answer and the world it ends in, written out.
-/

namespace OnrampLedger

open Std.Do

set_option mvcgen.warning false

namespace Retry

/-- The dead letters a cycle adds for the rows `done` it attempted, with `i` ids drawn
before it: one for each row that ran out of attempts, in order, each under the next id. -/
def lettersAfter (i : Nat) (max : Int) (now : Instant) (done : List WebhookEvent) :
    List DeadLetterItem :=
  let dead := (done.map (attempt max now)).filter (·.status = .deadLetter)
  List.zipWith (fun id e => letter id max now e) (idsFrom i dead.length) dead

@[simp] theorem length_idsFrom (i n : Nat) : (idsFrom i n).length = n := by
  simp [idsFrom]

/-- One row more attempted adds its dead letter, if it has one, under the id drawn after
those of the letters before it. -/
theorem lettersAfter_snoc (i : Nat) (max : Int) (now : Instant) (done : List WebhookEvent)
    (e : WebhookEvent) :
    lettersAfter i max now (done ++ [e]) = lettersAfter i max now done ++
      lettersOf (idText (i + ((done.map (attempt max now)).filter (·.status = .deadLetter)).length + 1))
        max now (attempt max now e) := by
  unfold lettersAfter lettersOf
  simp only [List.map_append, List.map_singleton, List.filter_append, List.filter_singleton]
  by_cases hd : (attempt max now e).status = .deadLetter
  · simp only [hd, decide_true, cond_true, if_true, List.length_append, List.length_singleton,
      idsFrom_succ]
    rw [List.zipWith_append (by simp)]
    rfl
  · simp [hd]

/-- **One retry**, exactly: the row written back attempted once more, its dead letter
added under the next id when it ran out of attempts, and the answer whether it did.
Nothing else of the world changes. -/
theorem retryOne_exact (W₀ : World) (e : WebhookEvent) :
    ⦃fun W => ⌜W = W₀⌝⦄ retryOne e
    ⦃post⟨fun moved W =>
        ⌜moved = decide ((attempt W₀.settings.maxRetries W₀.now e).status = .deadLetter) ∧
          W = { W₀ with
            issued := W₀.issued + (lettersOf (idText (W₀.issued + 1)) W₀.settings.maxRetries
              W₀.now (attempt W₀.settings.maxRetries W₀.now e)).length,
            store := { W₀.store.putWebhook (attempt W₀.settings.maxRetries W₀.now e) with
              deadLetters := W₀.store.deadLetters ++ lettersOf (idText (W₀.issued + 1))
                W₀.settings.maxRetries W₀.now (attempt W₀.settings.maxRetries W₀.now e) } }⌝,
      fun _ _ => ⌜False⌝⟩⦄ := by
  mvcgen [retryOne, -retryOne_spec]
  all_goals simp_all +zetaDelta [attempt_of_lt, attempt_of_le, lettersOf, letter, Store.putWebhook]

/-- What a cycle has done once it attempted the rows `done`, from the world `W₀` it
started in, with the counts `st`: every row of `done` attempted once more, a dead letter
added for each that ran out of attempts under the ids drawn one after the other, and one
attempt counted for each row, a success for each failed again and a move for each
dead-lettered. -/
def Retried (W₀ : World) (done : List WebhookEvent) (st : RetryStats) (W : World) : Prop :=
  let attempted := done.map (attempt W₀.settings.maxRetries W₀.now)
  let dead := attempted.filter (·.status = .deadLetter)
  W = { W₀ with
      issued := W₀.issued + dead.length,
      store := { W₀.store with
        webhooks := attemptAll W₀.settings.maxRetries W₀.now done W₀.store.webhooks,
        deadLetters := W₀.store.deadLetters ++
          lettersAfter W₀.issued W₀.settings.maxRetries W₀.now done } } ∧
    st = ⟨done.length, (attempted.filter (·.status = .failed)).length, 0, dead.length⟩

theorem retried_nil (W₀ : World) : Retried W₀ [] ⟨0, 0, 0, 0⟩ W₀ := by
  refine ⟨?_, rfl⟩
  simp [attemptAll, lettersAfter]

/-- One row more attempted keeps a cycle's account. -/
theorem Retried.snoc {W₀ W W' : World} {done : List WebhookEvent} {st : RetryStats}
    {e : WebhookEvent} {moved : Bool} (h : Retried W₀ done st W)
    (hmoved : moved = decide ((attempt W.settings.maxRetries W.now e).status = .deadLetter))
    (hstep : W' = { W with
      issued := W.issued + (lettersOf (idText (W.issued + 1)) W.settings.maxRetries W.now
        (attempt W.settings.maxRetries W.now e)).length,
      store := { W.store.putWebhook (attempt W.settings.maxRetries W.now e) with
        deadLetters := W.store.deadLetters ++ lettersOf (idText (W.issued + 1))
          W.settings.maxRetries W.now (attempt W.settings.maxRetries W.now e) } }) :
    Retried W₀ (done ++ [e])
      (if moved then ⟨st.attempts + 1, st.successes, st.failures, st.movedToDeadLetter + 1⟩
        else ⟨st.attempts + 1, st.successes + 1, st.failures, st.movedToDeadLetter⟩) W' := by
  obtain ⟨rfl, rfl⟩ := h
  subst hstep hmoved
  -- the row attempted is failed again or dead-lettered, never both
  rcases attempt_status_cases W₀.settings.maxRetries W₀.now e with hf | hd
  · simp only [Retried, lettersAfter_snoc, lettersOf, hf]
    simp [attemptAll, List.foldl_append, Store.putWebhook, attempt_id, hf]
  · simp only [Retried, lettersAfter_snoc, lettersOf, hd]
    simp [attemptAll, List.foldl_append, Store.putWebhook, attempt_id, hd, Nat.add_assoc]

/-- **A retry cycle**, exactly: it attempts the rows it takes up one after the other, and
answers the counts of `Retried`. -/
theorem cycle_exact (W₀ : World) :
    ⦃fun W => ⌜W = W₀⌝⦄ cycle
    ⦃post⟨fun st W => ⌜Retried W₀ (due W₀.settings.retryBatch W₀.store.webhooks) st W⌝,
      fun _ _ => ⌜False⌝⟩⦄ := by
  have hone : ∀ (e : WebhookEvent) (w₀ : World), _ := fun e w₀ => retryOne_exact w₀ e
  mvcgen [cycle, -cycle_spec, -retryOne_spec, hone]
  case inv1 => exact post⟨fun p W => ⌜Retried W₀ p.fst.prefix p.2 W⌝, fun _ _ => ⌜False⌝⟩
  case vc1.step.post.success =>
    rename_i hinv _ _ hstep
    exact hinv.snoc hstep.1 hstep.2
  case vc2.pre =>
    rename_i hW _ _ _
    subst hW
    exact retried_nil _
  all_goals simp_all +zetaDelta [due]

/-- A row attempted is failed again or dead-lettered, so the attempted rows are the
failed ones and the dead-lettered ones. -/
theorem attempted_counts (max : Int) (now : Instant) (l : List WebhookEvent) :
    ((l.map (attempt max now)).filter (·.status = .failed)).length +
      ((l.map (attempt max now)).filter (·.status = .deadLetter)).length = l.length := by
  induction l with
  | nil => rfl
  | cons e l ih =>
    rcases attempt_status_cases max now e with h | h <;> simp [h] <;> omega

end Retry

/-- **One retry cycle, exactly.** Let the batch size be at least one and the payment rows
have distinct ids, as the store keeps them. The cycle takes up the first rows that are
failed or in error, in the order they were received, at most a batch of them (`sel`). It
answers one attempt for each, a success for each failed again and a move for each
dead-lettered, and no failure. It ends with exactly those rows attempted once more
(`Retry.attempt`: the count up by one, the retry and update times now, failed again below
the retry limit and dead-lettered at it, with the dead-letter time now), a pending dead
letter (`Retry.letter`: reason `max_retries`, the payment id, the new count, the limit, the
row's error text and a snapshot of its payment id, provider, wallet and payload hash) added
for each dead-lettered row under the ids drawn next, in order, and nothing else of the
world changed. -/
theorem retry_cycle_exact (W : World) (hids : (W.store.webhooks.map (·.id)).Nodup)
    (hbatch : 1 ≤ W.settings.retryBatch) :
    let M := W.settings.maxRetries
    let sel := (W.store.webhooks.filter fun e => e.status == .failed || e.status == .error).take
      W.settings.retryBatch.toNat
    let dead := (sel.map (Retry.attempt M W.now)).filter (·.status = .deadLetter)
    ∃ stats : RetryStats, Retry.cycle.exec W = (.ok stats, { W with
        issued := W.issued + dead.length,
        store := { W.store with
          webhooks := W.store.webhooks.map fun e =>
            if e.id ∈ sel.map (·.id) then Retry.attempt M W.now e else e,
          deadLetters := W.store.deadLetters ++
            List.zipWith (fun id e => Retry.letter id M W.now e) (Retry.idsFrom W.issued dead.length)
              dead } }) ∧
      stats.attempts = sel.length ∧
      stats.successes + stats.movedToDeadLetter + stats.failures = sel.length ∧
      stats.failures = 0 ∧ stats.movedToDeadLetter = dead.length := by
  intro M sel dead
  have hsel : Retry.due W.settings.retryBatch W.store.webhooks = sel := by
    simp only [Retry.due, sel]
    rw [if_pos (by omega)]
  -- the rows taken up are a sublist of the rows, so with distinct ids each is attempted once
  have hrows : Retry.attemptAll M W.now sel W.store.webhooks = W.store.webhooks.map fun e =>
      if e.id ∈ sel.map (·.id) then Retry.attempt M W.now e else e :=
    Retry.attemptAll_eq_map ((List.take_sublist _ _).trans List.filter_sublist) hids
  have hend := Op.ends_of_triple (Retry.cycle_exact W) rfl
  rw [hsel] at hend
  revert hend
  rcases Retry.cycle.exec W with ⟨_ | stats, W'⟩
  · simp
  · rintro ⟨hW, rfl⟩
    refine ⟨⟨sel.length, ((sel.map (Retry.attempt M W.now)).filter (·.status = .failed)).length, 0,
      dead.length⟩, ?_, rfl, Retry.attempted_counts M W.now sel, rfl, rfl⟩
    rw [hW, hrows]
    rfl

/-- Four payment rows, the first and last failed, the third in error with two attempts made,
and a cycle that takes up two rows at a time and allows three attempts. -/
def failedRowsWorld : World :=
  let t := Setup.defaultStart
  let row (id : String) (status : WebhookStatus) (count : Nat) : WebhookEvent :=
    ⟨id, "moonpay", "x" ++ id, "h", status, count, none, none, "", "w", "declined", t, t⟩
  { Setup.world { retryBatch := 2 } with
    store := { Store.empty with
      webhooks := [row "a" .failed 0, row "b" .processed 0, row "c" .error 2, row "d" .failed 0] } }

theorem retry_cycle_exact_onBatchOfTwo :
    let W := failedRowsWorld
    (W.store.webhooks.map (·.id)).Nodup ∧ 1 ≤ W.settings.retryBatch ∧
      ((Retry.cycle.exec W).1.toOption.map fun s =>
        (s.attempts, s.successes, s.failures, s.movedToDeadLetter)) = some (2, 1, 0, 1) ∧
      (Retry.cycle.exec W).2.store.webhooks.map (fun e => (e.id, e.status, e.retryCount)) =
        [("a", .failed, 1), ("b", .processed, 0), ("c", .deadLetter, 3), ("d", .failed, 0)] ∧
      (Retry.cycle.exec W).2.store.deadLetters.map (fun d => (d.eventId, d.retryCount, d.status)) =
        [("xc", 3, .pending)] := by
  intro W
  have hids : (W.store.webhooks.map (·.id)).Nodup := by decide
  have hbatch : 1 ≤ W.settings.retryBatch := by decide
  obtain ⟨stats, hexec, hatt, hsum, hfail, hmoved⟩ := retry_cycle_exact W hids hbatch
  refine ⟨hids, hbatch, ?_, ?_, ?_⟩
  · -- two rows taken up, one of them at its last attempt
    have h2 : stats.attempts = 2 := hatt.trans (by decide +kernel)
    have h1 : stats.movedToDeadLetter = 1 := hmoved.trans (by decide +kernel)
    have hs : stats.successes = 1 := by omega
    rw [hexec]
    simp [Except.toOption, h2, h1, hs, hfail]
  · rw [hexec]
    dsimp only
    decide +kernel
  · rw [hexec]
    dsimp only
    decide +kernel

end OnrampLedger
