import OnrampLedger.Proofs.Ids

/-!
# What a step writes on the payment rows and the dead letters

Four operations write these two tables. Processing a payment writes its row, over its
earlier row or as a new one (`Intake.Rewrote`); a retry cycle attempts the rows it takes
up once more and adds a dead letter for each that ran out of attempts (`Retry.Cycled`);
an operator sends a dead letter back (`Retry.SentBack`), settles it (`Retry.Resolved`) or
archives it (`Retry.Archived`). `Command.Step.rows` says that every other step keeps both
tables.

With distinct ids, a write-back by id is a point update (`replaceFirst_eq_map`), and a
retry cycle attempts exactly the rows it took up (`Retry.attemptAll_eq_map`): both tables
after a step are maps of the tables before it, plus the rows added.

## Main results

* `replaceFirst_eq_map`, `Retry.attemptAll_eq_map` — write-backs as maps.
* `Command.Step.rows` — the inversion of a step on the two tables.
-/

namespace OnrampLedger

/-! ## Write-backs as maps -/

section
variable {α : Type} {key : α → String} {k : String} {y : α} {l : List α}

/-- With distinct ids, writing back a row under id `k` replaces the row with that id and
no other. -/
theorem replaceFirst_eq_map (hl : (l.map key).Nodup) :
    replaceFirst (fun z => key z == k) y l = l.map fun z => if key z = k then y else z := by
  induction l with
  | nil => rfl
  | cons z zs ih =>
    simp only [List.map_cons, List.nodup_cons, List.mem_map] at hl
    by_cases hz : key z = k
    · -- the head is the row; no later row has its id
      have hrest : (zs.map fun z => if key z = k then y else z) = zs := by
        refine (List.map_congr_left fun z' hz' => if_neg fun h => hl.1 ⟨z', hz', ?_⟩).trans
          (List.map_id _)
        rw [h, hz]
      simp [replaceFirst, hz, hrest]
    · simp [replaceFirst, hz, ih hl.2]

/-- A row the write-back's property does not pick stays in the table. -/
theorem mem_replaceFirst_of_not {p : α → Bool} {r : α} (hr : r ∈ l) (hp : p r = false) :
    r ∈ replaceFirst p y l := by
  induction l with
  | nil => simp at hr
  | cons z zs ih =>
    simp only [replaceFirst]
    rcases List.mem_cons.mp hr with rfl | hr
    · simp [hp]
    · split
      · exact List.mem_cons_of_mem _ hr
      · exact List.mem_cons_of_mem _ (ih hr)

/-- Writing back a row that a filter rejects adds nothing to the filter. -/
theorem length_filter_replaceFirst_le {p q : α → Bool} (hy : q y = false) :
    ((replaceFirst p y l).filter q).length ≤ (l.filter q).length := by
  induction l with
  | nil => simp [replaceFirst]
  | cons z zs ih =>
    simp only [replaceFirst]
    split
    · simp only [List.filter_cons, hy, Bool.false_eq_true, if_false]
      split <;> simp
    · simp only [List.filter_cons]
      split <;> simp [ih]

/-- With distinct ids, a filter of the rows with one row's id counts that row alone. -/
theorem length_filter_key_eq (hl : (l.map key).Nodup) (hy : y ∈ l) (P : α → Bool) :
    (l.filter fun z => key z == key y && P z).length = if P y then 1 else 0 := by
  induction l with
  | nil => simp at hy
  | cons z zs ih =>
    simp only [List.map_cons, List.nodup_cons, List.mem_map] at hl
    rcases List.mem_cons.mp hy with rfl | hy
    · -- the row is the head: no later row has its id
      have hnone : (zs.filter fun z' => key z' == key y && P z') = [] :=
        List.filter_eq_nil_iff.mpr fun z' hz' h => hl.1 ⟨z', hz', by simp at h; exact h.1⟩
      by_cases hP : P y <;> simp [hP, hnone]
    · have hne : key z ≠ key y := fun h => hl.1 ⟨y, hy, h.symm⟩
      simp [hne, ih hl.2 hy]

/-- With distinct ids, a row whose id is among a sublist's is that sublist's row. -/
theorem mem_of_key_mem {es : List α} {r : α} (hsub : es.Sublist l) (hl : (l.map key).Nodup)
    (hr : r ∈ l) (hk : key r ∈ es.map key) : r ∈ es := by
  obtain ⟨e, he, hkey⟩ := List.mem_map.mp hk
  rwa [← List.inj_on_of_nodup_map hl (hsub.subset he) hr hkey]

end

namespace Retry

theorem due_sublist (batch : Int) (rows : List WebhookEvent) : (due batch rows).Sublist rows := by
  unfold due
  split
  · exact (List.take_sublist _ _).trans List.filter_sublist
  · exact List.filter_sublist

/-- The rows a cycle takes up are failed, or marked in error. -/
theorem status_of_mem_due {batch : Int} {rows : List WebhookEvent} {e : WebhookEvent}
    (he : e ∈ due batch rows) : e.status = .failed ∨ e.status = .error := by
  have hmem := (due_sublist batch rows).subset he
  unfold due at he
  split at he
  · have := (List.mem_filter.mp (List.mem_of_mem_take he)).2
    simpa using this
  · have := (List.mem_filter.mp he).2
    simpa using this

/-- **A cycle attempts exactly the rows it took up**: with distinct ids, attempting a
sublist of the rows, one after the other, attempts each of them once and leaves the
others. -/
theorem attemptAll_eq_map {max : Int} {now : Instant} {es rows : List WebhookEvent}
    (hsub : es.Sublist rows) (hl : (rows.map (·.id)).Nodup) :
    attemptAll max now es rows =
      rows.map fun r => if r.id ∈ es.map (·.id) then attempt max now r else r := by
  induction es generalizing rows with
  | nil => simp [attemptAll]
  | cons e es ih =>
    have hes : ((e :: es).map (·.id)).Nodup := hl.sublist (hsub.map _)
    have he : e ∈ rows := hsub.subset List.mem_cons_self
    have hne : ∀ r ∈ es, r.id ≠ e.id := fun r hr h =>
      (List.nodup_cons.mp hes).1 (List.mem_map.mpr ⟨r, hr, h⟩)
    -- the first attempt rewrites `e` alone; the rest of the sublist is still a sublist
    set rows₁ := rows.map fun z => if z.id = e.id then attempt max now e else z with hrows₁
    have hfirst : replaceFirst (·.id == e.id) (attempt max now e) rows = rows₁ :=
      replaceFirst_eq_map hl
    have hids₁ : rows₁.map (·.id) = rows.map (·.id) := by
      rw [hrows₁, List.map_map]
      refine List.map_congr_left fun z _ => ?_
      by_cases hz : z.id = e.id <;> simp [hz, attempt_id]
    have hsub₁ : es.Sublist rows₁ := by
      have h := (List.sublist_of_cons_sublist hsub).map fun z => if z.id = e.id then attempt max now e else z
      rwa [List.map_congr_left (fun r hr => if_neg (hne r hr)), List.map_id'] at h
    have hrest := ih hsub₁ (hids₁ ▸ hl)
    change attemptAll max now es (replaceFirst (·.id == e.id) (attempt max now e) rows) = _
    rw [hfirst, hrest, hrows₁, List.map_map]
    refine List.map_congr_left fun r hr => ?_
    by_cases hr' : r.id = e.id
    · have hre : r = e := List.inj_on_of_nodup_map hl hr he hr'
      have hnot : e.id ∉ es.map (·.id) := (List.nodup_cons.mp hes).1
      subst hre
      simp [Function.comp, attempt_id, hnot]
    · simp [Function.comp, hr']

end Retry

/-! ## The inversion of a step on the payment rows -/

/-- What processing the payment `ev` wrote on the payment rows, from world `W` to `W'`:
its row, over its earlier row `prior`, which was neither processed nor dead-lettered, or
as a new row under an id drawn during the step. The row is processed or failed, and keeps
the earlier row's id, payment id, count of attempts and dead-letter time. The dead
letters are as they were. -/
structure Intake.Rewrote (ev : PaymentEvent) (W W' : World) (prior : Option WebhookEvent)
    (row : WebhookEvent) : Prop where
  earlier : ∀ p, prior = some p → p ∈ W.store.webhooks ∧ p.status ≠ .processed ∧ p.status ≠ .deadLetter
  status : row.status = .processed ∨ row.status = .failed
  externalId : row.externalId = (prior.map (·.externalId)).getD ev.externalId
  retryCount : row.retryCount = (prior.map (·.retryCount)).getD 0
  deadLetterAt : row.deadLetterAt = prior.bind (·.deadLetterAt)
  id : ∃ k, row.id = (prior.map (·.id)).getD (idText k) ∧ (prior = none → W.issued < k ∧ k ≤ W'.issued)
  webhooks : W'.store.webhooks = W.store.webhooksWith prior row
  deadLetters : W'.store.deadLetters = W.store.deadLetters

namespace Command

/-- **What a step writes on the payment rows and the dead letters**: nothing, or a
payment's row, or a retry cycle, or an operator's action on a dead letter. -/
theorem Step.rows {c : Command} {W W' : World} (hs : c.Step W W') :
    (W'.store.webhooks = W.store.webhooks ∧ W'.store.deadLetters = W.store.deadLetters) ∨
    (∃ ev v row, c = .process ev v ∧
      Intake.Rewrote ev W W' (W.store.webhookByExternal? ev.externalId) row) ∨
    (c = .retryCycle ∧ Retry.Cycled W (Retry.due W.settings.retryBatch W.store.webhooks) W') ∨
    (∃ id admin, c = .retryDeadLetter id admin ∧ Retry.SentBack id admin W W') ∨
    (∃ id res notes admin, c = .resolveDeadLetter id res notes admin ∧
      Retry.Resolved id notes admin W W') ∨
    (∃ id admin, c = .archiveDeadLetter id admin ∧ Retry.Archived id W W') := by
  obtain ⟨heffect, -, hle⟩ := hs
  have kept {s s' : Store} (h : s.Kept s') : s'.webhooks = s.webhooks ∧ s'.deadLetters = s.deadLetters :=
    ⟨h.webhooks, h.deadLetters⟩
  have posted {s s' : Store} {w : Wallet} {m : Mutation} (h : Posted s w m s') :
      s'.webhooks = s.webhooks ∧ s'.deadLetters = s.deadLetters := ⟨h.webhooks, h.deadLetters⟩
  cases c
  case createWallet =>
    rcases heffect with hk | ⟨_, hopened⟩
    exacts [.inl (kept hk), .inl ⟨hopened.webhooks, hopened.deadLetters⟩]
  case credit | manualCredit =>
    rcases heffect with hk | ⟨_, _, -, hp, -⟩
    exacts [.inl (kept hk), .inl (posted hp)]
  case debit =>
    rcases heffect with hk | ⟨_, _, -, -, hp, -⟩
    exacts [.inl (kept hk), .inl (posted hp)]
  case transfer =>
    rcases heffect with hk | ⟨_, _, _, _, _, -, -, -, -, -, hout, hin, -⟩
    exacts [.inl (kept hk), .inl ⟨hin.webhooks.trans hout.webhooks,
      hin.deadLetters.trans hout.deadLetters⟩]
  case replayMissing =>
    rcases heffect with hk | ⟨_, _, -, _, _, -, hp, -⟩
    exacts [.inl (kept hk), .inl (posted hp)]
  -- settled, or its failure recorded: either way one row written
  case process ev v =>
    rcases heffect with hk | ⟨-, -, -, -, hprior, ⟨_, hsettled⟩ | ⟨k, _, hik, hnew, hrecorded⟩⟩
    · exact .inl (kept hk)
    all_goals
      have hprior' : ∀ p, W.store.webhookByExternal? ev.externalId = some p →
          p ∈ W.store.webhooks ∧ p.status ≠ .processed ∧ p.status ≠ .deadLetter :=
        fun p hp => ⟨List.mem_of_find?_eq_some hp, hprior p hp⟩
      refine .inr (.inl ⟨ev, v, ?_⟩)
    · obtain ⟨_, -, _, _, -, -, -, hd, k, row, hik, hki, hrow, hh⟩ := hsettled
      exact ⟨row, rfl, hprior', .inl hrow.status, hrow.externalId, hrow.retryCount,
        hrow.deadLetterAt, ⟨k, hrow.id, fun _ => ⟨hik, hki⟩⟩, hh, hd⟩
    · obtain ⟨row, hfailed, hstatus, -, hext, hid, hS⟩ := hrecorded
      have hrows : W'.store.webhooks = W.store.webhooksWith (W.store.webhookByExternal? ev.externalId) row ∧
          W'.store.deadLetters = W.store.deadLetters := by
        rcases hS with hS | ⟨_, -, hS⟩ <;> rw [hS] <;> exact ⟨rfl, rfl⟩
      exact ⟨row, rfl, hprior', .inr hstatus, hext, hfailed.retryCount, hfailed.deadLetterAt,
        ⟨k, hid, fun hnone => ⟨hik, hnew hnone⟩⟩, hrows.1, hrows.2⟩
  case retryCycle => exact .inr (.inr (.inl ⟨rfl, heffect⟩))
  case retryDeadLetter id admin =>
    rcases heffect with rfl | hsent
    exacts [.inl ⟨rfl, rfl⟩, .inr (.inr (.inr (.inl ⟨id, admin, rfl, hsent⟩)))]
  case resolveDeadLetter id res notes admin =>
    rcases heffect with rfl | hresolved
    exacts [.inl ⟨rfl, rfl⟩, .inr (.inr (.inr (.inr (.inl ⟨id, res, notes, admin, rfl, hresolved⟩))))]
  case archiveDeadLetter id admin =>
    rcases heffect with rfl | harchived
    exacts [.inl ⟨rfl, rfl⟩, .inr (.inr (.inr (.inr (.inr ⟨id, admin, rfl, harchived⟩))))]
  all_goals exact .inl (kept heffect)

end Command

/-! ## Events answered without a write -/

section
open Std.Do

set_option mvcgen.warning false

/-- An event that is unverified, not completed, or of a payment whose row is processed or
dead-lettered is answered, or refused, before anything is written. -/
theorem Intake.process_untouched (W₀ : World) (ev : PaymentEvent) (verified : Bool)
    (h : verified = false ∨ ev.status ≠ completedStatus ∨
      ∃ p, W₀.store.webhookByExternal? ev.externalId = some p ∧
        (p.status = .processed ∨ p.status = .deadLetter)) :
    ⦃fun W => ⌜W = W₀⌝⦄ process ev verified ⦃post⟨fun _ W => ⌜W = W₀⌝, fun _ W => ⌜W = W₀⌝⟩⦄ := by
  mvcgen [process]
  all_goals simp_all +zetaDelta

theorem Command.run_process_untouched {ev : PaymentEvent} {verified : Bool} {W : World}
    (h : verified = false ∨ ev.status ≠ completedStatus ∨
      ∃ p, W.store.webhookByExternal? ev.externalId = some p ∧
        (p.status = .processed ∨ p.status = .deadLetter)) :
    (Command.process ev verified).run W = W := by
  rw [Command.run, Command.op, Op.exec_discard]
  exact Op.world_of_ends (Intake.process_untouched W ev verified h) (· = W) rfl
    (fun _ _ h => h) (fun _ _ h => h)

end

end OnrampLedger
