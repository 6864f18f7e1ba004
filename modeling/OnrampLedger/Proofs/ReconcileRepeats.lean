import OnrampLedger.Proofs.ReconcileWindow

/-!
# Reconciling again changes nothing

A reconciliation run opens a case for each purchase it looks at that has no report and no
case, and counts a purchase as missing its report while its case is pending. Its only
writes are those cases and their alerts, so a second run at the same time looks at the
same purchases, on the same payment rows and ledger, and finds a pending case for every
purchase the first run opened one for. It therefore counts every purchase as the first run
did, opens nothing, draws no id and raises no alert: the second run answers what the first
did and leaves the world as it found it.

A case is opened only for a purchase that has none, so a purchase never has two cases,
however many runs follow one another, with the clock moving between them or not.

## Main results

* `Reconcile.run_twice` — a second run with the same clock answers the first run's report
  and changes nothing.
* `Reconcile.run_keeps_one_case` — a run keeps each purchase at no more than one case.
* `reconcile_again_changes_nothing` — both, the second over any number of runs.
-/

namespace OnrampLedger

open Std.Do

set_option mvcgen.warning false

namespace Reconcile

/-! ## What a first run leaves -/

/-- Opening a case keeps the settings and the clock. -/
theorem openCase_clock (o : OnRamp) (st : ServiceSettings) (t : Instant) :
    ⦃fun W => ⌜W.settings = st ∧ W.now = t⌝⦄ openCase o
    ⦃post⟨fun _ W => ⌜W.settings = st ∧ W.now = t⌝, fun _ _ => ⌜False⌝⟩⦄ := by
  mvcgen [openCase, Alerting.missingWebhook, Alerting.raise, -Alerting.raise_spec,
    -Alerting.missingWebhook_frame]

/-- Opening cases one after another keeps the settings and the clock. -/
theorem forM_openCase_clock (l : List OnRamp) (W : World) :
    ((l.forM openCase).exec W).2.settings = W.settings ∧
      ((l.forM openCase).exec W).2.now = W.now := by
  induction l generalizing W with
  | nil => exact ⟨rfl, rfl⟩
  | cons o l ih =>
    obtain ⟨W₁, h₁, -⟩ := openCase_exec W o
    have hclock := Op.ends_of_triple (openCase_clock o W.settings W.now) ⟨rfl, rfl⟩
    rw [h₁] at hclock
    obtain ⟨hs, hn⟩ := ih W₁
    rw [List.forM_eq_forM, List.forM_cons, Op.exec_bind_of_ok h₁, ← List.forM_eq_forM]
    exact ⟨hs.trans hclock.1, hn.trans hclock.2⟩

/-- The purchases a run looks at are read off the settings, the clock and the purchases. -/
theorem dueAt_congr {W W' : World} (hs : W'.settings = W.settings) (hn : W'.now = W.now)
    (ho : W'.store.onRamps = W.store.onRamps) (lookback : Int) :
    dueAt W' lookback = dueAt W lookback := by
  simp only [dueAt, hs, hn, ho]

/-- Every case a run opens is pending. -/
theorem CaseFor.pending_of_mem {added : List MissingWebhookAlert} {l : List OnRamp}
    (h : List.Forall₂ CaseFor added l) : ∀ a ∈ added, a.status = .pending := by
  induction h with
  | nil => simp
  | cons hc _ ih =>
    intro a ha
    rcases List.mem_cons.mp ha with rfl | ha
    · exact hc.pending
    · exact ih a ha

/-- A run opens a case for each purchase it opens one for, in order: the cases' purchases
are those purchases' ids. -/
theorem CaseFor.map_onRampId {added : List MissingWebhookAlert} {l : List OnRamp}
    (h : List.Forall₂ CaseFor added l) : added.map (·.onRampId) = l.map (·.id) := by
  induction h with
  | nil => rfl
  | cons hc _ ih => simp [hc.onRamp, ih]

/-- **A purchase judged again**, on a store that differs only by pending cases added, one
for each purchase that had no report and no case: it opens no case, and it is counted as
before. -/
theorem judged_again {S s : Store} {added : List MissingWebhookAlert} {o : OnRamp}
    (hw : s.webhooks = S.webhooks) (hl : s.ledger = S.ledger)
    (hm : s.missing = S.missing ++ added) (hpending : ∀ a ∈ added, a.status = .pending)
    (hcovered : opensCase S o = true → o.id ∈ added.map (·.onRampId)) :
    opensCase s o = false ∧ missesReport s o = missesReport S o ∧
      missesLedger s o = missesLedger S o := by
  have hrep : reported s o = reported S o := by simp only [reported, hw]
  have hledger : missesLedger s o = missesLedger S o := by
    simp only [missesLedger, credited, hrep, hl]
  have hfind : s.missingFor? o.id = (S.missingFor? o.id).or (added.find? (·.onRampId == o.id)) := by
    simp only [Store.missingFor?, hm, List.find?_append]
  cases hcase : S.missingFor? o.id with
  | some a =>
    -- the case it had is the one found again
    simp [opensCase, missesReport, hrep, hfind, hcase, hledger]
  | none =>
    cases hr : reported S o with
    | true => simp [opensCase, missesReport, hrep, hr, hledger]
    | false =>
      -- it had no report and no case, so the first run opened a pending case for it
      have hopen : opensCase S o = true := by simp [opensCase, hr, hcase]
      obtain ⟨a, ha, hao⟩ := List.mem_map.mp (hcovered hopen)
      obtain ⟨a', ha'⟩ : ∃ a', added.find? (·.onRampId == o.id) = some a' :=
        Option.isSome_iff_exists.mp (List.find?_isSome.mpr ⟨a, ha, by simp [hao]⟩)
      have hpend : a'.status = .pending := hpending a' (List.mem_of_find?_eq_some ha')
      simp [opensCase, missesReport, hrep, hr, hfind, hcase, ha', hpend, hledger]

/-! ## Two runs -/

/-- **A second run with the same clock answers what the first did and changes
nothing**, when the purchases have distinct ids, as the store keeps them. -/
theorem run_twice (W : World) (lookback : Int) (hids : (W.store.onRamps.map (·.id)).Nodup) :
    (run lookback).exec ((run lookback).exec W).2 = (run lookback).exec W := by
  have hnodup := dueAt_ids_nodup lookback hids
  have hfirst := Op.exec_eq_of_triple (run_exact W lookback hnodup)
  obtain ⟨W₁, hW₁, htables, added, hmissing, hcases⟩ :=
    forM_openCase ((dueAt W lookback).filter (opensCase W.store)) W
  obtain ⟨hset, hnow⟩ := forM_openCase_clock ((dueAt W lookback).filter (opensCase W.store)) W
  rw [hW₁] at hset hnow
  rw [hfirst, hW₁]
  -- the first run wrote only cases and alerts, so the second looks at the same purchases
  have hw : W₁.store.webhooks = W.store.webhooks := by simpa using congrArg Store.webhooks htables
  have hl : W₁.store.ledger = W.store.ledger := by simpa using congrArg Store.ledger htables
  have ho : W₁.store.onRamps = W.store.onRamps := by simpa using congrArg Store.onRamps htables
  have hdue : dueAt W₁ lookback = dueAt W lookback := dueAt_congr hset hnow ho lookback
  have hagain : ∀ o ∈ dueAt W lookback, opensCase W₁.store o = false ∧
      missesReport W₁.store o = missesReport W.store o ∧
        missesLedger W₁.store o = missesLedger W.store o := fun o ho =>
    judged_again hw hl hmissing (CaseFor.pending_of_mem hcases) fun hopen => by
      rw [CaseFor.map_onRampId hcases]
      exact List.mem_map_of_mem (List.mem_filter.mpr ⟨ho, hopen⟩)
  rw [Op.exec_eq_of_triple (run_exact W₁ lookback (hdue ▸ hnodup)), hdue]
  -- so it opens no case and counts every purchase as the first run did
  have hnone : (dueAt W lookback).filter (opensCase W₁.store) = [] :=
    List.filter_eq_nil_iff.mpr fun o ho => by simp [(hagain o ho).1]
  have htally : tally W₁.store (dueAt W lookback) = tally W.store (dueAt W lookback) := by
    unfold tally
    rw [List.filter_congr fun o ho => (hagain o ho).2.1,
      List.filter_congr fun o ho => (hagain o ho).2.2]
  rw [hnone, htally]
  rfl

/-! ## One case a purchase -/

/-- **A run keeps each purchase at no more than one case**: it opens one only for a
purchase that has none, and the purchases it opens them for are distinct. -/
theorem run_keeps_one_case (W : World) (lookback : Int)
    (hids : (W.store.onRamps.map (·.id)).Nodup) (hone : (W.store.missing.map (·.onRampId)).Nodup) :
    (((run lookback).exec W).2.store.missing.map (·.onRampId)).Nodup := by
  have hnodup := dueAt_ids_nodup lookback hids
  have hrun := Op.exec_eq_of_triple (run_exact W lookback hnodup)
  obtain ⟨W₁, hW₁, -, added, hmissing, hcases⟩ :=
    forM_openCase ((dueAt W lookback).filter (opensCase W.store)) W
  rw [hrun, hW₁]
  simp only
  rw [hmissing, List.map_append, CaseFor.map_onRampId hcases, List.nodup_append]
  refine ⟨hone, (List.filter_sublist.map _).nodup hnodup, ?_⟩
  -- a purchase given a case had none before
  intro x hx y hy hxy
  obtain ⟨a, ha, rfl⟩ := List.mem_map.mp hx
  obtain ⟨o, ho, rfl⟩ := List.mem_map.mp hy
  have hopen := (List.mem_filter.mp ho).2
  simp only [opensCase, Bool.and_eq_true, Option.isNone_iff_eq_none] at hopen
  have hnot := List.find?_eq_none.mp hopen.2 a ha
  simp [hxy] at hnot

/-- A run, its answer dropped, as a command does it, keeps the purchases. -/
theorem run_onRamps (W : World) (lookback : Int) :
    ((run lookback).exec W).2.store.onRamps = W.store.onRamps := by
  have h := Op.world_of_answered (run_tables { W.store with missing := [], alerts := [] } lookback)
    (w := W) rfl
  simpa using congrArg Store.onRamps h

end Reconcile

/-- **Reconciling again changes nothing.** When the purchases have distinct ids, as the
store keeps them: a second run with the same lookback and the same clock, right after a
first, answers the first run's report and leaves the world exactly as the first left it,
so it opens no case, raises no alert and draws no id. And over any number of runs, with
the clock moving between them, a purchase that had at most one case keeps at most one. -/
theorem reconcile_again_changes_nothing :
    (∀ (W : World) (lookback : Int), (W.store.onRamps.map (·.id)).Nodup →
      (Reconcile.run lookback).exec ((Reconcile.run lookback).exec W).2 =
        (Reconcile.run lookback).exec W) ∧
    (∀ (W : World) (cs : List Command),
      (∀ c ∈ cs, (∃ lookback, c = .reconcile lookback) ∨ ∃ nanos, c = .advance nanos) →
      (W.store.onRamps.map (·.id)).Nodup → (W.store.missing.map (·.onRampId)).Nodup →
      ((Command.runAll cs W).store.missing.map (·.onRampId)).Nodup) := by
  refine ⟨fun W lookback hids => Reconcile.run_twice W lookback hids, fun W cs hcs hids hone => ?_⟩
  -- runs and clock moves keep the purchases, and runs keep one case a purchase
  have hkeep := Command.runAll_invariant
    (P := fun W => (W.store.onRamps.map (·.id)).Nodup ∧ (W.store.missing.map (·.onRampId)).Nodup)
    (fun c hc W ⟨hids, hone⟩ => by
      rcases hc with ⟨lookback, rfl⟩ | ⟨nanos, rfl⟩
      · rw [Command.run, Command.op, Op.exec_discard, Reconcile.run_onRamps]
        exact ⟨hids, Reconcile.run_keeps_one_case W lookback hids hone⟩
      · exact ⟨hids, hone⟩)
    hcs ⟨hids, hone⟩
  exact hkeep.2

end OnrampLedger
