import OnrampLedger.Proofs.Purchases

/-!
# What reconciliation counts as missing its report

A reconciliation run looks at the purchases completed within its window
(`Reconcile.dueAt`) and, for each, at the payment rows of the purchase's provider and
wallet made no earlier than the purchase (`Reconcile.reported`). A purchase with no such
row misses its report (`Reconcile.missesReport`) unless its case was settled; the first
time, a case is opened for it.

Payment intake decides otherwise which purchase a payment pays for: the oldest pending
purchase of the payer's wallet, provider and amount, whenever the payment's row was made.
A row keeps the provider and the time of its first delivery when a later delivery
processes it, so a payment first refused before its purchase was started completes the
purchase with a row that reconciliation does not count as its report.

## Main results

* `Reconcile.run_spec` — a run counts exactly the due purchases that miss their report,
  opens a case only for a due purchase with no report, and writes no payment row and no
  purchase.
* `completed_purchase_reported` — along every run from an empty store, a purchase that a
  payment completed, with a row of the purchase's provider made no earlier than the
  purchase, is never counted or given a case by a later reconciliation.
* `reconcile_counts_purchase_paid_before_start` — a payment refused before the purchase
  started, then processed, completes the purchase, and the next reconciliation counts it
  and opens its case.
-/

namespace OnrampLedger

open Std.Do

set_option mvcgen.warning false

/-- A run of an operation that never refuses answers, as its triple says. -/
theorem Op.answers_of_triple {α : Type} {x : Op α} {P : World → Prop} {Q : α → World → Prop}
    (h : ⦃fun w => ⌜P w⌝⦄ x ⦃post⟨fun a w => ⌜Q a w⌝, fun _ _ => ⌜False⌝⟩⦄) {w : World}
    (hw : P w) : ∃ a, (x.exec w).1 = .ok a ∧ Q a (x.exec w).2 := by
  have hend := Op.ends_of_triple h hw
  revert hend
  rcases x.exec w with ⟨_ | a, w'⟩
  · simp
  · exact fun hend => ⟨a, rfl, hend⟩

namespace Reconcile

/-- Whether a payment row of the purchase's provider and wallet, made no earlier than the
purchase, is among the rows: what reconciliation takes for the purchase's report. -/
def reported (s : Store) (o : OnRamp) : Bool :=
  s.webhooks.any fun e =>
    e.provider == o.provider && e.walletId == o.walletId && !(e.createdAt < o.createdAt)

/-- Whether reconciliation counts the purchase as missing its report: it has none, and
its case is pending or yet to be opened. -/
def missesReport (s : Store) (o : OnRamp) : Bool :=
  !reported s o && (s.missingFor? o.id).all (·.status == .pending)

/-- The purchases a run with `lookback` looks at in `W`: those completed within the last
`lookback` minutes, or the configured lookback when that is not positive. -/
def dueAt (W : World) (lookback : Int) : List OnRamp :=
  let lookback := if lookback ≤ 0 then W.settings.lookbackMinutes else lookback
  let since := W.now.addNanos (minutesNanos (-lookback))
  W.store.onRamps.filter fun o =>
    match o.completedAt with
    | some t => !(t < since)
    | none => false

/-- A reconciliation's account of the purchases `done` it checked, from the store `S`:
the count of those missing their report, the payment rows and the purchases as they
were, and a case added for each checked purchase with no report that had none. -/
structure Checked (S : Store) (done : List OnRamp) (r : ReconcileReport) (s : Store) : Prop where
  count : r.missingWebhooks = (done.filter (missesReport S)).length
  webhooks : s.webhooks = S.webhooks
  onRamps : s.onRamps = S.onRamps
  opened : ∃ added, s.missing = S.missing ++ added ∧
    ∀ a ∈ added, ∃ o ∈ done, a.onRampId = o.id ∧ reported S o = false

/-- **One check** answers whether the purchase misses its report. It writes no payment
row and no purchase, and adds a case for the purchase only when it has no report and no
case. -/
theorem check_spec (s : Store) (o : OnRamp) :
    ⦃fun W => ⌜W.store = s⌝⦄ check o
    ⦃post⟨fun r W => ⌜r.1 = missesReport s o ∧ W.store.webhooks = s.webhooks ∧
        W.store.onRamps = s.onRamps ∧ (W.store.missing = s.missing ∨
          reported s o = false ∧ ∃ a, a.onRampId = o.id ∧ W.store.missing = s.missing ++ [a])⌝,
      fun _ _ => ⌜False⌝⟩⦄ := by
  mvcgen [check, openCase, -check_frame, -Alerting.missingWebhook_frame,
    Alerting.missingWebhook_tables]
  all_goals simp_all +zetaDelta [missesReport, reported]
  -- a report was found: the purchase does not miss it
  rename_i hreported
  obtain ⟨e, he, ⟨hp, hw⟩, hlate⟩ := hreported
  exact fun hnone => absurd (hnone e he hp hw) hlate

/-- Cases added for other purchases change no answer about a purchase. -/
theorem missesReport_of_added {S s : Store} {added : List MissingWebhookAlert} {o : OnRamp}
    (hw : s.webhooks = S.webhooks) (hm : s.missing = S.missing ++ added)
    (hother : ∀ a ∈ added, a.onRampId ≠ o.id) : missesReport s o = missesReport S o := by
  have hfind : s.missingFor? o.id = S.missingFor? o.id := by
    have hnone : added.find? (·.onRampId == o.id) = none :=
      List.find?_eq_none.mpr fun a ha => by simpa using hother a ha
    simp only [Store.missingFor?, hm, List.find?_append, hnone, Option.or_none]
  simp only [missesReport, reported, hw, hfind]

theorem Checked.nil (S : Store) : Checked S [] ⟨0, 0, 0⟩ S :=
  ⟨rfl, rfl, rfl, [], by simp, by simp⟩

/-- One more purchase checked, one not checked before, keeps a run's account. -/
theorem Checked.snoc {S s s' : Store} {done : List OnRamp} {r r' : ReconcileReport}
    {o : OnRamp} {b : Bool} (h : Checked S done r s) (hnew : o.id ∉ done.map (·.id))
    (hb : b = missesReport s o) (hcount : r'.missingWebhooks = r.missingWebhooks + if b then 1 else 0)
    (hw : s'.webhooks = s.webhooks) (ho : s'.onRamps = s.onRamps)
    (hm : s'.missing = s.missing ∨
      reported s o = false ∧ ∃ a, a.onRampId = o.id ∧ s'.missing = s.missing ++ [a]) :
    Checked S (done ++ [o]) r' s' := by
  obtain ⟨hc, hw₀, ho₀, added, hadded, hfor⟩ := h
  -- the cases added so far are of purchases checked before, so not of `o`
  have hother : ∀ a ∈ added, a.onRampId ≠ o.id := by
    intro a ha hao
    obtain ⟨o', ho', hid, -⟩ := hfor a ha
    exact hnew (List.mem_map.mpr ⟨o', ho', hid ▸ hao⟩)
  have hmiss : missesReport s o = missesReport S o := missesReport_of_added hw₀ hadded hother
  have hrep : reported s o = reported S o := by simp only [reported, hw₀]
  refine ⟨?_, hw.trans hw₀, ho.trans ho₀, ?_⟩
  · rw [hcount, hc, hb, hmiss, List.filter_append, List.length_append]
    cases h : missesReport S o <;> simp [h]
  · rcases hm with hm | ⟨hno, a, hao, hm⟩
    · exact ⟨added, hm.trans hadded, fun a ha => (hfor a ha).imp fun _ h =>
        ⟨List.mem_append_left _ h.1, h.2⟩⟩
    · refine ⟨added ++ [a], by rw [hm, hadded, List.append_assoc], fun a' ha' => ?_⟩
      rcases List.mem_append.mp ha' with ha' | ha'
      · exact (hfor a' ha').imp fun _ h => ⟨List.mem_append_left _ h.1, h.2⟩
      · rw [List.mem_singleton.mp ha']
        exact ⟨o, List.mem_append_right _ (List.mem_singleton_self o), hao, hrep ▸ hno⟩

/-- **A reconciliation run** answers, counting exactly the due purchases that miss
their report; it writes no payment row and no purchase, and opens a case only for a due
purchase with no report. -/
theorem run_spec (W₀ : World) (lookback : Int)
    (hnodup : ((dueAt W₀ lookback).map (·.id)).Nodup) :
    ⦃fun W => ⌜W = W₀⌝⦄ run lookback
    ⦃post⟨fun r W => ⌜Checked W₀.store (dueAt W₀ lookback) r W.store⌝, fun _ _ => ⌜False⌝⟩⦄ := by
  mvcgen [run, -run_frame, -check_frame, check_spec]
  case inv1 => exact post⟨fun p W => ⌜Checked W₀.store p.fst.prefix p.2 W.store⌝,
    fun _ _ => ⌜False⌝⟩
  -- one purchase more: its id is not among those checked, the due ids being distinct
  case vc1.step.post.success =>
    rename_i W hW _ _ _ _ pref cur suff hsplit r s hinv answer s' hcheck
    subst hW
    have hsplit' : dueAt W lookback = pref ++ cur :: suff := hsplit
    have hnew : cur.id ∉ pref.map (·.id) := by
      rw [hsplit', List.map_append, List.nodup_append] at hnodup
      exact fun hmem => hnodup.2.2 _ hmem _ (List.mem_map_of_mem List.mem_cons_self) rfl
    exact Checked.snoc hinv hnew hcheck.1 rfl hcheck.2.1 hcheck.2.2.1 hcheck.2.2.2
  case vc2.pre =>
    rename_i hW _ _ _ _
    subst hW
    exact Checked.nil _
  case vc3.post.success =>
    rename_i hW _ _ _ _ _ _
    subst hW
    exact id
  all_goals simp_all

end Reconcile

/-! ## A purchase completed with its report -/

namespace Reconcile

/-- A purchase misses no report while a row of its provider and wallet, made no earlier
than it, is among the payment rows. -/
theorem reported_of_row {s : Store} {o : OnRamp} {r : WebhookEvent} (hr : r ∈ s.webhooks)
    (hp : r.provider = o.provider) (hw : r.walletId = o.walletId)
    (hlate : ¬ r.createdAt < o.createdAt) : reported s o = true := by
  simp only [reported, List.any_eq_true, Bool.and_eq_true, beq_iff_eq, Bool.not_eq_true',
    decide_eq_false_iff_not]
  exact ⟨r, hr, ⟨hp, hw⟩, hlate⟩

/-- A run counts no due purchase that has its report, and opens no case for it. -/
theorem run_of_reported (W : World) (lookback : Int) (hnodup : ((dueAt W lookback).map (·.id)).Nodup)
    {k : String} (hk : ∀ o ∈ dueAt W lookback, o.id = k → reported W.store o = true) :
    ∃ report, ((run lookback).exec W).1 = .ok report ∧
      report.missingWebhooks = ((dueAt W lookback).filter (missesReport W.store)).length ∧
      ∀ a ∈ ((run lookback).exec W).2.store.missing, a.onRampId = k → a ∈ W.store.missing := by
  obtain ⟨report, hok, hchecked⟩ := Op.answers_of_triple (run_spec W lookback hnodup) rfl
  obtain ⟨hcount, -, -, added, hmissing, hadded⟩ := hchecked
  refine ⟨report, hok, hcount, fun a ha hak => ?_⟩
  rw [hmissing] at ha
  rcases List.mem_append.mp ha with ha | ha
  · exact ha
  -- a case opened is for a due purchase without its report, so not for the one with `k`
  · obtain ⟨o, ho, hao, hnone⟩ := hadded a ha
    rw [hk o ho (hao ▸ hak)] at hnone
    cases hnone

theorem dueAt_ids_nodup {W : World} (lookback : Int) (h : (W.store.onRamps.map (·.id)).Nodup) :
    ((dueAt W lookback).map (·.id)).Nodup :=
  h.sublist ((List.filter_sublist ..).map _)

end Reconcile

/-- What a payment processed at a step did to a purchase pending before it and completed
after it: the payment's processed row, in the world after the step, names the purchase's
wallet. -/
theorem Intake.Completion.row_of_completed {ev : PaymentEvent} {O O' : List OnRamp}
    {rows : List WebhookEvent} (h : Completion ev O O' rows) (hnodup : (O.map (·.id)).Nodup)
    {P : OnRamp} (hP : P ∈ O) (hpending : P.completedAt = none)
    (hdone : (O'.find? (·.id == P.id)).any OnRamp.completed) :
    ∃ r ∈ rows, r.externalId = ev.externalId ∧ r.walletId = P.walletId ∧ r.status = .processed := by
  have hfind : O.find? (·.id == P.id) = some P := @find?_key_of_mem _ OnRamp.id _ _ hnodup hP
  have hstill : ¬ (O.find? (·.id == P.id)).any OnRamp.completed := by
    simp [hfind, OnRamp.completed, hpending]
  rcases h with hkept | ⟨o, ho, -, -, -, ⟨t, hO'⟩, r, hr, hrx, hrw, hrs⟩
  · exact absurd (hkept ▸ hdone) hstill
  · -- the purchase completed is `P`: any other completion leaves `P` pending
    have hid : P.id = o.id := by
      by_contra hne
      rw [hO', @find?_replaceFirst_of_ne _ OnRamp.id _ { o with completedAt := some t } _ hne]
        at hdone
      exact hstill hdone
    have hoP : o = P := List.inj_on_of_nodup_map hnodup ho hP hid.symm
    exact ⟨r, hr, hrx, hoP ▸ hrw, hrs⟩

/-- **A purchase completed by a payment keeps its report.** Along every run from an empty
store: when the payment processed at step `i` completes a purchase `O` that was pending,
and the payment's row names `O`'s provider and was made no earlier than `O`, then in
every later world `O` misses no report, and a reconciliation run, with any lookback,
answers a count of the due purchases that miss theirs, and opens no case for `O`. -/
theorem completed_purchase_reported (cs : List Command) (w : World)
    (hbound : (Command.runAll cs { w with store := Store.empty }).issued < 2 ^ 48)
    (i : Nat) (ev : PaymentEvent) (verified : Bool) (hc : cs[i]? = some (.process ev verified))
    (O : OnRamp)
    (hO : O ∈ (Command.runAll (cs.take i) { w with store := Store.empty }).store.onRamps)
    (hpending : O.completedAt = none)
    (hdone : ((Command.runAll (cs.take (i + 1)) { w with store := Store.empty }).store.onRamp?
      O.id).any OnRamp.completed)
    (hrow : ∀ r ∈ (Command.runAll (cs.take (i + 1)) { w with store := Store.empty }).store.webhooks,
      r.externalId = ev.externalId → r.provider = O.provider ∧ ¬ r.createdAt < O.createdAt)
    (j : Nat) (hij : i < j) (hj : j ≤ cs.length) (lookback : Int) :
    let W := Command.runAll (cs.take j) { w with store := Store.empty }
    (∀ o ∈ Reconcile.dueAt W lookback, o.id = O.id → Reconcile.missesReport W.store o = false) ∧
    ∃ report, ((Reconcile.run lookback).exec W).1 = .ok report ∧
      report.missingWebhooks =
        ((Reconcile.dueAt W lookback).filter (Reconcile.missesReport W.store)).length ∧
      ∀ a ∈ ((Reconcile.run lookback).exec W).2.store.missing, a.onRampId = O.id →
        a ∈ W.store.missing := by
  intro W
  have hi : i < cs.length := (List.getElem?_eq_some_iff.mp hc).1
  -- the purchases' ids are drawn and distinct in every world of the run
  have hdrawn : ∀ n ≤ cs.length,
      Drawn (Command.runAll (cs.take n) { w with store := Store.empty }).issued
        ((Command.runAll (cs.take n) { w with store := Store.empty }).store.onRamps.map (·.id)) :=
    fun n _ => Command.onRamps_drawn_runAll (Drawn.nil _)
      ((Command.issued_take_le cs n _).trans_lt hbound)
  -- the step that completed `O` wrote the payment's row processed, naming `O`'s wallet
  have hstep := Command.runAll_take_succ hc { w with store := Store.empty }
  rw [hstep] at hdone hrow
  obtain ⟨r, hr, hrx, hrw, hrs⟩ := (Command.run_process_completion ev verified _).row_of_completed
    (hdrawn i hi.le).nodup hO hpending hdone
  obtain ⟨hrp, hlate⟩ := hrow r hr hrx
  rw [← hstep] at hr
  -- in the later world the row stays, and the purchase under `O`'s id has `O`'s terms
  have hrj : r ∈ W.store.webhooks :=
    Command.processed_mem_take cs (World.fresh_empty w) hbound hij hj hr hrs
  have hstands : O.Stands W.issued W.store.onRamps :=
    Command.stands_take cs hbound hij.le hj ⟨hdrawn i hi.le, List.mem_map_of_mem hO,
      fun o ho hid => by rw [List.inj_on_of_nodup_map (hdrawn i hi.le).nodup ho hO hid]⟩
  have hdue : ∀ o ∈ Reconcile.dueAt W lookback, o.id = O.id → Reconcile.reported W.store o = true := by
    intro o ho hid
    have hterms := hstands.terms o (List.mem_of_mem_filter ho) hid
    simp only [OnRamp.terms, Prod.mk.injEq] at hterms
    obtain ⟨-, hwallet, hprovider, -, -, hcreated⟩ := hterms
    exact Reconcile.reported_of_row hrj (hrp.trans hprovider.symm) (hrw.trans hwallet.symm)
      (by rwa [hcreated])
  refine ⟨fun o ho hid => by simp [Reconcile.missesReport, hdue o ho hid], ?_⟩
  exact Reconcile.run_of_reported W lookback
    (Reconcile.dueAt_ids_nodup lookback (hdrawn j hj).nodup) hdue

/-- A payment delivered after its purchase was started completes it; the next
reconciliation finds its report. -/
theorem completed_purchase_reported_paidOnTime :
    let ev : PaymentEvent := ⟨"moonpay", "x", "u", 10, "USD", completedStatus, "h"⟩
    let cs : List Command := [.createWallet "u" "USD",
      .createOnRamp ⟨"u", "user"⟩ "moonpay" 10 "USD", .process ev true]
    let w := Setup.world {}
    let W := fun n => Command.runAll (cs.take n) { w with store := Store.empty }
    let O := ((W 2).store.onRamps.head?).getD default
    O ∈ (W 2).store.onRamps ∧ O.completedAt = none ∧ ((W 3).store.onRamp? O.id).any OnRamp.completed ∧
      (∀ r ∈ (W 3).store.webhooks, r.externalId = ev.externalId →
        r.provider = O.provider ∧ ¬ r.createdAt < O.createdAt) ∧
      ∀ o ∈ Reconcile.dueAt (W 3) 60, o.id = O.id → Reconcile.missesReport (W 3).store o = false := by
  intro ev cs w W O
  have hbound : (Command.runAll cs { w with store := Store.empty }).issued < 2 ^ 48 := by decide +kernel
  have hO : O ∈ (W 2).store.onRamps := by
    obtain ⟨o, ho⟩ := Option.isSome_iff_exists.mp
      (by decide +kernel : ((W 2).store.onRamps.head?).isSome)
    have hOo : O = o := by simp only [O, ho, Option.getD_some]
    exact hOo ▸ List.mem_of_mem_head? ho
  have hpending : O.completedAt = none := Option.isNone_iff_eq_none.mp (by decide +kernel)
  have hdone : ((W 3).store.onRamp? O.id).any OnRamp.completed := by decide +kernel
  have hrow : ∀ r ∈ (W 3).store.webhooks, r.externalId = ev.externalId →
      r.provider = O.provider ∧ ¬ r.createdAt < O.createdAt := by decide +kernel
  exact ⟨hO, hpending, hdone, hrow,
    (completed_purchase_reported cs w hbound 2 ev true rfl O hO hpending hdone hrow 3 (by decide)
      (by decide) 60).1⟩


/-- **A payment refused before its purchase was started is not its report.** Its row,
failed for a currency the wallet does not hold, is made before the purchase; processed
again once the purchase was started a second later, the payment completes the purchase,
and the next reconciliation counts the purchase as missing its report and opens a case
for it. -/
theorem reconcile_counts_purchase_paid_before_start :
    let ev : PaymentEvent := ⟨"moonpay", "x", "u", 10, "EUR", completedStatus, "h"⟩
    let cs : List Command := [.createWallet "u" "USD", .process ev true, .advance 1000000000,
      .createOnRamp ⟨"u", "user"⟩ "moonpay" 10 "USD", .process { ev with currency := "USD" } true]
    let W := fun n => Command.runAll (cs.take n) (Setup.world {})
    (W 4).store.onRamps.map OnRamp.completed = [false] ∧
      (W 5).store.onRamps.map OnRamp.completed = [true] ∧
      ((Reconcile.run 60).exec (W 5)).1.toOption.map (·.missingWebhooks) = some 1 ∧
      ((Reconcile.run 60).exec (W 5)).2.store.missing.map (·.onRampId) =
        (W 5).store.onRamps.map (·.id) := by
  intro ev cs W
  refine ⟨?_, ?_, ?_, ?_⟩ <;> decide +kernel

end OnrampLedger
