import OnrampLedger.Proofs.MissingWebhooks
import OnrampLedger.Proofs.IntegrityRuns

/-!
# A reconciliation run, start to end

A reconciliation run with a lookback of `n` minutes reaches back from now by `n` negated
and scaled to nanoseconds, in 64-bit arithmetic, and looks at the purchases completed since
(`Reconcile.dueAt`). For each, in the order they were made, one check reads the store as it
then stands: the payment rows, the ledger and the cases. The only writes of a run are the
cases it opens and their alerts, and a case is for the purchase checked, so every check
judges its purchase as it would on the store the run started from. This module computes a
whole run from that observation: its answer is a tally of judgements on the starting store
(`Reconcile.tally`), and its end is the world that opening the cases one after another
reaches.

The window is exact while the lookback's nanoseconds fit in 64 bits, that is, up to
153722867 minutes; one minute more and the reach wraps round to a start centuries after
now.

## Main results

* `Reconcile.dueAt_of_fits` — the purchases looked at, for a lookback that fits: those
  completed no earlier than the lookback's minutes before now.
* `Reconcile.run_classifies_window` — a run's answer and end, for a lookback that fits.
* `Reconcile.run_past_bound_skips_completed_purchase` — past the bound, a purchase
  completed now is not looked at.
-/

namespace OnrampLedger

open Std.Do

set_option mvcgen.warning false

/-- A step that answers is followed by the rest of the program from where it ended. -/
theorem Op.exec_bind_of_ok {α β : Type} {x : Op α} {f : α → Op β} {w w' : World} {a : α}
    (h : x.exec w = (.ok a, w')) : (x >>= f).exec w = (f a).exec w' := by
  unfold Op.exec at *
  simp only [ExceptT.run_bind, StateT.run_bind, h]
  rfl

theorem Instant.lt_iff {a b : Instant} : a < b ↔ a.nanos < b.nanos := Iff.rfl

namespace Reconcile

/-! ## What a run judges -/

/-- Whether the purchase's wallet has a provider credit with an event id, made no earlier
than the purchase: what reconciliation takes for the purchase's ledger entry. -/
def credited (s : Store) (o : OnRamp) : Bool :=
  s.ledger.any fun e =>
    e.wallet == o.walletId && e.source == .webhook && e.providerEventId != "" &&
      !(e.createdAt < o.createdAt)

/-- Whether reconciliation counts the purchase as missing its ledger entry: it has its
report but no such credit. -/
def missesLedger (s : Store) (o : OnRamp) : Bool := reported s o && !credited s o

/-- Whether reconciliation opens a case for the purchase: it has no report and no case. -/
def opensCase (s : Store) (o : OnRamp) : Bool := !reported s o && (s.missingFor? o.id).isNone

/-- The report of a run that checked the purchases `done` against store `s`. -/
def tally (s : Store) (done : List OnRamp) : ReconcileReport :=
  ⟨done.length, (done.filter (missesReport s)).length, (done.filter (missesLedger s)).length⟩

/-- One purchase more in a tally is counted once, and as what it misses. -/
theorem tally_snoc (s : Store) (done : List OnRamp) (o : OnRamp) :
    tally s (done ++ [o]) = ⟨(tally s done).checked + 1,
      (tally s done).missingWebhooks + (if missesReport s o then 1 else 0),
      (tally s done).missingLedgers + (if missesLedger s o then 1 else 0)⟩ := by
  unfold tally
  cases h₁ : missesReport s o <;> cases h₂ : missesLedger s o <;>
    simp [List.filter_append, h₁, h₂]

/-- Cases of other purchases do not change which case a purchase has. -/
theorem missingFor?_of_added {S s : Store} {added : List MissingWebhookAlert} {o : OnRamp}
    (hm : s.missing = S.missing ++ added) (hother : ∀ a ∈ added, a.onRampId ≠ o.id) :
    s.missingFor? o.id = S.missingFor? o.id := by
  have hnone : added.find? (·.onRampId == o.id) = none :=
    List.find?_eq_none.mpr fun a ha => by simpa using hother a ha
  simp only [Store.missingFor?, hm, List.find?_append, hnone, Option.or_none]

/-- A purchase is judged the same on a store that differs only by cases of other
purchases and by alerts. -/
theorem judged_of_added {S s : Store} {added : List MissingWebhookAlert} {o : OnRamp}
    (htables : { s with missing := [], alerts := [] } = { S with missing := [], alerts := [] })
    (hm : s.missing = S.missing ++ added) (hother : ∀ a ∈ added, a.onRampId ≠ o.id) :
    missesReport s o = missesReport S o ∧ missesLedger s o = missesLedger S o ∧
      opensCase s o = opensCase S o := by
  have hw : s.webhooks = S.webhooks := by simpa using congrArg Store.webhooks htables
  have hl : s.ledger = S.ledger := by simpa using congrArg Store.ledger htables
  have hrep : reported s o = reported S o := by simp only [reported, hw]
  refine ⟨missesReport_of_added hw hm hother, ?_, ?_⟩
  · simp only [missesLedger, credited, hrep, hl]
  · simp only [opensCase, hrep, missingFor?_of_added hm hother]

/-! ## The window -/

/-- The window's reach in nanoseconds, negated, is exact for a lookback whose
nanoseconds fit in 64 bits. -/
theorem minutesNanos_neg {L : Int} (hpos : 0 ≤ L) (hfit : L * 60 * Instant.nanosPerSecond < 2 ^ 63) :
    minutesNanos (-L) = -(L * 60 * Instant.nanosPerSecond) := by
  have h64 : Nat.pow 2 64 = 18446744073709551616 := rfl
  unfold minutesNanos Instant.nanosPerSecond at *
  rw [h64, Int.neg_mul, Int.neg_mul]
  norm_num at hfit
  apply Int.bmod_eq_of_le <;> omega

/-- **The purchases a run looks at**, for a lookback that fits: those completed no earlier
than the lookback's minutes before now, in the order they were made. -/
theorem dueAt_of_fits (W : World) (lookback : Int)
    (hpos : 0 < if lookback ≤ 0 then W.settings.lookbackMinutes else lookback)
    (hfit : (if lookback ≤ 0 then W.settings.lookbackMinutes else lookback) * 60 *
      Instant.nanosPerSecond < 2 ^ 63) :
    dueAt W lookback = W.store.onRamps.filter fun o => o.completedAt.any fun t =>
      W.now.nanos - (if lookback ≤ 0 then W.settings.lookbackMinutes else lookback) * 60 *
        Instant.nanosPerSecond ≤ t.nanos := by
  have hwindow := minutesNanos_neg hpos.le hfit
  unfold dueAt
  generalize (if lookback ≤ 0 then W.settings.lookbackMinutes else lookback) = L at hwindow ⊢
  simp only [hwindow]
  congr 1
  funext o
  cases o.completedAt with
  | none => rfl
  | some t =>
      simp only [Option.any_some, Instant.addNanos, Instant.lt_iff]
      rw [Bool.eq_iff_iff]
      simp only [Bool.not_eq_true', decide_eq_false_iff_not, decide_eq_true_eq]
      omega

/-! ## Opening cases -/

/-- The case `openCase` opens for purchase `o` in world `W`: pending, unsettled, under the
next id. -/
def caseOf (o : OnRamp) (W : World) : MissingWebhookAlert :=
  ⟨idText (W.issued + 1), o.id, o.walletId, o.provider, o.amount, .pending, none, W.now⟩

/-- Opening a case adds it to the cases, and writes no other table but the alerts. -/
theorem openCase_spec (W₀ : World) (o : OnRamp) :
    ⦃fun W => ⌜W = W₀⌝⦄ openCase o
    ⦃post⟨fun _ W => ⌜{ W.store with alerts := [] } =
        { W₀.store with missing := W₀.store.missing ++ [caseOf o W₀], alerts := [] }⌝,
      fun _ _ => ⌜False⌝⟩⦄ := by
  mvcgen [openCase, -Alerting.missingWebhook_frame, Alerting.missingWebhook_tables]
  all_goals simp_all +zetaDelta [caseOf]

/-- A case as a run opens it for purchase `o`: for the purchase, with its wallet, provider
and amount, pending and unsettled. -/
structure CaseFor (a : MissingWebhookAlert) (o : OnRamp) : Prop where
  onRamp : a.onRampId = o.id
  wallet : a.walletId = o.walletId
  provider : a.provider = o.provider
  amount : a.amount = o.amount
  pending : a.status = .pending
  unsettled : a.settlement = none

theorem caseFor_caseOf (o : OnRamp) (W : World) : CaseFor (caseOf o W) o :=
  ⟨rfl, rfl, rfl, rfl, rfl, rfl⟩

/-- Cases opened for the purchases `l` are each for one of them. -/
theorem CaseFor.onRamp_mem {added : List MissingWebhookAlert} {l : List OnRamp}
    (h : List.Forall₂ CaseFor added l) : ∀ a ∈ added, ∃ o ∈ l, a.onRampId = o.id := by
  induction h with
  | nil => simp
  | cons hc _ ih =>
      intro a ha
      rcases List.mem_cons.mp ha with rfl | ha
      · exact ⟨_, List.mem_cons_self, hc.onRamp⟩
      · obtain ⟨o, ho, hid⟩ := ih a ha
        exact ⟨o, List.mem_cons_of_mem _ ho, hid⟩

/-- Opening a case answers, and adds the case and an alert. -/
theorem openCase_exec (W : World) (o : OnRamp) :
    ∃ W', (openCase o).exec W = (.ok (), W') ∧ { W'.store with alerts := [] } =
      { W.store with missing := W.store.missing ++ [caseOf o W], alerts := [] } := by
  obtain ⟨a, hok, hstore⟩ := Op.answers_of_triple (openCase_spec W o) rfl
  exact ⟨_, Prod.ext hok rfl, hstore⟩

/-- **Opening cases one after another**, for the purchases `l`: each call answers and
adds one case for its purchase, in order, and the store changes nowhere else but in the
alerts. -/
theorem forM_openCase (l : List OnRamp) (W : World) :
    ∃ W', (l.forM openCase).exec W = (.ok (), W') ∧
      { W'.store with missing := [], alerts := [] } = { W.store with missing := [], alerts := [] } ∧
      ∃ added, W'.store.missing = W.store.missing ++ added ∧ List.Forall₂ CaseFor added l := by
  induction l generalizing W with
  | nil => exact ⟨W, rfl, rfl, [], by simp, .nil⟩
  | cons o l ih =>
      obtain ⟨W₁, h₁, hstore₁⟩ := openCase_exec W o
      obtain ⟨W₂, h₂, htables, added, hmissing, hcases⟩ := ih W₁
      have hmissing₁ := congrArg Store.missing hstore₁
      have htables₁ := congrArg (fun s => { s with missing := [] }) hstore₁
      simp only at hmissing₁ htables₁
      refine ⟨W₂, ?_, htables.trans htables₁, caseOf o W :: added, ?_,
        .cons (caseFor_caseOf o W) hcases⟩
      · rw [List.forM_eq_forM, List.forM_cons, Op.exec_bind_of_ok h₁, ← List.forM_eq_forM, h₂]
      · rw [hmissing, hmissing₁, List.append_assoc, List.singleton_append]

/-- Opening the cases of one purchase more: the cases a run opens for purchases `l` and
then `o`, judged on world `W₀`, are those of `l` and then the case of `o`, if it opens
one. -/
theorem opened_snoc (W₀ : World) (l : List OnRamp) (o : OnRamp) :
    ((((l ++ [o]).filter (opensCase W₀.store)).forM openCase).exec W₀).2 =
      if opensCase W₀.store o then
        ((openCase o).exec (((l.filter (opensCase W₀.store)).forM openCase).exec W₀).2).2
      else (((l.filter (opensCase W₀.store)).forM openCase).exec W₀).2 := by
  obtain ⟨W, hW, -⟩ := forM_openCase (l.filter (opensCase W₀.store)) W₀
  obtain ⟨W₁, h₁, -⟩ := openCase_exec W o
  rw [hW, List.filter_append, List.filter_singleton]
  cases opensCase W₀.store o
  · simp only [cond_false, List.append_nil, hW, Bool.false_eq_true, if_false]
  · simp only [cond_true, if_true, h₁, List.forM_eq_forM, List.forM_append, List.forM_cons,
      List.forM_nil]
    rw [Op.exec_bind_of_ok (by rwa [← List.forM_eq_forM]), Op.exec_bind_of_ok h₁]
    rfl

/-! ## A whole run -/

/-- **One check** of a purchase answers whether it misses its report and whether it misses
its ledger entry, and opens its case exactly when it has no report and no case. -/
theorem check_exact (W₀ : World) (o : OnRamp) :
    ⦃fun W => ⌜W = W₀⌝⦄ check o
    ⦃post⟨fun r W => ⌜r = (missesReport W₀.store o, missesLedger W₀.store o) ∧
        W = if opensCase W₀.store o then ((openCase o).exec W₀).2 else W₀⌝,
      fun _ _ => ⌜False⌝⟩⦄ := by
  have hopen : ∀ w₀, _ := fun w₀ => Op.triple_exec (openCase o) w₀
  mvcgen [check, -check_frame, hopen]
  case vc4.isFalse.h_2.post.except.handle =>
    -- opening a case answers
    rename_i W _ _ _ _ _ _ _
    obtain ⟨W', hok, -⟩ := openCase_exec W o
    simp [hok]
  case vc1.isTrue =>
    -- a report found: counted only for a missing credit, and no case opened
    rename_i W hW _ _ hrep
    subst hW
    have hr : reported W.store o = true := hrep
    simp +zetaDelta [missesReport, missesLedger, opensCase, hr, credited]
  all_goals simp_all +zetaDelta [missesReport, missesLedger, opensCase, reported, credited]

/-- **A reconciliation run**, computed: it answers the tally of the purchases it looks at
and ends where opening the cases of those with no report and no case, one after another,
ends. -/
theorem run_exact (W₀ : World) (lookback : Int)
    (hnodup : ((dueAt W₀ lookback).map (·.id)).Nodup) :
    ⦃fun W => ⌜W = W₀⌝⦄ run lookback
    ⦃post⟨fun r W => ⌜r = tally W₀.store (dueAt W₀ lookback) ∧
        W = ((((dueAt W₀ lookback).filter (opensCase W₀.store)).forM openCase).exec W₀).2⌝,
      fun _ _ => ⌜False⌝⟩⦄ := by
  have hcheck : ∀ (o : OnRamp) (w₀ : World), _ := fun o w₀ => check_exact w₀ o
  mvcgen [run, -run_frame, -check_frame, hcheck]
  case inv1 => exact post⟨fun p W => ⌜p.2 = tally W₀.store p.fst.prefix ∧
      W = (((List.filter (opensCase W₀.store) p.fst.prefix).forM openCase).exec W₀).2⌝,
    fun _ _ => ⌜False⌝⟩
  case vc1.step.post.success =>
    rename_i W hW _ _ _ _ pref cur suff hsplit r s hinv answer s' hcheck
    subst hW
    have hsplit' : dueAt W lookback = pref ++ cur :: suff := hsplit
    simp only [SPred.down_pure] at hinv ⊢
    obtain ⟨rfl, rfl⟩ := hinv
    obtain ⟨rfl, rfl⟩ := hcheck
    -- the purchase was not checked before, so no case opened so far is its own
    have hnew : cur.id ∉ pref.map (·.id) := by
      rw [hsplit', List.map_append, List.nodup_append] at hnodup
      exact fun hmem => hnodup.2.2 _ hmem _ (List.mem_map_of_mem List.mem_cons_self) rfl
    obtain ⟨W', hW', htables, added, hmissing, hcases⟩ :=
      forM_openCase (pref.filter (opensCase W.store)) W
    have hother : ∀ a ∈ added, a.onRampId ≠ cur.id := by
      intro a ha hid
      obtain ⟨o, ho, hao⟩ := CaseFor.onRamp_mem hcases a ha
      exact hnew (List.mem_map.mpr ⟨o, (List.mem_filter.mp ho).1, hao ▸ hid⟩)
    obtain ⟨hr, hl, ho⟩ := judged_of_added htables hmissing hother
    rw [tally_snoc, opened_snoc, hW']
    simp only [hr, hl, ho, and_self]
  case vc2.pre =>
    rename_i hW _ _ _ _
    subst hW
    exact ⟨rfl, rfl⟩
  case vc3.post.success =>
    rename_i hW _ _ _ _ _ _
    subst hW
    exact id
  all_goals simp_all

/-- **A reconciliation run classifies exactly the purchases in its window.** Let the
lookback be the one given, or the configured one when that is not positive, and let it be
positive with its nanoseconds fitting in 64 bits; let the purchases have distinct ids. A
run then looks at exactly the purchases completed no earlier than the lookback's minutes
before now, in the order they were made. It answers their count, the count of those
missing their report (no payment row of their provider and wallet made no earlier than
them, and no case that is settled), and the count of those missing their ledger entry
(a report but no provider credit of their wallet with an event id, made no earlier than
them). It ends where opening a case, and raising its alert, for each of them with no
report and no case, one after another, ends: each case is pending, for its purchase, and
no table but the cases and the alerts changes. -/
theorem run_classifies_window (W : World) (lookback : Int)
    (hids : (W.store.onRamps.map (·.id)).Nodup)
    (hpos : 0 < if lookback ≤ 0 then W.settings.lookbackMinutes else lookback)
    (hfit : (if lookback ≤ 0 then W.settings.lookbackMinutes else lookback) * 60 *
      Instant.nanosPerSecond < 2 ^ 63) :
    let due := W.store.onRamps.filter fun o => o.completedAt.any fun t =>
      W.now.nanos - (if lookback ≤ 0 then W.settings.lookbackMinutes else lookback) * 60 *
        Instant.nanosPerSecond ≤ t.nanos
    let W' := (((due.filter (opensCase W.store)).forM openCase).exec W).2
    (run lookback).exec W = (.ok ⟨due.length, (due.filter (missesReport W.store)).length,
        (due.filter (missesLedger W.store)).length⟩, W') ∧
      { W'.store with missing := [], alerts := [] } = { W.store with missing := [], alerts := [] } ∧
      ∃ added, W'.store.missing = W.store.missing ++ added ∧
        List.Forall₂ CaseFor added (due.filter (opensCase W.store)) := by
  intro due W'
  have hdue : dueAt W lookback = due := dueAt_of_fits W lookback hpos hfit
  have hrun := Op.exec_eq_of_triple (run_exact W lookback (dueAt_ids_nodup lookback hids))
  rw [hdue] at hrun
  obtain ⟨W₁, hW₁, htables, added, hmissing, hcases⟩ := forM_openCase (due.filter (opensCase W.store)) W
  have hW' : W' = W₁ := congrArg Prod.snd hW₁
  refine ⟨hrun, ?_⟩
  rw [hW']
  exact ⟨htables, added, hmissing, hcases⟩

/-- A purchase of 10 started and completed at the start of the clock, with no report. -/
def completedPurchaseWorld : World :=
  Command.runAll [.createWallet "u" "USD", .createOnRamp ⟨"u", "user"⟩ "moonpay" 10 "USD",
    .completeOnRamp (idText 2) ⟨"root", "admin"⟩] (Setup.world {})

theorem run_classifies_window_onCompletedPurchase :
    let W := completedPurchaseWorld
    (W.store.onRamps.map (·.id)).Nodup ∧ (0 < if (60 : Int) ≤ 0 then W.settings.lookbackMinutes else 60) ∧
      (if (60 : Int) ≤ 0 then W.settings.lookbackMinutes else 60) * 60 * Instant.nanosPerSecond < 2 ^ 63 ∧
      ((run 60).exec W).1.toOption.map (fun r => (r.checked, r.missingWebhooks, r.missingLedgers)) =
        some (1, 1, 0) ∧
      ((run 60).exec W).2.store.missing.length = 1 := by
  intro W
  have hids : (W.store.onRamps.map (·.id)).Nodup := by decide +kernel
  have hpos : 0 < if (60 : Int) ≤ 0 then W.settings.lookbackMinutes else 60 := by decide
  have hfit : (if (60 : Int) ≤ 0 then W.settings.lookbackMinutes else 60) * 60 *
      Instant.nanosPerSecond < 2 ^ 63 := by
    norm_num [Instant.nanosPerSecond]
  obtain ⟨hrun, -, added, hmissing, hcases⟩ := run_classifies_window W 60 hids hpos hfit
  refine ⟨hids, hpos, hfit, ?_, ?_⟩
  · rw [hrun]
    decide +kernel
  · -- one case, opened for the one purchase
    rw [hrun]
    simp only
    rw [hmissing, List.length_append, hcases.length_eq]
    decide +kernel

/-- **Past the bound the window wraps.** With a lookback of 153722868 minutes, the first
whose nanoseconds do not fit in 64 bits, the window's start wraps round to centuries after
now: a purchase completed now is not looked at, while one minute less looks at it. -/
theorem run_past_bound_skips_completed_purchase :
    let W := completedPurchaseWorld
    W.store.onRamps.map (·.completedAt) = [some W.now] ∧
      ((run 153722868).exec W).1.toOption.map (·.checked) = some 0 ∧
      ((run 153722867).exec W).1.toOption.map (·.checked) = some 1 := by
  intro W
  exact ⟨by decide +kernel, by decide +kernel, by decide +kernel⟩

end Reconcile

end OnrampLedger
