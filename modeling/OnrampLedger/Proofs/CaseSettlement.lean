import OnrampLedger.Proofs.MissingWebhooks

/-!
# Settling a missing-webhook case

An operator settles a missing-webhook case in one of two ways. A replay completes the
case's purchase, makes the credit the purchase's report would have made and marks the
case settled as a manual credit, all in one transaction (`Reconcile.ReplayCommitted`). A
resolution marks the case settled as reported late or as cancelled and writes nothing
else. Both refuse a case that is no longer pending, and a refused call leaves the store
as it was; so along any calls on one case, at most one answers.

The replay's credit is keyed by the case (`Reconcile.replayKey`): it is the key a
provider report with the event id `manual_` and the case's id would credit the
purchase's wallet under. When that key is already on an entry, the replay is a repeat:
it settles the case and posts nothing. Otherwise it posts exactly one entry, a deposit of
the purchase's amount (`Reconcile.ReplayEntry`).

## Main results

* `Reconcile.replay_settles`, `Reconcile.resolve_settles` — what one call writes,
  answered or refused.
* `Command.caseCalls_settle` — along calls on one case, either none answers and the
  store is as it was, or exactly one answers, on a pending case, and the store is what
  that call made it.
* `Reconcile.case_settled_at_most_once` — the same, with each way of settling written
  out and the ledger it leaves.
-/

namespace OnrampLedger

open Std.Do

set_option mvcgen.warning false

/-- The case `a` settled with resolution `r` and `notes` by `who` at `time`. -/
def MissingWebhookAlert.settledAs (a : MissingWebhookAlert) (r : Resolution) (notes who : String)
    (time : Instant) : MissingWebhookAlert :=
  { a with status := .manualReviewed, settlement := some ⟨r, notes, who, time⟩ }

@[simp] theorem MissingWebhookAlert.settledAs_id (a : MissingWebhookAlert) (r : Resolution)
    (notes who : String) (time : Instant) : (a.settledAs r notes who time).id = a.id := rfl

@[simp] theorem MissingWebhookAlert.settledAs_status (a : MissingWebhookAlert) (r : Resolution)
    (notes who : String) (time : Instant) :
    (a.settledAs r notes who time).status = .manualReviewed := rfl

/-- The store with the purchase `o` completed at `now`, unless it was completed already. -/
def Store.completing (s : Store) (o : OnRamp) (now : Instant) : Store :=
  if o.completed then s else s.putOnRamp { o with completedAt := some now }

section Stores

variable {s s' : Store} {o : OnRamp} {now : Instant}

@[simp] theorem Store.completing_ledger : (s.completing o now).ledger = s.ledger := by
  unfold Store.completing
  split <;> rfl

@[simp] theorem Store.entryByKey?_completing (k : String) :
    (s.completing o now).entryByKey? k = s.entryByKey? k := by
  simp [Store.entryByKey?]

theorem Store.missing_putMissing_congr {a : MissingWebhookAlert} (h : s.missing = s'.missing) :
    (s.putMissing a).missing = (s'.putMissing a).missing := by
  simp [Store.putMissing, h]

theorem Store.id_of_missing? {id : String} {a : MissingWebhookAlert} (h : s.missing? id = some a) :
    a.id = id := by
  simpa using List.find?_some h

/-- A case written back under the id of a case the store has is what the id then finds. -/
theorem Store.missing?_putMissing_self {id : String} {a b : MissingWebhookAlert}
    (ha : s.missing? id = some a) (hb : b.id = id) : (s.putMissing b).missing? id = some b := by
  unfold Store.missing? Store.putMissing at *
  simp only [hb]
  exact find?_replaceFirst_self (by simp [hb])
    ⟨a, List.mem_of_find?_eq_some ha, by simpa using List.find?_some ha⟩

end Stores

/-- An operation's answer may be dropped: the run ends in the same world, and meets what
the operation's own answer met there. -/
theorem Op.ends_discard {α : Type} {x : Op α} {w : World} {Q : α → World → Prop}
    {E : Error → World → Prop} (h : Op.Ends Q E (x.exec w)) :
    Op.Ends (fun _ w' => ∃ a, Q a w') E ((do let _ ← x : Op Unit).exec w) := by
  unfold Op.exec at *
  simp only [ExceptT.run_bind]
  rcases hx : (ExceptT.run x).run w with ⟨_ | a, w'⟩ <;> rw [hx] at h <;> simp [hx]
  · exact h
  · exact ⟨a, h⟩

/-! ## One call -/

namespace Wallets

/-- A credit inside a transaction, with the tables it leaves alone: what `Credited`
says of the wallets and the ledger, and every other table kept, also on a refusal. -/
theorem creditWithin_exact (W₀ : World) (r : CreditRequest) :
    ⦃fun W => ⌜W = W₀⌝⦄ creditWithin r
    ⦃post⟨fun res W => ⌜Credited r W₀.store res W.store ∧
        { W.store with wallets := [], ledger := [] } = { W₀.store with wallets := [], ledger := [] }⌝,
      fun _ W => ⌜{ W.store with wallets := [], ledger := [] } =
        { W₀.store with wallets := [], ledger := [] }⌝⟩⦄ := by
  apply Triple.entails_wp_of_pre_post (Triple.and _ (creditWithin_spec W₀ r)
    (creditWithin_tables { W₀.store with wallets := [], ledger := [] } r))
  · intro W
    simp +contextual
  · constructor
    · intro res W
      simp +contextual
    · simp [ExceptConds.entails]

end Wallets

namespace Reconcile

/-- The key of the credit a replay of case `a` makes for its purchase `o`: the key of a
provider report's credit to `o`'s wallet with the event id `manual_` and the case's id. -/
def replayKey (a : MissingWebhookAlert) (o : OnRamp) : String :=
  (IdempotencyKey.credit "webhook" ("manual_" ++ a.id) o.walletId).render

theorem creditKey_replayCredit (a : MissingWebhookAlert) (o : OnRamp) (admin : Actor) :
    Wallets.creditKey (replayCredit a o admin) = replayKey a o := rfl

/-- The entry a replay of case `a` posts for its purchase `o`: a deposit of `o`'s amount
on `o`'s wallet, as a provider's credit with the event id `manual_` and the case's id,
under the case's key. -/
structure ReplayEntry (a : MissingWebhookAlert) (o : OnRamp) (e : LedgerEntry) : Prop where
  wallet : e.wallet = o.walletId
  amount : e.amount = o.amount
  type : e.type = .deposit
  source : e.source = .webhook
  providerEventId : e.providerEventId = "manual_" ++ a.id
  key : e.key = replayKey a o

theorem replayEntry_of_creditEntry {a : MissingWebhookAlert} {o : OnRamp} {admin : Actor}
    {e : LedgerEntry} (h : Wallets.CreditEntry (replayCredit a o admin) e) : ReplayEntry a o e := by
  have hsource : Source.ofName? "webhook" = some .webhook := rfl
  have htype : EntryType.ofName? "deposit" = some .deposit := rfl
  exact ⟨h.wallet, h.amount, Option.some.inj (h.type.symm.trans htype),
    Option.some.inj (h.source.symm.trans hsource), h.providerEventId, h.key⟩

/-- What an answered replay of case `a` by `admin` at `now` committed, from store `s` to
`s'`, for the case's purchase `o`: `o` completed (at `now`, if it was not), the credit of
`o`'s amount to `o`'s wallet that the case's report would have made (`replayCredit`:
posted, or a repeat when its key is taken), and the case settled as a manual credit.
No other table but the alerts is written. -/
structure ReplayCommitted (a : MissingWebhookAlert) (o : OnRamp) (admin : Actor) (now : Instant)
    (s s' : Store) : Prop where
  purchase : s.onRamp? a.onRampId = some o
  credited : ∃ res s₁, Wallets.Credited (replayCredit a o admin) (s.completing o now) res s₁ ∧
    s'.wallets = s₁.wallets ∧ s'.ledger = s₁.ledger
  completed : s'.onRamps = (s.completing o now).onRamps
  settled : ∃ notes, s'.missing = (s.putMissing (a.settledAs .manualCredit notes admin.id now)).missing
  webhooks : s'.webhooks = s.webhooks
  deadLetters : s'.deadLetters = s.deadLetters

/-- **A replay credits once**: with no entry under the case's key, the replay's credit is
no repeat, and the ledger gains exactly the replay's entry. -/
theorem ReplayCommitted.ledger_of_fresh {a : MissingWebhookAlert} {o : OnRamp} {admin : Actor}
    {now : Instant} {s s' : Store} (h : ReplayCommitted a o admin now s s')
    (hfresh : s.entryByKey? (replayKey a o) = none) :
    ∃ e, s'.ledger = s.ledger ++ [e] ∧ ReplayEntry a o e := by
  obtain ⟨res, s₁, hcredit, -, hl⟩ := h.credited
  rcases hcredit with ⟨-, -, e, he, -⟩ | ⟨w, m, -, -, hp, hentry, -⟩
  · -- a repeat finds the key on an entry
    rw [Store.entryByKey?_completing, creditKey_replayCredit, hfresh] at he
    cases he
  · exact ⟨m.2, by rw [hl, hp.ledger, Store.completing_ledger], replayEntry_of_creditEntry hentry⟩

/-- **A replay**, answered, settled a pending case as `ReplayCommitted` says; refused, it
left the store as it was. -/
theorem replay_settles (W₀ : World) (id : String) (admin : Actor) :
    ⦃fun W => ⌜W = W₀⌝⦄ replay id admin
    ⦃post⟨fun _ W => ⌜∃ a o, W₀.store.missing? id = some a ∧ a.status = .pending ∧
        ReplayCommitted a o admin W₀.now W₀.store W.store⌝,
      fun _ W => ⌜W.store = W₀.store⌝⟩⦄ := by
  mvcgen [replay, case, -Wallets.creditWithin_spec, Wallets.creditWithin_exact,
    -Wallets.committed_frame, Wallets.committed_tables]
  all_goals simp_all +zetaDelta
  -- the purchase completed or found completed, the credit made on it, the case written
  -- back; announcing the credit then writes only alerts
  all_goals
    rename_i res s₁ _ _ _ _ _ hramp hdone hcredit hcommit
    obtain ⟨hcredit, hh, hramps, hmissing, hd, -⟩ := hcredit
    obtain ⟨hw, hl, hh', hramps', hmissing', hd'⟩ := hcommit
    refine ⟨_, hramp, ⟨res, s₁.store, ?_, hw, hl⟩, ?_,
      ⟨_, hmissing'.trans (Store.missing_putMissing_congr hmissing)⟩, ?_, ?_⟩
    · simp only [Store.completing, hdone]
      exact hcredit
    all_goals simp_all [Store.completing, Store.putMissing, Store.putOnRamp]

/-- **A resolution**, answered, settled a pending case as reported late or cancelled and
wrote nothing else; refused, it left the world as it was. -/
theorem resolve_settles (W₀ : World) (id resolution notes : String) (admin : Actor) :
    ⦃fun W => ⌜W = W₀⌝⦄ resolve id resolution notes admin
    ⦃post⟨fun a' W => ⌜∃ a r, W₀.store.missing? id = some a ∧ a.status = .pending ∧
        (r = .webhookReceived ∨ r = .cancelled) ∧ a' = a.settledAs r notes admin.id W₀.now ∧
        W = { W₀ with store := W₀.store.putMissing a' }⌝,
      fun _ W => ⌜W = W₀⌝⟩⦄ := by
  mvcgen [resolve, case, -resolve_frame]
  all_goals simp_all +zetaDelta [MissingWebhookAlert.settledAs]

/-- How one answered call settles the pending case `a`, from store `s` to `s'`: a
resolution other than a manual credit, written on the case alone, or a replay of its
purchase's credit (`ReplayCommitted`). -/
def Settles (a : MissingWebhookAlert) (s s' : Store) : Prop :=
  (∃ r notes who now, (r = .webhookReceived ∨ r = .cancelled) ∧
      s' = s.putMissing (a.settledAs r notes who now)) ∨
    ∃ o admin now, ReplayCommitted a o admin now s s'

/-- A settled case is what its id then finds, and it is no longer pending. -/
theorem Settles.missing? {a : MissingWebhookAlert} {s s' : Store} {id : String}
    (h : Settles a s s') (ha : s.missing? id = some a) :
    ∃ a', s'.missing? id = some a' ∧ a'.status = .manualReviewed := by
  have hid := Store.id_of_missing? ha
  rcases h with ⟨r, notes, who, now, -, rfl⟩ | ⟨o, admin, now, hc⟩
  · exact ⟨_, Store.missing?_putMissing_self ha (by simp [hid]), rfl⟩
  · obtain ⟨notes, hmissing⟩ := hc.settled
    refine ⟨_, ?_, MissingWebhookAlert.settledAs_status a .manualCredit notes admin.id now⟩
    rw [Store.missing?, hmissing, ← Store.missing?]
    exact Store.missing?_putMissing_self ha (by simp [hid])

end Reconcile

/-! ## Calls along a run -/

namespace Command

/-- Whether the command is an operator's call on the missing-webhook case `id`: a replay
or a resolution of it. -/
def onCase (id : String) : Command → Bool
  | .replayMissing i _ => i == id
  | .resolveMissing i _ _ _ => i == id
  | _ => false

/-- Whether each command answered, run one after another from `w`. -/
def answers : List Command → World → List Bool
  | [], _ => []
  | c :: cs, w => (c.op.exec w).1.isOk :: answers cs (c.run w)

/-- One call on a case: answered, it found the case pending and settled it; refused, it
left the store as it was. -/
theorem onCase_step {id : String} {c : Command} (hc : c.onCase id = true) (W : World) :
    Op.Ends (fun _ W' => ∃ a, W.store.missing? id = some a ∧ a.status = .pending ∧
        Reconcile.Settles a W.store W'.store)
      (fun _ W' => W'.store = W.store) (c.op.exec W) := by
  cases c with
  | replayMissing i admin =>
      obtain rfl : i = id := by simpa [onCase] using hc
      refine (Op.ends_discard (Op.ends_of_triple (Reconcile.replay_settles W i admin) rfl)).mono
        ?_ fun _ _ h => h
      rintro _ W' ⟨_, a, o, ha, hpending, hreplayed⟩
      exact ⟨a, ha, hpending, .inr ⟨o, admin, W.now, hreplayed⟩⟩
  | resolveMissing i resolution notes admin =>
      obtain rfl : i = id := by simpa [onCase] using hc
      refine (Op.ends_discard (Op.ends_of_triple
        (Reconcile.resolve_settles W i resolution notes admin) rfl)).mono ?_ fun _ _ h => by rw [h]
      rintro _ W' ⟨_, a, r, ha, hpending, hr, rfl, rfl⟩
      exact ⟨a, ha, hpending, .inl ⟨r, notes, admin.id, W.now, hr, rfl⟩⟩
  | _ => simp [onCase] at hc

/-- Calls on a case that is no longer pending are all refused and change nothing. -/
theorem refused_of_settled {id : String} {a : MissingWebhookAlert} (cs : List Command)
    (hcs : ∀ c ∈ cs, c.onCase id = true) (W : World) (ha : W.store.missing? id = some a)
    (hsettled : a.status ≠ .pending) :
    (answers cs W).count true = 0 ∧ (runAll cs W).store = W.store := by
  induction cs generalizing W with
  | nil => simp [answers]
  | cons c cs ih =>
      have hstep := onCase_step (hcs c List.mem_cons_self) W
      rcases hx : c.op.exec W with ⟨_ | _, W₁⟩ <;> rw [hx] at hstep
      · -- refused: the case is as it was for the calls after it
        simp only [Op.ends_error] at hstep
        obtain ⟨hnone, hsame⟩ :=
          ih (fun d hd => hcs d (List.mem_cons_of_mem c hd)) W₁ (by rwa [hstep])
        simp [answers, run, hx, hnone, hsame, hstep, Except.isOk, Except.toBool]
      · -- answered: only a pending case is settled
        obtain ⟨a', ha', hpending, -⟩ := hstep
        rw [ha, Option.some.injEq] at ha'
        exact absurd (ha' ▸ hpending) hsettled

/-- **Calls on one case settle it at most once.** Along any calls on the case `id`,
either none answers and the store is as it was, or exactly one answers, on a pending
case, and the store is what that call made it. -/
theorem caseCalls_settle {id : String} {A : MissingWebhookAlert} (cs : List Command)
    (hcs : ∀ c ∈ cs, c.onCase id = true) (W : World) (hA : W.store.missing? id = some A) :
    ((answers cs W).count true = 0 ∧ (runAll cs W).store = W.store) ∨
      ((answers cs W).count true = 1 ∧ A.status = .pending ∧
        Reconcile.Settles A W.store (runAll cs W).store) := by
  induction cs generalizing W with
  | nil => simp [answers]
  | cons c cs ih =>
      have hrest : ∀ d ∈ cs, d.onCase id = true := fun d hd => hcs d (List.mem_cons_of_mem c hd)
      have hstep := onCase_step (hcs c List.mem_cons_self) W
      rcases hx : c.op.exec W with ⟨_ | _, W₁⟩ <;> rw [hx] at hstep
      · -- refused: the case is as it was, and the later calls decide
        simp only [Op.ends_error] at hstep
        have hrun := ih hrest W₁ (by rwa [hstep])
        simpa [answers, run, hx, hstep, Except.isOk, Except.toBool] using hrun
      · -- answered: the case is settled, and every later call is refused
        obtain ⟨a, ha, hpending, hsettles⟩ := hstep
        rw [hA, Option.some.injEq] at ha
        subst ha
        obtain ⟨a', ha', hreviewed⟩ := hsettles.missing? hA
        obtain ⟨hnone, hsame⟩ := refused_of_settled cs hrest W₁ ha' (by simp [hreviewed])
        refine .inr ⟨by simp [answers, run, hx, hnone, Except.isOk, Except.toBool], hpending, ?_⟩
        simpa [run, hx, hsame] using hsettles

end Command

namespace Reconcile

/-- **A missing-webhook case is settled at most once.** Along any calls on the case `id`
(replays and resolutions, by any actors, in any order, repeated), either none answers and
the store is as it was; or exactly one answers, on a pending case, and it is a resolution
as reported late or cancelled that wrote the case alone; or it is a replay that committed
the purchase completed, the credit and the case settled as a manual credit, and that,
with no entry under the case's key before, added exactly the replay's deposit to the
ledger. -/
theorem case_settled_at_most_once (W₀ : World) (id : String) (A : MissingWebhookAlert)
    (hA : W₀.store.missing? id = some A) (cs : List Command)
    (hcs : ∀ c ∈ cs, c.onCase id = true) :
    let answered := (Command.answers cs W₀).count true
    let s := (Command.runAll cs W₀).store
    (answered = 0 ∧ s = W₀.store) ∨
      (answered = 1 ∧ A.status = .pending ∧
        ∃ r notes who now, (r = .webhookReceived ∨ r = .cancelled) ∧
          s = W₀.store.putMissing (A.settledAs r notes who now)) ∨
      (answered = 1 ∧ A.status = .pending ∧
        ∃ o admin now, ReplayCommitted A o admin now W₀.store s ∧
          (W₀.store.entryByKey? (replayKey A o) = none →
            ∃ e, s.ledger = W₀.store.ledger ++ [e] ∧ ReplayEntry A o e)) := by
  intro answered s
  rcases Command.caseCalls_settle cs hcs W₀ hA with
    hkept | ⟨hone, hpending, hresolved | ⟨o, admin, now, hreplayed⟩⟩
  · exact .inl hkept
  · exact .inr (.inl ⟨hone, hpending, hresolved⟩)
  · exact .inr (.inr ⟨hone, hpending, o, admin, now, hreplayed, hreplayed.ledger_of_fresh⟩)

/-- The operator in the cases below. -/
def rootAdmin : Actor := ⟨"root", "admin"⟩

/-- A wallet with nothing on it, a completed purchase of 10 on it, and the purchase's
pending case `c`. -/
def pendingCaseWorld : World :=
  let t := Setup.defaultStart
  { Setup.world {} with
    store := { Store.empty with
      wallets := [⟨"w", "u", "USD", 0, false, "", none, none, t, t⟩]
      onRamps := [⟨"o", "w", "moonpay", 10, "USD", some t, t⟩]
      missing := [⟨"c", "o", "w", "moonpay", 10, .pending, none, t⟩] } }

theorem case_settled_at_most_once_repeatedCalls :
    let W := pendingCaseWorld
    let A : MissingWebhookAlert := ⟨"c", "o", "w", "moonpay", 10, .pending, none, Setup.defaultStart⟩
    let o : OnRamp := ⟨"o", "w", "moonpay", 10, "USD", some Setup.defaultStart, Setup.defaultStart⟩
    let cs : List Command := [.resolveMissing "c" "manual_credit" "" rootAdmin,
      .replayMissing "c" rootAdmin, .replayMissing "c" rootAdmin,
      .resolveMissing "c" "cancelled" "" rootAdmin]
    W.store.missing? "c" = some A ∧ (∀ c ∈ cs, c.onCase "c" = true) ∧
      (Command.answers cs W).count true = 1 ∧
      ∃ e, (Command.runAll cs W).store.ledger = W.store.ledger ++ [e] ∧ ReplayEntry A o e := by
  intro W A o cs
  have hA : W.store.missing? "c" = some A := rfl
  have hcs : ∀ c ∈ cs, c.onCase "c" = true := by decide
  have hone : (Command.answers cs W).count true = 1 := by decide +kernel
  have hposted : (Command.runAll cs W).store.ledger.length = 1 := by decide +kernel
  rcases case_settled_at_most_once W "c" A hA cs hcs with
    ⟨hnone, -⟩ | ⟨-, -, r, notes, who, now, -, hs⟩ | ⟨-, -, o', admin, now, hreplayed, hfresh⟩
  · omega
  · -- a resolution writes no entry, yet the run posted one
    rw [hs] at hposted
    simp [Store.putMissing, W, pendingCaseWorld, Store.empty] at hposted
  · obtain rfl : o' = o := Option.some.inj (hreplayed.purchase.symm.trans rfl)
    exact ⟨hA, hcs, hone, hfresh rfl⟩

/-- **A replay over a taken key posts nothing.** A purchase of 10 is completed and found
missing its report, and a provider report with the event id `manual_` and the case's id
then credits 7 to the same wallet. The operator's replay of the case answers, and settles
the case as a manual credit, but finds its key on the report's entry: the wallet keeps
the one entry of 7. -/
theorem replay_over_taken_key_posts_nothing :
    let cs : List Command := [.createWallet "u" "USD",
      .createOnRamp ⟨"u", "user"⟩ "moonpay" 10 "USD", .completeOnRamp (idText 2) rootAdmin,
      .reconcile 60,
      .process ⟨"transak", "manual_" ++ idText 3, "u", 7, "USD", completedStatus, "h"⟩ true,
      .replayMissing (idText 3) rootAdmin]
    let W := Command.runAll cs (Setup.world {})
    (Command.answers cs (Setup.world {})).getLast? = some true ∧
      (((W.store.missing? (idText 3)).bind (·.settlement)).map (·.resolution) =
        some .manualCredit) ∧
      (W.store.ledger.map (·.amount)) = [7] := by
  intro cs W
  exact ⟨by decide +kernel, by decide +kernel, by decide +kernel⟩

end Reconcile

end OnrampLedger
