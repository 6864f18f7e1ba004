import OnrampLedger.Proofs.PaymentCredits

/-!
# What the operations write to the purchases

A purchase (an on-ramp) is added once, by `Reconcile.createOnRamp`, under the id drawn
next, and after that only its completion time is ever written: by an operator marking it
completed, by a replay of its missing-webhook case, and by the processing of a payment
that finds it pending. No other operation touches the purchases. The frames here say so
for every operation, answered or refused.

What is kept of a purchase once made, all but its completion time, is `OnRamp.terms`.
Since every completion writes back the purchase it found, under its id, and ids are
drawn once, a purchase's terms stand in every later world (`OnRamp.Moves.stands`).

Processing a payment gets a triple of its own: when it completes a purchase, the
purchase is of the user's wallet and of the payment's provider, and the payment's row,
written in the same transaction, names that wallet (`Intake.Completion`).
-/

namespace OnrampLedger

open Std.Do

set_option mvcgen.warning false

/-- What a purchase keeps once made: all but its completion time. -/
def OnRamp.terms (o : OnRamp) : String × String × String × Decimal × String × Instant :=
  (o.id, o.walletId, o.provider, o.amount, o.currency, o.createdAt)

/-- What one command may do to the purchases `O`, with `i` ids drawn before it and `i'`
after: keep them, write one that was pending back under its id completed at some time,
or add a pending one under an id drawn during the command. -/
inductive OnRamp.Moves (i i' : Nat) (O : List OnRamp) : List OnRamp → Prop
  | keep : OnRamp.Moves i i' O O
  | complete {o : OnRamp} (t : Instant) (ho : o ∈ O) (hpending : o.completedAt = none) :
      OnRamp.Moves i i' O (replaceFirst (·.id == o.id) { o with completedAt := some t } O)
  | add {o : OnRamp} {k : Nat} (hik : i < k) (hki : k ≤ i') (hid : o.id = idText k)
      (hpending : o.completedAt = none) : OnRamp.Moves i i' O (O ++ [o])

/-- A pending purchase found under an id, written back completed. -/
theorem OnRamp.Moves.complete_found {i i' : Nat} {O : List OnRamp} {id : String} {o : OnRamp}
    (t : Instant) (hfound : O.find? (·.id == id) = some o) (hpending : o.completed = false) :
    OnRamp.Moves i i' O (replaceFirst (·.id == o.id) { o with completedAt := some t } O) :=
  .complete t (List.mem_of_find?_eq_some hfound) (by simpa [OnRamp.completed] using hpending)

variable (O : List OnRamp)

/-! ## Alerting

Alerting writes no table but the alerts. Its frames say so of the store less its alerts,
so that they serve the purchases here and the missing-webhook cases of reconciliation. -/

variable (S : Store)

namespace Alerting

theorem balanceMismatch_tables (m : Mismatch) :
    ⦃fun W => ⌜{ W.store with alerts := [] } = S⌝⦄ balanceMismatch m
    ⦃post⟨fun _ W => ⌜{ W.store with alerts := [] } = S⌝, fun _ _ => ⌜False⌝⟩⦄ := by
  mvcgen [balanceMismatch, thresholds, -balanceMismatch_frame]
  all_goals simp_all

theorem creditSpike_tables (wallet : String) (amount : Decimal) :
    ⦃fun W => ⌜{ W.store with alerts := [] } = S⌝⦄ creditSpike wallet amount
    ⦃post⟨fun _ W => ⌜{ W.store with alerts := [] } = S⌝, fun _ _ => ⌜False⌝⟩⦄ := by
  mvcgen [creditSpike, thresholds, memory, modifyMemory, -creditSpike_frame]
  all_goals simp_all +zetaDelta

theorem crash_tables (job : String) (cause : Option String) :
    ⦃fun W => ⌜{ W.store with alerts := [] } = S⌝⦄ crash job cause
    ⦃post⟨fun _ W => ⌜{ W.store with alerts := [] } = S⌝, fun _ _ => ⌜False⌝⟩⦄ := by
  mvcgen [crash, thresholds, -crash_frame]
  all_goals simp_all +zetaDelta

theorem missingWebhook_tables (a : MissingWebhookAlert) :
    ⦃fun W => ⌜{ W.store with alerts := [] } = S⌝⦄ missingWebhook a
    ⦃post⟨fun _ W => ⌜{ W.store with alerts := [] } = S⌝, fun _ _ => ⌜False⌝⟩⦄ := by
  mvcgen [missingWebhook, -missingWebhook_frame]
  simp_all

theorem acknowledge_tables (id : String) (admin : Actor) :
    ⦃fun W => ⌜{ W.store with alerts := [] } = S⌝⦄ acknowledge id admin
    ⦃post⟨fun _ W => ⌜{ W.store with alerts := [] } = S⌝,
      fun _ W => ⌜{ W.store with alerts := [] } = S⌝⟩⦄ := by
  mvcgen [acknowledge, get, -acknowledge_frame]

theorem resolve_tables (id : String) (admin : Actor) :
    ⦃fun W => ⌜{ W.store with alerts := [] } = S⌝⦄ resolve id admin
    ⦃post⟨fun _ W => ⌜{ W.store with alerts := [] } = S⌝,
      fun _ W => ⌜{ W.store with alerts := [] } = S⌝⟩⦄ := by
  mvcgen [resolve, get, -resolve_frame]

end Alerting

/-! ## The wallet engine -/

namespace Wallets

/-- Announcing committed changes writes no table but the alerts. -/
theorem committed_tables (muts : List Mutation) :
    ⦃fun W => ⌜{ W.store with alerts := [] } = S⌝⦄ committed muts
    ⦃post⟨fun _ W => ⌜{ W.store with alerts := [] } = S⌝, fun _ _ => ⌜False⌝⟩⦄ := by
  induction muts with
  | nil => mvcgen [committed, -committed_frame]
  | cons m ms ih =>
      simp only [committed, List.forM_eq_forM, List.forM_cons] at ih ⊢
      mvcgen [ih, -Alerting.creditSpike_frame, Alerting.creditSpike_tables]
      all_goals simp_all +zetaDelta

/-- A posting writes no table but the wallets and the ledger. -/
theorem apply_tables (w : Wallet) (type : EntryType) (amount : Decimal)
    (key reference description : String) (source : Source) (providerEventId : String)
    (taken : Error) :
    ⦃fun W => ⌜{ W.store with wallets := [], ledger := [] } = S⌝⦄
    apply w type amount key reference description source providerEventId taken
    ⦃post⟨fun _ W => ⌜{ W.store with wallets := [], ledger := [] } = S⌝,
      fun _ W => ⌜{ W.store with wallets := [], ledger := [] } = S⌝⟩⦄ := by
  mvcgen [apply, -apply_spec]

theorem creditWithin_tables (r : CreditRequest) :
    ⦃fun W => ⌜{ W.store with wallets := [], ledger := [] } = S⌝⦄ creditWithin r
    ⦃post⟨fun _ W => ⌜{ W.store with wallets := [], ledger := [] } = S⌝,
      fun _ W => ⌜{ W.store with wallets := [], ledger := [] } = S⌝⟩⦄ := by
  mvcgen [creditWithin, authorizeCredit, -creditWithin_spec, apply_tables, -apply_spec]
  all_goals simp_all +zetaDelta

/-- The wallet engine's operations write no table but the wallets, the ledger and the
alerts. -/
theorem credit_tables (r : CreditRequest) :
    ⦃fun W => ⌜{ W.store with wallets := [], ledger := [], alerts := [] } = S⌝⦄ credit r
    ⦃post⟨fun _ W => ⌜{ W.store with wallets := [], ledger := [], alerts := [] } = S⌝,
      fun _ W => ⌜{ W.store with wallets := [], ledger := [], alerts := [] } = S⌝⟩⦄ := by
  mvcgen [credit, duplicateView, -creditWithin_spec, creditWithin_tables, -committed_frame,
    committed_tables]
  all_goals simp_all +zetaDelta

theorem debit_tables (r : DebitRequest) :
    ⦃fun W => ⌜{ W.store with wallets := [], ledger := [], alerts := [] } = S⌝⦄ debit r
    ⦃post⟨fun _ W => ⌜{ W.store with wallets := [], ledger := [], alerts := [] } = S⌝,
      fun _ W => ⌜{ W.store with wallets := [], ledger := [], alerts := [] } = S⌝⟩⦄ := by
  mvcgen [debit, replayedFor, duplicateView, -apply_spec, apply_tables, -committed_frame,
    committed_tables]
  all_goals simp_all +zetaDelta

theorem transfer_tables (r : TransferRequest) :
    ⦃fun W => ⌜{ W.store with wallets := [], ledger := [], alerts := [] } = S⌝⦄ transfer r
    ⦃post⟨fun _ W => ⌜{ W.store with wallets := [], ledger := [], alerts := [] } = S⌝,
      fun _ W => ⌜{ W.store with wallets := [], ledger := [], alerts := [] } = S⌝⟩⦄ := by
  mvcgen [transfer, replayedFor, duplicateView, -apply_spec, apply_tables, -committed_frame,
    committed_tables]
  all_goals simp_all +zetaDelta

theorem manualCredit_tables (wallet : String) (amount : Decimal) (reason : String)
    (admin : Actor) :
    ⦃fun W => ⌜{ W.store with wallets := [], ledger := [], alerts := [] } = S⌝⦄
    manualCredit wallet amount reason admin
    ⦃post⟨fun _ W => ⌜{ W.store with wallets := [], ledger := [], alerts := [] } = S⌝,
      fun _ W => ⌜{ W.store with wallets := [], ledger := [], alerts := [] } = S⌝⟩⦄ := by
  mvcgen -trivial [manualCredit, credit_tables]
  all_goals simp_all

/-- Opening a wallet writes no table but the wallets. -/
theorem create_tables (user currency : String) :
    ⦃fun W => ⌜{ W.store with wallets := [] } = S⌝⦄ create user currency
    ⦃post⟨fun _ W => ⌜{ W.store with wallets := [] } = S⌝,
      fun _ W => ⌜{ W.store with wallets := [] } = S⌝⟩⦄ := by
  mvcgen [create]

end Wallets

/-! ## The integrity monitor -/

namespace Integrity

/-- The monitor writes no table but the wallets, and through its alerts the alerts. -/
theorem flagPage_tables (suspects : List Wallet) :
    ⦃fun W => ⌜{ W.store with wallets := [] } = S⌝⦄ flagPage suspects
    ⦃post⟨fun _ W => ⌜{ W.store with wallets := [] } = S⌝, fun _ _ => ⌜False⌝⟩⦄ := by
  mvcgen [flagPage, -flagPage_frame]
  case inv1 => exact post⟨fun _ W => ⌜{ W.store with wallets := [] } = S⌝, fun _ _ => ⌜False⌝⟩
  all_goals simp_all +zetaDelta [Store.putWallet]

theorem pages_tables (batch fuel : Nat) (after : String) (r : IntegrityReport) :
    ⦃fun W => ⌜{ W.store with wallets := [] } = S⌝⦄ pages batch fuel after r
    ⦃post⟨fun _ W => ⌜{ W.store with wallets := [] } = S⌝, fun _ _ => ⌜False⌝⟩⦄ := by
  induction fuel generalizing after r with
  | zero => mvcgen [pages, -pages_frame]
  | succ fuel ih =>
      mvcgen [pages, ih, -pages_frame, -flagPage_frame, flagPage_tables]
      all_goals simp_all +zetaDelta

theorem forM_balanceMismatch_tables (ms : List Mismatch) :
    ⦃fun W => ⌜{ W.store with alerts := [] } = S⌝⦄ ms.forM Alerting.balanceMismatch
    ⦃post⟨fun _ W => ⌜{ W.store with alerts := [] } = S⌝, fun _ _ => ⌜False⌝⟩⦄ := by
  induction ms with
  | nil => mvcgen
  | cons m ms ih =>
      simp only [List.forM_eq_forM, List.forM_cons] at ih ⊢
      mvcgen [ih, -Alerting.balanceMismatch_frame, Alerting.balanceMismatch_tables]
      simp_all

theorem run_tables :
    ⦃fun W => ⌜{ W.store with wallets := [], alerts := [] } = S⌝⦄ run
    ⦃post⟨fun _ W => ⌜{ W.store with wallets := [], alerts := [] } = S⌝, fun _ _ => ⌜False⌝⟩⦄ := by
  mvcgen [run, -run_frame, -pages_frame, pages_tables, forM_balanceMismatch_tables]
  all_goals simp_all +zetaDelta

theorem clearFlag_tables (id : String) (admin : Actor) :
    ⦃fun W => ⌜{ W.store with wallets := [] } = S⌝⦄ clearFlag id admin
    ⦃post⟨fun _ W => ⌜{ W.store with wallets := [] } = S⌝,
      fun _ W => ⌜{ W.store with wallets := [] } = S⌝⟩⦄ := by
  mvcgen [clearFlag, -clearFlag_frame]

end Integrity

/-! ## Reconciliation -/

namespace Reconcile

/-- Reconciliation writes no table but the missing-webhook cases and the alerts. -/
theorem check_tables (o : OnRamp) :
    ⦃fun W => ⌜{ W.store with missing := [], alerts := [] } = S⌝⦄ check o
    ⦃post⟨fun _ W => ⌜{ W.store with missing := [], alerts := [] } = S⌝, fun _ _ => ⌜False⌝⟩⦄ := by
  mvcgen [check, openCase, -check_frame, -Alerting.missingWebhook_frame,
    Alerting.missingWebhook_tables]
  all_goals simp_all +zetaDelta

theorem run_tables (lookback : Int) :
    ⦃fun W => ⌜{ W.store with missing := [], alerts := [] } = S⌝⦄ run lookback
    ⦃post⟨fun _ W => ⌜{ W.store with missing := [], alerts := [] } = S⌝, fun _ _ => ⌜False⌝⟩⦄ := by
  mvcgen [run, -run_frame, -check_frame, check_tables]
  case inv1 => exact post⟨fun _ W => ⌜{ W.store with missing := [], alerts := [] } = S⌝,
    fun _ _ => ⌜False⌝⟩
  all_goals simp_all +zetaDelta

theorem resolve_tables (id resolution notes : String) (admin : Actor) :
    ⦃fun W => ⌜{ W.store with missing := [] } = S⌝⦄ resolve id resolution notes admin
    ⦃post⟨fun _ W => ⌜{ W.store with missing := [] } = S⌝,
      fun _ W => ⌜{ W.store with missing := [] } = S⌝⟩⦄ := by
  mvcgen [resolve, case, -resolve_frame]

/-! ## Starting and completing purchases -/

end Reconcile

/-- The row of payment `X` is among the rows after it is written, over its earlier row
under that row's id or as a new row. -/
theorem Store.row_mem_webhooksWith {s : Store} {X : String} {row : WebhookEvent}
    (hid : ((s.webhookByExternal? X).map (·.id)).all (· == row.id)) :
    row ∈ s.webhooksWith (s.webhookByExternal? X) row := by
  cases hp : s.webhookByExternal? X with
  | none => simp [Store.webhooksWith]
  | some p =>
    have hpid : p.id = row.id := by simpa [hp] using hid
    exact List.mem_of_find?_eq_some
      (find?_replaceFirst_self (by simp) ⟨p, List.mem_of_find?_eq_some hp, by simp [hpid]⟩)

/-- Recording a failure leaves the purchases as they were. -/
theorem Store.FailureRecorded.onRamps {ev : PaymentEvent}
    {prior : Option WebhookEvent} {fresh message : String} {s s' : Store}
    (h : s.FailureRecorded ev prior fresh message s') : s'.onRamps = s.onRamps := by
  obtain ⟨row, -, -, -, -, -, hs' | ⟨a, -, hs'⟩⟩ := h <;> simp [hs']

namespace Intake

/-- Completing a purchase for a payment writes back completed a pending purchase of the
payment's wallet, provider and amount, if there is one, and writes nothing else. -/
theorem completePurchase_spec (S₁ : Store) (wallet provider : String) (amount : Decimal)
    (now : Instant) :
    ⦃fun W => ⌜W.store = S₁⌝⦄ completePurchase wallet provider amount now
    ⦃post⟨fun _ W => ⌜W.store.webhooks = S₁.webhooks ∧ (W.store.onRamps = S₁.onRamps ∨
        ∃ o ∈ S₁.onRamps, o.walletId = wallet ∧ o.provider = provider ∧ o.amount = amount ∧
          o.completedAt = none ∧
          W.store.onRamps = replaceFirst (·.id == o.id) { o with completedAt := some now } S₁.onRamps)⌝,
      fun _ _ => ⌜False⌝⟩⦄ := by
  mvcgen [completePurchase, -completePurchase_frame]
  all_goals simp_all +zetaDelta [Store.putOnRamp]
  -- the purchase found: pending, of the payment's wallet, provider and amount
  rename_i o _ hfound
  obtain ⟨hw, hp, hpending, ha⟩ : o.walletId = wallet ∧ o.provider = provider ∧
      o.completedAt = none ∧ o.amount = amount := by
    simpa [OnRamp.completed, and_assoc] using List.find?_some hfound
  exact .inr ⟨o, List.mem_of_find?_eq_some hfound, hw, hp, ha, hpending, rfl⟩

/-- What settling a payment did to the purchases, from the store `S₀`: kept them, or
wrote back completed a pending purchase of the payer's wallet through the payment's
provider, for its amount, while the payment's row, marked processed and naming that
wallet, was written over its earlier row `prior` or added. -/
def SettledPurchase (ev : PaymentEvent) (prior : Option WebhookEvent) (wallet? : Option Wallet)
    (S₀ : Store) (s : Store) : Prop :=
  s.onRamps = S₀.onRamps ∨
    ∃ w, wallet? = some w ∧ ∃ o ∈ S₀.onRamps, o.walletId = w.id ∧ o.provider = ev.provider ∧
      o.amount = ev.amount ∧ o.completedAt = none ∧
      (∃ t, s.onRamps = replaceFirst (·.id == o.id) { o with completedAt := some t } S₀.onRamps) ∧
      ∃ row, s.webhooks = S₀.webhooksWith prior row ∧ row.walletId = w.id ∧
        row.status = .processed ∧ row.externalId = (prior.map (·.externalId)).getD ev.externalId ∧
        (prior.map (·.id)).all (· == row.id)

theorem settle_purchase (S₀ : Store) (ev : PaymentEvent) (prior : Option WebhookEvent)
    (wallet? : Option Wallet) :
    ⦃fun W => ⌜W.store = S₀⌝⦄ settle ev prior wallet?
    ⦃post⟨fun _ W => ⌜SettledPurchase ev prior wallet? S₀ W.store⌝,
      fun _ W => ⌜W.store = S₀⌝⟩⦄ := by
  mvcgen [settle, -settle_spec, -Wallets.creditWithin_spec, Wallets.creditWithin_tables,
    -completePurchase_frame, completePurchase_spec]
  all_goals simp_all +zetaDelta [SettledPurchase, Store.putWebhook]
  -- the row written, new or over the earlier one; then the purchase completed, if any
  all_goals
    rename_i row _ _ _ _ _ _ hwritten
    rcases hwritten.2 with hkept | ⟨o, ho, hw, hp, ha, hpending, hO⟩
    · exact .inl hkept
    · exact .inr ⟨o, ho, hw, hp, ha, hpending, ⟨_, hO⟩, row, by simp +zetaDelta [Store.webhooksWith]⟩

/-- What processing the payment `ev` did to the purchases `O`, leaving the purchases `O'`
and the payment rows `rows`: kept the purchases, or wrote back completed a pending
purchase through the payment's provider, for its amount, one whose wallet the payment's
row, marked processed, names. -/
def Completion (ev : PaymentEvent) (O O' : List OnRamp) (rows : List WebhookEvent) : Prop :=
  O' = O ∨ ∃ o ∈ O, o.provider = ev.provider ∧ o.amount = ev.amount ∧ o.completedAt = none ∧
    (∃ t, O' = replaceFirst (·.id == o.id) { o with completedAt := some t } O) ∧
    ∃ r ∈ rows, r.externalId = ev.externalId ∧ r.walletId = o.walletId ∧ r.status = .processed

@[simp] theorem Completion.refl (ev : PaymentEvent) (O : List OnRamp) (rows : List WebhookEvent) :
    Completion ev O O rows :=
  .inl rfl

/-- A settlement over the payment's own earlier row, if any, completes a purchase only
with that row. -/
theorem SettledPurchase.completion {ev : PaymentEvent} {prior : Option WebhookEvent}
    {wallet? : Option Wallet} {S₀ s : Store} (h : SettledPurchase ev prior wallet? S₀ s)
    (hprior : S₀.webhookByExternal? ev.externalId = prior) :
    Completion ev S₀.onRamps s.onRamps s.webhooks := by
  subst hprior
  rcases h with hkept | ⟨w, -, o, ho, hw, hp, ha, hpending, hO, row, hrows, hrw, hrs, hre, hid⟩
  · exact .inl hkept
  · refine .inr ⟨o, ho, hp, ha, hpending, hO, row, ?_, ?_, hrw.trans hw.symm, hrs⟩
    · rw [hrows]
      exact Store.row_mem_webhooksWith hid
    · rw [hre, Store.externalId_getD]

/-- **Processing a payment completes a purchase only with its row**: it keeps the
purchases, or completes a pending one through the payment's provider, of the wallet its
processed row names. A refusal keeps the purchases. -/
theorem process_completion (S₀ : Store) (ev : PaymentEvent) (verified : Bool) :
    ⦃fun W => ⌜W.store = S₀⌝⦄ process ev verified
    ⦃post⟨fun _ W => ⌜Completion ev S₀.onRamps W.store.onRamps W.store.webhooks⌝,
      fun _ W => ⌜W.store.onRamps = S₀.onRamps⌝⟩⦄ := by
  mvcgen [process, -settle_spec, settle_purchase, -Wallets.committed_frame,
    Wallets.committed_tables]
  all_goals simp_all +zetaDelta
  -- settled: a purchase completed, if any, with the payment's row
  case vc4 | vc6 => exact (‹SettledPurchase _ _ _ _ _›).completion ‹_›
  -- refused: the failure recorded on the store the settlement rolled back to
  case vc5 | vc7 =>
    rename_i hrecorded
    exact hrecorded.1.onRamps

end Intake

namespace Reconcile

theorem createOnRamp_moves (i : Nat) (actor : Actor) (provider : String) (amount : Decimal)
    (currency : String) :
    ⦃fun W => ⌜W.store.onRamps = O ∧ W.issued = i⌝⦄ createOnRamp actor provider amount currency
    ⦃post⟨fun _ W => ⌜OnRamp.Moves i W.issued O W.store.onRamps⌝,
      fun _ W => ⌜OnRamp.Moves i W.issued O W.store.onRamps⌝⟩⦄ := by
  mvcgen [createOnRamp, -createOnRamp_frame]
  all_goals simp_all +zetaDelta [OnRamp.Moves.keep]
  -- the new purchase, pending, under the id drawn
  exact .add (Nat.lt_succ_self _) le_rfl rfl rfl

theorem completeOnRamp_moves (i : Nat) (id : String) (admin : Actor) :
    ⦃fun W => ⌜W.store.onRamps = O ∧ W.issued = i⌝⦄ completeOnRamp id admin
    ⦃post⟨fun _ W => ⌜OnRamp.Moves i W.issued O W.store.onRamps⌝,
      fun _ W => ⌜OnRamp.Moves i W.issued O W.store.onRamps⌝⟩⦄ := by
  mvcgen [completeOnRamp, onRamp, -completeOnRamp_frame]
  all_goals simp_all +zetaDelta [OnRamp.Moves.keep, Store.putOnRamp, Store.onRamp?]
  -- the purchase found under `id`, pending, written back completed
  exact .complete_found _ ‹_› ‹_›

theorem replay_moves (i : Nat) (id : String) (admin : Actor) :
    ⦃fun W => ⌜W.store.onRamps = O ∧ W.issued = i⌝⦄ replay id admin
    ⦃post⟨fun _ W => ⌜OnRamp.Moves i W.issued O W.store.onRamps⌝,
      fun _ W => ⌜OnRamp.Moves i W.issued O W.store.onRamps⌝⟩⦄ := by
  mvcgen [replay, case, -Wallets.creditWithin_spec, Wallets.creditWithin_tables,
    -Wallets.committed_frame, Wallets.committed_tables]
  all_goals simp_all +zetaDelta [OnRamp.Moves.keep, Store.putOnRamp, Store.putMissing,
    Store.onRamp?]
  -- the purchase of the case, pending, written back completed
  all_goals exact .complete_found _ ‹_› ‹_›

end Reconcile

/-! ## One command -/

theorem OnRamp.Moves.of_eq {i i' : Nat} {O O' : List OnRamp} (h : O' = O) : OnRamp.Moves i i' O O' :=
  h ▸ .keep

/-- A store that keeps a part `f` of another, a part that holds the purchases, keeps its
purchases. -/
theorem OnRamp.Moves.of_part {i i' : Nat} {s s' : Store} (f : Store → Store)
    (hf : ∀ s, (f s).onRamps = s.onRamps) (h : f s' = f s) : OnRamp.Moves i i' s.onRamps s'.onRamps :=
  .of_eq (by rw [← hf s', h, hf])

namespace Command

/-- Processing a payment, answered or refused, completes a purchase only with its row. -/
theorem run_process_completion (ev : PaymentEvent) (verified : Bool) (W : World) :
    Intake.Completion ev W.store.onRamps ((Command.process ev verified).run W).store.onRamps
      ((Command.process ev verified).run W).store.webhooks := by
  rw [run, op, Op.exec_discard]
  exact Op.world_of_ends (Intake.process_completion W.store ev verified) _ rfl
    (fun _ _ h => h) (fun _ _ h => .inl h)

/-- **What a command does to the purchases**: it keeps them, writes one that was pending
back completed, or adds a pending one under an id it drew. -/
theorem run_moves (c : Command) (W : World) :
    OnRamp.Moves W.issued (c.run W).issued W.store.onRamps (c.run W).store.onRamps := by
  cases c with
  -- the wallet engine, alerting, the integrity monitor and reconciliation runs write other
  -- tables only
  | createWallet user currency =>
    rw [run, op, Op.exec_discard]
    exact .of_part (fun s => { s with wallets := [] }) (fun _ => rfl)
      (Op.world_of_triple (Wallets.create_tables _ user currency) rfl)
  | credit r =>
    rw [run, op, Op.exec_discard]
    exact .of_part (fun s => { s with wallets := [], ledger := [], alerts := [] }) (fun _ => rfl)
      (Op.world_of_triple (Wallets.credit_tables _ r) rfl)
  | debit r =>
    rw [run, op, Op.exec_discard]
    exact .of_part (fun s => { s with wallets := [], ledger := [], alerts := [] }) (fun _ => rfl)
      (Op.world_of_triple (Wallets.debit_tables _ r) rfl)
  | transfer r =>
    rw [run, op, Op.exec_discard]
    exact .of_part (fun s => { s with wallets := [], ledger := [], alerts := [] }) (fun _ => rfl)
      (Op.world_of_triple (Wallets.transfer_tables _ r) rfl)
  | manualCredit wallet amount reason admin =>
    rw [run, op, Op.exec_discard]
    exact .of_part (fun s => { s with wallets := [], ledger := [], alerts := [] }) (fun _ => rfl)
      (Op.world_of_triple (Wallets.manualCredit_tables _ wallet amount reason admin) rfl)
  | reconcile lookback =>
    rw [run, op, Op.exec_discard]
    exact .of_part (fun s => { s with missing := [], alerts := [] }) (fun _ => rfl)
      (Op.world_of_answered (Reconcile.run_tables _ lookback) rfl)
  | resolveMissing id resolution notes admin =>
    rw [run, op, Op.exec_discard]
    exact .of_part (fun s => { s with missing := [] }) (fun _ => rfl)
      (Op.world_of_triple (Reconcile.resolve_tables _ id resolution notes admin) rfl)
  | integrityRun =>
    rw [run, op, Op.exec_discard]
    exact .of_part (fun s => { s with wallets := [], alerts := [] }) (fun _ => rfl)
      (Op.world_of_answered (Integrity.run_tables _) rfl)
  | clearFlag wallet admin =>
    rw [run, op]
    exact .of_part (fun s => { s with wallets := [] }) (fun _ => rfl)
      (Op.world_of_triple (Integrity.clearFlag_tables _ wallet admin) rfl)
  | balanceMismatch m =>
    rw [run, op]
    exact .of_part (fun s => { s with alerts := [] }) (fun _ => rfl)
      (Op.world_of_answered (Alerting.balanceMismatch_tables _ m) rfl)
  | creditSpike wallet amount =>
    rw [run, op, Op.exec_discard]
    exact .of_part (fun s => { s with alerts := [] }) (fun _ => rfl)
      (Op.world_of_answered (Alerting.creditSpike_tables _ wallet amount) rfl)
  | crash job cause =>
    rw [run, op]
    exact .of_part (fun s => { s with alerts := [] }) (fun _ => rfl)
      (Op.world_of_answered (Alerting.crash_tables _ job cause) rfl)
  | acknowledgeAlert id admin =>
    rw [run, op, Op.exec_discard]
    exact .of_part (fun s => { s with alerts := [] }) (fun _ => rfl)
      (Op.world_of_triple (Alerting.acknowledge_tables _ id admin) rfl)
  | resolveAlert id admin =>
    rw [run, op, Op.exec_discard]
    exact .of_part (fun s => { s with alerts := [] }) (fun _ => rfl)
      (Op.world_of_triple (Alerting.resolve_tables _ id admin) rfl)
  | webhookFailure provider externalId cause =>
    rw [run, op]
    refine Op.world_of_ends (Alerting.webhookFailure_spec W provider externalId cause)
      (fun W' => OnRamp.Moves W.issued W'.issued W.store.onRamps W'.store.onRamps) rfl
      (fun _ _ h => ?_) (fun _ _ h => h.elim)
    rcases h.1 with h | ⟨a, -, h⟩ <;> exact .of_eq (by rw [h])
  | advance nanos => exact .keep
  -- the retry pipeline writes payment rows and dead letters
  | retryCycle =>
    obtain ⟨-, -, _, hstore, -⟩ := (run_step .retryCycle W).1
    exact .of_eq (by rw [hstore])
  | retryDeadLetter id admin =>
    rcases (run_step (.retryDeadLetter id admin) W).1 with h | ⟨_, _, -, -, -, -, h⟩ <;>
      exact .of_eq (by rw [h] <;> rfl)
  | resolveDeadLetter id resolution notes admin =>
    rcases (run_step (.resolveDeadLetter id resolution notes admin) W).1 with h | ⟨_, _, -, -, h⟩ <;>
      exact .of_eq (by rw [h] <;> rfl)
  | archiveDeadLetter id admin =>
    rcases (run_step (.archiveDeadLetter id admin) W).1 with h | ⟨_, -, -, h⟩ <;>
      exact .of_eq (by rw [h] <;> rfl)
  -- purchases are started, completed by an operator or a replay, and by a payment
  | createOnRamp actor provider amount currency =>
    rw [run, op, Op.exec_discard]
    exact Op.world_of_triple (Reconcile.createOnRamp_moves _ _ actor provider amount currency)
      ⟨rfl, rfl⟩
  | completeOnRamp id admin =>
    rw [run, op, Op.exec_discard]
    exact Op.world_of_triple (Reconcile.completeOnRamp_moves _ _ id admin) ⟨rfl, rfl⟩
  | replayMissing id admin =>
    rw [run, op, Op.exec_discard]
    exact Op.world_of_triple (Reconcile.replay_moves _ _ id admin) ⟨rfl, rfl⟩
  | process ev verified =>
    rcases run_process_completion ev verified W with h | ⟨o, ho, -, -, hpending, ⟨t, hO⟩, -⟩
    exacts [.of_eq h, hO ▸ .complete t ho hpending]

end Command

/-! ## Purchases keep their terms -/

/-- The purchase `P` stands among the purchases `O`, with `i` ids drawn: their ids are
drawn and distinct, `P`'s id is among them, and every purchase under it has `P`'s terms. -/
structure OnRamp.Stands (P : OnRamp) (i : Nat) (O : List OnRamp) : Prop where
  drawn : Drawn i (O.map (·.id))
  mem : P.id ∈ O.map (·.id)
  terms : ∀ o ∈ O, o.id = P.id → o.terms = P.terms

/-- Writing a purchase back completed keeps the purchases' ids. -/
theorem OnRamp.ids_complete (O : List OnRamp) (o : OnRamp) (t : Instant) :
    (replaceFirst (·.id == o.id) { o with completedAt := some t } O).map (·.id) = O.map (·.id) :=
  @map_key_replaceFirst OnRamp OnRamp.id { o with completedAt := some t } O

namespace OnRamp.Moves

variable {i i' : Nat} {O O' : List OnRamp}

/-- A command keeps the purchases' ids drawn and distinct. -/
theorem drawn (h : OnRamp.Moves i i' O O') (hd : Drawn i (O.map (·.id))) (hle : i ≤ i')
    (hbound : i' < 2 ^ 48) : Drawn i' (O'.map (·.id)) := by
  cases h with
  | keep => exact hd.mono hle
  | complete t _ _ => rw [OnRamp.ids_complete]; exact hd.mono hle
  | add hik hki hid _ =>
    rw [List.map_append, List.map_singleton, hid]
    exact (hd.snoc hik (by omega)).mono hki

/-- **A command keeps a standing purchase's terms**: a completion writes back the terms
it found, and a purchase added takes an id no purchase had. -/
theorem stands {P : OnRamp} (h : OnRamp.Moves i i' O O') (hs : OnRamp.Stands P i O) (hle : i ≤ i')
    (hbound : i' < 2 ^ 48) : OnRamp.Stands P i' O' := by
  refine ⟨h.drawn hs.drawn hle hbound, ?_, ?_⟩
  · cases h with
    | keep => exact hs.mem
    | complete t _ _ => rw [OnRamp.ids_complete]; exact hs.mem
    | add => exact List.map_append ▸ List.mem_append_left _ hs.mem
  · intro y hy hid
    cases h with
    | keep => exact hs.terms y hy hid
    | @complete o t ho _ =>
      rcases mem_replaceFirst hy with rfl | hy
      · exact hs.terms o ho hid
      · exact hs.terms y hy hid
    -- the purchase added is not `P`: its id was drawn after all the others
    | add hik hki hid' _ =>
      rcases List.mem_append.mp hy with hy | hy
      · exact hs.terms y hy hid
      · rw [List.mem_singleton.mp hy, hid'] at hid
        exact absurd (hid ▸ hs.mem) (hs.drawn.not_mem hik (by omega))

end OnRamp.Moves

namespace Command

/-- A run keeps the purchases' ids drawn and distinct. -/
theorem onRamps_drawn_runAll {cs : List Command} {W : World}
    (h : Drawn W.issued (W.store.onRamps.map (·.id))) (hbound : (runAll cs W).issued < 2 ^ 48) :
    Drawn (runAll cs W).issued ((runAll cs W).store.onRamps.map (·.id)) := by
  induction cs generalizing W with
  | nil => exact h
  | cons c cs ih =>
    rw [runAll_cons] at hbound ⊢
    have hc : (c.run W).issued < 2 ^ 48 := lt_of_le_of_lt (issued_le_runAll cs _) hbound
    exact ih ((run_moves c W).drawn h (run_step c W).2.2 hc) hbound

/-- **A purchase's terms stand in every later world of a run**: the purchase under its id
keeps its wallet, provider, amount, currency and start time. -/
theorem stands_take (cs : List Command) {W₀ : World} (hbound : (runAll cs W₀).issued < 2 ^ 48)
    {P : OnRamp} {i j : Nat} (hij : i ≤ j) (hj : j ≤ cs.length)
    (hs : P.Stands (runAll (cs.take i) W₀).issued (runAll (cs.take i) W₀).store.onRamps) :
    P.Stands (runAll (cs.take j) W₀).issued (runAll (cs.take j) W₀).store.onRamps := by
  -- induction on the later world, one command at a time
  induction j, hij using Nat.le_induction with
  | base => exact hs
  | succ j _ ih =>
    have hlt : j < cs.length := hj
    have hb : (runAll (cs.take (j + 1)) W₀).issued < 2 ^ 48 :=
      (issued_take_le cs (j + 1) W₀).trans_lt hbound
    rw [runAll_take_succ (List.getElem?_eq_getElem hlt)] at hb ⊢
    exact (run_moves _ _).stands (ih hlt.le) (run_step _ _).2.2 hb

end Command

end OnrampLedger
