import OnrampLedger.Proofs.Steps

/-!
# What the observers of committed changes see

A change to a wallet is committed with the wallet as it stands after the change and the
entry written (`Mutation`). Once an operation has committed, it announces its changes
(`Wallets.committed`): each one's event is published, and each credit is counted towards
its wallet's credit spike window. `Wallets.announce` is the world that announcing ends
in.

Five operations commit changes of their own (a credit, a debit, a transfer, a payment's
credit and the replay of a missing report), and a manual credit commits through a credit.
Each announces after its transaction, and only what it committed: a repeat, a refusal
and a rolled-back transaction announce nothing. `Announced` says so of the world a
command ends in: it is some world, in which nothing was published and exactly the
entries of the changes `muts` were appended, with `muts` then announced, each change
showing its entry's wallet as it stands right after the entry (`Wallets.AfterEntry`).

The proof follows the operations. Nothing but announcing publishes: each operation gets
a frame that keeps the published events (`_published`), proved with the frames of what
it calls. The posting, credit and settlement triples are joined with these frames, and
from them each announcing operation gets its triple (`_announces`).

## Main results

* `Command.run_announced` — every command ends as `Announced` says.
* `Command.runAll_mirrors` — over a run, the ledger grows by the entries of the changes
  announced and the published events by theirs, in the same order.
* `ledger_entries_announced` — both together, for every run and each of its steps.
-/

namespace OnrampLedger

open Std.Do

set_option mvcgen.warning false

/-! ## Triples from runs -/

namespace Op

/-- The converse of `ends_of_triple`: a property of every run from a world meeting the
precondition is a triple. -/
theorem triple_of_ends {α : Type} {x : Op α} {P : World → Prop} {Q : α → World → Prop}
    {E : Error → World → Prop} (h : ∀ w, P w → Ends Q E (x.exec w)) :
    ⦃fun w => ⌜P w⌝⦄ x ⦃post⟨fun a w => ⌜Q a w⌝, fun e w => ⌜E e w⌝⟩⦄ := by
  intro w hw
  have hend := h w hw
  simp only [WP.wp, Id.run]
  simp
  unfold exec at hend
  revert hend
  rcases StateT.run (ExceptT.run x) w with ⟨_ | _, w'⟩ <;> simp

/-- A triple whose precondition is its postcondition applied to the run's end. -/
theorem triple_of_exec {α : Type} {x : Op α} (Q : PostCond α (.except Error (.arg World .pure))) :
    ⦃fun W => match x.exec W with
      | (.ok a, W') => Q.1 a W'
      | (.error e, W') => Q.2.1 e W'⦄ x ⦃Q⦄ := by
  intro W hpre
  simp only [WP.wp, Id.run]
  simp
  unfold exec at hpre
  rcases h : StateT.run (ExceptT.run x) W with ⟨_ | _, w'⟩ <;> simp_all

/-- Two properties of one run's end, taken together. -/
theorem Ends.both {α : Type} {Q₁ Q₂ Q : α → World → Prop} {E₁ E₂ E : Error → World → Prop}
    {r : Except Error α × World} (h₁ : Ends Q₁ E₁ r) (h₂ : Ends Q₂ E₂ r)
    (hQ : ∀ a w, Q₁ a w → Q₂ a w → Q a w) (hE : ∀ e w, E₁ e w → E₂ e w → E e w) : Ends Q E r :=
  match r, h₁, h₂ with
  | (.ok a, w), h₁, h₂ => hQ a w h₁ h₂
  | (.error e, w), h₁, h₂ => hE e w h₁ h₂

end Op

/-! ## Operations that publish nothing

Each frame keeps the events published, on every run; an operation that never refuses
says so. The frames marked for `mvcgen` elsewhere do not mention the published events,
so each proof here names the frames of the operations it calls instead. -/

variable (p : List LedgerEvent)

namespace Alerting

theorem allow_published (key : String) (ttl : Duration) :
    ⦃fun W => ⌜W.published = p⌝⦄ allow key ttl
    ⦃post⟨fun _ W => ⌜W.published = p⌝, fun _ _ => ⌜False⌝⟩⦄ := by
  mvcgen [allow, memory, modifyMemory, -allow_spec]

theorem raise_published (type severity title message : String)
    (metadata : List (String × String)) :
    ⦃fun W => ⌜W.published = p⌝⦄ raise type severity title message metadata
    ⦃post⟨fun _ W => ⌜W.published = p⌝, fun _ _ => ⌜False⌝⟩⦄ := by
  mvcgen [raise, -raise_spec]

theorem balanceMismatch_published (m : Mismatch) :
    ⦃fun W => ⌜W.published = p⌝⦄ balanceMismatch m
    ⦃post⟨fun _ W => ⌜W.published = p⌝, fun _ _ => ⌜False⌝⟩⦄ := by
  mvcgen [balanceMismatch, thresholds, raise_published, -balanceMismatch_frame, -raise_spec]

theorem webhookFailure_published (provider externalId : String) (cause : Option String) :
    ⦃fun W => ⌜W.published = p⌝⦄ webhookFailure provider externalId cause
    ⦃post⟨fun _ W => ⌜W.published = p⌝, fun _ _ => ⌜False⌝⟩⦄ := by
  mvcgen [webhookFailure, thresholds, memory, modifyMemory, allow_published, raise_published,
    -webhookFailure_spec, -allow_spec, -raise_spec]
  all_goals simp_all +zetaDelta

theorem creditSpike_published (wallet : String) (amount : Decimal) :
    ⦃fun W => ⌜W.published = p⌝⦄ creditSpike wallet amount
    ⦃post⟨fun _ W => ⌜W.published = p⌝, fun _ _ => ⌜False⌝⟩⦄ := by
  mvcgen [creditSpike, thresholds, memory, modifyMemory, allow_published, raise_published,
    -creditSpike_frame, -allow_spec, -raise_spec]
  all_goals simp_all +zetaDelta

theorem crash_published (job : String) (cause : Option String) :
    ⦃fun W => ⌜W.published = p⌝⦄ crash job cause
    ⦃post⟨fun _ W => ⌜W.published = p⌝, fun _ _ => ⌜False⌝⟩⦄ := by
  mvcgen [crash, thresholds, allow_published, raise_published, -crash_frame, -allow_spec,
    -raise_spec]
  all_goals simp_all

theorem missingWebhook_published (a : MissingWebhookAlert) :
    ⦃fun W => ⌜W.published = p⌝⦄ missingWebhook a
    ⦃post⟨fun _ W => ⌜W.published = p⌝, fun _ _ => ⌜False⌝⟩⦄ := by
  mvcgen [missingWebhook, raise_published, -missingWebhook_frame, -raise_spec]

theorem acknowledge_published (id : String) (admin : Actor) :
    ⦃fun W => ⌜W.published = p⌝⦄ acknowledge id admin
    ⦃post⟨fun _ W => ⌜W.published = p⌝, fun _ W => ⌜W.published = p⌝⟩⦄ := by
  mvcgen [acknowledge, get, -acknowledge_frame]

theorem resolve_published (id : String) (admin : Actor) :
    ⦃fun W => ⌜W.published = p⌝⦄ resolve id admin
    ⦃post⟨fun _ W => ⌜W.published = p⌝, fun _ W => ⌜W.published = p⌝⟩⦄ := by
  mvcgen [resolve, get, -resolve_frame]

end Alerting

namespace Wallets

theorem apply_published (w : Wallet) (type : EntryType) (amount : Decimal)
    (key reference description : String) (source : Source) (providerEventId : String)
    (taken : Error) :
    ⦃fun W => ⌜W.published = p⌝⦄
    apply w type amount key reference description source providerEventId taken
    ⦃post⟨fun _ W => ⌜W.published = p⌝, fun _ W => ⌜W.published = p⌝⟩⦄ := by
  mvcgen [apply, -apply_spec]

theorem creditWithin_published (r : CreditRequest) :
    ⦃fun W => ⌜W.published = p⌝⦄ creditWithin r
    ⦃post⟨fun _ W => ⌜W.published = p⌝, fun _ W => ⌜W.published = p⌝⟩⦄ := by
  mvcgen [creditWithin, authorizeCredit, apply_published, -creditWithin_spec, -apply_spec]
  all_goals simp_all

theorem create_published (user currency : String) :
    ⦃fun W => ⌜W.published = p⌝⦄ create user currency
    ⦃post⟨fun _ W => ⌜W.published = p⌝, fun _ W => ⌜W.published = p⌝⟩⦄ := by
  mvcgen [create]

end Wallets

namespace Intake

theorem completePurchase_published (wallet provider : String) (amount : Decimal)
    (now : Instant) :
    ⦃fun W => ⌜W.published = p⌝⦄ completePurchase wallet provider amount now
    ⦃post⟨fun _ W => ⌜W.published = p⌝, fun _ _ => ⌜False⌝⟩⦄ := by
  mvcgen [completePurchase, -completePurchase_frame]

theorem recordFailure_published (ev : PaymentEvent) (prior : Option WebhookEvent)
    (walletId : String) (cause : Error) :
    ⦃fun W => ⌜W.published = p⌝⦄ recordFailure ev prior walletId cause
    ⦃post⟨fun _ W => ⌜W.published = p⌝, fun _ _ => ⌜False⌝⟩⦄ := by
  mvcgen [recordFailure, Alerting.webhookFailure_published, -recordFailure_spec,
    -Alerting.webhookFailure_spec]

theorem settle_published (ev : PaymentEvent) (prior : Option WebhookEvent)
    (wallet? : Option Wallet) :
    ⦃fun W => ⌜W.published = p⌝⦄ settle ev prior wallet?
    ⦃post⟨fun _ W => ⌜W.published = p⌝, fun _ W => ⌜W.published = p⌝⟩⦄ := by
  mvcgen [settle, Wallets.creditWithin_published, completePurchase_published, -settle_spec,
    -Wallets.creditWithin_spec, -completePurchase_frame]
  all_goals simp_all +zetaDelta

end Intake

namespace Retry

theorem retryOne_published (e : WebhookEvent) :
    ⦃fun W => ⌜W.published = p⌝⦄ retryOne e
    ⦃post⟨fun _ W => ⌜W.published = p⌝, fun _ _ => ⌜False⌝⟩⦄ := by
  mvcgen [retryOne, -retryOne_spec]

theorem cycle_published :
    ⦃fun W => ⌜W.published = p⌝⦄ cycle
    ⦃post⟨fun _ W => ⌜W.published = p⌝, fun _ _ => ⌜False⌝⟩⦄ := by
  mvcgen [cycle, retryOne_published, -cycle_spec, -retryOne_spec]
  case inv1 => exact post⟨fun _ W => ⌜W.published = p⌝, fun _ _ => ⌜False⌝⟩
  all_goals simp_all

theorem retryDeadLetter_published (id : String) (admin : Actor) :
    ⦃fun W => ⌜W.published = p⌝⦄ retryDeadLetter id admin
    ⦃post⟨fun _ W => ⌜W.published = p⌝, fun _ W => ⌜W.published = p⌝⟩⦄ := by
  mvcgen [retryDeadLetter, item, -retryDeadLetter_spec]

theorem resolve_published (id resolution notes : String) (admin : Actor) :
    ⦃fun W => ⌜W.published = p⌝⦄ resolve id resolution notes admin
    ⦃post⟨fun _ W => ⌜W.published = p⌝, fun _ W => ⌜W.published = p⌝⟩⦄ := by
  mvcgen [resolve, item, -resolve_spec]

theorem archive_published (id : String) (admin : Actor) :
    ⦃fun W => ⌜W.published = p⌝⦄ archive id admin
    ⦃post⟨fun _ W => ⌜W.published = p⌝, fun _ W => ⌜W.published = p⌝⟩⦄ := by
  mvcgen [archive, item, -archive_spec]

end Retry

namespace Reconcile

theorem createOnRamp_published (actor : Actor) (provider : String) (amount : Decimal)
    (currency : String) :
    ⦃fun W => ⌜W.published = p⌝⦄ createOnRamp actor provider amount currency
    ⦃post⟨fun _ W => ⌜W.published = p⌝, fun _ W => ⌜W.published = p⌝⟩⦄ := by
  mvcgen [createOnRamp, -createOnRamp_frame]
  all_goals simp_all +zetaDelta

theorem completeOnRamp_published (id : String) (admin : Actor) :
    ⦃fun W => ⌜W.published = p⌝⦄ completeOnRamp id admin
    ⦃post⟨fun _ W => ⌜W.published = p⌝, fun _ W => ⌜W.published = p⌝⟩⦄ := by
  mvcgen [completeOnRamp, onRamp, -completeOnRamp_frame]

theorem check_published (o : OnRamp) :
    ⦃fun W => ⌜W.published = p⌝⦄ check o
    ⦃post⟨fun _ W => ⌜W.published = p⌝, fun _ _ => ⌜False⌝⟩⦄ := by
  mvcgen [check, openCase, Alerting.missingWebhook_published, -check_frame,
    -Alerting.missingWebhook_frame]
  all_goals simp_all +zetaDelta

theorem run_published (lookback : Int) :
    ⦃fun W => ⌜W.published = p⌝⦄ run lookback
    ⦃post⟨fun _ W => ⌜W.published = p⌝, fun _ _ => ⌜False⌝⟩⦄ := by
  mvcgen [run, check_published, -run_frame, -check_frame]
  case inv1 => exact post⟨fun _ W => ⌜W.published = p⌝, fun _ _ => ⌜False⌝⟩
  all_goals simp_all

theorem resolve_published (id resolution notes : String) (admin : Actor) :
    ⦃fun W => ⌜W.published = p⌝⦄ resolve id resolution notes admin
    ⦃post⟨fun _ W => ⌜W.published = p⌝, fun _ W => ⌜W.published = p⌝⟩⦄ := by
  mvcgen [resolve, case, -resolve_frame]

end Reconcile

namespace Integrity

theorem flagPage_published (suspects : List Wallet) :
    ⦃fun W => ⌜W.published = p⌝⦄ flagPage suspects
    ⦃post⟨fun _ W => ⌜W.published = p⌝, fun _ _ => ⌜False⌝⟩⦄ := by
  mvcgen [flagPage, -flagPage_frame]
  case inv1 => exact post⟨fun _ W => ⌜W.published = p⌝, fun _ _ => ⌜False⌝⟩
  all_goals simp_all +zetaDelta

theorem pages_published (batch fuel : Nat) (after : String) (r : IntegrityReport) :
    ⦃fun W => ⌜W.published = p⌝⦄ pages batch fuel after r
    ⦃post⟨fun _ W => ⌜W.published = p⌝, fun _ _ => ⌜False⌝⟩⦄ := by
  induction fuel generalizing after r with
  | zero => mvcgen [pages, -pages_frame]
  | succ fuel ih =>
      mvcgen [pages, ih, flagPage_published, -pages_frame, -flagPage_frame]
      all_goals simp_all

theorem forM_balanceMismatch_published (ms : List Mismatch) :
    ⦃fun W => ⌜W.published = p⌝⦄ ms.forM Alerting.balanceMismatch
    ⦃post⟨fun _ W => ⌜W.published = p⌝, fun _ _ => ⌜False⌝⟩⦄ := by
  induction ms with
  | nil => mvcgen
  | cons m ms ih =>
      simp only [List.forM_eq_forM, List.forM_cons] at ih ⊢
      mvcgen [ih, Alerting.balanceMismatch_published, -Alerting.balanceMismatch_frame]
      simp_all

theorem run_published :
    ⦃fun W => ⌜W.published = p⌝⦄ run
    ⦃post⟨fun _ W => ⌜W.published = p⌝, fun _ _ => ⌜False⌝⟩⦄ := by
  mvcgen [run, pages_published, forM_balanceMismatch_published, -run_frame, -pages_frame]
  all_goals simp_all

theorem clearFlag_published (id : String) (admin : Actor) :
    ⦃fun W => ⌜W.published = p⌝⦄ clearFlag id admin
    ⦃post⟨fun _ W => ⌜W.published = p⌝, fun _ W => ⌜W.published = p⌝⟩⦄ := by
  mvcgen [clearFlag, -clearFlag_frame]

end Integrity

/-! ## Announcing -/

namespace Wallets

/-- The world after the changes `muts` are announced from `W`. -/
def announce (muts : List Mutation) (W : World) : World := ((committed muts).exec W).2

/-- The wallet of a change is the entry's wallet as it stands right after the entry. -/
def AfterEntry (m : Mutation) : Prop := m.1.id = m.2.wallet ∧ m.1.balance = m.2.after

/-- Announcing publishes the events of the changes, in order, and never refuses. -/
theorem committed_publishes (muts : List Mutation) :
    ⦃fun W => ⌜W.published = p⌝⦄ committed muts
    ⦃post⟨fun _ W => ⌜W.published = p ++ muts.map fun m => LedgerEvent.ofEntry m.1 m.2⌝,
      fun _ _ => ⌜False⌝⟩⦄ := by
  induction muts generalizing p with
  | nil =>
      simp only [committed, List.forM_eq_forM, List.forM_nil]
      mvcgen
      simp_all
  | cons m ms ih =>
      simp only [committed, List.forM_eq_forM, List.forM_cons] at ih ⊢
      mvcgen [ih, Alerting.creditSpike_published, -Alerting.creditSpike_frame]
      all_goals simp_all +zetaDelta

/-- Announcing never refuses. -/
theorem committed_exec (muts : List Mutation) (W : World) :
    (committed muts).exec W = (.ok (), announce muts W) := by
  have hend := Op.ends_of_triple (committed_frame W.records W.issued muts) ⟨rfl, le_rfl⟩
  unfold announce
  revert hend
  rcases (committed muts).exec W with ⟨_ | _, W'⟩ <;> simp

/-- Announcing, as a triple: it never refuses and ends in `announce`. -/
theorem committed_announce (muts : List Mutation)
    (Q : PostCond Unit (.except Error (.arg World .pure))) :
    ⦃fun W => Q.1 () (announce muts W)⦄ committed muts ⦃Q⦄ := by
  intro W hQ
  apply Op.triple_of_exec Q W
  dsimp only
  rw [committed_exec]
  exact hQ

@[simp] theorem announce_nil (W : World) : announce [] W = W := rfl

@[simp] theorem announce_published (muts : List Mutation) (W : World) :
    (announce muts W).published = W.published ++ muts.map fun m => LedgerEvent.ofEntry m.1 m.2 :=
  Op.world_of_answered (committed_publishes _ muts) rfl

@[simp] theorem announce_ledger (muts : List Mutation) (W : World) :
    (announce muts W).store.ledger = W.store.ledger :=
  (World.records_eq.mp (Op.world_of_answered (committed_frame W.records W.issued muts)
    ⟨rfl, le_rfl⟩).1).2.2.1

/-! ## What a change appends -/

/-- The ledger `l'` is `l` with the entries of the changes `muts` appended, in order, each
change showing its entry's wallet as it stands right after the entry. -/
def Appended (l : List LedgerEntry) (muts : List Mutation) (l' : List LedgerEntry) : Prop :=
  l' = l ++ muts.map Prod.snd ∧ ∀ m ∈ muts, AfterEntry m

theorem Appended.nil (l : List LedgerEntry) : Appended l [] l := by
  simp [Appended]

theorem Appended.append {l l₁ l₂ : List LedgerEntry} {ms ms' : List Mutation}
    (h : Appended l ms l₁) (h' : Appended l₁ ms' l₂) : Appended l (ms ++ ms') l₂ := by
  obtain ⟨rfl, hms⟩ := h
  obtain ⟨rfl, hms'⟩ := h'
  refine ⟨by simp, fun m hm => ?_⟩
  rcases List.mem_append.mp hm with hm | hm
  exacts [hms m hm, hms' m hm]

end Wallets

theorem Posted.appended {s s' : Store} {w : Wallet} {m : Mutation} (hp : Posted s w m s') :
    Wallets.Appended s.ledger [m] s'.ledger :=
  ⟨hp.ledger, by simpa using ⟨hp.id.trans hp.wallet.symm, hp.balance⟩⟩

namespace Wallets

/-- A credit inside a transaction appends the entry of the change it answers, if any. -/
theorem Credited.appended {r : CreditRequest} {s s' : Store} {res : WalletView × Option Mutation}
    (hc : Credited r s res s') : Appended s.ledger res.2.toList s'.ledger := by
  rcases hc with ⟨hnone, rfl, -⟩ | ⟨w, m, hm, -, hp, -⟩
  · rw [hnone]
    exact .nil _
  · rw [hm]
    exact hp.appended

/-- The posting contract with what is published: nothing. -/
theorem apply_posts (W₀ : World) (w : Wallet) (type : EntryType) (amount : Decimal)
    (key reference description : String) (source : Source) (providerEventId : String)
    (taken : Error) :
    ⦃fun W => ⌜W = W₀⌝⦄
    apply w type amount key reference description source providerEventId taken
    ⦃post⟨fun m W => ⌜Posted W₀.store w m W.store ∧ W.published = W₀.published⌝,
      fun _ W => ⌜W.published = W₀.published⌝⟩⦄ :=
  Op.triple_of_ends fun _ hW =>
    (Op.ends_of_triple (apply_spec W₀ w type amount key reference description source
      providerEventId taken) hW).both
    (Op.ends_of_triple (apply_published W₀.published w type amount key reference description
      source providerEventId taken) (hW ▸ rfl))
    (fun _ _ h₁ h₂ => ⟨h₁.1, h₂⟩) (fun _ _ _ h₂ => h₂)

/-- A credit inside a transaction, with what is published: nothing. -/
theorem creditWithin_credits (W₀ : World) (r : CreditRequest) :
    ⦃fun W => ⌜W = W₀⌝⦄ creditWithin r
    ⦃post⟨fun res W => ⌜Credited r W₀.store res W.store ∧ W.published = W₀.published⌝,
      fun _ W => ⌜W.published = W₀.published⌝⟩⦄ :=
  Op.triple_of_ends fun _ hW =>
    (Op.ends_of_triple (creditWithin_spec W₀ r) hW).both
    (Op.ends_of_triple (creditWithin_published W₀.published r) (hW ▸ rfl))
    (fun _ _ h₁ h₂ => ⟨h₁.1, h₂⟩) (fun _ _ _ h₂ => h₂)

end Wallets

/-- Settling a payment appends the entry of its credit's change, if any. -/
theorem Store.Settled.appended {ev : PaymentEvent} {prior : Option WebhookEvent}
    {wallet? : Option Wallet} {i i' : Nat} {s s' : Store} {change : Option Mutation}
    (h : s.Settled ev prior wallet? i i' change s') :
    Wallets.Appended s.ledger change.toList s'.ledger := by
  obtain ⟨w, -, s₁, view, hc, -, hl, -⟩ := h
  rw [hl]
  exact hc.appended

/-! ## Announcing what was committed -/

/-- `W` is where an operation ends that, from a world with the events `p` published and
the ledger `l`, appended the entries of the changes `muts` and published nothing, and
then announced `muts`. -/
def Announced (p : List LedgerEvent) (l : List LedgerEntry) (W : World) : Prop :=
  ∃ W₁ muts, W = Wallets.announce muts W₁ ∧ W₁.published = p ∧
    Wallets.Appended l muts W₁.store.ledger

variable {p} {l : List LedgerEntry}

theorem Announced.intro {l₀ : List LedgerEntry} {W₁ : World} {muts : List Mutation}
    (h : Wallets.Appended l₀ muts W₁.store.ledger) (hl : l₀ = l) (hp : W₁.published = p) :
    Announced p l (Wallets.announce muts W₁) :=
  ⟨W₁, muts, rfl, hp, hl ▸ h⟩

/-- An operation that appended and published nothing announced nothing. -/
theorem Announced.quiet {W : World} (hp : W.published = p) (hl : W.store.ledger = l) :
    Announced p l W :=
  ⟨W, [], rfl, hp, hl ▸ .nil _⟩

namespace Wallets

theorem credit_announces (r : CreditRequest) :
    ⦃fun W => ⌜W.published = p ∧ W.store.ledger = l⌝⦄ credit r
    ⦃post⟨fun _ W => ⌜Announced p l W⌝, fun _ W => ⌜Announced p l W⌝⟩⦄ := by
  mvcgen [credit, duplicateView, creditWithin_credits, committed_announce, -creditWithin_spec,
    -committed_frame]
  all_goals simp_all +zetaDelta
  -- a repeat answers from the store as it is, and a refused credit is rolled back
  case vc1 | vc2 => exact .quiet ‹_ ∧ _›.1 ‹_ ∧ _›.2
  case vc4 => exact .quiet rfl ‹_ ∧ _›.2
  case vc3 =>
    rename_i hW _ _ _ hcredited
    exact .intro hcredited.1.appended hW.2 hcredited.2

theorem debit_announces (r : DebitRequest) :
    ⦃fun W => ⌜W.published = p ∧ W.store.ledger = l⌝⦄ debit r
    ⦃post⟨fun _ W => ⌜Announced p l W⌝, fun _ W => ⌜Announced p l W⌝⟩⦄ := by
  mvcgen [debit, replayedFor, duplicateView, apply_posts, committed_announce, -apply_spec,
    -committed_frame]
  all_goals simp_all +zetaDelta
  -- the withdrawal or trade posted on the locked wallet, then announced
  case vc5 | vc14 =>
    rename_i hposted
    exact .intro hposted.1.appended (by simp_all) hposted.2
  -- every other path writes no entry: a repeat, or a refusal rolled back
  all_goals
    intros
    exact .quiet (by simp_all) (by simp_all)

theorem transfer_announces (r : TransferRequest) :
    ⦃fun W => ⌜W.published = p ∧ W.store.ledger = l⌝⦄ transfer r
    ⦃post⟨fun _ W => ⌜Announced p l W⌝, fun _ W => ⌜Announced p l W⌝⟩⦄ := by
  mvcgen [transfer, replayedFor, duplicateView, apply_posts, committed_announce, -apply_spec,
    -committed_frame]
  all_goals simp_all +zetaDelta
  -- the two legs posted one after the other, then announced in that order
  case vc5 =>
    rename_i hout hin
    exact .intro (hout.1.appended.append hin.1.appended) (by simp_all) hin.2
  all_goals
    intros
    exact .quiet (by simp_all) (by simp_all)

theorem manualCredit_announces (wallet : String) (amount : Decimal) (reason : String)
    (admin : Actor) :
    ⦃fun W => ⌜W.published = p ∧ W.store.ledger = l⌝⦄ manualCredit wallet amount reason admin
    ⦃post⟨fun _ W => ⌜Announced p l W⌝, fun _ W => ⌜Announced p l W⌝⟩⦄ := by
  mvcgen -trivial [manualCredit]
  -- the credit runs after the reference's id is drawn, which neither publishes nor posts
  case vc1 =>
    rename_i hW _ _ _
    exact credit_announces _ _ hW
  -- the refusals come before anything is written
  case vc2 | vc3 => exact .quiet ‹_ ∧ _›.1 ‹_ ∧ _›.2

end Wallets

namespace Intake

/-- Settling a payment, with what is published: nothing. -/
theorem settle_settles (W₀ : World) (ev : PaymentEvent) (prior : Option WebhookEvent)
    (wallet? : Option Wallet) :
    ⦃fun W => ⌜W = W₀⌝⦄ settle ev prior wallet?
    ⦃post⟨fun res W => ⌜W₀.store.Settled ev prior wallet? W₀.issued W.issued res.2 W.store ∧
        W.published = W₀.published⌝,
      fun _ W => ⌜W.store = W₀.store ∧ W.published = W₀.published⌝⟩⦄ :=
  Op.triple_of_ends fun _ hW =>
    (Op.ends_of_triple (settle_spec W₀ ev prior wallet?) hW).both
    (Op.ends_of_triple (settle_published W₀.published ev prior wallet?) (hW ▸ rfl))
    (fun _ _ h₁ h₂ => ⟨h₁.1, h₂⟩) (fun _ _ h₁ h₂ => ⟨h₁.1, h₂⟩)

/-- Recording a failure, with what is published: nothing, and no entry written. -/
theorem recordFailure_records (W₀ : World) (ev : PaymentEvent) (prior : Option WebhookEvent)
    (walletId : String) (cause : Error) :
    ⦃fun W => ⌜W = W₀⌝⦄ recordFailure ev prior walletId cause
    ⦃post⟨fun _ W => ⌜W.store.ledger = W₀.store.ledger ∧ W.published = W₀.published⌝,
      fun _ _ => ⌜False⌝⟩⦄ :=
  Op.triple_of_ends fun _ hW =>
    (Op.ends_of_triple (recordFailure_spec W₀ ev prior walletId cause) hW).both
    (Op.ends_of_triple (recordFailure_published W₀.published ev prior walletId cause) (hW ▸ rfl))
    (fun _ _ h₁ h₂ => ⟨h₁.1.written.money.2, h₂⟩) (fun _ _ h₁ _ => h₁)

theorem process_announces (ev : PaymentEvent) (verified : Bool) :
    ⦃fun W => ⌜W.published = p ∧ W.store.ledger = l⌝⦄ process ev verified
    ⦃post⟨fun _ W => ⌜Announced p l W⌝, fun _ W => ⌜Announced p l W⌝⟩⦄ := by
  mvcgen [process, settle_settles, recordFailure_records, Wallets.committed_announce, -settle_spec,
    -recordFailure_spec, -Wallets.committed_frame]
  all_goals simp_all +zetaDelta
  -- settled: the credit's change, announced once committed
  case vc4 | vc6 =>
    rename_i hsettled
    exact .intro hsettled.1.appended (by simp_all) hsettled.2
  -- every other path writes no entry: passed over, a repeat, or a failure recorded
  all_goals exact .quiet (by simp_all) (by simp_all)

end Intake

namespace Reconcile

theorem replay_announces (id : String) (admin : Actor) :
    ⦃fun W => ⌜W.published = p ∧ W.store.ledger = l⌝⦄ replay id admin
    ⦃post⟨fun _ W => ⌜Announced p l W⌝, fun _ W => ⌜Announced p l W⌝⟩⦄ := by
  mvcgen [replay, case, Wallets.creditWithin_credits, Wallets.committed_announce,
    -Wallets.creditWithin_spec, -Wallets.committed_frame]
  -- the credit, made after the purchase is completed and before the case is settled, then
  -- its change announced once committed
  case vc1 | vc3 =>
    rename_i hcredited _
    exact .intro hcredited.1.appended (by simp_all +zetaDelta [Store.putOnRamp])
      (by simp_all +zetaDelta)
  -- every other path writes no entry: a refusal, or a credit rolled back
  all_goals exact .quiet (by simp_all +zetaDelta) (by simp_all +zetaDelta)

end Reconcile
/-- What an announcement leaves: the changes' entries on the ledger and their events
published after those already there. -/
theorem Announced.mirrors {W : World} (h : Announced p l W) :
    ∃ muts, Wallets.Appended l muts W.store.ledger ∧
      W.published = p ++ muts.map fun m => LedgerEvent.ofEntry m.1 m.2 := by
  obtain ⟨W₁, muts, rfl, hp, happ⟩ := h
  exact ⟨muts, by simpa using happ, by simp [hp]⟩

namespace Command

/-- A command that publishes nothing and may append no entry announces nothing. -/
theorem announced_of_published {c : Command} {W : World}
    (hp : (c.run W).published = W.published) (hq : ∀ es, c.Appends W es → es = []) :
    Announced W.published W.store.ledger (c.run W) := by
  obtain ⟨es, hes, hl⟩ := (run_step c W).appends
  exact .quiet hp (by rw [hl, hq es hes, List.append_nil])

/-- **Every command announces exactly the changes it appended**, last, after publishing
nothing of its own. -/
theorem run_announced (c : Command) (W : World) :
    Announced W.published W.store.ledger (c.run W) := by
  cases c with
  | credit r =>
    rw [run, op, Op.exec_discard]
    exact Op.world_of_triple (Wallets.credit_announces r) ⟨rfl, rfl⟩
  | debit r =>
    rw [run, op, Op.exec_discard]
    exact Op.world_of_triple (Wallets.debit_announces r) ⟨rfl, rfl⟩
  | transfer r =>
    rw [run, op, Op.exec_discard]
    exact Op.world_of_triple (Wallets.transfer_announces r) ⟨rfl, rfl⟩
  | manualCredit wallet amount reason admin =>
    rw [run, op, Op.exec_discard]
    exact Op.world_of_triple (Wallets.manualCredit_announces wallet amount reason admin) ⟨rfl, rfl⟩
  | process ev verified =>
    rw [run, op, Op.exec_discard]
    exact Op.world_of_triple (Intake.process_announces ev verified) ⟨rfl, rfl⟩
  | replayMissing id admin =>
    rw [run, op, Op.exec_discard]
    exact Op.world_of_triple (Reconcile.replay_announces id admin) ⟨rfl, rfl⟩
  -- the others may append no entry; each publishes nothing
  | createWallet user currency =>
    refine announced_of_published ?_ fun _ h => h
    rw [run, op, Op.exec_discard]
    exact Op.world_of_triple (Wallets.create_published _ user currency) rfl
  | retryCycle =>
    refine announced_of_published ?_ fun _ h => h
    rw [run, op, Op.exec_discard]
    exact Op.world_of_answered (Retry.cycle_published _) rfl
  | retryDeadLetter id admin =>
    refine announced_of_published ?_ fun _ h => h
    rw [run, op, Op.exec_discard]
    exact Op.world_of_triple (Retry.retryDeadLetter_published _ id admin) rfl
  | resolveDeadLetter id resolution notes admin =>
    refine announced_of_published ?_ fun _ h => h
    rw [run, op, Op.exec_discard]
    exact Op.world_of_triple (Retry.resolve_published _ id resolution notes admin) rfl
  | archiveDeadLetter id admin =>
    refine announced_of_published ?_ fun _ h => h
    rw [run, op, Op.exec_discard]
    exact Op.world_of_triple (Retry.archive_published _ id admin) rfl
  | createOnRamp actor provider amount currency =>
    refine announced_of_published ?_ fun _ h => h
    rw [run, op, Op.exec_discard]
    exact Op.world_of_triple (Reconcile.createOnRamp_published _ actor provider amount currency) rfl
  | completeOnRamp id admin =>
    refine announced_of_published ?_ fun _ h => h
    rw [run, op, Op.exec_discard]
    exact Op.world_of_triple (Reconcile.completeOnRamp_published _ id admin) rfl
  | reconcile lookback =>
    refine announced_of_published ?_ fun _ h => h
    rw [run, op, Op.exec_discard]
    exact Op.world_of_answered (Reconcile.run_published _ lookback) rfl
  | resolveMissing id resolution notes admin =>
    refine announced_of_published ?_ fun _ h => h
    rw [run, op, Op.exec_discard]
    exact Op.world_of_triple (Reconcile.resolve_published _ id resolution notes admin) rfl
  | integrityRun =>
    refine announced_of_published ?_ fun _ h => h
    rw [run, op, Op.exec_discard]
    exact Op.world_of_answered (Integrity.run_published _) rfl
  | clearFlag wallet admin =>
    refine announced_of_published ?_ fun _ h => h
    exact Op.world_of_triple (Integrity.clearFlag_published _ wallet admin) rfl
  | balanceMismatch m =>
    refine announced_of_published ?_ fun _ h => h
    exact Op.world_of_answered (Alerting.balanceMismatch_published _ m) rfl
  | webhookFailure provider externalId cause =>
    refine announced_of_published ?_ fun _ h => h
    exact Op.world_of_answered (Alerting.webhookFailure_published _ provider externalId cause) rfl
  | creditSpike wallet amount =>
    refine announced_of_published ?_ fun _ h => h
    rw [run, op, Op.exec_discard]
    exact Op.world_of_answered (Alerting.creditSpike_published _ wallet amount) rfl
  | crash job cause =>
    refine announced_of_published ?_ fun _ h => h
    exact Op.world_of_answered (Alerting.crash_published _ job cause) rfl
  | acknowledgeAlert id admin =>
    refine announced_of_published ?_ fun _ h => h
    rw [run, op, Op.exec_discard]
    exact Op.world_of_triple (Alerting.acknowledge_published _ id admin) rfl
  | resolveAlert id admin =>
    refine announced_of_published ?_ fun _ h => h
    rw [run, op, Op.exec_discard]
    exact Op.world_of_triple (Alerting.resolve_published _ id admin) rfl
  | advance nanos => exact announced_of_published rfl fun _ h => h

/-- Over a run, the ledger grows by the entries of the changes announced, and the
events published by theirs, in the same order. -/
theorem runAll_mirrors (cs : List Command) (W : World) :
    ∃ muts, Wallets.Appended W.store.ledger muts (runAll cs W).store.ledger ∧
      (runAll cs W).published = W.published ++ muts.map fun m => LedgerEvent.ofEntry m.1 m.2 := by
  induction cs generalizing W with
  | nil => exact ⟨[], .nil _, by simp⟩
  | cons c cs ih =>
    obtain ⟨muts, happ, hpub⟩ := (run_announced c W).mirrors
    obtain ⟨muts', happ', hpub'⟩ := ih (c.run W)
    exact ⟨muts ++ muts', happ.append happ', by simp [hpub', hpub]⟩

end Command

/-- **The observers see exactly the ledger's new entries.** Over every run, the changes
announced are the entries appended to the ledger, in order, one change per entry, each
showing its entry's wallet as it stands right after the entry, and the events published
are theirs, in the same order; each command of the run announces, last, exactly the
changes it appended, and publishes nothing else. -/
theorem ledger_entries_announced (cs : List Command) (W : World) :
    (∃ muts, Wallets.Appended W.store.ledger muts (Command.runAll cs W).store.ledger ∧
      (Command.runAll cs W).published =
        W.published ++ muts.map fun m => LedgerEvent.ofEntry m.1 m.2) ∧
    ∀ i < cs.length, Announced (Command.runAll (cs.take i) W).published
      (Command.runAll (cs.take i) W).store.ledger (Command.runAll (cs.take (i + 1)) W) := by
  refine ⟨Command.runAll_mirrors cs W, fun i hi => ?_⟩
  rw [Command.runAll_take_succ (List.getElem?_eq_getElem hi)]
  exact Command.run_announced _ _

end OnrampLedger
