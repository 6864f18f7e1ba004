import OnrampLedger.Proofs.Payments

/-!
# What one command writes

Every promise about runs of the engine is about four tables: the wallets as the engine
reads them (`Wallet.money`), the ledger, the payment rows and the dead letters. This
module says once, for every command, what it can do to them (`Command.Effect`), and
proves that every run of a command does one of those things (`Command.run_effect`). The
invariants of later modules are then each a case analysis on the command, with no
operation unfolded again.

Most commands keep the four tables (`Store.Kept`). The others, when they do not:

* opening a wallet appends a new row under the next id (`Store.Opened`);
* a credit, a manual credit and a replay post one credit entry (`Wallets.CreditPosted`),
  a debit one debit entry (`Wallets.DebitPosted`), and a transfer its two legs
  (`Wallets.TransferPosted`);
* processing a payment settles it (`Store.Settled`) or records its failure;
* the retry pipeline's steps are the exact triples of `Retry`.

Every command also keeps the settings and takes back no id it drew.

## Main results

* `Command.run_effect` — every command, answered or refused, does what its `Effect`
  says, keeps the settings and draws ids only forward.
-/

namespace OnrampLedger

open Std.Do

set_option mvcgen.warning false

/-- The tables the engine's promises read are as they were: the wallets as the engine
reads them, the ledger, the payment rows and the dead letters. Review flags on wallet
rows may differ. -/
structure Store.Kept (s s' : Store) : Prop where
  wallets : s'.wallets.map Wallet.money = s.wallets.map Wallet.money
  ledger : s'.ledger = s.ledger
  webhooks : s'.webhooks = s.webhooks
  deadLetters : s'.deadLetters = s.deadLetters

theorem Store.Kept.refl (s : Store) : s.Kept s := ⟨rfl, rfl, rfl, rfl⟩

theorem Store.Kept.trans {s₁ s₂ s₃ : Store} (h : s₁.Kept s₂) (h' : s₂.Kept s₃) : s₁.Kept s₃ :=
  ⟨h'.wallets.trans h.wallets, h'.ledger.trans h.ledger, h'.webhooks.trans h.webhooks,
    h'.deadLetters.trans h.deadLetters⟩

theorem Store.Kept.of_records {W W' : World} (h : W'.records = W.records) : W.store.Kept W'.store := by
  obtain ⟨-, hw, hl, hh, hd⟩ := World.records_eq.mp h
  exact ⟨by rw [hw]; rfl, hl, hh, hd⟩

theorem Store.Kept.of_moneyRecords {W W' : World} (h : W'.moneyRecords = W.moneyRecords) :
    W.store.Kept W'.store := by
  simp only [World.moneyRecords, World.records, Prod.mk.injEq, Records.mk.injEq] at h
  exact ⟨h.2, h.1.2.2.1, h.1.2.2.2.1, h.1.2.2.2.2⟩

/-- What opening a wallet for `user` wrote, with `i` ids drawn before: a new row `w`
under the next id, owned by `user`, who had no wallet, with a zero balance, appended to
the wallets. -/
structure Store.Opened (user : String) (i : Nat) (s : Store) (w : Wallet) (s' : Store) : Prop where
  id : w.id = idText (i + 1)
  fresh : s.wallet? w.id = none
  userId : w.userId = user
  named : Text.trim user ≠ ""
  first : s.walletOfUser? user = none
  balance : w.balance = 0
  wallets : s'.wallets = s.wallets ++ [w]
  ledger : s'.ledger = s.ledger
  webhooks : s'.webhooks = s.webhooks
  deadLetters : s'.deadLetters = s.deadLetters

/-- A posting reads the four tables of the store it starts from, and nothing else. -/
theorem Posted.left_congr {s t s' : Store} {w : Wallet} {m : Mutation} (h : Posted s w m s')
    (ht : t.wallets = s.wallets ∧ t.ledger = s.ledger ∧ t.webhooks = s.webhooks ∧
      t.deadLetters = s.deadLetters) : Posted t w m s' := by
  obtain ⟨hw, hl, hh, hd⟩ := ht
  have hfresh : t.entryByKey? m.2.key = none := by
    unfold Store.entryByKey? at *
    rw [hl]
    exact h.fresh
  exact { h with wallets := hw ▸ h.wallets, ledger := hl ▸ h.ledger, fresh := hfresh,
                 webhooks := hh ▸ h.webhooks, deadLetters := hd ▸ h.deadLetters }

/-- A posting is read off the four tables of the store it ends in. -/
theorem Posted.congr {s s₁ s₂ : Store} {w : Wallet} {m : Mutation} (h : Posted s w m s₁)
    (hr : s₂.wallets = s₁.wallets ∧ s₂.ledger = s₁.ledger ∧ s₂.webhooks = s₁.webhooks ∧
      s₂.deadLetters = s₁.deadLetters) : Posted s w m s₂ := by
  obtain ⟨hw, hl, hh, hd⟩ := hr
  exact { h with wallets := hw.trans h.wallets, ledger := hl.trans h.ledger,
                 webhooks := hh.trans h.webhooks, deadLetters := hd.trans h.deadLetters }

namespace Wallets

/-- One credit entry posted, as the request `r` asks, on the wallet it names. -/
def CreditPosted (r : CreditRequest) (s s' : Store) : Prop :=
  ∃ w m, s.wallet? r.wallet = some w ∧ Posted s w m s' ∧ CreditEntry r m.2

/-- The entry a debit request posts: a withdrawal or a trade as the request names it,
by the user, for the request's amount, a positive number of cents, under the request's
key and reference. -/
structure DebitEntry (r : DebitRequest) (e : LedgerEntry) : Prop where
  amount : e.amount = r.amount
  cents : e.amount.IsPositive ∧ e.amount.HasCents
  wallet : e.wallet = r.wallet
  key : e.key = debitKey r
  reference : e.reference = r.reference
  source : e.source = .user
  type : e.type = .withdrawal ∨ e.type = .trading

/-- One debit entry posted, as the request `r` asks, on the wallet it names, which its
caller owns. -/
def DebitPosted (r : DebitRequest) (s s' : Store) : Prop :=
  ∃ w m, s.wallet? r.wallet = some w ∧ w.userId = r.actor.id ∧ Posted s w m s' ∧ DebitEntry r m.2

/-- The two legs of a transfer: a `transfer_out` entry of the source under the key of a
user's debit with reference `transfer:` and the request's reference, and a `transfer_in`
entry of the target under the key of a user's credit whose reference also names the
source; both for the request's amount, a positive number of cents. -/
structure TransferLegs (r : TransferRequest) (out inward : LedgerEntry) : Prop where
  outType : out.type = .transferOut
  inType : inward.type = .transferIn
  outAmount : out.amount = r.amount
  inAmount : inward.amount = r.amount
  cents : r.amount.IsPositive ∧ r.amount.HasCents
  outWallet : out.wallet = r.source
  inWallet : inward.wallet = r.target
  outKey : out.key = (IdempotencyKey.debit "user" ("transfer:" ++ r.reference) r.source).render
  inKey : inward.key =
    (IdempotencyKey.credit "user" ("transfer:" ++ r.source ++ ":" ++ r.reference) r.target).render
  outReference : out.reference = "transfer:" ++ r.reference
  inReference : inward.reference = "transfer:" ++ r.source ++ ":" ++ r.reference
  outSource : out.source = .user
  inSource : inward.source = .user

/-- A transfer's two legs posted, one after the other, between two different wallets of
one currency, the source owned by the caller. -/
def TransferPosted (r : TransferRequest) (s s' : Store) : Prop :=
  ∃ src dst out inward s₁, s.wallet? r.source = some src ∧ s.wallet? r.target = some dst ∧
    r.source ≠ r.target ∧ src.userId = r.actor.id ∧ src.currency = dst.currency ∧
    Posted s src out s₁ ∧ Posted s₁ dst inward s' ∧ TransferLegs r out.2 inward.2

/-- The credit an operator's manual credit makes, under the reference drawn for it. -/
def manualRequest (wallet : String) (amount : Decimal) (reason : String) (admin : Actor)
    (drawn : String) : CreditRequest :=
  ⟨wallet, amount, "deposit", "manual_" ++ drawn, Text.trim reason, "admin", "", false, admin⟩

theorem Credited.effect {r : CreditRequest} {s s' : Store} {res : WalletView × Option Mutation}
    (h : Credited r s res s') : s.Kept s' ∨ CreditPosted r s s' := by
  rcases h with ⟨-, rfl, -⟩ | ⟨w, m, -, hw, hp, he, -⟩
  · exact .inl (.refl _)
  · exact .inr ⟨w, m, hw, hp, he⟩

theorem CreditPosted.congr {r : CreditRequest} {s s₁ s₂ : Store} (h : CreditPosted r s s₁)
    (hr : s₂.wallets = s₁.wallets ∧ s₂.ledger = s₁.ledger ∧ s₂.webhooks = s₁.webhooks ∧
      s₂.deadLetters = s₁.deadLetters) : CreditPosted r s s₂ := by
  obtain ⟨w, m, hw, hp, he⟩ := h
  exact ⟨w, m, hw, hp.congr hr, he⟩

/-- A credit inside a transaction, announced once committed: the announcing writes
none of the four tables. -/
theorem Credited.committed {r : CreditRequest} {S : Store} {st : ServiceSettings} {i : Nat}
    {res : WalletView × Option Mutation} {W₁ W : World}
    (hc : Credited r S res W₁.store ∧ W₁.settings = st ∧ i ≤ W₁.issued)
    (hframe : W.records = W₁.records ∧ W₁.issued ≤ W.issued) :
    W.settings = st ∧ i ≤ W.issued ∧ (S.Kept W.store ∨ CreditPosted r S W.store) := by
  obtain ⟨hs, hw, hl, hh, hd⟩ := World.records_eq.mp hframe.1
  refine ⟨hs.trans hc.2.1, le_trans hc.2.2 hframe.2, ?_⟩
  rcases hc.1.effect with hkept | hposted
  · exact .inl (hkept.trans (.of_records hframe.1))
  · exact .inr (hposted.congr ⟨hw, hl, hh, hd⟩)

theorem credit_effect (W₀ : World) (r : CreditRequest) :
    ⦃fun W => ⌜W = W₀⌝⦄ credit r
    ⦃post⟨fun _ W => ⌜W.settings = W₀.settings ∧ W₀.issued ≤ W.issued ∧
        (W₀.store.Kept W.store ∨ CreditPosted r W₀.store W.store)⌝,
      fun _ W => ⌜W.settings = W₀.settings ∧ W₀.issued ≤ W.issued ∧ W₀.store.Kept W.store⌝⟩⦄ := by
  mvcgen [credit, duplicateView]
  all_goals simp_all +zetaDelta [Store.Kept.refl]
  rename_i hcredited hframe
  exact Credited.committed hcredited hframe

theorem debit_effect (W₀ : World) (r : DebitRequest) :
    ⦃fun W => ⌜W = W₀⌝⦄ debit r
    ⦃post⟨fun _ W => ⌜W.settings = W₀.settings ∧ W₀.issued ≤ W.issued ∧
        (W₀.store.Kept W.store ∨ DebitPosted r W₀.store W.store)⌝,
      fun _ W => ⌜W.settings = W₀.settings ∧ W₀.issued ≤ W.issued ∧ W₀.store.Kept W.store⌝⟩⦄ := by
  mvcgen [debit, replayedFor, duplicateView]
  all_goals simp_all +zetaDelta [Store.Kept.refl]
  -- a withdrawal or a trade posted on the caller's wallet, announced once committed
  all_goals
    rename_i hamount _ _ _ hlock howner _ hposted hframe
    obtain ⟨hs, hw, hl, hh, hd⟩ := World.records_eq.mp hframe.1
    obtain ⟨hp, htype, hamount', hkey, href, hsrc, -, -, hset, -⟩ := hposted
    refine ⟨hs.trans hset, hframe.2.le, .inr ⟨_, _, hlock.2, howner, hp.congr ⟨hw, hl, hh, hd⟩,
      hamount', hamount' ▸ hamount.2.2, ?_, hkey, href, hsrc, by simp [htype]⟩⟩
    rw [hp.wallet, Store.id_of_wallet? hlock.2]

theorem transfer_effect (W₀ : World) (r : TransferRequest) :
    ⦃fun W => ⌜W = W₀⌝⦄ transfer r
    ⦃post⟨fun _ W => ⌜W.settings = W₀.settings ∧ W₀.issued ≤ W.issued ∧
        (W₀.store.Kept W.store ∨ TransferPosted r W₀.store W.store)⌝,
      fun _ W => ⌜W.settings = W₀.settings ∧ W₀.issued ≤ W.issued ∧ W₀.store.Kept W.store⌝⟩⦄ := by
  mvcgen [transfer, replayedFor, duplicateView]
  all_goals simp_all +zetaDelta [Store.Kept.refl]
  -- the two legs posted one after the other, announced once committed
  rename_i hdiff hamount _ _ _ _ hsrc hdst howner hcur _ hout hin hframe
  obtain ⟨hs, hw, hl, hh, hd⟩ := World.records_eq.mp hframe.1
  obtain ⟨hp₁, ht₁, ha₁, hk₁, hr₁, hs₁, -, -, -, -⟩ := hout
  obtain ⟨hp₂, ht₂, ha₂, hk₂, hr₂, hs₂, -, -, hset, -⟩ := hin
  refine ⟨hs.trans hset, by have := hframe.2; omega, .inr ⟨_, _, _, _, _, hsrc.2, hdst.2, hdiff,
    howner, hcur, hp₁, hp₂.congr ⟨hw, hl, hh, hd⟩,
    ⟨ht₁, ht₂, ha₁, ha₂, hamount.2.2, ?_, ?_, hk₁, hk₂, hr₁, hr₂, hs₁, hs₂⟩⟩⟩
  · rw [hp₁.wallet, Store.id_of_wallet? hsrc.2]
  · rw [hp₂.wallet, Store.id_of_wallet? hdst.2]
  -- the credit leg refused: the transaction rolled back, its ids drawn
  rename_i hrolled
  exact hrolled.2.2.1.le

theorem create_effect (W₀ : World) (user currency : String) :
    ⦃fun W => ⌜W = W₀⌝⦄ create user currency
    ⦃post⟨fun _ W => ⌜W.settings = W₀.settings ∧ W₀.issued ≤ W.issued ∧
        (W₀.store.Kept W.store ∨ ∃ w, W₀.store.Opened user W₀.issued w W.store)⌝,
      fun _ W => ⌜W.settings = W₀.settings ∧ W₀.issued ≤ W.issued ∧ W₀.store.Kept W.store⌝⟩⦄ := by
  mvcgen [create]
  all_goals simp_all +zetaDelta [Store.Kept.refl]
  -- the new row, under the id drawn first
  rename_i hnamed hfresh
  exact .inr ⟨_, rfl, hfresh.2, rfl, hnamed, hfresh.1, rfl, rfl, rfl, rfl, rfl⟩

theorem manualCredit_effect (W₀ : World) (wallet : String) (amount : Decimal) (reason : String)
    (admin : Actor) :
    ⦃fun W => ⌜W = W₀⌝⦄ manualCredit wallet amount reason admin
    ⦃post⟨fun _ W => ⌜W.settings = W₀.settings ∧ W₀.issued ≤ W.issued ∧
        (W₀.store.Kept W.store ∨
          CreditPosted (manualRequest wallet amount reason admin (idText (W₀.issued + 1)))
            W₀.store W.store)⌝,
      fun _ W => ⌜W.settings = W₀.settings ∧ W₀.issued ≤ W.issued ∧ W₀.store.Kept W.store⌝⟩⦄ := by
  mvcgen -trivial [manualCredit, credit, duplicateView]
  all_goals simp_all +zetaDelta [Store.Kept.refl]
  -- the credit, under the reference drawn first
  · rename_i hcredited hframe
    obtain ⟨hs, hi, heffect⟩ := Credited.committed hcredited hframe
    exact ⟨hs, by omega, heffect⟩
  -- refused inside the transaction: rolled back, its ids drawn
  · rename_i hrolled
    exact hrolled.2.1.le


end Wallets

namespace Reconcile

/-- What a replay of the missing-webhook case `id` posted: the credit its report would
have made, keyed by the case (`replayCredit`). -/
def Replayed (id : String) (admin : Actor) (s s' : Store) : Prop :=
  ∃ (a : MissingWebhookAlert) (o : OnRamp), a.id = id ∧
    Wallets.CreditPosted (replayCredit a o admin) s s'

theorem replay_effect (W₀ : World) (id : String) (admin : Actor) :
    ⦃fun W => ⌜W = W₀⌝⦄ replay id admin
    ⦃post⟨fun _ W => ⌜W.settings = W₀.settings ∧ W₀.issued ≤ W.issued ∧
        (W₀.store.Kept W.store ∨ Replayed id admin W₀.store W.store)⌝,
      fun _ W => ⌜W.settings = W₀.settings ∧ W₀.issued ≤ W.issued ∧ W₀.store.Kept W.store⌝⟩⦄ := by
  mvcgen [replay, case]
  all_goals simp_all +zetaDelta [Store.Kept.refl, Store.putOnRamp, Store.putMissing]
  -- the credit, after the purchase is completed or found completed already; neither
  -- the purchase nor the case is one of the four tables
  all_goals
    rename_i hcase _ _ _ hcredited hframe
    obtain ⟨hs, hw, hl, hh, hd⟩ := World.records_eq.mp hframe.1
    refine ⟨hs, le_trans hcredited.2.2 hframe.2, ?_⟩
    rcases hcredited.1.effect with hkept | ⟨w, m, hwallet, hp, he⟩
    · exact .inl ⟨hw ▸ hkept.wallets, hl ▸ hkept.ledger, hh ▸ hkept.webhooks,
        hd ▸ hkept.deadLetters⟩
    · have hposted : Posted W₀.store w m _ := hp.left_congr ⟨rfl, rfl, rfl, rfl⟩
      exact .inr ⟨_, _, by simpa using List.find?_some hcase, _, _, hwallet,
        hposted.congr ⟨hw, hl, hh, hd⟩, he⟩

end Reconcile

/-- A settlement is read off the four tables of the store it ends in, and stays one as
more ids are drawn. -/
theorem Store.Settled.congr {ev : PaymentEvent} {prior : Option WebhookEvent}
    {wallet? : Option Wallet} {i i₁ i₂ : Nat} {s s₁ s₂ : Store} {change : Option Mutation}
    (h : s.Settled ev prior wallet? i i₁ change s₁) (hi : i₁ ≤ i₂)
    (hr : s₂.wallets = s₁.wallets ∧ s₂.ledger = s₁.ledger ∧ s₂.webhooks = s₁.webhooks ∧
      s₂.deadLetters = s₁.deadLetters) : s.Settled ev prior wallet? i i₂ change s₂ := by
  obtain ⟨hw, hl, hh, hd⟩ := hr
  obtain ⟨w, hwallet, t, view, hc, hw₁, hl₁, hd₁, k, row, hik, hki, hrow, hh₁⟩ := h
  exact ⟨w, hwallet, t, view, hc, hw.trans hw₁, hl.trans hl₁, hd.trans hd₁, k, row, hik,
    hki.trans hi, hrow, hh.trans hh₁⟩

namespace Intake

/-- What processing a payment wrote when it did not keep the four tables: the payment
was verified and completed, with its ids, and its row, if any, was neither processed
nor dead-lettered; it was then settled (`Store.Settled`), or its failure was recorded
on its row, a new row taking an id drawn during the call. -/
def Processed (ev : PaymentEvent) (verified : Bool) (i i' : Nat) (s s' : Store) : Prop :=
  verified = true ∧ ev.status = completedStatus ∧ ev.externalId ≠ "" ∧ ev.userId ≠ "" ∧
    (∀ p, s.webhookByExternal? ev.externalId = some p →
      p.status ≠ .processed ∧ p.status ≠ .deadLetter) ∧
    ((∃ change, s.Settled ev (s.webhookByExternal? ev.externalId) (s.walletOfUser? ev.userId)
        i i' change s') ∨
      ∃ k message, i < k ∧ (s.webhookByExternal? ev.externalId = none → k ≤ i') ∧
        s.FailureRecorded ev (s.webhookByExternal? ev.externalId) (idText k) message s')

theorem process_effect (W₀ : World) (ev : PaymentEvent) (verified : Bool) :
    ⦃fun W => ⌜W = W₀⌝⦄ process ev verified
    ⦃post⟨fun _ W => ⌜W.settings = W₀.settings ∧ W₀.issued ≤ W.issued ∧
        (W₀.store.Kept W.store ∨ Processed ev verified W₀.issued W.issued W₀.store W.store)⌝,
      fun _ W => ⌜W.settings = W₀.settings ∧ W₀.issued ≤ W.issued ∧
        (W₀.store.Kept W.store ∨ Processed ev verified W₀.issued W.issued W₀.store W.store)⌝⟩⦄ := by
  mvcgen [process]
  all_goals simp_all +zetaDelta [Store.Kept.refl, Processed]
  -- settled: the credit and the row, announced once committed
  case vc4 | vc6 =>
    rename_i hsettled hframe
    obtain ⟨hs, hw, hl, hh, hd⟩ := World.records_eq.mp hframe.1
    exact ⟨hs.trans hsettled.2.1, le_trans hsettled.2.2 hframe.2,
      .inr (.inl ⟨_, hsettled.1.congr hframe.2 ⟨hw, hl, hh, hd⟩⟩)⟩
  -- refused: the settlement rolled back, and the failure recorded on the payment's row
  case vc5 =>
    rename_i hrolled hrecorded
    exact ⟨le_trans hrolled.2.2 hrecorded.2.2,
      .inr (.inr ⟨_, Nat.lt_succ_of_le hrolled.2.2, _, hrecorded.1⟩)⟩
  -- and when there was no row, the new row takes an id drawn during the call
  case vc7 =>
    rename_i hrolled hrecorded
    obtain ⟨hrec, -, hi, hnew⟩ := hrecorded
    exact ⟨le_trans hrolled.2.2 hi,
      .inr (.inr ⟨_, Nat.lt_succ_of_le hrolled.2.2, fun hnone => hnew hnone, _, hrec⟩)⟩

end Intake

/-! ## One command -/

/-- Dropping an operation's answer leaves the world it ends in. -/
theorem Op.exec_discard {α : Type} (x : Op α) (w : World) :
    ((do let _ ← x : Op Unit).exec w).2 = (x.exec w).2 := by
  unfold Op.exec
  simp only [ExceptT.run_bind]
  rcases h : (ExceptT.run x).run w with ⟨_ | _, w'⟩ <;> simp [h] <;> rfl

/-- A run ends in a world with property `R` when each of its two postconditions gives it. -/
theorem Op.world_of_ends {α : Type} {x : Op α} {P : World → Prop} {Q : α → World → Prop}
    {E : Error → World → Prop}
    (h : ⦃fun w => ⌜P w⌝⦄ x ⦃post⟨fun a w => ⌜Q a w⌝, fun e w => ⌜E e w⌝⟩⦄) {w : World}
    (R : World → Prop) (hw : P w) (hQ : ∀ a w, Q a w → R w) (hE : ∀ e w, E e w → R w) :
    R (x.exec w).2 :=
  match x.exec w, Op.ends_of_triple h hw with
  | (.ok a, w'), h => hQ a w' h
  | (.error e, w'), h => hE e w' h

/-- An answer of a run from a world meeting a triple's precondition meets the triple's
answered postcondition. -/
theorem Op.ok_of_triple {α : Type} {x : Op α} {P : World → Prop} {Q : α → World → Prop}
    {E : Error → World → Prop}
    (h : ⦃fun w => ⌜P w⌝⦄ x ⦃post⟨fun a w => ⌜Q a w⌝, fun e w => ⌜E e w⌝⟩⦄) {w : World}
    (hw : P w) {a : α} (ha : (x.exec w).1 = .ok a) : Q a (x.exec w).2 := by
  have hend := Op.ends_of_triple h hw
  revert hend ha
  rcases x.exec w with ⟨_ | b, v⟩
  · intro ha _
    cases ha
  · intro ha hend
    cases ha
    exact hend

/-- A triple naming the one answer and world a run ends in, with no refusal, computes
the run. -/
theorem Op.exec_eq_of_triple {α : Type} {x : Op α} {w w' : World} {a : α}
    (h : ⦃fun v => ⌜v = w⌝⦄ x ⦃post⟨fun b v => ⌜b = a ∧ v = w'⌝, fun _ _ => ⌜False⌝⟩⦄) :
    x.exec w = (.ok a, w') := by
  have hend := Op.ends_of_triple h rfl
  revert hend
  rcases x.exec w with ⟨_ | b, v⟩
  · simp
  · rintro ⟨rfl, rfl⟩
    rfl

/-- A triple of an operation that never refuses: its postcondition holds after every run. -/
theorem Op.world_of_answered {α : Type} {x : Op α} {P R : World → Prop}
    (h : ⦃fun w => ⌜P w⌝⦄ x ⦃post⟨fun _ w => ⌜R w⌝, fun _ _ => ⌜False⌝⟩⦄) {w : World}
    (hw : P w) : R (x.exec w).2 :=
  Op.world_of_ends h R hw (fun _ _ h => h) (fun _ _ h => h.elim)

namespace Command

/-- What a command may do to the four tables, and to the dead letters' sequence of
operator actions: each command keeps them, or does its operation's one kind of write. -/
def Effect : Command → World → World → Prop
  | .createWallet user _, W, W' =>
      W.store.Kept W'.store ∨ ∃ w, W.store.Opened user W.issued w W'.store
  | .credit r, W, W' => W.store.Kept W'.store ∨ Wallets.CreditPosted r W.store W'.store
  | .debit r, W, W' => W.store.Kept W'.store ∨ Wallets.DebitPosted r W.store W'.store
  | .transfer r, W, W' => W.store.Kept W'.store ∨ Wallets.TransferPosted r W.store W'.store
  | .manualCredit wallet amount reason admin, W, W' =>
      W.store.Kept W'.store ∨
        Wallets.CreditPosted (Wallets.manualRequest wallet amount reason admin
          (idText (W.issued + 1))) W.store W'.store
  | .process ev verified, W, W' =>
      W.store.Kept W'.store ∨ Intake.Processed ev verified W.issued W'.issued W.store W'.store
  | .retryCycle, W, W' => Retry.Cycled W (Retry.due W.settings.retryBatch W.store.webhooks) W'
  | .retryDeadLetter id admin, W, W' => W' = W ∨ Retry.SentBack id admin W W'
  | .resolveDeadLetter id _ notes admin, W, W' => W' = W ∨ Retry.Resolved id notes admin W W'
  | .archiveDeadLetter id _, W, W' => W' = W ∨ Retry.Archived id W W'
  | .replayMissing id admin, W, W' =>
      W.store.Kept W'.store ∨ Reconcile.Replayed id admin W.store W'.store
  | _, W, W' => W.store.Kept W'.store

/-- One step of the engine: the command's effect, with the settings kept and ids drawn
only forward. -/
def Step (c : Command) (W W' : World) : Prop :=
  c.Effect W W' ∧ W'.settings = W.settings ∧ W.issued ≤ W'.issued

theorem step_of_records {c : Command} {W W' : World} (hc : c.Effect W W' = W.store.Kept W'.store)
    (h : W'.records = W.records ∧ W.issued ≤ W'.issued) : c.Step W W' :=
  ⟨hc ▸ .of_records h.1, (World.records_eq.mp h.1).1, h.2⟩

theorem step_of_moneyRecords {c : Command} {W W' : World}
    (hc : c.Effect W W' = W.store.Kept W'.store)
    (h : W'.moneyRecords = W.moneyRecords ∧ W.issued ≤ W'.issued) : c.Step W W' := by
  refine ⟨hc ▸ .of_moneyRecords h.1, ?_, h.2⟩
  simp only [World.moneyRecords, World.records, Prod.mk.injEq, Records.mk.injEq] at h
  exact h.1.1.1

/-- A step of an operation whose effect triple keeps the four tables on a refusal. -/
theorem step_of_effect {α : Type} {x : Op α} {c : Command} {W : World}
    {X : World → Prop} (hc : ∀ W', c.Effect W W' = (W.store.Kept W'.store ∨ X W'))
    (h : ⦃fun W' => ⌜W' = W⌝⦄ x
      ⦃post⟨fun _ W' => ⌜W'.settings = W.settings ∧ W.issued ≤ W'.issued ∧
          (W.store.Kept W'.store ∨ X W')⌝,
        fun _ W' => ⌜W'.settings = W.settings ∧ W.issued ≤ W'.issued ∧
          W.store.Kept W'.store⌝⟩⦄) :
    c.Step W (x.exec W).2 :=
  Op.world_of_ends h (c.Step W) rfl (fun _ _ ⟨hs, hi, h⟩ => ⟨hc _ ▸ h, hs, hi⟩)
    (fun _ _ ⟨hs, hi, h⟩ => ⟨hc _ ▸ .inl h, hs, hi⟩)

/-- A step that writes only the store. -/
theorem step_of_store {c : Command} {W W' : World} (he : c.Effect W W')
    (hs : ∃ s, W' = { W with store := s }) : c.Step W W' := by
  obtain ⟨s, rfl⟩ := hs
  exact ⟨he, rfl, le_rfl⟩

/-- **Every command steps as its `Effect` says**, answered or refused: it keeps the
settings and draws ids only forward. -/
theorem run_step (c : Command) (W : World) : c.Step W (c.run W) := by
  cases c with
  | createWallet user currency =>
    rw [run, op, Op.exec_discard]
    exact step_of_effect (fun _ => rfl) (Wallets.create_effect W user currency)
  | credit r =>
    rw [run, op, Op.exec_discard]
    exact step_of_effect (fun _ => rfl) (Wallets.credit_effect W r)
  | debit r =>
    rw [run, op, Op.exec_discard]
    exact step_of_effect (fun _ => rfl) (Wallets.debit_effect W r)
  | transfer r =>
    rw [run, op, Op.exec_discard]
    exact step_of_effect (fun _ => rfl) (Wallets.transfer_effect W r)
  | manualCredit wallet amount reason admin =>
    rw [run, op, Op.exec_discard]
    exact step_of_effect (fun _ => rfl) (Wallets.manualCredit_effect W wallet amount reason admin)
  | replayMissing id admin =>
    rw [run, op, Op.exec_discard]
    exact step_of_effect (fun _ => rfl) (Reconcile.replay_effect W id admin)
  | process ev verified =>
    rw [run, op, Op.exec_discard]
    exact Op.world_of_ends (Intake.process_effect W ev verified) (Step (.process ev verified) W)
      rfl (fun _ _ ⟨hs, hi, h⟩ => ⟨h, hs, hi⟩) (fun _ _ ⟨hs, hi, h⟩ => ⟨h, hs, hi⟩)
  | retryCycle =>
    rw [run, op, Op.exec_discard]
    refine Op.world_of_ends (Retry.cycle_spec W) (Step .retryCycle W) rfl (fun _ W' h => ?_)
      (fun _ _ h => h.elim)
    obtain ⟨hs, -, added, -, -, hissued, -⟩ := id h
    exact ⟨h, hs, by omega⟩
  -- the operators' actions on dead letters write only the store, or nothing
  | retryDeadLetter id admin =>
    rw [run, op, Op.exec_discard]
    refine Op.world_of_ends (Retry.retryDeadLetter_spec W id admin)
      (Step (.retryDeadLetter id admin) W) rfl (fun _ _ h => step_of_store (.inr h) ?_)
      (fun _ _ h => step_of_store (.inl h) ⟨_, h⟩)
    obtain ⟨_, _, _, _, _, _, h⟩ := h
    exact ⟨_, h⟩
  | resolveDeadLetter id resolution notes admin =>
    rw [run, op, Op.exec_discard]
    refine Op.world_of_ends (Retry.resolve_spec W id resolution notes admin)
      (Step (.resolveDeadLetter id resolution notes admin) W) rfl
      (fun _ _ h => step_of_store (.inr h) ?_) (fun _ _ h => step_of_store (.inl h) ⟨_, h⟩)
    obtain ⟨_, _, _, _, h⟩ := h
    exact ⟨_, h⟩
  | archiveDeadLetter id admin =>
    rw [run, op, Op.exec_discard]
    refine Op.world_of_ends (Retry.archive_spec W id admin) (Step (.archiveDeadLetter id admin) W)
      rfl (fun _ _ h => step_of_store (.inr h) ?_) (fun _ _ h => step_of_store (.inl h) ⟨_, h⟩)
    obtain ⟨_, _, _, h⟩ := h
    exact ⟨_, h⟩
  -- the rest write none of the four tables
  | createOnRamp actor provider amount currency =>
    rw [run, op, Op.exec_discard]
    exact step_of_records rfl (Op.world_of_triple
      (Reconcile.createOnRamp_frame W.records W.issued actor provider amount currency) ⟨rfl, le_rfl⟩)
  | completeOnRamp id admin =>
    rw [run, op, Op.exec_discard]
    exact step_of_records rfl (Op.world_of_triple
      (Reconcile.completeOnRamp_frame W.records W.issued id admin) ⟨rfl, le_rfl⟩)
  | reconcile lookback =>
    rw [run, op, Op.exec_discard]
    exact step_of_records rfl (Op.world_of_answered
      (Reconcile.run_frame W.records W.issued lookback) ⟨rfl, le_rfl⟩)
  | resolveMissing id resolution notes admin =>
    rw [run, op, Op.exec_discard]
    exact step_of_records rfl (Op.world_of_triple
      (Reconcile.resolve_frame W.records W.issued id resolution notes admin) ⟨rfl, le_rfl⟩)
  | integrityRun =>
    rw [run, op, Op.exec_discard]
    exact step_of_moneyRecords rfl (Op.world_of_answered
      (Integrity.run_frame W.issued W.moneyRecords) ⟨rfl, le_rfl⟩)
  | clearFlag wallet admin =>
    rw [run, op]
    exact step_of_moneyRecords rfl (Op.world_of_triple
      (Integrity.clearFlag_frame W.issued W.moneyRecords wallet admin) ⟨rfl, le_rfl⟩)
  | balanceMismatch m =>
    rw [run, op]
    exact step_of_records rfl (Op.world_of_answered
      (Alerting.balanceMismatch_frame W.records W.issued m) ⟨rfl, le_rfl⟩)
  | webhookFailure provider externalId cause =>
    rw [run, op]
    refine Op.world_of_ends (Alerting.webhookFailure_spec W provider externalId cause)
      (Step (.webhookFailure provider externalId cause) W) rfl
      (fun _ _ ⟨hstore, hs, hi⟩ => ⟨?_, hs, hi⟩) (fun _ _ h => h.elim)
    show W.store.Kept _
    rcases hstore with h | ⟨a, -, h⟩ <;> rw [h] <;> exact ⟨rfl, rfl, rfl, rfl⟩
  | creditSpike wallet amount =>
    rw [run, op, Op.exec_discard]
    exact step_of_records rfl (Op.world_of_answered
      (Alerting.creditSpike_frame W.records W.issued wallet amount) ⟨rfl, le_rfl⟩)
  | crash job cause =>
    rw [run, op]
    exact step_of_records rfl (Op.world_of_answered
      (Alerting.crash_frame W.records W.issued job cause) ⟨rfl, le_rfl⟩)
  | acknowledgeAlert id admin =>
    rw [run, op, Op.exec_discard]
    exact step_of_records rfl (Op.world_of_triple
      (Alerting.acknowledge_frame W.records W.issued id admin) ⟨rfl, le_rfl⟩)
  | resolveAlert id admin =>
    rw [run, op, Op.exec_discard]
    exact step_of_records rfl (Op.world_of_triple
      (Alerting.resolve_frame W.records W.issued id admin) ⟨rfl, le_rfl⟩)
  | advance nanos => exact ⟨.refl _, rfl, le_rfl⟩

end Command

/-! ## What joins the ledger

The ledger only grows. Each posting appends the one entry its request asks for, and a
transfer its two legs, in order. -/

theorem Wallets.CreditPosted.ledger {r : CreditRequest} {s s' : Store}
    (h : Wallets.CreditPosted r s s') : ∃ e, Wallets.CreditEntry r e ∧ s'.ledger = s.ledger ++ [e] := by
  obtain ⟨_, m, -, hp, he⟩ := h
  exact ⟨m.2, he, hp.ledger⟩

theorem Wallets.DebitPosted.ledger {r : DebitRequest} {s s' : Store}
    (h : Wallets.DebitPosted r s s') : ∃ e, Wallets.DebitEntry r e ∧ s'.ledger = s.ledger ++ [e] := by
  obtain ⟨_, m, -, -, hp, he⟩ := h
  exact ⟨m.2, he, hp.ledger⟩

theorem Wallets.TransferPosted.ledger {r : TransferRequest} {s s' : Store}
    (h : Wallets.TransferPosted r s s') :
    ∃ out inward, Wallets.TransferLegs r out inward ∧ s'.ledger = s.ledger ++ [out, inward] := by
  obtain ⟨_, _, out, inward, _, -, -, -, -, -, hout, hin, hlegs⟩ := h
  exact ⟨out.2, inward.2, hlegs, by rw [hin.ledger, hout.ledger, List.append_assoc]; rfl⟩

/-- A settlement appends the credit's entry for the user's wallet, or nothing when the
credit's key was on an entry already. -/
theorem Store.Settled.ledger {ev : PaymentEvent} {prior : Option WebhookEvent}
    {wallet? : Option Wallet} {i i' : Nat} {s s' : Store} {change : Option Mutation}
    (h : s.Settled ev prior wallet? i i' change s') :
    s'.ledger = s.ledger ∨ ∃ w e, wallet? = some w ∧
      Wallets.CreditEntry (Intake.creditFor ev w.id) e ∧ s'.ledger = s.ledger ++ [e] := by
  obtain ⟨w, hw, s₁, view, hc, -, hl, -⟩ := h
  rcases hc.effect with hkept | hposted
  · exact .inl (hl.trans hkept.ledger)
  · obtain ⟨e, he, hl₁⟩ := hposted.ledger
    exact .inr ⟨w, e, hw, he, hl.trans hl₁⟩

/-- Processing a payment appends its credit's entry, or nothing. -/
theorem Intake.Processed.ledger {ev : PaymentEvent} {verified : Bool} {i i' : Nat} {s s' : Store}
    (h : Processed ev verified i i' s s') :
    s'.ledger = s.ledger ∨ ∃ w e, s.walletOfUser? ev.userId = some w ∧
      Wallets.CreditEntry (Intake.creditFor ev w.id) e ∧ s'.ledger = s.ledger ++ [e] := by
  obtain ⟨-, -, -, -, -, ⟨_, hsettled⟩ | ⟨_, _, -, -, hrecorded⟩⟩ := h
  · exact hsettled.ledger
  · exact .inl hrecorded.written.money.2

namespace Command

/-- The entries a command may append to the ledger of world `W`: none, or the entries
its kind of write posts as its request asks. A transfer's two legs come together, on
two different wallets of one currency. -/
def Appends : Command → World → List LedgerEntry → Prop
  | .credit r, _, es => es = [] ∨ ∃ e, Wallets.CreditEntry r e ∧ es = [e]
  | .manualCredit wallet amount reason admin, W, es => es = [] ∨ ∃ e,
      Wallets.CreditEntry (Wallets.manualRequest wallet amount reason admin
        (idText (W.issued + 1))) e ∧ es = [e]
  | .debit r, _, es => es = [] ∨ ∃ e, Wallets.DebitEntry r e ∧ es = [e]
  | .transfer r, W, es => es = [] ∨ ∃ out inward, Wallets.TransferLegs r out inward ∧
      (∃ src dst, W.store.wallet? r.source = some src ∧ W.store.wallet? r.target = some dst ∧
        r.source ≠ r.target ∧ src.currency = dst.currency) ∧ es = [out, inward]
  | .process ev _, W, es => es = [] ∨ ∃ w e, W.store.walletOfUser? ev.userId = some w ∧
      Wallets.CreditEntry (Intake.creditFor ev w.id) e ∧ es = [e]
  | .replayMissing id admin, _, es => es = [] ∨ ∃ a o e, a.id = id ∧
      Wallets.CreditEntry (Reconcile.replayCredit a o admin) e ∧ es = [e]
  | _, _, es => es = []

/-- **The ledger only grows**, by the entries the step's command may append. -/
theorem Step.appends {c : Command} {W W' : World} (h : c.Step W W') :
    ∃ es, c.Appends W es ∧ W'.store.ledger = W.store.ledger ++ es := by
  obtain ⟨heffect, -, -⟩ := h
  have kept {s s' : Store} (hk : s.Kept s') : s'.ledger = s.ledger ++ [] := by
    rw [hk.ledger, List.append_nil]
  cases c
  case createWallet =>
    rcases heffect with hk | ⟨_, hopened⟩
    exacts [⟨[], rfl, kept hk⟩, ⟨[], rfl, by rw [hopened.ledger, List.append_nil]⟩]
  case credit | manualCredit =>
    rcases heffect with hk | hposted
    · exact ⟨[], .inl rfl, kept hk⟩
    · obtain ⟨e, he, hl⟩ := hposted.ledger
      exact ⟨[e], .inr ⟨e, he, rfl⟩, hl⟩
  case debit =>
    rcases heffect with hk | hposted
    · exact ⟨[], .inl rfl, kept hk⟩
    · obtain ⟨e, he, hl⟩ := hposted.ledger
      exact ⟨[e], .inr ⟨e, he, rfl⟩, hl⟩
  case transfer =>
    rcases heffect with hk | hposted
    · exact ⟨[], .inl rfl, kept hk⟩
    · obtain ⟨src, dst, out, inward, _, hsrc, hdst, hdiff, -, hcur, hout, hin, hlegs⟩ := hposted
      refine ⟨[out.2, inward.2], .inr ⟨out.2, inward.2, hlegs, ⟨src, dst, hsrc, hdst, hdiff, hcur⟩,
        rfl⟩, ?_⟩
      rw [hin.ledger, hout.ledger, List.append_assoc]
      rfl
  case process =>
    rcases heffect with hk | hprocessed
    · exact ⟨[], .inl rfl, kept hk⟩
    · rcases hprocessed.ledger with hl | ⟨w, e, hw, he, hl⟩
      exacts [⟨[], .inl rfl, by rw [hl, List.append_nil]⟩, ⟨[e], .inr ⟨w, e, hw, he, rfl⟩, hl⟩]
  case replayMissing =>
    rcases heffect with hk | ⟨a, o, ha, hposted⟩
    · exact ⟨[], .inl rfl, kept hk⟩
    · obtain ⟨e, he, hl⟩ := hposted.ledger
      exact ⟨[e], .inr ⟨a, o, e, ha, he, rfl⟩, hl⟩
  case retryCycle =>
    obtain ⟨-, -, _, hstore, -⟩ := heffect
    exact ⟨[], rfl, by rw [hstore, List.append_nil]⟩
  case retryDeadLetter => rcases heffect with rfl | ⟨_, _, _, _, _, _, rfl⟩ <;> exact ⟨[], rfl, (List.append_nil _).symm⟩
  case resolveDeadLetter => rcases heffect with rfl | ⟨_, _, _, _, rfl⟩ <;> exact ⟨[], rfl, (List.append_nil _).symm⟩
  case archiveDeadLetter => rcases heffect with rfl | ⟨_, _, _, rfl⟩ <;> exact ⟨[], rfl, (List.append_nil _).symm⟩
  all_goals exact ⟨[], rfl, kept heffect⟩

/-- **Invariants of the wallets and the ledger**: a property of stores that keeps under
the four tables kept, under changes to other tables only, and under each kind of
posting and opening, keeps under every step. -/
theorem Step.preserves {P : Store → Prop}
    (kept : ∀ {s s' : Store}, P s → s.Kept s' → P s')
    (tables : ∀ {s s' : Store}, P s → s'.wallets = s.wallets → s'.ledger = s.ledger → P s')
    (opened : ∀ {user : String} {i : Nat} {s w s'}, P s → s.Opened user i w s' → P s')
    (credited : ∀ {r s s'}, P s → Wallets.CreditPosted r s s' → P s')
    (debited : ∀ {r s s'}, P s → Wallets.DebitPosted r s s' → P s')
    (transferred : ∀ {r s s'}, P s → Wallets.TransferPosted r s s' → P s')
    {c : Command} {W W' : World} (h : c.Step W W') (hP : P W.store) : P W'.store := by
  obtain ⟨heffect, -, -⟩ := h
  cases c
  case createWallet =>
    rcases heffect with hk | ⟨_, hopened⟩
    exacts [kept hP hk, opened hP hopened]
  case credit | manualCredit =>
    rcases heffect with hk | hposted
    exacts [kept hP hk, credited hP hposted]
  case debit =>
    rcases heffect with hk | hposted
    exacts [kept hP hk, debited hP hposted]
  case transfer =>
    rcases heffect with hk | hposted
    exacts [kept hP hk, transferred hP hposted]
  case replayMissing =>
    rcases heffect with hk | ⟨_, _, -, hposted⟩
    exacts [kept hP hk, credited hP hposted]
  -- a payment settled through its credit, or its failure recorded on its row
  case process =>
    rcases heffect with hk | ⟨-, -, -, -, -, ⟨_, hsettled⟩ | ⟨_, _, -, -, hrecorded⟩⟩
    · exact kept hP hk
    · obtain ⟨w, -, s₁, view, hc, hw, hl, -⟩ := hsettled
      have hP₁ : P s₁ := by
        rcases hc.effect with hk | hposted
        exacts [kept hP hk, credited hP hposted]
      exact tables hP₁ hw hl
    · obtain ⟨hw, hl⟩ := hrecorded.written.money
      exact tables hP hw hl
  -- the retry pipeline writes payment rows and dead letters only
  case retryCycle =>
    obtain ⟨-, -, _, hstore, -⟩ := heffect
    exact tables hP (by rw [hstore]) (by rw [hstore])
  case retryDeadLetter =>
    rcases heffect with rfl | ⟨_, _, _, _, _, _, rfl⟩
    exacts [hP, tables hP rfl rfl]
  case resolveDeadLetter =>
    rcases heffect with rfl | ⟨_, _, _, _, rfl⟩
    exacts [hP, tables hP rfl rfl]
  case archiveDeadLetter =>
    rcases heffect with rfl | ⟨_, _, _, rfl⟩
    exacts [hP, tables hP rfl rfl]
  all_goals exact kept hP heffect

/-- The world after the first `i + 1` commands is the `i`-th command run on the world
after the first `i`. -/
theorem runAll_take_succ {cs : List Command} {i : Nat} {c : Command} (hc : cs[i]? = some c)
    (W : World) : runAll (cs.take (i + 1)) W = c.run (runAll (cs.take i) W) := by
  rw [List.take_add_one, hc, runAll_append]
  rfl

/-- **Every entry of a run's ledger was appended by one of its commands**: started
from an empty ledger, each entry is among those the `i`-th command appended, as that
command may append them. -/
theorem appended_of_mem {cs : List Command} {W : World} (hW : W.store.ledger = [])
    {e : LedgerEntry} (he : e ∈ (runAll cs W).store.ledger) :
    ∃ i c es, cs[i]? = some c ∧ c.Appends (runAll (cs.take i) W) es ∧
      (runAll (cs.take (i + 1)) W).store.ledger = (runAll (cs.take i) W).store.ledger ++ es ∧
      e ∈ es := by
  -- induction from the end of the run: the last command appended `e`, or one before it
  induction cs using List.reverseRecOn with
  | nil => simp [hW] at he
  | append_singleton cs c ih =>
    rw [runAll_append] at he
    obtain ⟨es, happ, hes⟩ := (run_step c (runAll cs W)).appends
    rw [runAll_cons, runAll_nil, hes] at he
    rcases List.mem_append.mp he with hold | hnew
    · obtain ⟨i, d, ds, hd, hdapp, hds, hmem⟩ := ih hold
      have hi : i < cs.length := (List.getElem?_eq_some_iff.mp hd).1
      refine ⟨i, d, ds, by rw [List.getElem?_append_left hi]; exact hd, ?_, ?_, hmem⟩
      · rwa [List.take_append_of_le_length hi.le]
      · rwa [List.take_append_of_le_length hi.le, List.take_append_of_le_length hi]
    · have hall : (cs ++ [c]).take (cs.length + 1) = cs ++ [c] := List.take_of_length_le (by simp)
      have hcs : (cs ++ [c]).take cs.length = cs := by simp
      refine ⟨cs.length, c, es, by simp, by rwa [hcs], ?_, hnew⟩
      rw [hall, hcs, runAll_append]
      exact hes

end Command

end OnrampLedger
