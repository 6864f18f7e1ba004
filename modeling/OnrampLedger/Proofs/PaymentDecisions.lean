import OnrampLedger.Proofs.CaseSettlement

/-!
# What processing a payment decides

Processing a provider's payment is a table of decisions, read in order. An unverified
report is refused as forbidden, a payment that is not completed is passed over, and one
without its id or its user is refused as an invalid argument. A payment whose row is
processed already is answered as a repeat, and one whose row waits in the dead letters
is passed over. Each of these answers leaves the world exactly as it was.

Every other payment is settled in one transaction: the user's wallet is credited, the
payment's row is written processed (a new row, or the earlier one taken up again with
its error cleared), and the first purchase of that wallet, provider and amount still
pending is completed, and no other purchase is touched.

The credit moves the wallet's balance by the payment's amount and is refused when that
would leave the balance below zero. A balance of the service's own making is never
negative, but one overwritten from outside can be, and then a payment too small to lift
it is refused with the wallet's balance and the amount, and its failure is recorded on
its row. The settlement below therefore asks that the balance plus the amount be not
below zero.

## Main results

* `Intake.completePurchase_exact` — completing a purchase completes the first one
  pending of the wallet, provider and amount, if there is one, and nothing else.
* `Intake.settle_exact` — a settlement that passes its checks answers the credit, the
  row and the purchase, and writes nothing else.
* `payment_decision_table` — the whole table, for every world and payment.
* `payment_refused_on_negative_balance` — a payment is refused on a wallet whose
  balance was overwritten below zero.
-/

namespace OnrampLedger

open Std.Do

set_option mvcgen.warning false

/-! ## The purchase a payment completes -/

namespace Intake

/-- A purchase that a payment to `wallet` through `provider` for `amount` may complete:
pending, of that wallet and provider, for the same amount as a number. -/
def Pays (wallet provider : String) (amount : Decimal) (o : OnRamp) : Prop :=
  o.walletId = wallet ∧ o.provider = provider ∧ o.completedAt = none ∧
    o.amount.value = amount.value

/-- The test the purchases are searched with is `Pays`. -/
theorem pays_iff (wallet provider : String) (amount : Decimal) (o : OnRamp) :
    (o.walletId == wallet && o.provider == provider && !o.completed && o.amount == amount) = true ↔
      Pays wallet provider amount o := by
  simp [Pays, OnRamp.completed, Decimal.value_inj, and_assoc]

/-- The purchases `O'` left when the first purchase of `O` that the payment may complete
is completed at `now`: with none, `O` as it was; otherwise that purchase, and no other,
completed in its place. -/
def CompletesFirst (wallet provider : String) (amount : Decimal) (now : Instant)
    (O O' : List OnRamp) : Prop :=
  ((∀ o ∈ O, ¬ Pays wallet provider amount o) ∧ O' = O) ∨
    ∃ as o bs, O = as ++ o :: bs ∧ Pays wallet provider amount o ∧
      (∀ a ∈ as, ¬ Pays wallet provider amount a) ∧
      O' = as ++ { o with completedAt := some now } :: bs

end Intake

/-- Writing back over the first row with a property, in a table where it follows rows
without it, puts the new row in its place. -/
theorem replaceFirst_append_of_first {α : Type} {p : α → Bool} {as bs : List α} {x y : α}
    (has : ∀ a ∈ as, p a = false) (hy : p y = true) :
    replaceFirst p x (as ++ y :: bs) = as ++ x :: bs := by
  induction as with
  | nil => simp [replaceFirst, hy]
  | cons a as ih =>
    simp only [List.mem_cons, forall_eq_or_imp] at has
    simp [replaceFirst, has.1, ih has.2]

namespace Intake

/-- The first purchase found by the search, when the purchases have distinct ids, is
completed in its place. -/
theorem completesFirst_of_find? {wallet provider : String} {amount : Decimal} {now : Instant}
    {O : List OnRamp} {o : OnRamp} (hids : (O.map (·.id)).Nodup)
    (h : O.find? (fun o => o.walletId == wallet && o.provider == provider && !o.completed &&
      o.amount == amount) = some o) :
    CompletesFirst wallet provider amount now O
      (replaceFirst (·.id == o.id) { o with completedAt := some now } O) := by
  obtain ⟨hpays, as, bs, rfl, hfirst⟩ := List.find?_eq_some_iff_append.mp h
  -- no purchase before the one found has its id, so the write-back lands on it
  have hnot : ∀ a ∈ as, (a.id == o.id) = false := by
    intro a ha
    have hdisjoint := (List.nodup_append.mp (List.map_append ▸ hids)).2.2
    simpa using hdisjoint a.id (List.mem_map_of_mem ha) o.id (by simp)
  refine .inr ⟨as, o, bs, rfl, (pays_iff _ _ _ _).mp hpays, fun a ha => ?_, ?_⟩
  · intro hpays
    simpa [(pays_iff _ _ _ _).mpr hpays] using hfirst a ha
  · exact replaceFirst_append_of_first hnot (by simp)

/-- With no purchase found, the purchases stay as they were. -/
theorem completesFirst_of_find?_none {wallet provider : String} {amount : Decimal}
    {now : Instant} {O : List OnRamp}
    (h : O.find? (fun o => o.walletId == wallet && o.provider == provider && !o.completed &&
      o.amount == amount) = none) :
    CompletesFirst wallet provider amount now O O :=
  .inl ⟨fun o ho hpays => by simpa [(pays_iff _ _ _ _).mpr hpays] using List.find?_eq_none.mp h o ho,
    rfl⟩

/-- **Completing a purchase**, when the purchases have distinct ids: the first purchase
pending of the wallet, provider and amount is completed at `now`, if there is one, and
nothing else in the world changes. -/
theorem completePurchase_exact (W₀ : World) (wallet provider : String) (amount : Decimal)
    (now : Instant) (hids : (W₀.store.onRamps.map (·.id)).Nodup) :
    ⦃fun W => ⌜W = W₀⌝⦄ completePurchase wallet provider amount now
    ⦃post⟨fun _ W => ⌜CompletesFirst wallet provider amount now W₀.store.onRamps W.store.onRamps ∧
        W = { W₀ with store := { W₀.store with onRamps := W.store.onRamps } }⌝,
      fun _ _ => ⌜False⌝⟩⦄ := by
  mvcgen [completePurchase, -completePurchase_frame]
  case vc1.h_1 =>
    rename_i hW o hfound _
    subst hW
    exact ⟨completesFirst_of_find? (o := o) hids hfound, rfl⟩
  case vc2.h_2 =>
    rename_i hW hnone
    subst hW
    exact ⟨completesFirst_of_find?_none hnone, rfl⟩

end Intake

/-! ## The credit -/

namespace Wallets

/-- A credit inside a transaction keeps the clock. -/
theorem creditWithin_clock (t : Instant) (r : CreditRequest) :
    ⦃fun W => ⌜W.now = t⌝⦄ creditWithin r
    ⦃post⟨fun _ W => ⌜W.now = t⌝, fun _ W => ⌜W.now = t⌝⟩⦄ := by
  mvcgen [creditWithin, -creditWithin_spec, authorizeCredit, apply, -apply_spec, lock, -lock_spec,
    amountOf, -amountOf_spec]

/-- A credit inside a transaction that passes its checks is answered: what `Credited`
says of the wallets and the ledger, every other table and the clock kept, and ids drawn
only forward. -/
theorem creditWithin_answered (W₀ : World) (r : CreditRequest) (hok : CreditWithinOk r W₀.store) :
    ⦃fun W => ⌜W = W₀⌝⦄ creditWithin r
    ⦃post⟨fun res W => ⌜Credited r W₀.store res W.store ∧
        { W.store with wallets := [], ledger := [] } = { W₀.store with wallets := [], ledger := [] } ∧
        W.now = W₀.now ∧ W₀.issued ≤ W.issued⌝,
      fun _ _ => ⌜False⌝⟩⦄ := by
  apply Triple.entails_wp_of_pre_post (Triple.and _ (Triple.and _ (creditWithin_spec W₀ r)
    (creditWithin_exact W₀ r)) (creditWithin_clock W₀.now r))
  · intro W
    simp +contextual
  · constructor
    · intro res W
      simp +contextual
    · simp [ExceptConds.entails, hok]

end Wallets

/-! ## The settlement -/

/-- A store that has every table of `s` but the wallets and the ledger. -/
theorem Store.tables_eq {s s' : Store}
    (h : { s' with wallets := [], ledger := [] } = { s with wallets := [], ledger := [] }) :
    s'.webhooks = s.webhooks ∧ s'.onRamps = s.onRamps ∧ s'.missing = s.missing ∧
      s'.deadLetters = s.deadLetters ∧ s'.alerts = s.alerts := by
  simpa using h

namespace Intake

/-- The row a settled payment is written on: the earlier row taken up again, processed
with the entry and the wallet, its error cleared and updated at `now`; or a new row
under the id `fresh`, processed, with no attempts. -/
def paidRow (ev : PaymentEvent) (prior : Option WebhookEvent) (fresh wallet entryId : String)
    (now : Instant) : WebhookEvent :=
  match prior with
  | none => ⟨fresh, ev.provider, ev.externalId, ev.payloadHash, .processed, 0, none, none, entryId,
      wallet, "", now, now⟩
  | some p =>
    { p with errorMessage := "", status := .processed, transactionId := entryId, walletId := wallet,
             updatedAt := now }

/-- **A settlement that passes its checks**, when the purchases have distinct ids: it
answers the processed row and the credit's view, credits the wallet (`Credited`), writes
the payment's row processed (`paidRow`) under an id drawn now or over its earlier row,
completes the first purchase the payment may complete (`CompletesFirst`), and writes no
other table. -/
theorem settle_exact (W₀ : World) (ev : PaymentEvent) (prior : Option WebhookEvent)
    (wallet? : Option Wallet) (w : Wallet) (hw : wallet? = some w)
    (hcur : (ev.currency == "" || Text.equalFold ev.currency w.currency) = true)
    (hok : Wallets.CreditWithinOk (creditFor ev w.id) W₀.store)
    (hids : (W₀.store.onRamps.map (·.id)).Nodup) :
    ⦃fun W => ⌜W = W₀⌝⦄ settle ev prior wallet?
    ⦃post⟨fun res W => ⌜∃ view s₁ k, W₀.issued < k ∧
        res.1 = ⟨"processed", (prior.map (·.id)).getD (idText k), some view⟩ ∧
        Wallets.Credited (creditFor ev w.id) W₀.store (view, res.2) s₁ ∧
        CompletesFirst w.id ev.provider ev.amount W₀.now W₀.store.onRamps W.store.onRamps ∧
        W.store = { W₀.store with
          wallets := s₁.wallets, ledger := s₁.ledger,
          webhooks := W₀.store.webhooksWith prior (paidRow ev prior (idText k) w.id view.entryId W₀.now),
          onRamps := W.store.onRamps }⌝,
      fun _ _ => ⌜False⌝⟩⦄ := by
  subst hw
  have hcredit := Wallets.creditWithin_answered W₀ (creditFor ev w.id) hok
  -- with the earlier row fixed, both writes of the row leave goals of one shape
  cases prior <;> mvcgen [settle, -settle_spec, -Wallets.creditWithin_spec, hcredit,
    -completePurchase_frame, completePurchase_exact]
  case vc3.none.isTrue.post.success.post.success | vc3.some.isTrue.post.success.post.success =>
    rename_i res W₁ hcredit row W₂ _ W₃ hcomplete
    obtain ⟨hcr, htables, hnow, hissued⟩ := hcredit
    obtain ⟨hwebhooks, honRamps, hmissing, hdead, halerts⟩ := Store.tables_eq htables
    obtain ⟨hfirst, hW₃⟩ := hcomplete
    refine ⟨res.1, W₁.store, W₁.issued + 1, by omega, rfl, hcr, ?_, ?_⟩
    · simpa +zetaDelta [Store.putWebhook, honRamps, hnow] using hfirst
    · rw [hW₃]
      simp +zetaDelta [Store.webhooksWith, Store.putWebhook, paidRow, hnow, hwebhooks, hmissing,
        hdead, halerts]
  -- the purchases the completion searches are those of the start: the credit keeps them
  all_goals
    rename_i hcredit _ _
    rw [← (Store.tables_eq hcredit.2.1).2.1] at hids
    simpa +zetaDelta [Store.putWebhook] using hids

end Intake

/-- With distinct wallet ids, the user's wallet is what its id finds. -/
theorem Store.wallet?_of_walletOfUser? {s : Store} {user : String} {w : Wallet}
    (hids : (s.wallets.map (·.id)).Nodup) (h : s.walletOfUser? user = some w) :
    s.wallet? w.id = some w :=
  find?_key_of_mem hids (List.mem_of_find?_eq_some h)

/-- The credit a payment asks for passes its checks when the payment has its id and a
positive amount of cents, on a wallet that exists, whose key is taken or whose balance
the amount leaves not below zero. -/
theorem Intake.creditFor_ok {ev : PaymentEvent} {s : Store} {w : Wallet}
    (hext : ev.externalId ≠ "") (hpos : ev.amount.IsPositive) (hcents : ev.amount.HasCents)
    (hw : s.wallet? w.id = some w)
    (hroom : (s.entryByKey? (Wallets.creditKey (Intake.creditFor ev w.id))).isSome ∨
      ¬ w.balance + ev.amount < 0) :
    Wallets.CreditWithinOk (Intake.creditFor ev w.id) s :=
  ⟨⟨.inr ⟨rfl, rfl, hext⟩, hpos, hcents, hext, .deposit, rfl, rfl⟩, w, hw, hroom⟩

/-! ## Processing -/

/-- A triple naming the one refusal and world a run ends in, with no answer, computes
the run. -/
theorem Op.exec_eq_error_of_triple {α : Type} {x : Op α} {w w' : World} {e : Error}
    (h : ⦃fun v => ⌜v = w⌝⦄ x ⦃post⟨fun _ _ => ⌜False⌝, fun e' v => ⌜e' = e ∧ v = w'⌝⟩⦄) :
    x.exec w = (.error e, w') := by
  have hend := Op.ends_of_triple h rfl
  revert hend
  rcases x.exec w with ⟨e' | b, v⟩
  · rintro ⟨rfl, rfl⟩
    rfl
  · simp

namespace Intake

/-- An unverified report is refused, and nothing changes. -/
theorem process_unverified (W : World) (ev : PaymentEvent) :
    (process ev false).exec W = (.error .signatureUnverified, W) := rfl

/-- A payment that is not completed is passed over, and nothing changes. -/
theorem process_not_completed (W : World) (ev : PaymentEvent) (h : ev.status ≠ completedStatus) :
    (process ev true).exec W = (.ok ⟨"ignored", "", none⟩, W) := by
  apply Op.exec_eq_of_triple
  mvcgen [process]
  all_goals simp_all

/-- A completed payment without its id or its user is refused, and nothing changes. -/
theorem process_without_ids (W : World) (ev : PaymentEvent) (hs : ev.status = completedStatus)
    (h : ev.externalId = "" ∨ ev.userId = "") :
    (process ev true).exec W = (.error .eventIdsRequired, W) := by
  apply Op.exec_eq_error_of_triple
  mvcgen [process]
  all_goals simp_all

/-- A completed payment with its ids whose row is processed already is answered as a
repeat, and one whose row waits in the dead letters is passed over; nothing changes. -/
theorem process_seen (W : World) (ev : PaymentEvent) (p : WebhookEvent)
    (hs : ev.status = completedStatus) (hext : ev.externalId ≠ "") (huser : ev.userId ≠ "")
    (hp : W.store.webhookByExternal? ev.externalId = some p) :
    (p.status = .processed → (process ev true).exec W = (.ok ⟨"duplicate", p.id, none⟩, W)) ∧
      (p.status = .deadLetter → (process ev true).exec W = (.ok ⟨"ignored", p.id, none⟩, W)) := by
  constructor <;> intro hst <;> apply Op.exec_eq_of_triple <;> mvcgen [process]
  all_goals simp_all +zetaDelta
  -- the branches past the row found cannot be taken
  all_goals grind

/-- **A payment that passes every check is settled**, when the purchases have distinct
ids: processing answers the processed row and the credit's view, and ends in the world
that the settlement left, with credit-spike alerts possibly added. -/
theorem process_settles (W₀ : World) (ev : PaymentEvent) (w : Wallet)
    (hs : ev.status = completedStatus) (hext : ev.externalId ≠ "") (huser : ev.userId ≠ "")
    (hprior : ∀ p, W₀.store.webhookByExternal? ev.externalId = some p →
      p.status ≠ .processed ∧ p.status ≠ .deadLetter)
    (hwallet : W₀.store.walletOfUser? ev.userId = some w)
    (hcur : (ev.currency == "" || Text.equalFold ev.currency w.currency) = true)
    (hok : Wallets.CreditWithinOk (creditFor ev w.id) W₀.store)
    (hids : (W₀.store.onRamps.map (·.id)).Nodup) :
    ⦃fun W => ⌜W = W₀⌝⦄ process ev true
    ⦃post⟨fun r W => ⌜∃ view change s₁ k, W₀.issued < k ∧
        r = ⟨"processed", ((W₀.store.webhookByExternal? ev.externalId).map (·.id)).getD (idText k),
          some view⟩ ∧
        Wallets.Credited (creditFor ev w.id) W₀.store (view, change) s₁ ∧
        CompletesFirst w.id ev.provider ev.amount W₀.now W₀.store.onRamps W.store.onRamps ∧
        { W.store with alerts := [] } = { W₀.store with
          wallets := s₁.wallets, ledger := s₁.ledger,
          webhooks := W₀.store.webhooksWith (W₀.store.webhookByExternal? ev.externalId)
            (paidRow ev (W₀.store.webhookByExternal? ev.externalId) (idText k) w.id view.entryId W₀.now),
          onRamps := W.store.onRamps, alerts := [] }⌝,
      fun _ _ => ⌜False⌝⟩⦄ := by
  have hsettle := fun W₁ prior wallet? => settle_exact W₁ ev prior wallet? w
  mvcgen [process, -settle_spec, hsettle, -Wallets.committed_frame, Wallets.committed_tables]
  -- settled, over the earlier row or as a new one: announcing the change adds alerts only
  case vc8.isTrue.isFalse.isTrue.h_1.isFalse.isFalse.post.success.post.success |
      vc13.isTrue.isFalse.isTrue.h_2.post.success.post.success =>
    rename_i res W₁ hsettled _ W₂ hcommit _
    obtain ⟨view, s₁, k, hk, hres, hcr, hfirst, hstore⟩ := hsettled
    have honRamps : W₂.store.onRamps = W₁.store.onRamps := by
      simpa using congrArg Store.onRamps hcommit
    subst_vars
    refine ⟨view, res.2, s₁, k, hk, hres, hcr, honRamps ▸ hfirst, ?_⟩
    rw [hcommit, hstore]
    simp +zetaDelta [honRamps]
  all_goals simp_all +zetaDelta

end Intake

/-- The rows after a settlement, in the two cases `paidRow` covers: a new row added last,
or the earlier row written back under its id. -/
theorem webhooksWith_paidRow (s : Store) (ev : PaymentEvent) (prior : Option WebhookEvent)
    (fresh wallet entryId : String) (now : Instant) :
    (prior = none → s.webhooksWith prior (Intake.paidRow ev prior fresh wallet entryId now) =
      s.webhooks ++ [⟨fresh, ev.provider, ev.externalId, ev.payloadHash, .processed, 0, none, none,
        entryId, wallet, "", now, now⟩]) ∧
    (∀ p, prior = some p → s.webhooksWith prior (Intake.paidRow ev prior fresh wallet entryId now) =
      replaceFirst (·.id == p.id)
        { p with errorMessage := "", status := .processed, transactionId := entryId,
                 walletId := wallet, updatedAt := now } s.webhooks) := by
  constructor
  · rintro rfl
    rfl
  · rintro p rfl
    rfl

/-- **What processing a payment decides**, for every world and every payment, in the
order the checks are made. An unverified report is refused as forbidden; a payment that
is not completed is passed over; one without its id or its user is refused as an invalid
argument; one whose row is processed is answered as a repeat, and one whose row is in the
dead letters is passed over. Each of these leaves the world exactly as it was.

Otherwise, with distinct wallet and purchase ids as the store keeps them, when the user's
wallet exists, the payment's currency is empty or the wallet's up to case, the amount is a
positive number of cents, and the wallet's balance plus the amount is not below zero (or
the credit's key is taken already): processing answers the processed row and the
credit's view, and ends in one world that has the credit (`Credited`), the payment's row
processed, new or the earlier row written back with its error cleared, the first pending
purchase of that wallet, provider and amount completed and no other purchase touched
(`CompletesFirst`), and the cases and dead letters as they were. -/
theorem payment_decision_table (W : World) (ev : PaymentEvent) :
    let prior := W.store.webhookByExternal? ev.externalId
    ((Intake.process ev false).exec W = (.error .signatureUnverified, W) ∧
      Error.signatureUnverified.kind = .forbidden) ∧
    (ev.status ≠ completedStatus →
      (Intake.process ev true).exec W = (.ok ⟨"ignored", "", none⟩, W)) ∧
    (ev.status = completedStatus → (ev.externalId = "" ∨ ev.userId = "") →
      (Intake.process ev true).exec W = (.error .eventIdsRequired, W) ∧
        Error.eventIdsRequired.kind = .invalidArgument) ∧
    (ev.status = completedStatus → ev.externalId ≠ "" → ev.userId ≠ "" → ∀ p, prior = some p →
      (p.status = .processed →
        (Intake.process ev true).exec W = (.ok ⟨"duplicate", p.id, none⟩, W)) ∧
      (p.status = .deadLetter →
        (Intake.process ev true).exec W = (.ok ⟨"ignored", p.id, none⟩, W))) ∧
    (ev.status = completedStatus → ev.externalId ≠ "" → ev.userId ≠ "" →
      (∀ p, prior = some p → p.status ≠ .processed ∧ p.status ≠ .deadLetter) →
      (W.store.wallets.map (·.id)).Nodup → (W.store.onRamps.map (·.id)).Nodup →
      ∀ w, W.store.walletOfUser? ev.userId = some w →
        (ev.currency = "" ∨ Text.equalFold ev.currency w.currency = true) →
        ev.amount.IsPositive → ev.amount.HasCents →
        ((W.store.entryByKey? (Wallets.creditKey (Intake.creditFor ev w.id))).isSome ∨
          ¬ w.balance + ev.amount < 0) →
        ∃ view change s₁ k W', W.issued < k ∧
          (Intake.process ev true).exec W =
            (.ok ⟨"processed", (prior.map (·.id)).getD (idText k), some view⟩, W') ∧
          Wallets.Credited (Intake.creditFor ev w.id) W.store (view, change) s₁ ∧
          W'.store.wallets = s₁.wallets ∧ W'.store.ledger = s₁.ledger ∧
          (prior = none → W'.store.webhooks = W.store.webhooks ++
            [⟨idText k, ev.provider, ev.externalId, ev.payloadHash, .processed, 0, none, none,
              view.entryId, w.id, "", W.now, W.now⟩]) ∧
          (∀ p, prior = some p → W'.store.webhooks =
            replaceFirst (·.id == p.id)
              { p with errorMessage := "", status := .processed, transactionId := view.entryId,
                       walletId := w.id, updatedAt := W.now } W.store.webhooks) ∧
          Intake.CompletesFirst w.id ev.provider ev.amount W.now W.store.onRamps W'.store.onRamps ∧
          W'.store.missing = W.store.missing ∧ W'.store.deadLetters = W.store.deadLetters) := by
  intro prior
  refine ⟨⟨Intake.process_unverified W ev, rfl⟩, Intake.process_not_completed W ev,
    fun hs hids => ⟨Intake.process_without_ids W ev hs hids, rfl⟩,
    fun hs hext huser p hp => Intake.process_seen W ev p hs hext huser hp, ?_⟩
  intro hs hext huser hprior hwids hids w hwallet hcur hpos hcents hroom
  have hok := Intake.creditFor_ok hext hpos hcents (Store.wallet?_of_walletOfUser? hwids hwallet) hroom
  have hcur' : (ev.currency == "" || Text.equalFold ev.currency w.currency) = true := by
    rcases hcur with h | h <;> simp [h]
  -- the settlement's one run: its answer and the world it ends in
  have hend := Op.ends_of_triple
    (Intake.process_settles W ev w hs hext huser hprior hwallet hcur' hok hids) rfl
  revert hend
  rcases (Intake.process ev true).exec W with ⟨_ | r, W'⟩
  · exact False.elim
  · rintro ⟨view, change, s₁, k, hk, rfl, hcr, hfirst, hstore⟩
    obtain ⟨hw, hl, hh, -, hm, hd, -⟩ := Store.mk.inj hstore
    obtain ⟨hnew, hold⟩ := webhooksWith_paidRow W.store ev prior (idText k) w.id view.entryId W.now
    exact ⟨view, change, s₁, k, W', hk, rfl, hcr, hw, hl, fun hp => hh.trans (hnew hp),
      fun p hp => hh.trans (hold p hp), hfirst, hm, hd⟩

/-- A payment on a wallet whose balance was overwritten to `-100`, for `10` in the wallet's
currency: the wallet exists, the currency matches and the amount is a positive number of
cents, yet the credit is refused as leaving the balance below zero, and the payment's row
is recorded failed with the refusal's text. -/
theorem payment_refused_on_negative_balance :
    let W := ((Wallets.overwriteBalance (idText 1) (-100)).exec
      (Command.runAll [.createWallet "u" "USD"] (Setup.world {}))).2
    let ev : PaymentEvent := ⟨"moonpay", "x", "u", 10, "USD", completedStatus, "h"⟩
    let W' := ((Intake.process ev true).exec W).2
    (W.store.walletOfUser? "u").map (fun w => (w.currency, w.balance)) = some ("USD", -100) ∧
      ev.amount.IsPositive ∧ ev.amount.HasCents ∧
      (match ((Intake.process ev true).exec W).1 with
        | .error e => some e
        | .ok _ => none) = some (.insufficientBalance (-100) 10) ∧
      (W'.store.webhookByExternal? "x").map (fun r => (r.status, r.errorMessage)) =
        some (.failed, "Insufficient balance. Have: -100, Need: 10") := by
  decide +kernel

end OnrampLedger
