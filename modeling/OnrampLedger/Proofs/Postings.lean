import OnrampLedger.Proofs.Frames
import OnrampLedger.Proofs.Books

/-!
# Postings

Every balance change of the wallet engine goes through `Wallets.apply`, which writes one
entry and the wallet's new balance together. `Posted` says what such a posting does to
the store, and `Books.posted` that it keeps the books. The wallet operations are built
from postings inside transactions; each of their triples says two things at once: an
answered call keeps the books, and a refused one leaves the store as it was.

## Main results

* `Wallets.apply_spec` — a posting, or a refusal that writes nothing.
* `Wallets.creditWithin_spec` — a credit inside a transaction is a repeat that writes
  nothing, or one posting under the request's key (`Credited`).
* `Wallets.credit_spec`, `debit_spec`, `transfer_spec`, `manualCredit_spec`,
  `create_spec` — the wallet operations keep the books and roll back on refusal.
* `TransferCommitted.of_posted` — a transfer that is answered and not a repeat has
  committed both its legs.
-/

namespace OnrampLedger

open Std.Do

set_option mvcgen.warning false

theorem normalizeAmount_eq_ok {a b : Decimal} :
    normalizeAmount a = .ok b ↔ a.IsPositive ∧ a.HasCents ∧ b = a := by
  have hround : a.roundTo 2 = a ↔ a.HasCents := by
    rw [Decimal.roundTo_eq_self_iff, Decimal.hasCents_iff]
  unfold normalizeAmount
  dsimp only
  by_cases hpos : a.IsPositive
  · by_cases hc : a.HasCents
    · simp [hpos, hround.mpr hc, hc, eq_comm]
    · have hr : ¬ a.roundTo 2 = a := fun h => hc (hround.mp h)
      simp [hpos, hr, hc]
  · simp [hpos]

theorem Store.id_of_wallet? {s : Store} {id : String} {w : Wallet} (h : s.wallet? id = some w) :
    w.id = id := by
  simpa using List.find?_some h

/-! ## One posting -/

/-- `s'` is `s` with the change `m` posted on wallet `w`: the entry `m.2` of `w` starts at
its balance and ends, not below zero, where its amount takes it; the wallet row becomes
`m.1`, holding that closing balance under the same owner and currency; and the entry,
under a key no entry had, joins the ledger. Nothing else of the wallets or the ledger
changes, and the payment rows and dead letters stay as they were. -/
structure Posted (s : Store) (w : Wallet) (m : Mutation) (s' : Store) : Prop where
  wallet : m.2.wallet = w.id
  before : m.2.before = w.balance
  after : m.2.after = m.2.type.applyTo w.balance m.2.amount
  nonneg : ¬ m.2.after < 0
  id : m.1.id = w.id
  userId : m.1.userId = w.userId
  currency : m.1.currency = w.currency
  balance : m.1.balance = m.2.after
  wallets : s'.wallets = replaceFirst (·.id == w.id) m.1 s.wallets
  ledger : s'.ledger = s.ledger ++ [m.2]
  fresh : s.entryByKey? m.2.key = none
  webhooks : s'.webhooks = s.webhooks
  deadLetters : s'.deadLetters = s.deadLetters

/-- **A posting keeps the books**, on a wallet the store has and for a positive amount
of whole cents. -/
theorem Books.posted {s s' : Store} {id : String} {w : Wallet} {m : Mutation}
    (h : Books s.wallets s.ledger) (hw : s.wallet? id = some w) (hp : Posted s w m s')
    (hamount : m.2.amount.IsPositive ∧ m.2.amount.HasCents) : Books s'.wallets s'.ledger := by
  rw [← Store.id_of_wallet? hw] at hw
  rw [hp.wallets, hp.ledger, ← hp.id]
  exact h.record hw hp.id hp.balance hp.wallet hp.before hp.after hp.nonneg hamount

/-- A posting leaves the lookup of every other wallet alone. -/
theorem Posted.wallet?_of_ne {s s' : Store} {w : Wallet} {m : Mutation} (hp : Posted s w m s')
    {id : String} (hne : id ≠ w.id) : s'.wallet? id = s.wallet? id := by
  unfold Store.wallet?
  rw [hp.wallets, ← hp.id]
  exact find?_replaceFirst_of_ne (hp.id ▸ hne)

/-- After a posting, the wallet's id finds its new row. -/
theorem Posted.wallet?_self {s s' : Store} {w : Wallet} {m : Mutation} (hp : Posted s w m s')
    (hw : s.wallet? w.id = some w) : s'.wallet? w.id = some m.1 := by
  unfold Store.wallet?
  rw [hp.wallets, ← hp.id]
  exact find?_replaceFirst_self (by simp) ⟨w, List.mem_of_find?_eq_some hw, by simp [hp.id]⟩

/-- A transfer as committed: a `transfer_out` entry of the source and a `transfer_in`
entry of the target, both for the requested amount, joined the ledger together, and
each wallet's balance moved from its entry's opening balance to its closing one. -/
def TransferCommitted (r : TransferRequest) (s s' : Store) : Prop :=
  ∃ out inward : LedgerEntry,
    s'.ledger = s.ledger ++ [out, inward] ∧
    out.type = .transferOut ∧ out.wallet = r.source ∧ out.amount = r.amount ∧
    inward.type = .transferIn ∧ inward.wallet = r.target ∧ inward.amount = r.amount ∧
    (s.wallet? r.source).map (·.balance) = some out.before ∧
    (s'.wallet? r.source).map (·.balance) = some out.after ∧
    (s.wallet? r.target).map (·.balance) = some inward.before ∧
    (s'.wallet? r.target).map (·.balance) = some inward.after

theorem TransferCommitted.of_money {r : TransferRequest} {s s' s'' : Store}
    (h : TransferCommitted r s s'') (hw : s'.wallets = s''.wallets) (hl : s'.ledger = s''.ledger) :
    TransferCommitted r s s' := by
  unfold TransferCommitted Store.wallet? at *
  rwa [hw, hl]

/-- The two legs of a transfer, posted one after the other on two different wallets,
commit the transfer. -/
theorem TransferCommitted.of_posted {r : TransferRequest} {s s₁ s₂ : Store} {src dst : Wallet}
    {out inward : Mutation} (hsrc : s.wallet? r.source = some src)
    (hdst : s.wallet? r.target = some dst) (hdiff : r.source ≠ r.target)
    (hout : Posted s src out s₁) (hin : Posted s₁ dst inward s₂)
    (hout' : out.2.type = .transferOut ∧ out.2.amount = r.amount)
    (hin' : inward.2.type = .transferIn ∧ inward.2.amount = r.amount) :
    TransferCommitted r s s₂ := by
  have hsrcId := Store.id_of_wallet? hsrc
  have hdstId := Store.id_of_wallet? hdst
  -- the debit leg leaves the target alone, and the credit leg the source
  have hdst₁ : s₁.wallet? r.target = some dst :=
    (hout.wallet?_of_ne (hsrcId ▸ Ne.symm hdiff)).trans hdst
  have hsrc₂ : s₂.wallet? r.source = s₁.wallet? r.source := hin.wallet?_of_ne (hdstId ▸ hdiff)
  refine ⟨out.2, inward.2, ?_, hout'.1, hout.wallet.trans hsrcId, hout'.2, hin'.1,
    hin.wallet.trans hdstId, hin'.2, ?_, ?_, ?_, ?_⟩
  · rw [hin.ledger, hout.ledger, List.append_assoc]
    rfl
  · rw [hsrc, hout.before]
    rfl
  · rw [hsrc₂, ← hsrcId, hout.wallet?_self (by rwa [hsrcId])]
    exact congrArg some hout.balance
  · rw [hdst, hin.before]
    rfl
  · rw [← hdstId, hin.wallet?_self (by rwa [hdstId])]
    exact congrArg some hin.balance

theorem EntryType.applyTo_of_isCredit {t : EntryType} (h : t.isCredit = true) (b a : Decimal) :
    t.applyTo b a = b + a := by
  simp [EntryType.applyTo, h]

theorem Decimal.sub_neg_iff {a b : Decimal} : a - b < 0 ↔ a < b := by
  rw [Decimal.lt_iff_value, Decimal.lt_iff_value, Decimal.value_sub, Decimal.value_zero, sub_neg]

namespace Wallets

@[spec] theorem amountOf_spec (W₀ : World) (a : Decimal) :
    ⦃fun W => ⌜W = W₀⌝⦄ amountOf a
    ⦃post⟨fun b W => ⌜W = W₀ ∧ b = a ∧ a.IsPositive ∧ a.HasCents⌝,
      fun _ W => ⌜W = W₀ ∧ ¬ (a.IsPositive ∧ a.HasCents)⌝⟩⦄ := by
  mvcgen [amountOf]
  all_goals simp_all [normalizeAmount_eq_ok]
  -- a positive amount of cents is never refused
  intro hpos hcents
  simp_all [normalizeAmount_eq_ok.mpr ⟨hpos, hcents, rfl⟩]

@[spec] theorem lock_spec (W₀ : World) (id : String) :
    ⦃fun W => ⌜W = W₀⌝⦄ lock id
    ⦃post⟨fun w W => ⌜W = W₀ ∧ W₀.store.wallet? id = some w⌝,
      fun _ W => ⌜W = W₀ ∧ W₀.store.wallet? id = none⌝⟩⦄ := by
  mvcgen [lock]
  all_goals simp_all

/-- **The posting contract**: `apply` posts its entry, under the next id drawn, or
refuses, because the balance would go below zero or the key is taken, and writes
nothing. -/
@[spec] theorem apply_spec (W₀ : World) (w : Wallet) (type : EntryType) (amount : Decimal)
    (key reference description : String) (source : Source) (providerEventId : String)
    (taken : Error) :
    ⦃fun W => ⌜W = W₀⌝⦄
    apply w type amount key reference description source providerEventId taken
    ⦃post⟨fun m W => ⌜Posted W₀.store w m W.store ∧ m.2.type = type ∧ m.2.amount = amount ∧
        m.2.key = key ∧ m.2.reference = reference ∧ m.2.source = source ∧
        m.2.providerEventId = providerEventId ∧ m.2.id = idText (W₀.issued + 1) ∧
        W.settings = W₀.settings ∧ W.issued = W₀.issued + 1⌝,
      fun _ W => ⌜W.store = W₀.store ∧ W.settings = W₀.settings ∧ W₀.issued ≤ W.issued ∧
        (type.applyTo w.balance amount < 0 ∨ (W₀.store.entryByKey? key).isSome)⌝⟩⦄ := by
  mvcgen [apply]
  all_goals simp_all +zetaDelta [← Option.ne_none_iff_isSome]
  -- the write: the entry and the wallet's new row, each field as `Posted` asks
  rename_i hnonneg hfresh
  exact ⟨rfl, rfl, rfl, hnonneg, rfl, rfl, rfl, rfl, rfl, rfl, hfresh, rfl, rfl⟩

/-! ## Credits inside a transaction -/

/-- A credit request passes the checks that read no store: its source may credit, as an
operator or as a verified provider report with an event id, its amount is a positive
number of cents, it has a reference and its type is a credit. -/
def CreditAdmitted (r : CreditRequest) : Prop :=
  ((Source.ofName? r.source = some .admin ∧ r.actor.isAdmin = true) ∨
      (Source.ofName? r.source = some .webhook ∧ r.verified = true ∧ r.providerEventId ≠ "")) ∧
    r.amount.IsPositive ∧ r.amount.HasCents ∧ r.reference ≠ "" ∧
    ∃ t, EntryType.ofName? (if r.type = "" then "deposit" else r.type) = some t ∧ t.isCredit = true

/-- When a credit inside a transaction is answered on store `s`: an admitted request on a
wallet that exists, whose key is taken or whose amount leaves the balance not below
zero. -/
def CreditWithinOk (r : CreditRequest) (s : Store) : Prop :=
  CreditAdmitted r ∧ ∃ w, s.wallet? r.wallet = some w ∧
    ((s.entryByKey? (creditKey r)).isSome ∨ ¬ w.balance + r.amount < 0)

/-- The entry a credit request posts: its amount, a positive number of cents, under the
request's key, reference and provider event id, from the source and of the credit type
the request names. -/
structure CreditEntry (r : CreditRequest) (e : LedgerEntry) : Prop where
  amount : e.amount = r.amount
  cents : e.amount.IsPositive ∧ e.amount.HasCents
  wallet : e.wallet = r.wallet
  key : e.key = creditKey r
  reference : e.reference = r.reference
  providerEventId : e.providerEventId = r.providerEventId
  source : Source.ofName? r.source = some e.source
  type : EntryType.ofName? (if r.type = "" then "deposit" else r.type) = some e.type
  credit : e.type.isCredit = true
  admitted : CreditAdmitted r

/-- What a credit inside a transaction did to the store: a repeat, whose key is on an
entry already, left it as it was, and otherwise one entry was posted on the named
wallet (`CreditEntry`). -/
def Credited (r : CreditRequest) (s : Store) (res : WalletView × Option Mutation) (s' : Store) :
    Prop :=
  (res.2 = none ∧ s' = s ∧ ∃ e, s.entryByKey? (creditKey r) = some e ∧ res.1.entryId = e.id) ∨
    ∃ w m, res.2 = some m ∧ s.wallet? r.wallet = some w ∧ Posted s w m s' ∧ CreditEntry r m.2 ∧
      res.1.entryId = m.2.id

theorem Credited.books {r : CreditRequest} {s s' : Store} {res : WalletView × Option Mutation}
    (hc : Credited r s res s') (h : Books s.wallets s.ledger) : Books s'.wallets s'.ledger := by
  rcases hc with ⟨-, rfl, -⟩ | ⟨w, m, -, hw, hp, he, -⟩
  · exact h
  · exact h.posted hw hp he.cents

/-- A credit writes no payment row and no dead letter. -/
theorem Credited.records {r : CreditRequest} {s s' : Store} {res : WalletView × Option Mutation}
    (hc : Credited r s res s') : s'.webhooks = s.webhooks ∧ s'.deadLetters = s.deadLetters := by
  rcases hc with ⟨-, rfl, -⟩ | ⟨w, m, -, -, hp, -⟩
  · exact ⟨rfl, rfl⟩
  · exact ⟨hp.webhooks, hp.deadLetters⟩

@[spec] theorem creditWithin_spec (W₀ : World) (r : CreditRequest) :
    ⦃fun W => ⌜W = W₀⌝⦄ creditWithin r
    ⦃post⟨fun res W => ⌜Credited r W₀.store res W.store ∧ W.settings = W₀.settings ∧
        W₀.issued ≤ W.issued⌝,
      fun _ W => ⌜W.settings = W₀.settings ∧ W₀.issued ≤ W.issued ∧ ¬ CreditWithinOk r W₀.store⌝⟩⦄ := by
  mvcgen [creditWithin, authorizeCredit]
  all_goals simp_all +zetaDelta [Credited, CreditWithinOk, CreditAdmitted,
    EntryType.applyTo_of_isCredit]
  -- a fresh key, from either source: the entry posted is the one the request asks for
  all_goals
    rename_i hamount _ htype hcredit hlock _ hposted
    obtain ⟨hp, htype', hamount', hkey, href, hsrc, hpid, -⟩ := hposted
    refine ⟨hamount', hamount' ▸ hamount.2.2, ?_, hkey, href, hpid,
      hsrc ▸ ‹Source.ofName? r.source = some _›, htype' ▸ htype, htype' ▸ hcredit, ?_⟩
    · rw [hp.wallet, Store.id_of_wallet? hlock.2]
    · simp_all [CreditAdmitted]

/-! ## The wallet operations

Each triple starts from a store `S`. An answer keeps the books of `S`; a refusal leaves
`S` itself, since every refusal comes before a write or inside a transaction that is
rolled back, and announcing committed changes never refuses. -/

theorem credit_spec (S : Store) (r : CreditRequest) :
    ⦃fun W => ⌜W.store = S⌝⦄ credit r
    ⦃post⟨fun _ W => ⌜Books S.wallets S.ledger → Books W.store.wallets W.store.ledger⌝,
      fun _ W => ⌜W.store = S⌝⟩⦄ := by
  mvcgen [credit, duplicateView]
  all_goals simp_all +zetaDelta [World.records]
  rename_i hcredited _
  exact hcredited.1.books

theorem debit_spec (S : Store) (r : DebitRequest) :
    ⦃fun W => ⌜W.store = S⌝⦄ debit r
    ⦃post⟨fun _ W => ⌜Books S.wallets S.ledger → Books W.store.wallets W.store.ledger⌝,
      fun _ W => ⌜W.store = S⌝⟩⦄ := by
  mvcgen [debit, replayedFor, duplicateView]
  all_goals simp_all +zetaDelta [World.records]
  -- a withdrawal or a trade: one posting on the locked wallet
  all_goals
    rename_i hamount _ _ _ hlock _ _ hposted _
    exact fun hbooks => hbooks.posted hlock.2 hposted.1 (hposted.2.2.1 ▸ hamount.2.2)

theorem transfer_spec (S : Store) (r : TransferRequest) :
    ⦃fun W => ⌜W.store = S⌝⦄ transfer r
    ⦃post⟨fun _ W => ⌜(Books S.wallets S.ledger → Books W.store.wallets W.store.ledger) ∧
        (W.store = S ∨ TransferCommitted r S W.store)⌝,
      fun _ W => ⌜W.store = S⌝⟩⦄ := by
  mvcgen [transfer, replayedFor, duplicateView]
  all_goals simp_all +zetaDelta [World.records]
  -- the two legs: the debit on the source, then the credit on the target, which the
  -- first leg did not touch since the two wallets differ
  rename_i hdiff hamount _ _ _ _ hsrc hdst _ _ _ hout hin hframe
  have hdst' := (hout.1.wallet?_of_ne ?_).trans hdst.2
  · refine ⟨fun hbooks => ?_, .inr ?_⟩
    · have hone := hbooks.posted hsrc.2 hout.1 (hout.2.2.1 ▸ hamount.2.2)
      exact hone.posted hdst' hin.1 (hin.2.2.1 ▸ hamount.2.2)
    · exact (TransferCommitted.of_posted hsrc.2 hdst.2 hdiff hout.1 hin.1
        ⟨hout.2.1, hout.2.2.1⟩ ⟨hin.2.1, hin.2.2.1⟩).of_money hframe.1.2.1 hframe.1.2.2.1
  · rw [Store.id_of_wallet? hsrc.2]
    exact Ne.symm hdiff

theorem manualCredit_spec (S : Store) (wallet : String) (amount : Decimal) (reason : String)
    (admin : Actor) :
    ⦃fun W => ⌜W.store = S⌝⦄ manualCredit wallet amount reason admin
    ⦃post⟨fun _ W => ⌜Books S.wallets S.ledger → Books W.store.wallets W.store.ledger⌝,
      fun _ W => ⌜W.store = S⌝⟩⦄ := by
  mvcgen -trivial [manualCredit]
  -- the credit runs after the reference's id is drawn, on the same store
  case vc1.isTrue.isTrue =>
    rename_i hS _ _ _
    exact credit_spec S _ _ hS
  -- the refusals come before anything is written
  case vc2.isTrue.isFalse | vc3.isFalse => assumption

theorem create_spec (S : Store) (user currency : String) :
    ⦃fun W => ⌜W.store = S⌝⦄ create user currency
    ⦃post⟨fun _ W => ⌜Books S.wallets S.ledger → Books W.store.wallets W.store.ledger⌝,
      fun _ W => ⌜W.store = S⌝⟩⦄ := by
  mvcgen [create]
  all_goals simp_all +zetaDelta
  -- the new row: an id no wallet has, and a zero balance
  rename_i hfresh
  exact fun hbooks => hbooks.addWallet hfresh.2 rfl

end Wallets

end OnrampLedger
