import OnrampLedger.Proofs.Keys
import OnrampLedger.Scenario.Setup

/-!
# Repeats of an operation

Every balance change is written under an idempotency key, and an operation whose key is
already on an entry does nothing and answers as a repeat. This module proves the three
halves of that promise.

Keys are unique. Every entry is written under the key its own source, reference,
wallet and direction derive (`IdempotencyKey.ofEntry`), no two entries share a key,
and wallet ids hold no colon: `Store.Keyed`, kept by every step.

A repeat writes nothing. A credit whose key is on an entry, on a wallet that exists,
answers the wallet's current state marked as a repeat with that entry's id, and leaves
the world as it was (`Wallets.credit_repeat`); so does a valid debit or transfer by the
owner of its wallet whose key is taken (`Wallets.debit_repeat`,
`Wallets.transfer_repeat`).

Doing an operation twice is doing it once. Each operation is answered exactly when its
store lets it be (`Wallets.CreditAnswered` and its kin), so a refused operation is
refused again on the store it left; and one that was answered took its key, so the
second is a repeat.

The wallet a credit's key names is read with the key's other parts: a reference with a
colon in it lets a request naming no wallet derive the key of another wallet's entry.
Such a request is not answered as a repeat but refused, since its wallet does not
exist; the promise holds for the requests that name a wallet.

## Main results

* `Store.Keyed.step` — every step keeps keys unique and derived from their entries.
* `Wallets.credit_repeat`, `Wallets.debit_repeat`, `Wallets.transfer_repeat` — a taken
  key answers the current state and changes nothing.
* `repeats_answer_once` — in every reachable state keys are unique, repeats answer
  and write nothing, and running an operation twice leaves the store as running it once.
-/

namespace OnrampLedger

open Std.Do

set_option mvcgen.warning false

/-! ## Keys derived from entries -/

/-- The key an entry's own fields derive: its source, its reference, its wallet, and
`credit` or `debit` by its direction. -/
def IdempotencyKey.ofEntry (e : LedgerEntry) : IdempotencyKey :=
  ⟨e.source.name, e.reference, e.wallet, if e.type.isCredit then "credit" else "debit"⟩

theorem IdempotencyKey.render_ne_empty (k : IdempotencyKey) : k.render ≠ "" := by
  intro h
  have := congrArg String.toList h
  simp [toList_render] at this

/-- What the stores of the engine hold for keys to answer repeats: every entry is
written under the key it derives, no two entries share a key, wallet ids and entries'
wallets hold no colon, and every wallet has an owner. -/
structure Store.Keyed (s : Store) : Prop where
  key : ∀ e ∈ s.ledger, e.key = (IdempotencyKey.ofEntry e).render
  keys_nodup : (s.ledger.map (·.key)).Nodup
  walletIds : ∀ w ∈ s.wallets, Text.NoColon w.id
  entryWallets : ∀ e ∈ s.ledger, Text.NoColon e.wallet
  owners : ∀ w ∈ s.wallets, w.userId ≠ ""

namespace Store.Keyed

theorem empty : Store.empty.Keyed where
  key := by simp [Store.empty]
  keys_nodup := by simp [Store.empty]
  walletIds := by simp [Store.empty]
  entryWallets := by simp [Store.empty]
  owners := by simp [Store.empty]

variable {s s' : Store}

/-- Only the wallets' ids and owners and the ledger are read. -/
theorem of_tables (h : s.Keyed) (hw : s'.wallets = s.wallets) (hl : s'.ledger = s.ledger) :
    s'.Keyed := by
  obtain ⟨hkey, hnodup, hids, hentries, howners⟩ := h
  rw [← hw] at hids howners
  rw [← hl] at hkey hnodup hentries
  exact ⟨hkey, hnodup, hids, hentries, howners⟩

theorem of_kept (h : s.Keyed) (hk : s.Kept s') : s'.Keyed := by
  -- a row of the new wallets reads as some row of the old ones
  have hrow : ∀ w' ∈ s'.wallets, ∃ w ∈ s.wallets, w.id = w'.id ∧ w.userId = w'.userId := by
    intro w' hw'
    have hmoney : w'.money ∈ s.wallets.map Wallet.money := hk.wallets ▸ List.mem_map_of_mem hw'
    obtain ⟨w, hw, hsame⟩ := List.mem_map.mp hmoney
    simp only [Wallet.money, Prod.mk.injEq] at hsame
    exact ⟨w, hw, hsame.1, hsame.2.1⟩
  refine ⟨hk.ledger ▸ h.key, hk.ledger ▸ h.keys_nodup, ?_, hk.ledger ▸ h.entryWallets, ?_⟩
  · intro w' hw'
    obtain ⟨w, hw, hid, -⟩ := hrow w' hw'
    exact hid ▸ h.walletIds w hw
  · intro w' hw'
    obtain ⟨w, hw, -, huser⟩ := hrow w' hw'
    exact huser ▸ h.owners w hw

theorem opened {user : String} {i : Nat} {w : Wallet} (h : s.Keyed) (ho : s.Opened user i w s') :
    s'.Keyed := by
  have hnamed : user ≠ "" := fun hu => ho.named (by rw [hu]; rfl)
  refine ⟨ho.ledger ▸ h.key, ho.ledger ▸ h.keys_nodup, ?_, ho.ledger ▸ h.entryWallets, ?_⟩
  · intro v hv
    rw [ho.wallets, List.mem_append, List.mem_singleton] at hv
    rcases hv with hv | rfl
    exacts [h.walletIds v hv, ho.id ▸ noColon_idText _]
  · intro v hv
    rw [ho.wallets, List.mem_append, List.mem_singleton] at hv
    rcases hv with hv | rfl
    exacts [h.owners v hv, ho.userId ▸ hnamed]

/-- **A posting keeps keys unique**: its key, derived from its entry, is on no entry yet. -/
theorem posted {id : String} {w : Wallet} {m : Mutation} (h : s.Keyed) (hw : s.wallet? id = some w)
    (hp : Posted s w m s') (hkey : m.2.key = (IdempotencyKey.ofEntry m.2).render) : s'.Keyed := by
  have hwmem : w ∈ s.wallets := List.mem_of_find?_eq_some hw
  have hfresh : m.2.key ∉ s.ledger.map (·.key) := by
    have hnone := hp.fresh
    rw [Store.entryByKey?, if_neg (hkey ▸ IdempotencyKey.render_ne_empty _),
      List.find?_eq_none] at hnone
    simpa using fun e he hek => hnone e he (by simp [hek])
  -- a wallet row after the posting is an old row or the posted wallet's new row
  have hrow : ∀ v ∈ s'.wallets, v ∈ s.wallets ∨ (v.id = w.id ∧ v.userId = w.userId) := by
    intro v hv
    rw [hp.wallets] at hv
    rcases mem_replaceFirst hv with rfl | hv
    exacts [.inr ⟨hp.id, hp.userId⟩, .inl hv]
  refine ⟨?_, ?_, ?_, ?_, ?_⟩
  · intro e he
    rw [hp.ledger, List.mem_append, List.mem_singleton] at he
    rcases he with he | rfl
    exacts [h.key e he, hkey]
  · rw [hp.ledger, List.map_append, List.nodup_append]
    refine ⟨h.keys_nodup, by simp, ?_⟩
    intro k hk k' hk' hsame
    rw [List.map_singleton, List.mem_singleton] at hk'
    exact hfresh (hk' ▸ hsame ▸ hk)
  · intro v hv
    rcases hrow v hv with hv | ⟨hid, -⟩
    exacts [h.walletIds v hv, hid ▸ h.walletIds w hwmem]
  · intro e he
    rw [hp.ledger, List.mem_append, List.mem_singleton] at he
    rcases he with he | rfl
    exacts [h.entryWallets e he, hp.wallet ▸ h.walletIds w hwmem]
  · intro v hv
    rcases hrow v hv with hv | ⟨-, huser⟩
    exacts [h.owners v hv, huser ▸ h.owners w hwmem]

end Store.Keyed

namespace Wallets

theorem CreditEntry.key_ofEntry {r : CreditRequest} {e : LedgerEntry} (he : CreditEntry r e) :
    e.key = (IdempotencyKey.ofEntry e).render := by
  rw [he.key, creditKey, IdempotencyKey.credit, IdempotencyKey.ofEntry, if_pos he.credit,
    Source.eq_name_of_ofName? he.source, he.reference, he.wallet]

theorem DebitEntry.key_ofEntry {r : DebitRequest} {e : LedgerEntry} (he : DebitEntry r e) :
    e.key = (IdempotencyKey.ofEntry e).render := by
  have hdebit : e.type.isCredit = false := by
    rcases he.type with h | h <;> rw [h] <;> rfl
  rw [he.key, debitKey, IdempotencyKey.debit, IdempotencyKey.ofEntry, hdebit, he.source,
    he.reference, he.wallet]
  rfl

theorem TransferLegs.key_ofEntry {r : TransferRequest} {out inward : LedgerEntry}
    (h : TransferLegs r out inward) :
    out.key = (IdempotencyKey.ofEntry out).render ∧
      inward.key = (IdempotencyKey.ofEntry inward).render := by
  constructor
  · rw [h.outKey, IdempotencyKey.ofEntry, h.outType, h.outSource, h.outReference, h.outWallet]
    rfl
  · rw [h.inKey, IdempotencyKey.ofEntry, h.inType, h.inSource, h.inReference, h.inWallet]
    rfl

end Wallets

/-- **Every step keeps keys unique and derived from their entries.** -/
theorem Store.Keyed.step {c : Command} {W W' : World} (hs : c.Step W W') (h : W.store.Keyed) :
    W'.store.Keyed := by
  refine @Command.Step.preserves Store.Keyed (fun hP hk => hP.of_kept hk)
    (fun hP hw hl => hP.of_tables hw hl) (fun hP ho => hP.opened ho) ?_ ?_ ?_ _ _ _ hs h
  · rintro r s s' hP ⟨w, m, hw, hp, he⟩
    exact hP.posted hw hp he.key_ofEntry
  · rintro r s s' hP ⟨w, m, hw, -, hp, he⟩
    exact hP.posted hw hp he.key_ofEntry
  -- the credit leg finds its wallet as the debit leg left it: the two wallets differ
  · rintro r s s' hP ⟨src, dst, out, inward, s₁, hsrc, hdst, hdiff, -, -, hout, hin, hlegs⟩
    have hdst₁ : s₁.wallet? r.target = some dst := by
      rw [hout.wallet?_of_ne (by rw [Store.id_of_wallet? hsrc]; exact Ne.symm hdiff)]
      exact hdst
    obtain ⟨hkout, hkin⟩ := hlegs.key_ofEntry
    exact (hP.posted hsrc hout hkout).posted hdst₁ hin hkin

/-! ## Repeats -/

theorem Store.entryByKey?_isSome {s : Store} {e : LedgerEntry} (he : e ∈ s.ledger) :
    (s.entryByKey? e.key).isSome ↔ e.key ≠ "" := by
  unfold Store.entryByKey?
  split
  · simp_all
  · simp only [ne_eq, *, not_false_eq_true, iff_true, Option.isSome_iff_exists]
    exact List.find?_isSome.mpr ⟨e, he, by simp⟩ |> Option.isSome_iff_exists.mp

theorem Store.entryByKey?_congr {s s' : Store} (h : s'.ledger = s.ledger) (key : String) :
    s'.entryByKey? key = s.entryByKey? key := by
  unfold Store.entryByKey?
  rw [h]

theorem Store.wallet?_congr {s s' : Store} (h : s'.wallets = s.wallets) (id : String) :
    s'.wallet? id = s.wallet? id := by
  unfold Store.wallet?
  rw [h]

/-- A posting under another key leaves a key's lookup alone. -/
theorem Posted.entryByKey?_of_ne {s s' : Store} {w : Wallet} {m : Mutation} (hp : Posted s w m s')
    {key : String} (hne : m.2.key ≠ key) : s'.entryByKey? key = s.entryByKey? key := by
  unfold Store.entryByKey?
  split
  · rfl
  · rw [hp.ledger, List.find?_append]
    simp [hne]

/-- A posting takes its key. -/
theorem Posted.key_taken {s s' : Store} {w : Wallet} {m : Mutation} (hp : Posted s w m s')
    (hk : m.2.key ≠ "") : (s'.entryByKey? m.2.key).isSome :=
  (Store.entryByKey?_isSome (by simp [hp.ledger])).mpr hk

namespace Wallets

/-- The key of a transfer's debit leg, which marks the transfer done. -/
def transferOutKey (r : TransferRequest) : String :=
  (IdempotencyKey.debit "user" ("transfer:" ++ r.reference) r.source).render

/-- The key of a transfer's credit leg. -/
def transferInKey (r : TransferRequest) : String :=
  (IdempotencyKey.credit "user" ("transfer:" ++ r.source ++ ":" ++ r.reference) r.target).render

/-- A debit's own arguments pass its checks: a positive amount of whole cents, a
reference, and a withdrawal or a trade. -/
def DebitValid (r : DebitRequest) : Prop :=
  r.amount.IsPositive ∧ r.amount.HasCents ∧ r.reference ≠ "" ∧
    (EntryType.ofName? (if r.type = "" then "withdrawal" else r.type) = some .withdrawal ∨
      EntryType.ofName? (if r.type = "" then "withdrawal" else r.type) = some .trading)

/-- A transfer's own arguments pass its checks: two different wallets, a positive amount
of whole cents and a reference. -/
def TransferValid (r : TransferRequest) : Prop :=
  r.source ≠ r.target ∧ r.amount.IsPositive ∧ r.amount.HasCents ∧ r.reference ≠ ""

/-- The answer to a repeat: the wallet's current state, marked as a repeat, naming the
entry under the key. -/
def repeatView (w : Wallet) (e : LedgerEntry) : WalletView :=
  { w.view with duplicate := true, entryId := e.id }

variable (W : World) {e : LedgerEntry} {w : Wallet}

/-- **A credit whose key is taken is a repeat**, whatever its amount, type, description
or caller: it answers the current state of the wallet it names and changes nothing. -/
theorem credit_repeat (r : CreditRequest) (he : W.store.entryByKey? (creditKey r) = some e)
    (hw : W.store.wallet? r.wallet = some w) :
    (credit r).exec W = (.ok (repeatView w e), W) := by
  apply Op.exec_eq_of_triple
  mvcgen [credit, duplicateView]
  all_goals simp_all +zetaDelta [repeatView]

/-- **A valid debit by the wallet's owner whose key is taken is a repeat.** -/
theorem debit_repeat (r : DebitRequest) (hvalid : DebitValid r) (hactor : r.actor.id ≠ "")
    (he : W.store.entryByKey? (debitKey r) = some e) (hw : W.store.wallet? r.wallet = some w)
    (howner : w.userId = r.actor.id) :
    (debit r).exec W = (.ok (repeatView w e), W) := by
  obtain ⟨hpos, hcents, href, htype⟩ := hvalid
  have hamount : normalizeAmount r.amount = .ok r.amount := normalizeAmount_eq_ok.mpr ⟨hpos, hcents, rfl⟩
  apply Op.exec_eq_of_triple
  mvcgen [debit, amountOf, replayedFor, duplicateView]
  all_goals simp_all +zetaDelta [repeatView, debitKey]

/-- **A valid transfer by the source wallet's owner whose debit leg's key is taken is a
repeat**, whatever its target or amount. -/
theorem transfer_repeat (r : TransferRequest) (hvalid : TransferValid r) (hactor : r.actor.id ≠ "")
    (he : W.store.entryByKey? (transferOutKey r) = some e) (hw : W.store.wallet? r.source = some w)
    (howner : w.userId = r.actor.id) :
    (transfer r).exec W = (.ok (repeatView w e), W) := by
  obtain ⟨hdiff, hpos, hcents, href⟩ := hvalid
  have hamount : normalizeAmount r.amount = .ok r.amount := normalizeAmount_eq_ok.mpr ⟨hpos, hcents, rfl⟩
  apply Op.exec_eq_of_triple
  mvcgen [transfer, amountOf, replayedFor, duplicateView]
  all_goals simp_all +zetaDelta [repeatView, transferOutKey]

/-! ## When an operation is answered -/

/-- After a credit inside a transaction that found its key free, the key is taken, its
wallet exists, and the request was one that is answered. -/
theorem Credited.taken {r : CreditRequest} {s s' : Store} {res : WalletView × Option Mutation}
    (hc : Credited r s res s') (hfree : s.entryByKey? (creditKey r) = none) :
    (s'.entryByKey? (creditKey r)).isSome ∧ (s'.wallet? r.wallet).isSome ∧ CreditWithinOk r s := by
  rcases hc with ⟨-, -, e, he, -⟩ | ⟨w, m, -, hw, hp, hentry, -⟩
  · simp [hfree] at he
  have hid := Store.id_of_wallet? hw
  have hmem : m.2 ∈ s'.ledger := by simp [hp.ledger]
  refine ⟨?_, ?_, hentry.admitted, w, hw, .inr ?_⟩
  · rw [← hentry.key, Store.entryByKey?_isSome hmem, hentry.key]
    exact IdempotencyKey.render_ne_empty _
  · rw [← hid, hp.wallet?_self (hid ▸ hw)]
    rfl
  · have hafter := hp.nonneg
    rwa [hp.after, EntryType.applyTo_of_isCredit hentry.credit, hentry.amount] at hafter

/-- When a credit is answered on store `s`: a taken key on a wallet that exists, or a
free key and a credit inside a transaction that is answered. -/
def CreditAnswered (r : CreditRequest) (s : Store) : Prop :=
  if (s.entryByKey? (creditKey r)).isSome then (s.wallet? r.wallet).isSome = true
  else CreditWithinOk r s

/-- **A credit is answered exactly when its store lets it be**; answered, its key is
taken and its wallet exists, and refused, it changed nothing. -/
theorem credit_answered (W₀ : World) (r : CreditRequest) :
    ⦃fun W => ⌜W = W₀⌝⦄ credit r
    ⦃post⟨fun _ W => ⌜CreditAnswered r W₀.store ∧ (W.store.entryByKey? (creditKey r)).isSome ∧
        (W.store.wallet? r.wallet).isSome⌝,
      fun _ W => ⌜¬ CreditAnswered r W₀.store ∧ W.store = W₀.store⌝⟩⦄ := by
  mvcgen [credit, duplicateView]
  all_goals simp_all +zetaDelta [CreditAnswered, World.records]
  -- a fresh key: the credit took it, and announcing the credit wrote neither table
  rename_i hfree hcredited hframe
  obtain ⟨hkey, hwallet, hok⟩ := hcredited.1.taken hfree
  exact ⟨hok, by rwa [Store.entryByKey?_congr hframe.1.2.2.1],
    by rwa [Store.wallet?_congr hframe.1.2.1]⟩

/-- When a debit is answered on store `s`: an authenticated caller, valid arguments,
and a wallet the caller owns, whose key is taken or whose balance covers the amount. -/
def DebitAnswered (r : DebitRequest) (s : Store) : Prop :=
  r.actor.id ≠ "" ∧ DebitValid r ∧ ∃ w, s.wallet? r.wallet = some w ∧ w.userId = r.actor.id ∧
    ((s.entryByKey? (debitKey r)).isSome ∨ ¬ w.balance < r.amount)

/-- **A debit is answered exactly when its store lets it be**; answered, its key is taken
on the caller's wallet, and refused, it changed nothing. -/
theorem debit_answered (W₀ : World) (r : DebitRequest) :
    ⦃fun W => ⌜W = W₀⌝⦄ debit r
    ⦃post⟨fun _ W => ⌜DebitAnswered r W₀.store ∧ (W.store.entryByKey? (debitKey r)).isSome ∧
        ∃ w, W.store.wallet? r.wallet = some w ∧ w.userId = r.actor.id⌝,
      fun _ W => ⌜¬ DebitAnswered r W₀.store ∧ W.store = W₀.store⌝⟩⦄ := by
  mvcgen [debit, replayedFor, duplicateView]
  all_goals simp_all +zetaDelta [DebitAnswered, DebitValid, World.records, debitKey,
    EntryType.applyTo, EntryType.isCredit, Decimal.sub_neg_iff]
  -- a withdrawal or a trade posted: its key taken on the caller's wallet, announced once
  -- committed
  all_goals
    rename_i hlock howner _ hposted hframe
    obtain ⟨hp, -, -, hkey, -⟩ := hposted
    have hid := Store.id_of_wallet? hlock.2
    refine ⟨?_, _, ?_, hp.userId.trans howner⟩
    · rw [Store.entryByKey?_congr hframe.1.2.2.1, ← hkey]
      exact hp.key_taken (hkey ▸ IdempotencyKey.render_ne_empty _)
    · rw [Store.wallet?_congr hframe.1.2.1, ← hid]
      exact hp.wallet?_self (by rw [hid]; exact hlock.2)

/-- When a transfer is answered on store `s`: an authenticated caller, valid arguments,
and a source wallet the caller owns, whose debit leg's key is taken; or else a target
wallet of the same currency, a balance that covers the amount, a target balance the
amount leaves not below zero and a free key for the credit leg. -/
def TransferAnswered (r : TransferRequest) (s : Store) : Prop :=
  r.actor.id ≠ "" ∧ TransferValid r ∧ ∃ src, s.wallet? r.source = some src ∧
    src.userId = r.actor.id ∧
    ((s.entryByKey? (transferOutKey r)).isSome ∨
      ∃ dst, s.wallet? r.target = some dst ∧ src.currency = dst.currency ∧
        ¬ src.balance < r.amount ∧ ¬ dst.balance + r.amount < 0 ∧
        s.entryByKey? (transferInKey r) = none)

/-- **A transfer is answered exactly when its store lets it be**; answered, its debit
leg's key is taken on the caller's wallet, and refused, it changed nothing. -/
theorem transfer_answered (W₀ : World) (r : TransferRequest) :
    ⦃fun W => ⌜W = W₀⌝⦄ transfer r
    ⦃post⟨fun _ W => ⌜TransferAnswered r W₀.store ∧ (W.store.entryByKey? (transferOutKey r)).isSome ∧
        ∃ w, W.store.wallet? r.source = some w ∧ w.userId = r.actor.id⌝,
      fun _ W => ⌜¬ TransferAnswered r W₀.store ∧ W.store = W₀.store⌝⟩⦄ := by
  mvcgen [transfer, replayedFor, duplicateView]
  all_goals simp_all +zetaDelta [TransferAnswered, TransferValid, World.records, transferOutKey,
    transferInKey, EntryType.applyTo, EntryType.isCredit, Decimal.sub_neg_iff]
  -- both legs posted: the credit leg's balance and key were free, the debit leg's key is
  -- now taken, and the source's row is the debit leg's
  case vc5 =>
    rename_i hdiff _ _ _ _ _ hsrc hdst howner _ _ hout hin hframe
    obtain ⟨hp₁, -, -, hk₁, -⟩ := hout
    obtain ⟨hp₂, ht₂, ha₂, hk₂, -⟩ := hin
    have hsrcId := Store.id_of_wallet? hsrc.2
    have hdstId := Store.id_of_wallet? hdst.2
    have hlegs : _ ≠ _ := IdempotencyKey.credit_render_ne_debit "user"
      ("transfer:" ++ r.source ++ ":" ++ r.reference) r.target "user" ("transfer:" ++ r.reference) r.source
    have hnonneg := hp₂.nonneg
    rw [hp₂.after, ht₂, ha₂, EntryType.applyTo_of_isCredit rfl] at hnonneg
    have hfree := hp₂.fresh
    rw [hk₂, hp₁.entryByKey?_of_ne (hk₁ ▸ hlegs.symm)] at hfree
    refine ⟨⟨hnonneg, hfree⟩, ?_, _, ?_, hp₁.userId.trans howner⟩
    · rw [Store.entryByKey?_congr hframe.1.2.2.1, hp₂.entryByKey?_of_ne (hk₂ ▸ hlegs), ← hk₁]
      exact hp₁.key_taken (hk₁ ▸ IdempotencyKey.render_ne_empty _)
    · rw [Store.wallet?_congr hframe.1.2.1, hp₂.wallet?_of_ne (by rw [hdstId]; exact hdiff),
        ← hsrcId]
      exact hp₁.wallet?_self (by rw [hsrcId]; exact hsrc.2)
  -- the credit leg refused: its balance went below zero, or its key was taken already
  -- before the debit leg, whose key differs
  case vc6 =>
    rename_i hout hrefused
    obtain ⟨hp₁, -, -, hk₁, -⟩ := hout
    intro hnonneg hfree
    have hlegs : _ ≠ _ := IdempotencyKey.credit_render_ne_debit "user"
      ("transfer:" ++ r.source ++ ":" ++ r.reference) r.target "user" ("transfer:" ++ r.reference) r.source
    rcases hrefused.2.2.2 with hneg | htaken
    · exact hnonneg hneg
    · rw [hp₁.entryByKey?_of_ne (hk₁ ▸ hlegs.symm), hfree] at htaken
      simp at htaken
  -- a wallet missing when both are looked up in order of their ids
  case vc13 | vc14 =>
    rename_i hnone
    intro src hsrc _ dst hdst
    split at hnone <;> simp_all

end Wallets

/-! ## Twice is once -/

/-- **An operation answered exactly when its store lets it be, and leaving a repeat when
answered, runs twice as once**: refused, it left the store, on which it is refused
again; answered, the second run is a repeat and changes nothing. -/
theorem Op.twice {α : Type} {x : Op α} {A : Store → Prop} {Repeat : World → Prop}
    (hx : ∀ W₀ : World, ⦃fun W => ⌜W = W₀⌝⦄ x
      ⦃post⟨fun _ W => ⌜A W₀.store ∧ Repeat W⌝, fun _ W => ⌜¬ A W₀.store ∧ W.store = W₀.store⌝⟩⦄)
    (hrepeat : ∀ S W, A S → Repeat W → (x.exec W).2 = W) (W : World) :
    (x.exec (x.exec W).2).2.store = (x.exec W).2.store := by
  have h₁ := Op.ends_of_triple (hx W) rfl
  revert h₁
  rcases x.exec W with ⟨_ | _, W₁⟩
  · rintro ⟨hrefused, hsame⟩
    have h₂ := Op.ends_of_triple (hx W₁) rfl
    revert h₂
    rcases x.exec W₁ with ⟨_ | _, W₂⟩
    · exact fun h₂ => h₂.2
    · exact fun h₂ => absurd (hsame ▸ h₂.1) hrefused
  · exact fun h₁ => congrArg World.store (hrepeat W.store W₁ h₁.1 h₁.2)

namespace Command

theorem run_credit (r : CreditRequest) (W : World) :
    (Command.credit r).run W = ((Wallets.credit r).exec W).2 := Op.exec_discard _ _

theorem run_debit (r : DebitRequest) (W : World) :
    (Command.debit r).run W = ((Wallets.debit r).exec W).2 := Op.exec_discard _ _

theorem run_transfer (r : TransferRequest) (W : World) :
    (Command.transfer r).run W = ((Wallets.transfer r).exec W).2 := Op.exec_discard _ _

/-- A credit run twice leaves the store as run once. -/
theorem credit_twice (r : CreditRequest) (W : World) :
    ((Command.credit r).run ((Command.credit r).run W)).store = ((Command.credit r).run W).store := by
  rw [run_credit, run_credit]
  refine Op.twice (Wallets.credit_answered · r) ?_ W
  rintro - W' - ⟨hkey, hwallet⟩
  obtain ⟨e, he⟩ := Option.isSome_iff_exists.mp hkey
  obtain ⟨w, hw⟩ := Option.isSome_iff_exists.mp hwallet
  rw [Wallets.credit_repeat W' r he hw]

/-- A debit run twice leaves the store as run once. -/
theorem debit_twice (r : DebitRequest) (W : World) :
    ((Command.debit r).run ((Command.debit r).run W)).store = ((Command.debit r).run W).store := by
  rw [run_debit, run_debit]
  refine Op.twice (Wallets.debit_answered · r) ?_ W
  rintro - W' ⟨hactor, hvalid, -⟩ ⟨hkey, w, hw, howner⟩
  obtain ⟨e, he⟩ := Option.isSome_iff_exists.mp hkey
  rw [Wallets.debit_repeat W' r hvalid hactor he hw howner]

/-- A transfer run twice leaves the store as run once. -/
theorem transfer_twice (r : TransferRequest) (W : World) :
    ((Command.transfer r).run ((Command.transfer r).run W)).store =
      ((Command.transfer r).run W).store := by
  rw [run_transfer, run_transfer]
  refine Op.twice (Wallets.transfer_answered · r) ?_ W
  rintro - W' ⟨hactor, hvalid, -⟩ ⟨hkey, w, hw, howner⟩
  obtain ⟨e, he⟩ := Option.isSome_iff_exists.mp hkey
  rw [Wallets.transfer_repeat W' r hvalid hactor he hw howner]

/-- Every world a run reaches from an empty store has its keys unique and derived from
their entries. -/
theorem keyed_runAll (cs : List Command) (w : World) :
    (runAll cs { w with store := Store.empty }).store.Keyed :=
  @runAll_invariant (fun W => W.store.Keyed) (fun _ => True)
    (fun c _ W h => Store.Keyed.step (run_step c W) h) cs (fun _ _ => trivial) _ Store.Keyed.empty

end Command

/-- **Repeats answer once.** In every world a run of commands reaches from an empty store,
no two entries share a key; a credit whose key is on an entry, naming a wallet that
exists, answers that wallet's current state marked as a repeat with the entry's id and
changes nothing, whatever its amount, type, description or caller; so do a valid debit
by the wallet's owner whose key is taken and a valid transfer by the source wallet's
owner whose debit leg's key is taken, whatever its target or amount; and a credit, a
debit or a transfer run twice leaves the store as run once. -/
theorem repeats_answer_once (cs : List Command) (w : World) :
    let W := Command.runAll cs { w with store := Store.empty }
    (W.store.ledger.map (·.key)).Nodup ∧
    (∀ (r : CreditRequest) e v, W.store.entryByKey? (Wallets.creditKey r) = some e →
      W.store.wallet? r.wallet = some v →
      (Wallets.credit r).exec W = (.ok (Wallets.repeatView v e), W)) ∧
    (∀ (r : DebitRequest) e v, Wallets.DebitValid r →
      W.store.entryByKey? (Wallets.debitKey r) = some e → W.store.wallet? r.wallet = some v →
      v.userId = r.actor.id → (Wallets.debit r).exec W = (.ok (Wallets.repeatView v e), W)) ∧
    (∀ (r : TransferRequest) e v, Wallets.TransferValid r →
      W.store.entryByKey? (Wallets.transferOutKey r) = some e →
      W.store.wallet? r.source = some v → v.userId = r.actor.id →
      (Wallets.transfer r).exec W = (.ok (Wallets.repeatView v e), W)) ∧
    (∀ r, ((Command.credit r).run ((Command.credit r).run W)).store =
      ((Command.credit r).run W).store) ∧
    (∀ r, ((Command.debit r).run ((Command.debit r).run W)).store =
      ((Command.debit r).run W).store) ∧
    (∀ r, ((Command.transfer r).run ((Command.transfer r).run W)).store =
      ((Command.transfer r).run W).store) := by
  intro W
  have hkeyed : W.store.Keyed := Command.keyed_runAll cs w
  -- a wallet of a reachable store has an owner, so its owner is an authenticated caller
  have hcaller : ∀ {id : String} {v : Wallet} {a : Actor}, W.store.wallet? id = some v →
      v.userId = a.id → a.id ≠ "" := by
    intro id v a hv howner
    rw [← howner]
    exact hkeyed.owners v (List.mem_of_find?_eq_some hv)
  refine ⟨hkeyed.keys_nodup, fun r e v he hv => Wallets.credit_repeat W r he hv, ?_, ?_,
    fun r => Command.credit_twice r W, fun r => Command.debit_twice r W,
    fun r => Command.transfer_twice r W⟩
  · intro r e v hvalid he hv howner
    exact Wallets.debit_repeat W r hvalid (hcaller hv howner) he hv howner
  · intro r e v hvalid he hv howner
    exact Wallets.transfer_repeat W r hvalid (hcaller hv howner) he hv howner

/-- A key read with another wallet: after an admin credit with reference `a:b`, a credit
with reference `a` naming the wallet `b:` followed by that wallet's id derives the same
key, and is refused for a wallet that does not exist instead of answered as a repeat. -/
theorem credit_key_across_wallets_refused :
    let admin : Actor := ⟨"root", "admin"⟩
    let W := Command.runAll [.createWallet "u" "USD",
      .credit ⟨idText 1, 5, "", "a:b", "", "admin", "", false, admin⟩] (Setup.world {})
    let r : CreditRequest := ⟨"b:" ++ idText 1, 5, "", "a", "", "admin", "", false, admin⟩
    (W.store.entryByKey? (Wallets.creditKey r)).isSome ∧ W.store.wallet? r.wallet = none ∧
      (((Wallets.credit r).exec W).1.map fun _ => ()) = .error .walletNotFound := by
  decide +kernel

end OnrampLedger
