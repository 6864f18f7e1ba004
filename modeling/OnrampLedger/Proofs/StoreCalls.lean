import Mathlib
import OnrampLedger.Proofs.Tables
import OnrampLedger.Store.Transaction

/-!
# What store calls read and what staged writes change

Two facts about single calls and single writes, on which the account of concurrent
runs rests.

The first is what a call depends on. Its answer is fixed by the readings it records
(`Call.result_of_holds`): any store that shows those facts answers the same. And no
call but the lookup of a pending purchase looks at what on-ramp rows say, nor does any
check: stores that differ only there (`Store.SameButOnRamps`) answer every other call
alike, pass the same checks, and stay so related under every write.

The second is what a write changes. A write moves at most one wallet row, the one it
names (`Write.wallet`), and never a wallet's id, owner or currency; the ledger only
grows, by the entry a write appends; provider event rows change only by the two event
writes; and no write adds or removes an on-ramp.

## Main results

* `Call.result_of_holds` — a call's answer is determined by what it read.
* `Call.result_of_same`, `Write.check_of_same`, `Store.SameButOnRamps.commit?` —
  stores that differ only in on-ramp rows behave alike.
* `Store.foldl_wallet?_of_ne`, `Store.foldl_walletKeys`, `Store.foldl_ledger`,
  `Store.foldl_webhooks` — the frames of a commit's writes.
-/

namespace OnrampLedger

/-! ## Stores that differ only in their on-ramp rows -/

/-- Two stores alike in every table but what their on-ramp rows say: the on-ramps are
the same ones, in the same order. -/
structure Store.SameButOnRamps (a b : Store) : Prop where
  wallets : a.wallets = b.wallets
  ledger : a.ledger = b.ledger
  webhooks : a.webhooks = b.webhooks
  onRampIds : a.onRamps.map (·.id) = b.onRamps.map (·.id)
  missing : a.missing = b.missing
  deadLetters : a.deadLetters = b.deadLetters
  alerts : a.alerts = b.alerts

/-- The one call that reads what on-ramp rows say. -/
def Call.readsOnRamps : Call → Bool
  | .pendingOnRamp .. => true
  | _ => false

/-- Which wallet row a write changes, if any: the one it names. -/
def Write.wallet : Write → Option String
  | .balance id .. => some id
  | .entry e => some e.wallet
  | .flag id .. => some id
  | _ => none

/-- The entry a write appends to the ledger, if any. -/
def Write.appended : Write → List LedgerEntry
  | .entry e => [e]
  | _ => []

/-- Whether a write changes provider event rows. -/
def Write.touchesEvents : Write → Bool
  | .insertEvent _ | .updateEvent .. => true
  | _ => false

/-- What a wallet's lookups by owner read of it: its id, its owner, its currency. -/
def Wallet.keys (w : Wallet) : String × String × String := (w.id, w.userId, w.currency)

/-- Whether an on-ramp exists depends on the ids of the on-ramps only. -/
theorem Store.onRamp?_isSome_of_ids {a b : Store} (h : a.onRamps.map (·.id) = b.onRamps.map (·.id))
    (id : String) : (a.onRamp? id).isSome = (b.onRamp? id).isSome := by
  have hids : ∀ s : Store, (s.onRamp? id).isSome = ((s.onRamps.map (·.id)).find? (· == id)).isSome := by
    intro s
    simp [Store.onRamp?, List.find?_map]
  rw [hids, hids, h]

namespace Store.SameButOnRamps

variable {a b c : Store}

theorem refl (a : Store) : a.SameButOnRamps a := ⟨rfl, rfl, rfl, rfl, rfl, rfl, rfl⟩

theorem symm (h : a.SameButOnRamps b) : b.SameButOnRamps a :=
  ⟨h.wallets.symm, h.ledger.symm, h.webhooks.symm, h.onRampIds.symm, h.missing.symm,
    h.deadLetters.symm, h.alerts.symm⟩

theorem trans (h : a.SameButOnRamps b) (h' : b.SameButOnRamps c) : a.SameButOnRamps c :=
  ⟨h.wallets.trans h'.wallets, h.ledger.trans h'.ledger, h.webhooks.trans h'.webhooks,
    h.onRampIds.trans h'.onRampIds, h.missing.trans h'.missing,
    h.deadLetters.trans h'.deadLetters, h.alerts.trans h'.alerts⟩

/-- Writing an on-ramp row back keeps which on-ramps there are. -/
theorem putOnRamp (o : OnRamp) (h : a.SameButOnRamps b) : (a.putOnRamp o).SameButOnRamps b :=
  ⟨h.wallets, h.ledger, h.webhooks, by simpa [Store.putOnRamp, map_key_replaceFirst] using h.onRampIds,
    h.missing, h.deadLetters, h.alerts⟩

/-- Stores alike but for what their on-ramp rows say have the same on-ramps. -/
theorem onRamp?_isSome (h : a.SameButOnRamps b) (id : String) :
    (a.onRamp? id).isSome = (b.onRamp? id).isSome :=
  Store.onRamp?_isSome_of_ids h.onRampIds id

end Store.SameButOnRamps

open Store.SameButOnRamps in
/-- Every call but the lookup of a pending purchase answers alike on stores that differ
only in their on-ramp rows. -/
theorem Call.result_of_same {a b : Store} (h : a.SameButOnRamps b) {c : Call}
    (hc : c.readsOnRamps = false) (t : TxState) : c.result a t = c.result b t := by
  cases c <;>
    simp_all [Call.result, Call.readsOnRamps, Store.wallet?, Store.entryByKey?,
      Store.webhookByExternal?, Store.walletOfUser?, Store.entriesOf, Store.latestAfter,
      h.wallets, h.ledger, h.webhooks]

/-- Every check comes out alike on stores that differ only in their on-ramp rows. -/
theorem Write.check_of_same {a b : Store} (h : a.SameButOnRamps b) (w : Write) :
    w.check a = w.check b := by
  cases w with
  | updateOnRamp o => exact h.onRamp?_isSome o.id
  | _ =>
    simp [Write.check, Store.entryByKey?, Store.webhookByExternal?, Store.webhook?,
      Store.missing?, Store.wallet?, Store.deadLetter?, h.ledger, h.webhooks, h.missing,
      h.wallets, h.deadLetters]

/-- Every write keeps stores related that differ only in their on-ramp rows. -/
theorem Write.apply_same {a b : Store} (h : a.SameButOnRamps b) (w : Write) :
    (w.apply a).SameButOnRamps (w.apply b) := by
  cases w with
  | updateOnRamp o =>
    refine (h.putOnRamp o).trans ?_
    have hb := Store.SameButOnRamps.putOnRamp o (Store.SameButOnRamps.refl b)
    exact ⟨hb.wallets.symm, hb.ledger.symm, hb.webhooks.symm, hb.onRampIds.symm,
      hb.missing.symm, hb.deadLetters.symm, hb.alerts.symm⟩
  | _ =>
    obtain ⟨hw, hl, he, hi, hm, hd, ha⟩ := h
    constructor <;>
      simp [Write.apply, Store.modifyWallet, Store.wallet?, Store.putWebhook, Store.putMissing,
        Store.putDeadLetter, hw, hl, he, hi, hm, hd, ha]

namespace Store.SameButOnRamps

variable {a b : Store}

theorem foldl_apply (h : a.SameButOnRamps b) (ws : List Write) :
    (ws.foldl Write.apply a).SameButOnRamps (ws.foldl Write.apply b) := by
  induction ws generalizing a b with
  | nil => exact h
  | cons w ws ih => exact ih (Write.apply_same h w)

/-- A commit passes on one store exactly when it passes on the other, and leaves them
related. -/
theorem commit? (h : a.SameButOnRamps b) {ws : List Write} {a' : Store}
    (ha : a.commit? ws = some a') : ∃ b', b.commit? ws = some b' ∧ a'.SameButOnRamps b' := by
  unfold Store.commit? at ha ⊢
  have hall : ws.all (·.check b) = ws.all (·.check a) := by
    simp only [Write.check_of_same h]
  split at ha
  · next hpass =>
    refine ⟨_, by rw [if_pos (hall ▸ hpass)], ?_⟩
    cases ha
    exact h.foldl_apply ws
  · cases ha

end Store.SameButOnRamps

/-! ## A call depends on what it reads -/

/-- A call that answered `a` against `s` answers `a` against every store that shows
what it read, except the lookup of a pending purchase, which reads loosely. -/
theorem Call.result_of_holds {c : Call} (hc : c.readsOnRamps = false) {s s' : Store}
    {t : TxState} {a : c.Answer} (h : c.result s t = some a)
    (hread : ∀ r ∈ (c.next t a).seen, r.Holds s') : c.result s' t = some a := by
  cases c with
  | present id =>
    have hs := hread (.present id) (by simp [Call.next])
    simp_all [Call.result, Reading.Holds]
  | readRow id =>
    have hs := hread (.row id a) (by simp [Call.next])
    simp_all [Call.result, Reading.Holds]
  | entryByKey k =>
    simp only [Call.result, Option.some.injEq] at h ⊢
    cases hk : t.entries.find? (·.key == k) with
    | some e => simpa [hk] using h
    | none =>
      have hs := hread (.key k a) (by simp [Call.next, hk])
      simp_all [Reading.Holds]
  | eventByExternal x =>
    simp only [Call.result, Option.some.injEq] at h ⊢
    cases hx : t.events.find? (·.externalId == x) with
    | some e => simpa [hx] using h
    | none =>
      have hs := hread (.event x a) (by simp [Call.next, hx])
      simp_all [Reading.Holds]
  | walletOfUser u =>
    have hs := hread (.user u a) (by simp [Call.next])
    simp_all [Call.result, Reading.Holds]
  | pendingOnRamp => simp [Call.readsOnRamps] at hc
  | ledgerSums id =>
    have hs := hread (.sums id a) (by simp [Call.next])
    simp_all [Call.result, Reading.Holds]
  | latestAfter id =>
    have hs := hread (.latest id a) (by simp [Call.next])
    simp_all [Call.result, Reading.Holds]
  | post e =>
    have hs : s'.entryByKey? e.key = none := hread (.key e.key none) (by simp [Call.next])
    simp only [Call.result] at h ⊢
    split at h
    · next hpass =>
      simp only [Bool.and_eq_true] at hpass
      rw [if_pos (by simp [hpass.1.1, hs, hpass.2])]
    · cases h
  | insertEvent row =>
    have hs : s'.webhookByExternal? row.externalId = none :=
      hread (.event row.externalId none) (by simp [Call.next])
    simp [Call.result, hs]
  | cached => simpa [Call.result] using h
  | acquire | stage => simp [Call.result]

/-! ## What a write changes -/

namespace Write

variable {s : Store}

theorem wallet?_apply_of_ne (w : Write) {id : String} (hne : w.wallet ≠ some id) :
    (w.apply s).wallet? id = s.wallet? id := by
  cases w with
  | balance wid b time =>
    have hne : wid ≠ id := fun h => hne (by rw [h]; rfl)
    simp only [apply, Store.modifyWallet, Store.wallet?]
    split
    · next w hw =>
      have hw' : w.id = wid := by simpa using List.find?_some hw
      refine find?_replaceFirst_of_disjoint (by simp [hw', hne]) ?_
      intro z hz
      simp only [beq_iff_eq] at hz
      simp [hz, Ne.symm hne]
    · rfl
  | flag wid reason delta time =>
    have hne : wid ≠ id := fun h => hne (by rw [h]; rfl)
    simp only [apply, Store.modifyWallet, Store.wallet?]
    split
    · next w hw =>
      have hw' : w.id = wid := by simpa using List.find?_some hw
      refine find?_replaceFirst_of_disjoint (by simp [hw', hne]) ?_
      intro z hz
      simp only [beq_iff_eq] at hz
      simp [hz, Ne.symm hne]
    · rfl
  | _ => rfl

/-- A balance write sets the balance of the row it names. -/
theorem wallet?_apply_balance {id : String} {w : Wallet} (h : s.wallet? id = some w)
    (b : Decimal) (time : Instant) :
    ((Write.balance id b time).apply s).wallet? id = some { w with balance := b, updatedAt := time } := by
  have hfind : s.wallets.find? (·.id == id) = some w := h
  have hid := List.find?_some hfind
  simp only [apply, Store.modifyWallet, Store.wallet?, hfind]
  exact find?_replaceFirst_self hid ⟨w, List.mem_of_find?_eq_some hfind, hid⟩

/-- What becomes of the provider event rows under a write. -/
def events : Write → List WebhookEvent → List WebhookEvent
  | .insertEvent row, l => l ++ [row]
  | .updateEvent row _, l => replaceFirst (·.id == row.id) row l
  | _, l => l

theorem webhooks_apply (w : Write) : (w.apply s).webhooks = w.events s.webhooks := by
  cases w <;> rfl

theorem events_of_touchesEvents (w : Write) (h : w.touchesEvents = false) (l : List WebhookEvent) :
    w.events l = l := by
  cases w <;> simp_all [touchesEvents, events]

theorem ledger_apply (w : Write) : (w.apply s).ledger = s.ledger ++ w.appended := by
  cases w <;> simp [apply, appended, Store.modifyWallet, Store.putWebhook, Store.putOnRamp,
    Store.putMissing, Store.putDeadLetter]

theorem onRampIds_apply (w : Write) : (w.apply s).onRamps.map (·.id) = s.onRamps.map (·.id) := by
  cases w <;> simp [apply, Store.modifyWallet, Store.putWebhook, Store.putOnRamp, Store.putMissing,
    Store.putDeadLetter, map_key_replaceFirst]

/-- Changing a wallet field by field keeps its id, owner and currency, and those of
every other wallet. -/
theorem walletKeys_modifyWallet {f : Wallet → Wallet} (hf : ∀ w, (f w).keys = w.keys) (id : String) :
    (s.modifyWallet id f).wallets.map Wallet.keys = s.wallets.map Wallet.keys := by
  simp only [Store.modifyWallet, Store.wallet?]
  split
  · next w hw =>
    apply map_replaceFirst_of_find?
    intro z hz
    rw [Option.some.inj (hz.symm.trans hw)]
    exact (hf w).symm
  · rfl

theorem walletKeys_apply (w : Write) : (w.apply s).wallets.map Wallet.keys = s.wallets.map Wallet.keys := by
  cases w with
  | balance id b time =>
    simp only [apply]
    apply walletKeys_modifyWallet
    intro w
    rfl
  | flag id reason delta time =>
    simp only [apply]
    apply walletKeys_modifyWallet
    intro w
    rfl
  | _ => rfl

end Write

/-! ## What a commit's writes change -/

namespace Store

variable {s : Store} {ws : List Write}

theorem foldl_wallet?_of_ne {id : String} (h : ∀ w ∈ ws, w.wallet ≠ some id) :
    (ws.foldl Write.apply s).wallet? id = s.wallet? id := by
  induction ws generalizing s with
  | nil => rfl
  | cons w ws ih =>
    simp only [List.foldl_cons]
    rw [ih (fun w' hw' => h w' (List.mem_cons_of_mem _ hw')),
      Write.wallet?_apply_of_ne w (h w List.mem_cons_self)]

theorem foldl_walletKeys (ws : List Write) :
    (ws.foldl Write.apply s).wallets.map Wallet.keys = s.wallets.map Wallet.keys := by
  induction ws generalizing s with
  | nil => rfl
  | cons w ws ih => rw [List.foldl_cons, ih, Write.walletKeys_apply]

theorem foldl_ledger (ws : List Write) :
    (ws.foldl Write.apply s).ledger = s.ledger ++ ws.flatMap Write.appended := by
  induction ws generalizing s with
  | nil => simp
  | cons w ws ih => simp [List.foldl_cons, ih, Write.ledger_apply]

theorem foldl_onRampIds (ws : List Write) :
    (ws.foldl Write.apply s).onRamps.map (·.id) = s.onRamps.map (·.id) := by
  induction ws generalizing s with
  | nil => rfl
  | cons w ws ih => rw [List.foldl_cons, ih, Write.onRampIds_apply]

/-- The provider event rows after a commit are those before, changed by its event writes
in order. -/
theorem foldl_webhooks (ws : List Write) :
    (ws.foldl Write.apply s).webhooks = (ws.filter Write.touchesEvents).foldl (fun l w => w.events l) s.webhooks := by
  induction ws generalizing s with
  | nil => rfl
  | cons w ws ih =>
    rw [List.foldl_cons, ih, Write.webhooks_apply, List.filter_cons]
    split
    · rfl
    · next hw => rw [Write.events_of_touchesEvents w (by simpa using hw)]

end Store

end OnrampLedger
