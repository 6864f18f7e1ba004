import Mathlib
import OnrampLedger.Proofs.StoreCalls
import OnrampLedger.Store.Memory

/-!
# The memory store keeps its keys unique and indexed

Four keys are unique in the store: an idempotency key that is not empty names at most
one entry, a provider's payment id at most one row, a user at most one wallet, and a
purchase at most one missing-webhook case. Each has its index map, which must send the
key to the row that carries it (`MemoryStore.Indexed`).

Every call keeps that, as long as two things hold of the calls. Rows are written with
the key they have for good: a payment row with the payment its id belongs to, a
missing-webhook case with the purchase its id belongs to (`MemoryCall.KeepsKeys`). And no
transaction stages two new rows of one payment (`MemoryCall.InsertsApart`), since its
commit checks each against the store and not against each other. The store checks
neither; both break the keys:

* a case written back with another purchase stays indexed under its old one, so a second
  case of the new purchase is let in (`Memory.case_moved_indexed_twice`);
* two rows staged for one payment in one transaction are both added
  (`Memory.rows_staged_together_added_twice`).

A commit is whole: it applies every write its transaction staged, in order, or answers
the error of the first write whose check fails and changes nothing; every other call of a
transaction leaves the store as it was (`Memory.commit_whole`).

## Main results

* `MemoryStore.Indexed.apply` — a write keeps the keys indexed when its key is free.
* `Memory.Sound.step` — every call keeps the keys indexed.
* `Memory.commits_whole_keys_indexed` — commits are whole, and every run of calls of
  that shape keeps the keys unique and indexed.
* `Memory.case_moved_indexed_twice` — a case written back with another purchase.
-/

namespace OnrampLedger

/-! ## Index maps -/

@[simp] theorem setKey_self {α : Type} (m : String → Option α) (k : String) (v : α) :
    setKey m k v k = some v := by
  simp [setKey]

@[simp] theorem setKey_of_ne {α : Type} (m : String → Option α) {k k' : String} (v : α)
    (h : k' ≠ k) : setKey m k v k' = m k' := by
  simp [setKey, h]

/-- A map from keys indexes a list of pairs of a key and an id when each key is paired
once at most and the map sends it to its id. -/
structure IndexOf (pairs : List (String × String)) (f : String → Option String) : Prop where
  nodup : (pairs.map Prod.fst).Nodup
  lookup : ∀ k v, f k = some v ↔ (k, v) ∈ pairs

namespace IndexOf

variable {pairs : List (String × String)} {f : String → Option String}

/-- A key the map has no id for is paired with nothing. -/
theorem not_mem (h : IndexOf pairs f) {k : String} (hk : f k = none) :
    k ∉ pairs.map Prod.fst := by
  intro hmem
  obtain ⟨⟨k', v⟩, hp, rfl⟩ := List.mem_map.mp hmem
  rw [(h.lookup k' v).mpr hp] at hk
  cases hk

/-- **Adding a pair for a free key**, and setting the key in the map, keeps the index. -/
theorem append (h : IndexOf pairs f) {k v : String} (hk : f k = none) :
    IndexOf (pairs ++ [(k, v)]) (setKey f k v) := by
  refine ⟨?_, fun k' v' => ?_⟩
  · rw [List.map_append, List.nodup_append]
    refine ⟨h.nodup, List.nodup_singleton _, fun a ha b hb hab => h.not_mem hk ?_⟩
    rw [List.map_singleton, List.mem_singleton] at hb
    rwa [hab, hb] at ha
  · by_cases hk' : k' = k
    · subst hk'
      simp only [setKey_self, Option.some.injEq, List.mem_append, List.mem_singleton,
        Prod.mk.injEq, true_and]
      constructor
      · exact fun hv => .inr hv.symm
      · rintro (hp | rfl)
        · exact absurd (List.mem_map_of_mem (f := Prod.fst) hp) (h.not_mem hk)
        · rfl
    · simp [h.lookup, hk']

/-- The rows of an indexed table carry their keys once each. -/
theorem keys_nodup {β : Type} {rows : List β} {key id : β → String}
    (h : IndexOf (rows.map fun r => (key r, id r)) f) : (rows.map key).Nodup := by
  simpa [List.map_map, Function.comp_def] using h.nodup

end IndexOf

/-- Put under a key that no row has, a row is added last. -/
theorem putByKey_of_not_mem {α : Type} {key : α → String} {x : α} {l : List α}
    (h : ∀ y ∈ l, key y ≠ key x) : putByKey key x l = l ++ [x] := by
  have hany : l.any (key · == key x) = false := by
    simpa [List.any_eq_false] using h
  simp [putByKey, hany]

/-! ## The store's keys -/

namespace MemoryStore

/-- The store's unique keys and their maps: an idempotency key that is not empty is on
one entry at most, and its map gives the position of that entry; a payment id is on one
row at most, a user owns one wallet at most, a purchase has one case at most, and each
map sends its key to the id of the row that carries it. -/
structure Indexed (m : MemoryStore) : Prop where
  entryKeys : ((m.tables.ledger.filter (·.key != "")).map (·.key)).Nodup
  ledgerByKey : ∀ k, m.ledgerByKey k = if k = "" then none else m.tables.ledger.findIdx? (·.key == k)
  webhooks : IndexOf (m.tables.webhooks.map fun r => (r.externalId, r.id)) m.webhookByExt
  wallets : IndexOf (m.tables.wallets.map fun w => (w.userId, w.id)) m.walletByUser
  missing : IndexOf (m.tables.missing.map fun a => (a.onRampId, a.id)) m.missingByOnRamp

/-- Every payment row carries the payment its id belongs to, and every case the purchase
its id belongs to. -/
structure Follows (paymentOf purchaseOf : String → String) (m : MemoryStore) : Prop where
  rows : ∀ r ∈ m.tables.webhooks, r.externalId = paymentOf r.id
  cases : ∀ a ∈ m.tables.missing, a.onRampId = purchaseOf a.id

/-- The key a write adds to an index map is free: an entry's key, unless empty, and a new
row's payment id. -/
def Free (m : MemoryStore) : Write → Prop
  | .entry e => e.key = "" ∨ m.ledgerByKey e.key = none
  | .insertEvent row => m.webhookByExt row.externalId = none
  | _ => True

theorem indexed_empty : empty.Indexed where
  entryKeys := List.nodup_nil
  ledgerByKey k := by by_cases hk : k = "" <;> simp [empty, Store.empty, hk]
  webhooks := ⟨List.nodup_nil, by simp [empty, Store.empty]⟩
  wallets := ⟨List.nodup_nil, by simp [empty, Store.empty]⟩
  missing := ⟨List.nodup_nil, by simp [empty, Store.empty]⟩

theorem follows_empty (paymentOf purchaseOf : String → String) : empty.Follows paymentOf purchaseOf :=
  ⟨by simp [empty, Store.empty], by simp [empty, Store.empty]⟩

/-- A write passing its check has its key free. -/
theorem free_of_check {m : MemoryStore} {w : Write} (h : m.check w = none) : m.Free w := by
  cases w with
  | entry e =>
    by_cases hk : e.key = ""
    · exact .inl hk
    · refine .inr (Option.not_isSome_iff_eq_none.mp fun hs => ?_)
      simp [check, hk, hs] at h
  | insertEvent row =>
    refine Option.not_isSome_iff_eq_none.mp fun hs => ?_
    simp [check, hs] at h
  | _ => trivial

end MemoryStore

/-- The write carries its keys as `paymentOf` and `purchaseOf` give them. -/
def Write.Follows (paymentOf purchaseOf : String → String) : Write → Prop
  | .insertEvent row | .updateEvent row _ => row.externalId = paymentOf row.id
  | .updateMissing a _ => a.onRampId = purchaseOf a.id
  | _ => True

/-- The rows the unique keys read: the ledger, and the key and id of each payment row,
wallet and missing-webhook case. -/
def Store.keyRows (s : Store) :
    List LedgerEntry × List (String × String) × List (String × String) × List (String × String) :=
  (s.ledger, s.webhooks.map (fun r => (r.externalId, r.id)), s.wallets.map (fun w => (w.userId, w.id)),
    s.missing.map fun a => (a.onRampId, a.id))

namespace Store

variable {s : Store}

/-- Changing a wallet field by field keeps the rows the keys read. -/
theorem keyRows_modifyWallet {f : Wallet → Wallet} (hf : ∀ w, (f w).keys = w.keys) (id : String) :
    (s.modifyWallet id f).keyRows = s.keyRows := by
  have hkeys := congrArg (List.map fun k : String × String × String => (k.2.1, k.1))
    (Write.walletKeys_modifyWallet (s := s) hf id)
  simp only [List.map_map, Function.comp_def, Wallet.keys] at hkeys
  simp only [keyRows, modifyWallet] at hkeys ⊢
  rw [hkeys]

/-- A payment row written back with the payment its id belongs to keeps the rows the keys
read, when every row carries the payment of its id. -/
theorem keyRows_putWebhook {paymentOf : String → String}
    (hs : ∀ r ∈ s.webhooks, r.externalId = paymentOf r.id) {row : WebhookEvent}
    (hrow : row.externalId = paymentOf row.id) : (s.putWebhook row).keyRows = s.keyRows := by
  simp only [keyRows, putWebhook, Prod.mk.injEq, true_and, and_true]
  refine map_replaceFirst_of_find? fun z hz => ?_
  have hid : z.id = row.id := by simpa using List.find?_some hz
  rw [hs z (List.mem_of_find?_eq_some hz), hid, hrow]

/-- A case written back with the purchase its id belongs to keeps the rows the keys read,
when every case carries the purchase of its id. -/
theorem keyRows_putMissing {purchaseOf : String → String}
    (hs : ∀ a ∈ s.missing, a.onRampId = purchaseOf a.id) {a : MissingWebhookAlert}
    (ha : a.onRampId = purchaseOf a.id) : (s.putMissing a).keyRows = s.keyRows := by
  simp only [keyRows, putMissing, Prod.mk.injEq, true_and]
  refine map_replaceFirst_of_find? fun z hz => ?_
  have hid : z.id = a.id := by simpa using List.find?_some hz
  rw [hs z (List.mem_of_find?_eq_some hz), hid, ha]

end Store

namespace MemoryStore

variable {paymentOf purchaseOf : String → String} {m : MemoryStore}

/-- New tables that keep the rows the keys read keep the keys indexed. -/
theorem Indexed.of_keyRows (h : m.Indexed) {s : Store} (hs : s.keyRows = m.tables.keyRows) :
    ({ m with tables := s } : MemoryStore).Indexed := by
  simp only [Store.keyRows, Prod.mk.injEq] at hs
  obtain ⟨hl, he, hw, hm⟩ := hs
  exact ⟨by rw [hl]; exact h.entryKeys, by rw [hl]; exact h.ledgerByKey, by rw [he]; exact h.webhooks,
    by rw [hw]; exact h.wallets, by rw [hm]; exact h.missing⟩

/-- **An entry whose key is free keeps the keys indexed**: appended last, it is indexed
under its key, when it has one, at the position it takes. -/
theorem Indexed.apply_entry (h : m.Indexed) {e : LedgerEntry}
    (hfree : e.key = "" ∨ m.ledgerByKey e.key = none) : (m.apply (.entry e)).Indexed := by
  -- no entry of the ledger has the key of `e`, when it has one
  have hnew : e.key ≠ "" → ∀ x ∈ m.tables.ledger, x.key ≠ e.key := by
    intro hk x hx hxk
    have hnone := hfree.resolve_left hk
    rw [h.ledgerByKey, if_neg hk, List.findIdx?_eq_none_iff] at hnone
    simpa [hxk] using hnone x hx
  refine ⟨?_, fun k => ?_, h.webhooks, h.wallets, h.missing⟩
  · simp only [apply, List.filter_append, List.map_append]
    by_cases hk : e.key = ""
    · simpa [hk] using h.entryKeys
    · have hkeep : (e.key != "") = true := by simpa using hk
      rw [List.filter_singleton, hkeep, cond_true, List.nodup_append]
      refine ⟨h.entryKeys, List.nodup_singleton _, fun a ha b hb hab => ?_⟩
      obtain ⟨x, hx, rfl⟩ := List.mem_map.mp ha
      rw [List.map_singleton, List.mem_singleton] at hb
      exact hnew hk x (List.mem_filter.mp hx).1 (hab.trans hb)
  · simp only [apply, List.findIdx?_append]
    by_cases hk : k = ""
    · subst hk
      split
      · next he => simpa using h.ledgerByKey ""
      · next he => simpa [setKey_of_ne _ _ (Ne.symm he)] using h.ledgerByKey ""
    · rw [if_neg hk]
      by_cases hke : e.key = k
      · -- the key of `e` is set to its position, and no entry before had it
        subst hke
        have hnone : m.tables.ledger.findIdx? (·.key == e.key) = none :=
          List.findIdx?_eq_none_iff.mpr fun x hx => by simpa using hnew hk x hx
        simp [hk, hnone]
      · have hother : List.findIdx? (fun x => x.key == k) [e] = none := by simp [hke]
        rw [hother, Option.map_none, Option.or_none]
        split
        · exact (h.ledgerByKey k).trans (if_neg hk)
        · rw [setKey_of_ne _ _ (Ne.symm hke)]
          exact (h.ledgerByKey k).trans (if_neg hk)

/-- **A new payment row whose payment is free keeps the keys indexed**, when it carries
the payment of its id: no row has its id, so it is added last and indexed under its
payment. -/
theorem Indexed.apply_insertEvent (h : m.Indexed) (hf : m.Follows paymentOf purchaseOf)
    {row : WebhookEvent} (hrow : row.externalId = paymentOf row.id)
    (hfree : m.webhookByExt row.externalId = none) :
    (m.apply (.insertEvent row)).Indexed ∧ (m.apply (.insertEvent row)).Follows paymentOf purchaseOf := by
  -- a row with the id of `row` would carry its payment, which no row carries
  have hput : putByKey (·.id) row m.tables.webhooks = m.tables.webhooks ++ [row] := by
    refine putByKey_of_not_mem fun y hy hid => ?_
    have hy' : (row.externalId, y.id) ∈ m.tables.webhooks.map fun r => (r.externalId, r.id) :=
      List.mem_map.mpr ⟨y, hy, by rw [hf.rows y hy, hid, hrow]⟩
    rw [← h.webhooks.lookup, hfree] at hy'
    cases hy'
  refine ⟨⟨h.entryKeys, h.ledgerByKey, ?_, h.wallets, h.missing⟩, ⟨fun r hr => ?_, hf.cases⟩⟩
  · simp only [apply, hput, List.map_append, List.map_singleton]
    exact h.webhooks.append hfree
  · simp only [apply, hput, List.mem_append, List.mem_singleton] at hr
    rcases hr with hr | rfl
    exacts [hf.rows r hr, hrow]

end MemoryStore

/-- The new payment rows a write adds. -/
def Write.newRows : Write → List WebhookEvent
  | .insertEvent row => [row]
  | _ => []

namespace MemoryStore

variable {paymentOf purchaseOf : String → String} {m : MemoryStore}

/-- **A write whose key is free keeps the keys unique and indexed**, when it carries its
keys as the store's rows do: a new entry or a new row is indexed under its key, and every
other write keeps the key and the id of every row. -/
theorem Indexed.apply (h : m.Indexed) (hf : m.Follows paymentOf purchaseOf) {w : Write}
    (hw : w.Follows paymentOf purchaseOf) (hfree : m.Free w) :
    (m.apply w).Indexed ∧ (m.apply w).Follows paymentOf purchaseOf := by
  cases w with
  | entry e => exact ⟨h.apply_entry hfree, hf.rows, hf.cases⟩
  | insertEvent row => exact h.apply_insertEvent hf hw hfree
  | insertDeadLetter d => exact ⟨h.of_keyRows rfl, hf.rows, hf.cases⟩
  | balance id b time =>
    have hk : (Write.apply m.tables (.balance id b time)).keyRows = m.tables.keyRows := by
      simp only [Write.apply]
      apply Store.keyRows_modifyWallet
      intro w
      rfl
    exact ⟨h.of_keyRows hk, hf.rows, hf.cases⟩
  | flag id reason delta time =>
    have hk : (Write.apply m.tables (.flag id reason delta time)).keyRows = m.tables.keyRows := by
      simp only [Write.apply]
      apply Store.keyRows_modifyWallet
      intro w
      rfl
    exact ⟨h.of_keyRows hk, hf.rows, hf.cases⟩
  | updateEvent row st =>
    refine ⟨h.of_keyRows (Store.keyRows_putWebhook hf.rows hw), fun r hr => ?_, hf.cases⟩
    rcases mem_replaceFirst hr with rfl | hr
    exacts [hw, hf.rows r hr]
  | updateMissing a st =>
    refine ⟨h.of_keyRows (Store.keyRows_putMissing hf.cases hw), hf.rows, fun b hb => ?_⟩
    rcases mem_replaceFirst hb with rfl | hb
    exacts [hw, hf.cases b hb]
  | updateOnRamp o => exact ⟨h.of_keyRows rfl, hf.rows, hf.cases⟩
  | updateDeadLetter d st => exact ⟨h.of_keyRows rfl, hf.rows, hf.cases⟩

/-- A write sets no key in the ledger's map but its own entry's. -/
theorem ledgerByKey_apply_of_ne {w : Write} {k : String} (hk : ∀ e ∈ w.appended, e.key ≠ k) :
    (m.apply w).ledgerByKey k = m.ledgerByKey k := by
  cases w with
  | entry e =>
    have hne : k ≠ e.key := Ne.symm (hk e (by simp [Write.appended]))
    simp only [apply]
    split
    · rfl
    · exact setKey_of_ne _ _ hne
  | _ => rfl

/-- A write sets no payment in the rows' map but its own new row's. -/
theorem webhookByExt_apply_of_ne {w : Write} {x : String} (hx : ∀ r ∈ w.newRows, r.externalId ≠ x) :
    (m.apply w).webhookByExt x = m.webhookByExt x := by
  cases w with
  | insertEvent row => exact setKey_of_ne _ _ (Ne.symm (hx row (by simp [Write.newRows])))
  | _ => rfl

/-- A key free before a write is free after it, unless the write adds it. -/
theorem Free.apply {w w' : Write} (hfree : m.Free w')
    (hkey : ∀ e ∈ w.appended, ∀ e' ∈ w'.appended, e'.key ≠ "" → e.key ≠ e'.key)
    (hrow : ∀ r ∈ w.newRows, ∀ r' ∈ w'.newRows, r.externalId ≠ r'.externalId) :
    (m.apply w).Free w' := by
  cases w' with
  | entry e' =>
    by_cases hk : e'.key = ""
    · exact .inl hk
    · refine .inr ?_
      have hnone := hfree.resolve_left hk
      show (m.apply w).ledgerByKey e'.key = none
      rwa [ledgerByKey_apply_of_ne fun e he => hkey e he e' (by simp [Write.appended]) hk]
  | insertEvent r' =>
    show (m.apply w).webhookByExt r'.externalId = none
    rwa [webhookByExt_apply_of_ne fun r hr => hrow r hr r' (by simp [Write.newRows])]
  | _ => trivial

end MemoryStore

namespace MemoryStore

variable {paymentOf purchaseOf : String → String} {m : MemoryStore}

/-- **Writes applied in order keep the keys unique and indexed**, when they carry their
keys as the store's rows do, each finds its key free in the store they start from, and
their entries' keys and new rows' payments are apart from each other. -/
theorem Indexed.foldl (h : m.Indexed) (hf : m.Follows paymentOf purchaseOf) {ws : List Write}
    (hws : ∀ w ∈ ws, w.Follows paymentOf purchaseOf) (hfree : ∀ w ∈ ws, m.Free w)
    (hkeys : (((ws.flatMap Write.appended).filter (·.key != "")).map (·.key)).Nodup)
    (hrows : ((ws.flatMap Write.newRows).map (·.externalId)).Nodup) :
    (ws.foldl MemoryStore.apply m).Indexed ∧
      (ws.foldl MemoryStore.apply m).Follows paymentOf purchaseOf := by
  induction ws generalizing m with
  | nil => exact ⟨h, hf⟩
  | cons w ws ih =>
    obtain ⟨h', hf'⟩ := h.apply hf (hws w List.mem_cons_self) (hfree w List.mem_cons_self)
    simp only [List.flatMap_cons, List.filter_append, List.map_append, List.nodup_append] at hkeys hrows
    refine ih h' hf' (fun v hv => hws v (List.mem_cons_of_mem w hv)) (fun v hv => ?_) hkeys.2.1
      hrows.2.1
    -- the writes after `w` add keys other than the one `w` adds
    refine (hfree v (List.mem_cons_of_mem w hv)).apply (fun e he e' he' hk hee' => ?_)
      (fun r hr r' hr' hrr' => ?_)
    · have he'k : e'.key ≠ "" := hk
      refine hkeys.2.2 e.key ?_ e'.key ?_ hee'
      · exact List.mem_map_of_mem (List.mem_filter.mpr ⟨he, by simpa [hee'] using he'k⟩)
      · exact List.mem_map_of_mem
          (List.mem_filter.mpr ⟨List.mem_flatMap.mpr ⟨v, hv, he'⟩, by simpa using he'k⟩)
    · exact hrows.2.2 r.externalId (List.mem_map_of_mem hr) r'.externalId
        (List.mem_map_of_mem (List.mem_flatMap.mpr ⟨v, hv, hr'⟩)) hrr'

/-- A commit that passes keeps the keys unique and indexed, under the same conditions on
its writes. -/
theorem Indexed.commit (h : m.Indexed) (hf : m.Follows paymentOf purchaseOf) {ws : List Write}
    {m' : MemoryStore} (hc : MemoryStore.commit m ws = .ok m') (hws : ∀ w ∈ ws, w.Follows paymentOf purchaseOf)
    (hkeys : (((ws.flatMap Write.appended).filter (·.key != "")).map (·.key)).Nodup)
    (hrows : ((ws.flatMap Write.newRows).map (·.externalId)).Nodup) :
    m'.Indexed ∧ m'.Follows paymentOf purchaseOf := by
  unfold MemoryStore.commit at hc
  split at hc
  · cases hc
  · next hnone =>
    cases hc
    exact h.foldl hf hws (fun w hw => free_of_check (List.findSome?_eq_none_iff.mp hnone w hw)) hkeys
      hrows

end MemoryStore

/-! ## Calls -/

/-- The payment rows a call writes, new or written back. -/
def MemoryCall.rows : MemoryCall → List WebhookEvent
  | .tx _ (.insertWebhookEvent row) | .tx _ (.updateWebhookEvent row _)
  | .store (.insertWebhookEvent row) | .store (.updateWebhookEvent row _) => [row]
  | _ => []

/-- The missing-webhook cases a call writes, new or written back. -/
def MemoryCall.cases : MemoryCall → List MissingWebhookAlert
  | .tx _ (.updateMissing a _) | .store (.insertMissing a) | .store (.updateMissing a _) => [a]
  | _ => []

/-- The call writes each payment row with the payment its id belongs to, and each case
with the purchase its id belongs to. -/
def MemoryCall.KeepsKeys (paymentOf purchaseOf : String → String) (c : MemoryCall) : Prop :=
  (∀ r ∈ c.rows, r.externalId = paymentOf r.id) ∧ ∀ a ∈ c.cases, a.onRampId = purchaseOf a.id

/-- The two calls, the first made before the second, do not stage two new rows of one
payment in one transaction. -/
def MemoryCall.InsertsApart : MemoryCall → MemoryCall → Prop
  | .tx h (.insertWebhookEvent row), .tx h' (.insertWebhookEvent row') =>
    h = h' → row.externalId ≠ row'.externalId
  | _, _ => True

namespace MemoryStore

variable {paymentOf purchaseOf : String → String} {m : MemoryStore}

/-- **Every call outside a transaction keeps the keys unique and indexed**, when it
writes its rows and cases with the keys their ids belong to. A new wallet or case is
let in only with its key free; the calls a transaction may also make are commits of one
write. -/
theorem Indexed.call (h : m.Indexed) (hf : m.Follows paymentOf purchaseOf) {c : StoreCall}
    {m' : MemoryStore} (hc : m.call c = .ok m') (hk : (MemoryCall.store c).KeepsKeys paymentOf purchaseOf) :
    m'.Indexed ∧ m'.Follows paymentOf purchaseOf := by
  obtain ⟨hrows, hcases⟩ := hk
  cases c with
  | createWallet w =>
    simp only [MemoryStore.call] at hc
    split at hc
    · cases hc
    · next huser =>
      split at hc
      · cases hc
      · cases hc
        refine ⟨⟨h.entryKeys, h.ledgerByKey, h.webhooks, ?_, h.missing⟩, hf.rows, hf.cases⟩
        simp only [List.map_append, List.map_singleton]
        exact h.wallets.append (Option.not_isSome_iff_eq_none.mp huser)
  | clearWalletFlag id time =>
    simp only [MemoryStore.call] at hc
    split at hc
    · cases hc
      refine ⟨h.of_keyRows ?_, hf.rows, hf.cases⟩
      apply Store.keyRows_modifyWallet
      intro w
      rfl
    · cases hc
  | setWalletBalance id b =>
    cases hc
    refine ⟨h.of_keyRows ?_, hf.rows, hf.cases⟩
    apply Store.keyRows_modifyWallet
    intro w
    rfl
  | insertWebhookEvent row =>
    exact h.commit hf hc (by simpa [Write.Follows] using hrows row (by simp [MemoryCall.rows]))
      (by simp [Write.appended]) (by simp [Write.newRows])
  | updateWebhookEvent row st =>
    exact h.commit hf hc (by simpa [Write.Follows] using hrows row (by simp [MemoryCall.rows]))
      (by simp [Write.appended]) (by simp [Write.newRows])
  | updateMissing a st =>
    exact h.commit hf hc (by simpa [Write.Follows] using hcases a (by simp [MemoryCall.cases]))
      (by simp [Write.appended]) (by simp [Write.newRows])
  | updateDeadLetter d st =>
    exact h.commit hf hc (by simp [Write.Follows]) (by simp [Write.appended]) (by simp [Write.newRows])
  | insertMissing a =>
    simp only [MemoryStore.call] at hc
    split at hc
    · cases hc
    · next hfree =>
      cases hc
      have hnone := Option.not_isSome_iff_eq_none.mp hfree
      have ha := hcases a (by simp [MemoryCall.cases])
      -- a case with the id of `a` would be of its purchase, which no case is
      have hput : putByKey (·.id) a m.tables.missing = m.tables.missing ++ [a] := by
        refine putByKey_of_not_mem fun y hy hid => ?_
        have hy' : (a.onRampId, y.id) ∈ m.tables.missing.map fun b => (b.onRampId, b.id) :=
          List.mem_map.mpr ⟨y, hy, by rw [hf.cases y hy, hid, ha]⟩
        rw [← h.missing.lookup, hnone] at hy'
        cases hy'
      refine ⟨⟨h.entryKeys, h.ledgerByKey, h.webhooks, h.wallets, ?_⟩, hf.rows, fun b hb => ?_⟩
      · simp only [hput, List.map_append, List.map_singleton]
        exact h.missing.append hnone
      · simp only [hput, List.mem_append, List.mem_singleton] at hb
        rcases hb with hb | rfl
        exacts [hf.cases b hb, ha]
  | createOnRamp o =>
    simp only [MemoryStore.call] at hc
    split at hc
    · cases hc
    · cases hc
      exact ⟨h.of_keyRows rfl, hf.rows, hf.cases⟩
  | insertAlert a =>
    simp only [MemoryStore.call] at hc
    split at hc
    · cases hc
    · cases hc
      exact ⟨h.of_keyRows rfl, hf.rows, hf.cases⟩
  | updateAlert a =>
    simp only [MemoryStore.call] at hc
    split at hc
    · cases hc
    · cases hc
      exact ⟨h.of_keyRows rfl, hf.rows, hf.cases⟩

end MemoryStore

/-! ## Transactions -/

/-- What a transaction's staged writes keep of the keys: its entries are those of its
writes, with keys apart from each other; its new rows are those of its writes, with
payments apart from each other; and its writes carry their keys as `paymentOf` and
`purchaseOf` give them. -/
structure MemTx.Sound (paymentOf purchaseOf : String → String) (t : MemTx) : Prop where
  entries : t.ops.flatMap Write.appended = t.entries
  keys : ((t.entries.filter (·.key != "")).map (·.key)).Nodup
  rows : t.ops.flatMap Write.newRows = t.webhooks
  apart : (t.webhooks.map (·.externalId)).Nodup
  follows : ∀ w ∈ t.ops, w.Follows paymentOf purchaseOf

namespace MemTx

variable {paymentOf purchaseOf : String → String} {t : MemTx}

theorem sound_empty : MemTx.empty.Sound paymentOf purchaseOf :=
  ⟨rfl, List.nodup_nil, rfl, List.nodup_nil, by simp [MemTx.empty]⟩

/-- Staging a write that adds no entry and no row keeps a transaction sound. -/
theorem Sound.stage (h : t.Sound paymentOf purchaseOf) {w : Write}
    (hw : w.Follows paymentOf purchaseOf) (happ : w.appended = []) (hnew : w.newRows = []) :
    (t.stage w).Sound paymentOf purchaseOf where
  entries := by simp [MemTx.stage, happ, h.entries]
  keys := h.keys
  rows := by simp [MemTx.stage, hnew, h.rows]
  apart := h.apart
  follows v hv := by
    rcases List.mem_append.mp hv with hv | hv
    exacts [h.follows v hv, (List.mem_singleton.mp hv) ▸ hw]

/-- Closing a transaction keeps it sound. -/
theorem Sound.close (h : t.Sound paymentOf purchaseOf) : t.close.Sound paymentOf purchaseOf :=
  ⟨h.entries, h.keys, h.rows, h.apart, h.follows⟩

end MemTx

/-- The memory keeps its keys: the store's keys are unique and indexed, its rows carry the
keys their ids belong to, and every transaction's staged writes are sound. -/
structure Memory.Sound (paymentOf purchaseOf : String → String) (M : Memory) : Prop where
  indexed : M.store.Indexed
  follows : M.store.Follows paymentOf purchaseOf
  txs : ∀ t ∈ M.txs, t.Sound paymentOf purchaseOf

namespace Memory

variable {paymentOf purchaseOf : String → String} {M M' : Memory} {r : Reply}

@[simp] theorem setTx_store (M : Memory) (h : Nat) (t : MemTx) : (M.setTx h t).store = M.store := rfl

theorem sound_empty (paymentOf purchaseOf : String → String) : Memory.empty.Sound paymentOf purchaseOf :=
  ⟨MemoryStore.indexed_empty, MemoryStore.follows_empty paymentOf purchaseOf, by simp [Memory.empty]⟩

/-- Putting a sound transaction in place keeps the memory sound. -/
theorem Sound.setTx (hM : M.Sound paymentOf purchaseOf) (h : Nat) {t : MemTx}
    (ht : t.Sound paymentOf purchaseOf) : (M.setTx h t).Sound paymentOf purchaseOf := by
  refine ⟨hM.indexed, hM.follows, fun u hu => ?_⟩
  rcases List.mem_or_eq_of_mem_set hu with hu | rfl
  exacts [hM.txs u hu, ht]

end Memory

namespace Memory

variable {paymentOf purchaseOf : String → String} {M M' : Memory} {r : Reply}

/-- **Every call of an open transaction keeps the memory sound**, when it writes its rows
and cases with the keys their ids belong to, and stages no second new row of a payment.
An entry is staged only with its key free of the transaction's own entries; a commit
that passes applies writes the transaction kept sound. -/
theorem Sound.onTx (hM : M.Sound paymentOf purchaseOf) {h : Nat} {t : MemTx}
    (ht : M.txs[h]? = some t) {c : TxCall} (hk : (MemoryCall.tx h c).KeepsKeys paymentOf purchaseOf)
    (hapart : ∀ row, c = .insertWebhookEvent row → row.externalId ∉ t.webhooks.map (·.externalId))
    (hs : M.onTx h t c = some (M', r)) : M'.Sound paymentOf purchaseOf := by
  have hts : t.Sound paymentOf purchaseOf := hM.txs t (List.mem_of_getElem? ht)
  obtain ⟨hrows, hcases⟩ := hk
  cases c with
  | lockWallet id =>
    simp only [Memory.onTx] at hs
    split at hs
    · cases hs
      exact hM
    · split at hs
      · cases hs
        exact hM
      · split at hs
        · cases hs
        · cases hs
          exact hM.setTx h ⟨hts.entries, hts.keys, hts.rows, hts.apart, hts.follows⟩
  | updateWalletBalance id b time =>
    simp only [Memory.onTx] at hs
    split at hs
    · cases hs
      have hst := hts.stage (w := .balance id b time) trivial rfl rfl
      exact hM.setTx h ⟨hst.entries, hst.keys, hst.rows, hst.apart, hst.follows⟩
    · cases hs
      exact hM
  | flagWallet id reason delta time =>
    cases hs
    exact hM.setTx h (hts.stage trivial rfl rfl)
  | insertLedgerEntry e =>
    simp only [Memory.onTx] at hs
    split at hs
    · cases hs
      exact hM
    · next hfree =>
      cases hs
      -- the key of `e`, when it has one, is on none of the transaction's entries
      have hnot : e.key ≠ "" → ∀ x ∈ t.entries, x.key ≠ e.key := by
        intro hk x hx hxk
        exact hfree ⟨hk, .inr (List.any_eq_true.mpr ⟨x, hx, by simp [hxk]⟩)⟩
      refine hM.setTx h ⟨?_, ?_, ?_, hts.apart, ?_⟩
      · simp [MemTx.stage, Write.appended, hts.entries]
      · by_cases hk : e.key = ""
        · simpa [hk] using hts.keys
        · have hkeep : (e.key != "") = true := by simpa using hk
          simp only [List.filter_append, List.filter_singleton, hkeep, cond_true, List.map_append,
            List.map_singleton]
          refine List.nodup_append.mpr ⟨hts.keys, List.nodup_singleton _, fun a ha b hb hab => ?_⟩
          obtain ⟨x, hx, rfl⟩ := List.mem_map.mp ha
          exact hnot hk x (List.mem_filter.mp hx).1 (hab.trans (List.mem_singleton.mp hb))
      · simp [MemTx.stage, Write.newRows, hts.rows]
      · intro w hw
        rcases List.mem_append.mp hw with hw | hw
        exacts [hts.follows w hw, (List.mem_singleton.mp hw) ▸ trivial]
  | insertWebhookEvent row =>
    simp only [Memory.onTx] at hs
    split at hs
    · cases hs
      exact hM
    · cases hs
      have hrow : row.externalId = paymentOf row.id := hrows row (by simp [MemoryCall.rows])
      refine hM.setTx h ⟨?_, hts.keys, ?_, ?_, ?_⟩
      · simp [MemTx.stage, Write.appended, hts.entries]
      · simp [MemTx.stage, Write.newRows, hts.rows]
      · rw [List.map_append, List.map_singleton, List.nodup_append]
        refine ⟨hts.apart, List.nodup_singleton _, fun a ha b hb hab => hapart row rfl ?_⟩
        rwa [hab, List.mem_singleton.mp hb] at ha
      · intro w hw
        rcases List.mem_append.mp hw with hw | hw
        exacts [hts.follows w hw, (List.mem_singleton.mp hw) ▸ hrow]
  | updateWebhookEvent row st =>
    cases hs
    exact hM.setTx h (hts.stage (hrows row (by simp [MemoryCall.rows])) rfl rfl)
  | insertDeadLetter d =>
    cases hs
    exact hM.setTx h (hts.stage trivial rfl rfl)
  | updateDeadLetter d st =>
    cases hs
    exact hM.setTx h (hts.stage trivial rfl rfl)
  | updateOnRamp o =>
    cases hs
    exact hM.setTx h (hts.stage trivial rfl rfl)
  | updateMissing a st =>
    cases hs
    exact hM.setTx h (hts.stage (hcases a (by simp [MemoryCall.cases])) rfl rfl)
  | commit =>
    simp only [Memory.onTx] at hs
    split at hs
    · next m hc =>
      cases hs
      obtain ⟨hi, hf⟩ := hM.indexed.commit hM.follows hc hts.follows
        (by rw [hts.entries]; exact hts.keys) (by rw [hts.rows]; exact hts.apart)
      have hM' : ({ M with store := m } : Memory).Sound paymentOf purchaseOf := ⟨hi, hf, hM.txs⟩
      exact hM'.setTx h hts.close
    · cases hs
      exact hM.setTx h hts.close
  | rollback =>
    cases hs
    exact hM.setTx h hts.close

/-- **Every call keeps the memory sound**, when it writes its rows and cases with the keys
their ids belong to, and stages no second new row of a payment in its transaction. -/
theorem Sound.step (hM : M.Sound paymentOf purchaseOf) {c : MemoryCall}
    (hk : c.KeepsKeys paymentOf purchaseOf)
    (hapart : ∀ h row t, c = .tx h (.insertWebhookEvent row) → M.txs[h]? = some t →
      row.externalId ∉ t.webhooks.map (·.externalId))
    (hs : M.step c = some (M', r)) : M'.Sound paymentOf purchaseOf := by
  cases c with
  | begin =>
    cases hs
    refine ⟨hM.indexed, hM.follows, fun t ht => ?_⟩
    rcases List.mem_append.mp ht with ht | ht
    exacts [hM.txs t ht, (List.mem_singleton.mp ht) ▸ MemTx.sound_empty]
  | store c =>
    simp only [Memory.step] at hs
    split at hs
    · next m hc =>
      cases hs
      obtain ⟨hi, hf⟩ := hM.indexed.call hM.follows hc hk
      exact ⟨hi, hf, hM.txs⟩
    · cases hs
      exact hM
  | tx h c =>
    simp only [Memory.step] at hs
    split at hs
    · cases hs
    · next t ht =>
      split at hs
      · split at hs <;> (cases hs; exact hM)
      · exact hM.onTx ht hk (fun row hc => hapart h row t (by rw [hc]) ht) hs

end Memory

/-! ## Runs -/

namespace Memory

variable {paymentOf purchaseOf : String → String} {M M' : Memory} {r : Reply}

/-- The new rows transaction `h` has staged. -/
def newRowsOf (M : Memory) (h : Nat) : List WebhookEvent := (M.txs[h]?.map (·.webhooks)).getD []

/-- A call of a transaction leaves the transactions as they were, or puts a new state in
place of its own, with no new row but the one the call stages. -/
theorem onTx_txs {h : Nat} {t : MemTx} {c : TxCall} (hs : M.onTx h t c = some (M', r)) :
    M'.txs = M.txs ∨ ∃ t' : MemTx, M'.txs = M.txs.set h t' ∧
      ∀ row ∈ t'.webhooks, row ∈ t.webhooks ∨ c = .insertWebhookEvent row := by
  cases c with
  | lockWallet id =>
    simp only [Memory.onTx] at hs
    split at hs
    · cases hs
      exact .inl rfl
    · split at hs
      · cases hs
        exact .inl rfl
      · split at hs
        · cases hs
        · cases hs
          exact .inr ⟨_, rfl, fun row hrow => .inl hrow⟩
  | updateWalletBalance id b time =>
    simp only [Memory.onTx] at hs
    split at hs
    · cases hs
      exact .inr ⟨_, rfl, fun row hrow => .inl hrow⟩
    · cases hs
      exact .inl rfl
  | insertLedgerEntry e =>
    simp only [Memory.onTx] at hs
    split at hs
    · cases hs
      exact .inl rfl
    · cases hs
      exact .inr ⟨_, rfl, fun row hrow => .inl hrow⟩
  | insertWebhookEvent row =>
    simp only [Memory.onTx] at hs
    split at hs
    · cases hs
      exact .inl rfl
    · cases hs
      refine .inr ⟨_, rfl, fun row' hrow' => ?_⟩
      rcases List.mem_append.mp hrow' with h' | h'
      exacts [.inl h', .inr (by rw [List.mem_singleton.mp h'])]
  | commit =>
    simp only [Memory.onTx] at hs
    split at hs <;> cases hs <;> exact .inr ⟨_, rfl, fun row hrow => .inl hrow⟩
  | flagWallet | updateWebhookEvent | insertDeadLetter | updateDeadLetter | updateOnRamp
  | updateMissing | rollback =>
    cases hs
    exact .inr ⟨_, rfl, fun row hrow => .inl hrow⟩

/-- **A call stages no new row but its own**: every new row of a transaction after a call
was one before, or is the row the call staged in it. -/
theorem newRowsOf_step {c : MemoryCall} (hs : M.step c = some (M', r)) (j : Nat) :
    ∀ row ∈ M'.newRowsOf j, row ∈ M.newRowsOf j ∨ c = .tx j (.insertWebhookEvent row) := by
  intro row hrow
  cases c with
  | begin =>
    cases hs
    refine .inl ?_
    simp only [newRowsOf, List.getElem?_append] at hrow ⊢
    split at hrow
    · exact hrow
    · -- past the transactions begun before, only the new one, with no rows
      cases hj : j - M.txs.length with
      | zero => simp [hj, MemTx.empty] at hrow
      | succ k => simp [hj] at hrow
  | store c =>
    simp only [Memory.step] at hs
    split at hs <;> (cases hs; exact .inl hrow)
  | tx h c =>
    simp only [Memory.step] at hs
    split at hs
    · cases hs
    · next t ht =>
      split at hs
      · split at hs <;> (cases hs; exact .inl hrow)
      · rcases onTx_txs hs with htxs | ⟨t', htxs, hnew⟩
        · rw [newRowsOf, htxs] at hrow
          exact .inl hrow
        · simp only [newRowsOf, htxs, List.getElem?_set] at hrow
          by_cases hj : h = j
          · subst hj
            have hlt : h < M.txs.length := (List.getElem?_eq_some_iff.mp ht).1
            simp only [if_pos hlt, if_true, Option.map_some, Option.getD_some] at hrow
            rcases hnew row hrow with hrow | hc
            · exact .inl (by simp [newRowsOf, ht, hrow])
            · exact .inr (by rw [hc])
          · simp only [if_neg hj] at hrow
            exact .inl hrow

/-- **Every run of calls keeps the memory sound**, when each call writes its rows and
cases with the keys their ids belong to and no two calls stage new rows of one payment in
one transaction, the rows staged before the run included. -/
theorem Sound.run (hM : M.Sound paymentOf purchaseOf) {calls : List MemoryCall}
    (hk : ∀ c ∈ calls, c.KeepsKeys paymentOf purchaseOf)
    (hapart : calls.Pairwise MemoryCall.InsertsApart)
    (hstaged : ∀ j, ∀ row ∈ M.newRowsOf j, ∀ c ∈ calls, ∀ row',
      c = .tx j (.insertWebhookEvent row') → row.externalId ≠ row'.externalId) :
    (M.run calls).Sound paymentOf purchaseOf := by
  induction calls generalizing M with
  | nil => exact hM
  | cons c cs ih =>
    obtain ⟨hfirst, hrest⟩ := List.pairwise_cons.mp hapart
    have hk' : ∀ c' ∈ cs, c'.KeepsKeys paymentOf purchaseOf := fun c' hc' => hk c' (List.mem_cons_of_mem c hc')
    cases hs : M.step c with
    | none =>
      simp only [Memory.run, hs, Option.map_none, Option.getD_none]
      exact ih hM hk' hrest fun j row hrow c' hc' => hstaged j row hrow c' (List.mem_cons_of_mem c hc')
    | some p =>
      obtain ⟨M₁, r₁⟩ := p
      simp only [Memory.run, hs, Option.map_some, Option.getD_some]
      -- the row the call stages is of a payment its transaction has no new row of
      have hM₁ : M₁.Sound paymentOf purchaseOf := by
        refine hM.step (hk c List.mem_cons_self) (fun h row t hc ht hmem => ?_) hs
        obtain ⟨row₀, hrow₀, hext⟩ := List.mem_map.mp hmem
        exact hstaged h row₀ (by simp [newRowsOf, ht, hrow₀]) c List.mem_cons_self row hc hext
      refine ih hM₁ hk' hrest fun j row hrow c' hc' row' hc'' => ?_
      rcases newRowsOf_step hs j row hrow with hrow | hc
      · exact hstaged j row hrow c' (List.mem_cons_of_mem c hc') row' hc''
      · have := hfirst c' hc'
        rw [hc, hc''] at this
        exact this rfl

end Memory

/-! ## Whole commits -/

namespace Memory

variable {M M' : Memory} {r : Reply}

/-- **A commit is whole.** The commit of an open transaction answers the error of the
first of its staged writes whose check fails, every write before it passing, and leaves
the store as it was; or, when every check passes, it answers with no error and the store
is the store with every staged write applied, in the order staged. -/
theorem commit_whole {h : Nat} {t : MemTx} (ht : M.txs[h]? = some t) (hopen : t.done = false) :
    ∃ M' r, M.step (.tx h .commit) = some (M', r) ∧
      ((∃ pre w post e, t.ops = pre ++ w :: post ∧ (∀ v ∈ pre, M.store.check v = none) ∧
          M.store.check w = some e ∧ r = .error e ∧ M'.store = M.store) ∨
        ((∀ w ∈ t.ops, M.store.check w = none) ∧ r = .ok ∧
          M'.store = t.ops.foldl MemoryStore.apply M.store)) := by
  cases hfirst : t.ops.findSome? M.store.check with
  | some e =>
    -- the commit stops at the first write whose check fails
    obtain ⟨pre, w, post, hops, hw, hpre⟩ := List.findSome?_eq_some_iff.mp hfirst
    refine ⟨M.setTx h t.close, .error e, ?_, .inl ⟨pre, w, post, e, hops, hpre, hw, rfl, rfl⟩⟩
    simp [Memory.step, ht, hopen, Memory.onTx, MemoryStore.commit, hfirst]
  | none =>
    refine ⟨{ M with store := t.ops.foldl MemoryStore.apply M.store }.setTx h t.close, .ok, ?_,
      .inr ⟨List.findSome?_eq_none_iff.mp hfirst, rfl, rfl⟩⟩
    simp [Memory.step, ht, hopen, Memory.onTx, MemoryStore.commit, hfirst]

/-- **Every other call of a transaction leaves the store as it was**: its writes wait for
the commit, and a rollback drops them. -/
theorem store_of_tx {h : Nat} {c : TxCall} (hc : c ≠ .commit) (hs : M.step (.tx h c) = some (M', r)) :
    M'.store = M.store := by
  simp only [Memory.step] at hs
  split at hs
  · cases hs
  · next t ht =>
    split at hs
    · split at hs <;> (cases hs; rfl)
    · cases c with
      | commit => exact absurd rfl hc
      | lockWallet id =>
        simp only [Memory.onTx] at hs
        split at hs
        · cases hs
          rfl
        · split at hs
          · cases hs
            rfl
          · split at hs
            · cases hs
            · cases hs
              rfl
      | updateWalletBalance | insertLedgerEntry | insertWebhookEvent =>
        simp only [Memory.onTx] at hs
        split at hs <;> (cases hs; rfl)
      | flagWallet | updateWebhookEvent | insertDeadLetter | updateDeadLetter | updateOnRamp
      | updateMissing | rollback =>
        cases hs
        rfl

end Memory

/-- **Commits are whole, and the store keeps its keys unique and indexed.** Take any
run of calls from the empty store, transactions and calls outside any interleaved in any
order. In the state it reaches, a commit of an open transaction answers the error of the
first staged write whose check fails and changes nothing, or applies every staged write
in the order staged; every other call of a transaction, a rollback included, leaves the
store as it was. And the run keeps each key unique and its map sending it to the row
that carries it, as long as every row and case is written with the key its id belongs to
and no transaction stages two new rows of one payment. -/
theorem Memory.commits_whole_keys_indexed (calls : List MemoryCall) :
    let M := Memory.empty.run calls
    (∀ (h : Nat) (t : MemTx), M.txs[h]? = some t → t.done = false →
      ∃ M' r, M.step (.tx h .commit) = some (M', r) ∧
        ((∃ pre w post e, t.ops = pre ++ w :: post ∧ (∀ v ∈ pre, M.store.check v = none) ∧
            M.store.check w = some e ∧ r = .error e ∧ M'.store = M.store) ∨
          ((∀ w ∈ t.ops, M.store.check w = none) ∧ r = .ok ∧
            M'.store = t.ops.foldl MemoryStore.apply M.store))) ∧
    (∀ (M' : Memory) (h : Nat) (c : TxCall) (r : Reply), c ≠ .commit →
      M.step (.tx h c) = some (M', r) → M'.store = M.store) ∧
    (∀ paymentOf purchaseOf : String → String,
      (∀ c ∈ calls, c.KeepsKeys paymentOf purchaseOf) → calls.Pairwise MemoryCall.InsertsApart →
      M.store.Indexed) := by
  intro M
  refine ⟨fun h t ht hopen => Memory.commit_whole ht hopen,
    fun M' h c r hc hs => Memory.store_of_tx hc hs, fun paymentOf purchaseOf hk hapart => ?_⟩
  refine ((Memory.sound_empty paymentOf purchaseOf).run hk hapart fun j row hrow => ?_).indexed
  simp [Memory.newRowsOf, Memory.empty] at hrow

/-- Two transactions each stage a row of payment `x` and commit, and a case is added and
written back outside them: the second commit is refused, and the keys stay unique and
indexed. -/
theorem Memory.commits_whole_keys_indexed_raced :
    let row : WebhookEvent := ⟨"r1", "moonpay", "x", "h", .processed, 0, none, none, "e1", "w1", "",
      default, default⟩
    let case : MissingWebhookAlert := ⟨"a1", "o1", "w1", "moonpay", 10, .pending, none, default⟩
    let calls : List MemoryCall := [.begin, .begin, .tx 0 (.insertWebhookEvent row),
      .tx 1 (.insertWebhookEvent { row with id := "r2" }), .tx 0 .commit, .tx 1 .commit,
      .store (.insertMissing case), .store (.updateMissing { case with status := .manualReviewed } .pending)]
    (∀ c ∈ calls, c.KeepsKeys (fun _ => "x") (fun _ => "o1")) ∧
      calls.Pairwise MemoryCall.InsertsApart ∧ (Memory.empty.run calls).store.Indexed := by
  intro row case calls
  have hk : ∀ c ∈ calls, c.KeepsKeys (fun _ => "x") (fun _ => "o1") := by
    simp [calls, MemoryCall.KeepsKeys, MemoryCall.rows, MemoryCall.cases, row, case]
  have hapart : calls.Pairwise MemoryCall.InsertsApart := by
    simp [calls, MemoryCall.InsertsApart]
  exact ⟨hk, hapart, (Memory.commits_whole_keys_indexed calls).2.2 _ _ hk hapart⟩

/-- **A case written back with another purchase stays indexed under its old one.** A case
of purchase `o1` is written back as a case of `o2`, on condition that it is still
pending. The map still sends `o1` to it and has nothing for `o2`, so a second case of
`o2` is let in: `o2` has two cases, and the keys are no longer unique. -/
theorem Memory.case_moved_indexed_twice :
    let moved : MissingWebhookAlert := ⟨"a1", "o1", "w1", "moonpay", 10, .pending, none, default⟩
    let M := Memory.empty.run [.store (.insertMissing moved),
      .store (.updateMissing { moved with onRampId := "o2" } .pending),
      .store (.insertMissing { moved with id := "a2", onRampId := "o2" })]
    M.store.tables.missing.map (·.onRampId) = ["o2", "o2"] ∧ ¬ M.store.Indexed := by
  intro moved M
  have hcases : M.store.tables.missing.map (·.onRampId) = ["o2", "o2"] := by decide
  refine ⟨hcases, fun hi => ?_⟩
  have hpurchases := hi.missing.keys_nodup
  rw [hcases] at hpurchases
  simp at hpurchases

/-- **Two rows staged for one payment in one transaction are both added.** The commit
checks each staged row against the store, where the payment has no row yet, and not
against the other. -/
theorem Memory.rows_staged_together_added_twice :
    let row : WebhookEvent := ⟨"r1", "moonpay", "x", "h", .processed, 0, none, none, "e1", "w1", "",
      default, default⟩
    let M := Memory.empty.run [.begin, .tx 0 (.insertWebhookEvent row),
      .tx 0 (.insertWebhookEvent { row with id := "r2" }), .tx 0 .commit]
    M.store.tables.webhooks.map (·.externalId) = ["x", "x"] ∧ ¬ M.store.Indexed := by
  intro row M
  have hrows : M.store.tables.webhooks.map (·.externalId) = ["x", "x"] := by decide
  refine ⟨hrows, fun hi => ?_⟩
  have hpayments := hi.webhooks.keys_nodup
  rw [hrows] at hpayments
  simp at hpayments

end OnrampLedger
