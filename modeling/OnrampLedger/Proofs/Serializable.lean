import OnrampLedger.Proofs.Discipline
import OnrampLedger.Store.Interleaving

/-!
# Serializable commits

Transactions run together (`Machine.run`): each thread takes its steps whenever the
scheduler picks it, waits for the row locks it calls for, and commits or rolls back.
This module proves that every such run is serializable: at every point of every
schedule, the store is the store that the committed transactions leave when run one
after another, each alone, in the order they committed (`Tx.serial`), but for what the
on-ramp rows say. That holds of transactions that keep the discipline of
`Tx.Disciplined`, each having drawn its own unused id for a new payment row.

The proof is one invariant of the machine (`Machine.Serializes`), kept by every step:

* the store is the serial store of the committed transactions, up to on-ramp rows;
* no two threads hold one lock;
* every running thread's history is a run of its transaction, its staged state changes
  only rows it locked (`TxState.Owned`), and what it read still stands in the store as
  far as it relies on it (`Reading.Stays`);
* the payment rows have distinct ids, and no running thread's drawn id is in use.

A commit is where it comes together. The committing thread's readings stand, and its
commit's checks guard those that need not (`Reading.holds_of_stays`), so its history is
a run against the store it commits to (`Tx.Reaches.moves`), and the commit leaves what
its lone run leaves on the serial store (`Tx.Disciplined.runAlone_of_moves`). Its
writes touch only rows it locked and at most one payment row, so what the other running
threads rely on stays (`Reading.Stays.commit`).

## Main results

* `Reading.Stays.commit` — a commit that writes no row locked by a thread keeps what the
  thread relies on.
* `Machine.Serializes.perform` — every choice of the scheduler keeps the invariant.
* `Machine.run_sameButOnRamps_serial` — every run agrees with the serial run of its
  committed transactions, but for on-ramp rows.
-/

namespace OnrampLedger

/-! ## What a running transaction relies on -/

/-- What a transaction holding the locks `held` relies on, of a reading, in store `s`.
A wallet found exists; a row, the ledger sums and the newest entry read under a lock are
unchanged while the lock is held; a key found taken is taken by the same entry, and a
user's wallet is the one found. A payment row found is still the first row of its
payment, or it was processed since while the status read was not settled, so that the
transaction's write-back, conditioned on the status read, fails at its commit. What was
found missing is not relied on: the commit checks it. -/
def Reading.Stays (s : Store) (held : List String) : Reading → Prop
  | .present id => (s.wallet? id).isSome
  | .row id w => id ∈ held ∧ s.wallet? id = some w
  | .key k (some e) => s.entryByKey? k = some e
  | .key _ none => True
  | .event x (some p) =>
    s.webhookByExternal? x = some p ∨
      (¬ p.status.Settled ∧ (s.webhook? p.id).map (·.status) = some .processed)
  | .event _ none => True
  | .user u a => (s.walletOfUser? u).map (fun w => (w.id, w.currency)) = a
  | .sums id v => id ∈ held ∧ Store.sumsOf (s.entriesOf id) = v
  | .latest id v => id ∈ held ∧ s.latestAfter id = v

namespace Reading

variable {s : Store} {held held' : List String} {r : Reading}

theorem Stays.mono (h : r.Stays s held) (hsub : held ⊆ held') : r.Stays s held' := by
  match r, h with
  | .row _ _, ⟨hid, hw⟩ => exact ⟨hsub hid, hw⟩
  | .sums _ _, ⟨hid, hv⟩ => exact ⟨hsub hid, hv⟩
  | .latest _ _, ⟨hid, hv⟩ => exact ⟨hsub hid, hv⟩
  | .present _, h | .key _ none, h | .key _ (some _), h | .event _ none, h
  | .event _ (some _), h | .user _ _, h => exact h

/-- **A reading relied on and guarded holds at a commit that passes**: a key found free
is a key the commit writes, a payment row found missing a row it inserts, and a payment
row processed since it was read fails the write-back's check on the status read. -/
theorem holds_of_stays {ws : List Write} (h : r.Stays s held) (hcov : r.CoveredBy ws)
    (hcheck : ∀ w ∈ ws, w.check s = true) : r.Holds s := by
  match r, h, hcov with
  | .present _, h, _ => exact h
  | .row _ _, ⟨_, hw⟩, _ => exact hw
  | .key _ (some _), h, _ => exact h
  | .key _ none, _, ⟨e, he, hk⟩ =>
    have hfree := hcheck _ he
    simp only [Write.check, Option.isNone_iff_eq_none, hk] at hfree
    exact hfree
  | .event _ none, _, ⟨new, hnew, hx⟩ =>
    have hfree := hcheck _ hnew
    simp only [Write.check, Option.isNone_iff_eq_none, hx] at hfree
    exact hfree
  | .event _ (some _), .inl h, _ => exact h
  | .event _ (some _), .inr ⟨hns, _⟩, .inl hs => exact absurd hs hns
  | .event _ (some p), .inr ⟨hns, hproc⟩, .inr ⟨back, hback, hid⟩ =>
    have hcond := hcheck _ hback
    simp only [Write.check, hid] at hcond
    cases hq : s.webhook? p.id with
    | none => simp [hq] at hproc
    | some q =>
      -- the row is processed now, and the check finds the status read: so that status
      -- was processed, which is settled
      simp only [hq, Option.map_some, Option.some.injEq] at hproc
      simp only [hq, Option.any_some, beq_iff_eq, hproc] at hcond
      exact absurd (.inl hcond.symm) hns
  | .user _ _, h, _ => exact h
  | .sums _ _, ⟨_, hv⟩, _ => exact hv
  | .latest _ _, ⟨_, hv⟩, _ => exact hv

end Reading

/-! ## What a commit keeps -/

/-- The payment-row writes a commit may carry against the store `s` it commits to, in
the order staged: none; a new row under an id not in use; or a row written back
processed over the row of its id, a row of the same payment whose status was not
settled. -/
inductive Store.EventWrites (s : Store) : List Write → Prop
  | none : Store.EventWrites s []
  | insert {row : WebhookEvent} : row.id ∉ s.webhooks.map (·.id) →
      Store.EventWrites s [.insertEvent row]
  | update {row p : WebhookEvent} {st : WebhookStatus} : s.webhook? row.id = some p →
      p.externalId = row.externalId → ¬ p.status.Settled → row.status = .processed →
      Store.EventWrites s [.updateEvent row st]

namespace Store

variable {s : Store} {ws : List Write}

/-- Lookups that read only a wallet's id, owner and currency agree on stores whose
wallets agree on those. -/
theorem find?_keys_congr {l₁ l₂ : List Wallet} (h : l₁.map Wallet.keys = l₂.map Wallet.keys)
    (p : String × String × String → Bool) :
    (l₁.find? (fun w => p w.keys)).map Wallet.keys = (l₂.find? (fun w => p w.keys)).map Wallet.keys := by
  have h₁ : (l₁.map Wallet.keys).find? p = (l₁.find? (p ∘ Wallet.keys)).map Wallet.keys :=
    List.find?_map
  have h₂ : (l₂.map Wallet.keys).find? p = (l₂.find? (p ∘ Wallet.keys)).map Wallet.keys :=
    List.find?_map
  rw [h] at h₁
  exact h₁.symm.trans h₂

theorem wallet?_isSome_foldl (ws : List Write) (id : String) :
    ((ws.foldl Write.apply s).wallet? id).isSome = (s.wallet? id).isSome := by
  have hkeys : (ws.foldl Write.apply s).wallets.map Wallet.keys = s.wallets.map Wallet.keys :=
    foldl_walletKeys ws
  have h := congrArg Option.isSome (find?_keys_congr hkeys fun k => k.1 == id)
  simpa [wallet?, Wallet.keys] using h

theorem walletOfUser?_foldl (ws : List Write) (u : String) :
    ((ws.foldl Write.apply s).walletOfUser? u).map (fun w => (w.id, w.currency)) =
      (s.walletOfUser? u).map (fun w => (w.id, w.currency)) := by
  have hkeys : (ws.foldl Write.apply s).wallets.map Wallet.keys = s.wallets.map Wallet.keys :=
    foldl_walletKeys ws
  have h := congrArg (Option.map fun k : String × String × String => (k.1, k.2.2))
    (find?_keys_congr hkeys fun k => k.2.1 == u)
  simpa [walletOfUser?, Wallet.keys, Option.map_map, Function.comp_def] using h

/-- A key taken stays taken by its entry: the ledger only grows. -/
theorem entryByKey?_foldl {k : String} {e : LedgerEntry} (ws : List Write)
    (h : s.entryByKey? k = some e) : (ws.foldl Write.apply s).entryByKey? k = some e := by
  unfold entryByKey? at h ⊢
  split at h
  · cases h
  · next hk => rw [if_neg hk, foldl_ledger, List.find?_append, h, Option.some_or]

/-- A wallet's entries stay the same through writes that do not name it. -/
theorem entriesOf_foldl {id : String} (h : ∀ w ∈ ws, w.wallet ≠ some id) :
    (ws.foldl Write.apply s).entriesOf id = s.entriesOf id := by
  unfold entriesOf
  rw [foldl_ledger, List.filter_append, List.append_right_eq_self, List.filter_eq_nil_iff]
  intro e he
  obtain ⟨w, hw, hew⟩ := List.mem_flatMap.mp he
  cases w with
  | entry e' =>
    simp only [Write.appended, List.mem_singleton] at hew
    subst hew
    simpa [Write.wallet] using h _ hw
  | _ => simp [Write.appended] at hew

theorem latestAfter_foldl {id : String} (h : ∀ w ∈ ws, w.wallet ≠ some id) :
    (ws.foldl Write.apply s).latestAfter id = s.latestAfter id := by
  simp only [latestAfter, entriesOf_foldl h]

end Store

namespace Store.EventWrites

variable {s s' : Store} {ews : List Write}

theorem nodup (he : s.EventWrites ews) (hn : (s.webhooks.map (·.id)).Nodup) :
    ((ews.foldl (fun l w => w.events l) s.webhooks).map (·.id)).Nodup := by
  cases he with
  | none => exact hn
  | insert hfresh =>
    simpa [Write.events, List.nodup_append, hn] using hfresh
  | update =>
    simp only [List.foldl_cons, List.foldl_nil, Write.events]
    rw [map_key_replaceFirst]
    exact hn

/-- An id in use after the writes was in use before, or is the new row's. -/
theorem mem_ids {x : String} (he : s.EventWrites ews)
    (hx : x ∈ (ews.foldl (fun l w => w.events l) s.webhooks).map (·.id)) :
    x ∈ s.webhooks.map (·.id) ∨ ∃ row, ews = [.insertEvent row] ∧ x = row.id := by
  cases he with
  | none => exact .inl hx
  | @insert row _ =>
    simp only [List.foldl_cons, List.foldl_nil, Write.events, List.map_append, List.mem_append,
      List.map_cons, List.map_nil, List.mem_singleton] at hx
    exact hx.imp_right fun h => ⟨row, rfl, h⟩
  | update =>
    simp only [List.foldl_cons, List.foldl_nil, Write.events] at hx
    rw [map_key_replaceFirst] at hx
    exact .inl hx

/-- **The payment-row writes keep what a payment row read relies on**: a row written back
over the row read is a processed row over one that was not settled, and no other row of
the payment comes first. -/
theorem stays {held : List String} {x : String} {p : WebhookEvent} (he : s.EventWrites ews)
    (hn : (s.webhooks.map (·.id)).Nodup)
    (hs' : s'.webhooks = ews.foldl (fun l w => w.events l) s.webhooks)
    (h : (Reading.event x (some p)).Stays s held) : (Reading.event x (some p)).Stays s' held := by
  simp only [Reading.Stays, Store.webhookByExternal?, Store.webhook?, hs'] at h ⊢
  cases he with
  | none => exact h
  | insert =>
    simp only [List.foldl_cons, List.foldl_nil, Write.events, List.find?_append]
    rcases h with h | ⟨hns, hproc⟩
    · exact .inl (by rw [h, Option.some_or])
    · obtain ⟨q, hq, hqs⟩ := Option.map_eq_some_iff.mp hproc
      exact .inr ⟨hns, by rw [hq, Option.some_or, Option.map_some, hqs]⟩
  | @update row p₀ _ hp₀ hext hns₀ hrow =>
    simp only [Store.webhook?] at hp₀
    simp only [List.foldl_cons, List.foldl_nil, Write.events]
    by_cases hid : p.id = row.id
    · -- the row read is the one written back: it was not settled, and is processed now
      have hp : p = p₀ := by
        rcases h with h | ⟨_, hproc⟩
        · have hmem : p ∈ s.webhooks := List.mem_of_find?_eq_some h
          have hfind := find?_key_of_mem hn hmem
          rw [hid] at hfind
          exact Option.some.inj (hfind.symm.trans hp₀)
        · rw [hid, hp₀] at hproc
          simp only [Option.map_some, Option.some.injEq] at hproc
          exact absurd (.inl hproc) hns₀
      subst hp
      refine .inr ⟨hns₀, ?_⟩
      rw [hid, find?_replaceFirst_self (by simp) ⟨p, List.mem_of_find?_eq_some hp₀, by simp [hid]⟩]
      simp [hrow]
    · rcases h with h | ⟨hns, hproc⟩
      · refine .inl (find?_replaceFirst_of_agree ?_ h (by simpa using hid))
        intro w hw
        rw [Option.some.inj (hw.symm.trans hp₀), hext]
      · exact .inr ⟨hns, by rw [find?_replaceFirst_of_ne hid]; exact hproc⟩

end Store.EventWrites

/-- **A commit keeps what another transaction relies on**, when it writes no wallet row
that transaction has locked, and its payment-row writes are as a disciplined
transaction stages them. -/
theorem Reading.Stays.commit {s : Store} {held : List String} {r : Reading} {ws : List Write}
    (hwallet : ∀ w ∈ ws, ∀ id ∈ held, w.wallet ≠ some id)
    (hevents : s.EventWrites (ws.filter Write.touchesEvents))
    (hnodup : (s.webhooks.map (·.id)).Nodup) (h : r.Stays s held) :
    r.Stays (ws.foldl Write.apply s) held := by
  match r, h with
  | .present id, h =>
    show ((ws.foldl Write.apply s).wallet? id).isSome
    rw [Store.wallet?_isSome_foldl]
    exact h
  | .row id w, ⟨hid, hw⟩ =>
    exact ⟨hid, by rw [Store.foldl_wallet?_of_ne fun v hv => hwallet v hv id hid]; exact hw⟩
  | .key _ none, _ | .event _ none, _ => trivial
  | .key _ (some _), h => exact Store.entryByKey?_foldl ws h
  | .event _ (some _), h => exact hevents.stays hnodup (Store.foldl_webhooks ws) h
  | .user u a, h =>
    show ((ws.foldl Write.apply s).walletOfUser? u).map (fun w => (w.id, w.currency)) = a
    rw [Store.walletOfUser?_foldl]
    exact h
  | .sums id _, ⟨hid, hv⟩ =>
    exact ⟨hid, by rw [Store.entriesOf_foldl fun v hv => hwallet v hv id hid]; exact hv⟩
  | .latest id _, ⟨hid, hv⟩ =>
    exact ⟨hid, by rw [Store.latestAfter_foldl fun v hv => hwallet v hv id hid]; exact hv⟩


/-! ## What a running transaction owns -/

variable {f : Option String} {s : Store} {t : TxState}

/-- The payment-row write a disciplined transaction that drew `fresh` may stage, having
read `seen`: a new row under the drawn id, or a row it read, written back processed on
condition of a status that processing does not leave alone. -/
def Write.EventPlanned (fresh : Option String) (seen : List Reading) : Write → Prop
  | .insertEvent row => fresh = some row.id
  | .updateEvent row st => row.status = .processed ∧ ¬ st.Settled ∧
    ∃ x p, Reading.event x (some p) ∈ seen ∧ p.id = row.id ∧ p.externalId = row.externalId ∧
      p.status = st
  | _ => False

theorem Write.EventPlanned.mono {w : Write} {seen seen' : List Reading}
    (h : w.EventPlanned f seen) (hsub : seen ⊆ seen') : w.EventPlanned f seen' := by
  cases w with
  | insertEvent => exact h
  | updateEvent row st =>
    obtain ⟨hrow, hst, x, p, hp, hrest⟩ := h
    exact ⟨hrow, hst, x, p, hsub hp, hrest⟩
  | _ => exact h.elim

/-- What a running transaction's own state keeps: copies of rows it locked only, wallet
writes to rows it locked only, and at most one payment-row write, as planned. -/
structure TxState.Owned (fresh : Option String) (t : TxState) : Prop where
  cache : ∀ w ∈ t.cache, w.id ∈ t.held
  writes : ∀ w ∈ t.writes, ∀ id, w.wallet = some id → id ∈ t.held
  events : t.writes.filter Write.touchesEvents = [] ∨
    ∃ w, t.writes.filter Write.touchesEvents = [w] ∧ w.EventPlanned fresh t.seen

theorem TxState.Owned.empty : TxState.empty.Owned f :=
  ⟨by simp [TxState.empty], by simp [TxState.empty], .inl rfl⟩

/-- A state that took locks, read, and staged the writes `ws`, to rows it locked, with
at most one payment-row write, as planned, owns what it changes. -/
theorem TxState.Owned.extend {t' : TxState} (h : t.Owned f) (ws : List Write)
    (hheld : t.held ⊆ t'.held) (hseen : t.seen ⊆ t'.seen)
    (hcache : ∀ w ∈ t'.cache, w.id ∈ t'.held) (hwrites : t'.writes = t.writes ++ ws)
    (hwallet : ∀ w ∈ ws, ∀ id, w.wallet = some id → id ∈ t'.held)
    (hevents : ws.filter Write.touchesEvents = [] ∨
      (t.writes.filter Write.touchesEvents = [] ∧
        ∃ w, ws.filter Write.touchesEvents = [w] ∧ w.EventPlanned f t'.seen)) :
    t'.Owned f where
  cache := hcache
  writes := by
    rw [hwrites]
    intro w hw id hid
    rcases List.mem_append.mp hw with hw | hw
    · exact hheld (h.writes w hw id hid)
    · exact hwallet w hw id hid
  events := by
    rw [hwrites, List.filter_append]
    rcases hevents with hnone | ⟨hold, w, hw, hplan⟩
    · rw [hnone, List.append_nil]
      exact h.events.imp_right fun ⟨w, hw, hplan⟩ => ⟨w, hw, hplan.mono hseen⟩
    · exact .inr ⟨w, by rw [hold, hw, List.nil_append], hplan⟩

theorem Call.held_subset_next (c : Call) (t : TxState) (a : c.Answer) :
    t.held ⊆ (c.next t a).held := by
  cases c <;> simp only [Call.next] <;> (try split) <;> simp

/-- **A call keeps what the transaction owns**, when the discipline allows it. -/
theorem TxState.Owned.next {c : Call} {a : c.Answer} (h : t.Owned f)
    (hallowed : c.Allowed f t ∨ c.readsOnRamps = true) (hr : c.result s t = some a) :
    (c.next t a).Owned f := by
  have hheld := Call.held_subset_next c t a
  have hseen := (Call.seen_prefix_next c t a).subset
  have hno : ∀ w ∈ ([] : List Write), ∀ id, w.wallet = some id → id ∈ (c.next t a).held := by simp
  cases c with
  | readRow id =>
    -- the row read under the lock is the locked wallet's
    have hid : id ∈ t.held := hallowed.resolve_right (by simp [Call.readsOnRamps])
    have ha : a.id = id := by simpa using List.find?_some hr
    refine h.extend [] hheld hseen ?_ (by simp [Call.next]) hno (.inl rfl)
    intro w hw
    simp only [Call.next, List.mem_append, List.mem_singleton] at hw ⊢
    rcases hw with hw | rfl
    · exact h.cache w hw
    · rw [ha]
      exact hid
  | post e =>
    -- the entry's wallet is one the transaction holds a copy of, hence locked
    have hwallet : e.wallet ∈ t.held := by
      simp only [Call.result] at hr
      split at hr
      · next hc =>
        simp only [Bool.and_eq_true, Option.isSome_iff_exists] at hc
        obtain ⟨⟨⟨w, hw⟩, _⟩, _⟩ := hc
        have hwid : w.id = e.wallet := by simpa using List.find?_some hw
        exact hwid ▸ h.cache w (List.mem_of_find?_eq_some hw)
      · cases hr
    refine h.extend [.balance e.wallet e.after e.createdAt, .entry e] hheld hseen ?_
      (by simp [Call.next]) ?_ (.inl (by simp [Write.touchesEvents]))
    · intro w hw
      simp only [Call.next, List.mem_map] at hw ⊢
      obtain ⟨v, hv, rfl⟩ := hw
      split <;> exact h.cache v hv
    · intro w hw id hid
      have hid : e.wallet = id := by
        simp only [List.mem_cons, List.not_mem_nil, or_false] at hw
        rcases hw with rfl | rfl <;> simpa [Write.wallet] using hid
      simpa [Call.next, ← hid] using hwallet
  | insertEvent row =>
    have hallowed : f = some row.id ∧ ∀ w ∈ t.writes, w.touchesEvents = false :=
      hallowed.resolve_right (by simp [Call.readsOnRamps])
    refine h.extend [.insertEvent row] hheld hseen (fun w hw => hheld (h.cache w hw))
      (by simp [Call.next]) (by simp [Write.wallet]) (.inr ⟨?_, .insertEvent row, rfl, hallowed.1⟩)
    simpa [List.filter_eq_nil_iff] using hallowed.2
  | stage w =>
    cases w with
    | updateEvent row st =>
      obtain ⟨hrow, hst, hnone, x, p, hp, hid, hext, hps⟩ :=
        hallowed.resolve_right (by simp [Call.readsOnRamps])
      refine h.extend [.updateEvent row st] hheld hseen (fun w hw => hheld (h.cache w hw))
        (by simp [Call.next]) (by simp [Write.wallet])
        (.inr ⟨by simpa [List.filter_eq_nil_iff] using hnone, .updateEvent row st, rfl,
          hrow, hst, x, p, hseen hp, hid, hext, hps⟩)
    | flag id reason delta time =>
      have hid : id ∈ t.held := hallowed.resolve_right (by simp [Call.readsOnRamps])
      refine h.extend [.flag id reason delta time] hheld hseen (fun w hw => hheld (h.cache w hw))
        (by simp [Call.next]) ?_ (.inl (by simp [Write.touchesEvents]))
      intro w hw wid hwid
      simp only [List.mem_singleton] at hw
      subst hw
      simp only [Write.wallet, Option.some.injEq] at hwid
      exact hwid ▸ hid
    | updateOnRamp o =>
      exact h.extend [.updateOnRamp o] hheld hseen (fun w hw => hheld (h.cache w hw))
        (by simp [Call.next]) (by simp [Write.wallet]) (.inl (by simp [Write.touchesEvents]))
    | updateMissing m st =>
      exact h.extend [.updateMissing m st] hheld hseen (fun w hw => hheld (h.cache w hw))
        (by simp [Call.next]) (by simp [Write.wallet]) (.inl (by simp [Write.touchesEvents]))
    | balance | entry | insertEvent | insertDeadLetter | updateDeadLetter =>
      exact (hallowed.resolve_right (by simp [Call.readsOnRamps])).elim
  | cached | present | acquire | entryByKey | eventByExternal | walletOfUser | pendingOnRamp
  | ledgerSums | latestAfter =>
    -- these calls copy no row and stage nothing
    refine h.extend [] hheld hseen (fun w hw => hheld (h.cache w ?_)) ?_ hno (.inl rfl)
    · simpa only [Call.next, apply_ite TxState.cache, ite_self] using hw
    · simp only [Call.next, apply_ite TxState.writes, ite_self, List.append_nil]

/-- A state whose one payment-row write is a new row drew the row's id. -/
theorem TxState.Owned.fresh_of_insert {row : WebhookEvent} (h : t.Owned f)
    (hrow : t.writes.filter Write.touchesEvents = [.insertEvent row]) : f = some row.id := by
  rcases h.events with hnone | ⟨w, hw, hplan⟩
  · rw [hnone] at hrow
    cases hrow
  · rw [hw, List.singleton_inj] at hrow
    subst hrow
    exact hplan

theorem Call.mem_held_next {c : Call} {a : c.Answer} {w : String} (h : w ∈ (c.next t a).held) :
    w ∈ t.held ∨ c = .acquire w := by
  cases c with
  | acquire v =>
    simp only [Call.next, List.mem_append, List.mem_singleton] at h
    rcases h with h | rfl
    · exact .inl h
    · exact .inr rfl
  | _ =>
    simp only [Call.next] at h
    (try split at h) <;> exact .inl h

/-- **What a call reads stays, as far as the transaction relies on it**, when the
discipline allows the call: rows, sums and newest entries are read under a held lock. -/
theorem Call.stays_next {c : Call} {a : c.Answer} (hallowed : c.Allowed f t ∨ c.readsOnRamps = true)
    (hr : c.result s t = some a) : ∀ r ∈ (c.next t a).seen, r ∈ t.seen ∨ r.Stays s t.held := by
  intro r hr'
  obtain ⟨new, hnew⟩ := Call.seen_prefix_next c t a
  rw [← hnew, List.mem_append] at hr'
  refine hr'.imp_right fun hr' => ?_
  cases c with
  | present id =>
    simp only [Call.next, List.append_cancel_left_eq] at hnew
    subst hnew
    rw [List.mem_singleton.mp hr']
    simp only [Call.result] at hr
    split at hr
    · assumption
    · cases hr
  | readRow id =>
    simp only [Call.next, List.append_cancel_left_eq] at hnew
    subst hnew
    rw [List.mem_singleton.mp hr']
    exact ⟨hallowed.resolve_right (by simp [Call.readsOnRamps]), hr⟩
  | entryByKey k =>
    simp only [Call.next] at hnew
    split at hnew
    · simp at hnew
      simp [hnew] at hr'
    · next hstaged =>
      simp only [List.append_cancel_left_eq] at hnew
      subst hnew
      rw [List.mem_singleton.mp hr']
      -- not staged: the answer is the store's
      simp only [Call.result, Option.some.injEq, Option.not_isSome_iff_eq_none.mp hstaged,
        Option.none_or] at hr
      subst hr
      cases hk : s.entryByKey? k
      · trivial
      · exact hk
  | eventByExternal x =>
    simp only [Call.next] at hnew
    split at hnew
    · simp at hnew
      simp [hnew] at hr'
    · next hstaged =>
      simp only [List.append_cancel_left_eq] at hnew
      subst hnew
      rw [List.mem_singleton.mp hr']
      simp only [Call.result, Option.some.injEq, Option.not_isSome_iff_eq_none.mp hstaged,
        Option.none_or] at hr
      subst hr
      cases hx : s.webhookByExternal? x
      · trivial
      · exact .inl hx
  | walletOfUser u =>
    simp only [Call.next, List.append_cancel_left_eq] at hnew
    subst hnew
    rw [List.mem_singleton.mp hr']
    simp only [Call.result, Option.some.injEq] at hr
    exact hr
  | ledgerSums id =>
    simp only [Call.next, List.append_cancel_left_eq] at hnew
    subst hnew
    rw [List.mem_singleton.mp hr']
    simp only [Call.result, Option.some.injEq] at hr
    exact ⟨hallowed.resolve_right (by simp [Call.readsOnRamps]), hr⟩
  | latestAfter id =>
    simp only [Call.next, List.append_cancel_left_eq] at hnew
    subst hnew
    rw [List.mem_singleton.mp hr']
    simp only [Call.result, Option.some.injEq] at hr
    exact ⟨hallowed.resolve_right (by simp [Call.readsOnRamps]), hr⟩
  | post e =>
    -- a key found free by the post is not relied on
    simp only [Call.next, List.append_cancel_left_eq] at hnew
    subst hnew
    rw [List.mem_singleton.mp hr']
    trivial
  | insertEvent row =>
    simp only [Call.next, List.append_cancel_left_eq] at hnew
    subst hnew
    rw [List.mem_singleton.mp hr']
    trivial
  | cached | acquire | pendingOnRamp | stage =>
    simp only [Call.next, List.append_right_eq_self] at hnew
    simp [hnew] at hr'

theorem Store.commit?_eq_some {s s' : Store} {ws : List Write} (h : s.commit? ws = some s') :
    (∀ w ∈ ws, w.check s = true) ∧ s' = ws.foldl Write.apply s := by
  unfold Store.commit? at h
  split at h
  · next hall => exact ⟨List.all_eq_true.mp hall, (Option.some.inj h).symm⟩
  · cases h

theorem Tx.serial_append_singleton (s : Store) (txs : List Tx) (tx : Tx) :
    Tx.serial s (txs ++ [tx]) = tx.runAlone (Tx.serial s txs) TxState.empty := by
  simp [Tx.serial, List.foldl_append]

/-! ## A running thread -/

namespace Tx

/-- What a thread keeps while it runs, over the store `s`: `tx` is what remains of its
transaction `body`, in state `t`, having drawn `fresh` for a new payment row. -/
structure Running (s : Store) (body : Tx) (fresh : Option String) (tx : Tx) (t : TxState) :
    Prop where
  /-- Its history is a run of its transaction. -/
  reaches : Reaches (body, TxState.empty) (tx, t)
  owned : t.Owned fresh
  /-- What it read and relies on still stands. -/
  stays : ∀ r ∈ t.seen, r.Stays s t.held
  /-- The id it drew for a new payment row is not in use. -/
  unused : ∀ x ∈ fresh, x ∉ s.webhooks.map (·.id)

variable {body tx : Tx} {c : Call} {k : c.Answer → Tx} {a : c.Answer}

theorem Running.start (hunused : ∀ x ∈ f, x ∉ s.webhooks.map (·.id)) :
    Running s body f body TxState.empty :=
  ⟨.refl, .empty, by simp [TxState.empty], hunused⟩

theorem moves_of_result (hr : c.result s t = some a) : Moves s (.call c k, t) (k a, c.next t a) := by
  cases c with
  | pendingOnRamp => exact .loose a
  | _ => exact .answer rfl hr

theorem Disciplined.allowed (h : Disciplined f (.call c k) t) : c.Allowed f t ∨ c.readsOnRamps = true := by
  cases h with
  | call hallowed _ => exact .inl hallowed
  | completeOnRamp _ => exact .inr rfl

theorem Running.disciplined (h : Running s body f tx t) (hd : body.Disciplined f TxState.empty) :
    tx.Disciplined f t := by
  have hd : Disciplined f (body, TxState.empty).1 (body, TxState.empty).2 := hd
  exact hd.reaches h.reaches

theorem Running.answer (h : Running s body f (.call c k) t) (hd : body.Disciplined f TxState.empty)
    (hr : c.result s t = some a) : Running s body f (k a) (c.next t a) where
  reaches := h.reaches.tail ⟨s, moves_of_result hr⟩
  owned := h.owned.next (h.disciplined hd).allowed hr
  stays := by
    intro r hr'
    have hsub := Call.held_subset_next c t a
    rcases Call.stays_next (h.disciplined hd).allowed hr r hr' with hold | hnew
    · exact (h.stays r hold).mono hsub
    · exact hnew.mono hsub
  unused := h.unused

theorem Running.fail (h : Running s body f (.call c k) t) (hr : c.result s t = none) :
    Running s body f .rollback t :=
  { h with reaches := h.reaches.tail ⟨s, .fail hr⟩ }

theorem Running.cancel {w : String} {k : Unit → Tx} (h : Running s body f (.call (.acquire w) k) t) :
    Running s body f .rollback t :=
  { h with reaches := h.reaches.tail ⟨s, .cancel⟩ }

/-- At a commit whose checks pass, everything the transaction read holds. -/
theorem Running.holds (h : Running s body f .commit t) (hd : body.Disciplined f TxState.empty)
    (hcheck : ∀ w ∈ t.writes, w.check s = true) : ∀ r ∈ t.seen, r.Holds s := by
  have hcov : t.Covered := by
    cases h.disciplined hd with
    | commit hcov => exact hcov
  exact fun r hr => Reading.holds_of_stays (h.stays r hr) (hcov r hr) hcheck

/-- The payment-row writes of a transaction whose readings hold are as a commit may carry
them. -/
theorem Running.eventWrites (h : Running s body f tx t) (hread : ∀ r ∈ t.seen, r.Holds s)
    (hnodup : (s.webhooks.map (·.id)).Nodup) : s.EventWrites (t.writes.filter Write.touchesEvents) := by
  rcases h.owned.events with hnone | ⟨w, hw, hplan⟩
  · rw [hnone]
    exact .none
  · rw [hw]
    cases w with
    | insertEvent row => exact .insert (h.unused row.id hplan)
    | updateEvent row st =>
      -- the row written back is the row read, which the store still shows under its id
      obtain ⟨hrow, hst, x, p, hp, hid, hext, hps⟩ := hplan
      have hfound : s.webhookByExternal? x = some p := hread _ hp
      have hp' : s.webhook? row.id = some p := by
        rw [← hid]
        exact find?_key_of_mem hnodup (List.mem_of_find?_eq_some hfound)
      exact .update hp' hext (hps ▸ hst) hrow
    | _ => exact hplan.elim

/-- **A committing thread's commit is its lone run on the serial store**: its history is a
run against the store it commits to, and its commit then leaves what its lone run
leaves on any store alike but for on-ramp rows. -/
theorem Running.commit_sameButOnRamps {s' b : Store} (h : Running s body f .commit t)
    (hd : body.Disciplined f TxState.empty) (hs' : s.commit? t.writes = some s')
    (hb : s.SameButOnRamps b) : s'.SameButOnRamps (body.runAlone b TxState.empty) := by
  have hread := h.holds hd (Store.commit?_eq_some hs').1
  have hpath := h.reaches.moves (fun h => by cases h) hread
  exact hd.runAlone_of_moves hpath hs' hb

/-- **Another thread's commit keeps a running thread**, when it writes no row the thread
locked and its new payment row, if any, is not under the id the thread drew. -/
theorem Running.commit_other {ws : List Write} (h : Running s body f tx t)
    (hwallet : ∀ w ∈ ws, ∀ id ∈ t.held, w.wallet ≠ some id)
    (hevents : s.EventWrites (ws.filter Write.touchesEvents))
    (hnodup : (s.webhooks.map (·.id)).Nodup)
    (hnew : ∀ row, ws.filter Write.touchesEvents = [.insertEvent row] → ∀ x ∈ f, x ≠ row.id) :
    Running (ws.foldl Write.apply s) body f tx t where
  reaches := h.reaches
  owned := h.owned
  stays := fun r hr => (h.stays r hr).commit hwallet hevents hnodup
  unused := by
    intro x hx hmem
    rw [Store.foldl_webhooks] at hmem
    rcases hevents.mem_ids hmem with hold | ⟨row, hrow, rfl⟩
    · exact h.unused _ hx hold
    · exact hnew row hrow _ hx rfl

end Tx

/-! ## The machine -/

namespace Machine

variable {n : Nat} {s₀ : Store} {txs : Fin n → Tx} {fresh : Fin n → Option String}
  {M : Machine n}

/-- The invariant of a machine running the transactions `txs` from the store `s₀`, thread
`i` having drawn `fresh i` for a new payment row. -/
structure Serializes (s₀ : Store) (txs : Fin n → Tx) (fresh : Fin n → Option String)
    (M : Machine n) : Prop where
  /-- The store is the serial store of the committed transactions, but for on-ramp rows. -/
  serial : M.store.SameButOnRamps (Tx.serial s₀ M.committed)
  body : ∀ i, (M.threads i).body = txs i
  /-- No two threads hold one lock. -/
  exclusive : ∀ i j, ∀ w ∈ (M.threads i).state.held, w ∈ (M.threads j).state.held → i = j
  running : ∀ i tx, (M.threads i).phase = .running tx →
    Tx.Running M.store (txs i) (fresh i) tx (M.threads i).state
  eventIds : (M.store.webhooks.map (·.id)).Nodup

theorem Serializes.start (hunused : ∀ i, ∀ x ∈ fresh i, x ∉ s₀.webhooks.map (·.id))
    (hnodup : (s₀.webhooks.map (·.id)).Nodup) : (start s₀ txs).Serializes s₀ txs fresh where
  serial := .refl _
  body _ := rfl
  exclusive := by simp [Machine.start, TxState.empty]
  running := by
    intro i tx htx
    simp only [Machine.start, Phase.running.injEq] at htx
    subst htx
    exact Tx.Running.start (hunused i)
  eventIds := hnodup

/-- The invariant after thread `i` becomes `th` while the store becomes `s'` and the
commit record `committed'`: the new thread's locks were its own or free, and every
running thread keeps what it keeps over the new store. -/
theorem Serializes.update (h : M.Serializes s₀ txs fresh) {i : Fin n} {th : Thread} {s' : Store}
    {committed' : List Tx} (hserial : s'.SameButOnRamps (Tx.serial s₀ committed'))
    (hbody : th.body = txs i) (hheld : ∀ w ∈ th.state.held, w ∈ (M.threads i).state.held ∨ M.Free w)
    (hrun : ∀ tx, th.phase = .running tx → Tx.Running s' (txs i) (fresh i) tx th.state)
    (hothers : ∀ j, j ≠ i → ∀ tx, (M.threads j).phase = .running tx →
      Tx.Running s' (txs j) (fresh j) tx (M.threads j).state)
    (hids : (s'.webhooks.map (·.id)).Nodup) :
    ({ M with store := s', committed := committed' }.setThread i th).Serializes s₀ txs fresh where
  serial := hserial
  body := by
    intro j
    rw [setThread_threads]
    split
    · next hj => exact hj ▸ hbody
    · exact h.body j
  exclusive := by
    -- a lock of the new thread was its own or free, so no other thread holds it
    have hown : ∀ w ∈ th.state.held, ∀ j, j ≠ i → w ∉ (M.threads j).state.held := by
      intro w hw j hj hwj
      rcases hheld w hw with hi | hfree
      · exact hj (h.exclusive j i w hwj hi)
      · exact hfree j hwj
    intro j₁ j₂ w hw₁ hw₂
    simp only [setThread_threads] at hw₁ hw₂
    by_cases h₁ : j₁ = i <;> by_cases h₂ : j₂ = i <;> simp only [h₁, h₂, if_true, if_false] at hw₁ hw₂
    · rw [h₁, h₂]
    · exact absurd hw₂ (hown w hw₁ j₂ h₂)
    · exact absurd hw₁ (hown w hw₂ j₁ h₁)
    · exact h.exclusive j₁ j₂ w hw₁ hw₂
  running := by
    intro j tx htx
    simp only [setThread_threads] at htx ⊢
    by_cases hj : j = i
    · subst hj
      simp only [if_true] at htx ⊢
      exact hrun tx htx
    · simp only [hj, if_false] at htx ⊢
      exact hothers j hj tx htx
  eventIds := hids

/-- The invariant after thread `i` alone changes. -/
theorem Serializes.setThread (h : M.Serializes s₀ txs fresh) {i : Fin n} {th : Thread}
    (hbody : th.body = txs i) (hheld : ∀ w ∈ th.state.held, w ∈ (M.threads i).state.held ∨ M.Free w)
    (hrun : ∀ tx, th.phase = .running tx → Tx.Running M.store (txs i) (fresh i) tx th.state) :
    (M.setThread i th).Serializes s₀ txs fresh :=
  h.update h.serial hbody hheld hrun (fun j _ tx htx => h.running j tx htx) h.eventIds

/-- A thread that stops running, keeping its locks, keeps the invariant. -/
theorem Serializes.stop (h : M.Serializes s₀ txs fresh) (i : Fin n) {phase : Phase}
    {state : TxState} (hphase : ∀ tx, phase ≠ .running tx)
    (hheld : ∀ w ∈ state.held, w ∈ (M.threads i).state.held) :
    (M.setThread i { M.threads i with phase := phase, state := state }).Serializes s₀ txs fresh :=
  h.setThread (h.body i) (fun w hw => .inl (hheld w hw)) fun tx htx => absurd htx (hphase tx)

/-- A call answered, or failed, keeps the invariant: a lock it takes was free, or the
call would have waited. -/
theorem Serializes.answer (h : M.Serializes s₀ txs fresh)
    (hd : ∀ i, (txs i).Disciplined (fresh i) TxState.empty) {i : Fin n} {c : Call}
    {k : c.Answer → Tx} (hph : (M.threads i).phase = .running (.call c k))
    (hblocked : ¬ M.blocked c = true) : (M.answer i (M.threads i) c k).Serializes s₀ txs fresh := by
  have hrun := h.running i _ hph
  unfold Machine.answer
  split
  · next a hr =>
    refine h.setThread (h.body i) ?_ ?_
    · intro w hw
      rcases Call.mem_held_next hw with hw | rfl
      · exact .inl hw
      · exact .inr (by simpa [Machine.blocked] using hblocked)
    · intro tx htx
      simp only [Phase.running.injEq] at htx
      subst htx
      exact hrun.answer (hd i) hr
  · next hr =>
    refine h.setThread (h.body i) (fun w hw => .inl hw) ?_
    intro tx htx
    simp only [Phase.running.injEq] at htx
    subst htx
    exact hrun.fail hr

/-- **A commit keeps the invariant**: the committing thread's commit is its lone run on the
serial store, and its writes, to rows it locked and to one payment row at most, keep
every other running thread. -/
theorem Serializes.commit (h : M.Serializes s₀ txs fresh)
    (hd : ∀ i, (txs i).Disciplined (fresh i) TxState.empty)
    (hfresh : ∀ i j, ∀ x ∈ fresh i, x ∈ fresh j → i = j) {i : Fin n} {s' : Store}
    (hph : (M.threads i).phase = .running .commit)
    (hs' : M.store.commit? (M.threads i).state.writes = some s') :
    ({ M with store := s', committed := M.committed ++ [(M.threads i).body] }.setThread i
      { M.threads i with phase := .releasing }).Serializes s₀ txs fresh := by
  have hrun := h.running i _ hph
  have hread := hrun.holds (hd i) (Store.commit?_eq_some hs').1
  have hevents := hrun.eventWrites hread h.eventIds
  have hs'eq : s' = (M.threads i).state.writes.foldl Write.apply M.store := (Store.commit?_eq_some hs').2
  refine h.update ?_ (h.body i) (fun w hw => .inl hw) (fun tx htx => by cases htx) ?_ ?_
  · rw [h.body i, Tx.serial_append_singleton]
    exact hrun.commit_sameButOnRamps (hd i) hs' h.serial
  · -- the other threads hold none of the committing thread's locks, and drew other ids
    intro j hj tx htx
    rw [hs'eq]
    refine (h.running j tx htx).commit_other ?_ hevents h.eventIds ?_
    · intro w hw id hid hwid
      exact hj (h.exclusive j i id hid (hrun.owned.writes w hw id hwid))
    · intro row hrow x hx hxrow
      have hi : fresh i = some row.id := hrun.owned.fresh_of_insert hrow
      exact hj (hfresh j i x hx (hxrow ▸ hi))
  · rw [hs'eq, Store.foldl_webhooks]
    exact hevents.nodup h.eventIds

/-- **Every step keeps the invariant.** -/
theorem Serializes.step (h : M.Serializes s₀ txs fresh)
    (hd : ∀ i, (txs i).Disciplined (fresh i) TxState.empty)
    (hfresh : ∀ i j, ∀ x ∈ fresh i, x ∈ fresh j → i = j) (i : Fin n) :
    (M.step i).Serializes s₀ txs fresh := by
  unfold Machine.step
  dsimp only
  split
  · exact h
  · -- giving back a lock, or finishing with none
    next hph =>
    split
    · exact h.stop i (fun _ h => by cases h) fun _ hw => hw
    · next rest hheld =>
      refine h.stop i (fun tx htx => by rw [hph] at htx; cases htx) fun w hw => ?_
      rw [hheld]
      exact List.mem_cons_of_mem _ hw
  · next hph =>
    split
    · next s' hs' => exact h.commit hd hfresh hph hs'
    · exact h.stop i (fun _ h => by cases h) fun _ hw => hw
  · exact h.stop i (fun _ h => by cases h) fun _ hw => hw
  · next c k hph =>
    split
    · exact h
    · next hblocked => exact h.answer hd hph hblocked

theorem Serializes.cancel (h : M.Serializes s₀ txs fresh) (i : Fin n) :
    (M.cancel i).Serializes s₀ txs fresh := by
  unfold Machine.cancel
  dsimp only
  split
  · next w k hph =>
    refine h.setThread (h.body i) (fun v hv => .inl hv) ?_
    intro tx htx
    simp only [Phase.running.injEq] at htx
    subst htx
    exact (h.running i _ hph).cancel
  · exact h

theorem Serializes.perform (h : M.Serializes s₀ txs fresh)
    (hd : ∀ i, (txs i).Disciplined (fresh i) TxState.empty)
    (hfresh : ∀ i j, ∀ x ∈ fresh i, x ∈ fresh j → i = j) (c : Choice n) :
    (M.perform c).Serializes s₀ txs fresh := by
  cases c with
  | step i => exact h.step hd hfresh i
  | cancel i => exact h.cancel i

theorem Serializes.run (h : M.Serializes s₀ txs fresh)
    (hd : ∀ i, (txs i).Disciplined (fresh i) TxState.empty)
    (hfresh : ∀ i j, ∀ x ∈ fresh i, x ∈ fresh j → i = j) (schedule : List (Choice n)) :
    (M.run schedule).Serializes s₀ txs fresh := by
  induction schedule generalizing M with
  | nil => exact h
  | cons c rest ih => exact ih (h.perform hd hfresh c)

/-- **Every run of disciplined transactions is serializable**: whatever the schedule, the
store agrees with the store that the committed transactions leave when run one after
another, each alone, in the order they committed, in everything but what the on-ramp
rows say. The transactions must each have drawn a distinct, unused id for a new payment
row, over a store whose payment rows have distinct ids. -/
theorem run_sameButOnRamps_serial (hd : ∀ i, (txs i).Disciplined (fresh i) TxState.empty)
    (hfresh : ∀ i j, ∀ x ∈ fresh i, x ∈ fresh j → i = j)
    (hunused : ∀ i, ∀ x ∈ fresh i, x ∉ s₀.webhooks.map (·.id))
    (hnodup : (s₀.webhooks.map (·.id)).Nodup) (schedule : List (Choice n)) :
    ((start s₀ txs).run schedule).store.SameButOnRamps
      (Tx.serial s₀ ((start s₀ txs).run schedule).committed) :=
  ((Serializes.start hunused hnodup).run hd hfresh schedule).serial

end Machine

end OnrampLedger
