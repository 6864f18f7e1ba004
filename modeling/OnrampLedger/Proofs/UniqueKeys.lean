import OnrampLedger.Proofs.DebitRace

/-!
# Whole commits and unique keys

The store keeps four keys unique: an idempotency key names at most one ledger entry, a
provider's payment id at most one payment row, a user at most one wallet, and a
purchase at most one missing-webhook case (`Store.Unique`). Each lookup by such a key
then finds the one row that carries it (`Store.Indexed`).

Transactions running together change the store only at their commits, each one step
of the machine: a commit applies all the writes its transaction staged, in the order
staged, or none of them, and a rollback changes nothing (`Machine.perform_store`).

The commit's checks run against the store as it stands, and they do not see the
transaction's own writes: a transaction that stages two rows of one payment commits
both (`Tx.insertTwice_not_unique`). The keys stay unique for transactions whose writes
keep them apart:

* entries whose keys are checked against those staged before, as `Call.post` does, and
  no entry staged any other way (`TxState.KeysApart`);
* at most one payment row, a new one or one written back over the row it was read
  from, as `Tx.Disciplined` allows;
* missing-webhook cases written back with the purchase they had (`Tx.CasesAmong`).

Every engine transaction is of that shape, so under every schedule the keys stay
unique (`Machine.KeepsKeys.run`).

## Main results

* `Store.Unique.commit` — a commit of writes of that shape keeps the keys unique.
* `Machine.perform_store` — a step leaves the store as it was, or is one whole commit.
* `EngineTx.commits_whole_keys_unique` — commits are whole, and the engine's
  transactions interleaved keep the keys unique.
-/

namespace OnrampLedger

/-! ## Unique keys -/

namespace Store

/-- The unique keys of a store: an idempotency key, when not empty, names at most one
ledger entry, a provider's payment id at most one payment row, a user at most one
wallet, and a purchase at most one missing-webhook case. -/
structure Unique (s : Store) : Prop where
  keys : ((s.ledger.filter (·.key != "")).map (·.key)).Nodup
  externalIds : (s.webhooks.map (·.externalId)).Nodup
  users : (s.wallets.map (·.userId)).Nodup
  purchases : (s.missing.map (·.onRampId)).Nodup

/-- Each lookup by a unique key finds the row that carries the key. -/
structure Indexed (s : Store) : Prop where
  entry : ∀ e ∈ s.ledger, e.key ≠ "" → s.entryByKey? e.key = some e
  webhook : ∀ r ∈ s.webhooks, s.webhookByExternal? r.externalId = some r
  wallet : ∀ w ∈ s.wallets, s.walletOfUser? w.userId = some w
  missing : ∀ a ∈ s.missing, s.missingFor? a.onRampId = some a

/-- Unique keys index their rows. -/
theorem Unique.indexed {s : Store} (h : s.Unique) : s.Indexed where
  entry e he hk := by
    -- entries with no key never match a key that is not empty
    have hfind : s.ledger.find? (·.key == e.key) =
        (s.ledger.filter (·.key != "")).find? (·.key == e.key) := by
      rw [List.find?_filter]
      congr 1
      funext x
      by_cases hx : x.key = e.key <;> simp [hx, hk]
    rw [entryByKey?, if_neg hk, hfind]
    exact find?_key_of_mem h.keys (List.mem_filter.mpr ⟨he, by simpa using hk⟩)
  webhook _ hr := find?_key_of_mem h.externalIds hr
  wallet _ hw := find?_key_of_mem h.users hw
  missing _ ha := find?_key_of_mem h.purchases ha

/-- The id and the purchase of each missing-webhook case: what writing a case back must
keep. -/
def casePairs (s : Store) : List (String × String) := s.missing.map fun a => (a.id, a.onRampId)

end Store

/-! ## What a commit keeps -/

/-- The write keeps the purchase of the cases in `pairs`: a case written back has the
purchase of every case under its id. -/
def Write.KeepsCase (pairs : List (String × String)) : Write → Prop
  | .updateMissing a _ => ∀ p ∈ pairs, p.1 = a.id → p.2 = a.onRampId
  | _ => True

/-- An entry a write appends is the entry of one of the writes. -/
theorem Write.mem_appended {ws : List Write} {e : LedgerEntry}
    (h : e ∈ ws.flatMap Write.appended) : Write.entry e ∈ ws := by
  obtain ⟨w, hw, he⟩ := List.mem_flatMap.mp h
  cases w <;> simp only [Write.appended, List.mem_singleton, List.not_mem_nil] at he
  exact he ▸ hw

namespace Store

variable {s : Store}

/-- Writes that keep the purchase of each case keep the ids and purchases of the cases. -/
theorem casePairs_foldl {pairs : List (String × String)} (hs : s.casePairs = pairs)
    (ws : List Write) (hws : ∀ w ∈ ws, w.KeepsCase pairs) :
    (ws.foldl Write.apply s).casePairs = pairs := by
  induction ws generalizing s with
  | nil => exact hs
  | cons w ws ih =>
    refine ih ?_ fun v hv => hws v (List.mem_cons_of_mem w hv)
    have hw := hws w List.mem_cons_self
    cases w with
    | updateMissing a st =>
      -- the case under the id written keeps its purchase
      rw [← hs]
      apply map_replaceFirst_of_find?
      intro z hz
      have hid : z.id = a.id := by simpa using List.find?_some hz
      have hz' : (z.id, z.onRampId) ∈ pairs :=
        hs ▸ List.mem_map_of_mem (List.mem_of_find?_eq_some hz)
      exact Prod.ext hid (hw _ hz' hid)
    | _ => exact hs

/-- A write keeps every wallet's owner. -/
theorem userIds_foldl (ws : List Write) :
    (ws.foldl Write.apply s).wallets.map (·.userId) = s.wallets.map (·.userId) := by
  have h := congrArg (List.map fun k : String × String × String => k.2.1) (foldl_walletKeys (s := s) ws)
  simpa [List.map_map, Function.comp_def, Wallet.keys] using h

/-- **A commit keeps the keys unique** when the entries it appends have keys apart from
each other, its payment-row writes are as `EventWrites` allows, and every case it writes
back keeps its purchase. The commit's own checks keep the new keys apart from the old. -/
theorem Unique.commit {s' : Store} {ws : List Write} (h : s.Unique)
    (hs' : s.commit? ws = some s')
    (hkeys : (((ws.flatMap Write.appended).filter (·.key != "")).map (·.key)).Nodup)
    (hevents : s.EventWrites (ws.filter Write.touchesEvents))
    (hcases : ∀ w ∈ ws, w.KeepsCase s.casePairs) : s'.Unique := by
  obtain ⟨hcheck, rfl⟩ := commit?_eq_some hs'
  refine ⟨?_, ?_, ?_, ?_⟩
  · -- an appended entry's key was free when the commit checked it
    rw [foldl_ledger, List.filter_append, List.map_append, List.nodup_append]
    refine ⟨h.keys, hkeys, ?_⟩
    intro k₁ hk₁ k₂ hk₂ hk
    obtain ⟨e₁, he₁, rfl⟩ := List.mem_map.mp hk₁
    obtain ⟨e₂, he₂, rfl⟩ := List.mem_map.mp hk₂
    obtain ⟨he₁, hne⟩ := List.mem_filter.mp he₁
    obtain ⟨he₂, -⟩ := List.mem_filter.mp he₂
    have hfree := hcheck _ (Write.mem_appended he₂)
    simp only [Write.check, Option.isNone_iff_eq_none, entryByKey?] at hfree
    rw [if_neg (by simpa [hk] using hne), List.find?_eq_none] at hfree
    exact hfree e₁ he₁ (by simp [hk])
  · -- a new payment row only for a payment with none; a row written back keeps its payment
    rw [foldl_webhooks]
    generalize hev : ws.filter Write.touchesEvents = ews at hevents ⊢
    cases hevents with
    | none => exact h.externalIds
    | @insert row _ =>
      -- the commit checked that the payment had no row
      have hmem : Write.insertEvent row ∈ ws.filter Write.touchesEvents := by
        rw [hev]
        exact List.mem_singleton_self _
      have hfree := hcheck _ (List.mem_filter.mp hmem).1
      simp only [Write.check, Option.isNone_iff_eq_none, webhookByExternal?,
        List.find?_eq_none] at hfree
      simp only [List.foldl_cons, List.foldl_nil, Write.events, List.map_append, List.map_cons,
        List.map_nil]
      refine List.nodup_append.mpr ⟨h.externalIds, List.nodup_singleton _, ?_⟩
      intro x hx y hy hxy
      rw [List.mem_singleton.mp hy] at hxy
      obtain ⟨r, hr, rfl⟩ := List.mem_map.mp hx
      exact hfree r hr (by simp [hxy])
    | @update row p st hp hext _ _ =>
      simp only [List.foldl_cons, List.foldl_nil, Write.events]
      rw [map_replaceFirst_of_find? fun z hz => ?_]
      · exact h.externalIds
      · have hzp : z = p := Option.some.inj (hz.symm.trans hp)
        rw [hzp, hext]
  · rw [userIds_foldl]
    exact h.users
  · have hpairs := congrArg (List.map Prod.snd) (casePairs_foldl rfl ws hcases)
    simp only [casePairs, List.map_map, Function.comp_def] at hpairs
    rw [hpairs]
    exact h.purchases

end Store

/-! ## What a transaction stages -/

/-- The entries a transaction staged are those of its writes, and their keys, when not
empty, are apart from each other. -/
structure TxState.KeysApart (t : TxState) : Prop where
  entries : t.writes.flatMap Write.appended = t.entries
  nodup : ((t.entries.filter (·.key != "")).map (·.key)).Nodup

theorem TxState.KeysApart.empty : TxState.empty.KeysApart := ⟨rfl, List.nodup_nil⟩

/-- A state whose writes and entries a call leaves alone keeps its keys apart. -/
theorem TxState.KeysApart.of_eq {t t' : TxState} (h : t.KeysApart) (hw : t'.writes = t.writes)
    (he : t'.entries = t.entries) : t'.KeysApart :=
  ⟨by rw [hw, he]; exact h.entries, by rw [he]; exact h.nodup⟩

/-- **A call the discipline allows keeps the staged keys apart**: a posting's key, when
not empty, is none of those staged before, and no other call stages an entry. -/
theorem TxState.KeysApart.next {f : Option String} {t : TxState} {s : Store} {c : Call}
    {a : c.Answer} (h : t.KeysApart) (hallowed : c.Allowed f t ∨ c.readsOnRamps = true)
    (hr : c.result s t = some a) : (c.next t a).KeysApart := by
  cases c with
  | post e =>
    -- the call's check: the key is empty, or no staged entry has it
    have hfree : e.key = "" ∨ ∀ x ∈ t.entries, x.key ≠ e.key := by
      simp only [Call.result] at hr
      split at hr
      · next hc =>
        simp only [Bool.and_eq_true, Bool.or_eq_true, beq_iff_eq, Option.isNone_iff_eq_none,
          List.find?_eq_none] at hc
        exact hc.2.imp_right fun hnone x hx => by simpa using hnone x hx
      · cases hr
    refine ⟨by simp [Call.next, ← h.entries, Write.appended], ?_⟩
    simp only [Call.next, List.filter_append, List.map_append]
    by_cases hk : e.key = ""
    · simpa [hk] using h.nodup
    · have hnot := hfree.resolve_left hk
      simp only [List.filter_cons, List.filter_nil, bne_iff_ne, ne_eq, hk, not_false_eq_true,
        if_true, List.map_cons, List.map_nil]
      refine List.nodup_append.mpr ⟨h.nodup, List.nodup_singleton _, ?_⟩
      intro x hx y hy hxy
      rw [List.mem_singleton.mp hy] at hxy
      obtain ⟨z, hz, rfl⟩ := List.mem_map.mp hx
      exact hnot z (List.mem_filter.mp hz).1 hxy
  | insertEvent row => exact ⟨by simp [Call.next, ← h.entries, Write.appended], h.nodup⟩
  | stage w =>
    cases w with
    | entry e => exact absurd hallowed (by simp [Call.Allowed, Call.readsOnRamps])
    | _ => exact ⟨by simp [Call.next, ← h.entries, Write.appended], h.nodup⟩
  | cached | present | acquire | readRow | walletOfUser | pendingOnRamp | ledgerSums
  | latestAfter => exact h.of_eq rfl rfl
  | entryByKey | eventByExternal =>
    simp only [Call.next]
    split <;> exact h.of_eq rfl rfl

/-- **Along every history of a disciplined transaction the staged keys stay apart.** -/
theorem Tx.Reaches.keysApart {f : Option String} {x y : Tx × TxState}
    (hd : Tx.Disciplined f x.1 x.2) (h : Tx.Reaches x y) (hk : x.2.KeysApart) :
    y.2.KeysApart := by
  induction h with
  | refl => exact hk
  | tail hxz hm ih =>
    obtain ⟨s, hm⟩ := hm
    have hdz := hd.reaches hxz
    cases hm with
    | answer _ hr => exact ih.next hdz.allowed hr
    | fail | cancel | loose => exact ih

/-- The writes a call stages. -/
def Call.stages : Call → List Write
  | .post e => [.balance e.wallet e.after e.createdAt, .entry e]
  | .insertEvent row => [.insertEvent row]
  | .stage w => [w]
  | _ => []

theorem Call.writes_next (c : Call) (t : TxState) (a : c.Answer) :
    (c.next t a).writes = t.writes ++ c.stages := by
  cases c <;> simp only [Call.next, Call.stages, List.append_nil] <;> (try split) <;> rfl

namespace Tx

/-- The transaction writes back, on every path, only missing-webhook cases among
`cases`. -/
inductive CasesAmong (cases : List MissingWebhookAlert) : Tx → Prop
  | commit : CasesAmong cases .commit
  | rollback : CasesAmong cases .rollback
  | call {c : Call} {k : c.Answer → Tx} :
      (∀ a st, c = .stage (.updateMissing a st) → a ∈ cases) →
        (∀ x, CasesAmong cases (k x)) → CasesAmong cases (.call c k)

variable {cases : List MissingWebhookAlert}

theorem CasesAmong.moves {s : Store} {x y : Tx × TxState} (h : CasesAmong cases x.1)
    (hm : Moves s x y) : CasesAmong cases y.1 := by
  cases hm with
  | answer => cases h with | call _ hk => exact hk _
  | fail | cancel => exact .rollback
  | loose o => cases h with | call _ hk => exact hk o

theorem CasesAmong.reaches {x y : Tx × TxState} (h : CasesAmong cases x.1) (hr : Reaches x y) :
    CasesAmong cases y.1 := by
  induction hr with
  | refl => exact h
  | tail _ hm ih => exact hm.elim fun _ hm => ih.moves hm

end Tx

/-- The cases a state wrote back are among `cases`. -/
def TxState.CasesWithin (cases : List MissingWebhookAlert) (t : TxState) : Prop :=
  ∀ a st, Write.updateMissing a st ∈ t.writes → a ∈ cases

/-- **Along every history the cases written back are those the transaction may write.** -/
theorem Tx.Reaches.casesWithin {cases : List MissingWebhookAlert} {x y : Tx × TxState}
    (hc : Tx.CasesAmong cases x.1) (h : Tx.Reaches x y) (hw : x.2.CasesWithin cases) :
    y.2.CasesWithin cases := by
  induction h with
  | refl => exact hw
  | tail hxz hm ih =>
    obtain ⟨s, hm⟩ := hm
    have hcz := hc.reaches hxz
    cases hm with
    | @answer c _ _ a _ _ =>
      intro b st hb
      rw [Call.writes_next] at hb
      rcases List.mem_append.mp hb with hb | hb
      · exact ih b st hb
      · -- only a staged write-back is a case
        cases hcz with
        | call hcases _ =>
          cases c <;> simp only [Call.stages, List.mem_cons, List.not_mem_nil, or_false,
            reduceCtorEq, or_self] at hb
          exact hcases b st (by rw [hb])
    | fail | cancel | loose => exact ih

/-! ## The cases the engine's transactions write back -/

namespace Tx

variable {cases : List MissingWebhookAlert}

theorem casesAmong_applyEntry {w : Wallet} {type : EntryType} {amount : Decimal}
    {key reference description : String} {source : Source} {providerEventId entryId : String}
    {now : Instant} {k : Mutation → Tx} (hk : ∀ m, CasesAmong cases (k m)) :
    CasesAmong cases
      (applyEntry w type amount key reference description source providerEventId entryId now k) := by
  unfold applyEntry
  dsimp only
  split
  · exact .rollback
  · exact .call (fun _ _ h => by cases h) fun _ => hk _

theorem casesAmong_lockWallet {id : String} {k : Wallet → Tx} (hk : ∀ w, CasesAmong cases (k w)) :
    CasesAmong cases (lockWallet id k) := by
  refine .call (fun _ _ h => by cases h) fun o => ?_
  cases o with
  | some w => exact hk w
  | none =>
    exact .call (fun _ _ h => by cases h) fun _ => .call (fun _ _ h => by cases h) fun _ =>
      .call (fun _ _ h => by cases h) hk

theorem casesAmong_lockWallets (ids : List String) {k : List Wallet → Tx}
    (hk : ∀ ws, CasesAmong cases (k ws)) : CasesAmong cases (lockWallets ids k) := by
  unfold lockWallets
  generalize ids.eraseDups.mergeSort (fun a b => decide (a ≤ b)) = sorted
  induction sorted generalizing k with
  | nil => exact hk []
  | cons id ids ih => exact casesAmong_lockWallet fun w => ih fun ws => hk (w :: ws)

theorem casesAmong_creditIn {r : CreditRequest} {entryId : String} {now : Instant}
    {k : String → Tx} (hk : ∀ id, CasesAmong cases (k id)) :
    CasesAmong cases (creditIn r entryId now k) := by
  unfold creditIn
  split
  · exact .rollback
  · refine casesAmong_lockWallet fun w => .call (fun _ _ h => by cases h) fun e => ?_
    cases e with
    | some e => exact hk _
    | none => exact casesAmong_applyEntry fun _ => hk _

theorem casesAmong_completeOnRamp {w p : String} {amount : Decimal} {now : Instant} :
    CasesAmong cases (completeOnRamp w p amount now) := by
  refine .call (fun _ _ h => by cases h) fun o => ?_
  cases o with
  | some o => exact .call (fun _ _ h => by cases h) fun _ => .commit
  | none => exact .commit

theorem casesAmong_flagEach (locked : List Wallet) (now : Instant) (ids : List String) :
    CasesAmong cases (flagEach locked now ids) := by
  induction ids with
  | nil => exact .commit
  | cons id ids ih =>
    unfold flagEach
    split
    · exact .rollback
    · refine .call (fun _ _ h => by cases h) fun _ => .call (fun _ _ h => by cases h) fun _ => ?_
      split
      · exact ih
      · split
        · exact ih
        · exact .call (fun _ _ h => by cases h) fun _ => ih

theorem casesAmong_debit (r : DebitRequest) (amount : Decimal) (type : EntryType)
    (entryId : String) (now : Instant) : CasesAmong cases (debit r amount type entryId now) := by
  refine casesAmong_lockWallet fun w => ?_
  unfold debitLocked debitOwned
  split
  · exact .rollback
  · refine .call (fun _ _ h => by cases h) fun e => ?_
    cases e with
    | some _ => exact .rollback
    | none =>
      show CasesAmong cases (debitFree r amount type entryId now w)
      unfold debitFree
      split
      · exact .rollback
      · exact casesAmong_applyEntry fun _ => .commit

theorem casesAmong_transfer (r : TransferRequest) (amount : Decimal) (outId inId : String)
    (now : Instant) : CasesAmong cases (transfer r amount outId inId now) := by
  unfold transfer
  dsimp only
  split
  · exact .rollback
  · refine casesAmong_lockWallets _ fun locked => ?_
    split
    · split
      · exact .rollback
      · refine .call (fun _ _ h => by cases h) fun e => ?_
        cases e with
        | some _ => exact .rollback
        | none =>
          dsimp only
          split
          · exact .rollback
          · exact casesAmong_applyEntry fun _ => casesAmong_applyEntry fun _ => .commit
    · exact .rollback

theorem casesAmong_process (ev : PaymentEvent) (rowId entryId : String) (now : Instant) :
    CasesAmong cases (process ev rowId entryId now) := by
  unfold process
  refine .call (fun _ _ h => by cases h) fun prior => ?_
  split
  · exact .commit
  · refine .call (fun _ _ h => by cases h) fun a => ?_
    rcases a with _ | ⟨walletId, currency⟩
    · exact .rollback
    · dsimp only
      split
      · exact .rollback
      · refine casesAmong_creditIn fun _ => ?_
        cases prior with
        | none => exact .call (fun _ _ h => by cases h) fun _ => casesAmong_completeOnRamp
        | some p => exact .call (fun _ _ h => by cases h) fun _ => casesAmong_completeOnRamp

/-- A replay writes back its own case, and no other. -/
theorem casesAmong_replay (a : MissingWebhookAlert) (o : OnRamp) (admin : Actor)
    (entryId : String) (now : Instant) : CasesAmong [a] (replay a o admin entryId now) := by
  unfold replay
  dsimp only
  have hrest : CasesAmong [a] (if !admin.isAdmin then .rollback else
      creditIn (Reconcile.replayCredit a o admin) entryId now fun _ =>
        .call (.stage (.updateMissing a .pending)) fun _ => .commit) := by
    split
    · exact .rollback
    · refine casesAmong_creditIn fun _ => .call (fun b st h => ?_) fun _ => .commit
      cases h
      exact List.mem_singleton_self a
  split
  · exact .call (fun _ _ h => by cases h) fun _ => hrest
  · exact hrest

end Tx

/-- The missing-webhook cases an engine transaction may write back: a replay's own. -/
def EngineTx.cases : EngineTx → List MissingWebhookAlert
  | .replay a .. => [a]
  | _ => []

/-- **Every engine transaction writes back only its own cases.** -/
theorem EngineTx.casesAmong_body (tx : EngineTx) : tx.body.CasesAmong tx.cases := by
  cases tx with
  | credit r entryId now => exact Tx.casesAmong_creditIn fun _ => .commit
  | debit r amount type entryId now => exact Tx.casesAmong_debit r amount type entryId now
  | transfer r amount outId inId now => exact Tx.casesAmong_transfer r amount outId inId now
  | process ev rowId entryId now => exact Tx.casesAmong_process ev rowId entryId now
  | replay a o admin entryId now => exact Tx.casesAmong_replay a o admin entryId now
  | flag ids now =>
    exact Tx.casesAmong_lockWallets _ fun locked => Tx.casesAmong_flagEach locked now ids

/-! ## Two rows of one payment -/

/-- **The commit does not check a transaction's rows against each other**: from every
store where a payment has no row, a transaction that stages two rows of it commits both,
and the store then has two rows of one payment. -/
theorem Tx.insertTwice_not_unique (s : Store) (r₁ r₂ : WebhookEvent)
    (hext : r₂.externalId = r₁.externalId) (hfree : s.webhookByExternal? r₁.externalId = none) :
    ¬ ((Tx.call (.insertEvent r₁) fun _ => .call (.insertEvent r₂) fun _ => .commit).runAlone s
      TxState.empty).Unique := by
  have hrun : (Tx.call (.insertEvent r₁) fun _ => .call (.insertEvent r₂) fun _ => .commit).runAlone
      s TxState.empty = { s with webhooks := s.webhooks ++ [r₁, r₂] } := by
    simp [runAlone, Call.result, Call.next, hfree, hext, Store.commit?, Write.check, Write.apply,
      TxState.empty]
  rw [hrun]
  intro hu
  have hpair := (List.nodup_append.mp (by simpa [hext] using hu.externalIds)).2.1
  simp at hpair

/-! ## The machine -/

namespace Machine

variable {n : Nat}

/-- **A step changes the store only by a whole commit**: it leaves the store and the
record of commits as they were, or it is the commit of a thread whose staged writes all
pass their checks on the store as it stands, and the store becomes the store with those
writes applied in the order staged. -/
theorem perform_store (M : Machine n) (ch : Choice n) :
    ((M.perform ch).store = M.store ∧ (M.perform ch).committed = M.committed) ∨
      ∃ i, (M.threads i).phase = .running .commit ∧
        M.store.commit? (M.threads i).state.writes = some (M.perform ch).store ∧
        (M.perform ch).committed = M.committed ++ [(M.threads i).body] := by
  cases ch with
  | cancel i =>
    refine .inl ?_
    unfold perform cancel
    dsimp only
    split <;> exact ⟨rfl, rfl⟩
  | step i =>
    unfold perform step
    dsimp only
    split
    · exact .inl ⟨rfl, rfl⟩
    · split <;> exact .inl ⟨rfl, rfl⟩
    · next hph =>
      split
      · next s hs => exact .inr ⟨i, hph, hs, rfl⟩
      · exact .inl ⟨rfl, rfl⟩
    · exact .inl ⟨rfl, rfl⟩
    · split
      · exact .inl ⟨rfl, rfl⟩
      · unfold answer
        split <;> exact .inl ⟨rfl, rfl⟩

variable {s₀ : Store} {txs : Fin n → Tx} {fresh : Fin n → Option String}
  {cases : Fin n → List MissingWebhookAlert} {M : Machine n}

/-- What a machine running the transactions `txs` from `s₀` keeps: it serializes them,
its store's keys are unique, and its missing-webhook cases keep the ids and purchases of
those of `s₀`. -/
structure KeepsKeys (s₀ : Store) (txs : Fin n → Tx) (fresh : Fin n → Option String)
    (M : Machine n) : Prop where
  serializes : M.Serializes s₀ txs fresh
  unique : M.store.Unique
  cases : M.store.casePairs = s₀.casePairs

theorem KeepsKeys.start (txs : Fin n → Tx) (fresh : Fin n → Option String)
    (hunused : ∀ i, ∀ x ∈ fresh i, x ∉ s₀.webhooks.map (·.id))
    (hnodup : (s₀.webhooks.map (·.id)).Nodup) (hu : s₀.Unique) :
    (start s₀ txs).KeepsKeys s₀ txs fresh :=
  ⟨.start hunused hnodup, hu, rfl⟩

/-- **A commit keeps the keys unique**, when the committing thread's transaction is
disciplined and writes back only cases with the purchase they have in `s₀`: its
entries' keys were kept apart as staged, its payment-row write is one a disciplined
transaction stages, and its readings hold at the commit. -/
theorem KeepsKeys.commit {cs : List MissingWebhookAlert} (h : M.KeepsKeys s₀ txs fresh)
    {i : Fin n} {s' : Store} (hd : (txs i).Disciplined (fresh i) TxState.empty)
    (hc : (txs i).CasesAmong cs)
    (hcs : ∀ a ∈ cs, ∀ b ∈ s₀.missing, b.id = a.id → b.onRampId = a.onRampId)
    (hph : (M.threads i).phase = .running .commit)
    (hs' : M.store.commit? (M.threads i).state.writes = some s') :
    s'.Unique ∧ s'.casePairs = s₀.casePairs := by
  have hrun := h.serializes.running i _ hph
  have hevents :=
    hrun.eventWrites (hrun.holds hd (Store.commit?_eq_some hs').1) h.serializes.eventIds
  have hkeys := hrun.reaches.keysApart hd .empty
  have hwritten := hrun.reaches.casesWithin hc fun _ _ h => by simp [TxState.empty] at h
  -- a case written back is one the transaction may write, whose purchase it keeps
  have hkeep : ∀ w ∈ (M.threads i).state.writes, w.KeepsCase s₀.casePairs := by
    intro w hw
    cases w with
    | updateMissing a st =>
      intro p hp hid
      obtain ⟨b, hb, rfl⟩ := List.mem_map.mp hp
      exact hcs a (hwritten a st hw) b hb hid
    | _ => trivial
  refine ⟨h.unique.commit hs' (by rw [hkeys.entries]; exact hkeys.nodup) hevents
    (h.cases ▸ hkeep), ?_⟩
  rw [(Store.commit?_eq_some hs').2]
  exact Store.casePairs_foldl h.cases _ hkeep

/-- **Every choice of the scheduler keeps the keys unique.** -/
theorem KeepsKeys.perform (h : M.KeepsKeys s₀ txs fresh)
    (hd : ∀ i, (txs i).Disciplined (fresh i) TxState.empty)
    (hfresh : ∀ i j, ∀ x ∈ fresh i, x ∈ fresh j → i = j) (hc : ∀ i, (txs i).CasesAmong (cases i))
    (hcs : ∀ i, ∀ a ∈ cases i, ∀ b ∈ s₀.missing, b.id = a.id → b.onRampId = a.onRampId)
    (ch : Choice n) : (M.perform ch).KeepsKeys s₀ txs fresh := by
  have hser := h.serializes.perform hd hfresh ch
  rcases perform_store M ch with ⟨hs, -⟩ | ⟨i, hph, hs', -⟩
  · exact ⟨hser, by rw [hs]; exact h.unique, by rw [hs]; exact h.cases⟩
  · obtain ⟨hu, hcp⟩ := h.commit (hd i) (hc i) (hcs i) hph hs'
    exact ⟨hser, hu, hcp⟩

theorem KeepsKeys.run (h : M.KeepsKeys s₀ txs fresh)
    (hd : ∀ i, (txs i).Disciplined (fresh i) TxState.empty)
    (hfresh : ∀ i j, ∀ x ∈ fresh i, x ∈ fresh j → i = j) (hc : ∀ i, (txs i).CasesAmong (cases i))
    (hcs : ∀ i, ∀ a ∈ cases i, ∀ b ∈ s₀.missing, b.id = a.id → b.onRampId = a.onRampId)
    (schedule : List (Choice n)) : (M.run schedule).KeepsKeys s₀ txs fresh := by
  induction schedule generalizing M with
  | nil => exact h
  | cons c rest ih => exact ih (h.perform hd hfresh hc hcs c)

end Machine

/-! ## The engine's transactions -/

/-- **Commits are whole, and the engine's transactions interleaved keep the keys
unique.** Every step of any machine leaves the store and the record of commits as they
were, or is one thread's commit, whose staged writes all passed their checks and were
applied in the order staged. And under every schedule of any number of the engine's
transactions, each with its own unused id for a new payment row and each replay writing
back a case of the starting store with its purchase, a store whose keys are unique keeps
them unique, so that every lookup by a key finds the one row that carries it. -/
theorem EngineTx.commits_whole_keys_unique :
    (∀ (n : Nat) (M : Machine n) (ch : Choice n),
      ((M.perform ch).store = M.store ∧ (M.perform ch).committed = M.committed) ∨
        ∃ i, (M.threads i).phase = .running .commit ∧
          M.store.commit? (M.threads i).state.writes = some (M.perform ch).store ∧
          (M.perform ch).committed = M.committed ++ [(M.threads i).body]) ∧
    (∀ (n : Nat) (s₀ : Store) (txs : Fin n → EngineTx) (schedule : List (Choice n)),
      (∀ i j, ∀ x ∈ (txs i).newRow, x ∈ (txs j).newRow → i = j) →
      (∀ i, ∀ x ∈ (txs i).newRow, x ∉ s₀.webhooks.map (·.id)) →
      (s₀.webhooks.map (·.id)).Nodup →
      (∀ i, ∀ a ∈ (txs i).cases, ∀ b ∈ s₀.missing, b.id = a.id → b.onRampId = a.onRampId) →
      s₀.Unique →
      ((Machine.start s₀ fun i => (txs i).body).run schedule).store.Unique ∧
        ((Machine.start s₀ fun i => (txs i).body).run schedule).store.Indexed) := by
  refine ⟨fun _ M ch => Machine.perform_store M ch,
    fun _ s₀ txs schedule hfresh hunused hnodup hcases hu => ?_⟩
  have h := (Machine.KeepsKeys.start (fun i => (txs i).body) (fun i => (txs i).newRow) hunused
    hnodup hu).run (fun i => (txs i).disciplined_body) hfresh (fun i => (txs i).casesAmong_body)
    hcases schedule
  exact ⟨h.unique, h.unique.indexed⟩

end OnrampLedger
