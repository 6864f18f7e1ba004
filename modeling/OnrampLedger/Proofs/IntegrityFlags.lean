import OnrampLedger.Proofs.UniqueKeys

/-!
# The integrity monitor among concurrent transactions

The monitor compares each wallet with its ledger twice: once in a scan that takes no
lock, which may read a row and the sums of its entries on opposite sides of another
transaction's commit, and once more, for the suspects that scan found, inside the flag
transaction and under each suspect's row lock. Only the second comparison flags. This
module proves that it flags only what disagrees, and so never a wallet of a consistent
store, under every schedule of the engine's transactions.

A store *agrees* with its ledger (`Store.Agrees`) when no two wallets share an id and
every wallet's balance is both the credits less the debits of its entries and the
balance after its newest entry, which is what the monitor compares. Balanced books agree
(`Books.agrees`).

Two facts about the engine's transactions carry the argument, both read off one
predicate of their call trees, `Tx.Faithful`:

* money moves only by posts that start from the transaction's copy of a locked row, so a
  transaction run alone over an agreeing store leaves an agreeing store
  (`Tx.Faithful.runAlone_agrees`);
* a flag is staged only after the wallet's row, the sums of its entries and its newest
  entry were read and found to disagree (`TxState.FlagsSeen`).

A running transaction's readings under its locks still stand in the store (`Tx.Running`),
so a flag it staged names a wallet that disagrees in the store as it stands, for as long
as the lock is held. And every commit leaves what the committing transaction run alone
leaves (`Tx.Running.commit_sameButOnRamps`), so from an agreeing store every store a run
reaches agrees, and no flag is ever staged.

## Main results

* `Machine.Serializes.flag_disagrees` — a staged flag names a locked wallet that
  disagrees with its ledger in the store as it stands.
* `Machine.Agreement.run` — a run of faithful transactions from an agreeing store keeps
  it agreeing, stages no flag, and leaves every review flag as it was.
* `EngineTx.faithful_body` — every engine transaction is faithful.
-/

namespace OnrampLedger

/-! ## Stores that agree with their ledger -/

/-- The monitor finds no mismatch exactly when the balance is both the ledger's credits
less its debits and the balance after the newest entry. -/
theorem Integrity.mismatch_eq_none_iff {w : Wallet} {ledger latest : Decimal} :
    Integrity.mismatch w ledger latest = none ↔ w.balance = ledger ∧ w.balance = latest := by
  unfold Integrity.mismatch
  split
  · next h => simpa using h
  · next h => simpa using h

/-- What the monitor compares of a wallet: its id and its balance. -/
def Wallet.funds (w : Wallet) : String × Decimal := (w.id, w.balance)

/-- What an integrity flag writes on a wallet, with the wallet's id. -/
def Wallet.review (w : Wallet) : String × Bool × String × Option Instant × Option Decimal :=
  (w.id, w.flagged, w.flagReason, w.flaggedAt, w.flagDelta)

/-- A store agrees with its ledger: no two wallets share an id, and the monitor finds no
wallet out of step with its entries. -/
structure Store.Agrees (s : Store) : Prop where
  ids_nodup : (s.wallets.map (·.id)).Nodup
  agrees : ∀ w ∈ s.wallets, Integrity.compare s w = none

namespace Store

variable {s s' : Store}

/-- One more entry of a wallet moves the credits less the debits of its entries as the
entry's type moves a balance. -/
theorem ledgerBalance_of_append {e : LedgerEntry} (h : s'.ledger = s.ledger ++ [e]) :
    s'.ledgerBalance e.wallet = e.type.applyTo (s.ledgerBalance e.wallet) e.amount := by
  rw [← Decimal.value_inj, EntryType.value_applyTo]
  have hfilter : s'.ledger.filter (·.wallet == e.wallet) =
      s.ledger.filter (·.wallet == e.wallet) ++ [e] := by
    simp [h, List.filter_append]
  simp only [ledgerBalance, entriesOf, hfilter]
  exact value_net_append_singleton _ _

theorem latestAfter_of_append {e : LedgerEntry} (h : s'.ledger = s.ledger ++ [e]) :
    s'.latestAfter e.wallet = e.after := by
  simp [latestAfter, entriesOf, h, List.filter_append]

theorem entriesOf_of_append {e : LedgerEntry} {id : String} (h : s'.ledger = s.ledger ++ [e])
    (hne : e.wallet ≠ id) : s'.entriesOf id = s.entriesOf id := by
  simp [entriesOf, h, List.filter_append, hne]

/-- Stores whose wallets have the same ids and balances give the same balance under
every id. -/
theorem balance_of_funds (h : s'.wallets.map Wallet.funds = s.wallets.map Wallet.funds)
    (id : String) : (s'.wallet? id).map (·.balance) = (s.wallet? id).map (·.balance) := by
  have h₁ : (s'.wallets.map Wallet.funds).find? (fun x => x.1 == id) =
      (s'.wallets.find? ((fun x => x.1 == id) ∘ Wallet.funds)).map Wallet.funds := List.find?_map
  have h₂ : (s.wallets.map Wallet.funds).find? (fun x => x.1 == id) =
      (s.wallets.find? ((fun x => x.1 == id) ∘ Wallet.funds)).map Wallet.funds := List.find?_map
  rw [h, h₂] at h₁
  have hfunds := congrArg (Option.map Prod.snd) h₁
  simpa [wallet?, Option.map_map, Function.comp_def, Wallet.funds] using hfunds.symm

end Store

namespace Store.Agrees

variable {s s' : Store}

theorem balance_eq (h : s.Agrees) {w : Wallet} (hw : w ∈ s.wallets) :
    w.balance = s.ledgerBalance w.id ∧ w.balance = s.latestAfter w.id :=
  Integrity.mismatch_eq_none_iff.mp (h.agrees w hw)

/-- **Frame**: what keeps the ledger and each wallet's id and balance keeps the
agreement, whatever else it changes. -/
theorem of_funds (h : s.Agrees) (hw : s'.wallets.map Wallet.funds = s.wallets.map Wallet.funds)
    (hl : s'.ledger = s.ledger) : s'.Agrees := by
  have hids : s'.wallets.map (·.id) = s.wallets.map (·.id) := by
    simpa [Function.comp_def, Wallet.funds] using congrArg (List.map Prod.fst) hw
  refine ⟨hids ▸ h.ids_nodup, fun v hv => ?_⟩
  have hmem : v.funds ∈ s.wallets.map Wallet.funds := by
    rw [← hw]
    exact List.mem_map_of_mem hv
  obtain ⟨u, hu, hfu⟩ := List.mem_map.mp hmem
  simp only [Wallet.funds, Prod.mk.injEq] at hfu
  have hbooks : s'.ledgerBalance v.id = s.ledgerBalance v.id ∧
      s'.latestAfter v.id = s.latestAfter v.id := by
    simp [ledgerBalance, latestAfter, entriesOf, hl]
  rw [Integrity.compare, Integrity.mismatch_eq_none_iff, hbooks.1, hbooks.2, ← hfu.1, ← hfu.2]
  exact h.balance_eq hu

theorem of_sameButOnRamps (h : s.Agrees) (hs : s'.SameButOnRamps s) : s'.Agrees :=
  h.of_funds (by rw [hs.wallets]) hs.ledger

/-- **A post keeps the agreement**: an entry of an existing wallet that ends where its
amount takes the wallet's balance, written together with that balance. -/
theorem post (h : s.Agrees) {e : LedgerEntry} {w : Wallet} (hw : s.wallet? e.wallet = some w)
    (hafter : e.after = e.type.applyTo w.balance e.amount) (time : Instant) :
    ((Write.entry e).apply ((Write.balance e.wallet e.after time).apply s)).Agrees := by
  have hfind : s.wallets.find? (·.id == e.wallet) = some w := hw
  have hid : w.id = e.wallet := by simpa using List.find?_some hfind
  have hmem : w ∈ s.wallets := List.mem_of_find?_eq_some hfind
  have hwallets : ((Write.entry e).apply ((Write.balance e.wallet e.after time).apply s)).wallets =
      replaceFirst (fun z => z.id == ({ w with balance := e.after, updatedAt := time } : Wallet).id)
        { w with balance := e.after, updatedAt := time } s.wallets := by
    simp [Write.apply, Store.modifyWallet, hw, hid]
  have hledger : ((Write.entry e).apply ((Write.balance e.wallet e.after time).apply s)).ledger =
      s.ledger ++ [e] := by
    simp [Write.apply, Store.modifyWallet]
  refine ⟨by rw [hwallets, map_key_replaceFirst]; exact h.ids_nodup, fun v hv => ?_⟩
  rw [hwallets] at hv
  rcases mem_replaceFirst_of_nodup h.ids_nodup hv with rfl | ⟨hv, hne⟩
  · -- the wallet written: its new balance is where its new entry ends
    have hbal := h.balance_eq hmem
    rw [Integrity.compare, Integrity.mismatch_eq_none_iff]
    simp only [hid]
    refine ⟨?_, (latestAfter_of_append hledger).symm⟩
    rw [ledgerBalance_of_append hledger, hafter, ← hid]
    exact congrArg (e.type.applyTo · e.amount) hbal.1
  · -- another wallet: none of its entries is new
    have hne' : e.wallet ≠ v.id := fun heq => hne (by rw [← heq, ← hid])
    have hsame : Integrity.compare ((Write.entry e).apply
        ((Write.balance e.wallet e.after time).apply s)) v = Integrity.compare s v := by
      simp only [Integrity.compare, ledgerBalance, latestAfter, entriesOf_of_append hledger hne']
    rw [hsame]
    exact h.agrees v hv

end Store.Agrees

/-- Balanced books agree with their ledger. -/
theorem Books.agrees {s : Store} (h : Books s.wallets s.ledger) : s.Agrees := by
  refine ⟨h.ids_nodup, fun w hw => ?_⟩
  have hb := h.books w hw
  rw [Integrity.compare, Integrity.mismatch_eq_none_iff]
  exact ⟨hb.balance_eq, hb.latest.symm⟩

/-! ## Writes that move no money -/

/-- Whether a write moves money: a balance set, or an entry appended. -/
def Write.movesFunds : Write → Bool
  | .balance .. | .entry _ => true
  | _ => false

/-- A write that moves no money keeps the ledger and every wallet's id and balance. -/
theorem Write.funds_apply {s : Store} (w : Write) (hw : w.movesFunds = false) :
    (w.apply s).wallets.map Wallet.funds = s.wallets.map Wallet.funds ∧
      (w.apply s).ledger = s.ledger := by
  cases w with
  | balance | entry => simp [movesFunds] at hw
  | flag id reason delta time =>
    refine ⟨?_, rfl⟩
    simp only [apply, Store.modifyWallet]
    split
    · next v hv =>
      exact map_replaceFirst_of_find? fun z hz => by rw [Option.some.inj (hz.symm.trans hv)]; rfl
    · rfl
  | _ => exact ⟨rfl, rfl⟩

/-! ## A transaction running alone -/

/-- What a transaction running alone over `s` keeps in state `t`: the store its staged
writes would make agrees with its ledger; there, every row the transaction copied has the
balance of its copy, and every wallet it did not copy has its balance in `s`. -/
structure TxState.Tracks (s : Store) (t : TxState) : Prop where
  agrees : (t.writes.foldl Write.apply s).Agrees
  cache : ∀ w ∈ t.cache,
    ((t.writes.foldl Write.apply s).wallet? w.id).map (·.balance) = some w.balance
  untouched : ∀ id, id ∉ t.cache.map (·.id) →
    ((t.writes.foldl Write.apply s).wallet? id).map (·.balance) = (s.wallet? id).map (·.balance)

/-- The row, the sums of the entries and the newest entry of wallet `id` were read, and
the monitor's comparison of them finds a mismatch. -/
def TxState.Disagrees (t : TxState) (id : String) : Prop :=
  ∃ w sums latest, Reading.row id w ∈ t.seen ∧ Reading.sums id sums ∈ t.seen ∧
    Reading.latest id latest ∈ t.seen ∧ (Integrity.mismatch w (sums.1 - sums.2) latest).isSome

/-- What a call of a faithful transaction in state `t` may do: a post starts from the
transaction's copy of the wallet's row and ends where its amount takes that balance; a
row is read under a lock only once; a flag follows a mismatch read; and no balance or
entry is staged bare. -/
def Call.Faithful (t : TxState) : Call → Prop
  | .readRow id => id ∉ t.cache.map (·.id)
  | .post e => ∃ w ∈ t.cache, w.id = e.wallet ∧ e.after = e.type.applyTo w.balance e.amount
  | .stage (.flag id ..) => t.Disagrees id
  | .stage (.balance ..) | .stage (.entry _) | .pendingOnRamp .. => False
  | .cached _ | .present _ | .acquire _ | .entryByKey _ | .eventByExternal _ | .walletOfUser _
  | .ledgerSums _ | .latestAfter _ | .insertEvent _ | .stage (.insertEvent _)
  | .stage (.updateEvent ..) | .stage (.updateOnRamp _) | .stage (.updateMissing ..)
  | .stage (.insertDeadLetter _) | .stage (.updateDeadLetter ..) => True

namespace TxState.Tracks

variable {s : Store} {t t' : TxState}

theorem empty (hs : s.Agrees) : TxState.empty.Tracks s :=
  ⟨hs, by simp [TxState.empty], fun _ _ => rfl⟩

/-- A state with the writes and the copies of a tracking one tracks too. -/
theorem of_same (ht : t.Tracks s) (hw : t'.writes = t.writes) (hc : t'.cache = t.cache) :
    t'.Tracks s := by
  obtain ⟨hagrees, hcache, huntouched⟩ := ht
  refine ⟨?_, ?_, ?_⟩ <;> rw [hw]
  · exact hagrees
  · rw [hc]
    exact hcache
  · rw [hc]
    exact huntouched

/-- Staging a write that moves no money keeps the tracking. -/
theorem stage (ht : t.Tracks s) {w : Write} (hm : w.movesFunds = false)
    (hw : t'.writes = t.writes ++ [w]) (hc : t'.cache = t.cache) : t'.Tracks s := by
  have hfoldl : t'.writes.foldl Write.apply s = w.apply (t.writes.foldl Write.apply s) := by
    rw [hw, List.foldl_append, List.foldl_cons, List.foldl_nil]
  obtain ⟨hfunds, hledger⟩ := w.funds_apply (s := t.writes.foldl Write.apply s) hm
  refine ⟨?_, ?_, ?_⟩
  · rw [hfoldl]
    exact ht.agrees.of_funds hfunds hledger
  · intro v hv
    rw [hfoldl, Store.balance_of_funds hfunds]
    exact ht.cache v (hc ▸ hv)
  · intro id hid
    rw [hfoldl, Store.balance_of_funds hfunds]
    exact ht.untouched id (hc ▸ hid)

/-- Reading a row not copied yet: the copy has the balance the row has in `s`, which the
transaction's writes left alone. -/
theorem readRow (ht : t.Tracks s) {id : String} {w : Wallet} (hid : id ∉ t.cache.map (·.id))
    (hr : s.wallet? id = some w) : ((Call.readRow id).next t w).Tracks s := by
  have hwid : w.id = id := by
    simp only [Store.wallet?] at hr
    simpa using List.find?_some hr
  refine ⟨ht.agrees, fun v hv => ?_, fun id' hid' => ht.untouched id' ?_⟩
  · simp only [Call.next, List.mem_append, List.mem_singleton] at hv
    rcases hv with hv | rfl
    · exact ht.cache v hv
    · rw [show ((Call.readRow id).next t _).writes = t.writes from rfl, hwid, ht.untouched id hid,
        hr]
      rfl
  · simp only [Call.next, List.map_append, List.mem_append, not_or] at hid'
    exact hid'.1

/-- A post from the copy of a row: the new balance is written to the row and to its copy,
and the entry with it. -/
theorem post (ht : t.Tracks s) {e : LedgerEntry}
    (hc : ∃ w ∈ t.cache, w.id = e.wallet ∧ e.after = e.type.applyTo w.balance e.amount) :
    ((Call.post e).next t ()).Tracks s := by
  obtain ⟨c, hc, hcid, hafter⟩ := hc
  set p := t.writes.foldl Write.apply s with hp
  have hfoldl : ((Call.post e).next t ()).writes.foldl Write.apply s =
      (Write.entry e).apply ((Write.balance e.wallet e.after e.createdAt).apply p) := by
    simp [Call.next, List.foldl_append, hp]
  obtain ⟨r, hr, hrc⟩ : ∃ r, p.wallet? e.wallet = some r ∧ r.balance = c.balance := by
    have h := ht.cache c hc
    rw [hcid] at h
    obtain ⟨r, hr, hrb⟩ := Option.map_eq_some_iff.mp h
    exact ⟨r, hr, hrb⟩
  -- the entry leaves the rows alone, and the balance write every row but its own
  have hentry : ∀ (q : Store) id, ((Write.entry e).apply q).wallet? id = q.wallet? id :=
    fun _ _ => rfl
  have hother : ∀ id, id ≠ e.wallet →
      ((Write.entry e).apply ((Write.balance e.wallet e.after e.createdAt).apply p)).wallet? id =
        p.wallet? id := by
    intro id hne
    rw [hentry, Write.wallet?_apply_of_ne _ (by simpa [Write.wallet] using hne.symm)]
  refine ⟨?_, ?_, ?_⟩
  · rw [hfoldl]
    exact ht.agrees.post hr (hrc ▸ hafter) _
  · intro v hv
    rw [hfoldl]
    simp only [Call.next, List.mem_map] at hv
    obtain ⟨u, hu, rfl⟩ := hv
    split
    · next hue =>
      have hue : u.id = e.wallet := by simpa using hue
      rw [hue, hentry, Write.wallet?_apply_balance hr]
      rfl
    · next hue =>
      rw [hother u.id (by simpa using hue)]
      exact ht.cache u hu
  · intro id hid
    have hne : id ≠ e.wallet := by
      rintro rfl
      refine hid ?_
      simp only [Call.next, List.map_map]
      exact List.mem_map.mpr ⟨c, hc, by simp [hcid]⟩
    rw [hfoldl, hother id hne]
    refine ht.untouched id fun hmem => hid ?_
    simp only [Call.next, List.map_map]
    obtain ⟨u, hu, hid⟩ := List.mem_map.mp hmem
    exact List.mem_map.mpr ⟨u, hu, by simp only [Function.comp_def]; split <;> exact hid⟩

/-- **One faithful call keeps the tracking**, whatever it answers. -/
theorem next (ht : t.Tracks s) {c : Call} (hc : c.Faithful t) {a : c.Answer}
    (hr : c.result s t = some a) : (c.next t a).Tracks s := by
  cases c with
  | readRow id => exact ht.readRow hc hr
  | post e => exact ht.post hc
  | insertEvent row => exact ht.stage (w := .insertEvent row) rfl (by simp [Call.next]) rfl
  | stage w =>
    have hm : w.movesFunds = false := by
      cases w <;> first | rfl | exact hc.elim
    exact ht.stage hm rfl rfl
  | entryByKey k =>
    refine ht.of_same ?_ ?_ <;> simp only [Call.next] <;> split <;> rfl
  | eventByExternal x =>
    refine ht.of_same ?_ ?_ <;> simp only [Call.next] <;> split <;> rfl
  | _ => exact ht.of_same rfl rfl

end TxState.Tracks

namespace Tx

/-- A faithful transaction in state `t`: every call is faithful, and the transaction stays
faithful on every answer some store can give; a pending purchase is looked up only to be
marked completed. -/
inductive Faithful : Tx → TxState → Prop
  | commit {t : TxState} : Faithful .commit t
  | rollback {t : TxState} : Faithful .rollback t
  | call {c : Call} {k : c.Answer → Tx} {t : TxState} :
      c.Faithful t → (∀ s a, c.result s t = some a → Faithful (k a) (c.next t a)) →
        Faithful (.call c k) t
  | completeOnRamp {w p : String} {amount : Decimal} {now : Instant} {t : TxState} :
      Faithful (.call (.pendingOnRamp w p amount) (completeFound now)) t

theorem faithful_completeFound (now : Instant) (o : Option OnRamp) (t : TxState) :
    Faithful (completeFound now o) t := by
  cases o with
  | some o => exact .call trivial fun _ _ _ => .commit
  | none => exact .commit

/-- **A faithful transaction run alone keeps the agreement**: the store it commits is the
store its staged writes make, which its calls kept agreeing. -/
theorem Faithful.runAlone_agrees {s : Store} (hs : s.Agrees) {tx : Tx} {t : TxState}
    (h : tx.Faithful t) (ht : t.Tracks s) : (tx.runAlone s t).Agrees := by
  induction tx generalizing t with
  | commit =>
    simp only [runAlone]
    cases hc : s.commit? t.writes with
    | none => exact hs
    | some s' =>
      rw [Option.getD_some, (Store.commit?_eq_some hc).2]
      exact ht.agrees
  | rollback => exact hs
  | call c k ih =>
    simp only [runAlone]
    split
    · next a hr =>
      cases h with
      | call hc hk => exact ih a (hk s a hr) (ht.next hc hr)
      | completeOnRamp => exact ih a (faithful_completeFound _ a _) ht
    · exact hs

end Tx

/-! ## Flags along a history -/

/-- Every flag the transaction staged follows a mismatch it read. -/
def TxState.FlagsSeen (t : TxState) : Prop :=
  ∀ id reason delta time, Write.flag id reason delta time ∈ t.writes → t.Disagrees id

theorem TxState.Disagrees.mono {t t' : TxState} {id : String} (h : t.Disagrees id)
    (hsub : t.seen ⊆ t'.seen) : t'.Disagrees id := by
  obtain ⟨w, sums, latest, hrow, hsums, hlatest, hmis⟩ := h
  exact ⟨w, sums, latest, hsub hrow, hsub hsums, hsub hlatest, hmis⟩

theorem TxState.flagsSeen_empty : TxState.empty.FlagsSeen := by
  simp [TxState.FlagsSeen, TxState.empty]

/-- **One faithful call keeps every flag staged seen**: the flag it may stage follows a
mismatch read, and what it reads only adds to the readings. -/
theorem TxState.FlagsSeen.next {t : TxState} (h : t.FlagsSeen) {c : Call} (hc : c.Faithful t)
    (a : c.Answer) : (c.next t a).FlagsSeen := by
  have hsub : t.seen ⊆ (c.next t a).seen := (Call.seen_prefix_next c t a).subset
  intro id reason delta time hw
  -- a flag staged earlier, or the one this call stages
  have hold : Write.flag id reason delta time ∈ t.writes ∨
      c = .stage (.flag id reason delta time) := by
    cases c with
    | post e => simpa [Call.next] using hw
    | insertEvent row => simpa [Call.next] using hw
    | stage w => simpa [Call.next, eq_comm] using hw
    | entryByKey k =>
      refine .inl ?_
      simp only [Call.next] at hw
      split at hw <;> exact hw
    | eventByExternal x =>
      refine .inl ?_
      simp only [Call.next] at hw
      split at hw <;> exact hw
    | _ => exact .inl hw
  rcases hold with hold | rfl
  · exact (h id reason delta time hold).mono hsub
  · exact TxState.Disagrees.mono hc hsub

namespace Tx

variable {s : Store} {x y : Tx × TxState}

theorem Faithful.moves (hf : Faithful x.1 x.2) (hm : Moves s x y) :
    Faithful y.1 y.2 ∧ (x.2.FlagsSeen → y.2.FlagsSeen) := by
  cases hm with
  | answer hc hr =>
    cases hf with
    | call hcall hk => exact ⟨hk _ _ hr, fun h => h.next hcall _⟩
    | completeOnRamp => simp [Call.readsOnRamps] at hc
  | fail => exact ⟨.rollback, id⟩
  | cancel => exact ⟨.rollback, id⟩
  | loose o =>
    cases hf with
    | call hcall _ => exact hcall.elim
    | completeOnRamp => exact ⟨faithful_completeFound _ o _, id⟩

/-- Along a history a faithful transaction stays faithful and every flag it staged
follows a mismatch it read. -/
theorem Faithful.reaches (hf : Faithful x.1 x.2) (hseen : x.2.FlagsSeen) (h : Reaches x y) :
    Faithful y.1 y.2 ∧ y.2.FlagsSeen := by
  induction h with
  | refl => exact ⟨hf, hseen⟩
  | tail _ hm ih =>
    obtain ⟨_, hm⟩ := hm
    obtain ⟨hf', hnext⟩ := ih.1.moves hm
    exact ⟨hf', hnext ih.2⟩

end Tx

/-! ## The engine's transactions are faithful -/

/-- `t'` comes after `t` by locking rows: it keeps the readings and the copies of `t`,
and each copy it adds was read as it is. -/
structure TxState.Locks (t t' : TxState) : Prop where
  seen : t.seen ⊆ t'.seen
  cache : t.cache ⊆ t'.cache
  read : ∀ w ∈ t'.cache, w ∈ t.cache ∨ Reading.row w.id w ∈ t'.seen

/-- Every copy the transaction holds is a row it read. -/
def TxState.RowsSeen (t : TxState) : Prop := ∀ w ∈ t.cache, Reading.row w.id w ∈ t.seen

namespace TxState.Locks

variable {t t' t'' : TxState}

theorem refl : t.Locks t := ⟨fun _ h => h, fun _ h => h, fun _ h => .inl h⟩

theorem trans (h : t.Locks t') (h' : t'.Locks t'') : t.Locks t'' where
  seen _ hx := h'.seen (h.seen hx)
  cache _ hx := h'.cache (h.cache hx)
  read w hw := by
    rcases h'.read w hw with hw | hrow
    · exact (h.read w hw).imp_right fun hrow => h'.seen hrow
    · exact .inr hrow

theorem rowsSeen (h : t.Locks t') (hrows : t.RowsSeen) : t'.RowsSeen := by
  intro w hw
  rcases h.read w hw with hw | hrow
  · exact h.seen (hrows w hw)
  · exact hrow

end TxState.Locks

theorem TxState.cache_next_entryByKey (t : TxState) (k : String) (e : Option LedgerEntry) :
    ((Call.entryByKey k).next t e).cache = t.cache := by
  simp only [Call.next]
  split <;> rfl

/-- A copy of another row than the one posted to stays as it was. -/
theorem TxState.mem_cache_post {t : TxState} {w : Wallet} {e : LedgerEntry} (hw : w ∈ t.cache)
    (hne : w.id ≠ e.wallet) : w ∈ ((Call.post e).next t ()).cache := by
  simp only [Call.next, List.mem_map]
  exact ⟨w, hw, by simp [hne]⟩

namespace Tx

variable {t : TxState}

/-- **Locking a wallet is faithful** when the continuation is, from every state that
comes after by locking, with a copied row of the wallet. -/
theorem faithful_lockWallet {id : String} {k : Wallet → Tx}
    (hk : ∀ w t', t.Locks t' → w.id = id → w ∈ t'.cache → Faithful (k w) t') :
    Faithful (lockWallet id k) t := by
  refine .call trivial fun s a hr => ?_
  simp only [Call.result, Option.some.injEq] at hr
  subst hr
  simp only [Call.next]
  cases hc : t.cache.find? (·.id == id) with
  | some w =>
    -- the transaction's own copy
    have hw : w.id = id := by simpa using List.find?_some hc
    exact hk w t .refl hw (List.mem_of_find?_eq_some hc)
  | none =>
    refine .call trivial fun _ _ _ => .call trivial fun _ _ _ => .call ?_ fun s w hr => ?_
    · -- no copy yet: the row is read once
      simp only [List.find?_eq_none, beq_iff_eq] at hc
      simpa [Call.Faithful, Call.next] using hc
    · have hw : w.id = id := by
        simp only [Call.result, Store.wallet?] at hr
        simpa using List.find?_some hr
      refine hk w _ ⟨?_, ?_, ?_⟩ hw (by simp [Call.next])
      · intro r hr
        simp [Call.next, hr]
      · intro v hv
        simp [Call.next, hv]
      · intro v hv
        simp only [Call.next, List.mem_append, List.mem_singleton] at hv ⊢
        rcases hv with hv | rfl
        · exact .inl hv
        · exact .inr (.inr (by rw [hw]))

/-- **Locking wallets one after another is faithful** when the continuation is, from
every state that comes after by locking, with copied rows. -/
theorem faithful_lockEach (ids : List String) {k : List Wallet → Tx}
    (hk : ∀ ws t', t.Locks t' → (∀ w ∈ ws, w ∈ t'.cache) → Faithful (k ws) t') :
    Faithful (lockEach ids k) t := by
  induction ids generalizing t k with
  | nil => exact hk [] t .refl (by simp)
  | cons id ids ih =>
    apply faithful_lockWallet
    intro w t₁ h₁ _ hw
    apply ih
    intro ws t₂ h₂ hws
    refine hk (w :: ws) t₂ (h₁.trans h₂) ?_
    intro v hv
    rcases List.mem_cons.mp hv with rfl | hv
    · exact h₂.cache hw
    · exact hws v hv

theorem faithful_applyEntry {w : Wallet} {type : EntryType} {amount : Decimal}
    {key reference description : String} {source : Source} {providerEventId entryId : String}
    {now : Instant} {k : Mutation → Tx} (hw : w ∈ t.cache)
    (hk : ∀ (e : LedgerEntry) m, e.wallet = w.id → Faithful (k m) ((Call.post e).next t ())) :
    Faithful (applyEntry w type amount key reference description source providerEventId
      entryId now k) t := by
  unfold applyEntry
  dsimp only
  split
  · exact .rollback
  · exact .call ⟨w, hw, rfl, rfl⟩ fun _ _ _ => hk _ _ rfl

/-- **A credit inside a transaction is faithful** when the continuation is, from every
state. -/
theorem faithful_creditIn {r : CreditRequest} {entryId : String} {now : Instant}
    {k : String → Tx} (hk : ∀ id t', Faithful (k id) t') :
    Faithful (creditIn r entryId now k) t := by
  unfold creditIn
  split
  · exact .rollback
  · apply faithful_lockWallet
    intro w t₁ _ _ hw
    refine .call trivial fun s a _ => ?_
    cases a with
    | some e => exact hk _ _
    | none =>
      refine faithful_applyEntry ?_ fun _ _ _ => hk _ _
      rwa [TxState.cache_next_entryByKey]

theorem faithful_debit (r : DebitRequest) (amount : Decimal) (type : EntryType)
    (entryId : String) (now : Instant) : Faithful (debit r amount type entryId now) t := by
  unfold debit
  apply faithful_lockWallet
  intro w t₁ _ _ hw
  unfold debitLocked
  split
  · exact .rollback
  · refine .call trivial fun s a _ => ?_
    cases a with
    | some _ => exact .rollback
    | none =>
      dsimp only
      unfold debitFree
      split
      · exact .rollback
      · refine faithful_applyEntry ?_ fun _ _ _ => .commit
        rwa [TxState.cache_next_entryByKey]

theorem faithful_transfer (r : TransferRequest) (amount : Decimal) (outId inId : String)
    (now : Instant) : Faithful (transfer r amount outId inId now) t := by
  unfold transfer
  dsimp only
  split
  · exact .rollback
  · next hsame =>
    apply faithful_lockEach
    intro locked t₁ _ hlocked
    split
    · next src dst hsrc hdst =>
      have hsrcId : src.id = r.source := by simpa using List.find?_some hsrc
      have hdstId : dst.id = r.target := by simpa using List.find?_some hdst
      split
      · exact .rollback
      · refine .call trivial fun s a _ => ?_
        cases a with
        | some _ => exact .rollback
        | none =>
          dsimp only
          split
          · exact .rollback
          · -- the receiver's copy stays as locked through the sender's post
            have hsrc' := hlocked src (List.mem_of_find?_eq_some hsrc)
            have hdst' := hlocked dst (List.mem_of_find?_eq_some hdst)
            rw [← TxState.cache_next_entryByKey t₁ _ none] at hsrc' hdst'
            refine faithful_applyEntry hsrc' fun e₁ _ he₁ => ?_
            refine faithful_applyEntry (TxState.mem_cache_post hdst' ?_) fun _ _ _ => .commit
            rw [he₁, hsrcId, hdstId]
            exact fun heq => hsame (by simp [heq])
    · exact .rollback

theorem faithful_process (ev : PaymentEvent) (rowId entryId : String) (now : Instant) :
    Faithful (process ev rowId entryId now) t := by
  unfold process
  refine .call trivial fun _ prior _ => ?_
  split
  · exact .commit
  · refine .call trivial fun _ a _ => ?_
    rcases a with _ | ⟨walletId, currency⟩
    · exact .rollback
    · dsimp only
      split
      · exact .rollback
      · refine faithful_creditIn fun _ _ => ?_
        cases prior with
        | none => exact .call trivial fun _ _ _ => .completeOnRamp
        | some p => exact .call trivial fun _ _ _ => .completeOnRamp

theorem faithful_replay (a : MissingWebhookAlert) (o : OnRamp) (admin : Actor)
    (entryId : String) (now : Instant) : Faithful (replay a o admin entryId now) t := by
  unfold replay
  dsimp only
  -- after the purchase, if any: the credit, then the case written back
  have hrest : ∀ t : TxState, Faithful (if !admin.isAdmin then .rollback else
      creditIn (Reconcile.replayCredit a o admin) entryId now fun _ =>
        .call (.stage (.updateMissing a .pending)) fun _ => .commit) t := by
    intro t
    split
    · exact .rollback
    · exact faithful_creditIn fun _ _ => .call trivial fun _ _ _ => .commit
  split
  · exact .call trivial fun _ _ _ => hrest _
  · exact hrest _

/-- The flags: each suspect is flagged only when its row, read under its lock, disagrees
with the sums and the newest entry read after it. -/
theorem faithful_flagEach (locked : List Wallet) (now : Instant) (ids : List String)
    (hlocked : ∀ w ∈ locked, Reading.row w.id w ∈ t.seen) :
    Faithful (flagEach locked now ids) t := by
  induction ids generalizing t with
  | nil => exact .commit
  | cons id ids ih =>
    unfold flagEach
    split
    · exact .rollback
    · next w hw =>
      have hid : w.id = id := by simpa using List.find?_some hw
      refine .call trivial fun _ sums _ => .call trivial fun _ latest _ => ?_
      have hsub : t.seen ⊆ ((Call.latestAfter id).next ((Call.ledgerSums id).next t sums) latest).seen := by
        intro r hr
        simp [Call.next, hr]
      have hlocked' := fun v hv => hsub (hlocked v hv)
      split
      · exact ih hlocked'
      · next m hm =>
        split
        · exact ih hlocked'
        · refine .call ⟨w, sums, latest, ?_, ?_, ?_, by simp [hm]⟩ fun _ _ _ => ih hlocked'
          · exact hid ▸ hlocked' w (List.mem_of_find?_eq_some hw)
          · simp [Call.next]
          · simp [Call.next]

theorem faithful_flagSuspects (ids : List String) (now : Instant) :
    Faithful (flagSuspects ids now) TxState.empty :=
  faithful_lockEach _ fun locked _ h hlocked =>
    faithful_flagEach locked now ids fun w hw =>
      h.rowsSeen (by simp [TxState.RowsSeen, TxState.empty]) w (hlocked w hw)

end Tx

/-- **Every engine transaction is faithful.** -/
theorem EngineTx.faithful_body (tx : EngineTx) : tx.body.Faithful TxState.empty := by
  cases tx with
  | credit r entryId now => exact Tx.faithful_creditIn fun _ _ => .commit
  | debit r amount type entryId now => exact Tx.faithful_debit r amount type entryId now
  | transfer r amount outId inId now => exact Tx.faithful_transfer r amount outId inId now
  | process ev rowId entryId now => exact Tx.faithful_process ev rowId entryId now
  | replay a o admin entryId now => exact Tx.faithful_replay a o admin entryId now
  | flag ids now => exact Tx.faithful_flagSuspects ids now

/-! ## Review flags -/

/-- A write that flags nothing keeps every wallet's review flag. -/
theorem Write.review_apply {s : Store} (w : Write)
    (hw : ∀ id reason delta time, w ≠ .flag id reason delta time) :
    (w.apply s).wallets.map Wallet.review = s.wallets.map Wallet.review := by
  cases w with
  | flag id reason delta time => exact absurd rfl (hw id reason delta time)
  | balance id b time =>
    simp only [apply, Store.modifyWallet]
    split
    · next v hv =>
      exact map_replaceFirst_of_find? fun z hz => by rw [Option.some.inj (hz.symm.trans hv)]; rfl
    · rfl
  | _ => rfl

theorem Store.review_foldl {s : Store} {ws : List Write}
    (hws : ∀ w ∈ ws, ∀ id reason delta time, w ≠ .flag id reason delta time) :
    (ws.foldl Write.apply s).wallets.map Wallet.review = s.wallets.map Wallet.review := by
  induction ws generalizing s with
  | nil => rfl
  | cons w ws ih =>
    rw [List.foldl_cons, ih fun v hv => hws v (List.mem_cons_of_mem _ hv),
      Write.review_apply w (hws w List.mem_cons_self)]

/-! ## The machine -/

namespace Machine

variable {n : Nat} {s₀ : Store} {txs : Fin n → Tx} {fresh : Fin n → Option String}
  {M : Machine n}

/-- **A staged flag names a locked wallet that disagrees with its ledger** in the store as
it stands: the row, the sums of its entries and its newest entry that the comparison read
under the lock are what the store still shows. -/
theorem Serializes.flag_disagrees (h : M.Serializes s₀ txs fresh)
    (hf : ∀ i, (txs i).Faithful TxState.empty) {i : Fin n} {tx : Tx}
    (hph : (M.threads i).phase = .running tx) {id reason : String} {delta : Decimal}
    {time : Instant} (hw : Write.flag id reason delta time ∈ (M.threads i).state.writes) :
    id ∈ (M.threads i).state.held ∧
      ∃ w, M.store.wallet? id = some w ∧ (Integrity.compare M.store w).isSome := by
  have hrun := h.running i tx hph
  have hfi : Tx.Faithful (txs i, TxState.empty).1 (txs i, TxState.empty).2 := hf i
  have hseen := (hfi.reaches TxState.flagsSeen_empty hrun.reaches).2
  obtain ⟨w, sums, latest, hrow, hsums, hlatest, hmis⟩ := hseen id reason delta time hw
  obtain ⟨hheld, hrow'⟩ := hrun.stays _ hrow
  obtain ⟨-, hsums'⟩ := hrun.stays _ hsums
  obtain ⟨-, hlatest'⟩ := hrun.stays _ hlatest
  have hid : w.id = id := by
    simp only [Store.wallet?] at hrow'
    simpa using List.find?_some hrow'
  refine ⟨hheld, w, hrow', ?_⟩
  simp only [Integrity.compare, Store.ledgerBalance, hid, hsums', hlatest']
  exact hmis

/-- What a machine running faithful transactions from an agreeing store `s₀` keeps: it
serializes them, its store agrees with its ledger, and its wallets carry the review flags
they had in `s₀`. -/
structure Agreement (s₀ : Store) (txs : Fin n → Tx) (fresh : Fin n → Option String)
    (M : Machine n) : Prop where
  serializes : M.Serializes s₀ txs fresh
  agrees : M.store.Agrees
  review : M.store.wallets.map Wallet.review = s₀.wallets.map Wallet.review

theorem Agreement.start (hunused : ∀ i, ∀ x ∈ fresh i, x ∉ s₀.webhooks.map (·.id))
    (hnodup : (s₀.webhooks.map (·.id)).Nodup) (hs : s₀.Agrees) :
    (start s₀ txs).Agreement s₀ txs fresh :=
  ⟨.start hunused hnodup, hs, rfl⟩

/-- **Over an agreeing store no flag is staged**: it would name a wallet that disagrees. -/
theorem Agreement.no_flag (h : M.Agreement s₀ txs fresh)
    (hf : ∀ i, (txs i).Faithful TxState.empty) {i : Fin n} {tx : Tx}
    (hph : (M.threads i).phase = .running tx) (id reason : String) (delta : Decimal)
    (time : Instant) : Write.flag id reason delta time ∉ (M.threads i).state.writes := by
  intro hw
  obtain ⟨-, w, hrow, hmis⟩ := h.serializes.flag_disagrees hf hph hw
  have hmem : w ∈ M.store.wallets := List.mem_of_find?_eq_some hrow
  rw [h.agrees.agrees w hmem] at hmis
  exact Bool.false_ne_true hmis

/-- **Every choice of the scheduler keeps the agreement**: a commit leaves what the
committing transaction leaves run alone over the store as it stands, and flags nothing. -/
theorem Agreement.perform (h : M.Agreement s₀ txs fresh)
    (hd : ∀ i, (txs i).Disciplined (fresh i) TxState.empty)
    (hf : ∀ i, (txs i).Faithful TxState.empty)
    (hfresh : ∀ i j, ∀ x ∈ fresh i, x ∈ fresh j → i = j) (ch : Choice n) :
    (M.perform ch).Agreement s₀ txs fresh := by
  have hser := h.serializes.perform hd hfresh ch
  rcases perform_store M ch with ⟨hs, -⟩ | ⟨i, hph, hs', -⟩
  · refine ⟨hser, ?_, ?_⟩ <;> rw [hs]
    · exact h.agrees
    · exact h.review
  · have hsame := (h.serializes.running i _ hph).commit_sameButOnRamps (hd i) hs'
      (.refl M.store)
    have hlone := (hf i).runAlone_agrees h.agrees (.empty h.agrees)
    refine ⟨hser, hlone.of_sameButOnRamps hsame, ?_⟩
    rw [(Store.commit?_eq_some hs').2, Store.review_foldl ?_, h.review]
    rintro w hw id reason delta time rfl
    exact h.no_flag hf hph id reason delta time hw

theorem Agreement.run (h : M.Agreement s₀ txs fresh)
    (hd : ∀ i, (txs i).Disciplined (fresh i) TxState.empty)
    (hf : ∀ i, (txs i).Faithful TxState.empty)
    (hfresh : ∀ i j, ∀ x ∈ fresh i, x ∈ fresh j → i = j) (schedule : List (Choice n)) :
    (M.run schedule).Agreement s₀ txs fresh := by
  induction schedule generalizing M with
  | nil => exact h
  | cons c rest ih => exact ih (h.perform hd hf hfresh c)

end Machine

/-! ## The engine's transactions -/

/-- **The integrity monitor flags only what disagrees, and so never a consistent wallet,
among concurrent transactions.** Under every schedule of any number of the engine's
transactions, each with its own unused id for a new payment row: a flag that a running
transaction has staged names a wallet whose row lock it holds and which, in the store as
it stands, disagrees with the credits less the debits of its entries or with the balance
after its newest entry. And from a store that agrees with its ledger (as balanced books
do, `Books.agrees`), every store the run reaches agrees with it, no running transaction
has a flag staged, and every wallet carries the review flag it had at the start, however
the monitor's scan without locks read rows and sums across commits. -/
theorem EngineTx.flags_only_disagreeing (n : Nat) (s₀ : Store) (txs : Fin n → EngineTx)
    (schedule : List (Choice n))
    (hfresh : ∀ i j, ∀ x ∈ (txs i).newRow, x ∈ (txs j).newRow → i = j)
    (hunused : ∀ i, ∀ x ∈ (txs i).newRow, x ∉ s₀.webhooks.map (·.id))
    (hnodup : (s₀.webhooks.map (·.id)).Nodup) :
    let M := (Machine.start s₀ fun i => (txs i).body).run schedule
    (∀ (i : Fin n) (tx : Tx) (id reason : String) (delta : Decimal) (time : Instant),
      (M.threads i).phase = .running tx → Write.flag id reason delta time ∈ (M.threads i).state.writes →
        id ∈ (M.threads i).state.held ∧
          ∃ w, M.store.wallet? id = some w ∧ (Integrity.compare M.store w).isSome) ∧
    (s₀.Agrees → M.store.Agrees ∧
      (∀ (i : Fin n) (tx : Tx) (id reason : String) (delta : Decimal) (time : Instant),
        (M.threads i).phase = .running tx → Write.flag id reason delta time ∉ (M.threads i).state.writes) ∧
      M.store.wallets.map Wallet.review = s₀.wallets.map Wallet.review) := by
  intro M
  have hd : ∀ i, (txs i).body.Disciplined (txs i).newRow TxState.empty := fun i =>
    (txs i).disciplined_body
  have hf : ∀ i, (txs i).body.Faithful TxState.empty := fun i => (txs i).faithful_body
  have hser : M.Serializes s₀ (fun i => (txs i).body) fun i => (txs i).newRow :=
    (Machine.Serializes.start hunused hnodup).run hd hfresh schedule
  refine ⟨fun i tx id reason delta time hph hw => hser.flag_disagrees hf hph hw, fun hs => ?_⟩
  have h : M.Agreement s₀ (fun i => (txs i).body) fun i => (txs i).newRow :=
    (Machine.Agreement.start hunused hnodup hs).run hd hf hfresh schedule
  exact ⟨h.agrees, fun i tx id reason delta time hph => h.no_flag hf hph id reason delta time,
    h.review⟩

/-- One empty wallet `w1` of user `u1`, and nothing else. -/
def Store.oneEmptyWallet : Store :=
  ⟨[{ (default : Wallet) with id := "w1", userId := "u1" }], [], [], [], [], [], []⟩

/-- The one empty wallet agrees with its empty ledger. -/
theorem Store.oneEmptyWallet_agrees : Store.oneEmptyWallet.Agrees := by
  refine ⟨by decide, fun w hw => ?_⟩
  simp only [Store.oneEmptyWallet, List.mem_singleton] at hw
  subst hw
  rw [Integrity.compare, Integrity.mismatch_eq_none_iff]
  decide

/-- An admin's credit of 5 to `w1`, and the monitor's flag transaction for `w1`. -/
def EngineTx.creditChecked (i : Fin 2) : EngineTx :=
  if i = 0 then .credit ⟨"w1", Decimal.ofInt 5, "", "r0", "", "admin", "", false, ⟨"a1", "admin"⟩⟩
    "e0" default
  else .flag ["w1"] default

theorem EngineTx.flags_only_disagreeing_creditChecked :
    ((Machine.start Store.oneEmptyWallet fun i => (EngineTx.creditChecked i).body).run
        DebitRace.alternating).store.Agrees ∧
      ∀ (i : Fin 2) (tx : Tx) (id reason : String) (delta : Decimal) (time : Instant),
        (((Machine.start Store.oneEmptyWallet fun i => (EngineTx.creditChecked i).body).run
          DebitRace.alternating).threads i).phase = .running tx →
        Write.flag id reason delta time ∉
          (((Machine.start Store.oneEmptyWallet fun i => (EngineTx.creditChecked i).body).run
            DebitRace.alternating).threads i).state.writes := by
  have h := (EngineTx.flags_only_disagreeing 2 Store.oneEmptyWallet EngineTx.creditChecked
    DebitRace.alternating (by decide) (by decide) List.nodup_nil).2 Store.oneEmptyWallet_agrees
  exact ⟨h.1, h.2.1⟩

end OnrampLedger
