import OnrampLedger.Proofs.IntegrityFlags
import OnrampLedger.Proofs.PaymentRows
import OnrampLedger.Scenario.Setup

/-!
# An integrity run, start to end

`Integrity.run` pages through the wallets with a cursor on their ids, keeps the rows of a
page that disagree with the ledger, and takes those again one by one on the store as it
then stands, flagging each that still disagrees and is not flagged for it already. This
module computes a whole run, on a store whose wallet ids are distinct and non-empty, as
the store's keys are.

Three functions of the store the run starts from say what it does: `byId`, the wallets
in order of their ids; `newMismatch`, the mismatch a row is flagged for, if any; and
`checkedRow`, the row a run leaves. The scan never writes the ledger, so every row is
compared with the ledger the run started from, and flagging one row leaves the others'
comparisons as they were: a run is the same as checking each row once, in id order.

The paging proof follows the run's state after the first `k` wallets in id order: the
store (`visited`), the report (`reportAfter`) and the cursor (`cursor`). The page after
the cursor is the next `batch` wallets in id order (`walletsAfter_visited`), and taking it
moves all three from `k` to `k` plus the page's length (`foldl_page`); `pages_visit`
strings the pages together, with the fuel for the pages left.

## Main results

* `newMismatch_eq_none_iff` — the rows a run flags: those whose balance is not both the
  ledger's credits less its debits and the balance after the newest entry, unless they
  are flagged for a ledger mismatch already.
* `run_exec` — a run answers the count of wallets and the new mismatches in id order,
  reports those, and leaves every row checked and every other table as it was.
* `run_flags_exactly_new_mismatches` — the same, and a second run finds nothing new.
-/

namespace OnrampLedger

open Std.Do

set_option mvcgen.warning false

/-- The exact triple of an operation: from the one world `w₀`, it ends where its run
ends. -/
theorem Op.triple_exec {α : Type} (x : Op α) (w₀ : World) :
    ⦃fun w => ⌜w = w₀⌝⦄ x
    ⦃post⟨fun a w => ⌜x.exec w₀ = (.ok a, w)⌝, fun e w => ⌜x.exec w₀ = (.error e, w)⌝⟩⦄ := by
  intro w hw
  simp only [SPred.down_pure] at hw
  subst hw
  simp only [WP.wp, Id.run]
  simp
  unfold Op.exec
  rcases StateT.run (ExceptT.run x) w with ⟨_ | _, w'⟩ <;> simp

/-- Two worlds that agree once their stores are replaced agree everywhere but the store. -/
theorem World.eq_of_with_store {W W₀ : World} {S : Store}
    (h : { W with store := S } = { W₀ with store := S }) : W = { W₀ with store := W.store } := by
  cases W
  cases W₀
  simp_all

namespace Integrity

/-- The order the monitor pages through wallets in: ascending ids. -/
def byId (s : Store) : List Wallet := s.wallets.mergeSort fun a b => decide (a.id ≤ b.id)

/-- The mismatch a run flags a wallet for: the wallet disagrees with its ledger
(`compare`) and is not flagged for a ledger mismatch already. -/
def newMismatch (s : Store) (w : Wallet) : Option Mismatch :=
  if w.flagged && w.flagReason == flagReason then none else compare s w

/-- **The rows a run flags**: a row has no new mismatch exactly when it is flagged for a
ledger mismatch already, or its balance is both the ledger's credits less its debits and
the balance after its newest entry (zero when it has none). -/
theorem newMismatch_eq_none_iff {s : Store} {w : Wallet} :
    newMismatch s w = none ↔ (w.flagged = true ∧ w.flagReason = flagReason) ∨
      (w.balance = s.ledgerBalance w.id ∧ w.balance = s.latestAfter w.id) := by
  unfold newMismatch compare
  by_cases hflag : w.flagged = true ∧ w.flagReason = flagReason
  · simp [hflag]
  · rw [if_neg (by simpa using hflag), mismatch_eq_none_iff]
    simp [hflag]

/-- The row of wallet `w` flagged for a ledger mismatch of `delta` at `now`. -/
def markedAt (w : Wallet) (delta : Decimal) (now : Instant) : Wallet :=
  { w with flagged := true, flagReason := flagReason, flaggedAt := some now, flagDelta := some delta }

@[simp] theorem markedAt_id (w : Wallet) (delta : Decimal) (now : Instant) :
    (markedAt w delta now).id = w.id := rfl

/-- What a run at `now` over store `s` leaves of a wallet's row: flagged with the delta
of its new mismatch, if it has one, and as it was otherwise. -/
def checkedRow (s : Store) (now : Instant) (w : Wallet) : Wallet :=
  match newMismatch s w with
  | some m => markedAt w m.delta now
  | none => w

/-- The store `s` with the rows of the wallets `ids` checked at `now`. -/
def checking (s : Store) (now : Instant) (ids : List String) : Store :=
  { s with wallets := s.wallets.map fun w => if w.id ∈ ids then checkedRow s now w else w }

/-- One suspect of a page as `flagPage` takes it, on the mismatches found so far and the
store: the row its id finds is flagged with its new mismatch, if it has one. -/
def flagStep (now : Instant) (st : List Mismatch × Store) (w : Wallet) : List Mismatch × Store :=
  match st.2.wallet? w.id with
  | none => st
  | some cur =>
    match newMismatch st.2 cur with
    | none => st
    | some m => (st.1 ++ [m], st.2.putWallet (markedAt cur m.delta now))

section Sorting

variable {l : List Wallet}

theorem pairwise_le_mergeSort (l : List Wallet) :
    (l.mergeSort fun a b => decide (a.id ≤ b.id)).Pairwise fun a b => a.id ≤ b.id := by
  have h := @List.pairwise_mergeSort Wallet (fun a b => decide (a.id ≤ b.id))
    (fun a b c hab hbc => by simp only [decide_eq_true_eq] at *; exact le_trans hab hbc)
    (fun a b => by simpa using le_total a.id b.id) l
  simpa using h

/-- Wallets in order of their ids, with no id twice, are in strictly ascending order. -/
theorem pairwise_lt_of_le (hle : l.Pairwise fun a b => a.id ≤ b.id) (hids : (l.map (·.id)).Nodup) :
    l.Pairwise fun a b => a.id < b.id := by
  rw [List.Nodup, List.pairwise_map] at hids
  exact (hle.and hids).imp fun h => lt_of_le_of_ne h.1 h.2

/-- Two orderings of the same wallets, each strictly by id, are the same list. -/
theorem eq_of_perm_of_lt {l₁ l₂ : List Wallet} (hp : l₁.Perm l₂)
    (h₁ : l₁.Pairwise fun a b => a.id < b.id) (h₂ : l₂.Pairwise fun a b => a.id < b.id) : l₁ = l₂ :=
  hp.eq_of_pairwise (fun _ _ _ _ hab hba => absurd (hab.trans hba) (lt_irrefl _)) h₁ h₂

/-- Sorting by id commutes with keeping some of the wallets, when no id occurs twice. -/
theorem mergeSort_filter (hids : (l.map (·.id)).Nodup) (p : Wallet → Bool) :
    (l.filter p).mergeSort (fun a b => decide (a.id ≤ b.id)) =
      (l.mergeSort fun a b => decide (a.id ≤ b.id)).filter p := by
  have hperm := List.mergeSort_perm l fun a b => decide (a.id ≤ b.id)
  have hperm' := List.mergeSort_perm (l.filter p) fun a b => decide (a.id ≤ b.id)
  apply eq_of_perm_of_lt (hperm'.trans (hperm.filter p).symm)
  · exact pairwise_lt_of_le (pairwise_le_mergeSort _)
      ((hperm'.map (·.id)).nodup_iff.mpr (hids.sublist (List.filter_sublist.map _)))
  · exact (pairwise_lt_of_le (pairwise_le_mergeSort l) ((hperm.map (·.id)).nodup_iff.mpr hids)).filter p

end Sorting

section Rows

variable {s s' : Store} {now : Instant} {ids : List String} {w : Wallet}

theorem compare_of_ledger (h : s'.ledger = s.ledger) (w : Wallet) : compare s' w = compare s w := by
  simp [compare, Store.ledgerBalance, Store.latestAfter, Store.entriesOf, h]

theorem newMismatch_of_ledger (h : s'.ledger = s.ledger) (w : Wallet) :
    newMismatch s' w = newMismatch s w := by
  simp [newMismatch, compare_of_ledger h]

@[simp] theorem checkedRow_id (w : Wallet) : (checkedRow s now w).id = w.id := by
  unfold checkedRow
  split <;> rfl

theorem checkedRow_of_none (h : newMismatch s w = none) : checkedRow s now w = w := by
  simp [checkedRow, h]

@[simp] theorem checking_ledger : (checking s now ids).ledger = s.ledger := rfl

theorem checking_ids : (checking s now ids).wallets.map (·.id) = s.wallets.map (·.id) := by
  simp [checking, Function.comp_def, apply_ite]

/-- Two checks agree when they differ only on wallets with no new mismatch. -/
theorem checking_congr {ids' : List String}
    (h : ∀ z ∈ s.wallets, newMismatch s z ≠ none → (z.id ∈ ids ↔ z.id ∈ ids')) :
    checking s now ids = checking s now ids' := by
  unfold checking
  congr 1
  refine List.map_congr_left fun z hz => ?_
  by_cases hnone : newMismatch s z = none
  · simp [checkedRow_of_none hnone]
  · simp [h z hz hnone]

/-- An unchecked wallet of a store with no id twice is what its id finds among the
checked rows. -/
theorem checking_wallet? (hids : (s.wallets.map (·.id)).Nodup) (hw : w ∈ s.wallets)
    (hfresh : w.id ∉ ids) : (checking s now ids).wallet? w.id = some w := by
  have hmem : w ∈ (checking s now ids).wallets :=
    List.mem_map.mpr ⟨w, hw, by simp [hfresh]⟩
  exact find?_key_of_mem (checking_ids.symm ▸ hids) hmem

/-- One suspect taken on a store whose other rows may be checked: its new mismatch, if
any, is found, and its row checked. -/
theorem flagStep_checking (hids : (s.wallets.map (·.id)).Nodup) (hw : w ∈ s.wallets)
    (hfresh : w.id ∉ ids) (acc : List Mismatch) :
    flagStep now (acc, checking s now ids) w =
      (acc ++ (newMismatch s w).toList, checking s now (ids ++ [w.id])) := by
  have hsame : ∀ z ∈ s.wallets, z.id = w.id → z = w := fun z hz h =>
    List.inj_on_of_nodup_map hids hz hw h
  unfold flagStep
  simp only [checking_wallet? hids hw hfresh, newMismatch_of_ledger checking_ledger]
  cases hm : newMismatch s w with
  | none =>
      refine Prod.ext (by simp) (checking_congr fun z hz hnz => ?_)
      by_cases hzw : z.id = w.id
      · exact absurd (hsame z hz hzw ▸ hm) hnz
      · simp [hzw]
  | some m =>
      refine Prod.ext (by simp) ?_
      simp only [Store.putWallet, checking]
      rw [replaceFirst_eq_map (checking_ids.symm ▸ hids), List.map_map]
      congr 1
      refine List.map_congr_left fun z hz => ?_
      by_cases hzw : z.id = w.id
      · obtain rfl := hsame z hz hzw
        simp [hfresh, checkedRow, hm, markedAt]
      · have hid : (if z.id ∈ ids then checkedRow s now z else z).id = z.id := by
          split <;> simp
        simp only [Function.comp_apply, hid, markedAt_id, hzw, if_false, List.mem_append,
          List.mem_singleton, or_false]

/-- A run of suspects, none of them checked yet and no id twice: the new mismatches are
found in their order, and their rows checked. -/
theorem foldl_flagStep (hids : (s.wallets.map (·.id)).Nodup) (suspects : List Wallet)
    (hmem : ∀ w ∈ suspects, w ∈ s.wallets) (hnodup : (suspects.map (·.id)).Nodup)
    (hfresh : ∀ w ∈ suspects, w.id ∉ ids) (acc : List Mismatch) :
    suspects.foldl (flagStep now) (acc, checking s now ids) =
      (acc ++ suspects.filterMap (newMismatch s), checking s now (ids ++ suspects.map (·.id))) := by
  induction suspects generalizing ids acc with
  | nil => simp
  | cons w ws ih =>
      simp only [List.map_cons, List.nodup_cons, List.mem_map, not_exists, not_and] at hnodup
      rw [List.foldl_cons, flagStep_checking hids (hmem w List.mem_cons_self)
        (hfresh w List.mem_cons_self)]
      rw [ih (fun v hv => hmem v (List.mem_cons_of_mem w hv)) hnodup.2 fun v hv => ?_]
      · cases h : newMismatch s w <;> simp [h]
      · -- a later suspect is neither checked before nor the one just taken
        simpa [hfresh v (List.mem_cons_of_mem w hv)] using fun h => hnodup.1 v hv h

end Rows

/-! ## Paging -/

/-- The store after the first `k` wallets in id order have been checked at `now`. -/
def visited (s : Store) (now : Instant) (k : Nat) : Store :=
  checking s now (((byId s).take k).map (·.id))

/-- The report after the first `k` wallets in id order. -/
def reportAfter (s : Store) (k : Nat) : IntegrityReport :=
  ⟨k, ((byId s).take k).filterMap (newMismatch s)⟩

/-- Where paging resumes after the first `k` wallets in id order: the id of the last of
them, or the empty id before the first. -/
def cursor (s : Store) (k : Nat) : String := ((((byId s).take k).getLast?).map (·.id)).getD ""

section Paging

variable {s : Store} {now : Instant}

theorem byId_perm (s : Store) : (byId s).Perm s.wallets := List.mergeSort_perm _ _

@[simp] theorem length_byId (s : Store) : (byId s).length = s.wallets.length :=
  (byId_perm s).length_eq

theorem byId_lt (hids : (s.wallets.map (·.id)).Nodup) : (byId s).Pairwise fun a b => a.id < b.id :=
  pairwise_lt_of_le (pairwise_le_mergeSort _) (((byId_perm s).map (·.id)).nodup_iff.mpr hids)

theorem byId_ids_nodup (hids : (s.wallets.map (·.id)).Nodup) : ((byId s).map (·.id)).Nodup :=
  ((byId_perm s).map (·.id)).nodup_iff.mpr hids

/-- Checking rows keeps their ids, so it keeps the order by id. -/
theorem byId_checking (ids : List String) :
    byId (checking s now ids) = (byId s).map fun w => if w.id ∈ ids then checkedRow s now w else w := by
  unfold byId checking
  rw [List.map_mergeSort]
  intro a _ b _
  split <;> split <;> simp

/-- The empty id comes before every other. -/
theorem empty_lt {x : String} (hx : x ≠ "") : "" < x := by
  rw [String.lt_iff_toList_lt]
  obtain ⟨c, cs, hcs⟩ := List.exists_cons_of_ne_nil (show x.toList ≠ [] by simpa using hx)
  rw [hcs]
  exact List.nil_lt_cons c cs

/-- Past the cursor after `k` wallets lie exactly the wallets after the first `k`. -/
theorem filter_cursor (hids : (s.wallets.map (·.id)).Nodup) (hne : ∀ w ∈ s.wallets, w.id ≠ "")
    (k : Nat) : (byId s).filter (fun w => decide (cursor s k < w.id)) = (byId s).drop k := by
  have hlt := byId_lt hids
  rw [← List.take_append_drop k (byId s)] at hlt
  obtain ⟨hfirst, hrest, hacross⟩ := List.pairwise_append.mp hlt
  conv => lhs; rw [← List.take_append_drop k (byId s)]
  rw [List.filter_append, List.filter_eq_nil_iff.mpr, List.filter_eq_self.mpr, List.nil_append]
  · -- every later wallet lies past the cursor
    intro w hw
    unfold cursor
    cases hlast : ((byId s).take k).getLast? with
    | none => simpa using empty_lt (hne w ((byId_perm s).subset (List.mem_of_mem_drop hw)))
    | some y => simpa using hacross y (List.mem_of_getLast? hlast) w hw
  · -- no earlier wallet does
    intro w hw
    unfold cursor
    obtain ⟨y, hlast⟩ := Option.isSome_iff_exists.mp (List.getLast?_isSome.mpr (List.ne_nil_of_mem hw))
    obtain ⟨ys, hys⟩ := List.getLast?_eq_some_iff.mp hlast
    rw [hlast]
    rw [hys] at hw hfirst
    simp only [Option.map_some, Option.getD_some, decide_eq_true_eq, not_lt]
    rcases List.mem_append.mp hw with hw | hw
    · exact le_of_lt ((List.pairwise_append.mp hfirst).2.2 w hw y (List.mem_singleton_self y))
    · rw [List.mem_singleton.mp hw]

/-- The wallets after the first `k` keep their ids out of the first `k`'s. -/
theorem id_not_mem_take (hids : (s.wallets.map (·.id)).Nodup) {k : Nat} {w : Wallet}
    (hw : w ∈ (byId s).drop k) : w.id ∉ ((byId s).take k).map (·.id) := by
  have h := byId_ids_nodup hids
  rw [← List.take_append_drop k (byId s), List.map_append, List.nodup_append] at h
  exact fun hmem => h.2.2 _ hmem _ (List.mem_map_of_mem hw) rfl

/-- **A page** after `k` wallets, in the store as the run has left it by then: the next
`batch` wallets in id order, as they were. -/
theorem walletsAfter_visited (hids : (s.wallets.map (·.id)).Nodup)
    (hne : ∀ w ∈ s.wallets, w.id ≠ "") {batch : Nat} (hbatch : 0 < batch) (k : Nat) :
    (visited s now k).walletsAfter (cursor s k) batch = ((byId s).drop k).take batch := by
  have hids' : ((visited s now k).wallets.map (·.id)).Nodup := checking_ids.symm ▸ hids
  unfold Store.walletsAfter
  rw [mergeSort_filter hids', show (visited s now k).wallets.mergeSort _ = byId (visited s now k)
    from rfl, visited, byId_checking, List.filter_map]
  have hkeep : (fun w => decide (cursor s k < w.id)) ∘
      (fun w => if w.id ∈ ((byId s).take k).map (·.id) then checkedRow s now w else w) =
      fun w => decide (cursor s k < w.id) := by
    funext w
    simp only [Function.comp_apply]
    split <;> simp
  rw [hkeep, filter_cursor hids hne,
    List.map_congr_left fun w hw => if_neg (id_not_mem_take hids hw), List.map_id']
  simp [hbatch]

/-- The first `k` wallets and the page after them are the first `k` and a page's length. -/
theorem take_add_page (l : List Wallet) (k batch : Nat) :
    l.take (k + ((l.drop k).take batch).length) = l.take k ++ (l.drop k).take batch := by
  rw [List.take_add]
  congr 1
  exact List.take_eq_take_iff.mpr (by simp only [List.length_take]; omega)

/-- **One page checked**: the suspects of the page after `k` wallets, taken one after
another on the store as the run has left it, give the page's new mismatches in id order
and leave the first `k` wallets and the page checked. -/
theorem foldl_page (hids : (s.wallets.map (·.id)).Nodup) (k batch : Nat) :
    (((byId s).drop k).take batch |>.filter fun w => (compare (visited s now k) w).isSome).foldl
        (flagStep now) ([], visited s now k) =
      ((((byId s).drop k).take batch).filterMap (newMismatch s),
        visited s now (k + (((byId s).drop k).take batch).length)) := by
  have hpage : ∀ w ∈ ((byId s).drop k).take batch, w ∈ (byId s).drop k := fun w hw =>
    List.mem_of_mem_take hw
  have hwallet : ∀ w ∈ (byId s).drop k, w ∈ s.wallets := fun w hw =>
    (byId_perm s).subset (List.mem_of_mem_drop hw)
  have hnodup : (((byId s).drop k).take batch |>.map (·.id)).Nodup := by
    refine (byId_ids_nodup hids).sublist (List.Sublist.map _ ?_)
    exact (List.take_sublist _ _).trans (List.drop_sublist _ _)
  rw [visited, foldl_flagStep hids _ (fun w hw => hwallet w (hpage w (List.mem_of_mem_filter hw)))
    (hnodup.sublist (List.filter_sublist.map _))
    (fun w hw => id_not_mem_take hids (hpage w (List.mem_of_mem_filter hw)))]
  refine Prod.ext ?_ ?_
  · -- the wallets the scan passed over have no mismatch at all
    simp only [List.nil_append, List.filterMap_filter, compare_of_ledger checking_ledger]
    refine List.filterMap_congr fun w _ => ?_
    cases h : compare s w <;> simp [newMismatch, h]
  · rw [visited, take_add_page, List.map_append]
    refine checking_congr fun z hz hnew => ?_
    simp only [List.mem_append, List.mem_map, List.mem_filter]
    refine or_congr_right ⟨fun ⟨w, ⟨hw, _⟩, hwz⟩ => ⟨w, hw, hwz⟩, fun ⟨w, hw, hwz⟩ => ⟨w, ⟨hw, ?_⟩, hwz⟩⟩
    -- a page wallet with the id of a wallet that has a new mismatch is that wallet
    obtain rfl := List.inj_on_of_nodup_map hids (hwallet w (hpage w hw)) hz hwz
    rw [compare_of_ledger checking_ledger]
    cases h : compare s w <;> simp_all [newMismatch]

/-- A page with no suspect finds no new mismatch and flags no row. -/
theorem page_quiet (hids : (s.wallets.map (·.id)).Nodup) (k batch : Nat)
    (hnone : (((byId s).drop k).take batch |>.filter fun w =>
      (compare (visited s now k) w).isSome).isEmpty = true) :
    (((byId s).drop k).take batch).filterMap (newMismatch s) = [] ∧
      visited s now (k + (((byId s).drop k).take batch).length) = visited s now k := by
  have hfold := @foldl_page s now hids k batch
  rw [List.isEmpty_iff.mp hnone, List.foldl_nil, Prod.mk.injEq] at hfold
  exact ⟨hfold.1.symm, hfold.2.symm⟩

section Pages

variable (s : Store) {k batch : Nat}

theorem page_isEmpty (hk : k ≤ s.wallets.length) (hbatch : 0 < batch)
    (h : (((byId s).drop k).take batch).isEmpty = true) : k = s.wallets.length := by
  have := congrArg List.length (List.isEmpty_iff.mp h)
  simp only [List.length_take, List.length_drop, length_byId, List.length_nil] at this
  omega

theorem page_le (hk : k ≤ s.wallets.length) :
    k + (((byId s).drop k).take batch).length ≤ s.wallets.length := by
  simp only [List.length_take, List.length_drop, length_byId]
  omega

theorem page_short (hk : k ≤ s.wallets.length) (h : (((byId s).drop k).take batch).length < batch) :
    k + (((byId s).drop k).take batch).length = s.wallets.length := by
  simp only [List.length_take, List.length_drop, length_byId] at h ⊢
  omega

theorem page_full (h : ¬ (((byId s).drop k).take batch).length < batch) :
    (((byId s).drop k).take batch).length = batch := by
  simp only [List.length_take] at h ⊢
  omega

/-- A full page spends one page of fuel: what is left covers the wallets after it. -/
theorem page_fuel (hk : k ≤ s.wallets.length) (h : ¬ (((byId s).drop k).take batch).length < batch)
    {fuel : Nat} (hfuel : s.wallets.length - k < (fuel + 1) * batch) :
    s.wallets.length - (k + (((byId s).drop k).take batch).length) < fuel * batch := by
  have hlen := page_full s h
  have hle := @page_le s k batch hk
  rw [Nat.succ_mul] at hfuel
  omega

/-- After a page, paging resumes at the id of the page's last wallet. -/
theorem cursor_page (h : ¬ (((byId s).drop k).take batch).isEmpty = true) (x : String) :
    (((((byId s).drop k).take batch).getLast?).map (·.id)).getD x =
      cursor s (k + (((byId s).drop k).take batch).length) := by
  have hpage : ((byId s).drop k).take batch ≠ [] := by simpa using h
  obtain ⟨y, hy⟩ := Option.isSome_iff_exists.mp (List.getLast?_isSome.mpr hpage)
  rw [cursor, take_add_page, List.getLast?_append_of_ne_nil _ hpage, hy]
  rfl

/-- A page's new mismatches follow those found before it. -/
theorem reportAfter_page :
    ({ checked := (reportAfter s k).checked + (((byId s).drop k).take batch).length,
       mismatches := (reportAfter s k).mismatches ++
         (((byId s).drop k).take batch).filterMap (newMismatch s) } : IntegrityReport) =
      reportAfter s (k + (((byId s).drop k).take batch).length) := by
  simp only [reportAfter, take_add_page, List.filterMap_append]

end Pages

end Paging

theorem flagPage_steps (W₀ : World) (suspects : List Wallet) :
    ⦃fun W => ⌜W = W₀⌝⦄ flagPage suspects
    ⦃post⟨fun ms W => ⌜suspects.foldl (flagStep W₀.now) ([], W₀.store) = (ms, W.store) ∧
        { W with store := W₀.store } = W₀⌝, fun _ _ => ⌜False⌝⟩⦄ := by
  mvcgen [flagPage, -flagPage_frame]
  case inv1 =>
    exact post⟨fun p W => ⌜List.foldl (flagStep W₀.now) ([], W₀.store) p.fst.prefix = (p.2, W.store) ∧
      { W with store := W₀.store } = W₀⌝, fun _ _ => ⌜False⌝⟩
  all_goals simp_all +zetaDelta [flagStep, newMismatch]
  -- a disagreeing row not flagged yet: flagged now
  rename_i hnew
  rw [if_neg fun h => hnew h.1 h.2]
  rfl

/-- **Paging** from the cursor after `k` wallets, with fuel for the pages left: the run
takes the remaining wallets page by page and ends with all of them checked. -/
theorem pages_visit (W₀ : World) (hids : (W₀.store.wallets.map (·.id)).Nodup)
    (hne : ∀ w ∈ W₀.store.wallets, w.id ≠ "") {batch : Nat} (hbatch : 0 < batch) (fuel : Nat)
    (after : String) (r : IntegrityReport) :
    ⦃fun W => ⌜∃ k, k ≤ W₀.store.wallets.length ∧ W₀.store.wallets.length - k < fuel * batch ∧
        after = cursor W₀.store k ∧ r = reportAfter W₀.store k ∧
        W = { W₀ with store := visited W₀.store W₀.now k }⌝⦄
    pages batch fuel after r
    ⦃post⟨fun r' W => ⌜r' = reportAfter W₀.store W₀.store.wallets.length ∧
        W = { W₀ with store := visited W₀.store W₀.now W₀.store.wallets.length }⌝,
      fun _ _ => ⌜False⌝⟩⦄ := by
  induction fuel generalizing after r with
  | zero =>
      mvcgen [pages, -pages_frame]
      simp_all
  | succ fuel ih =>
      mvcgen [pages, -pages_frame, ih, flagPage_steps, -flagPage_frame]
      all_goals
        obtain ⟨k, hk, hfuel, rfl, rfl, rfl⟩ := ‹∃ k, _›
        simp +zetaDelta only [walletsAfter_visited hids hne hbatch] at *
      · -- an empty page: every wallet has been checked
        obtain rfl := page_isEmpty _ hk hbatch ‹_›
        exact ⟨rfl, rfl⟩
      · -- a short page with no suspect: the last page
        rename_i hnone hshort
        obtain ⟨hfound, hrows⟩ := page_quiet hids k batch hnone
        rw [← page_short _ hk hshort, ← reportAfter_page, hfound, hrows]
        exact ⟨rfl, rfl⟩
      · -- a full page with no suspect: on to the next
        rename_i hnonempty hnone hfull
        obtain ⟨hfound, hrows⟩ := page_quiet hids k batch hnone
        refine ⟨_, page_le _ hk, page_fuel _ hk hfull hfuel, cursor_page _ hnonempty _, ?_, ?_⟩
        · rw [← reportAfter_page, hfound]
        · rw [hrows]
      · -- a short page with suspects: they are flagged, and the run ends
        rename_i ms W _ _ hshort hflag
        rw [foldl_page hids, Prod.mk.injEq] at hflag
        obtain ⟨⟨rfl, hstore⟩, hworld⟩ := hflag
        rw [← page_short _ hk hshort, ← reportAfter_page, World.eq_of_with_store hworld, ← hstore]
        exact ⟨rfl, rfl⟩
      · -- a full page with suspects: they are flagged, and on to the next
        rename_i ms W hnonempty _ hfull hflag
        rw [foldl_page hids, Prod.mk.injEq] at hflag
        obtain ⟨⟨rfl, hstore⟩, hworld⟩ := hflag
        refine ⟨_, page_le _ hk, page_fuel _ hk hfull hfuel, cursor_page _ hnonempty _,
          reportAfter_page _, ?_⟩
        rw [World.eq_of_with_store hworld, ← hstore]

section Ends

variable (s : Store) (now : Instant)

@[simp] theorem visited_zero : visited s now 0 = s := by
  simp [visited, checking]

/-- After the last page every row is checked. -/
theorem visited_all :
    visited s now s.wallets.length = { s with wallets := s.wallets.map (checkedRow s now) } := by
  rw [visited, ← length_byId, List.take_length, checking]
  congr 1
  refine List.map_congr_left fun w hw => if_pos ?_
  exact List.mem_map_of_mem ((byId_perm s).mem_iff.mpr hw)

theorem reportAfter_all :
    reportAfter s s.wallets.length = ⟨s.wallets.length, (byId s).filterMap (newMismatch s)⟩ := by
  simp [reportAfter, List.take_of_length_le (le_of_eq (length_byId s))]

end Ends

/-- **Paging from the start**: with fuel for every page, the run checks every row and
reports every new mismatch, in id order. -/
theorem pages_all (W₀ : World) (hids : (W₀.store.wallets.map (·.id)).Nodup)
    (hne : ∀ w ∈ W₀.store.wallets, w.id ≠ "") (batch fuel : Nat) :
    ⦃fun W => ⌜0 < batch ∧ W₀.store.wallets.length < fuel * batch ∧ W = W₀⌝⦄
    pages batch fuel "" ⟨0, []⟩
    ⦃post⟨fun r W => ⌜r = ⟨W₀.store.wallets.length, (byId W₀.store).filterMap (newMismatch W₀.store)⟩ ∧
        W = { W₀ with store := { W₀.store with wallets := W₀.store.wallets.map (checkedRow W₀.store W₀.now) } }⌝,
      fun _ _ => ⌜False⌝⟩⦄ := by
  intro W hW
  simp only [SPred.down_pure] at hW
  obtain ⟨hbatch, hfuel, rfl⟩ := hW
  have h := pages_visit W hids hne hbatch fuel "" ⟨0, []⟩
  rw [reportAfter_all, visited_all] at h
  exact h W ⟨0, Nat.zero_le _, by omega, rfl, rfl, by simp⟩

theorem run_exact (W₀ : World) (hids : (W₀.store.wallets.map (·.id)).Nodup)
    (hne : ∀ w ∈ W₀.store.wallets, w.id ≠ "") :
    ⦃fun W => ⌜W = W₀⌝⦄ run
    ⦃post⟨fun r W => ⌜r = ⟨W₀.store.wallets.length, (byId W₀.store).filterMap (newMismatch W₀.store)⟩ ∧
        W = ((((byId W₀.store).filterMap (newMismatch W₀.store)).forM Alerting.balanceMismatch).exec
          { W₀ with store := { W₀.store with wallets := W₀.store.wallets.map (checkedRow W₀.store W₀.now) } }).2⌝,
      fun _ _ => ⌜False⌝⟩⦄ := by
  have hpages := pages_all W₀ hids hne
  have hreport : ∀ (ms : List Mismatch) (w₀ : World), _ := fun ms w₀ =>
    Op.triple_exec (ms.forM Alerting.balanceMismatch) w₀
  mvcgen [run, -run_frame, -pages_frame, hpages, hreport]
  case vc1.pre =>
    rename_i W hW configured batch
    subst hW
    have hbatch : 0 < batch := by
      simp only [batch, configured]
      split <;> omega
    -- a page holds at least one wallet, so one page per wallet and one more suffice
    exact ⟨hbatch, Nat.lt_of_lt_of_le (Nat.lt_succ_self _) (Nat.le_mul_of_pos_right _ hbatch), rfl⟩
  case vc2.post.success.post.success =>
    rename_i r _ _ _ hpaged _ _ hreported
    obtain ⟨rfl, rfl⟩ := hpaged
    rw [hreported]
    exact ⟨rfl, rfl⟩
  case vc3.post.success.post.except.handle =>
    -- reporting never refuses
    rename_i r W _ _ _
    intro hrefused
    have hends := Op.ends_of_triple (forM_balanceMismatch_frame W.records W.issued r.mismatches)
      ⟨rfl, le_refl _⟩
    rw [hrefused] at hends
    exact hends

/-- A run from a world with distinct, non-empty wallet ids answers the checked count and
the new mismatches in id order, and ends in the world reporting left, from the checked
rows. -/
theorem run_exec (W : World) (hids : (W.store.wallets.map (·.id)).Nodup)
    (hne : ∀ w ∈ W.store.wallets, w.id ≠ "") :
    run.exec W = (.ok ⟨W.store.wallets.length, (byId W.store).filterMap (newMismatch W.store)⟩,
      ((((byId W.store).filterMap (newMismatch W.store)).forM Alerting.balanceMismatch).exec
        { W with store := { W.store with wallets := W.store.wallets.map (checkedRow W.store W.now) } }).2) :=
  Op.exec_eq_of_triple (run_exact W hids hne)

/-- Reporting mismatches leaves the rows and the ledger where the scan left them. -/
theorem reported_rows (W : World) (ms : List Mismatch) :
    ((ms.forM Alerting.balanceMismatch).exec W).2.store.wallets = W.store.wallets ∧
      ((ms.forM Alerting.balanceMismatch).exec W).2.store.ledger = W.store.ledger := by
  have h := Op.world_of_answered (forM_balanceMismatch_frame W.records W.issued ms) ⟨rfl, le_refl _⟩
  obtain ⟨-, hw, hl, -⟩ := World.records_eq.mp h.1
  exact ⟨hw, hl⟩

/-- A checked row has no new mismatch left, against any store with the same ledger: it
had none, or it is now flagged for one. -/
theorem newMismatch_checkedRow {s s' : Store} {now : Instant} (h : s'.ledger = s.ledger) (w : Wallet) :
    newMismatch s' (checkedRow s now w) = none := by
  unfold checkedRow
  cases hm : newMismatch s w with
  | none => rw [newMismatch_of_ledger h, hm]
  | some m => simp [newMismatch, markedAt]

/-- A run over rows none of which has a new mismatch answers no mismatch and changes
nothing. -/
theorem run_exec_of_none (W : World) (hids : (W.store.wallets.map (·.id)).Nodup)
    (hne : ∀ w ∈ W.store.wallets, w.id ≠ "")
    (hnone : ∀ w ∈ W.store.wallets, newMismatch W.store w = none) :
    run.exec W = (.ok ⟨W.store.wallets.length, []⟩, W) := by
  have hms : (byId W.store).filterMap (newMismatch W.store) = [] :=
    List.filterMap_eq_nil_iff.mpr fun w hw => hnone w ((byId_perm _).subset hw)
  have hrows : W.store.wallets.map (checkedRow W.store W.now) = W.store.wallets :=
    (List.map_congr_left fun w hw => checkedRow_of_none (hnone w hw)).trans (List.map_id' _)
  rw [run_exec W hids hne, hms, hrows]
  rfl

/-- **An integrity run is exact.** On a store whose wallet ids are distinct and
non-empty, whatever its balances and the configured page size, a run takes every wallet
once, in ascending id order; it answers their count and the new mismatches in that order,
reports exactly those to alerting, flags exactly their rows, each with its delta, and
leaves the ledger as it was. A second run right after finds no new mismatch and changes
nothing. -/
theorem run_flags_exactly_new_mismatches (W : World) (hids : (W.store.wallets.map (·.id)).Nodup)
    (hne : ∀ w ∈ W.store.wallets, w.id ≠ "") :
    let ms := (byId W.store).filterMap (newMismatch W.store)
    let W' := ((ms.forM Alerting.balanceMismatch).exec
      { W with store := { W.store with wallets := W.store.wallets.map (checkedRow W.store W.now) } }).2
    (byId W.store).Perm W.store.wallets ∧ (byId W.store).Pairwise (fun a b => a.id < b.id) ∧
    run.exec W = (.ok ⟨W.store.wallets.length, ms⟩, W') ∧
    W'.store.wallets = W.store.wallets.map (checkedRow W.store W.now) ∧
    W'.store.ledger = W.store.ledger ∧
    run.exec W' = (.ok ⟨W.store.wallets.length, []⟩, W') := by
  intro ms W'
  obtain ⟨hwallets, hledger⟩ : W'.store.wallets = W.store.wallets.map (checkedRow W.store W.now) ∧
      W'.store.ledger = W.store.ledger := reported_rows _ ms
  have hids' : (W'.store.wallets.map (·.id)).Nodup := by
    simpa [hwallets, Function.comp_def] using hids
  have hne' : ∀ w ∈ W'.store.wallets, w.id ≠ "" := by
    intro w hw
    rw [hwallets, List.mem_map] at hw
    obtain ⟨v, hv, rfl⟩ := hw
    simpa using hne v hv
  have hnone : ∀ w ∈ W'.store.wallets, newMismatch W'.store w = none := by
    intro w hw
    rw [hwallets, List.mem_map] at hw
    obtain ⟨v, -, rfl⟩ := hw
    exact newMismatch_checkedRow hledger v
  refine ⟨byId_perm _, byId_lt hids, run_exec W hids hne, hwallets, hledger, ?_⟩
  have h := run_exec_of_none W' hids' hne' hnone
  rwa [hwallets, List.length_map] at h

/-- Two wallets listed out of id order, `b` with a balance of 5 that no entry backs, and
the monitor reading one wallet a page. -/
def corruptedRowWorld : World :=
  let t := Setup.defaultStart
  { Setup.world { integrityBatch := 1 } with
    store := { Store.empty with
      wallets := [⟨"b", "u", "USD", 5, false, "", none, none, t, t⟩,
        ⟨"a", "v", "USD", 0, false, "", none, none, t, t⟩] } }

theorem run_flags_exactly_new_mismatches_onCorruptedRow :
    let W := corruptedRowWorld
    (W.store.wallets.map (·.id)).Nodup ∧ (∀ w ∈ W.store.wallets, w.id ≠ "") ∧
      ((run.exec W).1.toOption.map fun r => (r.checked, r.mismatches.map (·.walletId))) =
        some (2, ["b"]) ∧
      ((run.exec (run.exec W).2).1.toOption.map fun r => (r.checked, r.mismatches.length)) =
        some (2, 0) := by
  intro W
  have hids : (W.store.wallets.map (·.id)).Nodup := by decide
  have hne : ∀ w ∈ W.store.wallets, w.id ≠ "" := by decide
  obtain ⟨-, -, hfirst, -, -, hsecond⟩ := run_flags_exactly_new_mismatches W hids hne
  -- in id order the wallets are the other way round
  have hsorted : byId W.store = W.store.wallets.reverse :=
    eq_of_perm_of_lt ((byId_perm _).trans (List.Perm.swap _ _ [])) (byId_lt hids) (by decide)
  refine ⟨hids, hne, ?_, ?_⟩
  · rw [hfirst, hsorted]
    decide
  · rw [hfirst]
    simp only
    rw [hsecond]
    rfl

end Integrity

end OnrampLedger