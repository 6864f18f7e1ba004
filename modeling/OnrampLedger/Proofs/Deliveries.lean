import OnrampLedger.Proofs.DebitRace
import OnrampLedger.Proofs.Keys
import OnrampLedger.Service.Concurrency

/-!
# Deliveries of one payment racing

A provider may deliver one payment several times at once. Each delivery runs the
transaction of processing the payment (`Tx.process`), and what it answers is read off how
its transaction ended (`Intake.deliveryOf`): a commit that wrote the payment's row is
processed; a commit that found the row processed, or an error of the store's duplicate
kind, is a duplicate; any other error is a failure, and is recorded as one.

When the payment had no row, the deliveries settle it once: under every schedule with no
lock wait cut short, once every delivery has finished, exactly one is processed and every
other is a duplicate (`PaymentRace.deliveries_settle_once`). Each delivery goes through
the stages of its transaction (`PaymentRace.Stage`), and the invariant
(`PaymentRace.Invariant`) has two phases. Before the first commit no delivery has ended
and the payment has neither a row nor a credit, so every call answers as it would alone
and none fails. The first commit writes the row and ends its delivery processed. From
then on, every delivery that ends finds the row or the credit taken, at a call, at its
commit, or in the row it read, and ends a duplicate.

When the payment's row had failed before, each delivery that read it writes it back on
condition that it is still failed. A delivery that read the row before another one
committed finds it processed at its own commit: the store answers with a conflict, which
is no duplicate, so the delivery fails and its failure is recorded
(`delivery_conflicts_on_failed_row`).

## Main results

* `PaymentRace.Invariant.step` — every step keeps the invariant.
* `PaymentRace.deliveries_settle_once` — deliveries of a payment with no row: one is
  processed, the others are duplicates.
* `delivery_conflicts_on_failed_row` — deliveries of a payment whose row failed: one of
  them fails with a conflict.
-/

namespace OnrampLedger

/-! ## Endings along a schedule -/

namespace Machine

variable {n : Nat} {M : Machine n} {i : Fin n}

/-- The first ending of each thread, once the choice `c` is performed after the endings
`ended`. -/
def recordEnding (M : Machine n) (ended : Fin n → Option Ending) (c : Choice n) (j : Fin n) :
    Option Ending :=
  (ended j).or (if c.thread = j then M.ending c else none)

theorem endingOf_nil (M : Machine n) (j : Fin n) : M.endingOf [] j = none := rfl

theorem endingOf_cons (M : Machine n) (c : Choice n) (cs : List (Choice n)) (j : Fin n) :
    M.endingOf (c :: cs) j =
      (if c.thread = j then M.ending c else none).or ((M.perform c).endingOf cs j) := by
  unfold endingOf
  simp only [endings, List.find?_append]
  by_cases hj : c.thread = j
  · cases M.ending c <;> simp [hj]
  · cases M.ending c <;> simp [hj]

theorem recordEnding_of_none {ended : Fin n → Option Ending} {c : Choice n}
    (h : M.ending c = none) : M.recordEnding ended c = ended := by
  funext j
  simp [recordEnding, h]

theorem recordEnding_self {ended : Fin n → Option Ending} {e : Ending} (hnone : ended i = none)
    (he : M.ending (.step i) = some e) : M.recordEnding ended (.step i) i = some e := by
  simp [recordEnding, hnone, he, Choice.thread]

theorem recordEnding_ne {ended : Fin n → Option Ending} {j : Fin n} (hj : j ≠ i) :
    M.recordEnding ended (.step i) j = ended j := by
  simp [recordEnding, Choice.thread, Ne.symm hj]

theorem ending_of_call {c : Call} {k : c.Answer → Tx} (h : (M.threads i).phase = .running (.call c k)) :
    M.ending (.step i) = if M.blocked c || (c.result M.store (M.threads i).state).isSome then none
      else some (.failed (c.error (M.threads i).state)) := by
  simp only [ending, h]

theorem ending_of_commit (h : (M.threads i).phase = .running .commit) :
    M.ending (.step i) = some (if (M.store.commit? (M.threads i).state.writes).isSome then .committed
      else .failed (M.store.refusal (M.threads i).state.writes)) := by
  simp only [ending, h]

theorem ending_of_stopped (h : ∀ tx, (M.threads i).phase ≠ .running tx) : M.ending (.step i) = none := by
  unfold ending
  split <;> simp_all

/-- A thread giving back its locks keeps what it wrote and read. -/
theorem step_of_releasing' (h : (M.threads i).phase = .releasing) :
    ∃ th : Thread, M.step i = M.setThread i th ∧ (∀ tx, th.phase ≠ .running tx) ∧
      th.state.writes = (M.threads i).state.writes ∧ th.state.seen = (M.threads i).state.seen := by
  simp only [step, h]
  split
  · exact ⟨_, rfl, by simp, rfl, rfl⟩
  · exact ⟨_, rfl, by simp, rfl, rfl⟩

end Machine

/-! ## The race -/

/-- `n` deliveries of one verified, completed payment, each with the ids its call drew for
a new row and an entry and its time, over a store where the payment has neither a row nor
a credit, and where its user's wallet, with no debt, takes the payment's currency. -/
structure PaymentRace (n : Nat) where
  store : Store
  event : PaymentEvent
  wallet : Wallet
  rowIds : Fin n → String
  entryIds : Fin n → String
  times : Fin n → Instant
  owner : store.walletOfUser? event.userId = some wallet
  stored : store.wallet? wallet.id = some wallet
  funds : 0 ≤ wallet.balance
  currency : (event.currency == "" || Text.equalFold event.currency wallet.currency) = true
  named : event.externalId ≠ ""
  amount : normalizeAmount event.amount = .ok event.amount
  unseen : store.webhookByExternal? event.externalId = none
  unused : store.entryByKey? (Wallets.creditKey (Intake.creditFor event wallet.id)) = none

namespace PaymentRace

variable {n : Nat} (P : PaymentRace n)

/-- Delivery `i`'s transaction. -/
def tx (i : Fin n) : Tx := Tx.process P.event (P.rowIds i) (P.entryIds i) (P.times i)

/-- The machine running the deliveries, after a schedule. -/
def run (schedule : List (Choice n)) : Machine n := (Machine.start P.store P.tx).run schedule

/-- The key of the credit the payment asks for. -/
def key : String := Wallets.creditKey (Intake.creditFor P.event P.wallet.id)

/-- The row delivery `i` writes for the payment, crediting entry `credited`. -/
def row (i : Fin n) (credited : String) : WebhookEvent :=
  ⟨P.rowIds i, P.event.provider, P.event.externalId, P.event.payloadHash, .processed, 0, none,
    none, credited, P.wallet.id, "", P.times i, P.times i⟩

/-- Delivery `i` once its wallet's lookup answered, no row having been found. -/
def found (i : Fin n) : Option (String × String) → Tx
  | none => .rollback
  | some (walletId, currency) =>
    if !(P.event.currency == "" || Text.equalFold P.event.currency currency) then .rollback
    else
      Tx.creditIn (Intake.creditFor P.event walletId) (P.entryIds i) (P.times i) fun credited =>
        .call (.insertEvent ⟨P.rowIds i, P.event.provider, P.event.externalId, P.event.payloadHash,
            .processed, 0, none, none, credited, walletId, "", P.times i, P.times i⟩) fun _ =>
          Tx.completeOnRamp walletId P.event.provider P.event.amount (P.times i)

/-- Delivery `i` once its credit is made, or found made, as entry `credited`. -/
def inserting (i : Fin n) (credited : String) : Tx :=
  .call (.insertEvent (P.row i credited)) fun _ =>
    Tx.completeOnRamp P.wallet.id P.event.provider P.event.amount (P.times i)

/-- The entry delivery `i` posts on the wallet's row `w`. -/
def entry (i : Fin n) (w : Wallet) : LedgerEntry :=
  Tx.postedEntry w .deposit P.event.amount P.key P.event.externalId
    (Intake.creditFor P.event P.wallet.id).description .webhook P.event.externalId (P.entryIds i)
    (P.times i)

/-- Delivery `i` once it read the wallet's row `w` under the lock. -/
def locked (i : Fin n) (w : Wallet) : Tx :=
  .call (.entryByKey P.key) fun
    | some e => P.inserting i e.id
    | none =>
      Tx.applyEntry w .deposit P.event.amount P.key P.event.externalId
        (Intake.creditFor P.event P.wallet.id).description .webhook P.event.externalId
        (P.entryIds i) (P.times i) fun m => P.inserting i m.2.id

/-! ### The transaction, stage by stage -/

variable {P}

theorem amount_positive : 0 < P.event.amount.value := by
  have h := (normalizeAmount_eq_ok.mp P.amount).1
  rwa [Decimal.isPositive_iff] at h

theorem terms :
    Tx.creditTerms (Intake.creditFor P.event P.wallet.id) = some (.webhook, P.event.amount, .deposit) := by
  have hname : (P.event.externalId != "") = true := by simpa using P.named
  simp [Tx.creditTerms, Intake.creditFor, Source.ofName?, EntryType.ofName?, P.amount, hname,
    EntryType.isCredit]

/-- With the wallet found in the payment's currency, the credit locks the wallet. -/
theorem found_eq (i : Fin n) :
    P.found i (some (P.wallet.id, P.wallet.currency)) = Tx.lockWallet P.wallet.id (P.locked i) := by
  simp only [found, P.currency, Bool.not_true, Bool.false_eq_true, ↓reduceIte]
  unfold Tx.creditIn
  rw [terms]
  dsimp only
  unfold locked inserting row key
  -- the two lookups of the key match on it alike; the matches agree case by case
  congr 1
  funext w
  congr 1
  funext found
  cases found <;> rfl

/-- A deposit on a row with no debt leaves it with no debt. -/
theorem entry_after (i : Fin n) {w : Wallet} (hw : 0 ≤ w.balance) : 0 ≤ (P.entry i w).after := by
  rw [Decimal.le_iff_value, Decimal.value_zero] at hw ⊢
  simp only [entry, Tx.postedEntry, EntryType.applyTo, EntryType.isCredit, ↓reduceIte,
    Decimal.value_add]
  linarith [amount_positive (P := P)]

/-- The posting on a row with no debt is never refused for its balance. -/
theorem applyEntry_eq (i : Fin n) {w : Wallet} (hw : 0 ≤ w.balance) :
    Tx.applyEntry w .deposit P.event.amount P.key P.event.externalId
        (Intake.creditFor P.event P.wallet.id).description .webhook P.event.externalId
        (P.entryIds i) (P.times i) (fun m => P.inserting i m.2.id) =
      .call (.post (P.entry i w)) fun _ => P.inserting i (P.entryIds i) := by
  have hafter : ¬ (P.entry i w).after < 0 := by
    have h := entry_after (P := P) i hw
    rw [Decimal.le_iff_value, Decimal.value_zero] at h
    rw [Decimal.lt_iff_value, Decimal.value_zero]
    exact not_lt.mpr h
  simp only [Tx.applyEntry]
  exact if_neg hafter

/-- The first call looks the payment's row up: with none found the delivery goes on to
the user's wallet, and with the row found processed it commits with nothing written. -/
theorem tx_eq (i : Fin n) : ∃ k, P.tx i = .call (.eventByExternal P.event.externalId) k ∧
    k none = .call (.walletOfUser P.event.userId) (P.found i) ∧
    ∀ p : WebhookEvent, p.status = .processed → k (some p) = .commit := by
  refine ⟨_, rfl, ?_, fun p hp => by simp [hp]⟩
  simp only [Option.any_none, Bool.false_eq_true, ↓reduceIte]
  congr 1
  funext answer
  rcases answer with _ | ⟨walletId, currency⟩
  · rfl
  · rfl

/-! ### Where a delivery stands -/

variable (P)

/-- A delivery's state once it found no row for the payment. -/
def readState : TxState := (Call.eventByExternal P.event.externalId).next TxState.empty none

/-- ... and found the user's wallet. -/
def userState : TxState :=
  (Call.walletOfUser P.event.userId).next P.readState (some (P.wallet.id, P.wallet.currency))

/-- ... and found the wallet there to lock. -/
def presentState : TxState := (Call.present P.wallet.id).next P.userState ()

/-- ... and took its lock. -/
def heldState : TxState := (Call.acquire P.wallet.id).next P.presentState ()

/-- ... and read its row `w` under the lock. -/
def lockedState (w : Wallet) : TxState := (Call.readRow P.wallet.id).next P.heldState w

/-- ... and found the credit's key free. -/
def freeState (w : Wallet) : TxState := (Call.entryByKey P.key).next (P.lockedState w) none

/-- A delivery's state once it found the payment's row `p`. -/
def repeatState (p : WebhookEvent) : TxState :=
  (Call.eventByExternal P.event.externalId).next TxState.empty (some p)

/-- The writes of a delivery's credit: none, when it found the credit made; or the
wallet's new balance, with no debt, and the entry under the credit's key. -/
def Credited (ws : List Write) : Prop :=
  ws = [] ∨ ∃ b t e, 0 ≤ b ∧ e.key = P.key ∧ ws = [.balance P.wallet.id b t, .entry e]

/-- The writes of delivery `i` once it staged its row, crediting some entry. -/
def Inserted (i : Fin n) (ws : List Write) : Prop :=
  ∃ W c, P.Credited W ∧ ws = W ++ [.insertEvent (P.row i c)]

/-- The writes of delivery `i` at its commit: its credit, its row, and the completion of a
purchase the store had, if it found one. -/
def Committing (i : Fin n) (ws : List Write) : Prop :=
  ∃ W O, P.Inserted i W ∧ (O = [] ∨ ∃ o, (P.store.onRamp? o.id).isSome ∧ O = [.updateOnRamp o]) ∧
    ws = W ++ O

/-- Where delivery `i` stands in its transaction, with its state, having found no row for
the payment. -/
inductive Stage (i : Fin n) : Tx → TxState → Prop
  /-- About to look the payment's row up. -/
  | start : Stage i (P.tx i) TxState.empty
  /-- About to look the user's wallet up. -/
  | user : Stage i (.call (.walletOfUser P.event.userId) (P.found i)) P.readState
  /-- About to credit the wallet. -/
  | credit : Stage i (P.found i (some (P.wallet.id, P.wallet.currency))) P.userState
  /-- About to find the wallet to lock. -/
  | fresh : Stage i (Tx.lockFresh P.wallet.id (P.locked i)) P.userState
  /-- Waiting for the lock. -/
  | acquire :
      Stage i (.call (.acquire P.wallet.id) fun _ => .call (.readRow P.wallet.id) (P.locked i))
        P.presentState
  /-- About to read the row under the lock. -/
  | read : Stage i (.call (.readRow P.wallet.id) (P.locked i)) P.heldState
  /-- About to look the credit's key up, having read the row `w`. -/
  | locked {w : Wallet} : w.id = P.wallet.id → 0 ≤ w.balance →
      Stage i (P.locked i w) (P.lockedState w)
  /-- About to post the entry, the key found free. -/
  | post {w : Wallet} : w.id = P.wallet.id → 0 ≤ w.balance →
      Stage i (.call (.post (P.entry i w)) fun _ => P.inserting i (P.entryIds i)) (P.freeState w)
  /-- About to stage the payment's row, the credit made or found. -/
  | inserting {c : String} {t : TxState} : P.Credited t.writes → Stage i (P.inserting i c) t
  /-- About to look for the purchase to complete. -/
  | completing {t : TxState} : P.Inserted i t.writes →
      Stage i (Tx.completeOnRamp P.wallet.id P.event.provider P.event.amount (P.times i)) t
  /-- About to mark the purchase `o` completed. -/
  | marking {o : OnRamp} {t : TxState} : (P.store.onRamp? o.id).isSome → P.Inserted i t.writes →
      Stage i (.call (.stage (.updateOnRamp { o with completedAt := some (P.times i) })) fun _ => .commit) t
  /-- About to commit. -/
  | commit {t : TxState} : P.Committing i t.writes → Stage i .commit t

/-- A thread about to commit with nothing written, having found the payment's row
processed. -/
def Repeating (th : Thread) : Prop :=
  ∃ p, p.status = .processed ∧ th.phase = .running .commit ∧ th.state = P.repeatState p

/-- The payment's row is there, processed. -/
def Claimed (s : Store) : Prop :=
  ∃ r, s.webhookByExternal? P.event.externalId = some r ∧ r.status = .processed

/-- Before the first commit: the payment has neither a row nor a credit, and no delivery
has ended. -/
def Unclaimed (s : Store) (ended : Fin n → Option Ending) : Prop :=
  s.webhookByExternal? P.event.externalId = none ∧ s.entryByKey? P.key = none ∧ ∀ i, ended i = none

variable {P} in
/-- Delivery `i` ended, as `ended` records, processed. -/
def Processed (M : Machine n) (ended : Fin n → Option Ending) (i : Fin n) : Prop :=
  ∃ e, ended i = some e ∧ Intake.delivery (M.threads i).state e = .processed

/-- What the race keeps at every point, with `ended` the first ending of each delivery so
far: the wallet stays the user's, with no debt; the purchases stay; either nothing is
claimed yet, or the row is processed and exactly one delivery ended processed; a delivery
that has not ended is at one of its stages, or about to commit having found the row; and
one that ended answered processed or duplicate and runs no more. -/
structure Invariant (M : Machine n) (ended : Fin n → Option Ending) : Prop where
  wallet : ∃ w, M.store.wallet? P.wallet.id = some w ∧ 0 ≤ w.balance
  owner : (M.store.walletOfUser? P.event.userId).map (fun w => (w.id, w.currency)) =
    some (P.wallet.id, P.wallet.currency)
  onRamps : M.store.onRamps.map (·.id) = P.store.onRamps.map (·.id)
  claim : P.Unclaimed M.store ended ∨
    (P.Claimed M.store ∧ ∃ i, Processed M ended i ∧ ∀ j, Processed M ended j → j = i)
  running : ∀ i, ended i = none →
    (∃ tx, (M.threads i).phase = .running tx ∧ P.Stage i tx (M.threads i).state) ∨
      (P.Claimed M.store ∧ P.Repeating (M.threads i))
  ended : ∀ i e, ended i = some e →
    (Intake.delivery (M.threads i).state e = .processed ∨
        Intake.delivery (M.threads i).state e = .duplicate) ∧
      ∀ tx, (M.threads i).phase = .running tx → tx = .rollback

/-! ### A delivery's commit -/

section Commit

variable {P} {i : Fin n} {s : Store} {ws : List Write}

theorem Credited.check {W : List Write} (hW : P.Credited W) (hkey : s.entryByKey? P.key = none) :
    ∀ w ∈ W, w.check s = true := by
  rcases hW with rfl | ⟨b, t, e, -, he, rfl⟩
  · simp
  · simp [Write.check, he, hkey]

/-- **The first commit passes**: with neither a row nor a credit for the payment, and the
store's purchases, every check of a delivery's commit passes. -/
theorem Committing.commit? (hws : P.Committing i ws)
    (hrow : s.webhookByExternal? P.event.externalId = none) (hkey : s.entryByKey? P.key = none)
    (hids : s.onRamps.map (·.id) = P.store.onRamps.map (·.id)) :
    s.commit? ws = some (ws.foldl Write.apply s) := by
  obtain ⟨_, O, ⟨W, c, hW, rfl⟩, hO, rfl⟩ := hws
  have hchecks : ∀ w ∈ W ++ [.insertEvent (P.row i c)] ++ O, w.check s = true := by
    intro w hw
    simp only [List.mem_append, List.mem_singleton] at hw
    rcases hw with (hw | rfl) | hw
    · exact hW.check hkey w hw
    · simp [Write.check, row, hrow]
    · rcases hO with rfl | ⟨o, ho, rfl⟩
      · simp at hw
      · rw [List.mem_singleton.mp hw]
        simpa [Write.check, Store.onRamp?_isSome_of_ids hids] using ho
  unfold Store.commit?
  rw [if_pos (List.all_eq_true.mpr hchecks)]

/-- **Every later commit is refused as a duplicate**: once the payment's row is there,
the row a delivery stages fails its check, and the first check to fail is that of the
row or of the credit's entry. -/
theorem Committing.refused (hws : P.Committing i ws) (hclaimed : P.Claimed s) :
    s.commit? ws = none ∧ s.refusal ws = .duplicate := by
  obtain ⟨_, O, ⟨W, c, hW, rfl⟩, -, rfl⟩ := hws
  obtain ⟨r, hr, -⟩ := hclaimed
  have hrow : (Write.insertEvent (P.row i c)).check s = false := by simp [Write.check, row, hr]
  constructor
  · have hnot : ¬ ∀ w ∈ W ++ [.insertEvent (P.row i c)] ++ O, w.check s = true :=
      fun hall => absurd (hall (.insertEvent (P.row i c)) (by simp)) (by rw [hrow]; decide)
    unfold Store.commit?
    rw [if_neg (by rwa [List.all_eq_true])]
  · have hfirst : (Write.insertEvent (P.row i c) :: O).find? (fun w => !w.check s) =
        some (.insertEvent (P.row i c)) :=
      List.find?_cons_of_pos (by rw [hrow]; rfl)
    unfold Store.refusal
    rw [List.append_assoc, List.singleton_append, List.find?_append, hfirst]
    -- the credit's writes come first: its balance never fails, its entry only on the key
    rcases hW with rfl | ⟨b, t, e, -, -, rfl⟩
    · rfl
    · cases hk : (s.entryByKey? e.key).isNone <;> simp [Write.check, hk, Write.refusal]

/-- The first commit writes the payment's row, processed. -/
theorem Committing.claimed (hws : P.Committing i ws)
    (hrow : s.webhookByExternal? P.event.externalId = none) :
    P.Claimed (ws.foldl Write.apply s) := by
  obtain ⟨_, O, ⟨W, c, hW, rfl⟩, hO, rfl⟩ := hws
  refine ⟨P.row i c, ?_, rfl⟩
  have hnone : s.webhooks.find? (·.externalId == P.event.externalId) = none := hrow
  have hfilter : (W ++ [Write.insertEvent (P.row i c)] ++ O).filter Write.touchesEvents =
      [.insertEvent (P.row i c)] := by
    rcases hW with rfl | ⟨b, t, e, -, -, rfl⟩ <;> rcases hO with rfl | ⟨o, -, rfl⟩ <;> rfl
  simp only [Store.webhookByExternal?, Store.foldl_webhooks, hfilter, List.foldl_cons,
    List.foldl_nil, Write.events, List.find?_append, hnone, Option.none_or]
  simp [row]

/-- A delivery's commit leaves the wallet with no debt. -/
theorem Committing.wallet (hws : P.Committing i ws) {w : Wallet}
    (hw : s.wallet? P.wallet.id = some w) (hbal : 0 ≤ w.balance) :
    ∃ w', (ws.foldl Write.apply s).wallet? P.wallet.id = some w' ∧ 0 ≤ w'.balance := by
  obtain ⟨_, O, ⟨W, c, hW, rfl⟩, hO, rfl⟩ := hws
  -- the row and the purchase name no wallet
  have hrest : ∀ x ∈ (Write.insertEvent (P.row i c) :: O), x.wallet ≠ some P.wallet.id := by
    intro x hx
    rcases hO with rfl | ⟨o, -, rfl⟩ <;> simp at hx <;> rcases hx with rfl | rfl <;>
      simp [Write.wallet]
  rw [List.append_assoc, List.foldl_append, List.singleton_append,
    Store.foldl_wallet?_of_ne hrest]
  rcases hW with rfl | ⟨b, t, e, hb, -, rfl⟩
  · exact ⟨w, hw, hbal⟩
  · exact ⟨_, Write.wallet?_apply_balance hw b t, hb⟩

end Commit

/-! ### One step -/

section Steps

variable {P} {M : Machine n} {ended : Fin n → Option Ending} {i : Fin n}

theorem delivery_congr {t t' : TxState} (hw : t.writes = t'.writes) (hs : t.seen = t'.seen)
    (e : Ending) : Intake.delivery t e = Intake.delivery t' e := by
  simp only [Intake.delivery, hw, hs]

/-- **A step that keeps the store and ends at most thread `i`**: the other threads stay,
thread `i` keeps whether it ended processed, and a new ending needs the row there. -/
theorem Invariant.keep (h : P.Invariant M ended) {M' : Machine n} {ended' : Fin n → Option Ending}
    (hstore : M'.store = M.store) (hthreads : ∀ j, j ≠ i → M'.threads j = M.threads j)
    (hended : ∀ j, j ≠ i → ended' j = ended j)
    (hproc : Processed M' ended' i ↔ Processed M ended i)
    (hnew : ended' i ≠ ended i → P.Claimed M.store)
    (hrun : ended' i = none →
      (∃ tx, (M'.threads i).phase = .running tx ∧ P.Stage i tx (M'.threads i).state) ∨
        (P.Claimed M.store ∧ P.Repeating (M'.threads i)))
    (hend : ∀ e, ended' i = some e →
      (Intake.delivery (M'.threads i).state e = .processed ∨
          Intake.delivery (M'.threads i).state e = .duplicate) ∧
        ∀ tx, (M'.threads i).phase = .running tx → tx = .rollback) :
    P.Invariant M' ended' := by
  have hpj : ∀ j, Processed M' ended' j ↔ Processed M ended j := by
    intro j
    by_cases hji : j = i
    · subst hji
      exact hproc
    · simp only [Processed, hended j hji, hthreads j hji]
  refine ⟨hstore ▸ h.wallet, hstore ▸ h.owner, hstore ▸ h.onRamps, ?_, ?_, ?_⟩
  · rcases h.claim with ⟨hrow, hkey, hall⟩ | ⟨hc, k, hk, huniq⟩
    · by_cases hei : ended' i = ended i
      · refine .inl ⟨hstore ▸ hrow, hstore ▸ hkey, fun j => ?_⟩
        by_cases hji : j = i
        · rw [hji, hei, hall]
        · rw [hended j hji, hall]
      · -- an ending needs the row, which is not there yet
        obtain ⟨r, hr, -⟩ := hnew hei
        rw [hrow] at hr
        cases hr
    · exact .inr ⟨hstore ▸ hc, k, (hpj k).mpr hk, fun j hj => huniq j ((hpj j).mp hj)⟩
  · intro j hj
    by_cases hji : j = i
    · subst hji
      simpa only [hstore] using hrun hj
    · rw [hthreads j hji, hstore]
      exact h.running j (by rwa [← hended j hji])
  · intro j e hj
    by_cases hji : j = i
    · subst hji
      exact hend e hj
    · rw [hthreads j hji]
      exact h.ended j e (by rwa [← hended j hji])

theorem delivery_repeat {p : WebhookEvent} (hp : p.status = .processed) :
    Intake.delivery (P.repeatState p) .committed = .duplicate := by
  simp [Intake.delivery, repeatState, Call.next, TxState.empty, hp]

/-- A call answered from a stage that leads to a stage, or to the commit of a row found
processed: the store stays, and no delivery ends. -/
theorem Invariant.answer (h : P.Invariant M ended) {c : Call} {k : c.Answer → Tx} {a : c.Answer}
    (hph : (M.threads i).phase = .running (.call c k)) (hnone : ended i = none)
    (hr : c.result M.store (M.threads i).state = some a)
    (hnext : P.Stage i (k a) (c.next (M.threads i).state a) ∨
      (P.Claimed M.store ∧ k a = .commit ∧
        ∃ p, p.status = .processed ∧ c.next (M.threads i).state a = P.repeatState p)) :
    P.Invariant (M.step i) (M.recordEnding ended (.step i)) := by
  have hending : M.ending (.step i) = none := by
    rw [Machine.ending_of_call hph, hr]
    simp
  rw [Machine.recordEnding_of_none hending, Machine.step_of_call hph]
  split
  · exact h
  · rw [Machine.answer_of_some hr]
    refine h.keep (i := i) rfl (fun j hj => by simp [Machine.setThread_threads, hj]) (fun _ _ => rfl)
      (by simp [Processed, hnone]) (fun hne => absurd rfl hne) (fun _ => ?_)
      (fun e he => by rw [hnone] at he; cases he)
    simp only [Machine.setThread_threads, ↓reduceIte]
    rcases hnext with hst | ⟨hc, hk, p, hp, hs⟩
    · exact .inl ⟨_, rfl, hst⟩
    · exact .inr ⟨hc, p, hp, by rw [hk], hs⟩

/-- **A delivery ends a duplicate** at a step that keeps the store and every other thread,
with the row already there: its ending is the only change the invariant sees. -/
theorem Invariant.endDuplicate (h : P.Invariant M ended) (hnone : ended i = none)
    (hclaimed : P.Claimed M.store) {e : Ending} {th : Thread}
    (hending : M.ending (.step i) = some e) (hstore : (M.step i).store = M.store)
    (hthreads : ∀ j, (M.step i).threads j = if j = i then th else M.threads j)
    (hdup : Intake.delivery th.state e = .duplicate)
    (hrb : ∀ tx, th.phase = .running tx → tx = .rollback) :
    P.Invariant (M.step i) (M.recordEnding ended (.step i)) := by
  have hself := Machine.recordEnding_self hnone hending
  have hi : (M.step i).threads i = th := by simp [hthreads]
  refine h.keep (i := i) hstore (fun j hj => by simp [hthreads, hj])
    (fun j hj => Machine.recordEnding_ne hj) ?_ (fun _ => hclaimed)
    (fun he => by rw [hself] at he; cases he) ?_
  · simp [Processed, hself, hnone, hi, hdup]
  · intro e' he'
    rw [hself] at he'
    cases he'
    rw [hi]
    exact ⟨.inr hdup, hrb⟩

/-- A call that fails on the row or the credit's key being taken: the delivery ends a
duplicate, which needs the row there. -/
theorem Invariant.fail (h : P.Invariant M ended) {c : Call} {k : c.Answer → Tx}
    (hph : (M.threads i).phase = .running (.call c k)) (hnone : ended i = none)
    (hr : c.result M.store (M.threads i).state = none) (hblocked : M.blocked c = false)
    (herr : c.error (M.threads i).state = .duplicate) (hclaimed : P.Claimed M.store) :
    P.Invariant (M.step i) (M.recordEnding ended (.step i)) := by
  have hending : M.ending (.step i) = some (.failed .duplicate) := by
    rw [Machine.ending_of_call hph, hr, hblocked, herr]
    rfl
  have hstep : M.step i = M.setThread i { M.threads i with phase := .running .rollback } := by
    rw [Machine.step_of_call hph, if_neg (by simp [hblocked]), Machine.answer_of_none hr]
  exact h.endDuplicate hnone hclaimed hending (by rw [hstep]; rfl) (fun _ => by rw [hstep]; rfl)
    (by simp [Intake.delivery]) (by simp)

/-- A commit refused as a duplicate, once the row is there. -/
theorem Invariant.refused (h : P.Invariant M ended) (hph : (M.threads i).phase = .running .commit)
    (hnone : ended i = none) (hc : M.store.commit? (M.threads i).state.writes = none)
    (hdup : M.store.refusal (M.threads i).state.writes = .duplicate) (hclaimed : P.Claimed M.store) :
    P.Invariant (M.step i) (M.recordEnding ended (.step i)) := by
  have hending : M.ending (.step i) = some (.failed .duplicate) := by
    rw [Machine.ending_of_commit hph, hc, hdup]
    rfl
  have hstep : M.step i = M.setThread i { M.threads i with phase := .releasing } := by
    simp only [Machine.step, hph, hc]
  exact h.endDuplicate hnone hclaimed hending (by rw [hstep]; rfl) (fun _ => by rw [hstep]; rfl)
    (by simp [Intake.delivery]) (by simp)

/-- The commit of a delivery that found the row processed: nothing is written, and it
answers a duplicate. -/
theorem Invariant.repeated (h : P.Invariant M ended) (hnone : ended i = none)
    (hclaimed : P.Claimed M.store) (hrep : P.Repeating (M.threads i)) :
    P.Invariant (M.step i) (M.recordEnding ended (.step i)) := by
  obtain ⟨p, hp, hph, hst⟩ := hrep
  have hc : M.store.commit? (M.threads i).state.writes = some M.store := by
    rw [hst]
    rfl
  have hending : M.ending (.step i) = some .committed := by
    rw [Machine.ending_of_commit hph, hc]
    rfl
  have hstep := Machine.step_of_commit hph hc
  exact h.endDuplicate hnone hclaimed hending (by rw [hstep]; rfl) (fun _ => by rw [hstep]; rfl)
    (by simp [hst, delivery_repeat hp]) (by simp)

/-- The rollback after a failed call: the delivery has ended already. -/
theorem Invariant.rolledBack (h : P.Invariant M ended) {e : Ending}
    (hph : (M.threads i).phase = .running .rollback) (hend : ended i = some e) :
    P.Invariant (M.step i) (M.recordEnding ended (.step i)) := by
  have hkeep : M.recordEnding ended (.step i) = ended := by
    funext j
    by_cases hji : j = i
    · subst hji
      simp [Machine.recordEnding, hend]
    · exact Machine.recordEnding_ne hji
  rw [hkeep, Machine.step_of_rollback hph]
  refine h.keep (i := i) rfl (fun j hj => by simp [Machine.setThread_threads, hj]) (fun _ _ => rfl)
    (by simp [Processed, Machine.setThread_threads]) (fun hne => absurd rfl hne)
    (fun hn => by rw [hend] at hn; cases hn) ?_
  intro e' he'
  simpa [Machine.setThread_threads] using (h.ended i e' he').1

/-- A delivery giving back its lock keeps what it answered. -/
theorem Invariant.releasing (h : P.Invariant M ended) (hph : (M.threads i).phase = .releasing) :
    P.Invariant (M.step i) (M.recordEnding ended (.step i)) := by
  obtain ⟨th, hstep, hstop, hw, hs⟩ := Machine.step_of_releasing' hph
  have hending : M.ending (.step i) = none := Machine.ending_of_stopped (by simp [hph])
  -- a delivery no longer running has ended
  obtain ⟨e, hend⟩ : ∃ e, ended i = some e := by
    cases hn : ended i with
    | some e => exact ⟨e, rfl⟩
    | none =>
      rcases h.running i hn with ⟨tx, hrun, -⟩ | ⟨-, p, -, hrun, -⟩ <;> rw [hph] at hrun <;> cases hrun
  have hdel : ∀ e, Intake.delivery th.state e = Intake.delivery (M.threads i).state e :=
    delivery_congr hw hs
  rw [Machine.recordEnding_of_none hending, hstep]
  refine h.keep (i := i) rfl (fun j hj => by simp [Machine.setThread_threads, hj]) (fun _ _ => rfl)
    (by simp [Processed, Machine.setThread_threads, hdel]) (fun hne => absurd rfl hne)
    (fun hn => by rw [hend] at hn; cases hn) ?_
  intro e' he'
  simp only [Machine.setThread_threads, ↓reduceIte, hdel]
  exact ⟨(h.ended i e' he').1, fun tx htx => absurd htx (hstop tx)⟩

/-- **The first commit claims the payment**: with neither a row nor a credit yet, the
delivery's commit passes, writes the row processed, and ends the delivery processed, the
first and only one to end. -/
theorem Invariant.claimFirst (h : P.Invariant M ended) (hph : (M.threads i).phase = .running .commit)
    (hws : P.Committing i (M.threads i).state.writes) (hfree : P.Unclaimed M.store ended) :
    P.Invariant (M.step i) (M.recordEnding ended (.step i)) := by
  obtain ⟨hrow, hkey, hall⟩ := hfree
  have hc := hws.commit? hrow hkey h.onRamps
  have hending : M.ending (.step i) = some .committed := by
    rw [Machine.ending_of_commit hph, hc]
    rfl
  have hself := Machine.recordEnding_self (hall i) hending
  have hprocessed : Intake.delivery (M.threads i).state .committed = .processed := by
    obtain ⟨_, O, ⟨W, c, -, rfl⟩, -, hws'⟩ := hws
    simp [Intake.delivery, hws']
  obtain ⟨w, hw, hbal⟩ := h.wallet
  rw [Machine.step_of_commit hph hc]
  refine ⟨hws.wallet hw hbal, ?_, ?_, .inr ⟨hws.claimed hrow, i, ?_, ?_⟩, ?_, ?_⟩
  · simpa [Store.walletOfUser?_foldl] using h.owner
  · simpa [Store.foldl_onRampIds] using h.onRamps
  · exact ⟨.committed, hself, by simpa [Machine.setThread_threads] using hprocessed⟩
  · -- every other delivery is still running
    rintro j ⟨e, hj, -⟩
    by_contra hji
    rw [Machine.recordEnding_ne hji, hall] at hj
    cases hj
  · intro j hj
    have hji : j ≠ i := by
      rintro rfl
      rw [hself] at hj
      cases hj
    rw [Machine.recordEnding_ne hji] at hj
    simp only [Machine.setThread_threads, if_neg hji]
    rcases h.running j hj with hst | ⟨⟨r, hr, -⟩, -⟩
    · exact .inl hst
    · rw [hrow] at hr
      cases hr
  · intro j e hj
    by_cases hji : j = i
    · subst hji
      rw [hself] at hj
      cases hj
      simp [Machine.setThread_threads, hprocessed]
    · rw [Machine.recordEnding_ne hji, hall] at hj
      cases hj

/-- **A delivery at one of its stages moves on**: each call answers from the store as
the invariant has it, leading to the next stage; before the first commit no call fails,
and after it the calls that fail find the row or the key taken. -/
theorem Invariant.stage (h : P.Invariant M ended) {tx : Tx}
    (hph : (M.threads i).phase = .running tx) (hnone : ended i = none)
    (hst : P.Stage i tx (M.threads i).state) :
    P.Invariant (M.step i) (M.recordEnding ended (.step i)) := by
  generalize ht : (M.threads i).state = t at hst
  cases hst with
  | start =>
    obtain ⟨k, hk, hkn, hks⟩ := P.tx_eq i
    rw [hk] at hph
    have hr : (Call.eventByExternal P.event.externalId).result M.store (M.threads i).state =
        some (M.store.webhookByExternal? P.event.externalId) := by
      rw [ht]
      rfl
    -- no row: on to the wallet; the row processed: a repeat
    rcases h.claim with ⟨hrow, -, -⟩ | ⟨⟨r, hr', hst⟩, -⟩
    · rw [hrow] at hr
      refine h.answer hph hnone hr (.inl ?_)
      rw [hkn, ht]
      exact .user
    · rw [hr'] at hr
      exact h.answer hph hnone hr (.inr ⟨⟨r, hr', hst⟩, hks r hst, r, hst, by rw [ht]; rfl⟩)
  | user =>
    have hr : (Call.walletOfUser P.event.userId).result M.store (M.threads i).state =
        some (some (P.wallet.id, P.wallet.currency)) := by
      rw [← h.owner]
      rfl
    exact h.answer hph hnone hr (.inl (by rw [ht]; exact .credit))
  | credit =>
    rw [P.found_eq] at hph
    unfold Tx.lockWallet at hph
    exact h.answer hph hnone (by rw [ht]; rfl) (.inl (by rw [ht]; exact .fresh))
  | fresh =>
    unfold Tx.lockFresh at hph
    obtain ⟨w, hw, -⟩ := h.wallet
    have hr : (Call.present P.wallet.id).result M.store (M.threads i).state = some () := by
      simp [Call.result, hw]
    exact h.answer hph hnone hr (.inl (by rw [ht]; exact .acquire))
  | acquire => exact h.answer hph hnone rfl (.inl (by rw [ht]; exact .read))
  | read =>
    obtain ⟨w, hw, hbal⟩ := h.wallet
    exact h.answer hph hnone hw (.inl (by rw [ht]; exact .locked (Store.id_of_wallet? hw) hbal))
  | locked hid hbal =>
    rename_i w
    unfold locked at hph
    have hr : (Call.entryByKey P.key).result M.store (M.threads i).state =
        some (M.store.entryByKey? P.key) := by
      rw [ht]
      rfl
    cases hk : M.store.entryByKey? P.key with
    | some e =>
      rw [hk] at hr
      exact h.answer hph hnone hr (.inl (by rw [ht]; exact .inserting (.inl rfl)))
    | none =>
      rw [hk] at hr
      refine h.answer hph hnone hr (.inl ?_)
      dsimp only
      rw [P.applyEntry_eq i hbal, ht]
      exact .post hid hbal
  | post hid hbal =>
    rename_i w
    have hcache : ((P.freeState w).cache.find? (·.id == (P.entry i w).wallet)).isSome := by
      simp [freeState, lockedState, heldState, presentState, userState, readState, Call.next,
        TxState.empty, entry, Tx.postedEntry, hid]
    cases hr : (Call.post (P.entry i w)).result M.store (M.threads i).state with
    | some u =>
      refine h.answer hph hnone hr (.inl ?_)
      rw [ht]
      refine .inserting (.inr ⟨_, (P.entry i w).createdAt, P.entry i w, P.entry_after i hbal, rfl, ?_⟩)
      simp [freeState, lockedState, heldState, presentState, userState, readState, Call.next,
        TxState.empty, entry, Tx.postedEntry, hid]
    | none =>
      -- before the first commit the key is free, and the post answers
      have hclaimed : P.Claimed M.store := by
        rcases h.claim with ⟨-, hkey, -⟩ | ⟨hc, -⟩
        · rw [ht] at hr
          simp [Call.result, hkey, entry, Tx.postedEntry, freeState, lockedState,
            heldState, presentState, userState, readState, Call.next, TxState.empty] at hr
        · exact hc
      exact h.fail hph hnone hr rfl (by rw [ht]; simp [Call.error, hcache]) hclaimed
  | inserting hW =>
    rename_i c
    unfold inserting at hph
    rcases h.claim with ⟨hrow, -, -⟩ | ⟨⟨r, hr', hst⟩, -⟩
    · have hr : (Call.insertEvent (P.row i c)).result M.store (M.threads i).state = some () := by
        simp [Call.result, row, hrow]
      exact h.answer hph hnone hr (.inl (by rw [ht]; exact .completing ⟨t.writes, c, hW, rfl⟩))
    · have hr : (Call.insertEvent (P.row i c)).result M.store (M.threads i).state = none := by
        simp [Call.result, row, hr']
      exact h.fail hph hnone hr rfl rfl ⟨r, hr', hst⟩
  | completing hI =>
    unfold Tx.completeOnRamp at hph
    have hr : (Call.pendingOnRamp P.wallet.id P.event.provider P.event.amount).result M.store
        (M.threads i).state =
        some (M.store.pendingOnRamp? P.wallet.id P.event.provider P.event.amount) := rfl
    cases ho : M.store.pendingOnRamp? P.wallet.id P.event.provider P.event.amount with
    | none =>
      rw [ho] at hr
      exact h.answer hph hnone hr
        (.inl (by rw [ht]; exact .commit ⟨t.writes, [], hI, .inl rfl, by simp [Call.next]⟩))
    | some o =>
      rw [ho] at hr
      have hfound : (P.store.onRamp? o.id).isSome := by
        rw [← Store.onRamp?_isSome_of_ids h.onRamps]
        exact Tx.onRamp?_isSome_of_pending _ _ _ _ o ho
      exact h.answer hph hnone hr (.inl (by rw [ht]; exact .marking hfound hI))
  | marking ho hI =>
    rename_i o
    exact h.answer hph hnone rfl (.inl (by
      rw [ht]
      exact .commit ⟨t.writes, _, hI, .inr ⟨{ o with completedAt := some (P.times i) }, ho, rfl⟩, rfl⟩))
  | commit hC =>
    have hws : P.Committing i (M.threads i).state.writes := by
      rw [ht]
      exact hC
    rcases h.claim with hfree | ⟨hc, -⟩
    · exact h.claimFirst hph hws hfree
    · obtain ⟨hno, hdup⟩ := hws.refused hc
      exact h.refused hph hnone hno hdup hc

/-- **Every step keeps the invariant**, recording the endings it makes. -/
theorem Invariant.step (h : P.Invariant M ended) (i : Fin n) :
    P.Invariant (M.step i) (M.recordEnding ended (.step i)) := by
  cases hph : (M.threads i).phase with
  | finished =>
    rw [Machine.recordEnding_of_none (Machine.ending_of_stopped (by simp [hph])),
      Machine.step_of_finished hph]
    exact h
  | releasing => exact h.releasing hph
  | running tx =>
    cases hend : ended i with
    | some e =>
      obtain rfl := (h.ended i e hend).2 tx hph
      exact h.rolledBack hph hend
    | none =>
      rcases h.running i hend with ⟨tx', hph', hst⟩ | ⟨hclaimed, hrep⟩
      · rw [hph] at hph'
        cases hph'
        exact h.stage hph hend hst
      · exact h.repeated hend hclaimed hrep

end Steps

/-! ## Every schedule -/

section Runs

variable {P} {M : Machine n} {ended : Fin n → Option Ending}

/-- Steps alone, with no lock wait cut short, keep the invariant, recording every
delivery's first ending. -/
theorem Invariant.run (h : P.Invariant M ended) {schedule : List (Choice n)}
    (hsteps : ∀ c ∈ schedule, ∃ i, c = .step i) :
    P.Invariant (M.run schedule) fun j => (ended j).or (M.endingOf schedule j) := by
  induction schedule generalizing M ended with
  | nil => simpa [Machine.endingOf_nil] using h
  | cons c rest ih =>
    obtain ⟨i, rfl⟩ := hsteps c List.mem_cons_self
    have hrest := ih (h.step i) fun c hc => hsteps c (List.mem_cons_of_mem _ hc)
    have hended : (fun j => (ended j).or (M.endingOf (.step i :: rest) j)) =
        fun j => (M.recordEnding ended (.step i) j).or ((M.step i).endingOf rest j) := by
      funext j
      rw [Machine.endingOf_cons, Machine.recordEnding, Option.or_assoc]
      rfl
    rw [Machine.run_cons, hended]
    exact hrest

variable (P) in
theorem Invariant.start : P.Invariant (Machine.start P.store P.tx) fun _ => none where
  wallet := ⟨P.wallet, P.stored, P.funds⟩
  owner := by simp [Machine.start, P.owner]
  onRamps := rfl
  claim := .inl ⟨P.unseen, P.unused, fun _ => rfl⟩
  running := fun i _ => .inl ⟨P.tx i, rfl, .start⟩
  ended := fun _ _ h => by cases h

end Runs

/-- **Deliveries of a payment with no row settle it once.** Under every schedule of `n`
deliveries of one verified, completed payment that has neither a row nor a credit, with
the user's wallet in its currency and with no debt, and with no lock wait cut short: once
every delivery has finished, exactly one answered processed and every other answered a
duplicate, none of them with an error or a failure recorded. -/
theorem deliveries_settle_once (P : PaymentRace n) (hn : 0 < n) {schedule : List (Choice n)}
    (hsteps : ∀ c ∈ schedule, ∃ i, c = .step i)
    (hdone : ∀ i, ((P.run schedule).threads i).phase = .finished) :
    ∃ i, Intake.deliveryOf (Machine.start P.store P.tx) schedule i = some .processed ∧
      ∀ j, j ≠ i → Intake.deliveryOf (Machine.start P.store P.tx) schedule j = some .duplicate := by
  have h : P.Invariant (P.run schedule)
      fun j => (none : Option Ending).or ((Machine.start P.store P.tx).endingOf schedule j) :=
    (Invariant.start P).run hsteps
  simp only [Option.none_or] at h
  -- every delivery has ended, since none runs any more
  have hended : ∀ j, ∃ e, (Machine.start P.store P.tx).endingOf schedule j = some e := by
    intro j
    cases hj : (Machine.start P.store P.tx).endingOf schedule j with
    | some e => exact ⟨e, rfl⟩
    | none =>
      rcases h.running j hj with ⟨tx, hph, -⟩ | ⟨-, p, -, hph, -⟩ <;> rw [hdone j] at hph <;>
        cases hph
  rcases h.claim with ⟨-, -, hall⟩ | ⟨-, i, ⟨e, hi, hproc⟩, huniq⟩
  · obtain ⟨e, he⟩ := hended ⟨0, hn⟩
    have hnone : (Machine.start P.store P.tx).endingOf schedule ⟨0, hn⟩ = none := hall ⟨0, hn⟩
    rw [hnone] at he
    cases he
  · refine ⟨i, ?_, fun j hji => ?_⟩
    · simp only [Intake.deliveryOf, hi, Option.map_some]
      exact congrArg some hproc
    · obtain ⟨e', hj⟩ := hended j
      rcases (h.ended j e' hj).1 with hp | hd
      · exact absurd (huniq j ⟨e', hj, hp⟩) hji
      · simp only [Intake.deliveryOf, hj, Option.map_some]
        exact congrArg some hd

/-! ## Two deliveries -/

/-- The wallet `w1` of user `u`, in dollars, empty. -/
def dollarWallet : Wallet := { (default : Wallet) with id := "w1", userId := "u", currency := "USD" }

/-- A payment of 10 dollars to user `u`, reported completed. -/
def tenDollars : PaymentEvent := ⟨"moonpay", "x", "u", 10, "USD", completedStatus, "h"⟩

/-- Two deliveries of that payment, which has no row yet. -/
def twoDeliveries : PaymentRace 2 where
  store := { Store.empty with wallets := [dollarWallet] }
  event := tenDollars
  wallet := dollarWallet
  rowIds i := if i = 0 then "r0" else "r1"
  entryIds i := if i = 0 then "e0" else "e1"
  times _ := default
  owner := rfl
  stored := rfl
  funds := by
    rw [Decimal.le_iff_value]
    rfl
  currency := rfl
  named := by decide
  amount := rfl
  unseen := rfl
  unused := rfl

/-- Both deliveries look the payment up before either goes on; then the first runs to its
end, and then the second. -/
def readTogether : List (Choice 2) :=
  [.step 0, .step 1] ++ List.replicate 13 (.step 0) ++ List.replicate 14 (.step 1)

theorem readTogether_steps : ∀ c ∈ readTogether, ∃ i, c = .step i := by
  intro c hc
  simp only [readTogether, List.mem_append, List.mem_cons, List.mem_replicate,
    List.not_mem_nil, or_false] at hc
  rcases hc with ((rfl | rfl) | ⟨-, rfl⟩) | ⟨-, rfl⟩ <;> exact ⟨_, rfl⟩

theorem deliveries_settle_once_readTogether :
    0 < 2 ∧ (∀ c ∈ readTogether, ∃ i, c = .step i) ∧
      (∀ i, ((twoDeliveries.run readTogether).threads i).phase = .finished) ∧
      ∃ i, Intake.deliveryOf (Machine.start twoDeliveries.store twoDeliveries.tx) readTogether i =
          some .processed ∧
        ∀ j, j ≠ i → Intake.deliveryOf (Machine.start twoDeliveries.store twoDeliveries.tx)
          readTogether j = some .duplicate := by
  have hdone : ∀ i, ((twoDeliveries.run readTogether).threads i).phase = .finished := by
    intro i
    fin_cases i <;> rfl
  exact ⟨by decide, readTogether_steps, hdone,
    PaymentRace.deliveries_settle_once twoDeliveries (by decide) readTogether_steps hdone⟩

/-- The row of payment `x`, failed earlier: its user had no wallet then. -/
def failedRow : WebhookEvent :=
  ⟨"r", "moonpay", "x", "h", .failed, 0, none, none, "", "", "no wallet for user u", default, default⟩

/-- The store of `twoDeliveries` with that row. -/
def failedRowStore : Store := { Store.empty with wallets := [dollarWallet], webhooks := [failedRow] }

/-- **A delivery that read a failed row fails on another's commit.** Two deliveries of a
payment whose row failed earlier both read the row; the first then runs to its end and
processes the payment. The second writes the row back on condition that it is still
failed, and finds it processed at its commit: the store answers with a conflict, so the
second delivery fails, and its failure is recorded, where a duplicate was due. -/
theorem delivery_conflicts_on_failed_row :
    (Machine.start failedRowStore twoDeliveries.tx).endingOf readTogether 0 = some .committed ∧
      Intake.deliveryOf (Machine.start failedRowStore twoDeliveries.tx) readTogether 0 =
        some .processed ∧
      (Machine.start failedRowStore twoDeliveries.tx).endingOf readTogether 1 =
        some (.failed .conflict) ∧
      Intake.deliveryOf (Machine.start failedRowStore twoDeliveries.tx) readTogether 1 =
        some .failed := by
  decide +kernel

end PaymentRace

end OnrampLedger
