import OnrampLedger.Proofs.EngineTransactions
import OnrampLedger.Proofs.Postings

/-!
# Debits of one wallet racing

`n` debits of one amount from one wallet, each by the wallet's owner under its own
reference, run together under any schedule, from a store where the wallet holds the
amount `n - 1` times. The row lock and the commit's key check leave no room for a lost
update or a stale balance: at every point the wallet holds the amount `n - 1` times
less once per commit, so its balance never goes below zero and at most `n - 1` debits
commit; and once every debit has run to its end, with no wait for the lock cut short,
exactly `n - 1` have.

Each debit's thread goes through the stages of its transaction (`DebitRace.Stage`): it
looks for its own copy of the row, finds the wallet, waits for the lock, reads the row,
finds its key free, posts its entry and commits. The invariant (`DebitRace.Invariant`)
ties the stages to the store through `Machine.Serializes`: a row read under the lock is
the store's row while the lock is held, so the one check that can refuse a debit, the
balance, refuses it only once `n - 1` debits have committed. Counting the threads still
running (`Machine.liveCount`) then shows that a run in which every debit finished had
`n - 1` commits.

## Main results

* `DebitRace.Invariant.step` — every step keeps the invariant, and keeps `n - 1`
  commits within reach of the debits still running.
* `DebitRace.run_balance` — under every schedule the wallet holds the amount `n - 1`
  times less once per commit, never below zero, and at most `n - 1` debits commit.
* `DebitRace.run_commits_of_finished` — once every debit finished, with no wait cut
  short, exactly `n - 1` committed.
* `EngineTx.interleavings_serializable` — the engine's transactions interleaved are
  serializable in their money, and racing debits lose no update and never overdraw.
-/

namespace OnrampLedger

/-- A key free in a store stays free once entries under other keys are appended. -/
theorem Store.entryByKey?_eq_none_of_ledger {s s' : Store} {k : String} {es : List LedgerEntry}
    (hl : s'.ledger = s.ledger ++ es) (hs : s.entryByKey? k = none) (hes : ∀ e ∈ es, e.key ≠ k) :
    s'.entryByKey? k = none := by
  unfold Store.entryByKey? at hs ⊢
  split
  · rfl
  · next hk =>
    rw [if_neg hk] at hs
    rw [hl, List.find?_append, hs, Option.none_or, List.find?_eq_none]
    intro e he
    simpa using hes e he

/-- `n` debits of `amount` as entries of `type` from `wallet`, each by the wallet's owner
under its own reference and with its key unused, over `store`, where the wallet holds
`amount` `n - 1` times. -/
structure DebitRace (n : Nat) where
  store : Store
  wallet : Wallet
  amount : Decimal
  type : EntryType
  requests : Fin n → DebitRequest
  entryIds : Fin n → String
  times : Fin n → Instant
  found : store.wallet? wallet.id = some wallet
  funds : wallet.balance.value = ((n - 1 : Nat) : ℚ) * amount.value
  positive : 0 < amount.value
  debits : type.isCredit = false
  targets : ∀ i, (requests i).wallet = wallet.id
  owner : ∀ i, (requests i).actor.id = wallet.userId
  references : ∀ i j, (requests i).reference = (requests j).reference → i = j
  unused : ∀ i, store.entryByKey? (Wallets.debitKey (requests i)) = none
  eventIds : (store.webhooks.map (·.id)).Nodup

/-- Whether a thread still runs a transaction it has not given up. -/
def Phase.live : Phase → Bool
  | .running .rollback => false
  | .running _ => true
  | _ => false

/-- The threads still running a transaction they have not given up. -/
def Machine.liveCount {n : Nat} (M : Machine n) : Nat :=
  ∑ j, if (M.threads j).phase.live then 1 else 0

/-- Changing one thread changes the count by that thread alone. -/
theorem Machine.liveCount_setThread {n : Nat} (M : Machine n) (i : Fin n) (th : Thread) :
    (M.setThread i th).liveCount + (if (M.threads i).phase.live then 1 else 0) =
      M.liveCount + (if th.phase.live then 1 else 0) := by
  unfold liveCount
  rw [Fintype.sum_eq_add_sum_compl i, Fintype.sum_eq_add_sum_compl i]
  have hrest : ∑ j ∈ ({i}ᶜ : Finset (Fin n)), (if ((M.setThread i th).threads j).phase.live then 1 else 0) =
      ∑ j ∈ ({i}ᶜ : Finset (Fin n)), (if (M.threads j).phase.live then 1 else 0) := by
    refine Finset.sum_congr rfl fun j hj => ?_
    have hji : j ≠ i := by simpa using hj
    simp [Machine.setThread_threads, hji]
  rw [hrest]
  simp only [Machine.setThread_threads, ↓reduceIte]
  omega

namespace DebitRace

variable {n : Nat} (D : DebitRace n)

/-- Debit `i`, as the engine runs it. -/
def tx (i : Fin n) : EngineTx := .debit (D.requests i) D.amount D.type (D.entryIds i) (D.times i)

/-- The key of debit `i`. -/
def key (i : Fin n) : String := Wallets.debitKey (D.requests i)

/-- Debit `i` once the wallet's row is read under its lock. -/
def locked (i : Fin n) : Wallet → Tx :=
  Tx.debitLocked (D.requests i) D.amount D.type (D.entryIds i) (D.times i)

/-- The entry debit `i` posts from the row `w`. -/
def entry (i : Fin n) (w : Wallet) : LedgerEntry :=
  Tx.postedEntry w D.type D.amount (D.key i) (D.requests i).reference "" .user "" (D.entryIds i)
    (D.times i)

/-- The machine running the race, after a schedule. -/
def run (schedule : List (Choice n)) : Machine n :=
  (Machine.start D.store fun i => (D.tx i).body).run schedule

/-- A debit's state once it holds the lock and read the row `w`. -/
def lockedState (w : Wallet) : TxState :=
  ⟨[D.wallet.id], [w], [], [], [], [.present D.wallet.id, .row D.wallet.id w]⟩

/-- Debit `i`'s state once it also found its key free. -/
def freeState (i : Fin n) (w : Wallet) : TxState :=
  ⟨[D.wallet.id], [w], [], [], [], [.present D.wallet.id, .row D.wallet.id w, .key (D.key i) none]⟩

/-- Where debit `i` stands in its transaction, with its state. -/
inductive Stage (i : Fin n) : Tx → TxState → Prop
  /-- About to look for its own copy of the row. -/
  | start : Stage i (D.tx i).body TxState.empty
  /-- About to find the wallet. -/
  | fresh : Stage i (Tx.lockFresh D.wallet.id (D.locked i)) TxState.empty
  /-- Waiting for the lock. -/
  | acquire : Stage i (.call (.acquire D.wallet.id) fun _ => .call (.readRow D.wallet.id) (D.locked i))
      ⟨[], [], [], [], [], [.present D.wallet.id]⟩
  /-- About to read the row under the lock. -/
  | read : Stage i (.call (.readRow D.wallet.id) (D.locked i))
      ⟨[D.wallet.id], [], [], [], [], [.present D.wallet.id]⟩
  /-- About to look up its key, having read the row `w` as its owner. -/
  | owned {w : Wallet} : w.id = D.wallet.id →
      Stage i (Tx.debitOwned (D.requests i) D.amount D.type (D.entryIds i) (D.times i) w)
        (D.lockedState w)
  /-- About to post its entry, the key free and the balance enough. -/
  | free {w : Wallet} : w.id = D.wallet.id → ¬ w.balance < D.amount →
      Stage i (.call (.post (D.entry i w)) fun _ => .commit) (D.freeState i w)
  /-- About to commit. -/
  | posted {w : Wallet} : w.id = D.wallet.id → ¬ w.balance < D.amount →
      Stage i .commit ((Call.post (D.entry i w)).next (D.freeState i w) ())
  /-- Given up. -/
  | rollback {t : TxState} : Stage i .rollback t

/-- What the race keeps at every point, beside `Machine.Serializes`: the wallet holds the
amount `n - 1` times less once per commit, at most `n - 1` debits committed, a debit
still running finds its key free, and each running debit is at one of its stages. -/
structure Invariant (M : Machine n) : Prop where
  row : ∃ w, M.store.wallet? D.wallet.id = some w ∧ w.userId = D.wallet.userId ∧
    w.balance.value = ((n - 1 - M.committed.length : Nat) : ℚ) * D.amount.value
  committed : M.committed.length ≤ n - 1
  keys : ∀ i tx, (M.threads i).phase = .running tx → M.store.entryByKey? (D.key i) = none
  stage : ∀ i tx, (M.threads i).phase = .running tx → D.Stage i tx (M.threads i).state

/-- Either `n - 1` debits committed, or the commits and the debits still running add up
to `n` at least. -/
def Finishing (M : Machine n) : Prop :=
  n - 1 ≤ M.committed.length ∨ n ≤ M.committed.length + M.liveCount

/-! ## The debits, call by call -/

variable {D}

theorem key_injective {i j : Fin n} (h : D.key i = D.key j) : i = j := by
  simp only [key, Wallets.debitKey, IdempotencyKey.debit, IdempotencyKey.render, D.targets] at h
  have h₁ := (String.append_left_inj _).mp h
  have h₂ := (String.append_left_inj _).mp h₁
  have h₃ := (String.append_left_inj _).mp h₂
  have h₄ := (String.append_left_inj _).mp h₃
  exact D.references i j ((String.append_right_inj _).mp h₄)

theorem body_eq (i : Fin n) : (D.tx i).body = Tx.lockWallet D.wallet.id (D.locked i) := by
  simp only [tx, EngineTx.body, Tx.debit, D.targets]
  rfl

theorem locked_of_owner {i : Fin n} {w : Wallet} (hw : w.userId = D.wallet.userId) :
    D.locked i w = Tx.debitOwned (D.requests i) D.amount D.type (D.entryIds i) (D.times i) w := by
  simp [locked, Tx.debitLocked, hw, D.owner]

theorem entry_after (i : Fin n) (w : Wallet) :
    (D.entry i w).after.value = w.balance.value - D.amount.value := by
  simp [entry, Tx.postedEntry, EntryType.applyTo, D.debits]

/-- With the balance enough, the debit posts its entry; otherwise it gives up. -/
theorem debitFree_of_funds {i : Fin n} {w : Wallet} (hw : ¬ w.balance < D.amount) :
    Tx.debitFree (D.requests i) D.amount D.type (D.entryIds i) (D.times i) w =
      .call (.post (D.entry i w)) fun _ => .commit := by
  have hafter : ¬ (D.entry i w).after < 0 := by
    rw [Decimal.lt_iff_value, entry_after, Decimal.value_zero]
    rw [Decimal.lt_iff_value] at hw
    linarith
  simp only [Tx.debitFree, if_neg hw, Tx.applyEntry]
  exact if_neg hafter

theorem debitFree_of_short {i : Fin n} {w : Wallet} (hw : w.balance < D.amount) :
    Tx.debitFree (D.requests i) D.amount D.type (D.entryIds i) (D.times i) w = .rollback := by
  simp [Tx.debitFree, hw]

variable (D) in
/-- The race's machine keeps the serializability invariant of its debits. -/
abbrev Serial (M : Machine n) : Prop :=
  M.Serializes D.store (fun i => (D.tx i).body) fun i => (D.tx i).newRow

/-! ## One step of the race -/

section Steps

variable {M : Machine n} {i : Fin n}

/-- A debit that read the row under the lock and still runs finds it in the store. -/
theorem Serial.row (hs : D.Serial M) {tx : Tx} {w : Wallet} (hph : (M.threads i).phase = .running tx)
    (hw : Reading.row D.wallet.id w ∈ (M.threads i).state.seen) : M.store.wallet? D.wallet.id = some w :=
  ((hs.running i tx hph).stays _ hw).2

theorem Serial.step (hs : D.Serial M) (i : Fin n) : D.Serial (M.step i) :=
  Machine.Serializes.step hs (fun i => (D.tx i).disciplined_body) (fun i _ _ hx => by simp [tx, EngineTx.newRow] at hx) i

/-- The store's row is the one the invariant describes. -/
theorem Invariant.balance (h : D.Invariant M) {w : Wallet} (hw : M.store.wallet? D.wallet.id = some w) :
    w.userId = D.wallet.userId ∧
      w.balance.value = ((n - 1 - M.committed.length : Nat) : ℚ) * D.amount.value := by
  obtain ⟨w₀, hw₀, huser, hbal⟩ := h.row
  rw [hw₀] at hw
  cases hw
  exact ⟨huser, hbal⟩

/-- A balance short of the amount means `n - 1` debits committed already. -/
theorem Invariant.spent (h : D.Invariant M) {w : Wallet} (hw : M.store.wallet? D.wallet.id = some w)
    (hshort : w.balance < D.amount) : n - 1 ≤ M.committed.length := by
  have hbal := (h.balance hw).2
  rw [Decimal.lt_iff_value, hbal] at hshort
  have hlt : ((n - 1 - M.committed.length : Nat) : ℚ) < 1 := by
    by_contra hge
    nlinarith [D.positive, not_lt.mp hge]
  have : n - 1 - M.committed.length < 1 := by exact_mod_cast hlt
  omega

theorem Invariant.setThread (h : D.Invariant M) {th : Thread}
    (hstage : ∀ tx, th.phase = .running tx →
      (∃ tx₀, (M.threads i).phase = .running tx₀) ∧ D.Stage i tx th.state) :
    D.Invariant (M.setThread i th) where
  row := h.row
  committed := h.committed
  keys := by
    intro j tx hj
    rw [Machine.setThread_threads] at hj
    split at hj
    · next hji =>
      subst hji
      obtain ⟨⟨tx₀, h₀⟩, -⟩ := hstage tx hj
      exact h.keys j tx₀ h₀
    · exact h.keys j tx hj
  stage := by
    intro j tx hj
    rw [Machine.setThread_threads] at hj ⊢
    by_cases hji : j = i
    · subst hji
      rw [if_pos rfl] at hj ⊢
      exact (hstage tx hj).2
    · rw [if_neg hji] at hj ⊢
      exact h.stage j tx hj

theorem Finishing.setThread (hf : Finishing M) {th : Thread}
    (hcount : (M.threads i).phase.live = true → th.phase.live = true ∨ n - 1 ≤ M.committed.length) :
    Finishing (M.setThread i th) := by
  have hsum := M.liveCount_setThread i th
  unfold Finishing at hf ⊢
  rw [Machine.setThread_committed]
  cases hold : (M.threads i).phase.live
  · -- a thread that was not running took nothing from the count
    simp only [hold, Bool.false_eq_true, ↓reduceIte] at hsum
    split at hsum <;> omega
  · rcases hcount hold with hnew | hdone
    · simp only [hold, hnew, ↓reduceIte] at hsum
      omega
    · exact .inl hdone

/-- A commit trades a running debit for a committed one. -/
theorem Finishing.commit (hf : Finishing M) {s : Store} {b : Tx} {th : Thread}
    (hold : (M.threads i).phase.live = true) :
    Finishing ({ M with store := s, committed := M.committed ++ [b] }.setThread i th) := by
  have hsum : _ + (if (M.threads i).phase.live then 1 else 0) = M.liveCount + _ :=
    Machine.liveCount_setThread { M with store := s, committed := M.committed ++ [b] } i th
  simp only [hold, ↓reduceIte] at hsum
  unfold Finishing at hf ⊢
  simp only [Machine.setThread_committed, List.length_append, List.length_singleton]
  split at hsum <;> omega

/-- A call answered from a stage that leads to a stage keeps the invariant, and keeps the
count when the debit goes on or `n - 1` committed. -/
theorem Invariant.answer (h : D.Invariant M) {c : Call} {k : c.Answer → Tx} {a : c.Answer}
    (hph : (M.threads i).phase = .running (.call c k))
    (hr : c.result M.store (M.threads i).state = some a)
    (hnext : D.Stage i (k a) (c.next (M.threads i).state a))
    (hlive : (Phase.running (k a)).live = true ∨ n - 1 ≤ M.committed.length) :
    D.Invariant (M.step i) ∧ (Finishing M → Finishing (M.step i)) := by
  rw [Machine.step_of_call hph]
  split
  · exact ⟨h, id⟩
  · rw [Machine.answer_of_some hr]
    refine ⟨h.setThread fun tx htx => ⟨⟨_, hph⟩, ?_⟩, fun hf => hf.setThread fun _ => hlive⟩
    simp only [Phase.running.injEq] at htx
    exact htx ▸ hnext

/-- The commit of a debit that posted its entry: the wallet loses the amount, one more
debit committed, and every other debit's key stays free. -/
theorem Invariant.commit (hs : D.Serial M) (h : D.Invariant M) {w : Wallet}
    (hid : w.id = D.wallet.id) (hfunds : ¬ w.balance < D.amount)
    (hph : (M.threads i).phase = .running .commit)
    (ht : (M.threads i).state = (Call.post (D.entry i w)).next (D.freeState i w) ()) :
    D.Invariant (M.step i) ∧ (Finishing M → Finishing (M.step i)) := by
  have hkey : M.store.entryByKey? (D.key i) = none := h.keys i _ hph
  have hrow : M.store.wallet? D.wallet.id = some w :=
    hs.row hph (by simp [ht, Call.next, freeState])
  obtain ⟨huser, hbal⟩ := h.balance hrow
  -- the commit's checks pass: the key is still free
  have hcommit : M.store.commit? (M.threads i).state.writes =
      some (Write.apply (Write.apply M.store (.balance D.wallet.id (D.entry i w).after (D.times i)))
        (.entry (D.entry i w))) := by
    simp [ht, Store.commit?, Call.next, freeState, Write.check, entry, Tx.postedEntry, hid, hkey]
  -- a commit needs the amount once more, so fewer than `n - 1` debits committed before
  have hleft : 1 ≤ n - 1 - M.committed.length := by
    by_contra hnone
    rw [Decimal.lt_iff_value, hbal, show n - 1 - M.committed.length = 0 by omega] at hfunds
    simp only [Nat.cast_zero, zero_mul] at hfunds
    exact hfunds D.positive
  rw [Machine.step_of_commit hph hcommit]
  refine ⟨⟨?_, ?_, ?_, ?_⟩, fun hf => hf.commit (by rw [hph]; rfl)⟩
  · refine ⟨_, Write.wallet?_apply_balance hrow _ _, huser, ?_⟩
    rw [entry_after, hbal]
    simp only [Machine.setThread_committed, List.length_append, List.length_singleton]
    rw [show n - 1 - (M.committed.length + 1) = (n - 1 - M.committed.length) - 1 by omega,
      Nat.cast_sub hleft, Nat.cast_one]
    ring
  · simp only [Machine.setThread_committed, List.length_append, List.length_singleton]
    omega
  · intro j tx hj
    have hji : j ≠ i := by
      rintro rfl
      simp [Machine.setThread_threads] at hj
    rw [Machine.setThread_threads, if_neg hji] at hj
    refine Store.entryByKey?_eq_none_of_ledger rfl (h.keys j tx hj) ?_
    intro e he
    rw [List.mem_singleton.mp he]
    exact fun heq => hji (key_injective heq).symm
  · intro j tx hj
    have hji : j ≠ i := by
      rintro rfl
      simp [Machine.setThread_threads] at hj
    rw [Machine.setThread_threads, if_neg hji] at hj ⊢
    exact h.stage j tx hj

/-- **Every step keeps the invariant**, and keeps `n - 1` commits within reach of the
commits and the debits still running: a debit gives up only once the wallet's balance,
read under the lock, is short, which takes `n - 1` commits. -/
theorem Invariant.step (hs : D.Serial M) (h : D.Invariant M) (i : Fin n) :
    D.Invariant (M.step i) ∧ (Finishing M → Finishing (M.step i)) := by
  cases hph : (M.threads i).phase with
  | finished =>
    rw [Machine.step_of_finished hph]
    exact ⟨h, id⟩
  | releasing =>
    obtain ⟨th, heq, hnot, -, -⟩ := Machine.step_of_releasing hph
    rw [heq]
    exact ⟨h.setThread fun tx htx => absurd htx (hnot tx),
      fun hf => hf.setThread fun hold => by simp [hph, Phase.live] at hold⟩
  | running tx =>
    have hkey : M.store.entryByKey? (D.key i) = none := h.keys i tx hph
    obtain ⟨w₀, hw₀, huser, -⟩ := h.row
    have hst := h.stage i tx hph
    generalize ht : (M.threads i).state = t at hst
    -- each stage answers its call from the store as the invariant has it
    cases hst with
    | start =>
      rw [body_eq] at hph
      unfold Tx.lockWallet at hph
      exact h.answer hph (by rw [ht]; rfl) (by rw [ht]; exact .fresh) (.inl rfl)
    | fresh =>
      unfold Tx.lockFresh at hph
      have hr : (Call.present D.wallet.id).result M.store (M.threads i).state = some () := by
        simp [Call.result, hw₀]
      exact h.answer hph hr (by rw [ht]; exact .acquire) (.inl rfl)
    | acquire =>
      exact h.answer hph (by rw [ht]; rfl) (by rw [ht]; exact .read) (.inl rfl)
    | read =>
      have howner := locked_of_owner (i := i) huser
      refine h.answer hph (by rw [ht]; exact hw₀) ?_ (.inl (by rw [howner]; rfl))
      rw [ht, howner]
      exact .owned (Store.id_of_wallet? hw₀)
    | owned hid =>
      rename_i w
      unfold Tx.debitOwned at hph
      have hr : (Call.entryByKey (D.key i)).result M.store (M.threads i).state = some none := by
        rw [ht]
        exact congrArg some hkey
      by_cases hfunds : w.balance < D.amount
      · -- the balance read under the lock is short: `n - 1` debits committed
        have hrow : M.store.wallet? D.wallet.id = some w :=
          hs.row hph (by simp [ht, lockedState])
        refine h.answer hph hr ?_ (.inr (h.spent hrow hfunds))
        dsimp only
        rw [debitFree_of_short hfunds]
        exact .rollback
      · refine h.answer hph hr ?_ (.inl (by dsimp only; rw [debitFree_of_funds hfunds]; rfl))
        dsimp only
        rw [debitFree_of_funds hfunds, ht]
        exact .free hid hfunds
    | free hid hfunds =>
      refine h.answer hph ?_ (by rw [ht]; exact .posted hid hfunds) (.inl rfl)
      simp [ht, Call.result, freeState, entry, Tx.postedEntry, hkey]
    | posted hid hfunds => exact h.commit hs hid hfunds hph ht
    | rollback =>
      rw [Machine.step_of_rollback hph]
      exact ⟨h.setThread fun tx htx => by simp at htx,
        fun hf => hf.setThread fun hold => by simp [hph, Phase.live] at hold⟩

theorem Invariant.cancel (h : D.Invariant M) (i : Fin n) : D.Invariant (M.cancel i) := by
  unfold Machine.cancel
  dsimp only
  split
  · next hph =>
    refine h.setThread fun tx htx => ⟨⟨_, hph⟩, ?_⟩
    simp only [Phase.running.injEq] at htx
    subst htx
    exact .rollback
  · exact h

end Steps

/-! ## Every schedule -/

section Runs

variable {M : Machine n}

theorem Serial.start : D.Serial (Machine.start D.store fun i => (D.tx i).body) :=
  Machine.Serializes.start (fun i _ hx => by simp [tx, EngineTx.newRow] at hx) D.eventIds

theorem Invariant.start : D.Invariant (Machine.start D.store fun i => (D.tx i).body) where
  row := ⟨D.wallet, D.found, rfl, by simpa [Machine.start] using D.funds⟩
  committed := Nat.zero_le _
  keys := fun i _ _ => D.unused i
  stage := by
    intro i tx hph
    simp only [Machine.start, Phase.running.injEq] at hph
    subst hph
    exact .start

/-- At the start every debit runs, so the `n` of them are within reach. -/
theorem finishing_start : Finishing (Machine.start D.store fun i => (D.tx i).body) := by
  have hlive : ∀ i, (Phase.running (D.tx i).body).live = true := fun i => by
    rw [body_eq]
    rfl
  right
  simp [Machine.liveCount, Machine.start, hlive]

theorem Invariant.run (hs : D.Serial M) (h : D.Invariant M) (schedule : List (Choice n)) :
    D.Invariant (M.run schedule) := by
  induction schedule generalizing M with
  | nil => exact h
  | cons c rest ih =>
    cases c with
    | step i => exact ih (hs.step i) (h.step hs i).1
    | cancel i => exact ih (Machine.Serializes.cancel hs i) (h.cancel i)

/-- Steps alone, with no lock wait cut short, keep `n - 1` commits within reach. -/
theorem Finishing.run (hs : D.Serial M) (h : D.Invariant M) (hf : Finishing M)
    {schedule : List (Choice n)} (hsteps : ∀ c ∈ schedule, ∃ i, c = .step i) :
    Finishing (M.run schedule) := by
  induction schedule generalizing M with
  | nil => exact hf
  | cons c rest ih =>
    obtain ⟨i, rfl⟩ := hsteps c List.mem_cons_self
    have hstep := h.step hs i
    exact ih (hs.step i) hstep.1 (hstep.2 hf) fun c hc => hsteps c (List.mem_cons_of_mem _ hc)

variable (D)

theorem run_invariant (schedule : List (Choice n)) : D.Invariant (D.run schedule) :=
  Invariant.run Serial.start Invariant.start schedule

/-- **No racing debit overdraws the wallet, and at most `n - 1` commit**: under every
schedule the wallet holds the amount `n - 1` times less once per commit. -/
theorem run_balance (schedule : List (Choice n)) :
    (D.run schedule).committed.length ≤ n - 1 ∧
      ∃ w, (D.run schedule).store.wallet? D.wallet.id = some w ∧ 0 ≤ w.balance ∧
        w.balance.value = ((n - 1 - (D.run schedule).committed.length : Nat) : ℚ) * D.amount.value := by
  have h := D.run_invariant schedule
  obtain ⟨w, hw, -, hbal⟩ := h.row
  refine ⟨h.committed, w, hw, ?_, hbal⟩
  rw [Decimal.le_iff_value, Decimal.value_zero, hbal]
  exact mul_nonneg (Nat.cast_nonneg _) D.positive.le

/-- **Once every racing debit has finished, with no lock wait cut short, exactly `n - 1`
committed.** -/
theorem run_commits_of_finished {schedule : List (Choice n)}
    (hsteps : ∀ c ∈ schedule, ∃ i, c = .step i)
    (hdone : ∀ i, ((D.run schedule).threads i).phase = .finished) :
    (D.run schedule).committed.length = n - 1 := by
  have hf : Finishing (D.run schedule) := Finishing.run Serial.start Invariant.start D.finishing_start hsteps
  have hnone : (D.run schedule).liveCount = 0 := by simp [Machine.liveCount, hdone, Phase.live]
  have hmost := (D.run_invariant schedule).committed
  unfold Finishing at hf
  omega

end Runs

/-! ## Two debits of a whole balance -/

/-- The races below are between two threads. The numerals of `Fin 2` that name the threads
all take their non-zero proof from this one instance. -/
instance twoThreads : NeZero (2 : Nat) := ⟨by decide⟩

/-- The wallet `w1` of user `u1`, holding 5. -/
def fiveWallet : Wallet :=
  { (default : Wallet) with id := "w1", userId := "u1", balance := Decimal.ofInt 5 }

/-- Two withdrawals of 5, under the references `r0` and `r1`, from a wallet holding 5. -/
def twoOfFive : DebitRace 2 where
  store := ⟨[fiveWallet], [], [], [], [], [], []⟩
  wallet := fiveWallet
  amount := Decimal.ofInt 5
  type := .withdrawal
  requests i := ⟨"w1", Decimal.ofInt 5, "", if i = 0 then "r0" else "r1", ⟨"u1", "user"⟩⟩
  entryIds i := if i = 0 then "e0" else "e1"
  times _ := default
  found := rfl
  funds := by norm_num [fiveWallet]
  positive := by
    rw [Decimal.ofInt, Decimal.value_make]
    norm_num
  debits := rfl
  targets _ := rfl
  owner _ := rfl
  references := by decide
  unused _ := rfl
  eventIds := List.nodup_nil

/-- The two debits taking turns, one call each, sixteen times. -/
def alternating : List (Choice 2) := (List.replicate 16 [Choice.step 0, Choice.step 1]).flatten

theorem alternating_steps : ∀ c ∈ alternating, ∃ i, c = .step i := by
  intro c hc
  simp only [alternating, List.mem_flatten, List.mem_replicate] at hc
  obtain ⟨l, ⟨-, rfl⟩, hc⟩ := hc
  simp only [List.mem_cons, List.not_mem_nil, or_false] at hc
  rcases hc with rfl | rfl <;> exact ⟨_, rfl⟩

end DebitRace

/-! ## Serializability of the engine's transactions -/

/-- **Interleaved engine transactions are serializable, and racing debits neither lose
an update nor overdraw.** Under every schedule of any number of the engine's
transactions, each with its own unused id for a new payment row, the wallets, the
ledger and the payment rows are those the committed transactions leave when run one
after another in the order they committed. And `n` debits of one amount from a wallet
holding it `n - 1` times commit at most `n - 1` times, never take the balance below
zero, and commit exactly `n - 1` times once all have finished with no lock wait cut
short. -/
theorem EngineTx.interleavings_serializable :
    (∀ (n : Nat) (s₀ : Store) (txs : Fin n → EngineTx) (schedule : List (Choice n)),
      (∀ i j, ∀ x ∈ (txs i).newRow, x ∈ (txs j).newRow → i = j) →
      (∀ i, ∀ x ∈ (txs i).newRow, x ∉ s₀.webhooks.map (·.id)) →
      (s₀.webhooks.map (·.id)).Nodup →
      ((Machine.start s₀ fun i => (txs i).body).run schedule).store.SameButOnRamps
        (Tx.serial s₀ ((Machine.start s₀ fun i => (txs i).body).run schedule).committed)) ∧
    (∀ (n : Nat) (D : DebitRace n) (schedule : List (Choice n)),
      (D.run schedule).committed.length ≤ n - 1 ∧
        (∃ w, (D.run schedule).store.wallet? D.wallet.id = some w ∧ 0 ≤ w.balance) ∧
        ((∀ c ∈ schedule, ∃ i, c = .step i) →
          (∀ i, ((D.run schedule).threads i).phase = .finished) →
          (D.run schedule).committed.length = n - 1)) := by
  refine ⟨fun n s₀ txs schedule hfresh hunused hnodup => ?_, fun n D schedule => ?_⟩
  · exact Machine.run_sameButOnRamps_serial (fun i => (txs i).disciplined_body) hfresh hunused
      hnodup schedule
  · obtain ⟨hmost, w, hw, hpos, -⟩ := D.run_balance schedule
    exact ⟨hmost, ⟨w, hw, hpos⟩, fun hsteps hdone => D.run_commits_of_finished hsteps hdone⟩

theorem EngineTx.interleavings_serializable_twoOfFive :
    (DebitRace.twoOfFive.run DebitRace.alternating).store.SameButOnRamps
        (Tx.serial DebitRace.twoOfFive.store
          (DebitRace.twoOfFive.run DebitRace.alternating).committed) ∧
      (DebitRace.twoOfFive.run DebitRace.alternating).committed.length = 1 := by
  have hrace := EngineTx.interleavings_serializable.2 2 DebitRace.twoOfFive DebitRace.alternating
  refine ⟨EngineTx.interleavings_serializable.1 2 DebitRace.twoOfFive.store DebitRace.twoOfFive.tx
    DebitRace.alternating ?_ ?_ List.nodup_nil, hrace.2.2 DebitRace.alternating_steps ?_⟩
  · intro i j x hx
    simp [DebitRace.tx, EngineTx.newRow] at hx
  · intro i x hx
    simp [DebitRace.tx, EngineTx.newRow] at hx
  · intro i
    fin_cases i <;> rfl

end OnrampLedger
