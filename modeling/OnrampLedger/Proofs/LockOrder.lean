import Mathlib
import OnrampLedger.Store.Interleaving
import OnrampLedger.Service.Transactions

/-!
# Locks taken in order

Transactions that lock wallet rows can wait for one another in a circle only if two of
them take their locks in different orders. An engine transaction takes every new row
lock above every lock it already holds: it locks all the wallets it needs at its start,
in ascending order of their ids and each once, and a wallet it has locked already is
read from its own copy without a second wait. It gives every lock back after its commit,
passed or failed, or its rollback, before it is done.

So in a run of any number of engine transactions, under any schedule, a waiting thread
asks for a lock above all it holds, and the thread holding that lock, if it waits too,
asks for one higher still. The waiting threads never close a circle, some thread can
always take its next step, and every run can still be finished: some further schedule
brings every thread to its end, holding no lock.

`Tx.Ordered n tx t` says that `tx`, from state `t`, takes each new lock above the locks
held and makes at most `n` more calls whatever they answer. The bound is what makes runs
finishable: each step of a thread that can move uses up some of it.

## Main results

* `EngineTx.ordered_body` — every engine transaction takes its locks in order.
* `Machine.Orderly.not_waitsFor_cycle` — no circle of waiting threads.
* `Machine.Orderly.canMove` — while a thread is unfinished, some thread can move.
* `Machine.Orderly.finishes` — some schedule finishes every thread.
* `EngineTx.interleavings_deadlockFree` — all of it, for every run of engine
  transactions under every schedule.
-/

namespace OnrampLedger

/-! ## Lists without repeats, in order -/

section Distinct

variable {α : Type} [BEq α] [LawfulBEq α]

/-- Erasing repeats leaves no repeat. -/
theorem nodup_eraseDups (l : List α) : l.eraseDups.Nodup := by
  match l with
  | [] => exact List.nodup_nil
  | a :: as =>
    rw [List.eraseDups_cons, List.nodup_cons]
    have : (as.filter fun b => !b == a).length < as.length + 1 :=
      Nat.lt_succ_of_le (List.length_filter_le _ as)
    -- the rest keeps only what differs from `a`
    exact ⟨by simp, nodup_eraseDups _⟩
termination_by l.length

end Distinct

/-- The wallets `lockWallets` takes, in the order it takes them, are in strictly
ascending order of their ids. -/
theorem lockOrder_ascending (ids : List String) :
    (ids.eraseDups.mergeSort fun a b => decide (a ≤ b)).Pairwise (· < ·) := by
  have hsorted : (ids.eraseDups.mergeSort fun a b => decide (a ≤ b)).Pairwise
      (fun a b => decide (a ≤ b) = true) :=
    List.pairwise_mergeSort
      (fun a b c hab hbc => by simp only [decide_eq_true_eq] at *; exact le_trans hab hbc)
      (fun a b => by simpa using le_total a b) ids.eraseDups
  have hnodup : (ids.eraseDups.mergeSort fun a b => decide (a ≤ b)).Nodup :=
    (nodup_eraseDups ids).perm (List.mergeSort_perm _ _).symm
  exact (hsorted.and hnodup).imp fun ⟨hle, hne⟩ => lt_of_le_of_ne (by simpa using hle) hne

/-! ## Transactions that lock in order -/

namespace Call

/-- The lock the call takes, if it takes one. -/
def takes : Call → Option String
  | .acquire w => some w
  | _ => none

/-- A lock the call takes is above every lock the transaction holds. -/
def Above (t : TxState) (c : Call) : Prop := ∀ w, c.takes = some w → ∀ h ∈ t.held, h < w

/-- Only taking a lock adds to the locks held, at their end. -/
theorem held_next (c : Call) (t : TxState) (a : c.Answer) :
    (c.next t a).held = t.held ++ c.takes.toList := by
  cases c <;> simp only [next, takes] <;> (try split) <;> simp

end Call

namespace Tx

/-- From state `t`, `tx` takes each new lock above every lock held and makes at most `n`
more calls, whatever they answer. -/
inductive Ordered : Nat → Tx → TxState → Prop
  | commit {n : Nat} {t : TxState} : Ordered n .commit t
  | rollback {n : Nat} {t : TxState} : Ordered n .rollback t
  | call {n : Nat} {c : Call} {k : c.Answer → Tx} {t : TxState} : c.Above t →
      (∀ s a, c.result s t = some a → Ordered n (k a) (c.next t a)) → Ordered (n + 1) (.call c k) t

variable {n m : Nat} {tx : Tx} {t : TxState}

theorem Ordered.mono (h : Ordered n tx t) (hnm : n ≤ m) : Ordered m tx t := by
  induction h generalizing m with
  | commit => exact .commit
  | rollback => exact .rollback
  | call habove _ ih =>
    obtain ⟨m, rfl⟩ : ∃ m', m = m' + 1 := ⟨m - 1, by omega⟩
    exact .call habove fun s a hr => ih s a hr (by omega)

/-- A call that takes no lock, followed by a continuation that is ordered from every
state holding the same locks. -/
theorem ordered_call {c : Call} {k : c.Answer → Tx} (hc : c.takes = none)
    (hk : ∀ a t', t'.held = t.held → Ordered n (k a) t') : Ordered (n + 1) (.call c k) t :=
  .call (fun w hw => by simp [hc] at hw) fun _ a _ => hk a _ (by simp [Call.held_next, hc])

theorem ordered_applyEntry {w : Wallet} {type : EntryType} {amount : Decimal}
    {key reference description : String} {source : Source} {providerEventId entryId : String}
    {now : Instant} {k : Mutation → Tx} (hk : ∀ m t', Ordered n (k m) t') :
    Ordered (n + 1) (applyEntry w type amount key reference description source providerEventId
      entryId now k) t := by
  unfold applyEntry
  dsimp only
  split
  · exact .rollback
  · exact ordered_call rfl fun _ _ _ => hk _ _

/-- **Locking a wallet** takes at most one lock, the wallet's own, when it is above the
locks held; its own copy answers a wallet locked already. -/
theorem ordered_lockWallet {id : String} {k : Wallet → Tx} (habove : ∀ h ∈ t.held, h < id)
    (hk : ∀ w t', (∀ h ∈ t'.held, h ∈ t.held ∨ h = id) → Ordered n (k w) t') :
    Ordered (n + 4) (lockWallet id k) t := by
  refine .call (fun w hw => by simp [Call.takes] at hw) fun s a hr => ?_
  simp only [Call.result, Option.some.injEq] at hr
  subst hr
  simp only [Call.next]
  cases t.cache.find? (·.id == id) with
  | some w => exact (hk w t fun h hh => .inl hh).mono (by omega)
  | none =>
    -- the wallet checked, its lock taken above the others, its row read
    have hnone : ∀ w, Call.takes (.acquire id) = some w → w = id := by simp [Call.takes]
    refine .call (fun w hw => by simp [Call.takes] at hw) fun _ _ _ => .call ?_ fun _ _ _ =>
      .call (fun w hw => by simp [Call.takes] at hw) fun _ w _ => hk w _ fun h hh => ?_
    · intro w hw h hh
      rw [hnone w hw]
      simp only [Call.held_next, Call.takes, Option.toList_none, List.append_nil] at hh
      exact habove h hh
    · simp only [Call.held_next, Call.takes, Option.toList_none, Option.toList_some,
        List.append_nil, List.mem_append, List.mem_singleton] at hh
      exact hh

/-- **Locking wallets one after another**, in strictly ascending order and above the
locks held, takes each new lock above the locks held. -/
theorem ordered_lockEach {ids : List String} {k : List Wallet → Tx}
    (hids : ids.Pairwise (· < ·)) (habove : ∀ h ∈ t.held, ∀ id ∈ ids, h < id)
    (hk : ∀ ws t', Ordered n (k ws) t') : Ordered (n + 4 * ids.length) (lockEach ids k) t := by
  induction ids generalizing t k with
  | nil => exact hk [] t
  | cons id ids ih =>
    rw [List.pairwise_cons] at hids
    have hlen : n + 4 * (id :: ids).length = n + 4 * ids.length + 4 := by simp; ring
    rw [hlen]
    refine ordered_lockWallet (fun h hh => habove h hh id List.mem_cons_self) fun w t' hheld => ?_
    -- the locks now held are those before and `id`, all below the wallets still to lock
    refine ih hids.2 (fun h hh id' hid' => ?_) fun ws t'' => hk (w :: ws) t''
    rcases hheld h hh with hh | rfl
    · exact habove h hh id' (List.mem_cons_of_mem id hid')
    · exact hids.1 id' hid'

theorem ordered_lockWallets {ids : List String} {k : List Wallet → Tx} (hempty : t.held = [])
    (hk : ∀ ws t', Ordered n (k ws) t') : ∃ m, Ordered m (lockWallets ids k) t :=
  ⟨_, ordered_lockEach (lockOrder_ascending ids) (by simp [hempty]) hk⟩

/-- **A credit inside a transaction** locks one wallet, above the locks held, and then
takes no lock. -/
theorem ordered_creditIn {r : CreditRequest} {entryId : String} {now : Instant} {k : String → Tx}
    (habove : ∀ h ∈ t.held, h < r.wallet) (hk : ∀ id t', Ordered n (k id) t') :
    Ordered (n + 6) (creditIn r entryId now k) t := by
  unfold creditIn
  split
  · exact .rollback
  · refine ordered_lockWallet habove fun w _ _ => ordered_call rfl fun a _ _ => ?_
    cases a with
    | some e => exact (hk _ _).mono (by omega)
    | none => exact ordered_applyEntry fun _ => hk _

theorem ordered_flagEach (locked : List Wallet) (now : Instant) (ids : List String) :
    Ordered (3 * ids.length) (flagEach locked now ids) t := by
  induction ids generalizing t with
  | nil => exact .commit
  | cons id ids ih =>
    unfold flagEach
    have hlen : 3 * (id :: ids).length = 3 * ids.length + 1 + 1 + 1 := by simp; ring
    rw [hlen]
    split
    · exact .rollback
    · refine ordered_call rfl fun sums _ _ => ordered_call rfl fun latest _ _ => ?_
      split
      · exact ih.mono (by omega)
      · split
        · exact ih.mono (by omega)
        · exact ordered_call rfl fun _ _ _ => ih

/-! ## The engine's transactions -/

theorem ordered_credit (r : CreditRequest) (entryId : String) (now : Instant) :
    Ordered 6 (credit r entryId now) TxState.empty :=
  ordered_creditIn (by simp [TxState.empty]) fun _ _ => .commit

theorem ordered_debit (r : DebitRequest) (amount : Decimal) (type : EntryType) (entryId : String)
    (now : Instant) : Ordered 6 (debit r amount type entryId now) TxState.empty := by
  refine ordered_lockWallet (by simp [TxState.empty]) fun w t' _ => ?_
  unfold debitLocked debitOwned debitFree
  split
  · exact .rollback
  · refine ordered_call rfl fun a _ _ => ?_
    cases a with
    | some _ => exact .rollback
    | none =>
      dsimp only
      split
      · exact .rollback
      · exact ordered_applyEntry fun _ _ => .commit

theorem ordered_transfer (r : TransferRequest) (amount : Decimal) (outId inId : String)
    (now : Instant) : ∃ n, Ordered n (transfer r amount outId inId now) TxState.empty := by
  unfold transfer
  dsimp only
  split
  · exact ⟨0, .rollback⟩
  · -- both wallets locked in order, then the key and the two legs
    refine ordered_lockWallets (n := 3) rfl fun locked t' => ?_
    split
    · split
      · exact .rollback
      · refine ordered_call rfl fun a _ _ => ?_
        cases a with
        | some _ => exact .rollback
        | none =>
          dsimp only
          split
          · exact .rollback
          · exact ordered_applyEntry fun _ _ => ordered_applyEntry fun _ _ => .commit
    · exact .rollback

theorem ordered_completeOnRamp (wallet provider : String) (amount : Decimal) (now : Instant) :
    Ordered 2 (completeOnRamp wallet provider amount now) t :=
  ordered_call rfl fun o _ _ => by
    cases o with
    | some _ => exact ordered_call rfl fun _ _ _ => .commit
    | none => exact .commit

theorem ordered_process (ev : PaymentEvent) (rowId entryId : String) (now : Instant) :
    Ordered 11 (process ev rowId entryId now) TxState.empty := by
  -- the payment's row and the user's wallet are looked up, then the one credit locks
  refine ordered_call rfl fun prior t₁ h₁ => ?_
  dsimp only
  split
  · exact .commit
  · refine ordered_call rfl fun a t₂ h₂ => ?_
    rcases a with _ | ⟨walletId, currency⟩
    · exact .rollback
    · dsimp only
      split
      · exact .rollback
      · refine (ordered_creditIn (n := 3) (by simp [h₂, h₁, TxState.empty]) fun _ _ => ?_).mono
          (by omega)
        -- the payment's row written, then the purchase it completes
        split
        · exact ordered_call rfl fun _ _ _ => ordered_completeOnRamp _ _ _ _
        · exact ordered_call rfl fun _ _ _ => ordered_completeOnRamp _ _ _ _

theorem ordered_replay (a : MissingWebhookAlert) (o : OnRamp) (admin : Actor) (entryId : String)
    (now : Instant) : Ordered 9 (replay a o admin entryId now) TxState.empty := by
  -- after the purchase, if any: the credit, then the case written back
  have hrest : ∀ t : TxState, t.held = [] → Ordered 8 (if !admin.isAdmin then .rollback else
      creditIn (Reconcile.replayCredit a o admin) entryId now fun _ =>
        .call (.stage (.updateMissing a .pending)) fun _ => .commit) t := by
    intro t ht
    split
    · exact .rollback
    · exact ordered_creditIn (by simp [ht]) fun _ _ => ordered_call rfl fun _ _ _ => .commit
  unfold replay
  dsimp only
  split
  · exact ordered_call rfl fun _ _ h => hrest _ (by simp [h, TxState.empty])
  · exact (hrest _ rfl).mono (by omega)

theorem ordered_flagSuspects (ids : List String) (now : Instant) :
    ∃ n, Ordered n (flagSuspects ids now) TxState.empty :=
  ordered_lockWallets rfl fun locked _ => ordered_flagEach locked now ids

end Tx

/-- **Every engine transaction takes its locks in order**, from its start, holding no
lock, within some number of calls. -/
theorem EngineTx.ordered_body (tx : EngineTx) : ∃ n, tx.body.Ordered n TxState.empty := by
  cases tx with
  | credit r entryId now => exact ⟨_, Tx.ordered_credit r entryId now⟩
  | debit r amount type entryId now => exact ⟨_, Tx.ordered_debit r amount type entryId now⟩
  | transfer r amount outId inId now => exact Tx.ordered_transfer r amount outId inId now
  | process ev rowId entryId now => exact ⟨_, Tx.ordered_process ev rowId entryId now⟩
  | replay a o admin entryId now => exact ⟨_, Tx.ordered_replay a o admin entryId now⟩
  | flag ids now => exact Tx.ordered_flagSuspects ids now

/-! ## Threads -/

namespace Thread

/-- The lock the thread waits for, if its next call asks for one. -/
def wants (th : Thread) : Option String :=
  match th.phase with
  | .running (.call (.acquire w) _) => some w
  | _ => none

/-- A thread with at most `b` steps left, whose locks were taken in ascending order: a
running thread's transaction takes each new lock above the locks held and has its calls
counted in `b`, a thread giving back its locks has them counted in `b`, and a finished
thread holds none. -/
def Within (th : Thread) (b : Nat) : Prop :=
  th.state.held.Pairwise (· < ·) ∧
    match th.phase with
    | .running tx => ∃ m, tx.Ordered m th.state ∧ 2 * m + th.state.held.length + 2 ≤ b
    | .releasing => th.state.held.length + 1 ≤ b
    | .finished => th.state.held = []

/-- What one step does to a thread that can move: a call answered, a call failed or a wait
given up, the transaction ended, or one lock given back, until none is left. -/
inductive Moves : Thread → Thread → Prop
  | answer {th : Thread} {c : Call} {k : c.Answer → Tx} {s : Store} {a : c.Answer} :
      th.phase = .running (.call c k) → c.result s th.state = some a →
      Moves th { th with phase := .running (k a), state := c.next th.state a }
  | fail {th : Thread} {c : Call} {k : c.Answer → Tx} :
      th.phase = .running (.call c k) → Moves th { th with phase := .running .rollback }
  | finish {th : Thread} {tx : Tx} : th.phase = .running tx → (tx = .commit ∨ tx = .rollback) →
      Moves th { th with phase := .releasing }
  | release {th : Thread} {h : String} {rest : List String} : th.phase = .releasing →
      th.state.held = h :: rest → Moves th { th with state := { th.state with held := rest } }
  | done {th : Thread} : th.phase = .releasing → th.state.held = [] →
      Moves th { th with phase := .finished }

variable {th th' : Thread} {b : Nat}

theorem wants_eq_some {w : String} :
    th.wants = some w ↔ ∃ k, th.phase = .running (.call (.acquire w) k) := by
  unfold wants
  split
  · next k hk => simp [hk]
  · next hne => simpa using fun k hk => hne w k hk

theorem Within.mono (h : th.Within b) (hb : b ≤ b') : th.Within b' := by
  obtain ⟨hsorted, hphase⟩ := h
  refine ⟨hsorted, ?_⟩
  cases hph : th.phase with
  | running tx =>
    rw [hph] at hphase
    obtain ⟨m, hm, hle⟩ := hphase
    exact ⟨m, hm, by omega⟩
  | releasing =>
    rw [hph] at hphase
    dsimp only at hphase ⊢
    omega
  | finished =>
    rw [hph] at hphase
    exact hphase

theorem Within.held_of_finished (h : th.Within b) (hfin : th.phase = .finished) :
    th.state.held = [] := by
  obtain ⟨-, hphase⟩ := h
  simpa [hfin] using hphase

/-- A waiting thread asks for a lock above every lock it holds. -/
theorem Within.wants_above (h : th.Within b) {w : String} (hw : th.wants = some w) :
    ∀ v ∈ th.state.held, v < w := by
  obtain ⟨-, hphase⟩ := h
  unfold wants at hw
  split at hw
  · next k hk =>
    simp only [Option.some.injEq] at hw
    subst hw
    rw [hk] at hphase
    obtain ⟨m, hm, -⟩ := hphase
    cases hm with
    | call habove _ => exact habove _ rfl
  · cases hw

/-- **A step uses up the budget**: a thread that moves stays in order, with one step
less left. -/
theorem Within.moves (h : th.Within b) (hm : th.Moves th') : th'.Within (b - 1) ∧ 0 < b := by
  obtain ⟨hsorted, hphase⟩ := h
  cases hm with
  | @answer c k s a hph hr =>
    rw [hph] at hphase
    obtain ⟨m, hord, hle⟩ := hphase
    cases hord with
    | call habove hk =>
      -- the lock taken, if any, is above those held, so the locks stay in order
      have hheld := Call.held_next c th.state a
      have hlen : (c.next th.state a).held.length ≤ th.state.held.length + 1 := by
        rw [hheld, List.length_append]
        have := Option.length_toList_le (o := c.takes)
        omega
      refine ⟨⟨?_, _, hk _ _ hr, by dsimp only; omega⟩, by omega⟩
      dsimp only
      rw [hheld, List.pairwise_append]
      refine ⟨hsorted, ?_, fun v hv w hw => habove w (Option.mem_toList.mp hw) v hv⟩
      cases c.takes <;> simp
  | fail hph =>
    rw [hph] at hphase
    obtain ⟨m, hord, hle⟩ := hphase
    cases hord with
    | call _ _ => exact ⟨⟨hsorted, 0, .rollback, by dsimp only; omega⟩, by omega⟩
  | finish hph _ =>
    rw [hph] at hphase
    obtain ⟨m, -, hle⟩ := hphase
    exact ⟨⟨hsorted, by dsimp only; omega⟩, by omega⟩
  | release hph hheld =>
    rw [hph] at hphase
    rw [hheld] at hsorted hphase
    simp only [List.length_cons] at hphase
    exact ⟨⟨(List.pairwise_cons.mp hsorted).2, by simp only [hph]; omega⟩, by omega⟩
  | done hph hheld =>
    rw [hph] at hphase
    exact ⟨⟨by simp [hheld], hheld⟩, by omega⟩

end Thread

/-! ## Machines -/

namespace Machine

variable {n : Nat} {M M₀ : Machine n} {i : Fin n} {b : Fin n → Nat}

/-- Thread `i` can take its next step: it is not done, and no thread holds the lock its
next call asks for, if it asks for one. -/
def CanMove (M : Machine n) (i : Fin n) : Prop :=
  (M.threads i).phase ≠ .finished ∧ ∀ w, (M.threads i).wants = some w → M.Free w

/-- Thread `i` waits for thread `j`: it asks for a lock that `j` holds. -/
def WaitsFor (M : Machine n) (i j : Fin n) : Prop :=
  ∃ w, (M.threads i).wants = some w ∧ w ∈ (M.threads j).state.held

/-- Every thread within its budget in `b`, its locks taken in ascending order. -/
def Orderly (M : Machine n) (b : Fin n → Nat) : Prop := ∀ i, (M.threads i).Within (b i)

/-- A thread that can move moves: its step replaces it by what its move makes of it, and
changes nothing of the other threads. -/
theorem step_of_canMove (h : M.CanMove i) :
    ∃ (M₀ : Machine n) (th : Thread), M.step i = M₀.setThread i th ∧ M₀.threads = M.threads ∧
      (M.threads i).Moves th := by
  obtain ⟨hun, hfree⟩ := h
  dsimp only [step]
  split
  · contradiction
  · split
    · exact ⟨M, _, rfl, rfl, .done ‹_› ‹_›⟩
    · exact ⟨M, _, rfl, rfl, .release ‹_› ‹_›⟩
  · split
    · exact ⟨_, _, rfl, rfl, .finish ‹_› (.inl rfl)⟩
    · exact ⟨M, _, rfl, rfl, .finish ‹_› (.inl rfl)⟩
  · exact ⟨M, _, rfl, rfl, .finish ‹_› (.inr rfl)⟩
  · next c k hph =>
    -- a lock asked for is free, so the call is made
    have hnb : M.blocked c = false := by
      cases c with
      | acquire w =>
        have := hfree w (Thread.wants_eq_some.mpr ⟨k, hph⟩)
        simp [blocked, this]
      | _ => rfl
    rw [if_neg (by simp [hnb])]
    unfold answer
    split
    · exact ⟨M, _, rfl, rfl, .answer hph ‹_›⟩
    · exact ⟨M, _, rfl, rfl, .fail hph⟩

/-- A thread that cannot move stays where it is. -/
theorem step_of_not_canMove (h : ¬ M.CanMove i) : M.step i = M := by
  by_cases hfin : (M.threads i).phase = .finished
  · exact step_of_finished hfin
  · obtain ⟨w, hw, hbusy⟩ : ∃ w, (M.threads i).wants = some w ∧ ¬ M.Free w := by
      simpa [CanMove, hfin] using h
    obtain ⟨k, hph⟩ := Thread.wants_eq_some.mp hw
    rw [step_of_call hph]
    simp [blocked, hbusy]

/-- A wait given up is a move of a waiting thread, and otherwise nothing. -/
theorem cancel_cases : M.cancel i = M ∨
    ∃ th : Thread, M.cancel i = M.setThread i th ∧ (M.threads i).Moves th := by
  dsimp only [cancel]
  split
  · exact .inr ⟨_, rfl, .fail ‹_›⟩
  · exact .inl rfl

theorem Orderly.setThread (h : M.Orderly b) (hM : M₀.threads = M.threads) {th : Thread} {c : Nat}
    (hth : th.Within c) : (M₀.setThread i th).Orderly (Function.update b i c) := by
  intro j
  rw [setThread_threads]
  by_cases hj : j = i
  · subst hj
    simpa using hth
  · simpa [hj, hM] using h j

theorem Orderly.held_of_finished (h : M.Orderly b) (hfin : (M.threads i).phase = .finished) :
    (M.threads i).state.held = [] :=
  (h i).held_of_finished hfin

/-- **A thread that can move uses up its budget**: the machine stays orderly with a
smaller total. -/
theorem Orderly.step_lt (h : M.Orderly b) (hi : M.CanMove i) :
    (M.step i).Orderly (Function.update b i (b i - 1)) ∧
      ∑ j, Function.update b i (b i - 1) j < ∑ j, b j := by
  obtain ⟨M₀, th, hstep, hM, hmoves⟩ := step_of_canMove hi
  obtain ⟨hth, hpos⟩ := (h i).moves hmoves
  refine ⟨hstep ▸ h.setThread hM hth, Finset.sum_lt_sum (fun j _ => ?_) ⟨i, by simp, by simp; omega⟩⟩
  by_cases hj : j = i
  · subst hj
    simp
  · simp [hj]

/-- Every choice of the scheduler keeps the machine orderly. -/
theorem Orderly.perform (h : M.Orderly b) (ch : Choice n) : ∃ b', (M.perform ch).Orderly b' := by
  cases ch with
  | step i =>
    by_cases hi : M.CanMove i
    · exact ⟨_, (h.step_lt hi).1⟩
    · exact ⟨b, by simpa [Machine.perform, step_of_not_canMove hi] using h⟩
  | cancel i =>
    rcases cancel_cases (M := M) (i := i) with hc | ⟨th, hc, hmoves⟩
    · exact ⟨b, by simpa [Machine.perform, hc] using h⟩
    · exact ⟨_, by simpa [Machine.perform, hc] using h.setThread rfl ((h i).moves hmoves).1⟩

theorem Orderly.run (h : M.Orderly b) (schedule : List (Choice n)) :
    ∃ b', (M.run schedule).Orderly b' := by
  induction schedule generalizing M b with
  | nil => exact ⟨b, h⟩
  | cons ch rest ih =>
    obtain ⟨b', h'⟩ := h.perform ch
    exact ih h'

/-! ## No circle of waits -/

/-- Along a chain of waits, the lock the first thread asks for is at most some lock the
last thread holds: each thread holding a lock asked for waits, if at all, for a higher
one. -/
theorem Orderly.wanted_le_held (h : M.Orderly b) {i j : Fin n}
    (hij : Relation.TransGen M.WaitsFor i j) {w : String} (hw : (M.threads i).wants = some w) :
    ∃ v ∈ (M.threads j).state.held, w ≤ v := by
  induction hij with
  | single hij =>
    obtain ⟨w', hw', hheld⟩ := hij
    rw [hw, Option.some.injEq] at hw'
    exact ⟨w, hw' ▸ hheld, le_rfl⟩
  | tail _ hjk ih =>
    obtain ⟨v, hv, hwv⟩ := ih
    obtain ⟨w', hw', hheld⟩ := hjk
    exact ⟨w', hheld, le_of_lt (lt_of_le_of_lt hwv ((h _).wants_above hw' v hv))⟩

/-- **No circle of waiting threads**: a thread never waits, through others, for itself. -/
theorem Orderly.not_waitsFor_cycle (h : M.Orderly b) (i : Fin n) :
    ¬ Relation.TransGen M.WaitsFor i i := by
  intro hcycle
  obtain ⟨j, ⟨w, hw, -⟩, -⟩ := Relation.TransGen.head'_iff.mp hcycle
  obtain ⟨v, hv, hwv⟩ := h.wanted_le_held hcycle hw
  exact absurd ((h i).wants_above hw v hv) (not_lt.mpr hwv)

/-- **Some thread can always move** while a thread is unfinished. Were every unfinished
thread stuck, the one asking for the highest lock would wait for a thread that holds it,
which is unfinished, hence stuck too, asking for a lock higher still. -/
theorem Orderly.canMove (h : M.Orderly b) (hun : ∃ i, (M.threads i).phase ≠ .finished) :
    ∃ i, M.CanMove i := by
  classical
  by_contra hstuck
  push Not at hstuck
  have hwait : ∀ i, (M.threads i).phase ≠ .finished →
      ∃ w j, (M.threads i).wants = some w ∧ w ∈ (M.threads j).state.held := by
    intro i hi
    obtain ⟨w, hw, hbusy⟩ : ∃ w, (M.threads i).wants = some w ∧ ¬ M.Free w := by
      simpa [CanMove, hi] using hstuck i
    obtain ⟨j, hj⟩ : ∃ j, w ∈ (M.threads j).state.held := by simpa [Free] using hbusy
    exact ⟨w, j, hw, hj⟩
  let S := Finset.univ.filter fun i => (M.threads i).phase ≠ .finished
  obtain ⟨i, hiS, hmax⟩ := S.exists_max_image (fun i => ((M.threads i).wants).getD "")
    (by obtain ⟨i, hi⟩ := hun; exact ⟨i, by simpa [S] using hi⟩)
  obtain ⟨w, j, hw, hj⟩ := hwait i (by simpa [S] using hiS)
  have hjun : (M.threads j).phase ≠ .finished := fun hfin => by
    simp [h.held_of_finished hfin] at hj
  obtain ⟨w', -, hw', -⟩ := hwait j hjun
  have hle := hmax j (by simpa [S] using hjun)
  simp only [hw, hw', Option.getD_some] at hle
  exact absurd ((h j).wants_above hw' w hj) (not_lt.mpr hle)

/-- **Every run can be finished**: from an orderly machine, some further schedule brings
every thread to its end. Each step of a thread that can move uses up its budget, and
one can always move while a thread is unfinished. -/
theorem Orderly.finishes (h : M.Orderly b) :
    ∃ more : List (Choice n), ∀ i, ((M.run more).threads i).phase = .finished := by
  induction hN : ∑ j, b j using Nat.strong_induction_on generalizing M b with
  | _ N ih =>
    by_cases hdone : ∀ i, (M.threads i).phase = .finished
    · exact ⟨[], hdone⟩
    · push Not at hdone
      obtain ⟨i, hi⟩ := h.canMove hdone
      obtain ⟨h', hlt⟩ := h.step_lt hi
      obtain ⟨more, hmore⟩ := ih _ (hN ▸ hlt) h' rfl
      exact ⟨.step i :: more, hmore⟩

end Machine

/-- **Engine transactions never deadlock.** Run any engine transactions together from
any store, under any schedule of steps and given-up waits. Every thread holds its locks in
strictly ascending order of wallet id and asks only for a lock above them all; a finished
thread holds no lock; no thread waits, through others, for itself; while some thread is
unfinished, some thread can take its next step; and some further schedule finishes every
thread, each having given back all its locks. -/
theorem EngineTx.interleavings_deadlockFree {n : Nat} (s₀ : Store) (txs : Fin n → EngineTx)
    (schedule : List (Choice n)) :
    let M := (Machine.start s₀ fun i => (txs i).body).run schedule
    (∀ i, (M.threads i).state.held.Pairwise (· < ·)) ∧
    (∀ i w, (M.threads i).wants = some w → ∀ v ∈ (M.threads i).state.held, v < w) ∧
    (∀ i, (M.threads i).phase = .finished → (M.threads i).state.held = []) ∧
    (∀ i, ¬ Relation.TransGen M.WaitsFor i i) ∧
    ((∃ i, (M.threads i).phase ≠ .finished) → ∃ i, M.CanMove i) ∧
    ∃ more : List (Choice n), ∀ i, ((M.run more).threads i).phase = .finished ∧
      ((M.run more).threads i).state.held = [] := by
  intro M
  -- every thread starts with its whole transaction ahead and no lock
  choose m hm using fun i => (txs i).ordered_body
  have hstart : (Machine.start s₀ fun i => (txs i).body).Orderly fun i => 2 * m i + 2 :=
    fun i => ⟨by simp [Machine.start, TxState.empty], m i, hm i, by simp [Machine.start, TxState.empty]⟩
  obtain ⟨b, hM⟩ := hstart.run schedule
  obtain ⟨more, hmore⟩ := hM.finishes
  obtain ⟨b', hend⟩ := hM.run more
  exact ⟨fun i => (hM i).1, fun i _ hw => (hM i).wants_above hw, fun i => hM.held_of_finished,
    hM.not_waitsFor_cycle, hM.canMove,
    more, fun i => ⟨hmore i, hend.held_of_finished (hmore i)⟩⟩

end OnrampLedger
