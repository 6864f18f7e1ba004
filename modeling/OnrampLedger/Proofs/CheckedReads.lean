import OnrampLedger.Proofs.IntegrityFlags
import OnrampLedger.Service.CheckedReads

/-!
# Checked reads among concurrent commits

A checked read reads a wallet's row and then, in a second store call, the sums of the
wallet's entries (`ReadStage`). In a store that agrees with its ledger the two match. But
the engine's transactions commit between the read's calls (`Observed`), and a commit that
writes an entry of the wallet after its row was read and before its sums were is seen by
the sums and not by the row: it *tears* that attempt (`Observed.torn`).

Every store that the engine's transactions reach from an agreeing store agrees
(`Machine.Agreement`), so an attempt that no commit tore answers the row it read. Each
failed attempt is therefore paid for by a commit that tore it (`ReadStage.Paid`), and a
read refuses only when all `selfCheckAttempts` of its attempts were torn. With fewer
commits tearing them, a read of an existing wallet answers the wallet. Three credits,
each committed between a row read and its sums, make a read of a consistent wallet
refuse.

## Main results

* `ReadStage.alone_get` — a read that no commit interrupts answers as `Wallets.get`.
* `Observed.Paid.run` — along every schedule, each failed attempt of the read was torn
  by a commit that the schedule counts.
* `EngineTx.checkedRead_answers` — with fewer tearing commits than attempts, a read of
  an existing wallet answers the wallet, and has answered once it has made its calls.
* `EngineTx.checkedRead_torn_thrice` — three tearing commits make a read of a consistent
  wallet refuse.
-/

namespace OnrampLedger

open Std.Do

set_option mvcgen.warning false

/-! ## What a commit changes of a wallet -/

namespace Machine

variable {n : Nat}

/-- Whether the scheduler's choice commits a transaction that writes the wallet `id`:
its balance, an entry of it, or its review flag. -/
def commitsTo (M : Machine n) (id : String) : Choice n → Bool
  | .step i =>
    match (M.threads i).phase with
    | .running .commit =>
      (M.store.commit? (M.threads i).state.writes).isSome &&
        (M.threads i).state.writes.any (·.wallet == some id)
    | _ => false
  | .cancel _ => false

theorem store_cancel (M : Machine n) (i : Fin n) : (M.cancel i).store = M.store := by
  unfold cancel
  dsimp only
  split <;> rfl

/-- A thread's step changes the store only as the commit of its transaction. -/
theorem store_step (M : Machine n) (i : Fin n) :
    (M.step i).store = M.store ∨ ((M.threads i).phase = .running .commit ∧
      M.store.commit? (M.threads i).state.writes = some (M.step i).store) := by
  unfold step
  dsimp only
  split
  · exact .inl rfl
  · split <;> exact .inl rfl
  · next hph =>
    split
    · next s hs => exact .inr ⟨hph, hs⟩
    · exact .inl rfl
  · exact .inl rfl
  · split
    · exact .inl rfl
    · unfold answer
      split <;> exact .inl rfl

/-- **A wallet's entries change only at a commit to the wallet.** -/
theorem entriesOf_perform (M : Machine n) (id : String) (c : Choice n) :
    (M.perform c).store.entriesOf id = M.store.entriesOf id ∨ M.commitsTo id c = true := by
  cases c with
  | cancel i => exact .inl (by rw [perform, store_cancel])
  | step i =>
    rcases store_step M i with hs | ⟨hph, hs⟩
    · exact .inl (by rw [perform, hs])
    · by_cases hto : (M.threads i).state.writes.any (·.wallet == some id) = true
      · exact .inr (by simp [commitsTo, hph, hs, hto])
      · refine .inl ?_
        rw [perform, (Store.commit?_eq_some hs).2]
        exact Store.entriesOf_foldl (by simpa using hto)

/-- No step adds, removes or renames a wallet, or changes its owner or currency. -/
theorem walletKeys_perform (M : Machine n) (c : Choice n) :
    (M.perform c).store.wallets.map Wallet.keys = M.store.wallets.map Wallet.keys := by
  rcases perform_store M c with ⟨hs, -⟩ | ⟨i, -, hs, -⟩
  · rw [hs]
  · rw [(Store.commit?_eq_some hs).2, Store.foldl_walletKeys]

end Machine

/-! ## Lookups -/

namespace WalletLookup

/-- The row a lookup finds is one of the store's wallets. -/
theorem mem_of_find {look : WalletLookup} {s : Store} {w : Wallet} (h : look.find s = some w) :
    w ∈ s.wallets := by
  cases look <;> exact List.mem_of_find?_eq_some h

/-- A lookup reads only the ids, owners and currencies of the wallets: stores that agree
on those find rows with the same id. -/
theorem find_id_of_keys {s s' : Store} (h : s'.wallets.map Wallet.keys = s.wallets.map Wallet.keys)
    (look : WalletLookup) : (look.find s').map (·.id) = (look.find s).map (·.id) := by
  have hkeys : ∀ p : String × String × String → Bool,
      (s'.wallets.find? (p ∘ Wallet.keys)).map Wallet.keys =
        (s.wallets.find? (p ∘ Wallet.keys)).map Wallet.keys := by
    intro p
    rw [← List.find?_map, ← List.find?_map, h]
  cases look with
  | byId id =>
    have hid := congrArg (Option.map Prod.fst) (hkeys fun k => k.1 == id)
    simpa [find, Store.wallet?, Option.map_map, Function.comp_def, Wallet.keys] using hid
  | byUser user =>
    have hid := congrArg (Option.map Prod.fst) (hkeys fun k => k.2.1 == user)
    simpa [find, Store.walletOfUser?, Option.map_map, Function.comp_def, Wallet.keys] using hid

end WalletLookup

/-! ## A read that nothing interrupts -/

/-- A checked read of a row answers the row when its balance is the credits less the
debits of its entries, refuses it otherwise, and answers a missing row as not found; it
changes nothing. -/
theorem Wallets.checked_spec (W₀ : World) (w? : Option Wallet) :
    ⦃fun W => ⌜W = W₀⌝⦄ Wallets.checked w?
    ⦃post⟨fun w W => ⌜W = W₀ ∧ w? = some w ∧ w.balance = W₀.store.ledgerBalance w.id⌝,
      fun e W => ⌜W = W₀ ∧ (w? = none ∧ e = .walletNotFound ∨
        ∃ w, w? = some w ∧ w.balance ≠ W₀.store.ledgerBalance w.id ∧ e = .integrityViolation)⌝⟩⦄ := by
  mvcgen [Wallets.checked]
  all_goals simp_all

namespace ReadStage

/-- A read that no commit interrupts answers, after its calls, what `Wallets.checked`
answers of the row the lookup finds: all its attempts read the one store. -/
theorem alone (look : WalletLookup) (W : World) :
    (next look W.store)^[2 * selfCheckAttempts] start =
      .answered ((Wallets.checked (look.find W.store)).exec W).1 := by
  have hends := Op.ends_of_triple (Wallets.checked_spec W (look.find W.store)) rfl
  simp only [selfCheckAttempts, start, Function.iterate_succ, Function.comp_apply,
    Function.iterate_zero, id_eq]
  revert hends
  rcases (Wallets.checked (look.find W.store)).exec W with ⟨_ | w, W'⟩
  · rintro ⟨-, ⟨hnone, rfl⟩ | ⟨w, hw, hne, rfl⟩⟩
    · simp [next, hnone]
    · simp [next, hw, hne]
  · rintro ⟨-, hw, heq⟩
    simp [next, hw, heq]

theorem alone_get (id : String) (W : World) :
    (next (.byId id) W.store)^[2 * selfCheckAttempts] start = .answered ((Wallets.get id).exec W).1 :=
  alone (.byId id) W

theorem alone_getOfUser (user : String) (W : World) :
    (next (.byUser user) W.store)^[2 * selfCheckAttempts] start =
      .answered ((Wallets.getOfUser user).exec W).1 :=
  alone (.byUser user) W

end ReadStage

/-! ## The account of torn attempts -/

namespace ReadStage

/-- What a read owes to the commits, `k` of them, that tore its attempts, in store `s`.
Every attempt that failed was torn. A row read is the row the lookup finds, and matches
its sums in `s` unless the attempt in progress was torn too. A read refuses only once
all its attempts were torn, or when its wallet is not there. -/
def Paid (look : WalletLookup) (s : Store) (k : Nat) : ReadStage → Prop
  | .row left => selfCheckAttempts - left ≤ k
  | .sums left w => (look.find s).map (·.id) = some w.id ∧
      (selfCheckAttempts - left < k ∨
        selfCheckAttempts - left ≤ k ∧ w.balance = s.ledgerBalance w.id)
  | .answered (.ok w) => (look.find s).map (·.id) = some w.id
  | .answered (.error e) =>
    e = .integrityViolation ∧ selfCheckAttempts ≤ k ∨ e = .walletNotFound ∧ look.find s = none

/-- Whether the threads' choice `c` tears the attempt in progress: it commits to the
wallet whose row the read has read and whose sums it has not. -/
def tornBy {n : Nat} (M : Machine n) (c : Choice n) : ReadStage → Bool
  | .sums _ w => M.commitsTo w.id c
  | _ => false

/-- Whether a read is still to answer, with an attempt left at each of its stages. -/
def Live : ReadStage → Prop
  | .row left | .sums left _ => 1 ≤ left
  | .answered _ => True

/-- The calls a live read has left at most. -/
def callsLeft : ReadStage → Nat
  | .row left => 2 * left
  | .sums left _ => 2 * left - 1
  | .answered _ => 0

variable {look : WalletLookup} {s : Store} {k : Nat} {r : ReadStage}

theorem paid_start : start.Paid look s 0 := Nat.le_refl _

theorem live_start : start.Live := show 1 ≤ selfCheckAttempts by decide

/-- **A read's call keeps its account** in a store that agrees with its ledger: a row read
there matches its sums, so an attempt fails only when a commit tore it. -/
theorem Paid.next (h : r.Paid look s k) (hs : s.Agrees) : (r.next look s).Paid look s k := by
  cases r with
  | row left =>
    simp only [ReadStage.next]
    split
    · next hnone => exact .inr ⟨rfl, hnone⟩
    · next w hw =>
      exact ⟨by simp [hw], .inr ⟨h, (hs.balance_eq (WalletLookup.mem_of_find hw)).1⟩⟩
  | sums left w =>
    obtain ⟨hid, hpaid⟩ := h
    simp only [ReadStage.next]
    split
    · exact hid
    · next hne =>
      -- the sums disagree with the row read, so a commit tore this attempt
      have htorn : selfCheckAttempts - left < k := by
        rcases hpaid with htorn | ⟨-, heq⟩
        · exact htorn
        · exact absurd (beq_iff_eq.mpr heq) hne
      split
      · exact .inl ⟨rfl, by simp only [selfCheckAttempts] at htorn ⊢; omega⟩
      · show selfCheckAttempts - (left - 1) ≤ k
        simp only [selfCheckAttempts] at htorn ⊢
        omega
  | answered a => exact h

/-- **A step of the threads keeps a read's account**, counting the step when it commits to
the wallet whose sums the read is about to read. -/
theorem Paid.perform {n : Nat} {M : Machine n} (h : r.Paid look M.store k) (c : Choice n) :
    r.Paid look (M.perform c).store (k + (r.tornBy M c).toNat) := by
  have hids := WalletLookup.find_id_of_keys (M.walletKeys_perform c) look
  cases r with
  | row left => exact Nat.le_add_right_of_le h
  | sums left w =>
    obtain ⟨hid, hpaid⟩ := h
    refine ⟨hids.trans hid, ?_⟩
    rcases M.entriesOf_perform w.id c with hsame | hcommit
    · -- the wallet's entries stay, and with them its sums
      have hsums : (M.perform c).store.ledgerBalance w.id = M.store.ledgerBalance w.id := by
        simp only [Store.ledgerBalance, hsame]
      rw [hsums]
      rcases hpaid with htorn | ⟨hle, heq⟩
      · exact .inl (by omega)
      · exact .inr ⟨by omega, heq⟩
    · -- the commit tears the attempt
      refine .inl ?_
      simp only [tornBy, hcommit, Bool.toNat_true]
      rcases hpaid with htorn | ⟨hle, -⟩ <;> omega
  | answered a =>
    cases a with
    | ok w => exact hids.trans h
    | error e =>
      rcases h with ⟨rfl, hk⟩ | ⟨rfl, hnone⟩
      · exact .inl ⟨rfl, by omega⟩
      · refine .inr ⟨rfl, ?_⟩
        cases hfind : look.find (M.perform c).store with
        | none => rfl
        | some v => simp [hfind, hnone] at hids

theorem Live.next (h : r.Live) : (r.next look s).Live := by
  cases r with
  | row left =>
    simp only [ReadStage.next]
    split <;> trivial
  | sums left w =>
    simp only [ReadStage.next]
    split
    · trivial
    · split
      · trivial
      · show 1 ≤ left - 1
        omega
  | answered a => trivial

/-- Each call of a live read brings it a call closer to its answer. -/
theorem Live.callsLeft_next (h : r.Live) (hr : ∀ a, r ≠ .answered a) :
    (r.next look s).callsLeft < r.callsLeft := by
  cases r with
  | row left =>
    have hleft : 1 ≤ left := h
    simp only [ReadStage.next]
    split <;> simp only [callsLeft] <;> omega
  | sums left w =>
    have hleft : 1 ≤ left := h
    simp only [ReadStage.next]
    split
    · simp only [callsLeft]
      omega
    · split <;> simp only [callsLeft] <;> omega
  | answered a => exact absurd rfl (hr a)

end ReadStage

/-! ## The read among the engine's transactions -/

namespace Observed

variable {n : Nat} {look : WalletLookup}

/-- Whether a turn tears the read's attempt in progress. -/
def tears (O : Observed n) : Turn n → Bool
  | .engine c => O.stage.tornBy O.machine c
  | .read => false

/-- The commits along a schedule that tear the read's attempts: each commits to the
wallet after the read read its row and before it read the sums of its entries. -/
def torn (look : WalletLookup) : Observed n → List (Turn n) → Nat
  | _, [] => 0
  | O, t :: ts => (O.tears t).toNat + torn look (O.perform look t) ts

@[simp] theorem run_nil (O : Observed n) : O.run look [] = O := rfl

@[simp] theorem run_cons (O : Observed n) (t : Turn n) (ts : List (Turn n)) :
    O.run look (t :: ts) = (O.perform look t).run look ts := rfl

/-- Once answered, a read keeps its answer. -/
theorem run_answered {O : Observed n} {a : Except Error Wallet} (ha : O.stage = .answered a)
    (schedule : List (Turn n)) : (O.run look schedule).stage = .answered a := by
  induction schedule generalizing O with
  | nil => exact ha
  | cons t ts ih =>
    apply ih
    cases t with
    | engine c => exact ha
    | read => simp [perform, ha, ReadStage.next]

/-- **A read answers once it had its calls**: a live read given as many turns as it has
calls left has answered, whatever the threads did in between. -/
theorem answered_of_reads {O : Observed n} (hlive : O.stage.Live) (schedule : List (Turn n))
    (hreads : O.stage.callsLeft ≤ (schedule.filter Turn.isRead).length) :
    ∃ a, (O.run look schedule).stage = .answered a := by
  induction schedule generalizing O with
  | nil =>
    -- no turn left: a read still to answer would have calls left
    rcases hst : O.stage with left | ⟨left, w⟩ | a
    · simp only [hst, ReadStage.Live] at hlive
      simp only [hst, ReadStage.callsLeft, List.filter_nil, List.length_nil] at hreads
      omega
    · simp only [hst, ReadStage.Live] at hlive
      simp only [hst, ReadStage.callsLeft, List.filter_nil, List.length_nil] at hreads
      omega
    · exact ⟨a, by simp [hst]⟩
  | cons t ts ih =>
    cases t with
    | engine c => exact ih hlive (by simpa [Turn.isRead, perform] using hreads)
    | read =>
      by_cases hans : ∃ a, O.stage = .answered a
      · obtain ⟨a, ha⟩ := hans
        exact ⟨a, run_answered ha (.read :: ts)⟩
      · -- the call brings the read closer to its answer, and uses up one of its turns
        have hless : (O.stage.next look O.machine.store).callsLeft < O.stage.callsLeft :=
          hlive.callsLeft_next fun a ha => hans ⟨a, ha⟩
        have hcount : ((Turn.read :: ts).filter Turn.isRead).length =
            (ts.filter Turn.isRead).length + 1 := rfl
        rw [hcount] at hreads
        exact ih hlive.next (show (O.stage.next look O.machine.store).callsLeft ≤ _ by omega)

/-- No turn adds, removes or renames a wallet. -/
theorem walletKeys_run (look : WalletLookup) (O : Observed n) (schedule : List (Turn n)) :
    (O.run look schedule).machine.store.wallets.map Wallet.keys =
      O.machine.store.wallets.map Wallet.keys := by
  induction schedule generalizing O with
  | nil => rfl
  | cons t ts ih =>
    rw [run_cons, ih]
    cases t with
    | engine c => exact O.machine.walletKeys_perform c
    | read => rfl

variable {s₀ : Store} {txs : Fin n → Tx} {fresh : Fin n → Option String} {O : Observed n}
  {k : Nat}

/-- The account of a read among threads that keep the store agreeing with its ledger:
`k` commits tore its attempts. -/
structure Paid (s₀ : Store) (txs : Fin n → Tx) (fresh : Fin n → Option String)
    (look : WalletLookup) (O : Observed n) (k : Nat) : Prop where
  agreement : O.machine.Agreement s₀ txs fresh
  paid : O.stage.Paid look O.machine.store k
  live : O.stage.Live

/-- **Every turn keeps the read's account**, counting the commit that tears its attempt. -/
theorem Paid.perform (h : O.Paid s₀ txs fresh look k)
    (hd : ∀ i, (txs i).Disciplined (fresh i) TxState.empty)
    (hf : ∀ i, (txs i).Faithful TxState.empty)
    (hfresh : ∀ i j, ∀ x ∈ fresh i, x ∈ fresh j → i = j) (t : Turn n) :
    (O.perform look t).Paid s₀ txs fresh look (k + (O.tears t).toNat) := by
  cases t with
  | engine c => exact ⟨h.agreement.perform hd hf hfresh c, h.paid.perform c, h.live⟩
  | read => exact ⟨h.agreement, h.paid.next h.agreement.agrees, h.live.next⟩

/-- **Along every schedule the read's account holds**, with every tearing commit counted. -/
theorem Paid.run (h : O.Paid s₀ txs fresh look k)
    (hd : ∀ i, (txs i).Disciplined (fresh i) TxState.empty)
    (hf : ∀ i, (txs i).Faithful TxState.empty)
    (hfresh : ∀ i j, ∀ x ∈ fresh i, x ∈ fresh j → i = j) (schedule : List (Turn n)) :
    (O.run look schedule).Paid s₀ txs fresh look (k + O.torn look schedule) := by
  induction schedule generalizing O k with
  | nil => exact h
  | cons t ts ih =>
    have hrest := ih (h.perform hd hf hfresh t)
    rwa [run_cons, torn, ← Nat.add_assoc]

end Observed

/-- **A checked read answers the wallet while fewer commits than its attempts tear
them.** Under every schedule of any number of the engine's transactions, each with its
own unused id for a new payment row, and one checked read, by id or by owner, from a
store that agrees with its ledger (as balanced books do, `Books.agrees`) and holds the
wallet: when fewer than `selfCheckAttempts` commits to the wallet land between a row
read of the read and the sums read after it, the read refuses nothing. What it answers is
the row of the wallet the lookup finds, and it has answered once the schedule gave it
its `2 * selfCheckAttempts` calls. -/
theorem EngineTx.checkedRead_answers (n : Nat) (s₀ : Store) (txs : Fin n → EngineTx)
    (look : WalletLookup) (schedule : List (Turn n))
    (hfresh : ∀ i j, ∀ x ∈ (txs i).newRow, x ∈ (txs j).newRow → i = j)
    (hunused : ∀ i, ∀ x ∈ (txs i).newRow, x ∉ s₀.webhooks.map (·.id))
    (hnodup : (s₀.webhooks.map (·.id)).Nodup) (hagrees : s₀.Agrees)
    (hfound : (look.find s₀).isSome)
    (htorn : (Observed.start s₀ fun i => (txs i).body).torn look schedule < selfCheckAttempts) :
    let O := (Observed.start s₀ fun i => (txs i).body).run look schedule
    (∀ a, O.stage = .answered a →
      ∃ w, a = .ok w ∧ (look.find O.machine.store).map (·.id) = some w.id) ∧
    (2 * selfCheckAttempts ≤ (schedule.filter Turn.isRead).length →
      ∃ w, O.stage = .answered (.ok w)) := by
  intro O
  have hstart : (Observed.start s₀ fun i => (txs i).body).Paid s₀ (fun i => (txs i).body)
      (fun i => (txs i).newRow) look 0 :=
    ⟨.start hunused hnodup hagrees, ReadStage.paid_start, ReadStage.live_start⟩
  have hpaid := hstart.run (fun i => (txs i).disciplined_body) (fun i => (txs i).faithful_body)
    hfresh schedule
  rw [Nat.zero_add] at hpaid
  -- the wallet is still there: no commit removes one
  have hstays : (look.find O.machine.store).isSome := by
    have hids := congrArg Option.isSome
      (WalletLookup.find_id_of_keys
        (Observed.walletKeys_run look (Observed.start s₀ fun i => (txs i).body) schedule) look)
    simp only [Option.isSome_map] at hids
    exact hids.trans hfound
  have hanswer : ∀ a, O.stage = .answered a →
      ∃ w, a = .ok w ∧ (look.find O.machine.store).map (·.id) = some w.id := by
    intro a ha
    have hp := hpaid.paid
    rw [ha] at hp
    cases a with
    | ok w => exact ⟨w, rfl, hp⟩
    | error e =>
      rcases hp with ⟨-, hk⟩ | ⟨-, hnone⟩
      · exact absurd hk (by omega)
      · -- the wallet is still there, so the read did not find it missing
        have hmissing : look.find O.machine.store = none := hnone
        simp [hmissing] at hstays
  refine ⟨hanswer, fun hreads => ?_⟩
  obtain ⟨a, ha⟩ : ∃ a, O.stage = .answered a :=
    Observed.answered_of_reads ReadStage.live_start schedule hreads
  obtain ⟨w, rfl, -⟩ := hanswer a ha
  exact ⟨w, ha⟩

/-! ## Reads torn once and thrice -/

/-- A stage seen to answer a refusal answers it: the form in which a run's stage is checked
by evaluation. -/
theorem ReadStage.eq_answered_error {r : ReadStage} {e : Error}
    (h : (match r with | .answered (.error e') => decide (e' = e) | _ => false) = true) :
    r = .answered (.error e) := by
  split at h
  · next e' => rw [of_decide_eq_true h]
  · cases h

theorem Store.oneEmptyWallet_booksBalance : Store.oneEmptyWallet.BooksBalance := by
  refine ⟨?_, ?_, ?_, by simp [Store.oneEmptyWallet]⟩ <;>
  · intro w hw
    simp only [Store.oneEmptyWallet, List.mem_singleton] at hw
    subst hw
    decide

/-- Operators' credits of 5 to the wallet `w1` of `Store.oneEmptyWallet`, each under its
own reference. -/
def EngineTx.creditsOfFive (n : Nat) (i : Fin n) : EngineTx :=
  .credit ⟨"w1", 5, "", "r" ++ toString i.val, "", "admin", "", false, ⟨"a1", "admin"⟩⟩
    ("e" ++ toString i.val) default

/-- The read reads the row; credit `i` runs to its end, its commit landing before the
read reads the sums; the read reads the sums and, finding them moved, the row again. -/
def Turn.tearWith {n : Nat} (i : Fin n) : List (Turn n) :=
  .read :: List.replicate 9 (.engine (.step i)) ++ [.read]

theorem EngineTx.checkedRead_answers_tornOnce :
    let O := Observed.start Store.oneEmptyWallet fun i => (EngineTx.creditsOfFive 1 i).body
    let schedule := Turn.tearWith 0 ++ List.replicate 4 .read
    O.torn (.byId "w1") schedule = 1 ∧ ∃ w, (O.run (.byId "w1") schedule).stage = .answered (.ok w) := by
  intro O schedule
  have htorn : O.torn (.byId "w1") schedule = 1 := by decide +kernel
  refine ⟨htorn, (EngineTx.checkedRead_answers 1 Store.oneEmptyWallet (EngineTx.creditsOfFive 1)
    (.byId "w1") schedule (by decide) (by decide) List.nodup_nil Store.oneEmptyWallet_agrees
    (by decide +kernel) (by rw [htorn]; decide)).2 (by decide +kernel)⟩

/-- **A read of a consistent wallet refuses when three commits tear its attempts.** From
one wallet with balanced books (no entries, balance zero), three credits of 5, each
committed between one of the read's row reads and the sums read after it, make each
attempt see the row one credit behind its sums, and the read answers an integrity
violation. -/
theorem EngineTx.checkedRead_torn_thrice :
    let O := Observed.start Store.oneEmptyWallet fun i => (EngineTx.creditsOfFive 3 i).body
    let schedule := Turn.tearWith 0 ++ Turn.tearWith 1 ++ Turn.tearWith 2
    Store.oneEmptyWallet.BooksBalance ∧ O.torn (.byId "w1") schedule = 3 ∧
      (O.run (.byId "w1") schedule).stage = .answered (.error .integrityViolation) := by
  intro O schedule
  exact ⟨Store.oneEmptyWallet_booksBalance, by decide +kernel,
    ReadStage.eq_answered_error (by decide +kernel)⟩

end OnrampLedger
