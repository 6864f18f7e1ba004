import OnrampLedger.Store.Transaction

/-!
# Transactions running together

Any number of threads, each running one transaction over one store. A scheduler picks,
step by step, which thread moves; a step is one store call, a commit, or giving back
one lock. Nothing is assumed about the scheduler: every order of steps is a run.

A thread that calls for a lock another thread holds (or that it holds itself: the lock
is a slot, not a count) does not move until the lock is free. Its wait may instead end
in an error, when its time runs out or its caller gives up (`Choice.cancel`); its
transaction then rolls back like any other that got an error.

A commit is one step: its checks and its writes happen under the store's write lock.
The locks are given back afterwards, one step each, so the writes are in the store
before any waiting thread gets a lock. The machine records the transactions that
committed, in the order they did (`Machine.committed`).
-/

namespace OnrampLedger

/-- Where a thread's transaction stands. -/
inductive Phase where
  /-- Running, with what remains of it. -/
  | running (tx : Tx)
  /-- Committed or rolled back, and giving back its locks. -/
  | releasing
  /-- Done, holding no lock. -/
  | finished

/-- A thread running one transaction. -/
structure Thread where
  /-- The transaction as it began. -/
  body : Tx
  phase : Phase
  state : TxState

/-- What a scheduler may do next. -/
inductive Choice (n : Nat) where
  /-- Thread `i` takes its next step, if it can. -/
  | step (i : Fin n)
  /-- Thread `i`'s wait for a lock ends with an error. -/
  | cancel (i : Fin n)

/-- `n` threads over one store. -/
structure Machine (n : Nat) where
  store : Store
  threads : Fin n → Thread
  /-- The transactions that committed, in the order they did. -/
  committed : List Tx

namespace Machine

variable {n : Nat}

/-- Every thread at the start of its transaction. -/
def start (s : Store) (txs : Fin n → Tx) : Machine n :=
  ⟨s, fun i => ⟨txs i, .running (txs i), TxState.empty⟩, []⟩

/-- The machine with thread `i` replaced. -/
def setThread (M : Machine n) (i : Fin n) (th : Thread) : Machine n :=
  { M with threads := fun j => if j = i then th else M.threads j }

@[simp] theorem setThread_store (M : Machine n) (i : Fin n) (th : Thread) :
    (M.setThread i th).store = M.store := rfl

@[simp] theorem setThread_committed (M : Machine n) (i : Fin n) (th : Thread) :
    (M.setThread i th).committed = M.committed := rfl

theorem setThread_threads (M : Machine n) (i : Fin n) (th : Thread) (j : Fin n) :
    (M.setThread i th).threads j = if j = i then th else M.threads j := rfl

/-- No thread holds the lock on `wallet`. -/
def Free (M : Machine n) (wallet : String) : Prop := ∀ j, wallet ∉ (M.threads j).state.held

instance (M : Machine n) (wallet : String) : Decidable (M.Free wallet) :=
  inferInstanceAs (Decidable (∀ j, wallet ∉ (M.threads j).state.held))

/-- The call must wait: it asks for a lock some thread holds. -/
def blocked (M : Machine n) : Call → Bool
  | .acquire w => !decide (M.Free w)
  | _ => false

/-- Thread `i`, in state `th`, makes the call `c`, continuing with `k`: a failed call
rolls the transaction back. -/
def answer (M : Machine n) (i : Fin n) (th : Thread) (c : Call) (k : c.Answer → Tx) : Machine n :=
  match c.result M.store th.state with
  | some a => M.setThread i { th with phase := .running (k a), state := c.next th.state a }
  | none => M.setThread i { th with phase := .running .rollback }

/-- Thread `i` takes its next step, or stays where it is if it must wait. -/
def step (M : Machine n) (i : Fin n) : Machine n :=
  let th := M.threads i
  match th.phase with
  | .finished => M
  | .releasing =>
    match th.state.held with
    | [] => M.setThread i { th with phase := .finished }
    | _ :: rest => M.setThread i { th with state := { th.state with held := rest } }
  | .running .commit =>
    match M.store.commit? th.state.writes with
    | some s =>
      { M with store := s, committed := M.committed ++ [th.body] }.setThread i
        { th with phase := .releasing }
    | none => M.setThread i { th with phase := .releasing }
  | .running .rollback => M.setThread i { th with phase := .releasing }
  | .running (.call c k) => if M.blocked c then M else M.answer i th c k

variable {M : Machine n} {i : Fin n}

theorem answer_of_some {th : Thread} {c : Call} {k : c.Answer → Tx} {a : c.Answer}
    (h : c.result M.store th.state = some a) :
    M.answer i th c k = M.setThread i { th with phase := .running (k a), state := c.next th.state a } := by
  simp only [answer, h]

theorem answer_of_none {th : Thread} {c : Call} {k : c.Answer → Tx}
    (h : c.result M.store th.state = none) :
    M.answer i th c k = M.setThread i { th with phase := .running .rollback } := by
  simp only [answer, h]

theorem step_of_finished (h : (M.threads i).phase = .finished) : M.step i = M := by
  simp only [step, h]

theorem step_of_rollback (h : (M.threads i).phase = .running .rollback) :
    M.step i = M.setThread i { M.threads i with phase := .releasing } := by
  simp only [step, h]

theorem step_of_call {c : Call} {k : c.Answer → Tx} (h : (M.threads i).phase = .running (.call c k)) :
    M.step i = if M.blocked c then M else M.answer i (M.threads i) c k := by
  simp only [step, h]

theorem step_of_commit {s : Store} (h : (M.threads i).phase = .running .commit)
    (hs : M.store.commit? (M.threads i).state.writes = some s) :
    M.step i = { M with store := s, committed := M.committed ++ [(M.threads i).body] }.setThread i
      { M.threads i with phase := .releasing } := by
  simp only [step, h, hs]

/-- A thread giving back its locks stays out of the running. -/
theorem step_of_releasing (h : (M.threads i).phase = .releasing) :
    ∃ th : Thread, M.step i = M.setThread i th ∧ (∀ tx, th.phase ≠ .running tx) ∧
      th.body = (M.threads i).body ∧ ∀ w ∈ th.state.held, w ∈ (M.threads i).state.held := by
  simp only [step, h]
  split
  · exact ⟨_, rfl, by simp, rfl, fun _ hw => hw⟩
  · next rest hheld => exact ⟨_, rfl, by simp, rfl, fun _ hw => by simp [hheld, hw]⟩

/-- Thread `i`'s wait for a lock ends with an error, if it is waiting for one. -/
def cancel (M : Machine n) (i : Fin n) : Machine n :=
  let th := M.threads i
  match th.phase with
  | .running (.call (.acquire _) _) => M.setThread i { th with phase := .running .rollback }
  | _ => M

/-- What the scheduler's choice does. -/
def perform (M : Machine n) : Choice n → Machine n
  | .step i => M.step i
  | .cancel i => M.cancel i

/-- The machine after a schedule. -/
def run (M : Machine n) (schedule : List (Choice n)) : Machine n := schedule.foldl perform M

@[simp] theorem run_nil (M : Machine n) : M.run [] = M := rfl

@[simp] theorem run_cons (M : Machine n) (c : Choice n) (schedule : List (Choice n)) :
    M.run (c :: schedule) = (M.perform c).run schedule := rfl

end Machine

end OnrampLedger
