import OnrampLedger.Store.Interleaving
import OnrampLedger.Service.Wallets

/-!
# Checked reads, call by call

A checked read of a wallet (`Wallets.get`, `Wallets.getOfUser`) makes two store calls
and holds no lock between them: it reads the wallet's row, then the credits and the
debits of the wallet's entries. A commit of another thread can land between the two, so
that the row and the sums disagree although every store the read saw agreed with its
ledger. The read then tries again, `selfCheckAttempts` times in all, and refuses with an
integrity violation when every attempt disagreed.

`ReadStage` is where such a read stands between its calls and `ReadStage.next` its next
call, made against the store as it then stands. `Observed` runs one read together with
the engine's transactions (`Machine`): at each turn the scheduler moves either a
transaction's thread or the read.
-/

namespace OnrampLedger

/-- How a checked read finds its wallet: by its id, or by its owner. -/
inductive WalletLookup where
  | byId (id : String)
  | byUser (user : String)

/-- The wallet row the lookup finds in store `s`. -/
def WalletLookup.find (s : Store) : WalletLookup → Option Wallet
  | .byId id => s.wallet? id
  | .byUser user => s.walletOfUser? user

/-- How many times a checked read reads the row and the sums before it refuses. -/
def selfCheckAttempts : Nat := 3

/-- Where a checked read stands between its store calls. -/
inductive ReadStage where
  /-- About to read the row, with `left` attempts left, this one included. -/
  | row (left : Nat)
  /-- The row `w` read, about to read the sums of its entries. -/
  | sums (left : Nat) (w : Wallet)
  | answered (answer : Except Error Wallet)

namespace ReadStage

/-- A read before its first call. -/
def start : ReadStage := .row selfCheckAttempts

/-- The read's next call, made against store `s`: a missing row is answered as not
found; sums that match the row read answer it; sums that do not start the next attempt,
or refuse once the attempts are spent. -/
def next (look : WalletLookup) (s : Store) : ReadStage → ReadStage
  | .row left =>
    match look.find s with
    | none => .answered (.error .walletNotFound)
    | some w => .sums left w
  | .sums left w =>
    if w.balance == s.ledgerBalance w.id then .answered (.ok w)
    else if left ≤ 1 then .answered (.error .integrityViolation)
    else .row (left - 1)
  | .answered a => .answered a

end ReadStage

/-- What the scheduler moves next: a transaction's thread, or the read. -/
inductive Turn (n : Nat) where
  | engine (c : Choice n)
  | read

/-- Whether the turn is the read's. -/
def Turn.isRead {n : Nat} : Turn n → Bool
  | .engine _ => false
  | .read => true

/-- `n` transactions' threads and one checked read, over one store. -/
structure Observed (n : Nat) where
  machine : Machine n
  stage : ReadStage

namespace Observed

variable {n : Nat}

/-- The transactions `txs` at their start over `s`, and a read before its first call. -/
def start (s : Store) (txs : Fin n → Tx) : Observed n := ⟨Machine.start s txs, .start⟩

/-- What a turn does: a thread's step or cancelled wait, or the read's next call. -/
def perform (look : WalletLookup) (O : Observed n) : Turn n → Observed n
  | .engine c => { O with machine := O.machine.perform c }
  | .read => { O with stage := O.stage.next look O.machine.store }

/-- The threads and the read after a schedule. -/
def run (look : WalletLookup) (O : Observed n) (schedule : List (Turn n)) : Observed n :=
  schedule.foldl (perform look) O

end Observed

end OnrampLedger
