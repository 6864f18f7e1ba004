import OnrampLedger.Proofs.Exec
import OnrampLedger.Service.Intake
import OnrampLedger.Service.Retry
import OnrampLedger.Service.Reconcile
import OnrampLedger.Service.Integrity

/-!
# Runs of the engine

A `Command` is one call into the engine with its inputs: the wallet operations, the
processing of a provider payment, the retry cycle and the operators' actions on dead
letters, purchases and reconciliation, the integrity monitor, alerting, and the clock
moving on. A run is a list of commands executed in order on one world; a command is
executed whatever it answers, and one that refuses leaves behind whatever it left.

Overwriting a cached balance is no command: it stands for damage from outside the
service, and the integrity monitor exists to find it. Reads are no commands either:
they answer from the store and change nothing.
-/

namespace OnrampLedger

/-- One call into the engine. -/
inductive Command
  | createWallet (user currency : String)
  | credit (r : CreditRequest)
  | debit (r : DebitRequest)
  | transfer (r : TransferRequest)
  | manualCredit (wallet : String) (amount : Decimal) (reason : String) (admin : Actor)
  | process (ev : PaymentEvent) (verified : Bool)
  | retryCycle
  | retryDeadLetter (id : String) (admin : Actor)
  | resolveDeadLetter (id resolution notes : String) (admin : Actor)
  | archiveDeadLetter (id : String) (admin : Actor)
  | createOnRamp (actor : Actor) (provider : String) (amount : Decimal) (currency : String)
  | completeOnRamp (id : String) (admin : Actor)
  | reconcile (lookback : Int)
  | replayMissing (id : String) (admin : Actor)
  | resolveMissing (id resolution notes : String) (admin : Actor)
  | integrityRun
  | clearFlag (wallet : String) (admin : Actor)
  | balanceMismatch (m : Mismatch)
  | webhookFailure (provider externalId : String) (cause : Option String)
  | creditSpike (wallet : String) (amount : Decimal)
  | crash (job : String) (cause : Option String)
  | acknowledgeAlert (id : String) (admin : Actor)
  | resolveAlert (id : String) (admin : Actor)
  | advance (nanos : Int)

namespace Command

/-- The operation a command calls, its answer dropped. -/
def op : Command → Op Unit
  | .createWallet user currency => do let _ ← Wallets.create user currency
  | .credit r => do let _ ← Wallets.credit r
  | .debit r => do let _ ← Wallets.debit r
  | .transfer r => do let _ ← Wallets.transfer r
  | .manualCredit wallet amount reason admin => do
    let _ ← Wallets.manualCredit wallet amount reason admin
  | .process ev verified => do let _ ← Intake.process ev verified
  | .retryCycle => do let _ ← Retry.cycle
  | .retryDeadLetter id admin => do let _ ← Retry.retryDeadLetter id admin
  | .resolveDeadLetter id resolution notes admin => do
    let _ ← Retry.resolve id resolution notes admin
  | .archiveDeadLetter id admin => do let _ ← Retry.archive id admin
  | .createOnRamp actor provider amount currency => do
    let _ ← Reconcile.createOnRamp actor provider amount currency
  | .completeOnRamp id admin => do let _ ← Reconcile.completeOnRamp id admin
  | .reconcile lookback => do let _ ← Reconcile.run lookback
  | .replayMissing id admin => do let _ ← Reconcile.replay id admin
  | .resolveMissing id resolution notes admin => do
    let _ ← Reconcile.resolve id resolution notes admin
  | .integrityRun => do let _ ← Integrity.run
  | .clearFlag wallet admin => Integrity.clearFlag wallet admin
  | .balanceMismatch m => Alerting.balanceMismatch m
  | .webhookFailure provider externalId cause => Alerting.webhookFailure provider externalId cause
  | .creditSpike wallet amount => do let _ ← Alerting.creditSpike wallet amount
  | .crash job cause => Alerting.crash job cause
  | .acknowledgeAlert id admin => do let _ ← Alerting.acknowledge id admin
  | .resolveAlert id admin => do let _ ← Alerting.resolve id admin
  | .advance nanos => modify fun w => { w with now := w.now.addNanos nanos }

/-- The world after a command, whatever it answered. -/
def run (c : Command) (w : World) : World := (c.op.exec w).2

/-- The world after commands executed in order. -/
def runAll (cs : List Command) (w : World) : World := cs.foldl (fun w c => c.run w) w

@[simp] theorem runAll_nil (w : World) : runAll [] w = w := rfl

@[simp] theorem runAll_cons (c : Command) (cs : List Command) (w : World) :
    runAll (c :: cs) w = runAll cs (c.run w) := rfl

theorem runAll_append (cs ds : List Command) (w : World) :
    runAll (cs ++ ds) w = runAll ds (runAll cs w) := by
  simp [runAll, List.foldl_append]

/-- **Invariants of runs**: a property of worlds that every allowed command keeps holds
after every run of allowed commands from a world that has it. -/
theorem runAll_invariant {P : World → Prop} {allowed : Command → Prop}
    (hstep : ∀ c, allowed c → ∀ w, P w → P (c.run w)) {cs : List Command}
    (hcs : ∀ c ∈ cs, allowed c) {w : World} (hw : P w) : P (runAll cs w) := by
  induction cs generalizing w with
  | nil => exact hw
  | cons c cs ih =>
      exact ih (fun d hd => hcs d (List.mem_cons_of_mem c hd))
        (hstep c (hcs c List.mem_cons_self) w hw)

end Command

end OnrampLedger
