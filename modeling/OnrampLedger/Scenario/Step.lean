import OnrampLedger.Service.Wallets
import OnrampLedger.Service.Alerting
import OnrampLedger.Provider.Payment

/-!
# Steps of a scenario

A scenario is a list of steps, each one call into the service or one request to its
HTTP router, run in order on one world. Id fields of a step may hold references
(`$kind:arg`) and some texts may hold braced references (`{$kind:arg}`); both are
looked up when the step runs, so a step may name records made by the steps before it.
-/

namespace OnrampLedger

/-- How a provider report proves where it came from. -/
inductive Proof
  /-- Whether it is taken as verified, given outright. -/
  | given (verified : Bool)
  /-- A signature to check. -/
  | signature (text : String)
  /-- Signed with the configured secret of the provider. -/
  | signed
  deriving Repr

/-- The body of a request: text, in which braced references are filled, or bytes as
they are. -/
inductive Payload
  | text (value : String)
  | bytes (value : List UInt8)
  deriving Repr

/-- A request to the HTTP router. -/
structure HttpCall where
  method : String
  /-- The target; braced references are filled. -/
  path : String
  body : Payload
  /-- Headers set first, in order. -/
  headers : List (String × String)
  /-- A caller to sign a bearer token for. -/
  actor : Option Actor
  /-- An `Authorization` header to send as it is, instead of a token for `actor`. -/
  authorization : Option String
  /-- A provider whose configured secret signs the body. -/
  signFor : Option String
  deriving Repr

/-- One step of a scenario. -/
inductive Step
  | createWallet (user currency : String)
  | credit (r : CreditRequest)
  | debit (r : DebitRequest)
  | transfer (r : TransferRequest)
  | manualCredit (wallet : String) (amount : Decimal) (reason : String) (actor : Actor)
  | getWallet (wallet : String)
  | getWalletOfUser (user : String)
  | ledgerIntegrity (wallet : String)
  | listLedger (wallet : String) (actor : Actor)
  | corrupt (wallet : String) (balance : Decimal)
  | listWallets (after : String) (limit : Int)
  | published
  | advance (seconds millis : Int)
  | report (provider : String) (body : List UInt8) (proof : Proof)
  | event (ev : PaymentEvent) (verified : Bool)
  | webhookEvent (externalId : String)
  | retryCycle
  | listDeadLetters (status : String)
  | retryDeadLetter (id : String) (actor : Actor)
  | resolveDeadLetter (id resolution notes : String) (actor : Actor)
  | archiveDeadLetter (id : String) (actor : Actor)
  | createOnRamp (actor : Actor) (provider : String) (amount : Decimal) (currency : String)
  | completeOnRamp (id : String) (actor : Actor)
  | getOnRamp (id : String)
  | reconcile (lookbackMinutes : Int)
  | listMissing (status : String)
  | replayMissing (id : String) (actor : Actor)
  | resolveMissing (id resolution notes : String) (actor : Actor)
  | integrityRun
  | clearFlag (wallet : String) (actor : Actor)
  | balanceMismatch (m : Mismatch)
  | webhookFailure (provider externalId : String) (cause : Option String)
  | creditSpike (wallet : String) (amount : Decimal)
  | crash (job : String) (cause : Option String)
  | listAlerts (unresolved : Bool) (limit : Int)
  | acknowledgeAlert (id : String) (actor : Actor)
  | resolveAlert (id : String) (actor : Actor)
  | http (call : HttpCall)
  deriving Repr

end OnrampLedger
