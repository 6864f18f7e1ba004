import OnrampLedger.Money.Decimal
import OnrampLedger.Text.Quote
/-!
# Refusals

Every operation of the service either succeeds or refuses with one `Error`, named by
its cause. Each cause belongs to one `ErrorKind`, which decides how a transport
reports it, and has one message, the text a caller is shown.

An integrity violation never shows its details: its message is the same fixed text
whatever the cause, so a caller cannot learn a wallet's internal delta from it.
-/

namespace OnrampLedger

/-- The class of a refusal. -/
inductive ErrorKind
  | notFound
  | forbidden
  | invalidArgument
  | lockTimeout
  | integrityViolation
  | conflict
  deriving DecidableEq, Repr

namespace ErrorKind

/-- The name of a kind, as reported beside a message. -/
def name : ErrorKind → String
  | .notFound => "not_found"
  | .forbidden => "forbidden"
  | .invalidArgument => "invalid_argument"
  | .lockTimeout => "lock_timeout"
  | .integrityViolation => "integrity_violation"
  | .conflict => "conflict"

/-- The kind with a given name. -/
def ofName? : String → Option ErrorKind
  | "not_found" => some .notFound
  | "forbidden" => some .forbidden
  | "invalid_argument" => some .invalidArgument
  | "lock_timeout" => some .lockTimeout
  | "integrity_violation" => some .integrityViolation
  | "conflict" => some .conflict
  | _ => none

/-- The HTTP status a transport answers a refusal of this kind with. -/
def httpStatus : ErrorKind → Nat
  | .notFound => 404
  | .forbidden => 403
  | .invalidArgument => 400
  | .conflict => 409
  | .lockTimeout => 503
  | .integrityViolation => 500

end ErrorKind

/-- The text every integrity violation shows. -/
def integrityViolationText : String :=
  "wallet temporarily unavailable, please try again or contact support"

/-- What a caller is shown for a failure of kind `k` carrying `text`: the status and
the text. An integrity violation shows its fixed text; a failure outside the taxonomy
(`none`) shows only that it was internal. -/
def exposure : Option ErrorKind → String → Nat × String
  | some .integrityViolation, _ => (500, integrityViolationText)
  | some k, text => (k.httpStatus, text)
  | none, _ => (500, "internal error")

/-- A refusal of the service, by cause. -/
inductive Error
  /-- A wallet owner that is blank. -/
  | userIdRequired
  /-- The user already owns a wallet. -/
  | walletExists (user : String)
  | adminCreditNeedsAdmin
  | webhookCreditUnverified
  /-- A credit from a source that may not credit. -/
  | sourceCannotCredit (source : String)
  | amountNotPositive
  /-- An amount finer than a cent. -/
  | amountTooPrecise (amount : Decimal)
  | referenceRequired
  | notACredit (entryType : String)
  | notADebit (entryType : String)
  /-- A wallet named by the caller that does not exist. -/
  | walletIdNotFound (id : String)
  /-- A wallet that does not exist, not named in the message. -/
  | walletNotFound
  | insufficientBalance (available needed : Decimal)
  | debitUnauthenticated
  | notWalletOwner
  | transferUnauthenticated
  | sameWallet
  | currencyMismatch (source target : String)
  | transferCreditCollision (reference : String)
  | manualCreditNeedsAdmin
  | reasonTooShort
  /-- A cached balance that disagrees with the ledger. -/
  | integrityViolation
  | signatureUnverified
  | eventIdsRequired
  | noWalletForUser (user : String)
  | eventCurrencyMismatch (event wallet : String)
  | webhookNotFound (externalId : String)
  | deadLetterRetryNeedsAdmin
  | deadLetterNotFound (id : String)
  | eventNotDeadLettered (id status : String)
  | deadLetterSettled (id status : String)
  | deadLetterResolveNeedsAdmin
  | invalidDeadLetterResolution (resolution : String)
  | deadLetterArchiveNeedsAdmin
  | deadLetterNotReviewed (id : String)
  | onRampUnauthenticated
  | unknownProvider (provider : String)
  | onRampCompletionNeedsAdmin
  | onRampNotFound (id : String)
  | replayNeedsAdmin
  | missingAlertNotFound (id : String)
  | missingAlertSettled (id status : String)
  | missingResolutionNeedsAdmin
  | resolutionNeedsReplay
  | invalidMissingResolution (resolution : String)
  | clearFlagNeedsAdmin
  | acknowledgeNeedsAdmin
  | alertNotFound (id : String)
  | resolveAlertNeedsAdmin
  | alertAlreadyResolved (id : String)
  deriving DecidableEq, Repr

namespace Error

/-- The kind of each cause. -/
def kind : Error → ErrorKind
  | .userIdRequired | .amountNotPositive | .amountTooPrecise _ | .referenceRequired
  | .notACredit _ | .notADebit _ | .insufficientBalance _ _ | .sameWallet
  | .currencyMismatch _ _ | .reasonTooShort | .eventIdsRequired
  | .eventCurrencyMismatch _ _ | .invalidDeadLetterResolution _ | .unknownProvider _
  | .resolutionNeedsReplay | .invalidMissingResolution _ => .invalidArgument
  | .walletExists _ | .transferCreditCollision _ | .eventNotDeadLettered _ _
  | .deadLetterSettled _ _ | .deadLetterNotReviewed _ | .missingAlertSettled _ _
  | .alertAlreadyResolved _ => .conflict
  | .adminCreditNeedsAdmin | .webhookCreditUnverified | .sourceCannotCredit _
  | .debitUnauthenticated | .notWalletOwner | .transferUnauthenticated
  | .manualCreditNeedsAdmin | .signatureUnverified | .deadLetterRetryNeedsAdmin
  | .deadLetterResolveNeedsAdmin | .deadLetterArchiveNeedsAdmin | .onRampUnauthenticated
  | .onRampCompletionNeedsAdmin | .replayNeedsAdmin | .missingResolutionNeedsAdmin
  | .clearFlagNeedsAdmin | .acknowledgeNeedsAdmin | .resolveAlertNeedsAdmin => .forbidden
  | .walletIdNotFound _ | .walletNotFound | .noWalletForUser _ | .webhookNotFound _
  | .deadLetterNotFound _ | .onRampNotFound _ | .missingAlertNotFound _
  | .alertNotFound _ => .notFound
  | .integrityViolation => .integrityViolation

/-- The text a caller is shown. -/
def message : Error → String
  | .userIdRequired => "user id is required"
  | .walletExists u => s!"user {u} already has a wallet"
  | .adminCreditNeedsAdmin => "admin credits require an admin actor"
  | .webhookCreditUnverified => "webhook credits require a verified provider event"
  | .sourceCannotCredit s => s!"source {Text.quote s} may not credit wallets"
  | .amountNotPositive => "amount must be greater than zero"
  | .amountTooPrecise a => s!"amount {a.render} has more than 2 decimal places"
  | .referenceRequired => "reference is required"
  | .notACredit t => s!"entry type {t} is not a credit"
  | .notADebit t => s!"entry type {t} is not a debit"
  | .walletIdNotFound id => s!"wallet {id} not found"
  | .walletNotFound => "wallet not found"
  | .insufficientBalance h n => s!"Insufficient balance. Have: {h.render}, Need: {n.render}"
  | .debitUnauthenticated => "debits require an authenticated user"
  | .notWalletOwner => "wallet does not belong to the caller"
  | .transferUnauthenticated => "transfers require an authenticated user"
  | .sameWallet => "cannot transfer to the same wallet"
  | .currencyMismatch a b => s!"currency mismatch: {a} to {b}"
  | .transferCreditCollision r => s!"transfer {r} conflicts with an existing credit"
  | .manualCreditNeedsAdmin => "manual credits require an admin"
  | .reasonTooShort => "reason must be at least 10 characters"
  | .integrityViolation => integrityViolationText
  | .signatureUnverified => "webhook signature could not be verified"
  | .eventIdsRequired => "event id and user id are required"
  | .noWalletForUser u => s!"no wallet for user {u}"
  | .eventCurrencyMismatch e w => s!"event currency {e} does not match wallet currency {w}"
  | .webhookNotFound x => s!"webhook {x} not found"
  | .deadLetterRetryNeedsAdmin => "dead letter retry requires an admin"
  | .deadLetterNotFound id => s!"dead letter {id} not found"
  | .eventNotDeadLettered id st => s!"webhook event {id} is {st}, not dead_letter"
  | .deadLetterSettled id st => s!"dead letter {id} is already {st}"
  | .deadLetterResolveNeedsAdmin => "dead letter resolution requires an admin"
  | .invalidDeadLetterResolution r => s!"invalid dead letter resolution {Text.quote r}"
  | .deadLetterArchiveNeedsAdmin => "dead letter archive requires an admin"
  | .deadLetterNotReviewed id => s!"dead letter {id} must be reviewed before archiving"
  | .onRampUnauthenticated => "on-ramps require an authenticated user"
  | .unknownProvider p => s!"unknown provider {Text.quote p}"
  | .onRampCompletionNeedsAdmin => "on-ramp completion requires an admin"
  | .onRampNotFound id => s!"onramp {id} not found"
  | .replayNeedsAdmin => "webhook replay requires an admin"
  | .missingAlertNotFound id => s!"missing webhook alert {id} not found"
  | .missingAlertSettled id st => s!"missing webhook alert {id} is already {st}"
  | .missingResolutionNeedsAdmin => "missing webhook resolution requires an admin"
  | .resolutionNeedsReplay => "manual_credit resolutions go through replay"
  | .invalidMissingResolution r => s!"invalid missing webhook resolution {Text.quote r}"
  | .clearFlagNeedsAdmin => "clearing a review flag requires an admin"
  | .acknowledgeNeedsAdmin => "acknowledging alerts requires an admin"
  | .alertNotFound id => s!"alert {id} not found"
  | .resolveAlertNeedsAdmin => "resolving alerts requires an admin"
  | .alertAlreadyResolved id => s!"alert {id} is already resolved"

/-- The HTTP status and text a transport answers this refusal with. -/
def exposed (e : Error) : Nat × String := exposure (some e.kind) e.message

end Error

end OnrampLedger
