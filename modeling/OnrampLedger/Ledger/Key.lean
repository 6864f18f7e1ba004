import OnrampLedger.Text.Split
import OnrampLedger.Ledger.Entry

/-!
# Idempotency keys

An idempotency key names one logical operation on a wallet: who asked (`source`), under
which caller reference, on which wallet, and whether it adds or takes (`action`). Its
text is the four parts joined by colons. A reference may itself hold colons, so reading
a key takes the first piece as the source, the last two as wallet and action, and joins
everything between back into the reference.
-/

namespace OnrampLedger

/-- The four parts of an idempotency key. -/
structure IdempotencyKey where
  source : String
  reference : String
  wallet : String
  action : String
  deriving DecidableEq, Repr

namespace IdempotencyKey

/-- The key's text: its parts joined by colons. -/
def render (k : IdempotencyKey) : String :=
  k.source ++ ":" ++ k.reference ++ ":" ++ k.wallet ++ ":" ++ k.action

/-- The key of a credit to `wallet`. -/
def credit (source reference wallet : String) : IdempotencyKey :=
  ⟨source, reference, wallet, "credit"⟩

/-- The key of a debit from `wallet`. -/
def debit (source reference wallet : String) : IdempotencyKey :=
  ⟨source, reference, wallet, "debit"⟩

/-- A key read from the colon-separated pieces of its text: at least four pieces, the
first the source, the last two wallet and action, those between the reference. -/
def ofPieces (ps : List (List Char)) : Option IdempotencyKey :=
  match ps, ps.reverse with
  | s :: _ :: _ :: _ :: _, a :: w :: _ =>
    some ⟨String.ofList s, String.ofList (Text.joinWith ':' ((ps.drop 1).take (ps.length - 3))),
      String.ofList w, String.ofList a⟩
  | _, _ => none

/-- Reads a key from its text; fewer than four pieces is no key. -/
def parse? (text : String) : Option IdempotencyKey :=
  ofPieces (Text.splitAt ':' text.toList)

/-- A well-formed key: a non-empty reference and wallet, a known source and an action of
`credit` or `debit`, all spelled exactly. -/
def isValid (text : String) : Bool :=
  match parse? text with
  | some k =>
    k.reference != "" && k.wallet != "" && (Source.ofName? k.source).isSome &&
      (k.action == "credit" || k.action == "debit")
  | none => false

end IdempotencyKey

end OnrampLedger
