import OnrampLedger.Json.Decode

/-!
# Request bodies

The bodies the HTTP handlers read, each a small record with the field table it is
decoded through. A body is read as a stream: its first JSON value is decoded and
whatever follows is left alone. Keys match their fields up to case, `null` keeps a
field empty, and any failure to decode refuses the request as a whole.
-/

namespace OnrampLedger

namespace Http

/-- The body of a request to open a wallet. -/
structure OpenBody where
  currency : String := ""

/-- The body of a debit of the caller's wallet. -/
structure DebitBody where
  amount : Decimal := 0
  type : String := ""
  reference : String := ""

/-- The body of a transfer from the caller's wallet. -/
structure TransferBody where
  target : String := ""
  amount : Decimal := 0
  reference : String := ""

/-- The body of a request to buy through a provider. -/
structure PurchaseBody where
  provider : String := ""
  amount : Decimal := 0
  currency : String := ""

/-- The body of an operator's credit. -/
structure CreditBody where
  amount : Decimal := 0
  reason : String := ""

/-- The body of an operator's settlement of a review item. -/
structure SettleBody where
  resolution : String := ""
  notes : String := ""

/-- Fields of `OpenBody`. -/
def OpenBody.fields : List (Json.Field OpenBody) :=
  [.text "currency" fun b s => { b with currency := s }]

/-- Fields of `DebitBody`. -/
def DebitBody.fields : List (Json.Field DebitBody) :=
  [.decimal "amount" fun b d => { b with amount := d },
   .text "type" fun b s => { b with type := s },
   .text "reference" fun b s => { b with reference := s }]

/-- Fields of `TransferBody`. -/
def TransferBody.fields : List (Json.Field TransferBody) :=
  [.text "to_wallet_id" fun b s => { b with target := s },
   .decimal "amount" fun b d => { b with amount := d },
   .text "reference" fun b s => { b with reference := s }]

/-- Fields of `PurchaseBody`. -/
def PurchaseBody.fields : List (Json.Field PurchaseBody) :=
  [.text "provider" fun b s => { b with provider := s },
   .decimal "amount" fun b d => { b with amount := d },
   .text "currency" fun b s => { b with currency := s }]

/-- Fields of `CreditBody`. -/
def CreditBody.fields : List (Json.Field CreditBody) :=
  [.decimal "amount" fun b d => { b with amount := d },
   .text "reason" fun b s => { b with reason := s }]

/-- Fields of `SettleBody`. -/
def SettleBody.fields : List (Json.Field SettleBody) :=
  [.text "resolution" fun b s => { b with resolution := s },
   .text "notes" fun b s => { b with notes := s }]

/-- Reads a body through its fields, starting from the empty record. -/
def readBody {α : Type} (fields : List (Json.Field α)) (empty : α) (body : List UInt8) : Option α :=
  (Json.decodeFirst fields empty body).toOption

end Http

end OnrampLedger
