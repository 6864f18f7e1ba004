import OnrampLedger.Provider.Payment
import OnrampLedger.Json.Decode
import OnrampLedger.Crypto.Sha256
import OnrampLedger.Codec.Hex
import OnrampLedger.Text.Utf8
import OnrampLedger.Text.Quote

/-!
# Provider report formats

Three formats are known, by provider name: `moonpay` and `transak` nest the payment in
an envelope of their own, and `generic` is the common form itself. A report is decoded
field by field into a `PaymentEvent`; then the provider name is stored lower-cased, the
currency upper-cased, the status folded, and the hash of the report as received
stamped on. A report without the provider's payment id is refused.

Provider names are matched without case, and the name as given is the one that
refusals quote.
-/

namespace OnrampLedger

/-- The known report formats. -/
inductive Provider
  | generic
  | moonpay
  | transak
  deriving DecidableEq, Repr

namespace Provider

/-- The name a provider goes by. -/
def name : Provider → String
  | .generic => "generic"
  | .moonpay => "moonpay"
  | .transak => "transak"

/-- The provider a lower-case name stands for. -/
def ofName? : String → Option Provider
  | "generic" => some .generic
  | "moonpay" => some .moonpay
  | "transak" => some .transak
  | _ => none

/-- Every known provider, by name in alphabetical order. -/
def all : List Provider := [.generic, .moonpay, .transak]

/-- The fields of the nested `data` record of a MoonPay report. -/
def moonpayData : List (Json.Field PaymentEvent) :=
  [.text "id" fun e s => { e with externalId := s },
   .text "status" fun e s => { e with status := s },
   .decimal "baseCurrencyAmount" fun e d => { e with amount := d },
   .text "baseCurrencyCode" fun e s => { e with currency := s },
   .text "externalCustomerId" fun e s => { e with userId := s }]

/-- The fields of the nested `metadata` record of a Transak report. -/
def transakMetadata : List (Json.Field PaymentEvent) :=
  [.text "partnerCustomerId" fun e s => { e with userId := s }]

/-- The fields of the nested `webhookData` record of a Transak report. -/
def transakData : List (Json.Field PaymentEvent) :=
  [.text "id" fun e s => { e with externalId := s },
   .text "status" fun e s => { e with status := s },
   .decimal "fiatAmount" fun e d => { e with amount := d },
   .text "fiatCurrency" fun e s => { e with currency := s },
   .record "metadata" transakMetadata id fun _ e => e]

/-- The fields of a report in each format. Envelope fields that carry nothing of the
payment are still read, so that a value of the wrong kind there is noticed. -/
def fields : Provider → List (Json.Field PaymentEvent)
  | .moonpay =>
    [.text "type" fun e _ => e, .record "data" moonpayData id fun _ e => e]
  | .transak =>
    [.text "eventID" fun e _ => e, .record "webhookData" transakData id fun _ e => e]
  | .generic =>
    [.text "provider" fun e s => { e with provider := s },
     .text "external_id" fun e s => { e with externalId := s },
     .text "user_id" fun e s => { e with userId := s },
     .decimal "amount" fun e d => { e with amount := d },
     .text "currency" fun e s => { e with currency := s },
     .text "status" fun e s => { e with status := s },
     .text "payload_hash" fun e s => { e with payloadHash := s }]

end Provider

/-- The hex SHA-256 of a report as received. -/
def payloadHash (body : List UInt8) : String := Hex.encode (Sha256.digest body)

/-- Why a report could not be brought into the common form. -/
inductive NormalizeError
  /-- No format is known for the provider named. -/
  | unknownProvider (given : String)
  /-- The report does not decode in the provider's format. -/
  | undecodable (given : String) (cause : Json.DecodeError)
  /-- The report carries no payment id. -/
  | missingEventId (given : String)
  deriving Repr

/-- How a refused report is described. -/
def NormalizeError.message : NormalizeError → String
  | .unknownProvider p => s!"unknown provider {Text.quote p}"
  | .undecodable p _ => s!"normalize {p} payload"
  | .missingEventId p => s!"normalize {p} payload: missing event id"

/-- Brings a report of the provider named `given` into the common form. -/
def normalize (given : String) (body : List UInt8) : Except NormalizeError PaymentEvent :=
  let key := Text.toLower given
  match Provider.ofName? key with
  | none => .error (.unknownProvider given)
  | some p =>
    match Json.decodeDocument p.fields PaymentEvent.empty body with
    | .error cause => .error (.undecodable given cause)
    | .ok e =>
      let e := { e with provider := key, currency := Text.toUpper e.currency,
                        status := foldStatus e.status, payloadHash := payloadHash body }
      if e.externalId = "" then .error (.missingEventId given) else .ok e

end OnrampLedger
