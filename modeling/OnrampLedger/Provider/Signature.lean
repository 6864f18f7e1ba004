import OnrampLedger.Crypto.Hmac
import OnrampLedger.Codec.Hex
import OnrampLedger.Text.Blank
import OnrampLedger.Text.Case
import OnrampLedger.Text.Utf8

/-!
# Report signatures

A provider signs each report with a secret it shares with the service: the signature
is the HMAC-SHA256 of the report's bytes, written in hex. Secrets are kept by the
provider's lower-cased name.

A signature is accepted when, after surrounding whitespace and one leading `sha256=`
are removed, it is the hex (in either case) of the HMAC of the report under the
provider's secret. A provider with no secret, or an empty one, never verifies.
-/

namespace OnrampLedger

/-- The signature of a report under a secret. -/
def signReport (secret body : List UInt8) : List UInt8 := Hmac.sha256 secret body

/-- Secrets by provider, keyed by the lower-cased provider name; of two names equal up
to case the later one is kept. -/
def secretsByProvider (secrets : List (String × String)) : List (String × String) :=
  secrets.foldl (fun acc (p, s) => (Text.toLower p, s) :: acc.filter (·.1 != Text.toLower p)) []

/-- The text left of a signature once whitespace and one `sha256=` prefix are removed. -/
def signatureDigits (signature : String) : String :=
  let t := Text.trim signature
  if t.startsWith "sha256=" then String.ofList (t.toList.drop 7) else t

/-- Whether `signature` is the provider's signature of `body`, with `secrets` already
keyed by lower-cased provider name. -/
def verifyReport (secrets : List (String × String)) (provider : String) (body : List UInt8)
    (signature : String) : Bool :=
  match secrets.lookup (Text.toLower provider) with
  | none => false
  | some secret =>
    if secret = "" then false
    else
      match Hex.decode? (signatureDigits signature) with
      | none => false
      | some got => got == signReport (Utf8.encode secret) body

end OnrampLedger
