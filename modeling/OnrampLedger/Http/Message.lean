import OnrampLedger.Json.Value
import OnrampLedger.Ledger.Error

/-!
# Requests and responses

A request is a method, a target, headers and a body of bytes. Header names are
compared without regard to ASCII case, and setting a header replaces every value it
had.

A response is a status, a content type and a body. Bodies the service writes itself
are JSON values followed by a line break; the router's own answers for paths it does
not know are plain text, and its refusals of a method have no body at all.

## Main definitions

* `Request.header`: the value of a header, or the empty text.
* `Response.json`, `Response.refusal`, `Response.failure`: the service's answers.
-/

namespace OnrampLedger

namespace Http

/-- An incoming request. -/
structure Request where
  method : String
  target : String
  /-- Header names and values; a name occurs at most once up to ASCII case. -/
  headers : List (String × String)
  body : List UInt8
  deriving Repr

namespace Request

/-- Whether two header names are the same name. -/
def sameName (a b : String) : Bool := a.toList.map Char.toLower == b.toList.map Char.toLower

/-- The value of a header, or the empty text when it is not set. -/
def header (r : Request) (name : String) : String :=
  match r.headers.find? (sameName name ·.1) with
  | some (_, v) => v
  | none => ""

/-- Sets a header, replacing any value it had. -/
def setHeader (headers : List (String × String)) (name value : String) : List (String × String) :=
  headers.filter (!sameName name ·.1) ++ [(name, value)]

end Request

/-- What a response carries. -/
inductive Body
  /-- A JSON value, written followed by a line break. -/
  | json (value : Json)
  /-- Text as it is. -/
  | text (value : String)
  deriving Repr

/-- An outgoing response. -/
structure Response where
  status : Nat
  contentType : String
  body : Body
  deriving Repr

namespace Response

/-- A JSON answer. -/
def json (status : Nat) (value : Json) : Response := ⟨status, "application/json", .json value⟩

/-- A refusal with a message. -/
def refusal (status : Nat) (message : String) : Response :=
  json status (.object [("error", .str message)])

/-- The answer to a refusal of the service: the status its kind maps to and the text
it may show. -/
def failure (e : Error) : Response :=
  let (status, message) := e.exposed
  refusal status message

/-- The answer for a path no route knows. -/
def notFound : Response := ⟨404, "text/plain; charset=utf-8", .text "404 page not found\n"⟩

/-- The answer for a known path asked with a method it does not take. -/
def methodNotAllowed : Response := ⟨405, "", .text ""⟩

/-- The answer to a browser's preflight question. -/
def preflight : Response := ⟨200, "", .text ""⟩

end Response

end Http

end OnrampLedger
