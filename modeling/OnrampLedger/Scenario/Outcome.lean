import OnrampLedger.Ledger.Error
import OnrampLedger.Provider.Format

/-!
# Outcomes of steps

Each step of a scenario ends in one JSON object: `{"ok": value}` when it succeeds, or
an error object naming what went wrong. A refusal of the service carries its kind and
message; a provider report that cannot be read carries `malformed_payload`, its
message and, when the report did not decode, which way it failed; a step that cannot
be understood carries `bad_input`.
-/

namespace OnrampLedger

namespace Outcome

/-- A success with its value. -/
def ok (v : Json) : Json := .object [("ok", v)]

/-- A refusal of the service. -/
def failure (e : Error) : Json :=
  .object [("error", .str e.kind.name), ("message", .str e.message)]

/-- The name of a way decoding fails. -/
def causeName : Json.DecodeError → String
  | .malformed => "json_syntax"
  | .mistyped => "json_type"
  | .refused => "decimal"

/-- A provider report that could not be brought into the common form. -/
def malformed (e : NormalizeError) : Json :=
  let cause := match e with
    | .undecodable _ c => [("cause", Json.str (causeName c))]
    | _ => []
  .object ([("error", .str "malformed_payload"), ("message", .str e.message)] ++ cause)

/-- A step or request that could not be understood. -/
def badInput (message : String) : Json :=
  .object [("error", .str "bad_input"), ("message", .str message)]

end Outcome

end OnrampLedger
