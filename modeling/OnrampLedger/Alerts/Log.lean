import OnrampLedger.Time.Instant
import OnrampLedger.Json.Value

/-!
# The alert log

Every alert raised is kept for operators: what kind of anomaly, how severe, a title, a
message, details as text pairs, and whether and when it was acknowledged and resolved,
and by whom. Nothing else of an alert changes once raised.
-/

namespace OnrampLedger

/-- A recorded alert. -/
structure AlertLog where
  id : String
  type : String
  severity : String
  title : String
  message : String
  /-- Details, written with keys in order. -/
  metadata : List (String × String)
  acknowledgedAt : Option Instant
  resolved : Bool
  resolvedBy : String
  resolvedAt : Option Instant
  createdAt : Instant
  deriving Repr

/-- The alert as JSON. -/
def AlertLog.toJson (a : AlertLog) : Json :=
  .object ([("id", .str a.id), ("type", .str a.type), ("severity", .str a.severity),
    ("title", .str a.title), ("message", .str a.message)] ++
    (if a.metadata.isEmpty then []
     else [("metadata", Json.sortedObject (a.metadata.map fun (k, v) => (k, .str v)))]) ++
    Json.someIf "acknowledged_at" (a.acknowledgedAt.map Json.instant) ++
    [("resolved", .bool a.resolved)] ++ Json.textIfAny "resolved_by" a.resolvedBy ++
    Json.someIf "resolved_at" (a.resolvedAt.map Json.instant) ++
    [("created_at", .instant a.createdAt)])

end OnrampLedger
