import OnrampLedger.Json.Value

/-!
# Actors

Every operation that needs a caller is told who it acts for: a user id and a role.
The role `admin` marks operators; anything else is an ordinary user.
-/

namespace OnrampLedger

/-- Who a request acts for: a user id and a role. -/
structure Actor where
  id : String
  role : String
  deriving DecidableEq, Repr, Inhabited

namespace Actor

/-- Operators hold the role `admin`, spelled exactly. -/
def isAdmin (a : Actor) : Bool := a.role == "admin"

/-- The actor as JSON. -/
def toJson (a : Actor) : Json := .object [("id", .str a.id), ("role", .str a.role)]

end Actor

end OnrampLedger
