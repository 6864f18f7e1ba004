import OnrampLedger.Http.Target
import OnrampLedger.Http.Message
import OnrampLedger.Http.Body
import OnrampLedger.Auth.Token
import OnrampLedger.Provider.Format
import OnrampLedger.Provider.Signature
import OnrampLedger.Service.Intake
import OnrampLedger.Service.Retry
import OnrampLedger.Service.Reconcile
import OnrampLedger.Service.Integrity

/-!
# The HTTP router

Requests reach the service through three tables of routes. The outer table holds the
health check, provider reports and the mount point `/api/v1`; everything under the
mount needs a bearer token, and the inner table holds the caller's own wallet and
purchases and the mount point `/admin`; everything under that needs the `admin` role,
and the innermost table holds the operators' routes.

A route is a method and a pattern of path segments, some literal and some standing for
a parameter. A path is matched segment by segment, and a parameter takes one whole
segment, which may be empty unless it is the last. When no route of a table matches the
path the answer is `404`; when some do but none takes the method it is `405`. Methods
outside the standard nine are refused with `405` before any route is looked at, and a
browser's preflight question (`OPTIONS` with `Access-Control-Request-Method`) is
answered with `200` before anything else.

Handlers decode their body, call the service and write the result as JSON; a refusal
of the service is written with the status of its kind.

## Main definitions

* `Endpoint`: what a route leads to.
* `Router.handle`: the response to a request, as an operation on the world.
-/

namespace OnrampLedger

namespace Http

/-- One segment of a route pattern. -/
inductive Piece
  | literal (text : String)
  | param
  deriving Repr

/-- What a route leads to. -/
inductive Endpoint
  | health
  | metrics
  | receiveReport
  | showWallet
  | openWallet
  | ownLedger
  | debit
  | transfer
  | purchase
  | alertStream
  | walletIntegrity
  | walletLedger
  | manualCredit
  | clearFlag
  | completePurchase
  | deadLetters
  | retryDeadLetter
  | resolveDeadLetter
  | archiveDeadLetter
  | missingWebhooks
  | replayMissing
  | resolveMissing
  | alerts
  | acknowledgeAlert
  | resolveAlert
  | retryJob
  | reconcileJob
  | integrityJob
  deriving DecidableEq, Repr

/-- A route: the method it takes (`none` for every method), its pattern and where it
leads. -/
structure Route where
  method : Option String
  pattern : List Piece
  endpoint : Endpoint

/-- What a table of routes makes of a path. -/
inductive Lookup
  /-- A route takes the method; its parameters in order. -/
  | found (endpoint : Endpoint) (params : List String)
  /-- Routes match the path, but none takes the method. -/
  | wrongMethod
  /-- No route matches the path. -/
  | unknown
  deriving Repr

namespace Router

/-- A pattern from its text: `*` stands for a parameter. -/
def pattern (text : String) : List Piece :=
  (Text.splitText '/' text).map fun s => if s = "*" then .param else .literal s

/-- A route for one method. -/
def route (method text : String) (endpoint : Endpoint) : Route := ⟨some method, pattern text, endpoint⟩

/-- Routes outside the mount point. -/
def outer : List Route :=
  [route "GET" "health" .health,
   ⟨none, pattern "metrics", .metrics⟩,
   route "POST" "webhooks/*" .receiveReport]

/-- Routes under `/api/v1` outside `/admin`. -/
def caller : List Route :=
  [route "GET" "wallet" .showWallet,
   route "POST" "wallet" .openWallet,
   route "GET" "wallet/ledger" .ownLedger,
   route "POST" "wallet/debit" .debit,
   route "POST" "wallet/transfer" .transfer,
   route "POST" "onramps" .purchase]

/-- Routes under `/api/v1/admin`. -/
def operator : List Route :=
  [route "GET" "alerts/ws" .alertStream,
   route "GET" "wallets/*/integrity" .walletIntegrity,
   route "GET" "wallets/*/ledger" .walletLedger,
   route "POST" "wallets/*/credit" .manualCredit,
   route "POST" "wallets/*/clear-flag" .clearFlag,
   route "POST" "onramps/*/complete" .completePurchase,
   route "GET" "dead-letters" .deadLetters,
   route "POST" "dead-letters/*/retry" .retryDeadLetter,
   route "POST" "dead-letters/*/resolve" .resolveDeadLetter,
   route "POST" "dead-letters/*/archive" .archiveDeadLetter,
   route "GET" "missing-webhooks" .missingWebhooks,
   route "POST" "missing-webhooks/*/replay" .replayMissing,
   route "POST" "missing-webhooks/*/resolve" .resolveMissing,
   route "GET" "alerts" .alerts,
   route "POST" "alerts/*/ack" .acknowledgeAlert,
   route "POST" "alerts/*/resolve" .resolveAlert,
   route "POST" "jobs/webhook-retry" .retryJob,
   route "POST" "jobs/reconcile" .reconcileJob,
   route "POST" "jobs/integrity" .integrityJob]

/-- The parameters a pattern takes from path segments, if it matches them. A parameter
takes one segment, and an empty one only when more of the path follows. -/
def matchPieces : List Piece → List String → Option (List String)
  | [], [] => some []
  | .literal t :: ps, s :: ss => if t == s then matchPieces ps ss else none
  | .param :: ps, s :: ss =>
    if s == "" && ss.isEmpty then none else (s :: ·) <$> matchPieces ps ss
  | _, _ => none

/-- Looks a path, as segments after its leading `/`, up in a table. -/
def lookup (routes : List Route) (method : String) (segments : List String) : Lookup :=
  let matching := routes.filterMap fun r => (matchPieces r.pattern segments).map (r, ·)
  match matching.find? fun (r, _) => r.method.all (· == method) with
  | some (r, params) => .found r.endpoint params
  | none => if matching.isEmpty then .unknown else .wrongMethod

/-- The segments below a mount point whose own segments are `mount`, if the path lies
under it. The mount point itself and the mount point with a trailing `/` both stand
for the root below it. -/
def below (mount : List String) (segments : List String) : Option (List String) :=
  if segments.take mount.length == mount then
    match segments.drop mount.length with
    | [] => some [""]
    | rest => some rest
  else none

/-- The methods routes may name. -/
def knownMethods : List String :=
  ["CONNECT", "DELETE", "GET", "HEAD", "OPTIONS", "PATCH", "POST", "PUT", "TRACE"]

/-- Whether a header's comma-separated list holds a token, up to ASCII case. -/
def listsToken (value token : String) : Bool :=
  (Text.splitText ',' value).any fun t =>
    Request.sameName (String.ofList ((t.toList.dropWhile (· ∈ [' ', '\t'])).reverse.dropWhile
      (· ∈ [' ', '\t'])).reverse) token

/-- Whether a request asks to become a socket. -/
def upgradeAsked (r : Request) : Bool :=
  listsToken (r.header "Connection") "upgrade" && listsToken (r.header "Upgrade") "websocket"

/-- The bearer token of a request: the `Authorization` header after `Bearer `, or for a
socket upgrade the `access_token` query value. -/
def bearerToken (r : Request) (t : Target) : Option String :=
  let h := r.header "Authorization"
  if h.startsWith "Bearer " then some (String.ofList (h.toList.drop 7))
  else if upgradeAsked r && t.query "access_token" != "" then some (t.query "access_token")
  else none

/-- The response of an operation, or of its refusal. -/
def answering (x : Op Response) : Op Response :=
  tryCatch x fun e => pure (Response.failure e)

/-- The refusal of a body that does not decode. -/
def badBody : Response := Response.refusal 400 "invalid request body"

/-- Runs `k` on a decoded body, or refuses the request. -/
def withBody {α : Type} (fields : List (Json.Field α)) (empty : α) (body : List UInt8)
    (k : α → Op Response) : Op Response :=
  match readBody fields empty body with
  | some b => k b
  | none => pure badBody

/-- The first parameter, or the empty text. -/
def firstParam (params : List String) : String := params.headD ""

/-- A query count that must be a positive whole number when given: `none` when it is
not, else the count or `fallback` when it is absent. -/
def positiveCount (text : String) (fallback : Int) : Option Int :=
  if text = "" then some fallback
  else match Numeral.toInt? text with
    | some n => if n > 0 then some n else none
    | none => none

/-- The largest page of alerts answered. -/
def alertPageLimit : Int := 1000

/-- Answers a provider's report. -/
def receiveReport (given : String) (r : Request) : Op Response := do
  let provider := Text.toLower given
  if (Provider.ofName? provider).isNone then return Response.refusal 404 "unknown provider"
  if r.body.length > Nat.pow 2 20 then return Response.refusal 413 "payload too large"
  match normalize provider r.body with
  | .error _ => return Response.refusal 400 "malformed payload"
  | .ok ev =>
    let verified := verifyReport (← Op.settings).webhookSecrets provider r.body (r.header "X-Signature")
    answering do return Response.json 200 (← Intake.process ev verified).toJson

/-- Answers a route that needs no caller. -/
def serveOpen (endpoint : Endpoint) (params : List String) (r : Request) : Op Response :=
  match endpoint with
  | .health => pure (Response.json 200 (.object [("status", .str "ok"), ("service", .str "onramp-ledger")]))
  | .receiveReport => receiveReport (firstParam params) r
  | _ => pure ⟨200, "text/plain; version=0.0.4; charset=utf-8", .text ""⟩

/-- Answers a route of the caller's own. -/
def serveCaller (endpoint : Endpoint) (r : Request) (a : Actor) : Op Response :=
  answering do
  match endpoint with
  | .showWallet => return Response.json 200 (← Wallets.getOfUser a.id).toJson
  | .openWallet =>
    let opening (b : OpenBody) : Op Response := do
      return Response.json 201 (← Wallets.create a.id b.currency).toJson
    if r.body.isEmpty then opening {} else withBody OpenBody.fields {} r.body opening
  | .ownLedger =>
    let w ← Wallets.getOfUser a.id
    return Response.json 200 (.array ((← Wallets.ledger w.id a).map LedgerEntry.toJson))
  | .debit =>
    withBody DebitBody.fields {} r.body fun b => do
      let w ← Wallets.getOfUser a.id
      return Response.json 200 (← Wallets.debit ⟨w.id, b.amount, b.type, b.reference, a⟩).toJson
  | .transfer =>
    withBody TransferBody.fields {} r.body fun b => do
      let w ← Wallets.getOfUser a.id
      return Response.json 200 (← Wallets.transfer ⟨w.id, b.target, b.amount, b.reference, a⟩).toJson
  | .purchase =>
    withBody PurchaseBody.fields {} r.body fun b => do
      return Response.json 201 (← Reconcile.createOnRamp a b.provider b.amount b.currency).toJson
  | _ => return Response.notFound

/-- Answers an operator's route. -/
def serveOperator (endpoint : Endpoint) (params : List String) (r : Request) (t : Target)
    (a : Actor) : Op Response :=
  let id := firstParam params
  answering do
  match endpoint with
  | .alertStream => return ⟨400, "text/plain; charset=utf-8", .text "Bad Request\n"⟩
  | .walletIntegrity => return Response.json 200 (← Wallets.integrity id).toJson
  | .walletLedger => return Response.json 200 (.array ((← Wallets.ledger id a).map LedgerEntry.toJson))
  | .manualCredit =>
    withBody CreditBody.fields {} r.body fun b => do
      return Response.json 200 (← Wallets.manualCredit id b.amount b.reason a).toJson
  | .clearFlag =>
    Integrity.clearFlag id a
    return Response.json 200 (.object [("wallet_id", .str id), ("status", .str "cleared")])
  | .completePurchase => return Response.json 200 (← Reconcile.completeOnRamp id a).toJson
  | .deadLetters =>
    return Response.json 200 (.array ((← Retry.list (t.query "status")).map DeadLetterItem.toJson))
  | .retryDeadLetter => return Response.json 200 (← Retry.retryDeadLetter id a).toJson
  | .resolveDeadLetter =>
    withBody SettleBody.fields {} r.body fun b => do
      return Response.json 200 (← Retry.resolve id b.resolution b.notes a).toJson
  | .archiveDeadLetter => return Response.json 200 (← Retry.archive id a).toJson
  | .missingWebhooks =>
    return Response.json 200 (.array ((← Reconcile.list (t.query "status")).map MissingWebhookAlert.toJson))
  | .replayMissing =>
    let (view, alert) ← Reconcile.replay id a
    return Response.json 200 (.object [("wallet", view.toJson), ("alert", alert.toJson)])
  | .resolveMissing =>
    withBody SettleBody.fields {} r.body fun b => do
      return Response.json 200 (← Reconcile.resolve id b.resolution b.notes a).toJson
  | .alerts =>
    match positiveCount (t.query "limit") 100 with
    | none => return Response.refusal 400 "limit must be a positive integer"
    | some n =>
      let page ← Alerting.list (truthText (t.query "unresolved")) (min n alertPageLimit)
      return Response.json 200 (.array (page.map AlertLog.toJson))
  | .acknowledgeAlert => return Response.json 200 (← Alerting.acknowledge id a).toJson
  | .resolveAlert => return Response.json 200 (← Alerting.resolve id a).toJson
  | .retryJob => return Response.json 200 (← Retry.cycle).toJson
  | .reconcileJob =>
    match positiveCount (t.query "lookback_minutes") 0 with
    | none => return Response.refusal 400 "lookback_minutes must be a positive integer"
    | some n => return Response.json 200 (← Reconcile.run n).toJson
  | .integrityJob => return Response.json 200 (← Integrity.run).toJson
  | _ => return Response.notFound

/-- The response to a lookup whose route is served by `serve`. -/
def settle (l : Lookup) (serve : Endpoint → List String → Op Response) : Op Response :=
  match l with
  | .found e params => serve e params
  | .wrongMethod => pure Response.methodNotAllowed
  | .unknown => pure Response.notFound

/-- Answers a request under `/api/v1` once its caller is known, given the segments
below the mount point. -/
def serveApi (r : Request) (t : Target) (a : Actor) (segments : List String) : Op Response :=
  match below ["admin"] segments with
  | some inner =>
    if a.role != "admin" then pure (Response.refusal 403 "forbidden")
    else settle (lookup operator r.method inner) fun e ps => serveOperator e ps r t a
  | none => settle (lookup caller r.method segments) fun e _ => serveCaller e r a

/-- The response to a request. -/
def handle (r : Request) : Op Response := do
  let r := if r.method = "" then { r with method := "GET" } else r
  if r.method = "OPTIONS" && r.header "Access-Control-Request-Method" != "" then
    return Response.preflight
  if !knownMethods.contains r.method then return Response.methodNotAllowed
  let t := Target.parse r.target
  let segments := Text.splitText '/' (String.ofList (t.path.toList.drop 1))
  match below ["api", "v1"] segments with
  | some inner =>
    match bearerToken r t with
    | none => return Response.refusal 401 "missing bearer token"
    | some token =>
      match Token.parse? (Utf8.encode (← Op.settings).jwtSecret) Token.judgedAt token with
      | none => return Response.refusal 401 "invalid token"
      | some a => serveApi r t a inner
  | none => settle (lookup outer r.method segments) fun e ps => serveOpen e ps r

end Router

end Http

end OnrampLedger
