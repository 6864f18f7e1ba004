import OnrampLedger.Json.Decode
import OnrampLedger.Codec.Base64
import OnrampLedger.Crypto.Hmac
import OnrampLedger.Text.Split
import OnrampLedger.Text.Utf8
import OnrampLedger.Time.Instant
import OnrampLedger.Number.Binary64
import OnrampLedger.Text.Numeral
import OnrampLedger.Auth.Actor

/-!
# Bearer tokens

A caller proves who it is with a signed token of three base64url segments joined by
dots: a header, the claims, and the HMAC-SHA256 of the first two segments under a
shared secret. The claims name the caller (`sub`), its role, and the times the token
was issued (`iat`), stops being valid (`exp`) and starts being valid (`nbf`), in whole
seconds since the Unix epoch.

A token is accepted when its header is an object naming the algorithm `HS256`, its
claims decode, its signature matches, its lifetime holds with five seconds of leeway
either way, and it names a caller with the role `user` or `admin`. Times in claims may
be written as numbers or as strings holding numbers, and are read as binary64 values,
as the format prescribes.

## Main definitions

* `Token.sign`: the token of an actor, issued at a time for a lifetime.
* `Token.parse?`: the actor a token names, when it is accepted.
-/

namespace OnrampLedger

/-- The claims a token carries. Times are whole seconds since the epoch. -/
structure TokenClaims where
  role : String
  subject : String
  issuer : String
  tokenId : String
  expiresAt : Option Int
  notBefore : Option Int
  issuedAt : Option Int
  deriving Repr, Inhabited

namespace Token

/-- The header every token is issued with. -/
def header : Json := .object [("alg", .str "HS256"), ("typ", .str "JWT")]

/-- Whole seconds since the epoch at or before `t`. -/
def wholeSeconds (t : Instant) : Int := t.nanos / Instant.nanosPerSecond

/-- The claims of a token for `actor` issued at `now` for `ttl` seconds. -/
def claimsOf (actor : Actor) (now : Instant) (ttl : Int) : Json :=
  .object ([("role", .str actor.role)] ++ Json.textIfAny "sub" actor.id ++
    [("exp", .int (wholeSeconds (now.addNanos (ttl * Instant.nanosPerSecond)))),
     ("iat", .int (wholeSeconds now))])

/-- The text of a segment. -/
def segment (j : Json) : String := Base64.encodeUrl (Utf8.encode j.render)

/-- The signature segment of the signed part `signed`. -/
def signature (secret : List UInt8) (signed : String) : String :=
  Base64.encodeUrl (Hmac.sha256 secret (Utf8.encode signed))

/-- The token of `actor` issued at `now` for `ttl` seconds, signed with `secret`. -/
def sign (secret : List UInt8) (actor : Actor) (now : Instant) (ttl : Int) : String :=
  let signed := segment header ++ "." ++ segment (claimsOf actor now ttl)
  signed ++ "." ++ signature secret signed

/-- The largest magnitude a binary64 value rounds from without overflowing: half a unit
in the last place above the largest finite value, `2 ^ 1024 - 2 ^ 970`. -/
def overflowBound : Nat := Nat.pow 2 1024 - Nat.pow 2 970

/-- The value of a run of decimal digits. -/
def digitsValue (cs : List Char) : Nat := cs.foldl (fun acc c => acc * 10 + (c.toNat - 48)) 0

/-- Whole seconds of the time `num / den` seconds, negated when `negative`. The value is
split into whole seconds, toward zero, and nanoseconds; the time is then taken to the
whole second at or before it. A value whose whole part does not fit in 64 bits reads as
the earliest 64-bit second, which is what converting such a value gives. -/
def secondsOfValue (negative : Bool) (num den : Nat) : Int :=
  let secs := num / den
  if secs ≥ Nat.pow 2 63 then -(Int.pow 2 63)
  else if negative ∧ (num % den) * 1000000000 ≥ den then -((secs + 1 : Nat) : Int)
  else if negative then -(secs : Int)
  else (secs : Int)

/-- Whole seconds of a time written as a JSON number: the number is read as the nearest
binary64 value, whose whole seconds are taken by `secondsOfValue`. A value past the
binary64 range is no time. -/
def secondsOfNumber (text : String) : Option Int := do
  let (negative, body) := match text.toList with
    | '-' :: cs => (true, cs)
    | cs => (false, cs)
  let mantissa := body.takeWhile fun c => c ≠ 'e' ∧ c ≠ 'E'
  let expText := (body.dropWhile fun c => c ≠ 'e' ∧ c ≠ 'E').drop 1
  let whole := mantissa.takeWhile (· ≠ '.')
  let frac := (mantissa.dropWhile (· ≠ '.')).drop 1
  let digits := (whole ++ frac).dropWhile (· = '0')
  let e10 : Int := (Numeral.bigInt? expText).getD 0 - frac.length
  let n := digitsValue digits
  -- a value of 10 ^ 310 or more is past the range; one below 10 ^ -300 has no whole
  -- second and no nanosecond
  let magnitude : Int := digits.length + e10
  if n = 0 ∨ magnitude < -300 then pure 0
  else if magnitude > 310 then none
  else
    let (p, q) := if 0 ≤ e10 then (n * Nat.pow 10 e10.toNat, 1) else (n, Nat.pow 10 e10.natAbs)
    if p ≥ overflowBound * q then none
    else
      let (num, den) := Binary64.nearest p q
      pure (secondsOfValue negative num den)

/-- Whether text is a JSON number. -/
def isNumberText (s : String) : Bool :=
  match Json.readNumber (Utf8.encode s) with
  | some (_, []) => true
  | _ => false

/-- A value a field computed, or a refusal when there is none. -/
def refuseNone {α : Type} : Option α → Except Json.DecodeError α
  | some a => .ok a
  | none => .error .refused

/-- A time claim: a number, or a string holding one, sets it; `null` clears it; any
other value refuses the token. -/
def timeField (name : String) (set : TokenClaims → Option Int → TokenClaims) :
    Json.Field TokenClaims :=
  ⟨name, fun v c =>
    match v with
    | .null => .ok (set c none)
    | .number t => refuseNone ((secondsOfNumber t).map fun s => set c (some s))
    | .string s _ =>
      if isNumberText s then refuseNone ((secondsOfNumber s).map fun n => set c (some n))
      else .error .refused
    | _ => .error .refused⟩

/-- The audience claim: a string or an array of strings, read and not kept. -/
def audienceField : Json.Field TokenClaims :=
  ⟨"aud", fun v c =>
    match v with
    | .null | .string _ _ => .ok c
    | .array items =>
      if items.all (fun i => match i with | .string _ _ => true | _ => false) then .ok c
      else .error .refused
    | _ => .error .refused⟩

/-- The claim fields a token is read through. -/
def claimFields : List (Json.Field TokenClaims) :=
  [.text "role" fun c s => { c with role := s },
   .text "iss" fun c s => { c with issuer := s },
   .text "sub" fun c s => { c with subject := s },
   audienceField,
   timeField "exp" fun c t => { c with expiresAt := t },
   timeField "nbf" fun c t => { c with notBefore := t },
   timeField "iat" fun c t => { c with issuedAt := t },
   .text "jti" fun c s => { c with tokenId := s }]

/-- Claims with nothing set. -/
def noClaims : TokenClaims := ⟨"", "", "", "", none, none, none⟩

/-- The value a header names for `key`, the last one when it is named twice. -/
def headerValue (key : String) : List (String × Json) → Option Json
  | ms => (ms.filter (·.1 == key)).getLast?.map Prod.snd

/-- Slack allowed on either end of a token's lifetime, in nanoseconds. -/
def leeway : Int := 5 * Instant.nanosPerSecond

/-- The instant token lifetimes are judged at. The service keeps no clock of its own for
this, so lifetimes are checked against this fixed point, 2026-01-01T00:00:00Z. -/
def judgedAt : Instant := ⟨1767225600 * Instant.nanosPerSecond⟩

/-- Whether a token with these claims is within its lifetime at `now`. -/
def current (c : TokenClaims) (now : Instant) : Bool :=
  let beforeEnd := match c.expiresAt with
    | some e => decide (now.nanos < e * Instant.nanosPerSecond + leeway)
    | none => true
  let afterStart := match c.notBefore with
    | some s => decide (s * Instant.nanosPerSecond - leeway ≤ now.nanos)
    | none => true
  beforeEnd && afterStart

/-- The actor a token names, when the token is accepted at `now` under `secret`. -/
def parse? (secret : List UInt8) (now : Instant) (token : String) : Option Actor :=
  match Text.splitText '.' token with
  | [h, c, s] => do
    let headerJson ← (Base64.decodeUrl? h).bind Json.parse?
    let alg ← match headerJson with
      | .object ms => headerValue "alg" ms
      | _ => none
    let claimBytes ← Base64.decodeUrl? c
    let claims ← (Json.decodeDocument claimFields noClaims claimBytes).toOption
    let sig ← Base64.decodeUrl? s
    match alg with
    | .string "HS256" _ =>
      if sig == Hmac.sha256 secret (Utf8.encode (h ++ "." ++ c)) && current claims now &&
          claims.subject != "" && (claims.role == "user" || claims.role == "admin") then
        some ⟨claims.subject, claims.role⟩
      else none
    | _ => none
  | _ => none

end Token

end OnrampLedger
