import Mathlib
import OnrampLedger.Auth.Token
import OnrampLedger.Proofs.Base64Codec
import OnrampLedger.Proofs.KeyReading
import OnrampLedger.Proofs.JsonNumbers

/-!
# Signed tokens read back

A token is three URL-safe base64 segments joined by dots. None of them holds a dot, so the
reader cuts a signed token back into the three it was joined from; each segment reads back as
the bytes written into it; the header reads back as the object naming `HS256`; and the
signature is the HMAC of the first two segments under the same secret. What remains is the
claims: the role and the id are texts and read back as written, and the two times are whole
seconds, which read back through the nearest double (`Proofs.SecondsText`).

So reading the token of an actor under the secret it was signed with names that actor, and
nothing else, exactly when the actor has an id and the role `user` or `admin`, both times
read back, and the reading instant is before the expiry plus the leeway
(`Token.parse?_sign_eq_some`). For times a clock of 64-bit whole seconds from year one can
hold, both times read back and the expiry is read exactly or as at least `2 ^ 53` seconds,
so a token whose lifetime ends after the instant tokens are judged at is accepted.

## Main results

* `Token.splitText_sign` — a signed token cuts into its three segments.
* `Token.decode_claimsOf` — the claims decode to the actor and the times read back.
* `Token.parse?_sign_eq_some` — when reading a signed token names an actor, and which.
* `Token.tokens_read_back` — a live token of a user or an admin reads as its actor; the token of
  an actor with no id or another role is refused at every instant.
-/

namespace OnrampLedger

namespace Token

/-- A segment holds no dot. -/
theorem dot_not_mem_segment (j : Json) : '.' ∉ (segment j).toList :=
  Base64.dot_not_mem_encodeUrl _

/-- A signed token cuts at its two dots into the header, the claims and the signature. -/
theorem splitText_sign (secret : List UInt8) (actor : Actor) (now : Instant) (ttl : Int) :
    Text.splitText '.' (sign secret actor now ttl) =
      [segment header, segment (claimsOf actor now ttl),
        signature secret (segment header ++ "." ++ segment (claimsOf actor now ttl))] := by
  have hh := dot_not_mem_segment header
  have hc := dot_not_mem_segment (claimsOf actor now ttl)
  have hs := Base64.dot_not_mem_encodeUrl
    (Hmac.sha256 secret (Utf8.encode (segment header ++ "." ++ segment (claimsOf actor now ttl))))
  simp only [sign, signature] at hs ⊢
  generalize segment header = h at hh hs ⊢
  generalize segment (claimsOf actor now ttl) = c at hc hs ⊢
  generalize Base64.encodeUrl _ = s at hs ⊢
  have hdot : ".".toList = ['.'] := rfl
  simp only [Text.splitText, String.toList_append, hdot, List.append_assoc, List.cons_append,
    List.nil_append]
  rw [Text.splitAt_append_sep, Text.splitAt_append_sep, Text.splitAt_of_not_mem hh,
    Text.splitAt_of_not_mem hc, Text.splitAt_of_not_mem hs]
  simp

theorem decodeUrl?_segment (j : Json) : Base64.decodeUrl? (segment j) = some (Utf8.encode j.render) :=
  Base64.decodeUrl?_encodeUrl _

/-- The header reads back as the object naming the algorithm `HS256` and the type `JWT`. -/
theorem header_reads : (Base64.decodeUrl? (segment header)).bind Json.parse? =
    some (.object [("alg", .string "HS256" false), ("typ", .string "JWT" false)]) := by
  rw [decodeUrl?_segment, Option.bind_some,
    show header = .object (Json.stringMembers [("alg", "HS256"), ("typ", "JWT")]) from rfl,
    Json.parse?_render_strings]
  rfl

/-- **The claims of a signed token decode** to the actor's role and id and the two times,
each read back through the nearest double; they fail to decode only when a time does not
read back. -/
theorem decode_claimsOf (actor : Actor) (now : Instant) (ttl : Int) :
    (Json.decodeDocument claimFields noClaims (Utf8.encode (claimsOf actor now ttl).render)).toOption =
      (secondsOfNumber (toString (wholeSeconds (now.addNanos (ttl * Instant.nanosPerSecond))))).bind
        fun e => (secondsOfNumber (toString (wholeSeconds now))).map fun i =>
          { noClaims with role := actor.role, subject := actor.id, expiresAt := some e,
                          issuedAt := some i } := by
  unfold claimsOf
  generalize wholeSeconds (now.addNanos (ttl * Instant.nanosPerSecond)) = E
  generalize wholeSeconds now = I
  obtain ⟨id, role⟩ := actor
  dsimp only
  -- the subject is written only when the id is not empty; either way the members read back
  by_cases hid : id = ""
  case' pos =>
    subst hid
    have hread : Json.MembersReadAs
        ([("role", Json.str role)] ++ Json.textIfAny "sub" "" ++ [("exp", Json.int E), ("iat", Json.int I)])
        [("role", .string role (Json.escapes role)), ("exp", .number (toString E)),
          ("iat", .number (toString I))] :=
      .cons ⟨rfl, Json.readsAs_str _⟩ (.cons ⟨rfl, Json.readsAs_int _⟩ (.cons ⟨rfl, Json.readsAs_int _⟩ .nil))
    rw [Json.decodeDocument, Json.parse?_render_object hread]
  case' neg =>
    have hread : Json.MembersReadAs
        ([("role", Json.str role)] ++ Json.textIfAny "sub" id ++ [("exp", Json.int E), ("iat", Json.int I)])
        [("role", .string role (Json.escapes role)), ("sub", .string id (Json.escapes id)),
          ("exp", .number (toString E)), ("iat", .number (toString I))] := by
      rw [Json.textIfAny, if_neg hid]
      exact .cons ⟨rfl, Json.readsAs_str _⟩ (.cons ⟨rfl, Json.readsAs_str _⟩
        (.cons ⟨rfl, Json.readsAs_int _⟩ (.cons ⟨rfl, Json.readsAs_int _⟩ .nil)))
    rw [Json.decodeDocument, Json.parse?_render_object hread]
  all_goals
    simp only [Int.toString_eq_repr]
    cases he : secondsOfNumber E.repr <;> cases hi : secondsOfNumber I.repr <;>
      simp [Json.decodeValue, Json.takeRecord, Json.takeMembers, Json.Field.find?, claimFields,
        Json.Field.text, timeField, audienceField, refuseNone, he, hi, bind, Except.bind,
        Except.toOption, noClaims]

/-- **What reading a signed token comes to.** Read under the secret it was signed with, at
any instant `t`, the token of `actor` names exactly `actor`, and does so exactly when the actor
has an id and the role `user` or `admin`, both times read back, and `t` is before the
expiry read back plus the leeway. -/
theorem parse?_sign_eq_some {secret : List UInt8} {actor : Actor} {now : Instant} {ttl : Int}
    {t : Instant} {a : Actor} :
    parse? secret t (sign secret actor now ttl) = some a ↔
      a = actor ∧ actor.id ≠ "" ∧ (actor.role = "user" ∨ actor.role = "admin") ∧
        (secondsOfNumber (toString (wholeSeconds now))).isSome ∧
        ∃ e, secondsOfNumber (toString (wholeSeconds (now.addNanos (ttl * Instant.nanosPerSecond)))) =
            some e ∧ t.nanos < e * Instant.nanosPerSecond + leeway := by
  have hclaims := decode_claimsOf actor now ttl
  rw [parse?, splitText_sign]
  dsimp only
  rw [header_reads]
  have halg : headerValue "alg" [("alg", Json.string "HS256" false), ("typ", Json.string "JWT" false)] =
      some (.string "HS256" false) := rfl
  have hsig : Base64.decodeUrl? (signature secret (segment header ++ "." ++ segment (claimsOf actor now ttl))) =
      some (Hmac.sha256 secret (Utf8.encode (segment header ++ "." ++ segment (claimsOf actor now ttl)))) :=
    Base64.decodeUrl?_encodeUrl _
  simp only [decodeUrl?_segment, Option.bind_eq_bind, Option.bind_some, halg, hclaims, hsig,
    beq_self_eq_true, Bool.true_and]
  -- what is left turns on the two times read back
  cases secondsOfNumber (toString (wholeSeconds (now.addNanos (ttl * Instant.nanosPerSecond)))) <;>
    cases secondsOfNumber (toString (wholeSeconds now)) <;>
    simp [current, noClaims]
  -- both times read back; what is left are the checks on the lifetime and the actor
  have heta : ({ id := actor.id, role := actor.role } : Actor) = actor := rfl
  rw [heta]
  constructor
  · rintro ⟨⟨⟨hlive, hid⟩, hrole⟩, rfl⟩
    exact ⟨rfl, hid, hrole, hlive⟩
  · rintro ⟨rfl, hid, hrole, hlive⟩
    exact ⟨⟨⟨hlive, hid⟩, hrole⟩, rfl⟩

end Token

namespace Instant

/-- The instants a clock of signed 64-bit whole seconds, counted from the start of
0001-01-01 (`62135596800` seconds before the epoch), can hold: about 292 billion years
either way. -/
def OnClock (t : Instant) : Prop :=
  -(2 ^ 63 : Int) ≤ Token.wholeSeconds t + 62135596800 ∧ Token.wholeSeconds t + 62135596800 < 2 ^ 63

instance (t : Instant) : Decidable t.OnClock := by
  unfold OnClock
  infer_instance

example : daysFromCivil 1 1 1 * 86400 = -62135596800 := by decide

end Instant

namespace Token

/-- Whole seconds are the seconds at or before an instant. -/
theorem wholeSeconds_bounds (t : Instant) :
    wholeSeconds t * Instant.nanosPerSecond ≤ t.nanos ∧
      t.nanos < (wholeSeconds t + 1) * Instant.nanosPerSecond := by
  simp only [wholeSeconds, Instant.nanosPerSecond]
  omega

/-- **A live token reads back.** At an instant `t` from the epoch on and within the first
`2 ^ 53` seconds, the token of an actor with an id and the role `user` or `admin`, issued on
the clock for a lifetime that ends on the clock after `t`, reads as that actor. -/
theorem parse?_sign_of_live {secret : List UInt8} {actor : Actor} {now : Instant} {ttl : Int}
    {t : Instant} (hid : actor.id ≠ "") (hrole : actor.role = "user" ∨ actor.role = "admin")
    (hnow : now.OnClock) (hexp : (now.addNanos (ttl * Instant.nanosPerSecond)).OnClock)
    (ht0 : 0 ≤ t.nanos) (ht : t.nanos < 2 ^ 53 * Instant.nanosPerSecond)
    (hlive : t < now.addNanos (ttl * Instant.nanosPerSecond)) :
    parse? secret t (sign secret actor now ttl) = some actor := by
  obtain ⟨hnowLo, hnowHi⟩ := hnow
  obtain ⟨-, hexpHi⟩ := hexp
  have hexpBounds := wholeSeconds_bounds (now.addNanos (ttl * Instant.nanosPerSecond))
  have hlive' : t.nanos < (now.addNanos (ttl * Instant.nanosPerSecond)).nanos := hlive
  refine parse?_sign_eq_some.mpr ⟨rfl, hid, hrole, secondsOfNumber_toString_isSome ?_, ?_⟩
  · -- the issue time is on the clock, so far below a hundred digits
    have h64 : (2 : Int) ^ 63 = 9223372036854775808 := by norm_num
    have h100 : (10 : Nat) ^ 100 > 2 ^ 64 := by norm_num
    rw [h64] at hnowLo hnowHi
    omega
  · generalize wholeSeconds (now.addNanos (ttl * Instant.nanosPerSecond)) = E at hexpHi hexpBounds ⊢
    generalize (now.addNanos (ttl * Instant.nanosPerSecond)).nanos = X at hexpBounds hlive'
    have h63 : (2 : Int) ^ 63 = 9223372036854775808 := by norm_num
    have h53 : (2 : Int) ^ 53 = 9007199254740992 := by norm_num
    simp only [Instant.nanosPerSecond, h63, h53] at hexpHi hexpBounds ht ⊢
    -- the expiry is after the epoch, since `t` is before it
    obtain ⟨e, he, hexact, hlarge⟩ := secondsOfNumber_toString_of_nonneg (show 0 ≤ E by omega)
      (by rw [h63]; omega)
    refine ⟨e, he, ?_⟩
    simp only [leeway, Instant.nanosPerSecond]
    rcases le_or_gt E (2 ^ 53) with hsmall | hbig
    · rw [hexact hsmall]
      omega
    · have := hlarge hbig.le
      rw [h53] at this
      omega


/-- **Tokens read back as the actor they were signed for.** Under the secret it was signed
with, the token of an actor with an id and the role `user` or `admin`, issued at an instant on
the clock for a lifetime that ends on the clock after the instant tokens are judged at, reads
as that actor. The token of an actor with no id, or with any other role, is refused at every
instant. -/
theorem tokens_read_back (secret : List UInt8) (actor : Actor) (now : Instant) (ttl : Int) :
    (actor.id ≠ "" → (actor.role = "user" ∨ actor.role = "admin") → now.OnClock →
        (now.addNanos (ttl * Instant.nanosPerSecond)).OnClock →
        judgedAt < now.addNanos (ttl * Instant.nanosPerSecond) →
        parse? secret judgedAt (sign secret actor now ttl) = some actor) ∧
      (actor.id = "" ∨ ¬(actor.role = "user" ∨ actor.role = "admin") →
        ∀ t, parse? secret t (sign secret actor now ttl) = none) := by
  refine ⟨fun hid hrole hnow hexp hlive =>
    parse?_sign_of_live hid hrole hnow hexp (by decide) (by decide) hlive, ?_⟩
  intro hbad t
  cases h : parse? secret t (sign secret actor now ttl) with
  | none => rfl
  | some a =>
    -- any actor read back would have an id and one of the two roles
    obtain ⟨-, hid, hrole, -⟩ := parse?_sign_eq_some.mp h
    rcases hbad with hbad | hbad
    · exact absurd hbad hid
    · exact absurd hrole hbad

/-- A user's token for an hour from the judging instant reads back as the user; a guest's
is refused. -/
theorem tokens_read_back_userForAnHour :
    (("user-1" : String) ≠ "" ∧ (("user" : String) = "user" ∨ ("user" : String) = "admin") ∧
        judgedAt.OnClock ∧ (judgedAt.addNanos (3600 * Instant.nanosPerSecond)).OnClock ∧
        judgedAt < judgedAt.addNanos (3600 * Instant.nanosPerSecond)) ∧
      parse? (Utf8.encode "s3cret") judgedAt
          (sign (Utf8.encode "s3cret") ⟨"user-1", "user"⟩ judgedAt 3600) = some ⟨"user-1", "user"⟩ ∧
      parse? (Utf8.encode "s3cret") judgedAt
          (sign (Utf8.encode "s3cret") ⟨"user-1", "guest"⟩ judgedAt 3600) = none := by
  have hid : ("user-1" : String) ≠ "" := by decide
  have hrole : ("user" : String) = "user" ∨ ("user" : String) = "admin" := .inl rfl
  have hnow : judgedAt.OnClock := by decide
  have hexp : (judgedAt.addNanos (3600 * Instant.nanosPerSecond)).OnClock := by decide
  have hlive : judgedAt < judgedAt.addNanos (3600 * Instant.nanosPerSecond) := by decide
  have hguest : ¬(("guest" : String) = "user" ∨ ("guest" : String) = "admin") := by decide
  exact ⟨⟨hid, hrole, hnow, hexp, hlive⟩,
    (tokens_read_back _ ⟨"user-1", "user"⟩ judgedAt 3600).1 hid hrole hnow hexp hlive,
    (tokens_read_back _ ⟨"user-1", "guest"⟩ judgedAt 3600).2 (.inr hguest) judgedAt⟩

end Token

end OnrampLedger
