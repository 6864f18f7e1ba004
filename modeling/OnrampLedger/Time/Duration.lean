import OnrampLedger.Number.Binary64
import OnrampLedger.Time.Instant
/-!
# Durations and their text

A duration is a signed whole number of nanoseconds that fits a 64-bit word. Arithmetic
on durations is 64-bit arithmetic: `wrap64` brings a result back into the range, and
`negate` is negation, which leaves the least duration, `-2 ^ 63` nanoseconds, as it is.

Its text (`render`) names units from hours down: `0s` for zero; below one second a
single unit of nanoseconds `ns`, microseconds `µs` or milliseconds `ms` with a decimal
fraction; otherwise seconds with a fraction, preceded by minutes once there is a whole
minute and by hours once there is a whole hour (`45s`, `5m0s`, `1h0m0s`, `25h1m1.001s`).
Fractions have no zero at their end.

Reading (`parse?`) accepts an optional sign and one or more terms, each a decimal number
(digits, a point, or both) and a unit `ns`, `us`, `µs`, `μs`, `ms`, `s`, `m` or `h`;
`0` alone is zero. The unit is everything up to the next digit or point. The whole part
of a term is exact; its fraction is converted in binary64 arithmetic, as
`⌊f · (unit / 10 ^ k)⌋` for the `k` fraction digits `f` kept, each step rounded to the
nearest double. Any term or sum past `2 ^ 63` nanoseconds is refused.
-/

namespace OnrampLedger

/-- A signed span of time in nanoseconds. -/
structure Duration where
  nanos : Int
  deriving DecidableEq, Repr, Inhabited

namespace Duration

/-- The unsigned magnitude of a duration as text, in the largest fitting units. -/
def magnitudeText (u : Nat) : String :=
  if u = 0 then "0s"
  else if u < 1000 then toString u ++ "ns"
  else if u < 1000000 then toString (u / 1000) ++ Instant.fractionText (u % 1000) 3 ++ "µs"
  else if u < 1000000000 then
    toString (u / 1000000) ++ Instant.fractionText (u % 1000000) 6 ++ "ms"
  else
    let secs := u / 1000000000
    let sText := toString (secs % 60) ++ Instant.fractionText (u % 1000000000) 9 ++ "s"
    let mins := secs / 60
    if mins = 0 then sText
    else
      let mText := toString (mins % 60) ++ "m" ++ sText
      let hours := mins / 60
      if hours = 0 then mText else toString hours ++ "h" ++ mText

/-- The text of a duration. -/
def render (d : Duration) : String :=
  if d.nanos < 0 then "-" ++ magnitudeText d.nanos.natAbs else magnitudeText d.nanos.toNat

/-- Nanoseconds in one unit. -/
def unitNanos? : String → Option Nat
  | "ns" => some 1
  | "us" => some 1000
  | "µs" => some 1000
  | "μs" => some 1000
  | "ms" => some 1000000
  | "s" => some 1000000000
  | "m" => some 60000000000
  | "h" => some 3600000000000
  | _ => none

/-- The largest magnitude a sum of terms may reach. -/
def limit : Nat := Nat.pow 2 63

/-- Leading digits as a whole number, refused once it passes `limit`. -/
def wholeDigits : List Char → Nat → Option (Nat × List Char)
  | [], acc => some (acc, [])
  | c :: cs, acc =>
    if c.isDigit then
      if acc > limit / 10 then none
      else
        let n := acc * 10 + (c.toNat - '0'.toNat)
        if n > limit then none else wholeDigits cs n
    else some (acc, c :: cs)

/-- Leading fraction digits: the value of those kept, how many were kept, and the rest.
Digits stop being kept, but are still consumed, once the value would pass `2 ^ 63`. -/
def fractionDigits : List Char → Nat → Nat → Bool → Nat × Nat × List Char
  | [], acc, k, _ => (acc, k, [])
  | c :: cs, acc, k, full =>
    if c.isDigit then
      if full then fractionDigits cs acc k true
      else if acc > (limit - 1) / 10 then fractionDigits cs acc k true
      else
        let y := acc * 10 + (c.toNat - '0'.toNat)
        if y > limit then fractionDigits cs acc k true else fractionDigits cs y (k + 1) false
    else (acc, k, c :: cs)

/-- The nanoseconds a fraction `f / 10 ^ k` of `unit` contributes, in binary64 steps. -/
def fractionNanos (f k unit : Nat) : Nat :=
  let (fn, fd) := Binary64.nearest f 1
  let (un, ud) := Binary64.nearest unit (Nat.pow 10 k)
  let (pn, pd) := Binary64.nearest (fn * un) (fd * ud)
  pn / pd

/-- Reads the terms of a duration after its sign, adding to `acc`; `fuel` bounds the
number of terms. -/
def readTerms : Nat → List Char → Nat → Option Nat
  | _, [], acc => some acc
  | 0, _ :: _, _ => none
  | fuel + 1, c :: cs, acc =>
    if !(c = '.' ∨ c.isDigit) then none
    else do
      let (v, r) ← wholeDigits (c :: cs) 0
      let pre : Bool := r.length != (c :: cs).length
      let (f, k, r, post) := match r with
        | '.' :: r' =>
          let (f, k, r'') := fractionDigits r' 0 0 false
          (f, k, r'', r''.length != r'.length)
        | r' => (0, 0, r', (false : Bool))
      if !pre ∧ !post then none
      else
        let unitText := r.takeWhile (fun c => !(c = '.' ∨ c.isDigit))
        let r := r.dropWhile (fun c => !(c = '.' ∨ c.isDigit))
        if unitText.isEmpty then none
        else do
          let unit ← unitNanos? (String.ofList unitText)
          if v > limit / unit then none
          else
            let v := v * unit
            let v := if f > 0 then v + fractionNanos f k unit else v
            if v > limit then none
            else
              let acc := acc + v
              if acc > limit then none else readTerms fuel r acc

/-- A whole number of nanoseconds brought into the signed 64-bit range, wrapping around
as 64-bit arithmetic does. -/
def wrap64 (n : Int) : Int := n.bmod (Nat.pow 2 64)

/-- A duration negated in 64-bit arithmetic. Every duration of the range but the least is
negated exactly; the least, `-2 ^ 63` nanoseconds, has no negative in the range and wraps
around to itself. -/
def negate (d : Duration) : Duration := ⟨wrap64 (-d.nanos)⟩

/-- Reads a duration. -/
def parse? (s : String) : Option Duration :=
  let (negative, rest) := match s.toList with
    | '-' :: r => (true, r)
    | '+' :: r => (false, r)
    | r => (false, r)
  if rest = ['0'] then some ⟨0⟩
  else if rest.isEmpty then none
  else match readTerms rest.length rest 0 with
    | none => none
    | some d =>
      if negative then some ⟨-(d : Int)⟩
      else if d > limit - 1 then none else some ⟨d⟩

end Duration

end OnrampLedger
