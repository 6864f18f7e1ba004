import OnrampLedger.Text.Numeral
/-!
# Instants and their text

An instant is a whole number of nanoseconds since 1970-01-01T00:00:00Z. Its text is
RFC 3339 in UTC: the date, `T`, the time of day, a fraction of a second only when it is
not zero (with no zero at its end), and `Z`.

Calendar dates are converted with the proleptic Gregorian calendar, counting days from
the epoch (`daysFromCivil`, `civilFromDays`); the two are inverse on valid dates.
-/

namespace OnrampLedger

/-- A point in time: nanoseconds since the Unix epoch. -/
structure Instant where
  nanos : Int
  deriving DecidableEq, Repr, Inhabited

namespace Instant

instance : LT Instant := ⟨fun a b => a.nanos < b.nanos⟩
instance : LE Instant := ⟨fun a b => a.nanos ≤ b.nanos⟩
instance (a b : Instant) : Decidable (a < b) := inferInstanceAs (Decidable (a.nanos < b.nanos))
instance (a b : Instant) : Decidable (a ≤ b) := inferInstanceAs (Decidable (a.nanos ≤ b.nanos))

/-- The instant `d` nanoseconds later (earlier when `d` is negative). -/
def addNanos (t : Instant) (d : Int) : Instant := ⟨t.nanos + d⟩

/-- Nanoseconds in one second. -/
def nanosPerSecond : Int := 1000000000

/-- Days since the epoch of a date of the proleptic Gregorian calendar. -/
def daysFromCivil (y : Int) (m d : Nat) : Int :=
  let y := if m ≤ 2 then y - 1 else y
  let era := y / 400
  let yoe := y - era * 400
  let mp : Int := if m > 2 then (m : Int) - 3 else (m : Int) + 9
  let doy := (153 * mp + 2) / 5 + (d : Int) - 1
  let doe := yoe * 365 + yoe / 4 - yoe / 100 + doy
  era * 146097 + doe - 719468

/-- The date (year, month, day) of a day counted from the epoch. -/
def civilFromDays (z : Int) : Int × Nat × Nat :=
  let z := z + 719468
  let era := z / 146097
  let doe := z - era * 146097
  let yoe := (doe - doe / 1460 + doe / 36524 - doe / 146096) / 365
  let doy := doe - (365 * yoe + yoe / 4 - yoe / 100)
  let mp := (5 * doy + 2) / 153
  let d := doy - (153 * mp + 2) / 5 + 1
  let m := if mp < 10 then mp + 3 else mp - 9
  let y := yoe + era * 400 + (if m ≤ 2 then 1 else 0)
  (y, m.toNat, d.toNat)

/-- `n` in decimal with at least `width` digits. -/
def padded (n : Nat) (width : Nat) : String :=
  let ds := (toString n).toList
  String.ofList (List.replicate (width - ds.length) '0' ++ ds)

/-- The digits of a fraction of `places` places, without zeros at the end, after a
point; nothing when the fraction is zero. -/
def fractionText (v places : Nat) : String :=
  let ds := ((padded v places).toList.reverse.dropWhile (· = '0')).reverse
  if ds.isEmpty then "" else String.ofList ('.' :: ds)

/-- The year with at least four digits, a minus sign before a negative one. -/
def yearText (y : Int) : String :=
  if y < 0 then "-" ++ padded y.natAbs 4 else padded y.toNat 4

/-- RFC 3339 text in UTC with the shortest exact fraction of a second. -/
def render (t : Instant) : String :=
  let secs := t.nanos / nanosPerSecond
  let frac := (t.nanos % nanosPerSecond).toNat
  let days := secs / 86400
  let sod := (secs % 86400).toNat
  let (y, m, d) := civilFromDays days
  yearText y ++ "-" ++ padded m 2 ++ "-" ++ padded d 2 ++ "T" ++ padded (sod / 3600) 2 ++ ":" ++
    padded (sod / 60 % 60) 2 ++ ":" ++ padded (sod % 60) 2 ++ fractionText frac 9 ++ "Z"

/-- Days in a month of a year. -/
def daysInMonth (y : Int) (m : Nat) : Nat :=
  match m with
  | 2 => if (y % 4 = 0 ∧ y % 100 ≠ 0) ∨ y % 400 = 0 then 29 else 28
  | 4 | 6 | 9 | 11 => 30
  | _ => 31

/-- The value of exactly `n` ASCII digits at the front of `cs`, and the rest. -/
def takeDigits : Nat → List Char → Option (Nat × List Char)
  | 0, cs => some (0, cs)
  | n + 1, c :: cs =>
    if c.isDigit then
      (takeDigits n cs).map fun (v, rest) => ((c.toNat - '0'.toNat) * Nat.pow 10 n + v, rest)
    else none
  | _ + 1, [] => none

/-- Reads a fraction of a second after its point: one or more digits, as nanoseconds
(digits past the ninth are dropped). -/
def readFraction (cs : List Char) : Option (Nat × List Char) :=
  let ds := cs.takeWhile Char.isDigit
  if ds.isEmpty then none
  else
    let nine := (ds ++ List.replicate 9 '0').take 9
    some (nine.foldl (fun acc c => acc * 10 + (c.toNat - '0'.toNat)) 0, cs.dropWhile Char.isDigit)

/-- Reads a zone: `Z` for UTC, or a sign with hours and minutes, as an offset in seconds. -/
def readZone : List Char → Option Int
  | ['Z'] => some 0
  | sign :: rest =>
    if sign = '+' ∨ sign = '-' then
      match takeDigits 2 rest with
      | some (h, ':' :: rest') =>
        match takeDigits 2 rest' with
        | some (mi, []) =>
          if h < 24 ∧ mi < 60 then
            let off : Int := (h * 3600 + mi * 60 : Nat)
            some (if sign = '-' then -off else off)
          else none
        | _ => none
      | _ => none
    else none
  | [] => none

/-- Reads RFC 3339 text: a date, `T`, a time of day with an optional fraction of a
second, and a zone. -/
def parse? (s : String) : Option Instant := do
  let (y, r) ← takeDigits 4 s.toList
  let r ← match r with | '-' :: r => some r | _ => none
  let (mo, r) ← takeDigits 2 r
  let r ← match r with | '-' :: r => some r | _ => none
  let (d, r) ← takeDigits 2 r
  let r ← match r with | 'T' :: r => some r | _ => none
  let (h, r) ← takeDigits 2 r
  let r ← match r with | ':' :: r => some r | _ => none
  let (mi, r) ← takeDigits 2 r
  let r ← match r with | ':' :: r => some r | _ => none
  let (se, r) ← takeDigits 2 r
  let (frac, r) ← match r with
    | '.' :: r => readFraction r
    | ',' :: r => readFraction r
    | r => some (0, r)
  let off ← readZone r
  if 1 ≤ mo ∧ mo ≤ 12 ∧ 1 ≤ d ∧ d ≤ daysInMonth y mo ∧ h < 24 ∧ mi < 60 ∧ se < 60 then
    let secs := daysFromCivil y mo d * 86400 + (h * 3600 + mi * 60 + se : Nat) - off
    some ⟨secs * nanosPerSecond + frac⟩
  else none

end Instant

end OnrampLedger
