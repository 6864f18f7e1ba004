import OnrampLedger.Money.Decimal
import OnrampLedger.Text.Numeral
/-!
# Reading decimal text

Amounts arrive as text: an optional sign, digits with at most one point (`.5` and `5.`
are fine), and an optional exponent `e` or `E` with its own optional sign. The exponent
must fit a signed 32-bit word, and so must the exponent that results once the places
behind the point are counted in.

Each refusal names the text it could not read, and the message says which part failed.
The text quoted is the one in hand at that moment: the whole input for the exponent,
the part before the exponent for the digits.
-/

namespace OnrampLedger

namespace Decimal

/-- Why a text is not a decimal; each carries the text quoted in its message. -/
inductive ParseError
  /-- The digits are not an optionally signed run of digits. -/
  | notNumber (text : String)
  /-- A second point. -/
  | tooManyPoints (text : String)
  /-- The exponent is not an optionally signed numeral. -/
  | exponentNotNumeric (text : String)
  /-- The exponent does not fit 32 bits. -/
  | exponentTooLarge (text : String)
  deriving DecidableEq, Repr

/-- The message of a refusal. -/
def ParseError.message : ParseError → String
  | .notNumber t => s!"can't convert {t} to decimal"
  | .tooManyPoints t => s!"can't convert {t} to decimal: too many .s"
  | .exponentNotNumeric t => s!"can't convert {t} to decimal: exponent is not numeric"
  | .exponentTooLarge t => s!"can't convert {t} to decimal: fractional part too long"

/-- The value `c · 10 ^ e`. -/
def scientific (c : Int) (e : Int) : Decimal :=
  if 0 ≤ e then make (c * Int.pow 10 e.toNat) 0 else make c e.natAbs

/-- The mantissa part of the text `written`: digits with at most one point, scaled by
the exponent `e`. -/
def parseMantissa (written : String) (mant : List Char) (e : Int) :
    Except ParseError Decimal :=
  let text := String.ofList mant
  if mant.count '.' ≥ 2 then .error (.tooManyPoints text)
  else
    let whole := mant.takeWhile (· ≠ '.')
    let frac := (mant.dropWhile (· ≠ '.')).drop 1
    let exp := e - frac.length
    match Numeral.bigInt? (whole ++ frac) with
    | none => .error (.notNumber text)
    | some c =>
      if exp < -(Int.pow 2 31) ∨ exp ≥ Int.pow 2 31 then .error (.exponentTooLarge written)
      else .ok (scientific c exp)

/-- Reads a decimal from its text. -/
def parse (s : String) : Except ParseError Decimal :=
  let cs := s.toList
  let mant := cs.takeWhile (fun c => c ≠ 'e' ∧ c ≠ 'E')
  match cs.dropWhile (fun c => c ≠ 'e' ∧ c ≠ 'E') with
  | [] => parseMantissa s mant 0
  | _ :: expText =>
    match Numeral.parseSigned 32 (String.ofList expText) with
    | .error .outOfRange => .error (.exponentTooLarge s)
    | .error .malformed => .error (.exponentNotNumeric s)
    | .ok e => parseMantissa s mant e

/-- Reads a decimal from the raw text of a JSON value. The literal `null` leaves the
target as it was (`none`); a text of more than two characters between double quotes is
read without them, its escapes left as they are; anything else is read as it stands.
A refusal names the text read. -/
def ofJsonText (raw : String) : Except String (Option Decimal) :=
  if raw = "null" then .ok none
  else
    let cs := raw.toList
    let inner := if cs.length > 2 ∧ cs.head? = some '"' ∧ cs.getLast? = some '"' then
      String.ofList ((cs.drop 1).dropLast) else raw
    match parse inner with
    | .ok d => .ok (some d)
    | .error e => .error s!"error decoding string '{inner}': {e.message}"

end Decimal

end OnrampLedger
