/-!
# Integer numerals

The integer text the service accepts everywhere it reads a count or an exponent: an
optional `+` or `-`, then one or more ASCII digits, and the value must fit a signed
word of a given width. Nothing else is allowed: no blank, no `_`, no base prefix.

Digits are read from the left; as soon as those read so far exceed the unsigned word
of that width the text is out of range, even if a bad character follows.
-/

namespace OnrampLedger

/-- Why a text is not an integer numeral. -/
inductive NumeralError
  /-- A character other than a digit, or no digit at all. -/
  | malformed
  /-- The digits denote a number too large for the word. -/
  | outOfRange
  deriving DecidableEq, Repr

namespace Numeral

/-- The value of a run of digits after `acc`, refused once it passes `limit`. -/
def digitsValue (limit : Nat) : List Char → Nat → Except NumeralError Nat
  | [], acc => .ok acc
  | c :: cs, acc =>
    if c.isDigit then
      let n := acc * 10 + (c.toNat - '0'.toNat)
      if n > limit then .error .outOfRange else digitsValue limit cs n
    else .error .malformed

/-- The unsigned value of a nonempty run of digits that fits `bits` bits. -/
def unsigned (bits : Nat) : List Char → Except NumeralError Nat
  | [] => .error .malformed
  | cs => digitsValue (Nat.pow 2 bits - 1) cs 0

/-- Reads an optionally signed numeral that fits a signed word of `bits` bits. -/
def parseSigned (bits : Nat) (s : String) : Except NumeralError Int :=
  let (negative, rest) := match s.toList with
    | '+' :: cs => (false, cs)
    | '-' :: cs => (true, cs)
    | cs => (false, cs)
  let half := Nat.pow 2 (bits - 1)
  match unsigned bits rest with
  | .error .malformed => .error .malformed
  | .error .outOfRange => .error .outOfRange
  | .ok n =>
    if negative then
      if n > half then .error .outOfRange else .ok (-(n : Int))
    else
      if n ≥ half then .error .outOfRange else .ok n

/-- A count in a 64-bit signed word, or nothing. -/
def toInt? (s : String) : Option Int :=
  match parseSigned 64 s with
  | .ok n => some n
  | .error _ => none

/-- Optionally signed digits of any length. -/
def bigInt? (cs : List Char) : Option Int :=
  let (negative, rest) := match cs with
    | '+' :: r => (false, r)
    | '-' :: r => (true, r)
    | r => (false, r)
  if rest.isEmpty then none
  else match digitsValue (Nat.pow 10 rest.length) rest 0 with
    | .ok n => some (if negative then -(n : Int) else n)
    | .error _ => none

end Numeral

end OnrampLedger
