/-!
# Hexadecimal text of bytes

Bytes are written as two lower-case hex digits each. Reading accepts digits of either
case and needs an even number of them.
-/

namespace OnrampLedger

namespace Hex

/-- The hex digit of a value below 16, lower case. -/
def digit (n : Nat) : Char := Nat.digitChar n

/-- The two hex digits of a byte. -/
def byteChars (b : UInt8) : List Char := [digit (b.toNat / 16), digit (b.toNat % 16)]

/-- Lower-case hex text of bytes. -/
def encode (bs : List UInt8) : String := String.ofList (bs.flatMap byteChars)

/-- The value of one hex digit of either case. -/
def digitValue? (c : Char) : Option Nat :=
  if '0' ≤ c ∧ c ≤ '9' then some (c.toNat - '0'.toNat)
  else if 'a' ≤ c ∧ c ≤ 'f' then some (c.toNat - 'a'.toNat + 10)
  else if 'A' ≤ c ∧ c ≤ 'F' then some (c.toNat - 'A'.toNat + 10)
  else none

/-- Bytes from pairs of hex digits; refused on an odd count or a character that is not
a hex digit. -/
def decodeChars : List Char → Option (List UInt8)
  | [] => some []
  | [_] => none
  | a :: b :: rest => do
    let hi ← digitValue? a
    let lo ← digitValue? b
    let tail ← decodeChars rest
    pure ((hi * 16 + lo).toUInt8 :: tail)

/-- Bytes from hex text. -/
def decode? (s : String) : Option (List UInt8) := decodeChars s.toList

end Hex

end OnrampLedger
