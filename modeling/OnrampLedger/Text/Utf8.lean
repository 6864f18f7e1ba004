/-!
# UTF-8 decoding that never fails

Bytes that arrive from outside are read as UTF-8 text. A well-formed sequence (the
shortest encoding of a scalar value, surrogates excluded) reads as its character; any
other byte reads as U+FFFD and decoding goes on at the next byte. So every byte
sequence reads as some text, and well-formed text reads back as itself.
-/

namespace OnrampLedger

namespace Utf8

/-- Whether a byte lies in `[lo, hi]`. -/
def within (b : UInt8) (lo hi : Nat) : Bool := lo ≤ b.toNat && b.toNat ≤ hi

/-- The low six bits a continuation byte carries. -/
def payload (b : UInt8) : Nat := b.toNat % 64

/-- The scalar value of a well-formed multi-byte sequence led by `lead` and continued by
`rest`, with the number of continuation bytes it takes. The allowed range of the second
byte depends on the lead: it rules out overlong forms, surrogates and values past
U+10FFFF. -/
def sequence (lead : UInt8) (rest : List UInt8) : Option (Nat × Nat) :=
  let l := lead.toNat
  match rest with
  | b1 :: r1 =>
    if 0xC2 ≤ l ∧ l ≤ 0xDF then
      if within b1 0x80 0xBF then some ((l % 32) * 64 + payload b1, 1) else none
    else if 0xE0 ≤ l ∧ l ≤ 0xEF then
      let lo := if l = 0xE0 then 0xA0 else 0x80
      let hi := if l = 0xED then 0x9F else 0xBF
      match r1 with
      | b2 :: _ =>
        if within b1 lo hi && within b2 0x80 0xBF then
          some ((l % 16) * 4096 + payload b1 * 64 + payload b2, 2)
        else none
      | [] => none
    else if 0xF0 ≤ l ∧ l ≤ 0xF4 then
      let lo := if l = 0xF0 then 0x90 else 0x80
      let hi := if l = 0xF4 then 0x8F else 0xBF
      match r1 with
      | b2 :: b3 :: _ =>
        if within b1 lo hi && within b2 0x80 0xBF && within b3 0x80 0xBF then
          some ((l % 8) * 262144 + payload b1 * 4096 + payload b2 * 64 + payload b3, 3)
        else none
      | _ => none
    else none
  | [] => none

/-- The text of a byte sequence, each byte that starts no well-formed sequence read as
U+FFFD. -/
def decode (bs : List UInt8) : List Char :=
  match bs with
  | [] => []
  | b :: rest =>
    if b.toNat < 0x80 then Char.ofNat b.toNat :: decode rest
    else
      match sequence b rest with
      | some (v, k) => Char.ofNat v :: decode (rest.drop k)
      | none => '\uFFFD' :: decode rest
termination_by bs.length
decreasing_by
  all_goals simp only [List.length_cons, List.length_drop]
  all_goals omega

/-- The UTF-8 bytes of the scalar value `v`. -/
def encodeScalar (v : Nat) : List UInt8 :=
  if v < 0x80 then [v.toUInt8]
  else if v < 0x800 then [(0xC0 + v / 64).toUInt8, (0x80 + v % 64).toUInt8]
  else if v < 0x10000 then
    [(0xE0 + v / 4096).toUInt8, (0x80 + v / 64 % 64).toUInt8, (0x80 + v % 64).toUInt8]
  else
    [(0xF0 + v / 262144).toUInt8, (0x80 + v / 4096 % 64).toUInt8, (0x80 + v / 64 % 64).toUInt8,
      (0x80 + v % 64).toUInt8]

/-- The UTF-8 bytes of a text. -/
def encode (s : String) : List UInt8 := s.toUTF8.toList

/-- The text of a byte sequence, as a `String`. -/
def decodeText (bs : List UInt8) : String := String.ofList (decode bs)

end Utf8

end OnrampLedger
