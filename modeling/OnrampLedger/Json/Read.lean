import OnrampLedger.Json.Value
import OnrampLedger.Text.Utf8

/-!
# Reading JSON text

The reader works on bytes, as bodies arrive. It accepts exactly the JSON grammar:
whitespace is space, tab, line feed and carriage return; strings hold no raw control
byte and only the escapes `\" \\ \/ \b \f \n \r \t \uXXXX`; numbers are
`-?(0|[1-9][0-9]*)(.[0-9]+)?([eE][+-]?[0-9]+)?`; at most 10000 containers may be open
at once.

String contents are decoded leniently: a byte that starts no well-formed UTF-8
sequence reads as U+FFFD, and so does a `\u` escape of a surrogate that is not the
first half of a well-formed pair.

Two entry points differ only in what may follow the value: `Json.parse?` reads a whole
document, which may end in whitespace only; `Json.parseFirst?` reads the first value of
a stream and ignores whatever comes after it.
-/

namespace OnrampLedger

namespace Json

/-- Byte values of the characters the grammar names. -/
def byte (c : Char) : UInt8 := c.toNat.toUInt8

/-- The whitespace bytes of the grammar. -/
def isSpace (b : UInt8) : Bool :=
  b == byte ' ' || b == byte '\t' || b == byte '\n' || b == byte '\r'

/-- An ASCII digit. -/
def isDigit (b : UInt8) : Bool := byte '0' ≤ b && b ≤ byte '9'

/-- An ASCII hexadecimal digit, in either case. -/
def isHex (b : UInt8) : Bool :=
  isDigit b || (byte 'a' ≤ b && b ≤ byte 'f') || (byte 'A' ≤ b && b ≤ byte 'F')

/-- The value of a hexadecimal digit. -/
def hexValue (b : UInt8) : Nat :=
  if isDigit b then b.toNat - 48
  else if byte 'a' ≤ b && b ≤ byte 'f' then b.toNat - 87
  else b.toNat - 55

/-- The value of four hexadecimal digits. -/
def hex4 (a b c d : UInt8) : Nat :=
  ((hexValue a * 16 + hexValue b) * 16 + hexValue c) * 16 + hexValue d

/-- Drops leading whitespace. -/
def skipSpace (bs : List UInt8) : List UInt8 := bs.dropWhile isSpace

/-- Text of ASCII bytes. -/
def asciiText (bs : List UInt8) : String := String.ofList (bs.map fun b => Char.ofNat b.toNat)

/-- The byte a one-letter escape stands for. -/
def simpleEscape (e : UInt8) : UInt8 :=
  if e == byte 'b' then 0x08
  else if e == byte 'f' then 0x0C
  else if e == byte 'n' then 0x0A
  else if e == byte 'r' then 0x0D
  else if e == byte 't' then 0x09
  else e

/-- Whether a byte may follow a backslash as a one-letter escape. -/
def isSimpleEscape (e : UInt8) : Bool :=
  "\"\\/bfnrt".toList.any fun c => byte c == e

/-- The contents of a string up to its closing quote, checked against the grammar, with
whether they held an escape and the bytes after the quote. -/
def stringBody : List UInt8 → List UInt8 → Bool → Option (List UInt8 × Bool × List UInt8)
  | [], _, _ => none
  | b :: rest, acc, esc =>
    if b == byte '"' then some (acc.reverse, esc, rest)
    else if b < 0x20 then none
    else if b == byte '\\' then
      match rest with
      | [] => none
      | e :: r =>
        if isSimpleEscape e then stringBody r (e :: b :: acc) true
        else if e == byte 'u' then
          match r with
          | h1 :: h2 :: h3 :: h4 :: r2 =>
            if isHex h1 && isHex h2 && isHex h3 && isHex h4 then
              stringBody r2 (h4 :: h3 :: h2 :: h1 :: e :: b :: acc) true
            else none
          | _ => none
        else none
    else stringBody rest (b :: acc) esc

/-- A first half of a surrogate pair. -/
def isHighSurrogate (v : Nat) : Bool := 0xD800 ≤ v && v < 0xDC00

/-- A second half of a surrogate pair. -/
def isLowSurrogate (v : Nat) : Bool := 0xDC00 ≤ v && v < 0xE000

/-- The scalar value of a well-formed surrogate pair whose first half is `v` and whose
second half is the escape at the front of `bs`. -/
def pairedWith (v : Nat) (bs : List UInt8) : Option Nat :=
  match bs with
  | s1 :: s2 :: g1 :: g2 :: g3 :: g4 :: _ =>
    let w := hex4 g1 g2 g3 g4
    if s1 == byte '\\' && s2 == byte 'u' && isHighSurrogate v && isLowSurrogate w then
      some (0x10000 + (v - 0xD800) * 0x400 + (w - 0xDC00))
    else none
  | _ => none

/-- Checked string contents with every escape replaced by the UTF-8 bytes of what it
stands for. A surrogate escape that does not open a well-formed pair stands for U+FFFD
and leaves the escape after it to be read on its own. -/
def unescape (bs : List UInt8) : List UInt8 :=
  match bs with
  | [] => []
  | b :: rest =>
    if b != byte '\\' then b :: unescape rest
    else
      match rest with
      | [] => []
      | e :: r =>
        if e != byte 'u' then simpleEscape e :: unescape r
        else
          match r with
          | h1 :: h2 :: h3 :: h4 :: r2 =>
            let v := hex4 h1 h2 h3 h4
            if isHighSurrogate v || isLowSurrogate v then
              match pairedWith v r2 with
              | some c => Utf8.encodeScalar c ++ unescape (r2.drop 6)
              | none => Utf8.encodeScalar 0xFFFD ++ unescape r2
            else Utf8.encodeScalar v ++ unescape r2
          | _ => []
termination_by bs.length
decreasing_by
  all_goals simp only [List.length_cons, List.length_drop]
  all_goals omega

/-- The text of checked string contents. -/
def stringValue (contents : List UInt8) : String := Utf8.decodeText (unescape contents)

/-- A run of digits and the bytes after it. -/
def digitRun (bs : List UInt8) : List UInt8 × List UInt8 := (bs.takeWhile isDigit, bs.dropWhile isDigit)

/-- The integer part of a number: a lone zero or a run of digits not starting with zero. -/
def integerPart : List UInt8 → Option (List UInt8 × List UInt8)
  | [] => none
  | b :: r =>
    if b == byte '0' then some ([b], r)
    else if isDigit b then some (digitRun (b :: r))
    else none

/-- An optional fraction: a point and at least one digit. -/
def fractionPart : List UInt8 → Option (List UInt8 × List UInt8)
  | b :: r =>
    if b == byte '.' then
      match digitRun r with
      | ([], _) => none
      | (ds, r') => some (b :: ds, r')
    else some ([], b :: r)
  | [] => some ([], [])

/-- An optional exponent: `e` or `E`, an optional sign and at least one digit. -/
def exponentPart : List UInt8 → Option (List UInt8 × List UInt8)
  | b :: r =>
    if b == byte 'e' || b == byte 'E' then
      let (sign, r') := match r with
        | c :: r'' => if c == byte '+' || c == byte '-' then ([c], r'') else ([], r)
        | [] => ([], [])
      match digitRun r' with
      | ([], _) => none
      | (ds, r'') => some (b :: sign ++ ds, r'')
    else some ([], b :: r)
  | [] => some ([], [])

/-- A number's text and the bytes after it. -/
def readNumber (bs : List UInt8) : Option (String × List UInt8) := do
  let (sign, r0) := match bs with
    | b :: r => if b == byte '-' then ([b], r) else ([], bs)
    | [] => ([], [])
  let (whole, r1) ← integerPart r0
  let (frac, r2) ← fractionPart r1
  let (expo, r3) ← exponentPart r2
  pure (asciiText (sign ++ whole ++ frac ++ expo), r3)

/-- The bytes after a literal spelled `word`, if `bs` starts with it. -/
def afterWord (word : String) (bs : List UInt8) : Option (List UInt8) :=
  let w := word.toList.map byte
  if bs.take w.length == w then some (bs.drop w.length) else none

/-- At most this many containers may be open at once. -/
def maxDepth : Nat := 10000

mutual

/-- Reads one value after optional whitespace, inside `depth` open containers. `fuel`
bounds the number of nested steps. -/
def readValue : Nat → Nat → List UInt8 → Option (Json × List UInt8)
  | 0, _, _ => none
  | fuel + 1, depth, bs =>
    match skipSpace bs with
    | [] => none
    | b :: rest =>
      if b == byte '\x7b' then
        if depth + 1 > maxDepth then none else readObject fuel (depth + 1) rest
      else if b == byte '[' then
        if depth + 1 > maxDepth then none else readArray fuel (depth + 1) rest
      else if b == byte '"' then
        (stringBody rest [] false).map fun (cs, esc, r) => (.string (stringValue cs) esc, r)
      else if b == byte 't' then (afterWord "rue" rest).map fun r => (.bool true, r)
      else if b == byte 'f' then (afterWord "alse" rest).map fun r => (.bool false, r)
      else if b == byte 'n' then (afterWord "ull" rest).map fun r => (.null, r)
      else (readNumber (b :: rest)).map fun (t, r) => (.number t, r)

/-- Reads the rest of an array after its opening bracket. -/
def readArray : Nat → Nat → List UInt8 → Option (Json × List UInt8)
  | 0, _, _ => none
  | fuel + 1, depth, bs =>
    match skipSpace bs with
    | b :: rest => if b == byte ']' then some (.array [], rest) else readItems fuel depth bs []
    | [] => none

/-- Reads array items, the ones read so far in `acc` (reversed). -/
def readItems : Nat → Nat → List UInt8 → List Json → Option (Json × List UInt8)
  | 0, _, _, _ => none
  | fuel + 1, depth, bs, acc =>
    match readValue fuel depth bs with
    | none => none
    | some (v, rest) =>
      match skipSpace rest with
      | c :: r =>
        if c == byte ',' then readItems fuel depth r (v :: acc)
        else if c == byte ']' then some (.array (v :: acc).reverse, r)
        else none
      | [] => none

/-- Reads the rest of an object after its opening brace. -/
def readObject : Nat → Nat → List UInt8 → Option (Json × List UInt8)
  | 0, _, _ => none
  | fuel + 1, depth, bs =>
    match skipSpace bs with
    | b :: rest => if b == byte '\x7d' then some (.object [], rest) else readMembers fuel depth bs []
    | [] => none

/-- Reads object members, the ones read so far in `acc` (reversed). -/
def readMembers : Nat → Nat → List UInt8 → List (String × Json) → Option (Json × List UInt8)
  | 0, _, _, _ => none
  | fuel + 1, depth, bs, acc =>
    match skipSpace bs with
    | b :: rest =>
      if b != byte '"' then none
      else
        match stringBody rest [] false with
        | none => none
        | some (kcs, _, r) =>
          match skipSpace r with
          | c :: r' =>
            if c != byte ':' then none
            else
              match readValue fuel depth r' with
              | none => none
              | some (v, r'') =>
                let acc := (stringValue kcs, v) :: acc
                match skipSpace r'' with
                | d :: r''' =>
                  if d == byte ',' then readMembers fuel depth r''' acc
                  else if d == byte '\x7d' then some (.object acc.reverse, r''')
                  else none
                | [] => none
          | [] => none
    | [] => none

end

/-- Enough fuel to read any value out of `bs`: at most three nested steps pass before
another byte is read. -/
def fuelFor (bs : List UInt8) : Nat := 4 * bs.length + 4

/-- A whole document: one value, with nothing but whitespace around it. -/
def parse? (bs : List UInt8) : Option Json :=
  match readValue (fuelFor bs) 0 bs with
  | some (v, rest) => if skipSpace rest = [] then some v else none
  | none => none

/-- The first value of a stream; whatever follows it is left unread. -/
def parseFirst? (bs : List UInt8) : Option Json :=
  (readValue (fuelFor bs) 0 bs).map Prod.fst

end Json

end OnrampLedger
