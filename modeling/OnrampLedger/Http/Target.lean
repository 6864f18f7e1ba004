import OnrampLedger.Text.Utf8
import OnrampLedger.Text.Split

/-!
# Request targets

A request names what it asks for with a target: a path, then optionally `?` and a
query. Both may carry bytes written as `%` and two hex digits.

Routing looks at the path as the request wrote it whenever decoding it and writing it
again would not give back the same text; otherwise it looks at the decoded path. So
`/a%20b` is routed as `/a b`, while `/moon%70ay` stays as written, since a plain `p`
is never escaped. The decoded path is never routed when the raw one carried an escape
it did not need.

A query is a list of `key=value` pieces joined by `&`, in which `+` stands for a space.
Pieces holding `;`, pieces that are empty and pieces with a malformed escape are
passed over. A key given more than once keeps every value, and a lookup answers the
first.

## Main definitions

* `Target.parse`: the path to route on and the query pairs of a target.
* `Target.query`: the first value of a query key, or the empty text.
* `truthText`: whether a query value reads as true.
-/

namespace OnrampLedger

namespace Http

/-- The byte of an ASCII character. -/
def asciiByte (c : Char) : UInt8 := c.toNat.toUInt8

/-- The value of a hex digit byte, either case. -/
def hexValue? (b : UInt8) : Option Nat :=
  if asciiByte '0' ≤ b && b ≤ asciiByte '9' then some (b.toNat - 48)
  else if asciiByte 'a' ≤ b && b ≤ asciiByte 'f' then some (b.toNat - 87)
  else if asciiByte 'A' ≤ b && b ≤ asciiByte 'F' then some (b.toNat - 55)
  else none

/-- Decodes `%XX` escapes, and `+` as a space when `plusIsSpace`; nothing when an
escape is malformed. -/
def unescape (plusIsSpace : Bool) : List UInt8 → Option (List UInt8)
  | [] => some []
  | b :: rest =>
    if b == asciiByte '%' then
      match rest with
      | h :: l :: more =>
        match hexValue? h, hexValue? l with
        | some x, some y => ((x * 16 + y).toUInt8 :: ·) <$> unescape plusIsSpace more
        | _, _ => none
      | _ => none
    else if plusIsSpace && b == asciiByte '+' then (asciiByte ' ' :: ·) <$> unescape plusIsSpace rest
    else (b :: ·) <$> unescape plusIsSpace rest

/-- Whether a path byte is written escaped: all but letters, digits, `-_.~` and the
reserved characters a path may carry as they are, `$&+,/:;=@`. -/
def escapedInPath (b : UInt8) : Bool :=
  let c := Char.ofNat b.toNat
  !(b < 0x80 && (c.isAlphanum || "-_.~$&+,/:;=@".toList.contains c))

/-- An upper-case hex digit. -/
def upperHex (n : Nat) : UInt8 := asciiByte ("0123456789ABCDEF".toList.getD n '0')

/-- A decoded path written with every byte escaped that must be. -/
def escapePath : List UInt8 → List UInt8
  | [] => []
  | b :: rest =>
    if escapedInPath b then asciiByte '%' :: upperHex (b.toNat / 16) :: upperHex (b.toNat % 16) :: escapePath rest
    else b :: escapePath rest

/-- The path routing looks at: the decoded path when writing it again gives the raw
path back, else the raw path. -/
def routePath (raw : String) : String :=
  let bs := Utf8.encode raw
  match unescape false bs with
  | some decoded => if escapePath decoded == bs then Utf8.decodeText decoded else raw
  | none => raw

/-- One query piece as a key and value, unless it is passed over. -/
def queryPair (piece : List Char) : Option (String × String) :=
  if piece.isEmpty || piece.contains ';' then none
  else
    let key := piece.takeWhile (· ≠ '=')
    let value := (piece.dropWhile (· ≠ '=')).drop 1
    let decode (cs : List Char) : Option String :=
      (unescape true (Utf8.encode (String.ofList cs))).map Utf8.decodeText
    match decode key, decode value with
    | some k, some v => some (k, v)
    | _, _ => none

/-- The pairs of a query, in order. -/
def queryPairs (query : String) : List (String × String) :=
  (Text.splitAt '&' query.toList).filterMap queryPair

/-- What routing and the handlers read from a target. -/
structure Target where
  /-- The path routing looks at. -/
  path : String
  /-- The query pairs, in order. -/
  pairs : List (String × String)
  deriving Repr

namespace Target

/-- The path and query of a target; the query starts at the first `?`. -/
def parse (target : String) : Target :=
  let cs := target.toList
  let path := String.ofList (cs.takeWhile (· ≠ '?'))
  let query := String.ofList ((cs.dropWhile (· ≠ '?')).drop 1)
  ⟨routePath path, queryPairs query⟩

/-- The first value of a query key, or the empty text. -/
def query (t : Target) (key : String) : String :=
  match t.pairs.find? (·.1 == key) with
  | some (_, v) => v
  | none => ""

end Target

/-- Whether a query value reads as true: `1`, `t`, `T`, `TRUE`, `true` or `True`. -/
def truthText (s : String) : Bool := ["1", "t", "T", "TRUE", "true", "True"].contains s

end Http

end OnrampLedger
