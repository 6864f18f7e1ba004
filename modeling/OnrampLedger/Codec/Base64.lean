/-!
# Base64 text of bytes

Two alphabets: the standard one (`+`, `/`), written with `=` padding to a multiple of
four characters, and the URL-safe one (`-`, `_`), written without padding.

Reading skips line breaks (`\r`, `\n`). With padding, a final group of two or three
characters must be completed by `=` and nothing but line breaks may follow it; without
padding, `=` is not a character of the text and a final group may hold two or three
characters. A lone final character is refused. Bits left over in a final group are
ignored.
-/

namespace OnrampLedger

namespace Base64

/-- One of the two alphabets and whether it pads. -/
structure Alphabet where
  chars : List Char
  padded : Bool

/-- The standard alphabet, padded. -/
def standard : Alphabet :=
  ⟨"ABCDEFGHIJKLMNOPQRSTUVWXYZabcdefghijklmnopqrstuvwxyz0123456789+/".toList, true⟩

/-- The URL-safe alphabet, unpadded. -/
def urlRaw : Alphabet :=
  ⟨"ABCDEFGHIJKLMNOPQRSTUVWXYZabcdefghijklmnopqrstuvwxyz0123456789-_".toList, false⟩

/-- The character of a six-bit value. -/
def Alphabet.char (a : Alphabet) (n : Nat) : Char := a.chars.getD n 'A'

/-- The six-bit value of a character. -/
def Alphabet.value? (a : Alphabet) (c : Char) : Option Nat := a.chars.idxOf? c

/-- The text of bytes, three at a time. -/
def encodeWith (a : Alphabet) : List UInt8 → List Char
  | [] => []
  | [x] =>
    let n := x.toNat * 65536
    [a.char (n / 262144), a.char (n / 4096 % 64)] ++ (if a.padded then ['=', '='] else [])
  | [x, y] =>
    let n := x.toNat * 65536 + y.toNat * 256
    [a.char (n / 262144), a.char (n / 4096 % 64), a.char (n / 64 % 64)] ++
      (if a.padded then ['='] else [])
  | x :: y :: z :: rest =>
    let n := x.toNat * 65536 + y.toNat * 256 + z.toNat
    a.char (n / 262144) :: a.char (n / 4096 % 64) :: a.char (n / 64 % 64) :: a.char (n % 64) ::
      encodeWith a rest

/-- Standard base64 with padding. -/
def encode (bs : List UInt8) : String := String.ofList (encodeWith standard bs)

/-- URL-safe base64 without padding. -/
def encodeUrl (bs : List UInt8) : String := String.ofList (encodeWith urlRaw bs)

/-- The bytes of a final group of `k` six-bit values (`k` of 2, 3 or 4). -/
def groupBytes (vs : List Nat) : List UInt8 :=
  let n := vs.foldl (fun acc v => acc * 64 + v) 0 * Nat.pow 64 (4 - vs.length)
  let bytes := [(n / 65536 % 256).toUInt8, (n / 256 % 256).toUInt8, (n % 256).toUInt8]
  bytes.take (vs.length - 1)

/-- Whether only line breaks remain. -/
def onlyBreaks (cs : List Char) : Bool := cs.all (fun c => c = '\r' ∨ c = '\n')

/-- Reads groups of four values; `group` holds the values of the group in hand. -/
def decodeWith (a : Alphabet) : List Char → List Nat → Option (List UInt8)
  | [], [] => some []
  | [], group =>
    if a.padded then none
    else if group.length < 2 then none
    else some (groupBytes group)
  | c :: cs, group =>
    if c = '\r' ∨ c = '\n' then decodeWith a cs group
    else if c = '=' ∧ a.padded then
      match group.length with
      | 2 =>
        match cs.dropWhile (fun c => c = '\r' ∨ c = '\n') with
        | '=' :: rest => if onlyBreaks rest then some (groupBytes group) else none
        | _ => none
      | 3 => if onlyBreaks cs then some (groupBytes group) else none
      | _ => none
    else
      match a.value? c with
      | none => none
      | some v =>
        if group.length = 3 then
          (decodeWith a cs []).map (groupBytes (group ++ [v]) ++ ·)
        else decodeWith a cs (group ++ [v])

/-- Bytes of standard base64 text. -/
def decode? (s : String) : Option (List UInt8) := decodeWith standard s.toList []

/-- Bytes of URL-safe unpadded base64 text. -/
def decodeUrl? (s : String) : Option (List UInt8) := decodeWith urlRaw s.toList []

end Base64

end OnrampLedger
