import OnrampLedger.Money.Decimal
import OnrampLedger.Time.Instant
import OnrampLedger.Text.Quote

/-!
# JSON values and their text

Every record the service answers with, and every body it reads, is a JSON value. A
number keeps the text it was written with, since decimals are read from that text and
never through a binary float. An object keeps its members in order, repeats included:
the order of an answer's fields is the order they are printed in, and decoding a body
gives the last of two equal keys the final word.

A string remembers whether it was written with escape sequences. Decimal fields read
the characters between the quotes as they stand, so an escape there makes the text no
number even when its decoded value would be one.

The printer writes the compact form. Inside strings it escapes the quote, the
backslash and every control character, and also `<`, `>`, `&`, U+2028 and U+2029, so
that the text can be embedded in HTML and in script sources unchanged.
-/

namespace OnrampLedger

/-- A JSON value. -/
inductive Json
  | null
  | bool (b : Bool)
  /-- A number, as the text it was written with. -/
  | number (text : String)
  /-- A string; `escaped` records that its written form held escape sequences. -/
  | string (value : String) (escaped : Bool)
  | array (items : List Json)
  | object (members : List (String × Json))
  deriving Repr, Inhabited

namespace Json

/-- A string value written without escapes. -/
def str (s : String) : Json := .string s false

/-- A whole number. -/
def int (n : Int) : Json := .number (toString n)

/-- A decimal, written as a string in plain notation. -/
def decimal (d : Decimal) : Json := str d.render

/-- An instant, written as its timestamp text. -/
def instant (t : Instant) : Json := str t.render

/-- The lowercase hexadecimal digit of `n < 16`. -/
def hexDigit (n : Nat) : Char := "0123456789abcdef".toList.getD n '0'

/-- The escaped form of one character inside a string. -/
def escapeChar (c : Char) : List Char :=
  match c with
  | '"' => ['\\', '"']
  | '\\' => ['\\', '\\']
  | '\n' => ['\\', 'n']
  | '\r' => ['\\', 'r']
  | '\t' => ['\\', 't']
  | '\x08' => ['\\', 'b']
  | '\x0c' => ['\\', 'f']
  | '<' => "\\u003c".toList
  | '>' => "\\u003e".toList
  | '&' => "\\u0026".toList
  | '\u2028' => "\\u2028".toList
  | '\u2029' => "\\u2029".toList
  | c =>
    if c.toNat < 0x20 then ['\\', 'u', '0', '0', hexDigit (c.toNat / 16), hexDigit (c.toNat % 16)]
    else [c]

/-- A string in quotes, escaped. -/
def quote (s : String) : String :=
  String.ofList ('"' :: (s.toList.flatMap escapeChar ++ ['"']))

mutual

/-- The compact text of a value. -/
def render : Json → String
  | .null => "null"
  | .bool b => if b then "true" else "false"
  | .number t => t
  | .string s _ => quote s
  | .array xs => "[" ++ renderItems xs ++ "]"
  | .object ms => "\x7b" ++ renderMembers ms ++ "\x7d"

/-- Array items, comma separated. -/
def renderItems : List Json → String
  | [] => ""
  | [x] => render x
  | x :: xs => render x ++ "," ++ renderItems xs

/-- Object members, comma separated. -/
def renderMembers : List (String × Json) → String
  | [] => ""
  | [(k, v)] => quote k ++ ":" ++ render v
  | (k, v) :: ms => quote k ++ ":" ++ render v ++ "," ++ renderMembers ms

end

/-- The member `key` with a string value, left out when the value is empty. -/
def textIfAny (key value : String) : List (String × Json) :=
  if value = "" then [] else [(key, str value)]

/-- The member `key` with an optional value, left out when there is none. -/
def someIf (key : String) : Option Json → List (String × Json)
  | some v => [(key, v)]
  | none => []

/-- An object whose members are sorted by key, as maps are written. -/
def sortedObject (ms : List (String × Json)) : Json :=
  .object (ms.mergeSort fun a b => decide (a.1 ≤ b.1))

end Json

end OnrampLedger
