import OnrampLedger.Text.Printable
/-!
# Quoted text

The quoted form of a text that messages use to show a value exactly: double quotes
around it, a backslash before a double quote or a backslash, printable code points as
they are, and every other code point escaped. The seven common controls have their
one-letter escapes (`\a \b \f \n \r \t \v`); other code points below the space and the
delete character are `\x` and two hex digits; the rest are `\u` and four hex digits, or
`\U` and eight beyond the basic plane. Hex digits are lower case.
-/

namespace OnrampLedger

namespace Text

/-- The lower-case hex digits of `n`, exactly `width` of them. -/
def hexDigits (n width : Nat) : List Char :=
  (List.range width).reverse.map fun i => Nat.digitChar (n / Nat.pow 16 i % 16)

/-- The quoted form of one code point. -/
def quoteChar (c : Char) : List Char :=
  if c = '"' ∨ c = '\\' then ['\\', c]
  else if isPrintable c then [c]
  else match c.toNat with
    | 7 => ['\\', 'a']
    | 8 => ['\\', 'b']
    | 12 => ['\\', 'f']
    | 10 => ['\\', 'n']
    | 13 => ['\\', 'r']
    | 9 => ['\\', 't']
    | 11 => ['\\', 'v']
    | n =>
      if n < 0x20 ∨ n = 0x7F then '\\' :: 'x' :: hexDigits n 2
      else if n < 0x10000 then '\\' :: 'u' :: hexDigits n 4
      else '\\' :: 'U' :: hexDigits n 8

/-- The quoted form of a text. -/
def quote (s : String) : String :=
  String.ofList ('"' :: (s.toList.flatMap quoteChar ++ ['"']))

end Text

end OnrampLedger
