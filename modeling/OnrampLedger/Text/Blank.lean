/-!
# Blank code points and trimming

The blanks are the white space of the Unicode character database: the ASCII tab, line
feed, vertical tab, form feed, carriage return and space, the next-line control U+0085,
the no-break space U+00A0, and the separators U+1680, U+2000 to U+200A, U+2028, U+2029,
U+202F, U+205F and U+3000. Trimming removes blanks from both ends of a text.
-/

namespace OnrampLedger

namespace Text

/-- Whether a code point is white space. -/
def isBlank (c : Char) : Bool :=
  let n := c.toNat
  (9 ≤ n ∧ n ≤ 13) ∨ n = 0x20 ∨ n = 0x85 ∨ n = 0xA0 ∨ n = 0x1680 ∨
    (0x2000 ≤ n ∧ n ≤ 0x200A) ∨ n = 0x2028 ∨ n = 0x2029 ∨ n = 0x202F ∨ n = 0x205F ∨
    n = 0x3000

/-- The code points of a text without blanks at either end. -/
def trimChars (cs : List Char) : List Char :=
  ((cs.dropWhile isBlank).reverse.dropWhile isBlank).reverse

/-- A text without blanks at either end. -/
def trim (s : String) : String := String.ofList (trimChars s.toList)

end Text

end OnrampLedger
