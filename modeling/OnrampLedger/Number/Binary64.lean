/-!
# Nearest binary64 values

A positive binary64 (double precision) number in the normal range is `m · 2 ^ e` with a
53-bit significand `2 ^ 52 ≤ m < 2 ^ 53`. Rounding a positive rational `p / q` to the
nearest such number picks the exponent that puts `p / q` in `[2 ^ 52, 2 ^ 53) · 2 ^ e`,
truncates, and goes up when the rest is more than a half, or exactly a half and the
truncated significand is odd (ties to even).

Values are returned exactly, as a fraction `num / den`.
-/

namespace OnrampLedger

namespace Binary64

/-- The floor of `p / (q · 2 ^ e)` and the fraction it leaves, as numerator and
denominator of `p / (q · 2 ^ e)`. -/
def scaled (p q : Nat) (e : Int) : Nat × Nat :=
  if 0 ≤ e then (p, q * Nat.pow 2 e.toNat) else (p * Nat.pow 2 e.natAbs, q)

/-- The nearest binary64 number to `p / q`, as `(m, e)` with value `m · 2 ^ e`; zero
when `p` or `q` is zero. -/
def nearestParts (p q : Nat) : Nat × Int :=
  if p = 0 ∨ q = 0 then (0, 0)
  else
    let k : Int := (Nat.log2 p : Int) - Nat.log2 q
    let e0 := k - 52
    let e := if (scaled p q e0).1 / (scaled p q e0).2 < Nat.pow 2 52 then e0 - 1 else e0
    let (num, den) := scaled p q e
    let m := num / den
    let r := num % den
    let up := 2 * r > den ∨ (2 * r = den ∧ m % 2 = 1)
    let m' := if up then m + 1 else m
    if m' = Nat.pow 2 53 then (Nat.pow 2 52, e + 1) else (m', e)

/-- The nearest binary64 number to `p / q`, as a fraction. -/
def nearest (p q : Nat) : Nat × Nat :=
  let (m, e) := nearestParts p q
  if 0 ≤ e then (m * Nat.pow 2 e.toNat, 1) else (m, Nat.pow 2 e.natAbs)

end Binary64

end OnrampLedger
