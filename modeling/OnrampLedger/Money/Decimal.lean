/-!
# Exact decimal amounts

Money is an exact decimal `coeff / 10 ^ scale`, held in lowest terms: while a digit
stands behind the point, the coefficient does not end in zero. Two amounts are then
equal exactly when they denote the same number, so `=` on `Decimal` is numeric
equality, and the plain text of an amount is read off the pair with no trimming.

Arithmetic is exact: a sum or difference is computed at the larger of the two scales
and reduced again.

## Main definitions

* `Decimal.make` — the reduced form of `c / 10 ^ s`.
* `Decimal.add`, `Decimal.neg`, `Decimal.sub`, `Decimal.abs`, `Decimal.cmp`.
* `Decimal.render` — plain notation: no exponent, no trailing fractional zero, a minus
  sign only below zero, zero as `0`.
* `Decimal.roundTo`, `Decimal.renderFixed` — a fixed number of places, a half going away
  from zero.
* `Decimal.HasCents` — at most two places behind the point.

## Main results

* `reduce_reduced` — `make` always yields the lowest-terms pair.
* `hasCents_iff` — an amount has at most two places exactly when its scale is at most two.
* `roundTo_eq_self_iff` — rounding to some places keeps exactly the decimals with no more.
-/

namespace OnrampLedger

/-- Strips zeros from the end of the coefficient while a place behind the point is
left to give up. -/
def reduce (c : Int) : Nat → Int × Nat
  | 0 => (c, 0)
  | s + 1 => if c % 10 = 0 then reduce (c / 10) s else (c, s + 1)

theorem reduce_reduced (c : Int) (s : Nat) :
    (reduce c s).2 = 0 ∨ (reduce c s).1 % 10 ≠ 0 := by
  induction s generalizing c with
  | zero => simp [reduce]
  | succ s ih =>
    simp only [reduce]
    split
    · exact ih _
    · right; assumption

theorem reduce_snd_le (c : Int) (s : Nat) : (reduce c s).2 ≤ s := by
  induction s generalizing c with
  | zero => simp [reduce]
  | succ s ih =>
    simp only [reduce]
    split
    · exact Nat.le_succ_of_le (ih _)
    · exact Nat.le_refl _

/-- A pair already in lowest terms is left as it is. -/
theorem reduce_of_reduced {c : Int} {s : Nat} (h : s = 0 ∨ c % 10 ≠ 0) :
    reduce c s = (c, s) := by
  cases s with
  | zero => rfl
  | succ s =>
    have hc : c % 10 ≠ 0 := by simpa using h
    simp [reduce, hc]

/-- A zero appended to the coefficient together with one more place changes nothing. -/
theorem reduce_mul_ten (c : Int) (s : Nat) : reduce (c * 10) (s + 1) = reduce c s := by
  have h1 : c * 10 % 10 = 0 := Int.mul_emod_left c 10
  have h2 : c * 10 / 10 = c := Int.mul_ediv_cancel c (by decide)
  simp [reduce, h1, h2]

theorem reduce_mul_pow (c : Int) (s k : Nat) :
    reduce (c * Int.pow 10 k) (s + k) = reduce c s := by
  induction k generalizing c with
  | zero => show reduce (c * 1) (s + 0) = reduce c s; rw [Int.mul_one, Nat.add_zero]
  | succ k ih =>
    rw [show s + (k + 1) = (s + k) + 1 by omega, show Int.pow 10 (k + 1) = Int.pow 10 k * 10 from rfl,
      ← Int.mul_assoc, reduce_mul_ten, ih]

/-- An exact decimal `coeff / 10 ^ scale` in lowest terms. -/
structure Decimal where
  coeff : Int
  scale : Nat
  reduced : scale = 0 ∨ coeff % 10 ≠ 0
  deriving DecidableEq

namespace Decimal

/-- The reduced decimal denoting `c / 10 ^ s`. -/
def make (c : Int) (s : Nat) : Decimal :=
  ⟨(reduce c s).1, (reduce c s).2, reduce_reduced c s⟩

/-- The whole number `n` as a decimal. -/
def ofInt (n : Int) : Decimal := make n 0

instance : OfNat Decimal n := ⟨ofInt n⟩

instance : Inhabited Decimal := ⟨0⟩

/-- The coefficient that denotes `d` at scale `m`, for `m` at least `d.scale`. -/
def lift (d : Decimal) (m : Nat) : Int := d.coeff * Int.pow 10 (m - d.scale)

/-- Exact sum, computed at the larger scale. -/
def add (a b : Decimal) : Decimal :=
  let m := max a.scale b.scale
  make (a.lift m + b.lift m) m

/-- Exact negation. -/
def neg (a : Decimal) : Decimal := make (-a.coeff) a.scale

/-- Exact difference. -/
def sub (a b : Decimal) : Decimal := add a (neg b)

/-- Distance from zero. -/
def abs (a : Decimal) : Decimal := make (a.coeff.natAbs : Int) a.scale

instance : Add Decimal := ⟨add⟩
instance : Neg Decimal := ⟨neg⟩
instance : Sub Decimal := ⟨sub⟩

/-- Numeric order: both sides at the larger scale. -/
def cmp (a b : Decimal) : Ordering :=
  let m := max a.scale b.scale
  compare (a.lift m) (b.lift m)

instance : Ord Decimal := ⟨cmp⟩

instance : LT Decimal := ⟨fun a b => a.cmp b = .lt⟩
instance : LE Decimal := ⟨fun a b => a.cmp b ≠ .gt⟩

instance (a b : Decimal) : Decidable (a < b) :=
  inferInstanceAs (Decidable (a.cmp b = .lt))
instance (a b : Decimal) : Decidable (a ≤ b) :=
  inferInstanceAs (Decidable (a.cmp b ≠ .gt))

/-- Strictly above zero. -/
def IsPositive (a : Decimal) : Prop := 0 < a.coeff

instance (a : Decimal) : Decidable a.IsPositive := inferInstanceAs (Decidable (0 < a.coeff))

/-- At most two places behind the point: a whole number of cents. -/
def HasCents (a : Decimal) : Prop := ∃ n : Int, a = make n 2

theorem make_coeff_scale (a : Decimal) : make a.coeff a.scale = a := by
  obtain ⟨c, s, h⟩ := a
  simp [make, reduce_of_reduced h]

/-- A reduced decimal has at most two places exactly when it is a number of cents. -/
theorem hasCents_iff (a : Decimal) : a.HasCents ↔ a.scale ≤ 2 := by
  constructor
  · rintro ⟨n, rfl⟩
    exact reduce_snd_le n 2
  · intro h
    refine ⟨a.coeff * Int.pow 10 (2 - a.scale), ?_⟩
    have hr : reduce (a.coeff * Int.pow 10 (2 - a.scale)) 2 = (a.coeff, a.scale) := by
      have e := reduce_mul_pow a.coeff a.scale (2 - a.scale)
      rw [show a.scale + (2 - a.scale) = 2 by omega] at e
      rw [e, reduce_of_reduced a.reduced]
    obtain ⟨c, s, hcs⟩ := a
    simp only [make, hr]

instance (a : Decimal) : Decidable a.HasCents :=
  decidable_of_iff _ (hasCents_iff a).symm

/-- Digits of a natural number, most significant first, at least `width` of them. -/
def padDigits (n width : Nat) : List Char :=
  let ds := (toString n).toList
  List.replicate (width - ds.length) '0' ++ ds

/-- The text of `sign · digits / 10 ^ places`: a point before the last `places` digits,
and a minus sign when `negative`. -/
def placeText (negative : Bool) (magnitude places : Nat) : String :=
  let ds := padDigits magnitude (places + 1)
  let cut := ds.length - places
  let body := if places = 0 then ds else ds.take cut ++ '.' :: ds.drop cut
  String.ofList (if negative then '-' :: body else body)

/-- Plain notation: every digit the value needs and no other, no exponent. -/
def render (a : Decimal) : String :=
  placeText (a.coeff < 0) a.coeff.natAbs a.scale

instance : ToString Decimal := ⟨render⟩

instance : Repr Decimal := ⟨fun d _ => Std.Format.text d.render⟩

/-- The magnitude of `a` at `places` places, a dropped half going away from zero. -/
def roundedMagnitude (a : Decimal) (places : Nat) : Nat :=
  if a.scale ≤ places then a.coeff.natAbs * Nat.pow 10 (places - a.scale)
  else
    let unit := Nat.pow 10 (a.scale - places)
    let q := a.coeff.natAbs / unit
    if 2 * (a.coeff.natAbs % unit) ≥ unit then q + 1 else q

/-- `a` rounded to `places` places, a half going away from zero. -/
def roundTo (a : Decimal) (places : Nat) : Decimal :=
  let m : Int := a.roundedMagnitude places
  make (if a.coeff < 0 then -m else m) places

/-- Writing a decimal with more places, its coefficient scaled up to match, is the same
decimal. -/
theorem make_mul_pow (c : Int) (s k : Nat) : make (c * Int.pow 10 k) (s + k) = make c s := by
  simp only [make, reduce_mul_pow]

/-- Rounding to `places` places keeps a decimal exactly when it has at most that many: a
rounded decimal has at most `places`, and one that has no more is only rescaled. -/
theorem roundTo_eq_self_iff (a : Decimal) (places : Nat) :
    a.roundTo places = a ↔ a.scale ≤ places := by
  constructor
  · intro h
    rw [← h]
    exact reduce_snd_le _ places
  · intro h
    have hpow : ((Nat.pow 10 (places - a.scale) : Nat) : Int) = Int.pow 10 (places - a.scale) :=
      Int.natCast_pow 10 _
    have hsigned : (if a.coeff < 0 then -(a.roundedMagnitude places : Int)
        else (a.roundedMagnitude places : Int)) = a.coeff * Int.pow 10 (places - a.scale) := by
      simp only [roundedMagnitude, h, if_true, Int.natCast_mul, hpow]
      split
      · next hneg => rw [Int.ofNat_natAbs_of_nonpos (Int.le_of_lt hneg), Int.neg_mul, Int.neg_neg]
      · next hnonneg => rw [Int.natAbs_of_nonneg (Int.not_lt.mp hnonneg)]
    have hmake := make_mul_pow a.coeff a.scale (places - a.scale)
    rw [show a.scale + (places - a.scale) = places by omega, make_coeff_scale] at hmake
    show make _ places = a
    rw [hsigned, hmake]

/-- Exactly `places` places, after rounding a half away from zero; no minus sign on a
value that rounds to zero. -/
def renderFixed (a : Decimal) (places : Nat) : String :=
  let m := a.roundedMagnitude places
  placeText (a.coeff < 0 ∧ m ≠ 0) m places

end Decimal

end OnrampLedger
