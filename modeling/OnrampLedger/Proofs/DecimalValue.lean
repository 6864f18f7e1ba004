import Mathlib
import OnrampLedger.Money.Decimal

/-!
# The number a decimal denotes

A `Decimal` is a pair `coeff / 10 ^ scale` in lowest terms. This module reads it as a
rational number, `Decimal.value`, and shows that the pair's arithmetic and order are the
arithmetic and order of that number. Reasoning about balances then happens in `ℚ`,
where `ring` and `linarith` apply, and comes back through `value_inj`.

## Main results

* `value_make` — `make c s` denotes `c / 10 ^ s`: reducing a pair never changes its value.
* `value_add`, `value_neg`, `value_sub` — sums and differences are exact.
* `value_inj` — two decimals are equal exactly when they denote the same number, since
  both are in lowest terms.
* `lt_iff_value`, `le_iff_value` — the comparison of decimals is the order of `ℚ`.
-/

namespace OnrampLedger

/-- Stripping trailing zeros from the coefficient, one place at a time, keeps the
number the pair denotes. -/
theorem reduce_value (c : Int) (s : Nat) :
    ((reduce c s).1 : ℚ) / 10 ^ (reduce c s).2 = c / 10 ^ s := by
  induction s generalizing c with
  | zero => simp [reduce]
  | succ s ih =>
      simp only [reduce]
      split
      · next hc =>
          rw [ih]
          have hdiv : c / 10 * 10 = c := Int.ediv_mul_cancel (Int.dvd_of_emod_eq_zero hc)
          have hcast : ((c / 10 : Int) : ℚ) * 10 = c := by exact_mod_cast hdiv
          rw [← hcast, pow_succ]
          field_simp
      · rfl

namespace Decimal

/-- The rational number a decimal denotes. -/
def value (d : Decimal) : ℚ := d.coeff / 10 ^ d.scale

theorem value_make (c : Int) (s : Nat) : (make c s).value = c / 10 ^ s :=
  reduce_value c s

@[simp] theorem value_zero : (0 : Decimal).value = 0 := by
  show (make 0 0).value = 0
  simp [value_make]

/-- At any scale `m` at least its own, `lift` writes the same number with `m` places. -/
theorem lift_value (d : Decimal) {m : Nat} (hm : d.scale ≤ m) :
    (d.lift m : ℚ) / 10 ^ m = d.value := by
  have hsplit : (10 : ℚ) ^ m = 10 ^ (m - d.scale) * 10 ^ d.scale := by
    rw [← pow_add, Nat.sub_add_cancel hm]
  have hpow : (Int.pow 10 (m - d.scale) : ℚ) = 10 ^ (m - d.scale) := by
    show ((10 ^ (m - d.scale) : Int) : ℚ) = _
    push_cast
    rfl
  simp only [lift, value, Int.cast_mul, hpow, hsplit]
  field_simp

@[simp] theorem value_add (a b : Decimal) : (a + b).value = a.value + b.value := by
  show (make (a.lift (max a.scale b.scale) + b.lift (max a.scale b.scale)) _).value = _
  rw [value_make, Int.cast_add, add_div, lift_value a (le_max_left _ _),
    lift_value b (le_max_right _ _)]

@[simp] theorem value_neg (a : Decimal) : (-a).value = -a.value := by
  show (make (-a.coeff) a.scale).value = _
  rw [value_make, value, Int.cast_neg, neg_div]

@[simp] theorem value_sub (a b : Decimal) : (a - b).value = a.value - b.value := by
  show (a + -b).value = _
  rw [value_add, value_neg, sub_eq_add_neg]

/-- Of two decimals denoting one number, the one with fewer places is the other:
a longer pair would have a coefficient ending in zero, which a reduced pair never has
while places remain. -/
private theorem eq_of_value_eq_of_scale_le {a b : Decimal} (h : a.value = b.value)
    (hs : a.scale ≤ b.scale) : a = b := by
  obtain ⟨k, hk⟩ := Nat.exists_eq_add_of_le hs
  have hq : (a.coeff : ℚ) * 10 ^ k = b.coeff := by
    simp only [value, hk, pow_add] at h
    field_simp at h
    exact h
  have hz : a.coeff * 10 ^ k = b.coeff := by exact_mod_cast hq
  have hk0 : k = 0 := by
    by_contra hne
    have hdvd : (10 : Int) ∣ b.coeff := by
      rw [← hz]
      exact Dvd.dvd.mul_left (dvd_pow_self 10 hne) _
    rcases b.reduced with hb | hb
    · omega
    · exact hb (Int.emod_eq_zero_of_dvd hdvd)
  subst hk0
  obtain ⟨ca, sa, ra⟩ := a
  obtain ⟨cb, sb, rb⟩ := b
  simp only [pow_zero, mul_one, add_zero] at hz hk
  subst hz hk
  rfl

/-- A reduced decimal is determined by the number it denotes. -/
theorem value_inj {a b : Decimal} : a.value = b.value ↔ a = b := by
  constructor
  · intro h
    rcases le_total a.scale b.scale with hs | hs
    · exact eq_of_value_eq_of_scale_le h hs
    · exact (eq_of_value_eq_of_scale_le h.symm hs).symm
  · rintro rfl
    rfl

theorem lt_iff_value {a b : Decimal} : a < b ↔ a.value < b.value := by
  show compare _ _ = .lt ↔ _
  rw [Int.compare_eq_lt, ← lift_value a (le_max_left _ _), ← lift_value b (le_max_right _ _),
    div_lt_div_iff_of_pos_right (by positivity), Int.cast_lt]

theorem le_iff_value {a b : Decimal} : a ≤ b ↔ a.value ≤ b.value := by
  show compare _ _ ≠ .gt ↔ _
  rw [Int.compare_ne_gt, ← lift_value a (le_max_left _ _), ← lift_value b (le_max_right _ _),
    div_le_div_iff_of_pos_right (by positivity), Int.cast_le]

theorem isPositive_iff {a : Decimal} : a.IsPositive ↔ 0 < a.value := by
  have hpos : (0 : ℚ) < 10 ^ a.scale := by positivity
  simp only [IsPositive, value, div_pos_iff_of_pos_right hpos, Int.cast_pos]

end Decimal

end OnrampLedger
