import Mathlib
import OnrampLedger.Auth.Token

/-!
# Whole seconds written as numbers read back

A token writes its times as whole seconds in decimal, and reads them back through the nearest
binary64 value. Every whole number up to `2 ^ 53` is a binary64 value, so it reads back as
itself. A larger one is rounded to 53 significant bits: the result is a whole number of at
least `2 ^ 53`, and at most one unit of its last place above the number, so it stays below
`2 ^ 63` for every number below `2 ^ 63 - 2 ^ 10`. Whole seconds written this way therefore
read back as some time whenever they have at most 100 digits, as themselves up to
`2 ^ 53`, and as a time of at least `2 ^ 53` seconds above that.

## Main results

* `Binary64.nearest_exact` — a whole number up to `2 ^ 53` is its own nearest double.
* `Binary64.nearest_large` — a larger one rounds to a whole number of at least `2 ^ 53`,
  within a unit of its last place.
* `Token.secondsOfNumber_digits` — the reading of a signed run of decimal digits.
* `Token.secondsOfNumber_toString_isSome` — every whole number of at most 100 digits reads
  as a time.
* `Token.secondsOfNumber_toString_of_nonneg` — one from zero to below `2 ^ 63 - 2 ^ 10` reads
  as itself up to `2 ^ 53`, and as at least `2 ^ 53` above.
-/

namespace OnrampLedger

namespace Binary64

theorem scaled_of_nonpos {e : Int} (he : e ≤ 0) (p q : Nat) :
    scaled p q e = (p * Nat.pow 2 e.natAbs, q) := by
  unfold scaled
  by_cases h0 : 0 ≤ e
  · have : e = 0 := by omega
    subst this
    simp
  · simp [h0]

theorem scaled_of_nonneg {e : Int} (he : 0 ≤ e) (p q : Nat) :
    scaled p q e = (p, q * Nat.pow 2 e.toNat) := by
  simp [scaled, he]

/-- A number of at most `53 + k` bits keeps at most 53 once shifted down `k` places. -/
theorem significand_lt {p k : Nat} (hk : p.log2 ≤ 52 + k) : p / 2 ^ k < 2 ^ 53 := by
  rw [Nat.div_lt_iff_lt_mul (by positivity), ← Nat.pow_add]
  calc p < 2 ^ (p.log2 + 1) := Nat.lt_log2_self
    _ ≤ 2 ^ (53 + k) := Nat.pow_le_pow_right (by decide) (by omega)

/-- A number of exactly `53 + k` bits keeps 53 once shifted down `k` places. -/
theorem le_significand {p k : Nat} (hp : p ≠ 0) (hk : p.log2 = 52 + k) : 2 ^ 52 ≤ p / 2 ^ k := by
  rw [Nat.le_div_iff_mul_le (by positivity), ← Nat.pow_add, ← hk]
  exact Nat.log2_self_le hp

theorem log2_one : Nat.log2 1 = 0 := by decide

/-- A whole number of fewer than 53 bits is its own significand, shifted up to 53 bits. -/
theorem nearestParts_of_log2_lt {p j : Nat} (hp0 : 0 < p) (hj : p.log2 + j = 52) :
    nearestParts p 1 = (p * 2 ^ j, -(j : Int)) := by
  have hne : p ≠ 0 := by omega
  have hm : p * 2 ^ j < 2 ^ 53 := by
    calc p * 2 ^ j < 2 ^ (p.log2 + 1) * 2 ^ j :=
          Nat.mul_lt_mul_of_pos_right Nat.lt_log2_self (by positivity)
      _ = 2 ^ 53 := by rw [← pow_add]; congr 1; omega
  have hm' : 2 ^ 52 ≤ p * 2 ^ j := by
    calc 2 ^ 52 = 2 ^ p.log2 * 2 ^ j := by rw [← pow_add, hj]
      _ ≤ p * 2 ^ j := Nat.mul_le_mul_right _ (Nat.log2_self_le hne)
  have he0 : ((p.log2 : Int) - (Nat.log2 1 : Int) - 52) = -(j : Int) := by rw [log2_one]; omega
  have hsc : scaled p 1 (-(j : Int)) = (p * 2 ^ j, 1) := by
    rw [scaled_of_nonpos (by omega)]
    simp
  have hnot : ¬ p * 2 ^ j < 4503599627370496 := by omega
  have hne53 : p * 2 ^ j ≠ 9007199254740992 := by omega
  unfold nearestParts
  simp [hne, he0, hsc, hnot, hne53, Nat.mod_one]

/-- A whole number up to `2 ^ 53` is its own nearest double. -/
theorem nearest_exact {p : Nat} (hp0 : 0 < p) (hp : p ≤ 2 ^ 53) :
    (nearest p 1).1 / (nearest p 1).2 = p ∧ (nearest p 1).1 % (nearest p 1).2 = 0 := by
  have hne : p ≠ 0 := by omega
  have hL : p.log2 ≤ 53 := by
    have := (Nat.log2_lt hne).mpr (show p < 2 ^ 54 by omega)
    omega
  rcases Nat.lt_or_ge p.log2 53 with hL52 | hL53
  · -- shifted up by `j` places and back: nothing is lost
    obtain ⟨j, hj⟩ : ∃ j, p.log2 + j = 52 := ⟨52 - p.log2, by omega⟩
    unfold nearest
    rw [nearestParts_of_log2_lt hp0 hj]
    rcases Nat.eq_zero_or_pos j with rfl | hjpos
    · simp [Nat.mod_one]
    · have hneg : ¬ (0 : Int) ≤ -(j : Int) := by omega
      simp only [hneg, if_false, Int.natAbs_neg, Int.natAbs_natCast]
      exact ⟨Nat.mul_div_cancel p (by positivity), Nat.mul_mod_left p _⟩
  · -- `2 ^ 53` itself: a significand of `2 ^ 52` one place up
    have hp53 : p = 2 ^ 53 := by
      have := (Nat.le_log2 hne).mp hL53
      omega
    subst hp53
    have hlog : Nat.log2 9007199254740992 = 53 := by
      rw [show (9007199254740992 : Nat) = 2 ^ 53 by norm_num]
      exact Nat.log2_two_pow
    have hsc : scaled 9007199254740992 1 1 = (9007199254740992, 2) := by simp [scaled]
    unfold nearest nearestParts
    simp [hlog, log2_one, hsc]

/-- A whole number from `2 ^ 53` up rounds to a whole double no smaller than `2 ^ 53`, and at
most one unit of its last place above it. -/
theorem nearest_large {p : Nat} (hp : 2 ^ 53 ≤ p) :
    (nearest p 1).2 = 1 ∧ 2 ^ 53 ≤ (nearest p 1).1 ∧ (nearest p 1).1 ≤ p + 2 ^ (p.log2 - 52) := by
  have hne : p ≠ 0 := by omega
  have hL : 53 ≤ p.log2 := (Nat.le_log2 hne).mpr hp
  obtain ⟨k, hk⟩ : ∃ k, p.log2 = 52 + k := ⟨p.log2 - 52, by omega⟩
  have hk1 : 1 ≤ k := by omega
  -- the significand `p / 2 ^ k` has 53 bits
  have hq_lo : 2 ^ 52 ≤ p / 2 ^ k := le_significand hne hk
  have hq_hi : p / 2 ^ k < 2 ^ 53 := significand_lt hk.le
  have he0 : ((p.log2 : Int) - (Nat.log2 1 : Int) - 52) = (k : Int) := by rw [log2_one]; omega
  have hsc : scaled p 1 (k : Int) = (p, 2 ^ k) := by
    rw [scaled_of_nonneg (by omega)]
    simp
  have hnot : ¬ p / 2 ^ k < 2 ^ 52 := by omega
  have hpow : ∀ n, Nat.pow 2 n = 2 ^ n := fun n => rfl
  have htoNat : ((k : Int) + 1).toNat = k + 1 := by omega
  have hdiv : p / 2 ^ k * 2 ^ k ≤ p := Nat.div_mul_le_self p _
  have hK2 : 2 ≤ 2 ^ k := by
    calc 2 = 2 ^ 1 := rfl
      _ ≤ 2 ^ k := Nat.pow_le_pow_right (by decide) hk1
  have hlow : 2 ^ 53 ≤ p / 2 ^ k * 2 ^ k := by
    calc 2 ^ 53 = 2 ^ 52 * 2 := by norm_num
      _ ≤ p / 2 ^ k * 2 ^ k := Nat.mul_le_mul hq_lo hK2
  unfold nearest nearestParts
  simp only [hne, one_ne_zero, or_self, if_false, he0, hsc, hnot, hpow]
  rw [show p.log2 - 52 = k by omega, pow_succ]
  -- name the significand and the unit of its last place; all that is left is linear
  have hB : (p / 2 ^ k + 1) * 2 ^ k = p / 2 ^ k * 2 ^ k + 2 ^ k := by ring
  have hover : p / 2 ^ k + 1 = 2 ^ 53 → 2 ^ 52 * (2 ^ k * 2) ≤ p + 2 ^ k := by
    intro h
    have hC : 2 ^ 52 * (2 ^ k * 2) = (p / 2 ^ k + 1) * 2 ^ k := by rw [h]; ring
    omega
  split_ifs
  all_goals simp only [hB, Int.toNat_natCast, htoNat, pow_succ 2 k, true_and]
  all_goals omega

/-- **Whole seconds keep their place.** The nearest double to a positive whole number below
`2 ^ 63 - 2 ^ 10` is a whole number below `2 ^ 63`: the number itself up to `2 ^ 53`, and
at least `2 ^ 53` above. -/
theorem nearest_whole {p : Nat} (h0 : 0 < p) (hp : p < 2 ^ 63 - 2 ^ 10) :
    (nearest p 1).1 / (nearest p 1).2 < 2 ^ 63 ∧
      (p ≤ 2 ^ 53 → (nearest p 1).1 / (nearest p 1).2 = p) ∧
      (2 ^ 53 ≤ p → 2 ^ 53 ≤ (nearest p 1).1 / (nearest p 1).2) := by
  rcases Nat.lt_or_ge (2 ^ 53) p with hbig | hsmall
  · obtain ⟨hden, hlo, hhi⟩ := nearest_large hbig.le
    -- below `2 ^ 63` the last place is worth at most `2 ^ 10`
    have hlog : p.log2 < 63 := (Nat.log2_lt (by omega)).mpr (by omega)
    have hulp : 2 ^ (p.log2 - 52) ≤ 2 ^ 10 := Nat.pow_le_pow_right (by decide) (by omega)
    rw [hden, Nat.div_one]
    exact ⟨by omega, fun h => absurd h (by omega), fun _ => hlo⟩
  · obtain ⟨hq, -⟩ := nearest_exact h0 hsmall
    rw [hq]
    exact ⟨by omega, fun _ => rfl, fun h => by omega⟩

end Binary64

namespace Numeral

/-- The digits of a positive number do not start with zero. -/
theorem toDigits_head_ne_zero {m : Nat} (h0 : 0 < m) :
    ∃ d ds, Nat.toDigits 10 m = d :: ds ∧ d ≠ '0' := by
  induction m using Nat.strong_induction_on with
  | _ m ih =>
    rw [Nat.toDigits_eq_if (by decide)]
    split
    · next hlt =>
      have hdigit : ∀ k < 10, 0 < k → Nat.digitChar k ≠ '0' := by decide
      exact ⟨_, [], rfl, hdigit m hlt h0⟩
    · next hge =>
      obtain ⟨d, ds, hds, hd⟩ := ih (m / 10) (by omega) (by omega)
      exact ⟨d, ds ++ [Nat.digitChar (m % 10)], by rw [hds, List.cons_append], hd⟩

theorem toList_toString_int (i : Int) :
    (toString i).toList = (if i < 0 then ['-'] else []) ++ Nat.toDigits 10 i.natAbs := by
  cases i with
  | ofNat m => simp [Int.toString_eq_repr, Int.repr]
  | negSucc m =>
    simp [Int.toString_eq_repr, Int.repr, Int.negSucc_lt_zero]

/-- A whole number's decimal text: a minus sign below zero, then the digits of its
magnitude. -/
theorem toString_int_eq (i : Int) :
    toString i =
      String.ofList ((if decide (i < 0) then ['-'] else []) ++ Nat.toDigits 10 i.natAbs) := by
  rw [← String.toList_inj, String.toList_ofList, toList_toString_int]
  simp only [decide_eq_true_eq]

end Numeral

namespace Token

theorem digitsValue_eq (cs : List Char) : digitsValue cs = Nat.ofDigitChars 10 cs 0 := by
  rw [digitsValue, Nat.ofDigitChars_eq_foldl]
  congr 1
  funext acc c
  rw [Nat.mul_comm]
  rfl

theorem overflowBound_gt : 10 ^ 100 < overflowBound := by
  decide +kernel

/-- **The reading of a whole number of seconds**: the digits of `m`, after a minus sign when
`negative`, read as the whole seconds of the double nearest `m`, for every `m` from one up
to `10 ^ 100`. -/
theorem secondsOfNumber_digits (negative : Bool) {m : Nat} (h0 : 0 < m) (hm : m < 10 ^ 100) :
    secondsOfNumber (String.ofList ((if negative then ['-'] else []) ++ Nat.toDigits 10 m)) =
      some (secondsOfValue negative (Binary64.nearest m 1).1 (Binary64.nearest m 1).2) := by
  have hdigit : ∀ c ∈ Nat.toDigits 10 m, c.isDigit := fun c h =>
    Nat.isDigit_of_mem_toDigits (by decide) (by decide) h
  have hnotE : ∀ c ∈ Nat.toDigits 10 m, c ≠ 'e' ∧ c ≠ 'E' := by
    intro c h
    have := hdigit c h
    constructor <;> rintro rfl <;> exact absurd this (by decide)
  have hnotPoint : ∀ c ∈ Nat.toDigits 10 m, c ≠ '.' := by
    intro c h
    have := hdigit c h
    rintro rfl
    exact absurd this (by decide)
  obtain ⟨d, ds, hds, hd⟩ := Numeral.toDigits_head_ne_zero h0
  have hlen : (Nat.toDigits 10 m).length ≤ 100 :=
    (Nat.length_toDigits_le_iff (by decide) (by decide)).mpr hm
  have hvalue : digitsValue (Nat.toDigits 10 m) = m := by
    rw [digitsValue_eq, Nat.ofDigitChars_ten_toDigits]
  have hminus : d ≠ '-' := by
    have := hdigit d (by rw [hds]; exact List.mem_cons_self)
    rintro rfl
    exact absurd this (by decide)
  unfold secondsOfNumber
  simp only [String.toList_ofList]
  -- the text starts with a minus sign exactly when it is negative, and the digits follow
  split
  case' h_1 cs h =>
    obtain rfl : negative = true := by
      cases negative
      · simp only [Bool.false_eq_true, if_false, List.nil_append, hds] at h
        exact absurd (List.cons.inj h).1 hminus
      · rfl
    simp only [if_true, List.cons_append, List.nil_append] at h
    obtain rfl : cs = Nat.toDigits 10 m := (List.cons.inj h).2.symm
  case' h_2 x h =>
    obtain rfl : negative = false := by
      cases negative
      · rfl
      · exact absurd rfl (h (Nat.toDigits 10 m))
    simp only [Bool.false_eq_true, if_false, List.nil_append]
  all_goals
    have htakeE : (Nat.toDigits 10 m).takeWhile (fun c => decide (c ≠ 'e' ∧ c ≠ 'E')) =
        Nat.toDigits 10 m := List.takeWhile_eq_self_iff.mpr (by simpa using hnotE)
    have hdropE : (Nat.toDigits 10 m).dropWhile (fun c => decide (c ≠ 'e' ∧ c ≠ 'E')) = [] :=
      List.dropWhile_eq_nil_iff.mpr (by simpa using hnotE)
    have htakeP : (Nat.toDigits 10 m).takeWhile (fun c => decide (c ≠ '.')) = Nat.toDigits 10 m :=
      List.takeWhile_eq_self_iff.mpr (by simpa using hnotPoint)
    have hdropP : (Nat.toDigits 10 m).dropWhile (fun c => decide (c ≠ '.')) = [] :=
      List.dropWhile_eq_nil_iff.mpr (by simpa using hnotPoint)
    have hzero : (Nat.toDigits 10 m).dropWhile (fun c => decide (c = '0')) = Nat.toDigits 10 m := by
      rw [hds]
      exact List.dropWhile_cons_of_neg (by simpa using hd)
    have hbig : Numeral.bigInt? [] = none := rfl
    have hover : ¬ overflowBound ≤ m := by
      have := overflowBound_gt
      omega
    simp only [htakeE, hdropE, htakeP, hdropP, List.drop_nil, List.append_nil, hzero, hvalue,
      hbig, Option.getD_none, List.length_nil, Nat.cast_zero, sub_zero, le_refl, if_true,
      Int.toNat_zero, show Nat.pow 10 0 = 1 from rfl, Nat.mul_one, ge_iff_le, hover, if_false,
      Nat.pos_iff_ne_zero.mp h0, false_or, add_zero]
    rw [if_neg (by omega), if_neg (by omega)]
    rfl


/-- A nonzero whole number of at most 100 digits, written in decimal, reads as the
whole seconds of its nearest double. -/
theorem secondsOfNumber_toString {i : Int} (h0 : i ≠ 0) (hi : i.natAbs < 10 ^ 100) :
    secondsOfNumber (toString i) =
      some (secondsOfValue (decide (i < 0)) (Binary64.nearest i.natAbs 1).1
        (Binary64.nearest i.natAbs 1).2) := by
  rw [Numeral.toString_int_eq]
  exact secondsOfNumber_digits _ (Int.natAbs_pos.mpr h0) hi

/-- Every whole number of at most 100 digits, written in decimal, reads as a time. -/
theorem secondsOfNumber_toString_isSome {i : Int} (hi : i.natAbs < 10 ^ 100) :
    (secondsOfNumber (toString i)).isSome := by
  rcases eq_or_ne i 0 with rfl | h0
  · decide
  · rw [secondsOfNumber_toString h0 hi]
    rfl

/-- Seconds below `2 ^ 63` are kept as they are, when positive. -/
theorem secondsOfValue_false {num den : Nat} (h : num / den < 2 ^ 63) :
    secondsOfValue false num den = ((num / den : Nat) : Int) := by
  simp only [secondsOfValue, ge_iff_le, Nat.pow_eq, Nat.not_le.mpr h, if_false, Bool.false_eq_true,
    false_and]

/-- **Whole seconds from zero read back.** A whole number from zero to below
`2 ^ 63 - 2 ^ 10`, written in decimal, reads as itself up to `2 ^ 53`, and as a time of at least
`2 ^ 53` seconds above. -/
theorem secondsOfNumber_toString_of_nonneg {i : Int} (h0 : 0 ≤ i) (hi : i < 2 ^ 63 - 2 ^ 10) :
    ∃ s, secondsOfNumber (toString i) = some s ∧ (i ≤ 2 ^ 53 → s = i) ∧ (2 ^ 53 ≤ i → 2 ^ 53 ≤ s) := by
  rcases eq_or_lt_of_le h0 with rfl | hpos
  · exact ⟨0, by decide, fun _ => rfl, fun h => absurd h (by decide)⟩
  have hp0 : 0 < i.natAbs := by omega
  have hp : i.natAbs < 2 ^ 63 - 2 ^ 10 := by omega
  obtain ⟨hlt, hexact, hlarge⟩ := Binary64.nearest_whole hp0 hp
  refine ⟨_, secondsOfNumber_toString (by omega) (by omega), ?_, ?_⟩
  · intro h
    rw [decide_eq_false (by omega), secondsOfValue_false hlt, hexact (by omega)]
    omega
  · intro h
    rw [decide_eq_false (by omega), secondsOfValue_false hlt]
    have := hlarge (by omega)
    omega

end Token

end OnrampLedger
