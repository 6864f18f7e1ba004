import Mathlib
import OnrampLedger.Config.Environment

/-!
# Durations in 64 bits

Durations are 64-bit counts of nanoseconds, and arithmetic on them wraps around. Negation
is exact on every duration but the least, `-2 ^ 63` nanoseconds, which negates to itself.

A duration setting that the duration reader refuses but that reads as a whole number `n`
is taken as `n` seconds, multiplied out in 64-bit nanoseconds. The product is exact
exactly while `n` seconds fit a signed 64-bit count of nanoseconds, that is while
`|n| ≤ 9223372036`; past that it wraps around, and `9223372037` seconds come out as a
negative span.

## Main results

* `Duration.wrap64_eq_self_iff` — wrapping leaves a number alone exactly on the signed
  64-bit range.
* `Duration.negate_nanos`, `Duration.negate_least` — negation is exact but on the least
  duration, which it leaves as it is.
* `Settings.duration_of_plain_seconds` — a plain count of seconds is that many seconds
  exactly when it fits.
* `Settings.load_plain_seconds_wrap` — the first count past the range, read by `load`.
-/

namespace OnrampLedger

namespace Duration

/-- Wrapping into 64 bits leaves a number alone exactly when it is in the signed range. -/
theorem wrap64_eq_self_iff (x : Int) :
    wrap64 x = x ↔ -9223372036854775808 ≤ x ∧ x < 9223372036854775808 := by
  have hm : ((Nat.pow 2 64 : Nat) : Int) = 18446744073709551616 := by decide
  have hpos : 0 < Nat.pow 2 64 := by decide
  unfold wrap64
  constructor
  · intro h
    have hlo := @Int.le_bmod x (Nat.pow 2 64) hpos
    have hhi := @Int.bmod_lt x (Nat.pow 2 64) hpos
    rw [h, hm] at hlo hhi
    omega
  · rintro ⟨hlo, hhi⟩
    exact Int.bmod_eq_of_le_mul_two (by rw [hm]; omega) (by rw [hm]; omega)

/-- Negation in 64 bits is exact on every duration of the range but the least. -/
theorem negate_nanos {d : Duration} (hlo : -9223372036854775808 < d.nanos)
    (hhi : d.nanos < 9223372036854775808) : d.negate.nanos = -d.nanos :=
  (wrap64_eq_self_iff _).mpr ⟨by omega, by omega⟩

/-- The least duration has no negative in the range: negating it wraps around to itself. -/
theorem negate_least : (⟨-9223372036854775808⟩ : Duration).negate = ⟨-9223372036854775808⟩ := by
  decide

end Duration

namespace Settings

/-- **A plain count of seconds is exact while it fits.** When a duration setting holds a
text `v` that the duration reader refuses and that reads as the whole number `n`, the
setting is `n` seconds exactly when `n` seconds fit a signed 64-bit count of nanoseconds. -/
theorem duration_of_plain_seconds {env : List (String × String)} {key v : String} {n : Int}
    (fallback : Duration) (hv : lookup env key = some v) (hunits : Duration.parse? v = none)
    (hn : Numeral.toInt? v = some n) :
    duration env key fallback = ⟨n * 1000000000⟩ ↔ n.natAbs ≤ 9223372036 := by
  have hd : duration env key fallback = ⟨Duration.wrap64 (n * 1000000000)⟩ := by
    simp only [duration, hv, hunits, hn]
  rw [hd, Duration.mk.injEq, Duration.wrap64_eq_self_iff]
  omega

/-- Two minutes written as `120`, as the reconcile interval. -/
theorem duration_of_plain_seconds_twoMinutes :
    lookup [("RECONCILE_INTERVAL", "120")] "RECONCILE_INTERVAL" = some "120" ∧
      Duration.parse? "120" = none ∧ Numeral.toInt? "120" = some 120 ∧
      (duration [("RECONCILE_INTERVAL", "120")] "RECONCILE_INTERVAL" ⟨300000000000⟩ =
          ⟨120 * 1000000000⟩ ↔ (120 : Int).natAbs ≤ 9223372036) :=
  ⟨by decide, by decide, by decide,
    @duration_of_plain_seconds [("RECONCILE_INTERVAL", "120")] "RECONCILE_INTERVAL" "120" 120
      ⟨300000000000⟩ (by decide) (by decide) (by decide)⟩

/-- The first count of seconds past the 64-bit range wraps around: a reconcile interval
written as `9223372037` is read as a negative span, not as that many seconds. -/
theorem load_plain_seconds_wrap :
    Duration.parse? "9223372037" = none ∧ Numeral.toInt? "9223372037" = some 9223372037 ∧
      (load [("RECONCILE_INTERVAL", "9223372037")]).reconcileInterval = ⟨-9223372036709551616⟩ ∧
      (load [("RECONCILE_INTERVAL", "9223372037")]).reconcileInterval ≠
        ⟨9223372037 * 1000000000⟩ := by
  refine ⟨by decide, by decide, by decide, by decide⟩

end Settings

end OnrampLedger
