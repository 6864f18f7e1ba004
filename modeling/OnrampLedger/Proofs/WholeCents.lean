import Mathlib
import OnrampLedger.Proofs.DecimalValue
import OnrampLedger.Proofs.Postings

/-!
# Amounts of whole cents

`normalizeAmount` rounds an amount to cents and keeps it only when rounding changes
nothing. Since a `Decimal` is held in lowest terms, rounding keeps exactly the decimals
with at most two places (`Decimal.roundTo_eq_self_iff`), and those are exactly the numbers
that a hundred times over are whole (`Decimal.hasCents_iff_value`). So normalization
admits the positive numbers of whole cents, returns them unchanged, and refuses every
other amount as an invalid argument, saying which of the two rules it broke.

## Main results

* `Decimal.hasCents_iff_value` — at most two places means a whole number of cents.
* `normalizeAmount_eq_error` — the two refusals and when each is made.
* `normalizeAmount_admits_whole_cents` — the whole decision, with its messages.
-/

namespace OnrampLedger

namespace Decimal

/-- A decimal has at most two places exactly when a hundred times its value is whole. -/
theorem hasCents_iff_value (a : Decimal) : a.HasCents ↔ ∃ n : ℤ, 100 * a.value = n := by
  constructor
  · rintro ⟨n, rfl⟩
    refine ⟨n, ?_⟩
    rw [value_make]
    field_simp
    ring
  · rintro ⟨n, hn⟩
    -- both `a` and the cents `n / 100` are in lowest terms, so equal values make them equal
    have hvalue : a.value = (make n 2).value := by
      rw [value_make]
      field_simp
      linarith
    exact ⟨n, value_inj.mp hvalue⟩

end Decimal

/-- A refused amount is either not above zero, or above zero and finer than a cent; the
refusal names which. -/
theorem normalizeAmount_eq_error {a : Decimal} {e : Error} :
    normalizeAmount a = .error e ↔
      (¬ a.IsPositive ∧ e = .amountNotPositive) ∨
        (a.IsPositive ∧ ¬ a.HasCents ∧ e = .amountTooPrecise a) := by
  have hround : a.roundTo 2 = a ↔ a.HasCents := by
    rw [Decimal.roundTo_eq_self_iff, Decimal.hasCents_iff]
  unfold normalizeAmount
  dsimp only
  by_cases hpos : a.IsPositive
  · by_cases hc : a.HasCents
    · simp [hpos, hround.mpr hc, hc]
    · have hr : ¬ a.roundTo 2 = a := fun h => hc (hround.mp h)
      simp [hpos, hr, hc, eq_comm]
  · simp [hpos, eq_comm]

/-- **Normalization admits exactly the positive amounts of whole cents.** It answers for
`a` exactly when `a` is above zero and a hundred times `a` is whole, and then answers `a`
itself. Every refusal is an invalid argument: an amount not above zero is refused as
such, and any other is refused as finer than a cent, naming the amount's plain text. -/
theorem normalizeAmount_admits_whole_cents (a : Decimal) :
    ((∃ b, normalizeAmount a = .ok b) ↔ 0 < a.value ∧ ∃ n : ℤ, 100 * a.value = n) ∧
      (∀ b, normalizeAmount a = .ok b → b = a) ∧
      (∀ e, normalizeAmount a = .error e → e.kind = .invalidArgument ∧
        (a.value ≤ 0 ∧ e.message = "amount must be greater than zero" ∨
          0 < a.value ∧ (¬ ∃ n : ℤ, 100 * a.value = n) ∧
            e.message = "amount " ++ a.render ++ " has more than 2 decimal places")) := by
  refine ⟨?_, fun b h => (normalizeAmount_eq_ok.mp h).2.2, ?_⟩
  · constructor
    · rintro ⟨b, h⟩
      obtain ⟨hpos, hc, -⟩ := normalizeAmount_eq_ok.mp h
      exact ⟨Decimal.isPositive_iff.mp hpos, (Decimal.hasCents_iff_value a).mp hc⟩
    · rintro ⟨hpos, hc⟩
      exact ⟨a, normalizeAmount_eq_ok.mpr
        ⟨Decimal.isPositive_iff.mpr hpos, (Decimal.hasCents_iff_value a).mpr hc, rfl⟩⟩
  · intro e h
    rcases normalizeAmount_eq_error.mp h with ⟨hpos, rfl⟩ | ⟨hpos, hc, rfl⟩
    · exact ⟨rfl, .inl ⟨not_lt.mp (mt Decimal.isPositive_iff.mpr hpos), rfl⟩⟩
    · refine ⟨rfl, .inr ⟨Decimal.isPositive_iff.mp hpos,
        mt (Decimal.hasCents_iff_value a).mpr hc, rfl⟩⟩

/-- An amount a tenth of a cent past whole cents, `1.005`, is refused as an invalid
argument that names it. -/
theorem normalizeAmount_refuses_tenthOfCent :
    ∃ e, normalizeAmount (Decimal.make 1005 3) = .error e ∧ e.kind = .invalidArgument ∧
      e.message = "amount 1.005 has more than 2 decimal places" := by
  have hrefused : normalizeAmount (Decimal.make 1005 3) =
      .error (.amountTooPrecise (Decimal.make 1005 3)) := by decide
  obtain ⟨hkind, hcase⟩ := (normalizeAmount_admits_whole_cents (Decimal.make 1005 3)).2.2 _ hrefused
  have hpos : 0 < (Decimal.make 1005 3).value := by
    rw [Decimal.value_make]
    norm_num
  refine ⟨_, hrefused, hkind, ?_⟩
  rcases hcase with ⟨hle, -⟩ | ⟨-, -, hmsg⟩
  · exact absurd hle (not_le.mpr hpos)
  · rw [hmsg]
    decide

end OnrampLedger
