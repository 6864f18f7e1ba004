import OnrampLedger.Money.Decimal
import OnrampLedger.Time.Duration

/-!
# Alert thresholds

What is worth an operator's attention: a balance mismatch of at least
`balanceMismatch` (critical above `criticalDelta`), `webhookFailureCount` failed
provider reports within `webhookFailureWindow`, and more than `creditSpikePerMinute`
credited to one wallet within a minute. Once raised, an alert of the same key stays
quiet for `cooldown`.
-/

namespace OnrampLedger

/-- The limits alerts are raised at. -/
structure AlertThresholds where
  balanceMismatch : Decimal
  criticalDelta : Decimal
  webhookFailureCount : Int
  webhookFailureWindow : Duration
  cooldown : Duration
  creditSpikePerMinute : Decimal
  deriving Repr, Inhabited

namespace AlertThresholds

/-- The thresholds used when none are configured. -/
def defaults : AlertThresholds where
  balanceMismatch := Decimal.make 1 2
  criticalDelta := 100
  webhookFailureCount := 5
  webhookFailureWindow := ⟨5 * 60 * 1000000000⟩
  cooldown := ⟨5 * 60 * 1000000000⟩
  creditSpikePerMinute := 10000

end AlertThresholds

end OnrampLedger
