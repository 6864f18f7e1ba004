import OnrampLedger.Service.World
import OnrampLedger.Provider.Signature

/-!
# Setting up a scenario

A scenario runs steps against one fresh world. What it is set up with may leave any
setting out, and a count that is zero or negative counts as left out; a left-out
setting takes its default: the clock starts at 2025-01-01T00:00:00Z, a report is
retried 3 times, 100 at a time, reconciliation looks back 60 minutes, the integrity
monitor reads 500 wallets a page, tokens are signed with `test-jwt-secret`, and every
origin may call.

Alert thresholds are given one by one; each one given replaces its default, whatever
its value.
-/

namespace OnrampLedger

/-- Alert thresholds as given, each one optional. -/
structure ThresholdChoice where
  balanceMismatch : Option Decimal := none
  criticalDelta : Option Decimal := none
  webhookFailureCount : Option Int := none
  webhookFailureWindow : Option Duration := none
  cooldown : Option Duration := none
  creditSpikePerMinute : Option Decimal := none
  deriving Repr

/-- The thresholds chosen, the defaults where none is given. -/
def ThresholdChoice.thresholds (c : ThresholdChoice) : AlertThresholds :=
  let d := AlertThresholds.defaults
  ⟨c.balanceMismatch.getD d.balanceMismatch, c.criticalDelta.getD d.criticalDelta,
   c.webhookFailureCount.getD d.webhookFailureCount,
   c.webhookFailureWindow.getD d.webhookFailureWindow, c.cooldown.getD d.cooldown,
   c.creditSpikePerMinute.getD d.creditSpikePerMinute⟩

/-- What a scenario is set up with; anything may be left out. -/
structure Setup where
  start : Option Instant := none
  maxRetries : Int := 0
  retryBatch : Int := 0
  lookbackMinutes : Int := 0
  integrityBatch : Int := 0
  thresholds : ThresholdChoice := {}
  /-- Provider secrets under the provider names as given. -/
  webhookSecrets : List (String × String) := []
  jwtSecret : Option String := none
  corsOrigins : Option (List String) := none
  deriving Repr

namespace Setup

/-- A count, or its default when it is not positive. -/
def positiveOr (n fallback : Int) : Int := if n ≤ 0 then fallback else n

/-- The instant the clock starts at when none is given: 2025-01-01T00:00:00Z. -/
def defaultStart : Instant := ⟨1735689600 * Instant.nanosPerSecond⟩

/-- The secret tokens are signed with when none is given. -/
def defaultJwtSecret : String := "test-jwt-secret"

/-- The settings of the service. -/
def settings (s : Setup) : ServiceSettings where
  maxRetries := positiveOr s.maxRetries 3
  retryBatch := positiveOr s.retryBatch 100
  lookbackMinutes := positiveOr s.lookbackMinutes 60
  integrityBatch := positiveOr s.integrityBatch 500
  thresholds := s.thresholds.thresholds
  webhookSecrets := secretsByProvider s.webhookSecrets
  jwtSecret := s.jwtSecret.getD defaultJwtSecret
  corsOrigins := s.corsOrigins.getD ["*"]

/-- The fresh world a scenario starts in. -/
def world (s : Setup) : World where
  settings := s.settings
  store := Store.empty
  now := s.start.getD defaultStart
  issued := 0
  memory := ⟨[], [], []⟩
  published := []

end Setup

end OnrampLedger
