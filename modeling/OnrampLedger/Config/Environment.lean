import OnrampLedger.Alerts.Thresholds
import OnrampLedger.Json.Value
import OnrampLedger.Money.Decimal.Parse
import OnrampLedger.Text.Blank
import OnrampLedger.Text.Case
import OnrampLedger.Text.Numeral
import OnrampLedger.Text.Split

/-!
# Settings from the environment

The service reads its settings from environment variables. An unset or empty variable
leaves the default; so does a value that does not read as the setting's kind, with one
exception: a duration that is not written with units but reads as a whole number is
that many seconds (computed in 64-bit arithmetic, so a huge count wraps around).

* Whole numbers are optionally signed ASCII digits that fit in 64 bits.
* Durations are sequences of decimal numbers with units (`ns`, `us`, `µs`, `ms`, `s`,
  `m`, `h`), optionally signed.
* Decimals are read as amounts are.
* `WEBHOOK_SECRETS` lists `provider=secret` pairs separated by commas; pieces without
  `=` or with nothing before it are skipped, names are lower-cased, and a later pair
  wins.
* `CORS_ORIGINS` lists origins separated by commas; blank ones are dropped.

`Settings.problems` lists what the service cannot start without.
-/

namespace OnrampLedger

/-- Everything the service is configured with. -/
structure Settings where
  port : String
  databaseUrl : String
  redisUrl : String
  cacheTtl : Duration
  jwtSecret : String
  webhookSecrets : List (String × String)
  lockTimeout : Duration
  webhookRetryInterval : Duration
  webhookMaxRetries : Int
  webhookRetryBatch : Int
  reconcileInterval : Duration
  reconcileLookbackMinutes : Int
  integrityInterval : Duration
  integrityBatchSize : Int
  alerts : AlertThresholds
  /-- `none` when the variable is set but lists no origin. -/
  corsOrigins : Option (List String)
  deriving Repr

namespace Settings

/-- A variable's value, if set and not empty. -/
def lookup (env : List (String × String)) (key : String) : Option String :=
  match env.lookup key with
  | some "" => none
  | v => v

/-- A text setting. -/
def text (env : List (String × String)) (key fallback : String) : String :=
  (lookup env key).getD fallback

/-- A whole-number setting. -/
def whole (env : List (String × String)) (key : String) (fallback : Int) : Int :=
  ((lookup env key).bind Numeral.toInt?).getD fallback

/-- A duration setting: a duration with units, else a whole number of seconds. -/
def duration (env : List (String × String)) (key : String) (fallback : Duration) : Duration :=
  match lookup env key with
  | none => fallback
  | some v =>
    match Duration.parse? v with
    | some d => d
    | none =>
      match Numeral.toInt? v with
      | some n => ⟨Duration.wrap64 (n * 1000000000)⟩
      | none => fallback

/-- A decimal setting. -/
def decimal (env : List (String × String)) (key : String) (fallback : Decimal) : Decimal :=
  match lookup env key with
  | none => fallback
  | some v =>
    match Decimal.parse v with
    | .ok d => d
    | .error _ => fallback

/-- Provider secrets from `provider=secret` pairs, keyed by lower-cased provider. -/
def secretPairs (v : String) : List (String × String) :=
  (Text.splitText ',' v).foldl (fun acc piece =>
    let p := (Text.trim piece).toList
    match p.idxOf? '=' with
    | none => acc
    | some 0 => acc
    | some i =>
      let key := Text.toLower (Text.trim (String.ofList (p.take i)))
      let value := Text.trim (String.ofList (p.drop (i + 1)))
      (acc.filter (·.1 != key)) ++ [(key, value)]) []

/-- Origins from a comma-separated list; `none` when every piece is blank. -/
def originList (v : String) : Option (List String) :=
  match ((Text.splitText ',' v).map Text.trim).filter (· != "") with
  | [] => none
  | os => some os

/-- Reads the settings from the environment. -/
def load (env : List (String × String)) : Settings :=
  let d := AlertThresholds.defaults
  { port := text env "PORT" "8080"
    databaseUrl := text env "DATABASE_URL" ""
    redisUrl := text env "REDIS_URL" ""
    cacheTtl := duration env "CACHE_TTL" ⟨30 * 1000000000⟩
    jwtSecret := text env "JWT_SECRET" ""
    webhookSecrets := secretPairs ((env.lookup "WEBHOOK_SECRETS").getD "")
    lockTimeout := duration env "LOCK_TIMEOUT" ⟨5 * 1000000000⟩
    webhookRetryInterval := duration env "WEBHOOK_RETRY_INTERVAL" ⟨60 * 1000000000⟩
    webhookMaxRetries := whole env "WEBHOOK_MAX_RETRIES" 3
    webhookRetryBatch := whole env "WEBHOOK_RETRY_BATCH" 100
    reconcileInterval := duration env "RECONCILE_INTERVAL" ⟨5 * 60 * 1000000000⟩
    reconcileLookbackMinutes := whole env "RECONCILE_LOOKBACK_MINUTES" 60
    integrityInterval := duration env "INTEGRITY_INTERVAL" ⟨10 * 60 * 1000000000⟩
    integrityBatchSize := whole env "INTEGRITY_BATCH_SIZE" 500
    alerts :=
      { balanceMismatch := decimal env "ALERT_BALANCE_MISMATCH_THRESHOLD" d.balanceMismatch
        criticalDelta := decimal env "ALERT_CRITICAL_DELTA" d.criticalDelta
        webhookFailureCount := whole env "ALERT_WEBHOOK_FAILURE_COUNT" d.webhookFailureCount
        webhookFailureWindow := duration env "ALERT_WEBHOOK_FAILURE_WINDOW" d.webhookFailureWindow
        cooldown := duration env "ALERT_COOLDOWN" d.cooldown
        creditSpikePerMinute := decimal env "ALERT_CREDIT_SPIKE_PER_MINUTE" d.creditSpikePerMinute }
    corsOrigins := match lookup env "CORS_ORIGINS" with
      | none => some ["*"]
      | some v => originList v }

/-- What the service cannot start without, in the order checked. -/
def problems (s : Settings) : List String :=
  (if s.jwtSecret = "" then ["JWT_SECRET is required"] else []) ++
  (if s.webhookMaxRetries < 1 then ["WEBHOOK_MAX_RETRIES must be at least 1"] else [])

/-- The settings as JSON, durations in nanoseconds. -/
def toJson (s : Settings) : Json :=
  let a := s.alerts
  .object [
    ("port", .str s.port), ("database_url", .str s.databaseUrl), ("redis_url", .str s.redisUrl),
    ("cache_ttl_ns", .int s.cacheTtl.nanos), ("jwt_secret", .str s.jwtSecret),
    ("webhook_secrets", Json.sortedObject (s.webhookSecrets.map fun (k, v) => (k, .str v))),
    ("lock_timeout_ns", .int s.lockTimeout.nanos),
    ("webhook_retry_interval_ns", .int s.webhookRetryInterval.nanos),
    ("webhook_max_retries", .int s.webhookMaxRetries),
    ("webhook_retry_batch", .int s.webhookRetryBatch),
    ("reconcile_interval_ns", .int s.reconcileInterval.nanos),
    ("reconcile_lookback_minutes", .int s.reconcileLookbackMinutes),
    ("integrity_interval_ns", .int s.integrityInterval.nanos),
    ("integrity_batch_size", .int s.integrityBatchSize),
    ("alerts", .object [
      ("balance_mismatch", .decimal a.balanceMismatch), ("critical_delta", .decimal a.criticalDelta),
      ("webhook_failure_count", .int a.webhookFailureCount),
      ("webhook_failure_window_ns", .int a.webhookFailureWindow.nanos),
      ("cooldown_ns", .int a.cooldown.nanos),
      ("credit_spike_per_minute", .decimal a.creditSpikePerMinute)]),
    ("cors_origins", match s.corsOrigins with
      | some os => .array (os.map Json.str)
      | none => .null)]

end Settings

end OnrampLedger
