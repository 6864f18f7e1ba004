import OnrampLedger.Money.Decimal
import OnrampLedger.Money.Decimal.Parse
import OnrampLedger.Text.Case
import OnrampLedger.Text.Blank
import OnrampLedger.Text.Printable
import OnrampLedger.Text.Quote
import OnrampLedger.Ledger.Error
import OnrampLedger.Text.Split
import OnrampLedger.Time.Instant
import OnrampLedger.Number.Binary64
import OnrampLedger.Time.Duration
import OnrampLedger.Codec.Base64
import OnrampLedger.Codec.Hex
import OnrampLedger.Crypto.Hmac
import OnrampLedger.Json.Read
import OnrampLedger.Ledger.Chain
import OnrampLedger.Ledger.Key
import OnrampLedger.Json.Decode
import OnrampLedger.Provider.Format
import OnrampLedger.Provider.Signature
import OnrampLedger.Auth.Token
import OnrampLedger.Alerts.Thresholds
import OnrampLedger.Config.Environment
import OnrampLedger.Ledger.Amount
import OnrampLedger.Alerts.Log
import OnrampLedger.Intake.WebhookEvent
import OnrampLedger.Ledger.Event
import OnrampLedger.Purchase.OnRamp
import OnrampLedger.Review.Item
import OnrampLedger.Store.Basic
import OnrampLedger.Store.Transaction
import OnrampLedger.Store.Interleaving
import OnrampLedger.Store.Memory
import OnrampLedger.Service.Alerting
import OnrampLedger.Service.Wallets
import OnrampLedger.Service.Intake
import OnrampLedger.Service.Retry
import OnrampLedger.Service.Integrity
import OnrampLedger.Service.Reconcile
import OnrampLedger.Service.Transactions
import OnrampLedger.Http.Body
import OnrampLedger.Http.Message
import OnrampLedger.Http.Router
import OnrampLedger.Scenario.Outcome
import OnrampLedger.Scenario.Reference
import OnrampLedger.Scenario.Run
import OnrampLedger.Proofs.DecimalValue
import OnrampLedger.Proofs.Exec
import OnrampLedger.Proofs.Tables
import OnrampLedger.Proofs.Books
import OnrampLedger.Proofs.Run
import OnrampLedger.Proofs.Frames
import OnrampLedger.Proofs.Postings
import OnrampLedger.Proofs.Payments
import OnrampLedger.Proofs.Steps
import OnrampLedger.Proofs.Keys
import OnrampLedger.Proofs.Idempotency
import OnrampLedger.Proofs.Provenance
import OnrampLedger.Proofs.Money
import OnrampLedger.Proofs.Conservation
import OnrampLedger.Proofs.StoreCalls
import OnrampLedger.Proofs.Discipline
import OnrampLedger.Proofs.Serializable
import OnrampLedger.Proofs.EngineTransactions
import OnrampLedger.Proofs.DebitRace
import OnrampLedger.Proofs.LockOrder
import OnrampLedger.Proofs.Authority
import OnrampLedger.Proofs.Ids
import OnrampLedger.Proofs.PaymentRows
import OnrampLedger.Proofs.DeadLetters
import OnrampLedger.Proofs.PaymentCredits
import OnrampLedger.Proofs.UniqueKeys
import OnrampLedger.Proofs.MemoryStore
import OnrampLedger.Proofs.InterleavedCredits
import OnrampLedger.Proofs.Purchases
import OnrampLedger.Proofs.MissingWebhooks
import OnrampLedger.Proofs.Announcements
import OnrampLedger.Proofs.IntegrityFlags
import OnrampLedger.Service.Concurrency
import OnrampLedger.Proofs.RowAccounts
import OnrampLedger.Proofs.RowRaces
import OnrampLedger.Proofs.Deliveries
import OnrampLedger.Service.CheckedReads
import OnrampLedger.Proofs.CheckedReads
import OnrampLedger.Proofs.CaseSettlement
import OnrampLedger.Proofs.IntegrityRuns
import OnrampLedger.Proofs.ReconcileWindow
import OnrampLedger.Proofs.ChainEnds
import OnrampLedger.Proofs.ReconcileRepeats
import OnrampLedger.Proofs.RetryCycles
import OnrampLedger.Proofs.PaymentDecisions
import OnrampLedger.Proofs.KeyReading
import OnrampLedger.Proofs.AlertWindows
import OnrampLedger.Proofs.Utf8Codec
import OnrampLedger.Proofs.DecimalText
import OnrampLedger.Proofs.JsonReadBack
import OnrampLedger.Proofs.GenericReports
import OnrampLedger.Proofs.DurationSettings
import OnrampLedger.Proofs.WholeCents
import OnrampLedger.Proofs.ReportSignatures
import OnrampLedger.Proofs.Base64Codec
import OnrampLedger.Proofs.SecondsText
import OnrampLedger.Proofs.JsonNumbers
import OnrampLedger.Proofs.SignedTokens
