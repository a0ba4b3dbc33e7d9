import WalletTopUp.Program
import WalletTopUp.Text.Characters
import WalletTopUp.Text.Hex
import WalletTopUp.Text.Printed
import WalletTopUp.Text.Utf8
import WalletTopUp.Text.Quoted
import WalletTopUp.Text.Base64Url
import WalletTopUp.Text.Split
import WalletTopUp.Number.Binary64
import WalletTopUp.Number.Shortest
import WalletTopUp.Number.FloatText
import WalletTopUp.Number.Numeral
import WalletTopUp.Money.Decimal
import WalletTopUp.Money.Reading
import WalletTopUp.Money.Floating
import WalletTopUp.Time.Date
import WalletTopUp.Time.Instant
import WalletTopUp.Time.InstantText
import WalletTopUp.Uuid
import WalletTopUp.Json.Source
import WalletTopUp.Json.Number
import WalletTopUp.Json.Strings
import WalletTopUp.Json.Lexeme
import WalletTopUp.Json.Containers
import WalletTopUp.Json.Tree
import WalletTopUp.Json.Scalar
import WalletTopUp.Json.Shape
import WalletTopUp.Json.Form
import WalletTopUp.Json.OfValue
import WalletTopUp.Json.Salvage
import WalletTopUp.PaymentMethod
import WalletTopUp.Account
import WalletTopUp.Transaction
import WalletTopUp.View
import WalletTopUp.TopUp.Request
import WalletTopUp.Fault
import WalletTopUp.Provider.Fault
import WalletTopUp.Retry.Policy
import WalletTopUp.Retry.Loop
import WalletTopUp.Service
import WalletTopUp.Settings
import WalletTopUp.Crypto.Sha256
import WalletTopUp.Subject.Header
import WalletTopUp.Subject.Claims
import WalletTopUp.Subject.Verifier
import WalletTopUp.Http.Headers
import WalletTopUp.Trace.Context
import WalletTopUp.Http.Status
import WalletTopUp.Metric
import WalletTopUp.Provider.Wallet
import WalletTopUp.Provider.Exchange
import WalletTopUp.Provider.Token
import WalletTopUp.Provider.Send
import WalletTopUp.Provider.Response
import WalletTopUp.Provider.Clients
import WalletTopUp.Service.Lookup
import WalletTopUp.TopUp.Registry
import WalletTopUp.TopUp.Flow
import WalletTopUp.TopUp.WalletLookup
import WalletTopUp.Event
import WalletTopUp.SideEffect
import WalletTopUp.Http.Message
import WalletTopUp.Http.Cookie
import WalletTopUp.Http.Query
import WalletTopUp.Http.MediaType
import WalletTopUp.Http.Body
import WalletTopUp.Http.Handler
import WalletTopUp.Http.Router
import WalletTopUp.Redis.Reply
import WalletTopUp.Redis.Cache
import WalletTopUp.Store.Ledger
import WalletTopUp.Store.Cache
import WalletTopUp.Scenario.Wallet
import WalletTopUp.Scenario.World
import WalletTopUp.Scenario.Answers
import WalletTopUp.Scenario.Run
import WalletTopUp.Scenario.DataStore
import WalletTopUp.Scenario.Attempts
import WalletTopUp.Proofs.History
import WalletTopUp.Proofs.Money.Difference
import WalletTopUp.Proofs.TopUp.Course
import WalletTopUp.Proofs.TopUp.Effects
import WalletTopUp.Proofs.Store.Ledger
import WalletTopUp.Proofs.TopUp.Serving
import WalletTopUp.Proofs.TopUp.Debit
import WalletTopUp.Proofs.TopUp.Calls
import WalletTopUp.Proofs.TopUp.Schedule
import WalletTopUp.Proofs.TopUp.Overlap
import WalletTopUp.Proofs.Provider.Course
import WalletTopUp.Proofs.Provider.Outcome
import WalletTopUp.Proofs.Provider.Slot
import WalletTopUp.Proofs.SideEffect.Course
import WalletTopUp.Proofs.TopUp.FollowUp
import WalletTopUp.Proofs.Money.Text
import WalletTopUp.Proofs.Time.InstantText
import WalletTopUp.Proofs.Uuid
import WalletTopUp.Proofs.Json.Lexeme
import WalletTopUp.Proofs.Json.Tree
import WalletTopUp.Proofs.Json.Shape
import WalletTopUp.Proofs.Json.Records
import WalletTopUp.Proofs.Trace.Correlation
import WalletTopUp.Proofs.Provider.Order
import WalletTopUp.Proofs.TopUp.Record
import WalletTopUp.Proofs.Underway
import WalletTopUp.Proofs.Provider.Sharing
import WalletTopUp.Proofs.Retry.Course
import WalletTopUp.Proofs.Store.Cache
import WalletTopUp.Proofs.SideEffect.Invalidation
import WalletTopUp.Proofs.Service.Lookup
import WalletTopUp.Proofs.Service.Coherence
import WalletTopUp.Proofs.Service.Race
import WalletTopUp.Proofs.TopUp.WalletLookup
import WalletTopUp.Proofs.Service.OnBehalf
import WalletTopUp.Proofs.Http.Authentication
import WalletTopUp.Proofs.Service.Isolation
import WalletTopUp.Proofs.Json.Spelling
import WalletTopUp.Proofs.Json.Passing
import WalletTopUp.Proofs.Json.Phase
import WalletTopUp.Proofs.Json.Salvage
import WalletTopUp.Proofs.Json.Members
import WalletTopUp.Proofs.Subject.Claims
import WalletTopUp.Proofs.Number.Binary64
import WalletTopUp.Proofs.Json.Canonical
import WalletTopUp.Proofs.Subject.Moment
import WalletTopUp.Proofs.Text.Base64Url
import WalletTopUp.Proofs.Subject.Token
import WalletTopUp.Proofs.Subject.Verifier
import WalletTopUp.Proofs.Retry.Timing
import WalletTopUp.Proofs.Provider.Tokens
import WalletTopUp.Proofs.Provider.Pace
import WalletTopUp.Proofs.Service.ReadBack
import WalletTopUp.Proofs.Redis.Sweep
import WalletTopUp.Proofs.Provider.Judgement
import WalletTopUp.Proofs.Provider.WholeAmount
import WalletTopUp.Proofs.TopUp.Report
import WalletTopUp.Proofs.TopUp.Checks
import WalletTopUp.Proofs.TwoRuns
import WalletTopUp.Proofs.Http.Disclosure
import WalletTopUp.Proofs.Service.CacheAside
import WalletTopUp.Proofs.Money.Floating
import WalletTopUp.Proofs.Provider.Balance
import WalletTopUp.Proofs.TopUp.WalletOutcome
import WalletTopUp.Proofs.Number.Order
import WalletTopUp.Proofs.Number.Power
import WalletTopUp.Proofs.Retry.Backoff
import WalletTopUp.Proofs.Results
import WalletTopUp.Proofs.Settings
import WalletTopUp.Proofs.Provider.Address
import WalletTopUp.Proofs.Text.Case
import WalletTopUp.Proofs.Text.Utf8
import WalletTopUp.Proofs.Http.Headers
import WalletTopUp.Proofs.Trace.Context
import WalletTopUp.Proofs.TopUp.Identifiers
import WalletTopUp.Proofs.Http.Correlation
import WalletTopUp.Proofs.Http.Cookie
