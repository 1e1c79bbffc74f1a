import ProviderScout.SortedMap.Basic
import ProviderScout.Number.Quantity
import ProviderScout.Number.Shortest
import ProviderScout.Json.Parser
import ProviderScout.Json.Record
import ProviderScout.Json.Printer
import ProviderScout.Time.Duration
import ProviderScout.Time.Rfc3339
import ProviderScout.Uuid
import ProviderScout.SocketAddress
import ProviderScout.Provider.Role
import ProviderScout.Usage.Kind
import ProviderScout.Error.Report
import ProviderScout.Config.Format
import ProviderScout.Config.Validation
import ProviderScout.Performance.Model
import ProviderScout.Performance.Report
import ProviderScout.Selection
import ProviderScout.Usage.Batching
import ProviderScout.Store.Memory
import ProviderScout.Statistics.Aggregator
import ProviderScout.Engine.Persistence
import ProviderScout.Retry.Attempts
import ProviderScout.Store.Database
import ProviderScout.Store.Opening
import ProviderScout.Service.Restart
import ProviderScout.Api.Answer
import ProviderScout.Proofs.Store.Fates
import ProviderScout.Proofs.Store.Transactions
import ProviderScout.Proofs.Engine.Clearing
import ProviderScout.Proofs.Engine.Conservation
import ProviderScout.Proofs.Engine.InFlight
import ProviderScout.Proofs.Selection.Preference
import ProviderScout.Proofs.Usage.Delivery
import ProviderScout.Proofs.Usage.Cutting
import ProviderScout.Proofs.Engine.Restarts
import ProviderScout.Proofs.Engine.Contention
import ProviderScout.Proofs.Engine.Resets
import ProviderScout.Proofs.Service.Course
import ProviderScout.Proofs.Service.Shutdown
import ProviderScout.Proofs.Number.Rounding
import ProviderScout.Proofs.Number.Nearest
import ProviderScout.Proofs.Number.Double
import ProviderScout.Proofs.Number.Values
import ProviderScout.Proofs.Time.Seconds
import ProviderScout.Proofs.Retry.Delays
import ProviderScout.Proofs.Retry.Attempts
import ProviderScout.Proofs.Retry.Range
import ProviderScout.Proofs.Api.Statistics
import ProviderScout.Proofs.Engine.Measures
import ProviderScout.Proofs.Selection.Ranking
import ProviderScout.Proofs.Selection.Enumeration
import ProviderScout.Proofs.Store.Benchmarks
import ProviderScout.Proofs.Store.Batches
import ProviderScout.Proofs.Engine.Refreshes
import ProviderScout.Proofs.Selection.Order
import ProviderScout.Proofs.Statistics.Overlaps
import ProviderScout.Proofs.Statistics.Grouping
import ProviderScout.Proofs.Statistics.Counts
import ProviderScout.Proofs.Usage.Counting
import ProviderScout.Proofs.Store.Migrations
import ProviderScout.Proofs.Engine.Frames
import ProviderScout.Proofs.Store.Answers
import ProviderScout.Proofs.Engine.Alike
import ProviderScout.Proofs.Engine.Isolation
import ProviderScout.Proofs.Text.Digits
import ProviderScout.Proofs.Text.Addresses
import ProviderScout.Proofs.Json.Reading
import ProviderScout.Proofs.Json.Parsing
import ProviderScout.Proofs.Config.Validation
import ProviderScout.Proofs.Config.RoundTrip
import ProviderScout.Proofs.Statistics.Windows
import ProviderScout.Proofs.Statistics.Serving
import ProviderScout.Proofs.Selection.Advance
import ProviderScout.Proofs.Statistics.Cutoffs
import ProviderScout.Proofs.Number.Exact
import ProviderScout.Proofs.Selection.Scale
import ProviderScout.Proofs.Performance.Smoothing
import ProviderScout.Proofs.Store.Latest
import ProviderScout.Store.Transaction
import ProviderScout.Proofs.Store.Histories
import ProviderScout.Proofs.Engine.Samples
import ProviderScout.Proofs.Text.Escapes
import ProviderScout.Proofs.Api.Requests
import ProviderScout.Proofs.Api.Jobs
