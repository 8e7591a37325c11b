import ControlPlane.Transition
import ControlPlane.Clustered
import ControlPlane.Text
import ControlPlane.Retry
import ControlPlane.Store.Tables
import ControlPlane.Store.Calls
import ControlPlane.Store.System
import ControlPlane.Store.Statements
import ControlPlane.Store.Provenance
import ControlPlane.Store.Idempotency
import ControlPlane.Store.KeyBacking
import ControlPlane.Store.KeyExpiry
import ControlPlane.Store.Retry
import ControlPlane.Store.RetryCounts
import ControlPlane.Store.Outbox
import ControlPlane.Store.Serial
import ControlPlane.Store.RelayScan
import ControlPlane.Store.DeadLetters
import ControlPlane.Store.Quarantine
import ControlPlane.Store.Payloads
import ControlPlane.Store.KeyCleanup
import ControlPlane.Store.RoundTrip
import ControlPlane.Election
import ControlPlane.Agreement
import ControlPlane.Json.Parser
import ControlPlane.Json.Decode
import ControlPlane.Json.Completeness
import ControlPlane.Config.Rules
import ControlPlane.Config.Formats
import ControlPlane.Config.Settings
import ControlPlane.Config.Durations
import ControlPlane.Config.Server
import ControlPlane.App.Breaker
import ControlPlane.App.BreakerCalls
import ControlPlane.App.Processes
import ControlPlane.App.System
import ControlPlane.App.Publication
import ControlPlane.App.Finality
import ControlPlane.App.Lease
import ControlPlane.App.Selection
import ControlPlane.App.BusErrors
import ControlPlane.App.StoreBreaker
import ControlPlane.App.Inbox
import ControlPlane.App.Stream
import ControlPlane.App.Validation
import ControlPlane.App.Backoff
import ControlPlane.App.RetryLoop
import ControlPlane.App.RetryProcesses
import ControlPlane.App.Lifecycle
import ControlPlane.Http.Address
import ControlPlane.Http.Secure
import ControlPlane.Http.Blocking
import ControlPlane.Http.Expiry
import ControlPlane.Http.IPLimiter
import ControlPlane.Http.Chain
import ControlPlane.App.Admission
import ControlPlane.App.StreamText
import ControlPlane.App.Delivery
import ControlPlane.Journal
import ControlPlane.Store.EventLog
import ControlPlane.App.Progress
import ControlPlane.App.Service
import ControlPlane.App.Lanes
import ControlPlane.App.RelayControl
import ControlPlane.App.Health
import ControlPlane.Http.SubjectLimiter
import ControlPlane.Http.Headers
import ControlPlane.Handles
import ControlPlane.Modules.Hosts
import ControlPlane.Modules.TLS
import ControlPlane.Modules.Connections
import ControlPlane.Modules.Holdings
