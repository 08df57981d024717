import Sturnus.Foundation.Float64
import Sturnus.Foundation.Text
import Sturnus.Foundation.Url
import Sturnus.Foundation.Interleaving
import Sturnus.Foundation.Equidistribution
import Sturnus.Foundation.Result
import Sturnus.Foundation.Http
import Sturnus.Foundation.Json.String
import Sturnus.Foundation.Json.Object
import Sturnus.Foundation.Json.Reader
import Sturnus.Foundation.Upsert
import Sturnus.Foundation.Semaphore
import Sturnus.Foundation.Counters
import Sturnus.Foundation.Concurrent
import Sturnus.Body
import Sturnus.Proxy.Outbound
import Sturnus.Proxy.Rewrite
import Sturnus.Proxy.Headers
import Sturnus.Config
import Sturnus.Tracker
import Sturnus.Metrics
import Sturnus.ModelMap
import Sturnus.Server.Status
import Sturnus.Proxy.Origin
import Sturnus.Router
import Sturnus.ModelMap.Wiring
import Sturnus.Server.Affinity
import Sturnus.Server.Budget
import Sturnus.Proxy.Forward
import Sturnus.Server.Handler
import Sturnus.Server.Run
import Sturnus.Server.Moves
import Sturnus.Server.Boot
import Sturnus.Server.Permits
import Sturnus.Server.Ledger
import Sturnus.Server.Tally
import Sturnus.Server.Solo
import Sturnus.Server.Accounting
import Sturnus.Router.Weights
import Sturnus.Router.Share
import Sturnus.Router.Feedback
import Sturnus.Router.Starvation
import Sturnus.Tracker.Serialization
import Sturnus.Foundation.Unwinding
import Sturnus.Router.NonInterference
import Sturnus.Tracker.Ewma
import Sturnus.Router.Dominance
import Sturnus.Foundation.Settling
import Sturnus.Tracker.Convergence
import Sturnus.Router.ProbeShare
import Sturnus.Router.OutageCost
import Sturnus.Proxy.ExtraHeaders
import Sturnus.Proxy.Request
import Sturnus.Server.Usable
import Sturnus.Foundation.Sse
import Sturnus.Proxy.Relay
import Sturnus.Foundation.Json.Tree
import Sturnus.Foundation.Json.Document
import Sturnus.Proxy.Labels
import Sturnus.Foundation.Json.Size
import Sturnus.Proxy.Footprint
import Sturnus.Server.Coverage
import Sturnus.Router.Subsample
import Sturnus.Router.Partition
import Sturnus.Tracker.History
import Sturnus.Foundation.Smoothing
import Sturnus.Server.Degraded
import Sturnus.Foundation.Fallible
import Sturnus.Proxy.Streaming
import Sturnus.Proxy.Capped
import Sturnus.Foundation.HeaderMap
import Sturnus.Server.ResponseHeaders
import Sturnus.Server.ByteCap
import Sturnus.Trace
import Sturnus.Foundation.Toml.Lexer
import Sturnus.Foundation.Toml.Document
import Sturnus.Foundation.Toml.Fields
import Sturnus.Config.Deserialize
import Sturnus.Config.Load
import Sturnus.Foundation.Toml.Lines
import Sturnus.Foundation.Transition
import Sturnus.Server.Observability
import Sturnus.Server.Process
import Sturnus.Server.Shutdown
import Sturnus.Server.Drain
import Sturnus.Foundation.Concurrent.Erasure
import Sturnus.Foundation.Concurrent.Simulation
import Sturnus.Server.Refinement
import Sturnus.Server.Scrapes
import Sturnus.Server.Drained
import Sturnus.Server.Probes
import Sturnus.Foundation.OnceCell
import Sturnus.Foundation.Concurrent.Exclusion
import Sturnus.GcpAuth
import Sturnus.Server.Metering
import Sturnus.Foundation.Overlay
import Sturnus.Config.Environment
import Sturnus.ModelMap.Twins
import Sturnus.Server.Twins
import Sturnus.Server.Replicas
import Sturnus.Foundation.Decimal
import Sturnus.Config.Cgroup
import Sturnus.Server.Container
import Sturnus.Server.Sessions
import Sturnus.Foundation.Concurrent.History
import Sturnus.ModelMap.Resolution
import Sturnus.Server.Translation
import Sturnus.Server.Isolation
