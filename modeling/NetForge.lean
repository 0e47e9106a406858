import NetForge.Controller.ScheduleRaces
import NetForge.Controller.DiagnosisRaces
import NetForge.Controller.IncidentRaces
import NetForge.Controller.Resolution
import NetForge.Controller.Independence
import NetForge.Controller.Selection
import NetForge.Controller.Passes
import NetForge.Controller.Dispatch
import NetForge.Controller.Bindings
import NetForge.Controller.TelemetryOrder
import NetForge.Controller.Augmentation
import NetForge.Diagnostics.PathChange
import NetForge.Ingest.ReplyChecks
import NetForge.Ingest.Walk
import NetForge.Ingest.EngineClock
import NetForge.Analysis.PartialLists
import NetForge.Analysis.Verdicts
import NetForge.Analysis.Exoneration
import NetForge.Analysis.Confidence
import NetForge.Controller.Reaugmentation
import NetForge.Storage.Sensitivity
import NetForge.Python.Lines
import NetForge.Python.Float
import NetForge.Diagnostics.Routing
import NetForge.Diagnostics.Interfaces
import NetForge.Diagnostics.Ping
import NetForge.Diagnostics.TraceOutput
import NetForge.Ingest.Counters
import NetForge.Ingest.Polling
import NetForge.Ingest.CounterDelta
import NetForge.Ingest.Feedback
import NetForge.Ingest.IntegerForm
import NetForge.Ingest.OidCodec
import NetForge.Ingest.Lldp
import NetForge.Ingest.ReplyFilter
import NetForge.Diagnostics.Flows
import NetForge.Controller.Regression
import NetForge.Ingest.CipherRefinement
import NetForge.Analysis.ProbeOrder
import NetForge.Ingest.Tiling
import NetForge.Ingest.KeyDerivation
import NetForge.Calculus.Extension
import NetForge.Python.Url
import NetForge.Controller.Api
import NetForge.Calculus.Commitment
import NetForge.Controller.Atomicity
import NetForge.Calculus.Growth
import NetForge.Calculus.Keys
import NetForge.Controller.References
import NetForge.Controller.Replies
import NetForge.Controller.Client
import NetForge.Calculus.Latch
import NetForge.Controller.Outages
import NetForge.Calculus.Cadence
import NetForge.Controller.Cadence
import NetForge.Agent.Request
import NetForge.Calculus.Budget
import NetForge.Agent.Service
import NetForge.Agent.Gate
import NetForge.Agent.Answers
import NetForge.Controller.Fleet
import NetForge.Controller.PassCalls
import NetForge.Python.Digits
import NetForge.Calculus.Returning
import NetForge.Analysis.Readings
import NetForge.Analysis.Coverage
import NetForge.Calculus.Ties
import NetForge.Python.Arithmetic
import NetForge.Analysis.InputOrder
import NetForge.Analysis.Arithmetics
import NetForge.Analysis.Branches
import NetForge.Analysis.DecisionTies
