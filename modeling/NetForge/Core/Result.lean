import NetForge.Python.Value

/-! # Probe results

The status and severity scales and the probe result of `core/result.py`, and the
evidence grades of `core/observation.py`.
-/

namespace NetForge.Core

inductive DiagnosticStatus
  | healthy | degraded | failed | unknown
  deriving DecidableEq, Repr

inductive Severity
  | info | low | medium | high | critical
  deriving DecidableEq, Repr

inductive EvidenceQuality
  | unknown | singleSource | parsedExternal | corroborated | verified
  deriving DecidableEq, Repr

def EvidenceQuality.confidence : EvidenceQuality → Rat
  | .unknown => 0
  | .singleSource => 45 / 100
  | .parsedExternal => 60 / 100
  | .corroborated => 80 / 100
  | .verified => 95 / 100

theorem EvidenceQuality.confidence_mem (q : EvidenceQuality) :
    0 ≤ q.confidence ∧ q.confidence ≤ 1 := by
  cases q <;> decide +kernel

/-- The diagnostic module a result comes from. The field is free text in the
source; a module that the analysis does not know is `other`. -/
inductive Module
  | interface | routing | gateway | connectivity | packetLoss | dns | latency | trafficJitter
  | resourceNetwork | tcp | traceroute | hopMetrics | pathChange | linkUtilization | linkErrors
  | linkCongestion | flowAnalysis | baselineDelta | meshSummary | meshPing
  | other (name : String)
  deriving DecidableEq, Repr

/-- Standard result returned by every diagnostic module, without the fields that
the analysis does not read. -/
structure DiagnosticResult where
  module : Module
  status : DiagnosticStatus
  summary : String
  target : Option String
  metrics : Python.Dict
  errors : List String

end NetForge.Core
