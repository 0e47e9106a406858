import NetForge.Analysis.Multivantage

/-! # Monitoring models and pure decision logic

`controller/monitoring.py`: schedules, alert rules, alerts and incidents, with
the pure functions the controller service orchestrates. Field constraints of the
source models are fields of the structures.
-/

namespace NetForge.Controller

open NetForge.Core Analysis

inductive ProbeType
  | icmp | tcp | dns | traceroute | interfaces | route | gateway
  deriving DecidableEq, Repr

inductive AlertState
  | firing | resolved
  deriving DecidableEq, Repr

inductive IncidentState
  | opened | acknowledged | resolved
  deriving DecidableEq, Repr

structure ScheduleEntry where
  scheduleId : String
  serviceId : String
  intervalSeconds : Rat
  enabled : Bool
  count : Nat
  probeType : Option ProbeType
  sourceNodeId : Option String
  topology : Option String
  createdAt : Rat
  lastRunAt : Option Rat
  nextRunAt : Option Rat
  lastError : Option String
  consecutiveFailures : Nat
  serviceId_ne : serviceId ≠ ""
  interval_pos : 0 < intervalSeconds
  count_mem : 1 ≤ count ∧ count ≤ 20

/-- Declarative condition under which a diagnosis raises an alert. No service
means every service; no localization means any unhealthy one. -/
structure AlertRule where
  ruleId : String
  name : String
  serviceId : Option String
  fireOnLocalizations : List FaultLocalization
  minConfidence : Rat
  severity : Severity
  enabled : Bool
  minConfidence_mem : 0 ≤ minConfidence ∧ minConfidence ≤ 1
  deriving DecidableEq

/-- A fired (or resolved) alert instance tied to a diagnosis. -/
structure Alert where
  alertId : String
  ruleId : String
  serviceId : Option String
  target : String
  localization : FaultLocalization
  status : DiagnosticStatus
  confidence : Rat
  severity : Severity
  diagnosisId : String
  message : String
  regression : Bool
  state : AlertState
  createdAt : Rat
  updatedAt : Rat
  resolvedAt : Option Rat
  deriving DecidableEq

structure Incident where
  incidentId : String
  serviceId : Option String
  target : String
  state : IncidentState
  severity : Severity
  summary : String
  alertIds : List String
  openedAt : Rat
  updatedAt : Rat
  resolvedAt : Option Rat
  deriving DecidableEq

def severityRank : Severity → Nat
  | .info => 0
  | .low => 1
  | .medium => 2
  | .high => 3
  | .critical => 4

def isHealthy (report : MultiVantageReport) : Bool := report.localization = .healthy

def ruleMatches (rule : AlertRule) (report : MultiVantageReport) : Bool :=
  if !rule.enabled || isHealthy report then false
  else if rule.serviceId ≠ none ∧ rule.serviceId ≠ report.serviceId then false
  else if report.confidence < rule.minConfidence then false
  else if rule.fireOnLocalizations ≠ [] ∧ report.localization ∉ rule.fireOnLocalizations then false
  else true

def matchingRules (rules : List AlertRule) (report : MultiVantageReport) : List AlertRule :=
  rules.filter (ruleMatches · report)

/-- `max(severities, key=rank)`: the first of the highest rank. -/
def maxSeverity : List Severity → Severity
  | [] => .info
  | s :: rest => rest.foldl (fun best x => if severityRank best < severityRank x then x else best) s

@[simp] theorem severityRank_maxSeverity_pair (a b : Severity) :
    severityRank (maxSeverity [a, b]) = max (severityRank a) (severityRank b) := by
  simp only [maxSeverity, List.foldl]
  split <;> omega

def isDue (schedule : ScheduleEntry) (now : Rat) : Bool :=
  if !schedule.enabled then false
  else
    match schedule.nextRunAt with
    | none => true
    | some next => next ≤ now

/-- A copy with last/next run timestamps and failure state advanced. An empty
error text counts as no error in `consecutive_failures`. -/
def advanceSchedule (schedule : ScheduleEntry) (now : Rat) (error : Option String) :
    ScheduleEntry :=
  { schedule with
    lastRunAt := some now
    nextRunAt := some (now + schedule.intervalSeconds)
    lastError := error
    consecutiveFailures :=
      if error.any (· ≠ "") then schedule.consecutiveFailures + 1 else 0 }

def buildAlert (alertId : String) (rule : AlertRule) (report : MultiVantageReport) (now : Rat)
    (regression : Bool) : Alert :=
  let message := s!"[{rule.name}] {report.verdict}"
  { alertId
    ruleId := rule.ruleId
    serviceId := report.serviceId
    target := report.target
    localization := report.localization
    status := report.status
    confidence := report.confidence
    severity := rule.severity
    diagnosisId := report.diagnosisId
    message := if regression then s!"{message} (regression vs baseline)" else message
    regression
    state := .firing
    createdAt := now
    updatedAt := now
    resolvedAt := none }

end NetForge.Controller
