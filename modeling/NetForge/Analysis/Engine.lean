import NetForge.Analysis.Rules
import Mathlib.Data.List.Sort

/-! # Evidence correlation and rule engine

`analysis/evidence.py` and `RuleEngine.analyze` of `analysis/engine.py`: raw
issues from anomalies and rules, suppression, order, status, verdict and
observations. Report timestamps and the texts of rule errors are left out; the
verdict and the observations keep their template and its values.
-/

namespace NetForge.Analysis

open NetForge.Core Python

/-! ## Evidence correlation -/

inductive EvidenceAnomalyKind
  | intermediateHopLoss | pathChange | latencyWiggle
  deriving DecidableEq, Repr

/-- An anomaly; all of them are unconfirmed and of low severity. -/
structure EvidenceAnomaly where
  kind : EvidenceAnomalyKind
  title : String
  confidence : Rat

namespace EvidenceCorrelator

def packetLoss (ctx : AnalysisContext) : Except PyError Rat := do
  let losses ← (ctx.metricValues .packetLoss "packet_loss_percent").mapM PyVal.float
  return (AnalysisContext.maxFloat losses).getD 100

def connectivityHealthy (ctx : AnalysisContext) : Bool :=
  (ctx.byModule .connectivity).any (·.status = .healthy)

def endToEndFailed (ctx : AnalysisContext) : Bool :=
  ctx.results.any fun r =>
    (r.module = .connectivity || r.module = .packetLoss) &&
      (r.status = .failed || r.status = .degraded)

def hopLossAnomaly (ctx : AnalysisContext) : Except PyError (List EvidenceAnomaly) := do
  let loss ← packetLoss ctx
  let bad ← Rules.anyBadHop ctx.getPathHops
  if bad && connectivityHealthy ctx && decide (loss < 30) && !endToEndFailed ctx then
    return [⟨.intermediateHopLoss, "Likely ICMP suppression or transient ECMP churn", 62 / 100⟩]
  else return []

def pathChangeAnomaly (ctx : AnalysisContext) : List EvidenceAnomaly :=
  if (ctx.byModule .pathChange).any (fun r => (r.metrics.value "changed").truthy) &&
      !endToEndFailed ctx then
    [⟨.pathChange, "Path change without confirmed service failure", 58 / 100⟩]
  else []

def latencyAnomaly (ctx : AnalysisContext) : Except PyError (List EvidenceAnomaly) := do
  let loss ← packetLoss ctx
  match ctx.results.find? fun r => r.module = .latency ∨ r.module = .trafficJitter with
  | none => return []
  | some latency =>
      let value := latency.metrics.value "jitter_ms"
      if value.isNone then return []
      else
        let jitter ← value.float
        if 20 ≤ jitter ∧ loss < 30 ∧ !endToEndFailed ctx then
          return [⟨.latencyWiggle, "Statistically weak latency wiggle", 55 / 100⟩]
        else return []

def correlate (ctx : AnalysisContext) : Except PyError (List EvidenceAnomaly) := do
  let hopLoss ← hopLossAnomaly ctx
  let latency ← latencyAnomaly ctx
  return hopLoss ++ pathChangeAnomaly ctx ++ latency

end EvidenceCorrelator

/-! ## Issues of a run -/

def anomalyIssue (index : Nat) (anomaly : EvidenceAnomaly) : DiagnosedIssue where
  ruleId := .evidenceAnomaly index
  title := .text anomaly.title
  severity := .low
  confidence := anomaly.confidence
  confidenceLevel := .fromScore anomaly.confidence
  suppressedRules := []

def anomalyIssues (anomalies : List EvidenceAnomaly) : List DiagnosedIssue :=
  anomalies.mapIdx fun i anomaly => anomalyIssue (i + 1) anomaly

/-- The issue of one rule; an exception counts as none. -/
def DiagnosticRule.issue? (ctx : AnalysisContext) (rule : DiagnosticRule) :
    Option DiagnosedIssue :=
  match rule.evaluate ctx with
  | .ok finding => finding
  | .error _ => none

def DiagnosticRule.fails (ctx : AnalysisContext) (rule : DiagnosticRule) : Bool :=
  match rule.evaluate ctx with
  | .ok _ => false
  | .error _ => true

def unsuppressed (rawIssues : List DiagnosedIssue) : List DiagnosedIssue :=
  let suppressedIds := rawIssues.flatMap (·.suppressedRules)
  rawIssues.filter fun issue => issue.ruleId ∉ suppressedIds

def severityOrder : Severity → Nat
  | .critical => 0
  | .high => 1
  | .medium => 2
  | .low => 3
  | .info => 4

/-- The sort key order of the issues: severity, then falling confidence. -/
def DiagnosedIssue.Precedes (a b : DiagnosedIssue) : Prop :=
  severityOrder a.severity < severityOrder b.severity ∨
    (severityOrder a.severity = severityOrder b.severity ∧ b.confidence ≤ a.confidence)

instance : DecidableRel DiagnosedIssue.Precedes := fun _ _ =>
  inferInstanceAs (Decidable (_ ∨ (_ ∧ _)))

def activeIssues (rawIssues : List DiagnosedIssue) : List DiagnosedIssue :=
  (unsuppressed rawIssues).insertionSort DiagnosedIssue.Precedes

/-! ## Status and verdict -/

def countStatus (results : List DiagnosticResult) (status : DiagnosticStatus) : Nat :=
  results.countP (·.status = status)

def isSubstantive (r : DiagnosticResult) : Bool :=
  r.status = .degraded && r.module ≠ .pathChange && r.module ≠ .traceroute

def DiagnosedIssue.isConfirmedFailure (issue : DiagnosedIssue) : Bool :=
  (issue.severity = .critical || issue.severity = .high) && decide (75 / 100 ≤ issue.confidence)

def DiagnosedIssue.isMinor (issue : DiagnosedIssue) : Bool :=
  issue.severity = .low || issue.severity = .info

def reportStatus (results : List DiagnosticResult) (issues : List DiagnosedIssue) :
    DiagnosticStatus :=
  if issues.any (·.isConfirmedFailure) then .failed
  else if results.any isSubstantive || issues.any (fun issue => !issue.isMinor) then .degraded
  else .healthy

inductive Verdict
  | allPassed
  | noConfirmedFault
  | rootCause (title : Title) (percent : Int)
  | multiple (primary : Title) (percent : Int) (secondary : List Title)

def synthesizeVerdict (issues : List DiagnosedIssue) : Verdict :=
  match issues with
  | [] => .allPassed
  | primary :: rest =>
      let percent := truncate (primary.confidence * 100)
      if issues.all (·.isMinor) then .noConfirmedFault
      else if rest.isEmpty then .rootCause primary.title percent
      else .multiple primary.title percent ((rest.take 2).map (·.title))

inductive KeyObservation
  | interfaceUp
  | gatewayActive (gateway : PyVal)
  | dnsSucceeded (targetHost : String)
  | ipConnectivity

def keyObservations (ctx : AnalysisContext) (targetHost : String) :
    Except PyError (List KeyObservation) := do
  let ipWorking ← ctx.isIpConnectivityWorking
  return (if ctx.hasActiveInterface then [.interfaceUp] else []) ++
    (if ctx.hasDefaultGateway then [.gatewayActive ctx.defaultGateway] else []) ++
    (if ctx.isDnsResolutionWorking then [.dnsSucceeded targetHost] else []) ++
    (if ipWorking then [.ipConnectivity] else [])

/-! ## Analysis -/

structure DiagnosisReport where
  targetHost : String
  totalProbes : Nat
  healthyProbes : Nat
  degradedProbes : Nat
  failedProbes : Nat
  status : DiagnosticStatus
  verdict : Verdict
  issues : List DiagnosedIssue
  keyObservations : List KeyObservation
  /-- The rules that ended with an exception. -/
  ruleErrors : List RuleId

def analyze (rules : List DiagnosticRule) (results : List DiagnosticResult) (targetHost : String) :
    Except PyError DiagnosisReport := do
  let ctx : AnalysisContext := ⟨results⟩
  let anomalies ← EvidenceCorrelator.correlate ctx
  let issues := activeIssues (anomalyIssues anomalies ++ rules.filterMap (·.issue? ctx))
  let observations ← keyObservations ctx targetHost
  return {
    targetHost
    totalProbes := results.length
    healthyProbes := countStatus results .healthy
    degradedProbes := countStatus results .degraded
    failedProbes := countStatus results .failed
    status := reportStatus results issues
    verdict := synthesizeVerdict issues
    issues
    keyObservations := observations
    ruleErrors := (rules.filter (·.fails ctx)).map (·.ruleId) }

/-! ## Reading a report -/

theorem analyze_ok {rules : List DiagnosticRule} {results : List DiagnosticResult}
    {targetHost : String} {report : DiagnosisReport}
    (h : analyze rules results targetHost = .ok report) :
    ∃ anomalies, EvidenceCorrelator.correlate ⟨results⟩ = .ok anomalies ∧
      report.issues =
        activeIssues (anomalyIssues anomalies ++ rules.filterMap (·.issue? ⟨results⟩)) ∧
      report.status = reportStatus results report.issues := by
  obtain ⟨anomalies, ha, h⟩ := ok_of_bind.mp h
  obtain ⟨observations, _, h⟩ := ok_of_bind.mp h
  cases h
  exact ⟨anomalies, ha, rfl, rfl⟩

theorem analyze_returns (rules : List DiagnosticRule) (targetHost : String)
    {results : List DiagnosticResult} {anomalies : List EvidenceAnomaly} {ipWorking : Bool}
    (ha : EvidenceCorrelator.correlate ⟨results⟩ = .ok anomalies)
    (hip : AnalysisContext.isIpConnectivityWorking ⟨results⟩ = .ok ipWorking) :
    ∃ report, analyze rules results targetHost = .ok report := by
  simp only [analyze, keyObservations, ha, hip, ok_bind]
  exact ⟨_, rfl⟩

theorem DiagnosticRule.issue?_eq_some {ctx : AnalysisContext} {rule : DiagnosticRule}
    {issue : DiagnosedIssue} :
    rule.issue? ctx = some issue ↔ rule.evaluate ctx = .ok (some issue) := by
  unfold DiagnosticRule.issue?
  cases rule.evaluate ctx with
  | ok finding => simp
  | error e => simp

theorem rule_eq_of_ruleId {rule rule' : DiagnosticRule} (h : rule ∈ DEFAULT_RULES)
    (h' : rule' ∈ DEFAULT_RULES) (hid : rule.ruleId = rule'.ruleId) : rule = rule' := by
  have hnodup : (DEFAULT_RULES.map (·.ruleId)).Nodup := by decide
  exact List.inj_on_of_nodup_map hnodup h h' hid

theorem mem_activeIssues {rawIssues : List DiagnosedIssue} {issue : DiagnosedIssue} :
    issue ∈ activeIssues rawIssues ↔
      issue ∈ rawIssues ∧ ∀ other ∈ rawIssues, issue.ruleId ∉ other.suppressedRules := by
  simp [activeIssues, unsuppressed]

theorem mem_anomalyIssues {anomalies : List EvidenceAnomaly} {issue : DiagnosedIssue}
    (h : issue ∈ anomalyIssues anomalies) : issue.isMinor = true ∧ issue.suppressedRules = [] := by
  obtain ⟨i, hi, rfl⟩ := List.mem_mapIdx.mp h
  exact ⟨rfl, rfl⟩

theorem DiagnosedIssue.not_confirmed_of_minor {issue : DiagnosedIssue}
    (h : issue.isMinor = true) : issue.isConfirmedFailure = false := by
  unfold DiagnosedIssue.isMinor at h
  unfold DiagnosedIssue.isConfirmedFailure
  cases hs : issue.severity <;> simp_all

/-- Of the issues, the status depends on whether one is a confirmed failure and
whether one is not minor. -/
theorem reportStatus_congr {results : List DiagnosticResult} {issues issues' : List DiagnosedIssue}
    (hconfirmed : (∃ i ∈ issues, i.isConfirmedFailure = true) ↔
      ∃ i ∈ issues', i.isConfirmedFailure = true)
    (hmajor : (∃ i ∈ issues, i.isMinor = false) ↔ ∃ i ∈ issues', i.isMinor = false) :
    reportStatus results issues = reportStatus results issues' := by
  have hc : issues.any (·.isConfirmedFailure) = issues'.any (·.isConfirmedFailure) := by
    rw [Bool.eq_iff_iff, List.any_eq_true, List.any_eq_true]
    exact hconfirmed
  have hm : issues.any (fun i => !i.isMinor) = issues'.any (fun i => !i.isMinor) := by
    rw [Bool.eq_iff_iff, List.any_eq_true, List.any_eq_true]
    simpa using hmajor
  unfold reportStatus
  rw [hc, hm]

theorem reportStatus_eq_failed {results : List DiagnosticResult} {issues : List DiagnosedIssue}
    {issue : DiagnosedIssue} (hi : issue ∈ issues) (hc : issue.isConfirmedFailure = true) :
    reportStatus results issues = .failed := by
  have hany : issues.any (·.isConfirmedFailure) = true := List.any_eq_true.mpr ⟨issue, hi, hc⟩
  rw [reportStatus, hany]
  rfl

end NetForge.Analysis
