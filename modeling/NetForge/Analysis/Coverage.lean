import NetForge.Analysis.ProbeOrder
import NetForge.Analysis.Verdicts

/-! # Which probes the rules cover

What the results have to show for each default rule to fire, in their modules,
statuses and metrics, and what the correlator takes for an anomaly. A failed or
degraded result that is part of none of these leaves the report as it was.
-/

namespace NetForge.Analysis

open NetForge.Core Python Calculus AnalysisContext

/-! ## Symptoms -/

/-- What `", ".join(v)` accepts. -/
def Joinable (v : PyVal) : Prop :=
  match v with
  | .str _ | .dict _ => True
  | .list items => ∀ item ∈ items, ∃ text, item = .str text
  | _ => False

def NamesServers (dns : DiagnosticResult) : Prop :=
  let servers := dns.metrics.valueOr "dns_servers" (.list [])
  servers.truthy = true → Joinable servers

def errorText (dns : DiagnosticResult) : String :=
  lower (" ".intercalate (dns.errors ++ [dns.summary]))

def Judgeable (r : DiagnosticResult) : Prop :=
  (r.metrics.value "deviated").truthy = true →
    Returns ((r.metrics.value "sample_count").orElse (.num 0)).int fun samples =>
      samples < 5 ∨ Finishes ((r.metrics.value "ratio").orElse (.num 0)).toNumber

/-- A deviation of half of the baseline or more, on five samples. -/
def Degraded (r : DiagnosticResult) : Prop :=
  (r.metrics.value "deviated").truthy = true ∧
    Returns ((r.metrics.value "sample_count").orElse (.num 0)).int (5 ≤ ·) ∧
    Returns ((r.metrics.value "ratio").orElse (.num 0)).toNumber (3 / 2 ≤ ·)

/-- Some later hop is slower than all of the early ones, by more than 80 ms. -/
def SlowsDown (early late : List PyVal) : Prop :=
  Returns (early.mapM hopRtt) fun earlyRtts =>
    Returns (late.mapM hopRtt) fun lateRtts =>
      ∃ slow ∈ lateRtts, ∀ rtt ∈ earlyRtts, rtt + 80 < slow

/-- What makes each rule fire. -/
def Symptom (ctx : AnalysisContext) : RuleId → Prop
  | .evidenceAnomaly _ => False
  | .allInterfacesDown => ctx.Disconnected
  | .activePacketDrops =>
      let drops := (ctx.resourceValue "active_drops_per_sec").float
      let errors := (ctx.resourceValue "active_errors_per_sec").float
      Finishes drops ∧ Finishes errors ∧ (Returns drops (1 / 2 ≤ ·) ∨ Returns errors (1 / 2 ≤ ·))
  | .noDefaultGateway => ¬ ctx.Disconnected ∧ ¬ ctx.Routed
  | .gatewayUnreachable => ctx.Routed ∧ ctx.GatewayDown
  | .gatewayHealthyWanOutage =>
      ctx.Routed ∧ (ctx.GatewayUp ∨ ctx.GatewayUnjudged ∧ ¬ ctx.Disconnected) ∧ ctx.Unreached ∧
        ctx.pingLosses ≠ []
  | .totalInternetOutage =>
      ¬ ctx.Disconnected ∧ ctx.Routed ∧ ctx.GatewayUnjudged ∧ ctx.Unreached ∧ ctx.pingLosses ≠ []
  | .dnsFailIpHealthy =>
      ∃ dns, ctx.firstByModule .dns = some dns ∧ dns.status ≠ .healthy ∧ ctx.Reaches ∧
        NamesServers dns
  | .dnsTimeout =>
      ∃ dns, ctx.firstByModule .dns = some dns ∧ (dns.status = .failed ∨ dns.status = .unknown) ∧
        (containsText "timeout" (errorText dns) = true ∨
          containsText "timed out" (errorText dns) = true) ∧
        ctx.Reaches ∧ NamesServers dns
  | .slowDnsResolution =>
      ∃ dns, ctx.firstByModule .dns = some dns ∧ dns.status = .healthy ∧
        Returns (dns.metrics.value "resolution_time_ms").toNumber (180 ≤ ·) ∧
        Returns ctx.getAvgLatency (· ≤ 200) ∧ NamesServers dns
  | .severePacketLoss =>
      Returns (PyVal.mean ctx.pingLosses) (10 ≤ ·) ∧ StaysBelow PyVal.toNumber 100 ctx.pingLosses ∧
        Finishes (ctx.resourceValue "active_drops_per_sec").float
  | .highJitterLatency =>
      Peaks PyVal.toNumber 40 ctx.latencyJitters ∧
        Peaks PyVal.float 40 (ctx.metricValues .gateway "jitter_ms") ∧
        ((∃ r ∈ ctx.results, isUnderLoad r = true) ∨ Peaks PyVal.float 70 ctx.linkUtilizations) ∧
        Returns (ctx.resourceValue "cpu_percent").float (· < 85)
  | .portBlockedFirewall =>
      ctx.Reaches ∧ (∃ r ∈ ctx.byModule .tcp, r.status = .failed) ∧
        ∃ r ∈ ctx.byModule .tcp, r.status = .healthy
  | .targetSpecificFailure =>
      ctx.PublicHealthy ∧
        ∃ r ∈ ctx.byModule .connectivity,
          r.status = .failed ∧ ∃ name, r.target = some name ∧ name ≠ ""
  | .hostResourceSaturation =>
      let cpu := (ctx.resourceValue "cpu_percent").float
      let ram := (ctx.resourceValue "memory_percent").float
      Finishes cpu ∧ Finishes ram ∧ (Returns cpu (85 ≤ ·) ∨ Returns ram (90 ≤ ·)) ∧
        ∀ jitter ∈ ctx.latencyJitters, Finishes jitter.toNumber
  | .pathChange =>
      (∃ change, ctx.firstByModule .pathChange = some change ∧
        (change.metrics.value "changed").truthy = true) ∧ ctx.PathBroken
  | .highHopLoss =>
      (HasBadHop ctx.getPathHops ∨
        ctx.getPathHops = [] ∧ ∃ hopMetrics hops, ctx.firstByModule .hopMetrics = some hopMetrics ∧
          hopMetrics.metrics.lookup "hops" = some (.list hops) ∧ HasBadHop hops) ∧ ctx.PathBroken
  | .lastMileVsCore =>
      let early := ctx.getPathHops.take 2
      let late := ctx.getPathHops.drop 2
      3 ≤ ctx.getPathHops.length ∧
        (Peaks hopLoss 50 early ∧ StaysBelow hopLoss 30 late ∧
            Finishes (Rules.maxHopMetric "avg_rtt_ms" early) ∧
            Finishes (Rules.maxHopMetric "avg_rtt_ms" late) ∨
          Peaks hopLoss 50 late ∧ StaysBelow hopLoss 20 early ∧ SlowsDown early late)
  | .linkSaturation =>
      Peaks PyVal.float 75 ctx.linkUtilizations ∧
        ∀ util ∈ ctx.linkUtilizations, Finishes util.toNumber
  | .interfaceErrors =>
      let drops (r : DiagnosticResult) := (r.metrics.valueOr "drops_per_sec" (.num 0)).float
      let errors (r : DiagnosticResult) := (r.metrics.valueOr "errors_per_sec" (.num 0)).float
      let active := (ctx.resourceValue "active_drops_per_sec").float
      (∀ r ∈ ctx.byModule .linkErrors, Finishes (drops r) ∧ Finishes (errors r)) ∧
        (ctx.linkDropRates = [] → Finishes active) ∧
        (Peaks PyVal.float (1 / 2) ctx.linkDropRates ∨
          ctx.linkDropRates = [] ∧ Returns active (1 / 2 ≤ ·) ∨
          ∃ r ∈ ctx.byModule .linkErrors, Returns (errors r) (1 / 2 ≤ ·))
  | .elephantFlow =>
      ∃ flow elephants, ctx.firstByModule .flowAnalysis = some flow ∧
        flow.metrics.value "elephant_flows" = .list elephants ∧ elephants ≠ [] ∧
        ∀ elephant ∈ elephants.take 5, ∃ fields, elephant = .dict fields ∧
          Finishes (Dict.valueOr fields "share" (.num 0)).float
  | .linkCongestionWithPathLoss =>
      let severe (r : DiagnosticResult) := (congestionScore r).isAtLeast 45
      let congestion := ctx.byModule .linkCongestion
      (Peaks PyVal.float 75 ctx.linkUtilizations ∧
            (FirstHit severe congestion ∨
              ∀ r ∈ congestion, Returns (congestionScore r).toNumber (· < 45)) ∨
          StaysBelow PyVal.float 75 ctx.linkUtilizations ∧ FirstHit severe congestion) ∧
        (Peaks hopLoss 30 ctx.getPathHops ∧ Finishes ctx.getMaxPacketLoss ∨
          StaysBelow hopLoss 30 ctx.getPathHops ∧ Peaks PyVal.toNumber 5 ctx.pingLosses)
  | .suddenDegradation =>
      (∀ r ∈ ctx.byModule .baselineDelta, Judgeable r) ∧
        ∃ r ∈ ctx.byModule .baselineDelta, Degraded r
  | .meshPartition =>
      ∃ summary, ctx.firstByModule .meshSummary = some summary ∧
        Returns ((summary.metrics.value "failed_count").orElse (.num 0)).int (· ≠ 0) ∧
        Returns ((summary.metrics.value "target_count").orElse (.num 0)).int (· ≠ 0)

/-! ## Rules that fire -/

def Fires (finding : Finding) : Prop := ∃ issue, finding = .ok (some issue)

section Rule

variable {ctx : AnalysisContext} {issue : DiagnosedIssue}

@[simp] theorem fires_none : ¬ Fires (pure none) := by
  intro h
  obtain ⟨issue, h⟩ := h
  cases h

@[simp] theorem fires_ok_none : ¬ Fires (.ok none) := fires_none

@[simp] theorem fires_ok_some : Fires (.ok (some issue)) := ⟨issue, rfl⟩

theorem noDefaultGateway_fires :
    Fires (Rules.noDefaultGateway ctx) ↔ Symptom ctx .noDefaultGateway := by
  rw [Fires, noDefaultGateway_fires_iff, Symptom, ← allInterfacesDown_iff, ← hasDefaultGateway_iff]
  simp

end Rule

namespace EvidenceCorrelator

variable {results : List DiagnosticResult} {loss : Rat}

end EvidenceCorrelator

namespace Sample

end Sample

end NetForge.Analysis
