import NetForge.Analysis.PathSignals
import NetForge.Analysis.Readings
import NetForge.Analysis.Suppression

/-! # Reports on partial lists

Lists that hold nothing but healthy results of the path and link collectors, as
`diagnose path` and `diagnose link` produce them. Every query on an unprobed
layer has an answer then, and every rule but one takes it for "unknown": the
gateway rule takes a missing routing result for a missing route.
-/

namespace NetForge.Analysis

open NetForge.Core Python AnalysisContext

/-! ## What the collectors put on healthy results -/

/-- The metrics of a healthy result of each path and link collector. Other
modules have none. -/
def HealthyMetrics (metrics : Dict) : Module → Prop
  | .traceroute =>
      ∃ hops : List HopRecord, hops ≠ [] ∧ (∀ h ∈ hops, h.loss < 50) ∧
        metrics.lookup "hops" = some (.list (hops.map HopRecord.val))
  | .hopMetrics =>
      ∃ hops : List HopRecord, (∀ h ∈ hops, h.loss < 30) ∧
        metrics.lookup "hops" = some (.list (hops.map HopRecord.val))
  | .pathChange => metrics.lookup "changed" = some (.bool false)
  | .linkUtilization =>
      metrics.lookup "util_percent" = some .none ∨
        ∃ util : Rat, util < 75 ∧ metrics.lookup "util_percent" = some (.num util)
  | .linkErrors =>
      ∃ drops errors : Rat, drops < 1 / 2 ∧ errors < 1 / 2 ∧
        metrics.lookup "drops_per_sec" = some (.num (roundTo 3 drops)) ∧
        metrics.lookup "errors_per_sec" = some (.num (roundTo 3 errors))
  | .linkCongestion =>
      ∃ score : Rat, score < 20 ∧ metrics.lookup "congestion_score" = some (.num score)
  | .baselineDelta => metrics.lookup "deviated" = some (.bool false)
  | _ => False

def PartialProbe (r : DiagnosticResult) : Prop :=
  r.status = .healthy ∧ HealthyMetrics r.metrics r.module

/-- The report is healthy and has no critical or high issue. -/
def BlamesNothing (report : DiagnosisReport) : Prop :=
  report.status = .healthy ∧
    ∀ issue ∈ report.issues, issue.severity ≠ .critical ∧ issue.severity ≠ .high

theorem value_of_lookup {metrics : Dict} {key : String} {v : PyVal}
    (h : metrics.lookup key = some v) : metrics.value key = v := by
  simp [Dict.value, h]

/-- The largest of some values below a positive bound, or zero, is below it. -/
theorem maxFloat_getD_lt {qs : List Rat} {bound : Rat} (hpos : 0 < bound)
    (h : ∀ q ∈ qs, q < bound) : (maxFloat qs).getD 0 < bound := by
  cases hm : maxFloat qs with
  | none => exact hpos
  | some m => exact h m (maxFloat_mem hm)

theorem worst_loss_lt {hops : List HopRecord} (h : ∀ hop ∈ hops, hop.loss < 50) :
    HopRecord.worst HopRecord.loss hops < 50 := by
  refine maxFloat_getD_lt (by norm_num) fun q hq => ?_
  obtain ⟨hop, hmem, rfl⟩ := List.mem_map.mp hq
  exact h hop hmem

/-- Hops that lose less than half of their probes make no path rule fire. -/
theorem lastMileIssue_of_low_loss {hops : List HopRecord} (h : ∀ hop ∈ hops, hop.loss < 50) :
    lastMileIssue hops = none := by
  refine (lastMileIssue_eq_none_iff hops).mpr ⟨fun hlast => ?_, fun hcore => ?_⟩
  · have hearly : HopRecord.worst HopRecord.loss (hops.take 2) < 50 :=
      worst_loss_lt fun hop hmem => h hop (List.mem_of_mem_take hmem)
    exact absurd hlast.2.1 (not_le.mpr hearly)
  · have hlate : HopRecord.worst HopRecord.loss (hops.drop 2) < 50 :=
      worst_loss_lt fun hop hmem => h hop (List.mem_of_mem_drop hmem)
    exact absurd hcore.2.1 (not_le.mpr hlate)

theorem any_isBad_of_low_loss {hops : List HopRecord} (h : ∀ hop ∈ hops, hop.loss < 50) :
    hops.any HopRecord.isBad = false := by
  refine List.any_eq_false.mpr fun hop hmem => ?_
  simp [HopRecord.isBad, not_le.mpr (h hop hmem)]

namespace PartialProbe

section

variable {results : List DiagnosticResult} (h : ∀ r ∈ results, PartialProbe r)

include h

/-! ## What the queries give -/

/-- A module without a path or link collector has no result. -/
theorem byModule_absent {m : Module} (hm : ∀ metrics, ¬ HealthyMetrics metrics m) :
    byModule ⟨results⟩ m = [] := by
  refine List.filter_eq_nil_iff.mpr fun r hr hmodule => ?_
  have hhealthy := (h r hr).2
  rw [of_decide_eq_true hmodule] at hhealthy
  exact hm _ hhealthy

theorem healthy_of_byModule {m : Module} {r : DiagnosticResult}
    (hr : r ∈ byModule ⟨results⟩ m) : HealthyMetrics r.metrics m := by
  obtain ⟨hmem, hmodule⟩ := List.mem_filter.mp hr
  exact of_decide_eq_true hmodule ▸ (h r hmem).2

theorem firstByModule_absent {m : Module} (hm : ∀ metrics, ¬ HealthyMetrics metrics m) :
    firstByModule ⟨results⟩ m = none := by
  rw [firstByModule, byModule_absent h hm]
  rfl

theorem healthy_of_firstByModule {m : Module} {r : DiagnosticResult}
    (hr : firstByModule ⟨results⟩ m = some r) : HealthyMetrics r.metrics m :=
  healthy_of_byModule h (List.mem_of_head? hr)

theorem metricValues_absent {m : Module} (hm : ∀ metrics, ¬ HealthyMetrics metrics m)
    (key : String) : metricValues ⟨results⟩ m key = [] := by
  rw [metricValues, byModule_absent h hm]
  rfl

theorem allInterfacesDown_eq : allInterfacesDown ⟨results⟩ = false := by
  simp [allInterfacesDown, byModule_absent h (m := .interface) fun _ => id]

theorem hasDefaultGateway_eq : hasDefaultGateway ⟨results⟩ = false := by
  simp [hasDefaultGateway, defaultGateway, PyVal.truthy,
    firstByModule_absent h (m := .routing) fun _ => id]

theorem isIpConnectivityWorking_eq : isIpConnectivityWorking ⟨results⟩ = .ok false := by
  simp [isIpConnectivityWorking, anyPingAnswered,
    byModule_absent h (m := .connectivity) fun _ => id,
    metricValues_absent h (m := .packetLoss) fun _ => id]

theorem resourceMetric_eq (key : String) : resourceMetric ⟨results⟩ key = .ok 0 := by
  simp [resourceMetric, firstByModule_absent h (m := .resourceNetwork) fun _ => id]

theorem getMaxPacketLoss_eq : getMaxPacketLoss ⟨results⟩ = .ok (.num 0) := by
  rw [getMaxPacketLoss, metricValues_absent h (m := .packetLoss) fun _ => id]
  rfl

theorem getAvgPacketLoss_eq : getAvgPacketLoss ⟨results⟩ = .ok 0 := by
  rw [getAvgPacketLoss, metricValues_absent h (m := .packetLoss) fun _ => id]
  rfl

theorem getMaxJitter_eq : getMaxJitter ⟨results⟩ = .ok (.num 0) := by
  rw [getMaxJitter, metricValues_absent h (m := .latency) fun _ => id]
  rfl

theorem pathChanged_eq : pathChanged ⟨results⟩ = false := by
  cases hc : firstByModule ⟨results⟩ .pathChange with
  | none => simp [pathChanged, hc]
  | some change =>
      have hchanged : change.metrics.lookup "changed" = some (.bool false) :=
        healthy_of_firstByModule h hc
      simp [pathChanged, hc, value_of_lookup hchanged, PyVal.truthy]

/-- Without a trace there are no hops; with one, they all lose little. -/
theorem getPathHops_eq :
    ∃ hops : List HopRecord, (∀ hop ∈ hops, hop.loss < 50) ∧
      getPathHops ⟨results⟩ = hops.map HopRecord.val := by
  cases ht : firstByModule ⟨results⟩ .traceroute with
  | none => exact ⟨[], by simp, by simp [getPathHops, ht]⟩
  | some trace =>
      obtain ⟨hops, _, hlow, hhops⟩ := healthy_of_firstByModule h ht
      exact ⟨hops, hlow, by simp [getPathHops, ht, value_of_lookup hhops]⟩

theorem tracedHops_eq :
    ∃ hops : List HopRecord, (∀ hop ∈ hops, hop.loss < 50) ∧
      Rules.tracedHops ⟨results⟩ = .ok (hops.map HopRecord.val) := by
  obtain ⟨hops, hlow, hhops⟩ := getPathHops_eq h
  unfold Rules.tracedHops
  rw [hhops]
  cases hops with
  | cons hop hops => exact ⟨hop :: hops, hlow, rfl⟩
  | nil =>
      cases hm : firstByModule ⟨results⟩ .hopMetrics with
      | none => exact ⟨[], by simp, rfl⟩
      | some metrics =>
          obtain ⟨hops, hlow, hhops⟩ := healthy_of_firstByModule h hm
          have hlow : ∀ hop ∈ hops, hop.loss < 50 := fun hop hmem =>
            (hlow hop hmem).trans (by norm_num)
          exact ⟨hops, hlow, by simp [Dict.valueOr, hhops, PyVal.iterate]⟩

theorem getMaxLinkUtilization_lt :
    ∃ util, getMaxLinkUtilization ⟨results⟩ = .ok util ∧ util < 75 := by
  have hvalue : ∀ v ∈ metricValues ⟨results⟩ .linkUtilization "util_percent",
      ∃ util, v.float = .ok util ∧ util < 75 := by
    intro v hv
    obtain ⟨hv, hsome⟩ := List.mem_filter.mp hv
    obtain ⟨r, hr, rfl⟩ := List.mem_map.mp hv
    rcases healthy_of_byModule h hr with hnone | ⟨util, hlt, hutil⟩
    · simp [value_of_lookup hnone, PyVal.isNone] at hsome
    · exact ⟨util, by rw [value_of_lookup hutil]; rfl, hlt⟩
  obtain ⟨utils, hutils, hlt⟩ := mapM_ok_forall hvalue
  refine ⟨(maxFloat utils).getD 0, ?_, maxFloat_getD_lt (by norm_num) hlt⟩
  simp [getMaxLinkUtilization, hutils, ok_bind, pure, Except.pure]

theorem anySevere_eq : Rules.anySevere (byModule ⟨results⟩ .linkCongestion) = .ok false := by
  have hscore : ∀ r ∈ byModule ⟨results⟩ .linkCongestion,
      ((r.metrics.value "congestion_score").orElse (.num 0)).isAtLeast 45 = .ok false := by
    intro r hr
    obtain ⟨score, hlt, hscore⟩ := healthy_of_byModule h hr
    rw [value_of_lookup hscore, PyVal.isAtLeast_of_number (PyVal.num_orElse_zero score)]
    simpa using hlt.trans (by norm_num)
  generalize byModule ⟨results⟩ .linkCongestion = congestion at hscore
  induction congestion with
  | nil => rfl
  | cons r rest ih =>
      rw [Rules.anySevere, hscore r List.mem_cons_self, ok_bind]
      exact ih fun r hr => hscore r (List.mem_cons_of_mem _ hr)

theorem degradedRatios_eq :
    (byModule ⟨results⟩ .baselineDelta).mapM Rules.degradedRatio =
      .ok ((byModule ⟨results⟩ .baselineDelta).map fun _ => none) := by
  refine mapM_ok fun r hr => ?_
  have hdeviated : r.metrics.lookup "deviated" = some (.bool false) := healthy_of_byModule h hr
  simp [Rules.degradedRatio, value_of_lookup hdeviated, PyVal.truthy]

/-! ## What the rules give -/

theorem noDefaultGateway_fires :
    ∃ issue, Rules.noDefaultGateway ⟨results⟩ = .ok (some issue) ∧
      issue.IsOf .noDefaultGateway ∧ issue.severity = .critical ∧
      issue.isConfirmedFailure = true := by
  refine ⟨buildIssue .noDefaultGateway (.text "Missing Default Gateway Route") .critical
    (96 / 100) [.totalInternetOutage, .dnsFailIpHealthy], ?_, ⟨rfl, rfl⟩, rfl, by decide +kernel⟩
  simp [Rules.noDefaultGateway, allInterfacesDown_eq h, hasDefaultGateway_eq h]

theorem highHopLoss_silent : Rules.highHopLoss ⟨results⟩ = .ok none := by
  obtain ⟨hops, hlow, hhops⟩ := tracedHops_eq h
  unfold Rules.highHopLoss
  rw [hhops, ok_bind, anyBadHop_val, any_isBad_of_low_loss hlow]
  rfl

theorem lastMileVsCore_silent : Rules.lastMileVsCore ⟨results⟩ = .ok none := by
  obtain ⟨hops, hlow, hhops⟩ := getPathHops_eq h
  rw [lastMileVsCore_val hhops, lastMileIssue_of_low_loss hlow]

theorem linkSaturation_silent : Rules.linkSaturation ⟨results⟩ = .ok none := by
  obtain ⟨util, hutil, hlt⟩ := getMaxLinkUtilization_lt h
  simp [Rules.linkSaturation, hutil, ok_bind, hlt]
  rfl

theorem linkCongestionWithPathLoss_silent :
    Rules.linkCongestionWithPathLoss ⟨results⟩ = .ok none := by
  obtain ⟨util, hutil, hlt⟩ := getMaxLinkUtilization_lt h
  simp [Rules.linkCongestionWithPathLoss, hutil, anySevere_eq h, ok_bind, hlt]
  rfl

theorem suddenDegradation_silent : Rules.suddenDegradation ⟨results⟩ = .ok none := by
  have hnone : ((byModule ⟨results⟩ .baselineDelta).map fun _ => (none : Option Rat)).filterMap
      id = [] := by
    simp
  rw [Rules.suddenDegradation, degradedRatios_eq h, ok_bind, hnone]
  rfl

/-- All rules but these two take a missing probe for an unknown layer. A drop rate
below one half may be rounded up to it, so the interface rule may speak. -/
theorem evaluate_silent {rule : DiagnosticRule} (hmem : rule ∈ DEFAULT_RULES)
    (hgw : rule.ruleId ≠ .noDefaultGateway) (herr : rule.ruleId ≠ .interfaceErrors) :
    rule.evaluate ⟨results⟩ = .ok none := by
  revert hgw herr
  apply default_rule_cases hmem
  all_goals intro hgw herr
  case allInterfacesDown => simp [Rules.allInterfacesDown, allInterfacesDown_eq h]
  case activePacketDrops =>
    simp [Rules.activePacketDrops, getActiveDropRate, getActiveErrorRate, resourceMetric_eq h,
      ok_bind]
    rfl
  case noDefaultGateway => exact absurd rfl hgw
  case gatewayUnreachable => simp [Rules.gatewayUnreachable, hasDefaultGateway_eq h]
  case gatewayHealthyWanOutage => simp [Rules.gatewayHealthyWanOutage, hasDefaultGateway_eq h]
  case totalInternetOutage => simp [Rules.totalInternetOutage, hasDefaultGateway_eq h]
  case dnsFailureWithHealthyIp =>
    simp [Rules.dnsFailureWithHealthyIp, firstByModule_absent h (m := .dns) fun _ => id]
  case dnsTimeout => simp [Rules.dnsTimeout, firstByModule_absent h (m := .dns) fun _ => id]
  case slowDnsResolution =>
    simp [Rules.slowDnsResolution, firstByModule_absent h (m := .dns) fun _ => id]
  case severePacketLoss =>
    simp [Rules.severePacketLoss, getMaxPacketLoss_eq h, getAvgPacketLoss_eq h, ok_bind]
  case highJitterLatency =>
    simp only [Rules.highJitterLatency, getMaxJitter_eq h, ok_bind]
    rfl
  case portBlockedByFirewall =>
    simp [Rules.portBlockedByFirewall, isIpConnectivityWorking_eq h, ok_bind]
    rfl
  case targetSpecificFailure =>
    simp [Rules.targetSpecificFailure, byModule_absent h (m := .connectivity) fun _ => id]
  case hostSaturationBufferbloat =>
    simp [Rules.hostSaturationBufferbloat, getCpuPercent, getMemoryPercent, resourceMetric_eq h,
      ok_bind]
    rfl
  case pathChange => simp [Rules.pathChange, pathChanged_eq h]
  case highHopLoss => exact highHopLoss_silent h
  case lastMileVsCore => exact lastMileVsCore_silent h
  case linkSaturation => exact linkSaturation_silent h
  case interfaceErrors => exact absurd rfl herr
  case elephantFlow =>
    simp [Rules.elephantFlow, firstByModule_absent h (m := .flowAnalysis) fun _ => id]
  case linkCongestionWithPathLoss => exact linkCongestionWithPathLoss_silent h
  case suddenDegradation => exact suddenDegradation_silent h
  case meshPartition =>
    simp [Rules.meshPartition, firstByModule_absent h (m := .meshSummary) fun _ => id]

/-- What a rule reports is an issue of one of the two. -/
theorem isOf_of_issue? {rule : DiagnosticRule} {issue : DiagnosedIssue}
    (hmem : rule ∈ DEFAULT_RULES) (hissue : rule.issue? ⟨results⟩ = some issue) :
    issue.IsOf .noDefaultGateway ∨ issue.IsOf .interfaceErrors := by
  have heval := DiagnosticRule.issue?_eq_some.mp hissue
  have hof := (emits_of_mem ⟨results⟩ hmem issue heval).isOf
  by_cases hgw : rule.ruleId = .noDefaultGateway
  · exact .inl (hgw ▸ hof)
  by_cases herr : rule.ruleId = .interfaceErrors
  · exact .inr (herr ▸ hof)
  rw [evaluate_silent h hmem hgw herr] at heval
  cases heval

/-- No anomaly: no hop is bad, no path has changed, no latency was probed. -/
theorem correlate_eq : EvidenceCorrelator.correlate ⟨results⟩ = .ok [] := by
  have hloss : EvidenceCorrelator.packetLoss ⟨results⟩ = .ok 100 := by
    rw [EvidenceCorrelator.packetLoss, metricValues_absent h (m := .packetLoss) fun _ => id]
    rfl
  have hhops : EvidenceCorrelator.hopLossAnomaly ⟨results⟩ = .ok [] := by
    obtain ⟨hops, hlow, hhops⟩ := getPathHops_eq h
    rw [EvidenceCorrelator.hopLossAnomaly, hloss, hhops, anyBadHop_val,
      any_isBad_of_low_loss hlow]
    rfl
  have hchange : EvidenceCorrelator.pathChangeAnomaly ⟨results⟩ = [] := by
    have hnone : (byModule ⟨results⟩ .pathChange).any
        (fun r => (r.metrics.value "changed").truthy) = false := by
      refine List.any_eq_false.mpr fun r hr => ?_
      have hchanged : r.metrics.lookup "changed" = some (.bool false) := healthy_of_byModule h hr
      simp [value_of_lookup hchanged, PyVal.truthy]
    simp [EvidenceCorrelator.pathChangeAnomaly, hnone]
  have hlatency : EvidenceCorrelator.latencyAnomaly ⟨results⟩ = .ok [] := by
    have hnone : results.find? (fun r => r.module = .latency ∨ r.module = .trafficJitter) =
        none := by
      refine List.find?_eq_none.mpr fun r hr hmodule => ?_
      have hhealthy := (h r hr).2
      rcases of_decide_eq_true hmodule with hm | hm <;> exact (hm ▸ hhealthy : HealthyMetrics _ _)
    rw [EvidenceCorrelator.latencyAnomaly, hloss, ok_bind, hnone]
    rfl
  rw [EvidenceCorrelator.correlate, hhops, hchange, hlatency]
  rfl

/-! ## The report -/

theorem mem_issues_iff {targetHost : String} {report : DiagnosisReport}
    (hreport : analyze DEFAULT_RULES results targetHost = .ok report) (issue : DiagnosedIssue) :
    issue ∈ report.issues ↔ ∃ rule ∈ DEFAULT_RULES, rule.issue? ⟨results⟩ = some issue := by
  obtain ⟨anomalies, hanomalies, hissues, _⟩ := analyze_ok hreport
  rw [correlate_eq h] at hanomalies
  cases hanomalies
  rw [hissues, mem_activeIssues]
  simp only [anomalyIssues, List.mapIdx_nil, List.nil_append, List.mem_filterMap]
  refine and_iff_left_of_imp ?_
  -- neither rule suppresses the other or itself
  rintro ⟨rule, hrule, hissue⟩ other ⟨rule', hrule', hother⟩
  rcases isOf_of_issue? h hrule hissue with hi | hi <;>
    rcases isOf_of_issue? h hrule' hother with ho | ho <;>
      simp [hi.1, ho.2, RuleId.suppresses]

/-- Every such list is reported as a failure for want of a default gateway, and
for nothing else but link errors. -/
theorem analyze_blames_gateway (targetHost : String) :
    ∃ report, analyze DEFAULT_RULES results targetHost = .ok report ∧ report.status = .failed ∧
      (∃ issue ∈ report.issues, issue.IsOf .noDefaultGateway ∧ issue.severity = .critical) ∧
      ∀ issue ∈ report.issues, issue.IsOf .noDefaultGateway ∨ issue.IsOf .interfaceErrors := by
  obtain ⟨report, hreport⟩ :=
    analyze_returns DEFAULT_RULES targetHost (correlate_eq h) (isIpConnectivityWorking_eq h)
  have hmem := mem_issues_iff h hreport
  obtain ⟨gateway, hfires, hof, hcritical, hconfirmed⟩ := noDefaultGateway_fires h
  have hgateway : gateway ∈ report.issues :=
    (hmem gateway).mpr ⟨⟨.noDefaultGateway, Rules.noDefaultGateway⟩, by simp [DEFAULT_RULES],
      by simp [DiagnosticRule.issue?, hfires]⟩
  refine ⟨report, hreport, ?_, ⟨gateway, hgateway, hof, hcritical⟩, fun issue hi => ?_⟩
  · obtain ⟨_, _, _, hstatus⟩ := analyze_ok hreport
    rw [hstatus]
    exact reportStatus_eq_failed hgateway hconfirmed
  · obtain ⟨rule, hrule, hissue⟩ := (hmem issue).mp hi
    exact isOf_of_issue? h hrule hissue

end

end PartialProbe

/-! ## A healthy link -/

def Sample.idleLink : List DiagnosticResult :=
  [probe .linkUtilization (some "eth0")
      [("rx_bps", .num 20000000), ("tx_bps", .num 10000000), ("total_bps", .num 30000000),
        ("util_percent", .num 3), ("speed_mbps", .num 1000)],
    probe .linkErrors (some "eth0")
      [("drops_per_sec", .num (roundTo 3 0)), ("errors_per_sec", .num (roundTo 3 0))],
    probe .linkCongestion (some "eth0")
      [("congestion_score", .num 0), ("congestion_state", .str "clear"), ("util_percent", .num 3),
        ("drops_per_sec", .num 0), ("errors_per_sec", .num 0)],
    probe .baselineDelta (some "util:eth0")
      [("metric", .str "util_percent"), ("current", .num 3), ("baseline", .none),
        ("ratio", .none), ("deviated", .bool false), ("sample_count", .num 0)]]

theorem Sample.idleLink_partial : ∀ r ∈ Sample.idleLink, PartialProbe r := by
  simp only [Sample.idleLink, List.forall_mem_cons, List.not_mem_nil, false_implies, implies_true,
    and_true]
  refine ⟨⟨rfl, ?_⟩, ⟨rfl, ?_⟩, ⟨rfl, ?_⟩, ⟨rfl, rfl⟩⟩
  · exact .inr ⟨3, by norm_num, rfl⟩
  · exact ⟨0, 0, by norm_num, by norm_num, rfl, rfl⟩
  · exact ⟨0, by norm_num, rfl⟩

/-- No list of healthy path and link results, of whatever length, gets a report
that blames nothing. -/
theorem analyze_partial_never_healthy {results : List DiagnosticResult} (targetHost : String)
    (h : ∀ r ∈ results, PartialProbe r) :
    ¬ ∃ report, analyze DEFAULT_RULES results targetHost = .ok report ∧ BlamesNothing report := by
  rintro ⟨report, hreport, hhealthy, _⟩
  obtain ⟨report', hreport', hfailed, _⟩ := PartialProbe.analyze_blames_gateway h targetHost
  cases hreport.symm.trans hreport'
  rw [hfailed] at hhealthy
  cases hhealthy

theorem analyze_partial_never_healthy_idleLink :
    ¬ ∃ report, analyze DEFAULT_RULES Sample.idleLink "local-links" = .ok report ∧
        BlamesNothing report :=
  analyze_partial_never_healthy "local-links" Sample.idleLink_partial

/-- A healthy link alone is reported as a failure. -/
theorem healthy_link_fails :
    ¬ ∀ (results : List DiagnosticResult) (targetHost : String),
        (∀ r ∈ results, PartialProbe r) →
        ∃ report, analyze DEFAULT_RULES results targetHost = .ok report ∧
          BlamesNothing report := by
  intro hclaim
  obtain ⟨report, hreport, hhealthy, _⟩ :=
    hclaim Sample.idleLink "local-links" Sample.idleLink_partial
  have hstatus : (analyze DEFAULT_RULES Sample.idleLink "local-links").map (·.status) =
      .ok .failed := by
    decide +kernel
  rw [hreport] at hstatus
  exact absurd (hhealthy.symm.trans (Except.ok.inj hstatus)) (by decide)

end NetForge.Analysis
