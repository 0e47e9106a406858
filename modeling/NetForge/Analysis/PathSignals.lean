import NetForge.Analysis.Hops

/-! # Reports on path signals over a working network

A trace with any hops and a path comparison with any outcome, next to probes
that show a working interface, route, connection and ping. Exactly one default
rule can blame the path then, the last-mile rule, and whether it does is decided
by the hops alone.
-/

namespace NetForge.Analysis

open NetForge.Core Python AnalysisContext

structure PathSignals where
  interface : DiagnosticResult
  routing : DiagnosticResult
  connectivity : DiagnosticResult
  packetLoss : DiagnosticResult
  trace : DiagnosticResult
  change : DiagnosticResult
  hops : List HopRecord
  interface_module : interface.module = .interface
  interface_up : isActiveInterface interface = true
  routing_module : routing.module = .routing
  routing_gateway : (routing.metrics.value "default_gateway").truthy = true ∧
    (routing.metrics.value "default_gateway").isStr "None" = false ∧
    (routing.metrics.value "default_gateway").isStr "0.0.0.0" = false
  connectivity_module : connectivity.module = .connectivity
  connectivity_target : connectivity.target = some "1.1.1.1"
  connectivity_healthy : connectivity.status = .healthy
  loss_module : packetLoss.module = .packetLoss
  loss_healthy : packetLoss.status = .healthy
  loss_zero : packetLoss.metrics.value "packet_loss_percent" = .num 0
  trace_module : trace.module = .traceroute
  trace_hops : trace.metrics.value "hops" = .list (hops.map HopRecord.val)
  change_module : change.module = .pathChange

namespace PathSignals

def results (p : PathSignals) : List DiagnosticResult :=
  [p.interface, p.routing, p.connectivity, p.packetLoss, p.trace, p.change]

def ofModule (p : PathSignals) : Module → List DiagnosticResult
  | .interface => [p.interface]
  | .routing => [p.routing]
  | .connectivity => [p.connectivity]
  | .packetLoss => [p.packetLoss]
  | .traceroute => [p.trace]
  | .pathChange => [p.change]
  | _ => []

theorem filter_results (p : PathSignals) (m : Module) :
    p.results.filter (·.module = m) = p.ofModule m := by
  cases m <;>
    simp [results, ofModule, p.interface_module, p.routing_module, p.connectivity_module,
      p.loss_module, p.trace_module, p.change_module]

section

variable {p : PathSignals} {results : List DiagnosticResult} (h : results.Perm p.results)

include h

/-! ## What the queries give -/

/-- The order of the results does not matter: every module has at most one. -/
theorem byModule_eq (m : Module) : byModule ⟨results⟩ m = p.ofModule m := by
  have hperm := (h.filter (·.module = m)).trans (.of_eq (p.filter_results m))
  have hlen : (p.ofModule m).length ≤ 1 := by cases m <;> simp [ofModule]
  change results.filter _ = _
  cases hm : p.ofModule m with
  | nil => exact (hm ▸ hperm).eq_nil
  | cons r rest =>
      have hrest : rest = [] := by
        rw [hm] at hlen
        simpa using hlen
      subst hrest
      exact (hm ▸ hperm).eq_singleton

theorem firstByModule_eq (m : Module) : firstByModule ⟨results⟩ m = (p.ofModule m).head? := by
  rw [firstByModule, byModule_eq h]

theorem metricValues_eq (m : Module) (key : String) :
    metricValues ⟨results⟩ m key =
      ((p.ofModule m).map (·.metrics.value key)).filter (!·.isNone) := by
  rw [metricValues, byModule_eq h]

theorem losses_eq : metricValues ⟨results⟩ .packetLoss "packet_loss_percent" = [.num 0] := by
  simp [metricValues_eq h, ofModule, p.loss_zero, PyVal.isNone]

theorem hasActiveInterface_eq : hasActiveInterface ⟨results⟩ = true := by
  simp [hasActiveInterface, byModule_eq h, ofModule, p.interface_up]

theorem allInterfacesDown_eq : allInterfacesDown ⟨results⟩ = false := by
  simp [allInterfacesDown, hasActiveInterface_eq h]

theorem hasDefaultGateway_eq : hasDefaultGateway ⟨results⟩ = true := by
  simp [hasDefaultGateway, defaultGateway, firstByModule_eq h, ofModule, p.routing_gateway]

theorem isGatewayReachable_eq : isGatewayReachable ⟨results⟩ = .ok none := by
  simp [isGatewayReachable, firstByModule_eq h, ofModule]

theorem isIpConnectivityWorking_eq : isIpConnectivityWorking ⟨results⟩ = .ok true := by
  simp [isIpConnectivityWorking, byModule_eq h, ofModule, isPublicTarget, p.connectivity_target,
    p.connectivity_healthy]

theorem getMaxPacketLoss_eq : getMaxPacketLoss ⟨results⟩ = .ok (.num 0) := by
  rw [getMaxPacketLoss, losses_eq h]
  rfl

theorem getAvgPacketLoss_eq : getAvgPacketLoss ⟨results⟩ = .ok 0 := by
  rw [getAvgPacketLoss, losses_eq h]
  decide +kernel

theorem resourceMetric_eq (key : String) : resourceMetric ⟨results⟩ key = .ok 0 := by
  simp [resourceMetric, firstByModule_eq h, ofModule]

theorem getMaxJitter_eq : getMaxJitter ⟨results⟩ = .ok (.num 0) := by
  rw [getMaxJitter, metricValues_eq h]
  rfl

theorem getMaxLinkUtilization_eq : getMaxLinkUtilization ⟨results⟩ = .ok 0 := by
  rw [getMaxLinkUtilization, metricValues_eq h]
  rfl

theorem getMaxLinkDropRate_eq : getMaxLinkDropRate ⟨results⟩ = .ok 0 := by
  rw [getMaxLinkDropRate, metricValues_eq h]
  exact resourceMetric_eq h _

theorem getPathHops_eq : getPathHops ⟨results⟩ = p.hops.map HopRecord.val := by
  simp [getPathHops, firstByModule_eq h, ofModule, p.trace_hops]

theorem pathWorksEndToEnd_eq : Rules.pathWorksEndToEnd ⟨results⟩ = .ok true := by
  rw [Rules.pathWorksEndToEnd, isIpConnectivityWorking_eq h, getMaxPacketLoss_eq h]
  decide +kernel

/-! ## What the rules give -/

theorem tracedHops_eq : Rules.tracedHops ⟨results⟩ = .ok (p.hops.map HopRecord.val) := by
  unfold Rules.tracedHops
  rw [getPathHops_eq h, firstByModule_eq h]
  cases p.hops with
  | nil => rfl
  | cons hop hops => rfl

theorem pathChange_silent : Rules.pathChange ⟨results⟩ = .ok none := by
  unfold Rules.pathChange
  rw [pathWorksEndToEnd_eq h]
  split <;> rfl

theorem highHopLoss_silent : Rules.highHopLoss ⟨results⟩ = .ok none := by
  unfold Rules.highHopLoss
  rw [tracedHops_eq h, ok_bind, anyBadHop_val, ok_bind, pathWorksEndToEnd_eq h]
  split <;> rfl

/-- Every other rule sees a network in order, or no data of its own. -/
theorem evaluate_silent {rule : DiagnosticRule} (hmem : rule ∈ DEFAULT_RULES)
    (hid : rule.ruleId ≠ .lastMileVsCore) : rule.evaluate ⟨results⟩ = .ok none := by
  revert hid
  apply default_rule_cases hmem
  all_goals intro hid
  case allInterfacesDown => simp [Rules.allInterfacesDown, allInterfacesDown_eq h]
  case activePacketDrops =>
    simp [Rules.activePacketDrops, getActiveDropRate, getActiveErrorRate, resourceMetric_eq h,
      ok_bind]
    rfl
  case noDefaultGateway => simp [Rules.noDefaultGateway, hasDefaultGateway_eq h]
  case gatewayUnreachable =>
    simp [Rules.gatewayUnreachable, hasDefaultGateway_eq h, isGatewayReachable_eq h, ok_bind]
    rfl
  case gatewayHealthyWanOutage =>
    simp [Rules.gatewayHealthyWanOutage, hasDefaultGateway_eq h, isGatewayReachable_eq h,
      allInterfacesDown_eq h, isIpConnectivityWorking_eq h, getMaxPacketLoss_eq h, ok_bind]
  case totalInternetOutage =>
    simp [Rules.totalInternetOutage, allInterfacesDown_eq h, hasDefaultGateway_eq h,
      isGatewayReachable_eq h, isIpConnectivityWorking_eq h, ok_bind]
  case dnsFailureWithHealthyIp => simp [Rules.dnsFailureWithHealthyIp, firstByModule_eq h, ofModule]
  case dnsTimeout => simp [Rules.dnsTimeout, firstByModule_eq h, ofModule]
  case slowDnsResolution => simp [Rules.slowDnsResolution, firstByModule_eq h, ofModule]
  case severePacketLoss =>
    simp [Rules.severePacketLoss, getMaxPacketLoss_eq h, getAvgPacketLoss_eq h, ok_bind]
  case highJitterLatency =>
    simp only [Rules.highJitterLatency, getMaxJitter_eq h, ok_bind]
    rfl
  case portBlockedByFirewall =>
    simp [Rules.portBlockedByFirewall, isIpConnectivityWorking_eq h, byModule_eq h, ofModule]
  case targetSpecificFailure =>
    simp [Rules.targetSpecificFailure, byModule_eq h, ofModule, p.connectivity_healthy]
  case hostSaturationBufferbloat =>
    simp [Rules.hostSaturationBufferbloat, getCpuPercent, getMemoryPercent, resourceMetric_eq h,
      ok_bind]
    rfl
  case pathChange => exact pathChange_silent h
  case highHopLoss => exact highHopLoss_silent h
  case lastMileVsCore => exact absurd rfl hid
  case linkSaturation =>
    simp [Rules.linkSaturation, getMaxLinkUtilization_eq h, ok_bind]
    rfl
  case interfaceErrors =>
    simp [Rules.interfaceErrors, getMaxLinkDropRate_eq h, byModule_eq h, ofModule, ok_bind]
    rfl
  case elephantFlow => simp [Rules.elephantFlow, firstByModule_eq h, ofModule]
  case linkCongestionWithPathLoss =>
    simp only [Rules.linkCongestionWithPathLoss, getMaxLinkUtilization_eq h, byModule_eq h,
      ofModule, ok_bind]
    rfl
  case suddenDegradation =>
    simp only [Rules.suddenDegradation, byModule_eq h, ofModule]
    rfl
  case meshPartition => simp [Rules.meshPartition, firstByModule_eq h, ofModule]

theorem issue?_eq {rule : DiagnosticRule} (hmem : rule ∈ DEFAULT_RULES) :
    rule.issue? ⟨results⟩ =
      if rule.ruleId = .lastMileVsCore then lastMileIssue p.hops else none := by
  by_cases hid : rule.ruleId = .lastMileVsCore
  · have hlast : ⟨.lastMileVsCore, Rules.lastMileVsCore⟩ ∈ DEFAULT_RULES := by
      simp [DEFAULT_RULES]
    have hrule : rule = ⟨.lastMileVsCore, Rules.lastMileVsCore⟩ :=
      rule_eq_of_ruleId hmem hlast hid
    subst hrule
    simp [DiagnosticRule.issue?, lastMileVsCore_val (getPathHops_eq h)]
  · simp [DiagnosticRule.issue?, evaluate_silent h hmem hid, hid]

theorem ruleIssues_eq :
    DEFAULT_RULES.filterMap (·.issue? ⟨results⟩) = (lastMileIssue p.hops).toList := by
  rw [List.filterMap_congr fun rule hmem => issue?_eq h hmem]
  cases lastMileIssue p.hops <;> simp [DEFAULT_RULES]

/-- Nothing is suppressed: the report's issues are the anomalies and the
last-mile issue. -/
theorem mem_issues_iff {targetHost : String} {report : DiagnosisReport}
    (hreport : analyze DEFAULT_RULES results targetHost = .ok report) :
    ∃ anomalies, ∀ issue, issue ∈ report.issues ↔
      issue ∈ anomalyIssues anomalies ∨ lastMileIssue p.hops = some issue := by
  obtain ⟨anomalies, _, hissues, _⟩ := analyze_ok hreport
  refine ⟨anomalies, fun issue => ?_⟩
  rw [hissues, mem_activeIssues, ruleIssues_eq h, List.mem_append, Option.mem_toList]
  refine and_iff_left_of_imp fun _ other hother => ?_
  rcases List.mem_append.mp hother with ha | hl
  · simp [(mem_anomalyIssues ha).2]
  · simp [(lastMileIssue_spec (Option.mem_toList.mp hl)).2]

end

end PathSignals

/-! ## A traced host -/

namespace Sample

def probe (module : Module) (target : Option String) (metrics : Dict) : DiagnosticResult where
  module := module
  status := .healthy
  summary := "ok"
  target := target
  metrics := metrics
  errors := []

def answering (address : String) (rtt : Rat) : HopRecord where
  fields := [("address", .str address), ("avg_rtt_ms", .num rtt), ("loss_percent", .num 0)]
  loss := 0
  rtt := rtt
  loss_eq := rfl
  rtt_eq := PyVal.num_orElse_zero rtt

end Sample

end NetForge.Analysis
