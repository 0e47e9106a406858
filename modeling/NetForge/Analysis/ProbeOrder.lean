import NetForge.Analysis.Readings
import NetForge.Analysis.Subsumption

/-! # The order of the probes

`RuleEngine().analyze` on the results of the same probes in another order. Every
query of the analysis context asks one module, or asks all results for something
that no order changes, so the rules conclude the same. The correlator alone asks
two modules for whichever comes first.
-/

namespace NetForge.Analysis

open NetForge.Core Python

/-- The same results, those of one module in the order they had. -/
structure Reordered (results results' : List DiagnosticResult) : Prop where
  perm : results.Perm results'
  stable : ∀ m, results.filter (·.module = m) = results'.filter (·.module = m)

/-! ## Averages -/

theorem mapM_toNumber_error {vs : List PyVal} {e : PyError}
    (h : vs.mapM PyVal.toNumber = .error e) : e = .typeError := by
  induction vs with
  | nil => cases h
  | cons v vs ih =>
      rw [List.mapM_cons] at h
      cases hv : v.toNumber with
      | error e' =>
          rw [hv] at h
          obtain rfl : e' = e := Except.error.inj h
          unfold PyVal.toNumber at hv
          split at hv
          · cases hv
          · exact (Except.error.inj hv).symm
      | ok q =>
          rw [hv, ok_bind] at h
          cases hvs : vs.mapM PyVal.toNumber with
          | error e' =>
              rw [hvs] at h
              obtain rfl : e' = e := Except.error.inj h
              exact ih hvs
          | ok qs =>
              rw [hvs] at h
              cases h

/-- An average is one of the values, in whatever order they come. -/
theorem mean_perm {vs vs' : List PyVal} (hperm : vs.Perm vs') :
    PyVal.mean vs = PyVal.mean vs' := by
  unfold PyVal.mean
  cases hvs : vs.mapM PyVal.toNumber with
  | ok qs =>
      obtain ⟨qs', hvs', hqs⟩ := mapM_perm hperm hvs
      have hempty : qs.isEmpty = qs'.isEmpty := by
        rw [Bool.eq_iff_iff, List.isEmpty_iff, List.isEmpty_iff]
        exact ⟨fun hnil => (hnil ▸ hqs).nil_eq.symm, fun hnil => (hnil ▸ hqs).eq_nil⟩
      rw [hvs', ok_bind, ok_bind, hempty, hqs.sum_eq, hqs.length_eq]
  | error e =>
      cases hvs' : vs'.mapM PyVal.toNumber with
      | ok qs' =>
          obtain ⟨qs, hok, _⟩ := mapM_perm hperm.symm hvs'
          rw [hvs] at hok
          cases hok
      | error e' => rw [mapM_toNumber_error hvs, mapM_toNumber_error hvs']

/-! ## Queries -/

section Reordering

variable {results results' : List DiagnosticResult} (h : Reordered results results')

include h

theorem Reordered.any_eq (p : DiagnosticResult → Bool) : results.any p = results'.any p :=
  h.perm.any_eq

namespace AnalysisContext

theorem byModule_reordered (m : Module) : byModule ⟨results⟩ m = byModule ⟨results'⟩ m :=
  h.stable m

theorem firstByModule_reordered (m : Module) :
    firstByModule ⟨results⟩ m = firstByModule ⟨results'⟩ m := by
  rw [firstByModule, firstByModule, byModule_reordered h]

theorem metricValues_reordered (m : Module) (key : String) :
    metricValues ⟨results⟩ m key = metricValues ⟨results'⟩ m key := by
  rw [metricValues, metricValues, byModule_reordered h]

theorem hasActiveInterface_reordered :
    hasActiveInterface ⟨results⟩ = hasActiveInterface ⟨results'⟩ := by
  rw [hasActiveInterface, hasActiveInterface, byModule_reordered h]

theorem allInterfacesDown_reordered :
    allInterfacesDown ⟨results⟩ = allInterfacesDown ⟨results'⟩ := by
  rw [allInterfacesDown, allInterfacesDown, byModule_reordered h, hasActiveInterface_reordered h]

theorem defaultGateway_reordered : defaultGateway ⟨results⟩ = defaultGateway ⟨results'⟩ := by
  rw [defaultGateway, defaultGateway, firstByModule_reordered h]

theorem hasDefaultGateway_reordered :
    hasDefaultGateway ⟨results⟩ = hasDefaultGateway ⟨results'⟩ := by
  rw [hasDefaultGateway, hasDefaultGateway, defaultGateway_reordered h]

theorem isGatewayReachable_reordered :
    isGatewayReachable ⟨results⟩ = isGatewayReachable ⟨results'⟩ := by
  rw [isGatewayReachable, isGatewayReachable, firstByModule_reordered h]

theorem isIpConnectivityWorking_reordered :
    isIpConnectivityWorking ⟨results⟩ = isIpConnectivityWorking ⟨results'⟩ := by
  rw [isIpConnectivityWorking, isIpConnectivityWorking, byModule_reordered h,
    metricValues_reordered h]

theorem getDnsServers_reordered : getDnsServers ⟨results⟩ = getDnsServers ⟨results'⟩ := by
  rw [getDnsServers, getDnsServers, firstByModule_reordered h]

theorem getMaxPacketLoss_reordered :
    getMaxPacketLoss ⟨results⟩ = getMaxPacketLoss ⟨results'⟩ := by
  rw [getMaxPacketLoss, getMaxPacketLoss, metricValues_reordered h]

theorem getAvgPacketLoss_reordered :
    getAvgPacketLoss ⟨results⟩ = getAvgPacketLoss ⟨results'⟩ := by
  rw [getAvgPacketLoss, getAvgPacketLoss, metricValues_reordered h]

theorem getAvgLatency_reordered : getAvgLatency ⟨results⟩ = getAvgLatency ⟨results'⟩ := by
  apply mean_perm
  exact ((h.perm.filter _).map _).filter _

theorem getMaxJitter_reordered : getMaxJitter ⟨results⟩ = getMaxJitter ⟨results'⟩ := by
  rw [getMaxJitter, getMaxJitter, metricValues_reordered h]

theorem getJitter_reordered (m : Module) : getJitter ⟨results⟩ m = getJitter ⟨results'⟩ m := by
  rw [getJitter, getJitter, metricValues_reordered h]

theorem getMaxLinkUtilization_reordered :
    getMaxLinkUtilization ⟨results⟩ = getMaxLinkUtilization ⟨results'⟩ := by
  rw [getMaxLinkUtilization, getMaxLinkUtilization, metricValues_reordered h]

theorem hasConfirmedJitterPattern_reordered (thresholdMs : Rat) :
    hasConfirmedJitterPattern ⟨results⟩ thresholdMs =
      hasConfirmedJitterPattern ⟨results'⟩ thresholdMs := by
  simp only [hasConfirmedJitterPattern, getJitter_reordered h, getMaxLinkUtilization_reordered h,
    h.any_eq]

theorem resourceMetric_reordered (key : String) :
    resourceMetric ⟨results⟩ key = resourceMetric ⟨results'⟩ key := by
  rw [resourceMetric, resourceMetric, firstByModule_reordered h]

theorem getMaxLinkDropRate_reordered :
    getMaxLinkDropRate ⟨results⟩ = getMaxLinkDropRate ⟨results'⟩ := by
  simp only [getMaxLinkDropRate, getActiveDropRate, metricValues_reordered h,
    resourceMetric_reordered h]

theorem getPathHops_reordered : getPathHops ⟨results⟩ = getPathHops ⟨results'⟩ := by
  rw [getPathHops, getPathHops, firstByModule_reordered h]

theorem pathChanged_reordered : pathChanged ⟨results⟩ = pathChanged ⟨results'⟩ := by
  rw [pathChanged, pathChanged, firstByModule_reordered h]

end AnalysisContext

/-! ## Rules -/

open AnalysisContext

theorem pathWorksEndToEnd_reordered :
    Rules.pathWorksEndToEnd ⟨results⟩ = Rules.pathWorksEndToEnd ⟨results'⟩ := by
  rw [Rules.pathWorksEndToEnd, Rules.pathWorksEndToEnd, isIpConnectivityWorking_reordered h,
    getMaxPacketLoss_reordered h]

theorem tracedHops_reordered : Rules.tracedHops ⟨results⟩ = Rules.tracedHops ⟨results'⟩ := by
  rw [Rules.tracedHops, Rules.tracedHops, getPathHops_reordered h, firstByModule_reordered h]

theorem namedServers_reordered :
    Rules.namedServers ⟨results⟩ = Rules.namedServers ⟨results'⟩ := by
  rw [Rules.namedServers, Rules.namedServers, getDnsServers_reordered h]

theorem comparedUtilizations_reordered :
    Rules.comparedUtilizations ⟨results⟩ = Rules.comparedUtilizations ⟨results'⟩ := by
  rw [Rules.comparedUtilizations, Rules.comparedUtilizations, metricValues_reordered h]

open Rules in
/-- No default rule sees the order, each through the queries it asks. -/
theorem evaluate_reordered {rule : DiagnosticRule} (hmem : rule ∈ DEFAULT_RULES) :
    rule.evaluate ⟨results⟩ = rule.evaluate ⟨results'⟩ := by
  apply default_rule_cases hmem
  case allInterfacesDown => simp only [Rules.allInterfacesDown, allInterfacesDown_reordered h]
  case activePacketDrops =>
    simp only [activePacketDrops, getActiveDropRate, getActiveErrorRate, resourceMetric_reordered h]
  case noDefaultGateway =>
    simp only [noDefaultGateway, allInterfacesDown_reordered h, hasDefaultGateway_reordered h]
  case gatewayUnreachable =>
    simp only [gatewayUnreachable, hasDefaultGateway_reordered h, isGatewayReachable_reordered h]
  case gatewayHealthyWanOutage =>
    simp only [gatewayHealthyWanOutage, hasDefaultGateway_reordered h,
      isGatewayReachable_reordered h, allInterfacesDown_reordered h,
      isIpConnectivityWorking_reordered h, getMaxPacketLoss_reordered h]
  case totalInternetOutage =>
    simp only [totalInternetOutage, allInterfacesDown_reordered h, hasDefaultGateway_reordered h,
      isGatewayReachable_reordered h, isIpConnectivityWorking_reordered h,
      getMaxPacketLoss_reordered h]
  case dnsFailureWithHealthyIp =>
    simp only [dnsFailureWithHealthyIp, firstByModule_reordered h,
      isIpConnectivityWorking_reordered h, namedServers_reordered h, getDnsServers_reordered h]
  case dnsTimeout =>
    simp only [dnsTimeout, firstByModule_reordered h, isIpConnectivityWorking_reordered h,
      namedServers_reordered h]
  case slowDnsResolution =>
    simp only [slowDnsResolution, firstByModule_reordered h, getAvgLatency_reordered h,
      namedServers_reordered h]
  case severePacketLoss =>
    simp only [severePacketLoss, getMaxPacketLoss_reordered h, getAvgPacketLoss_reordered h,
      getActiveDropRate, resourceMetric_reordered h]
  case highJitterLatency =>
    simp only [highJitterLatency, getMaxJitter_reordered h, hasConfirmedJitterPattern_reordered h,
      getCpuPercent, resourceMetric_reordered h]
  case portBlockedByFirewall =>
    simp only [portBlockedByFirewall, isIpConnectivityWorking_reordered h, byModule_reordered h]
  case targetSpecificFailure => simp only [targetSpecificFailure, byModule_reordered h]
  case hostSaturationBufferbloat =>
    simp only [hostSaturationBufferbloat, getCpuPercent, getMemoryPercent,
      resourceMetric_reordered h, getMaxJitter_reordered h]
  case pathChange =>
    simp only [Rules.pathChange, pathChanged_reordered h, pathWorksEndToEnd_reordered h]
  case highHopLoss => simp only [highHopLoss, tracedHops_reordered h, pathWorksEndToEnd_reordered h]
  case lastMileVsCore => simp only [lastMileVsCore, getPathHops_reordered h]
  case linkSaturation =>
    simp only [linkSaturation, getMaxLinkUtilization_reordered h, comparedUtilizations_reordered h]
  case interfaceErrors =>
    simp only [interfaceErrors, getMaxLinkDropRate_reordered h, byModule_reordered h]
  case elephantFlow => simp only [elephantFlow, firstByModule_reordered h]
  case linkCongestionWithPathLoss =>
    simp only [linkCongestionWithPathLoss, getMaxLinkUtilization_reordered h, byModule_reordered h,
      getPathHops_reordered h, getMaxPacketLoss_reordered h]
  case suddenDegradation => simp only [suddenDegradation, byModule_reordered h]
  case meshPartition => simp only [meshPartition, firstByModule_reordered h]

theorem ruleIssues_reordered :
    DEFAULT_RULES.filterMap (·.issue? ⟨results⟩) =
      DEFAULT_RULES.filterMap (·.issue? ⟨results'⟩) := by
  apply List.filterMap_congr
  intro rule hmem
  rw [DiagnosticRule.issue?, DiagnosticRule.issue?, evaluate_reordered h hmem]

/-! ## Correlation -/

namespace EvidenceCorrelator

theorem packetLoss_reordered : packetLoss ⟨results⟩ = packetLoss ⟨results'⟩ := by
  rw [packetLoss, packetLoss, metricValues_reordered h]

theorem connectivityHealthy_reordered :
    connectivityHealthy ⟨results⟩ = connectivityHealthy ⟨results'⟩ := by
  rw [connectivityHealthy, connectivityHealthy, byModule_reordered h]

theorem endToEndFailed_reordered : endToEndFailed ⟨results⟩ = endToEndFailed ⟨results'⟩ := by
  rw [endToEndFailed, endToEndFailed, h.any_eq]

theorem hopLossAnomaly_reordered : hopLossAnomaly ⟨results⟩ = hopLossAnomaly ⟨results'⟩ := by
  simp only [hopLossAnomaly, packetLoss_reordered h, getPathHops_reordered h,
    connectivityHealthy_reordered h, endToEndFailed_reordered h]

theorem pathChangeAnomaly_reordered :
    pathChangeAnomaly ⟨results⟩ = pathChangeAnomaly ⟨results'⟩ := by
  rw [pathChangeAnomaly, pathChangeAnomaly, byModule_reordered h, endToEndFailed_reordered h]

end EvidenceCorrelator

end Reordering

/-! ## Jitter -/

/-- Whether the first of the latency and traffic results shows elevated jitter,
if its jitter can be read. -/
def elevatedJitter (results : List DiagnosticResult) : Option Bool :=
  match results.find? fun r => r.module = .latency ∨ r.module = .trafficJitter with
  | none => some false
  | some latency =>
      let value := latency.metrics.value "jitter_ms"
      if value.isNone then some false
      else value.float.toOption.map fun jitter => decide (20 ≤ jitter)

/-- The analysis of the results raises nothing on losses, hops and connectivity. -/
structure Readable (results : List DiagnosticResult) : Prop where
  losses : ∃ losses,
    (AnalysisContext.metricValues ⟨results⟩ .packetLoss "packet_loss_percent").mapM PyVal.float =
      .ok losses
  hops : ∃ bad, Rules.anyBadHop (AnalysisContext.getPathHops ⟨results⟩) = .ok bad
  connectivity : ∃ working, AnalysisContext.isIpConnectivityWorking ⟨results⟩ = .ok working

/-- Some loss is measured, all of them small, and no probe to the target fails. -/
structure Quiet (results : List DiagnosticResult) : Prop where
  losses : ∃ losses,
    (AnalysisContext.metricValues ⟨results⟩ .packetLoss "packet_loss_percent").mapM PyVal.float =
      .ok losses ∧ losses ≠ [] ∧ ∀ loss ∈ losses, loss < 30
  probes : ∀ r ∈ results, r.module = .connectivity ∨ r.module = .packetLoss →
    r.status ≠ .failed ∧ r.status ≠ .degraded

/-- The first jitter of the two orders is judged alike, or nothing depends on it. -/
def JudgedAlike (results results' : List DiagnosticResult) : Prop :=
  ¬ Readable results ∨ elevatedJitter results = elevatedJitter results' ∨
    (¬ Quiet results ∧ (elevatedJitter results).isSome ∧ (elevatedJitter results').isSome)

/-- The largest value is below a bound that the default exceeds. -/
theorem maxFloat_getD_lt_iff {qs : List Rat} {default bound : Rat} (hdefault : bound ≤ default) :
    (AnalysisContext.maxFloat qs).getD default < bound ↔ qs ≠ [] ∧ ∀ q ∈ qs, q < bound := by
  cases qs with
  | nil =>
      have hnot : ¬ default < bound := not_lt.mpr hdefault
      simpa [AnalysisContext.maxFloat] using hnot
  | cons q qs =>
      rw [AnalysisContext.maxFloat, Option.getD_some, foldl_max_lt_iff]
      simp

namespace EvidenceCorrelator

def latencyWiggle : EvidenceAnomaly :=
  ⟨.latencyWiggle, "Statistically weak latency wiggle", 55 / 100⟩

def wiggles (results : List DiagnosticResult) (loss : Rat) (elevated : Bool) :
    List EvidenceAnomaly :=
  if elevated ∧ loss < 30 ∧ endToEndFailed ⟨results⟩ = false then [latencyWiggle] else []

theorem packetLoss_of_losses {results : List DiagnosticResult} {losses : List Rat}
    (hlosses : (AnalysisContext.metricValues ⟨results⟩ .packetLoss "packet_loss_percent").mapM
      PyVal.float = .ok losses) :
    packetLoss ⟨results⟩ = .ok ((AnalysisContext.maxFloat losses).getD 100) := by
  rw [packetLoss, hlosses]
  rfl

theorem hopLossAnomaly_ok {results : List DiagnosticResult} {loss : Rat} {bad : Bool}
    (hloss : packetLoss ⟨results⟩ = .ok loss)
    (hbad : Rules.anyBadHop (AnalysisContext.getPathHops ⟨results⟩) = .ok bad) :
    ∃ hopLoss, hopLossAnomaly ⟨results⟩ = .ok hopLoss := by
  rw [hopLossAnomaly, hloss, ok_bind, hbad, ok_bind]
  split
  · exact ⟨_, rfl⟩
  · exact ⟨_, rfl⟩

theorem endToEndFailed_eq_false_iff {results : List DiagnosticResult} :
    endToEndFailed ⟨results⟩ = false ↔
      ∀ r ∈ results, r.module = .connectivity ∨ r.module = .packetLoss →
        r.status ≠ .failed ∧ r.status ≠ .degraded := by
  simp [endToEndFailed]

theorem quiet_iff {results : List DiagnosticResult} {loss : Rat}
    (hloss : packetLoss ⟨results⟩ = .ok loss) :
    Quiet results ↔ loss < 30 ∧ endToEndFailed ⟨results⟩ = false := by
  obtain ⟨losses, hlosses, hmax⟩ := ok_of_bind.mp hloss
  obtain rfl : _ = loss := Except.ok.inj hmax
  rw [maxFloat_getD_lt_iff (by norm_num), endToEndFailed_eq_false_iff]
  constructor
  · intro h
    obtain ⟨losses', hlosses', hsmall⟩ := h.losses
    obtain rfl : losses = losses' := Except.ok.inj (hlosses.symm.trans hlosses')
    exact ⟨hsmall, h.probes⟩
  · intro h
    exact ⟨⟨losses, hlosses, h.1⟩, h.2⟩

/-- The anomaly of the first jitter, once the losses are read. -/
theorem latencyAnomaly_toOption {results : List DiagnosticResult} {loss : Rat}
    (hloss : packetLoss ⟨results⟩ = .ok loss) :
    (latencyAnomaly ⟨results⟩).toOption = (elevatedJitter results).map (wiggles results loss) := by
  unfold latencyAnomaly elevatedJitter
  rw [hloss, ok_bind]
  cases results.find? fun r => r.module = .latency ∨ r.module = .trafficJitter with
  | none => rfl
  | some latency =>
      by_cases hnone : (latency.metrics.value "jitter_ms").isNone
      · simp only [hnone, if_true]
        rfl
      · simp only [hnone]
        cases hfloat : (latency.metrics.value "jitter_ms").float with
        | error e => rfl
        | ok jitter =>
            simp only [ok_bind]
            by_cases hwiggle : 20 ≤ jitter ∧ loss < 30 ∧ endToEndFailed ⟨results⟩ = false
            · simp [hwiggle, wiggles, latencyWiggle, Except.toOption, pure, Except.pure]
            · simp [hwiggle, wiggles, Except.toOption, pure, Except.pure]

end EvidenceCorrelator

/-! ## Reports -/

/-- What a report concludes: its status, and the rule, severity and confidence of
each issue. -/
def DiagnosisReport.conclusion (report : DiagnosisReport) :
    DiagnosticStatus × List (RuleId × Severity × Rat) :=
  (report.status, report.issues.map fun i => (i.ruleId, i.severity, i.confidence))

def concluded (results : List DiagnosticResult) (targetHost : String) :
    Option (DiagnosticStatus × List (RuleId × Severity × Rat)) :=
  (analyze DEFAULT_RULES results targetHost).toOption.map (·.conclusion)

def conclusionOf (results : List DiagnosticResult) (anomalies : List EvidenceAnomaly) :
    DiagnosticStatus × List (RuleId × Severity × Rat) :=
  let issues := activeIssues (rawIssues results anomalies)
  (reportStatus results issues, issues.map fun i => (i.ruleId, i.severity, i.confidence))

def anomaliesOf (results : List DiagnosticResult) (hopLoss : List EvidenceAnomaly) (loss : Rat)
    (elevated : Bool) : List EvidenceAnomaly :=
  hopLoss ++ EvidenceCorrelator.pathChangeAnomaly ⟨results⟩ ++
    EvidenceCorrelator.wiggles results loss elevated

theorem suppressed_by_rawIssues (results : List DiagnosticResult)
    (anomalies : List EvidenceAnomaly) :
    (rawIssues results anomalies).flatMap (·.suppressedRules) =
      (DEFAULT_RULES.filterMap (·.issue? ⟨results⟩)).flatMap (·.suppressedRules) := by
  have hanomalies : (anomalyIssues anomalies).flatMap (·.suppressedRules) = [] :=
    List.flatMap_eq_nil_iff.mpr fun issue hissue => (mem_anomalyIssues hissue).2
  rw [rawIssues, List.flatMap_append, hanomalies, List.nil_append]

/-- No rule suppresses an anomaly, which is not at any depth. -/
theorem anomaly_not_suppressed {results : List DiagnosticResult}
    {anomalies : List EvidenceAnomaly} {issue : DiagnosedIssue}
    (hissue : issue ∈ anomalyIssues anomalies) :
    issue.ruleId ∉ (rawIssues results anomalies).flatMap (·.suppressedRules) := by
  intro hsuppressed
  obtain ⟨other, hother, hid⟩ := List.mem_flatMap.mp hsuppressed
  have hdepth := depth_of_raw results anomalies other hother issue.ruleId hid
  obtain ⟨i, hi, rfl⟩ := List.mem_mapIdx.mp hissue
  exact absurd hdepth (Nat.not_lt_zero _)

theorem length_activeIssues (results : List DiagnosticResult) (anomalies : List EvidenceAnomaly) :
    (activeIssues (rawIssues results anomalies)).length =
      anomalies.length +
        (unsuppressed (DEFAULT_RULES.filterMap (·.issue? ⟨results⟩))).length := by
  have hkept : unsuppressed (rawIssues results anomalies) =
      anomalyIssues anomalies ++ unsuppressed (DEFAULT_RULES.filterMap (·.issue? ⟨results⟩)) := by
    simp only [unsuppressed, suppressed_by_rawIssues results anomalies]
    rw [rawIssues, List.filter_append]
    congr 1
    apply List.filter_eq_self.mpr
    intro issue hissue
    have hfree := @anomaly_not_suppressed results anomalies issue hissue
    rw [suppressed_by_rawIssues] at hfree
    exact decide_eq_true hfree
  rw [activeIssues, List.length_insertionSort, hkept, List.length_append, anomalyIssues,
    List.length_mapIdx]

theorem conclusionOf_length_ne {results : List DiagnosticResult}
    {anomalies anomalies' : List EvidenceAnomaly} (h : anomalies.length ≠ anomalies'.length) :
    conclusionOf results anomalies ≠ conclusionOf results anomalies' := by
  intro heq
  have hlength := congrArg (fun c => c.2.length) heq
  simp only [conclusionOf, List.length_map, length_activeIssues] at hlength
  omega

/-- The conclusion from the parts that the correlator and the observations read. -/
theorem concluded_eq (targetHost : String) {results : List DiagnosticResult} {loss : Rat}
    {hopLoss : List EvidenceAnomaly} {working : Bool}
    (hloss : EvidenceCorrelator.packetLoss ⟨results⟩ = .ok loss)
    (hhops : EvidenceCorrelator.hopLossAnomaly ⟨results⟩ = .ok hopLoss)
    (hworking : AnalysisContext.isIpConnectivityWorking ⟨results⟩ = .ok working) :
    concluded results targetHost =
      (elevatedJitter results).map fun elevated =>
        conclusionOf results (anomaliesOf results hopLoss loss elevated) := by
  have hjitter := EvidenceCorrelator.latencyAnomaly_toOption hloss
  simp only [concluded, analyze, EvidenceCorrelator.correlate, keyObservations, hhops, hworking,
    ok_bind]
  cases hlatency : EvidenceCorrelator.latencyAnomaly ⟨results⟩ with
  | error e =>
      rw [hlatency] at hjitter
      have hunread : elevatedJitter results = none := Option.map_eq_none_iff.mp hjitter.symm
      rw [hunread]
      rfl
  | ok latency =>
      rw [hlatency] at hjitter
      obtain ⟨elevated, helevated, hadds⟩ := Option.map_eq_some_iff.mp hjitter.symm
      rw [helevated, ← hadds]
      rfl

section

variable {results results' : List DiagnosticResult} (h : Reordered results results')

include h

theorem readable_reordered : Readable results ↔ Readable results' := by
  have hlosses := AnalysisContext.metricValues_reordered h .packetLoss "packet_loss_percent"
  have hhops := AnalysisContext.getPathHops_reordered h
  have hworking := AnalysisContext.isIpConnectivityWorking_reordered h
  constructor
  · intro hreads
    obtain ⟨losses, hops, connectivity⟩ := hreads
    exact ⟨hlosses ▸ losses, hhops ▸ hops, hworking ▸ connectivity⟩
  · intro hreads
    obtain ⟨losses, hops, connectivity⟩ := hreads
    exact ⟨hlosses ▸ losses, hhops ▸ hops, hworking ▸ connectivity⟩

theorem reportStatus_reordered (issues : List DiagnosedIssue) :
    reportStatus results issues = reportStatus results' issues := by
  rw [reportStatus, reportStatus, h.any_eq]

theorem conclusionOf_reordered (anomalies : List EvidenceAnomaly) :
    conclusionOf results anomalies = conclusionOf results' anomalies := by
  simp only [conclusionOf, rawIssues, ruleIssues_reordered h, reportStatus_reordered h]

theorem anomaliesOf_reordered (hopLoss : List EvidenceAnomaly) (loss : Rat) (elevated : Bool) :
    anomaliesOf results hopLoss loss elevated = anomaliesOf results' hopLoss loss elevated := by
  rw [anomaliesOf, anomaliesOf, EvidenceCorrelator.pathChangeAnomaly_reordered h,
    EvidenceCorrelator.wiggles, EvidenceCorrelator.wiggles,
    EvidenceCorrelator.endToEndFailed_reordered h]

end

/-- Whether jitter is elevated changes the conclusion when all else is quiet. -/
theorem conclusionOf_elevated_iff {results : List DiagnosticResult} {loss : Rat}
    (hloss : EvidenceCorrelator.packetLoss ⟨results⟩ = .ok loss)
    (hopLoss : List EvidenceAnomaly) :
    conclusionOf results (anomaliesOf results hopLoss loss true) =
      conclusionOf results (anomaliesOf results hopLoss loss false) ↔ ¬ Quiet results := by
  have hfalse : EvidenceCorrelator.wiggles results loss false = [] := by
    simp [EvidenceCorrelator.wiggles]
  constructor
  · intro hsame hquiet
    have htrue : EvidenceCorrelator.wiggles results loss true =
        [EvidenceCorrelator.latencyWiggle] := by
      simpa [EvidenceCorrelator.wiggles] using (EvidenceCorrelator.quiet_iff hloss).mp hquiet
    apply conclusionOf_length_ne _ hsame
    simp [anomaliesOf, hfalse, htrue]
  · intro hloud
    have htrue : EvidenceCorrelator.wiggles results loss true = [] := by
      rw [EvidenceCorrelator.quiet_iff hloss] at hloud
      simpa [EvidenceCorrelator.wiggles] using hloud
    rw [anomaliesOf, anomaliesOf, hfalse, htrue]

theorem readable_of_concluded {results : List DiagnosticResult} {targetHost : String}
    {conclusion : DiagnosticStatus × List (RuleId × Severity × Rat)}
    (h : concluded results targetHost = some conclusion) : Readable results := by
  obtain ⟨report, hreport, _⟩ := Option.map_eq_some_iff.mp h
  cases hanalyze : analyze DEFAULT_RULES results targetHost with
  | error e =>
      rw [hanalyze] at hreport
      cases hreport
  | ok report' =>
      obtain ⟨anomalies, hcorrelate, hrest⟩ := ok_of_bind.mp hanalyze
      obtain ⟨observations, hobservations, _⟩ := ok_of_bind.mp hrest
      obtain ⟨hopLoss, hhops, _⟩ := ok_of_bind.mp hcorrelate
      obtain ⟨loss, hloss, hbad⟩ := ok_of_bind.mp hhops
      obtain ⟨bad, hbad, _⟩ := ok_of_bind.mp hbad
      obtain ⟨losses, hlosses, _⟩ := ok_of_bind.mp hloss
      obtain ⟨working, hworking, _⟩ := ok_of_bind.mp hobservations
      exact ⟨⟨losses, hlosses⟩, ⟨bad, hbad⟩, ⟨working, hworking⟩⟩

theorem concluded_eq_none {results : List DiagnosticResult} (targetHost : String)
    (h : ¬ Readable results) : concluded results targetHost = none := by
  cases hconcluded : concluded results targetHost with
  | none => rfl
  | some conclusion => exact absurd (readable_of_concluded hconcluded) h

/-- Two readings that may fail give the same value under `f` if they are the same,
or if `f` does not tell them apart. -/
theorem map_eq_map_iff {β : Type} (f : Bool → β) (a b : Option Bool) :
    a.map f = b.map f ↔ a = b ∨ (f true = f false ∧ a.isSome ∧ b.isSome) := by
  cases a with
  | none => cases b <;> simp
  | some x =>
      cases b with
      | none => simp
      | some y => cases x <;> cases y <;> simp [eq_comm]

/-- Two orders of the probes lead to one conclusion exactly when the jitter that
comes first is judged alike. -/
theorem concluded_order_iff {results results' : List DiagnosticResult} (targetHost : String)
    (h : Reordered results results') :
    concluded results targetHost = concluded results' targetHost ↔
      JudgedAlike results results' := by
  by_cases hreadable : Readable results
  · obtain ⟨⟨losses, hlosses⟩, ⟨bad, hbad⟩, ⟨working, hworking⟩⟩ := hreadable
    have hloss := EvidenceCorrelator.packetLoss_of_losses hlosses
    obtain ⟨hopLoss, hhops⟩ := EvidenceCorrelator.hopLossAnomaly_ok hloss hbad
    have hloss' := EvidenceCorrelator.packetLoss_reordered h ▸ hloss
    have hhops' := EvidenceCorrelator.hopLossAnomaly_reordered h ▸ hhops
    have hworking' := AnalysisContext.isIpConnectivityWorking_reordered h ▸ hworking
    rw [concluded_eq targetHost hloss hhops hworking,
      concluded_eq targetHost hloss' hhops' hworking']
    simp only [← conclusionOf_reordered h, ← anomaliesOf_reordered h]
    rw [map_eq_map_iff, conclusionOf_elevated_iff hloss]
    have hreads : Readable results := ⟨⟨losses, hlosses⟩, ⟨bad, hbad⟩, ⟨working, hworking⟩⟩
    exact ⟨.inr, fun halike => halike.resolve_left (not_not_intro hreads)⟩
  · have hreadable' : ¬ Readable results' := fun hr => hreadable ((readable_reordered h).mpr hr)
    rw [concluded_eq_none targetHost hreadable, concluded_eq_none targetHost hreadable']
    exact ⟨fun _ => .inl hreadable, fun _ => rfl⟩

namespace Sample

def pinged : DiagnosticResult := probe .packetLoss none [("packet_loss_percent", .num 0)]

def steadyLatency : DiagnosticResult := probe .latency none [("jitter_ms", .num 5)]

def jitteryTraffic : DiagnosticResult := probe .trafficJitter none [("jitter_ms", .num 30)]

theorem jitter_reordered :
    Reordered [pinged, steadyLatency, jitteryTraffic] [jitteryTraffic, pinged, steadyLatency] where
  perm := by
    have hswap : ([pinged, steadyLatency] ++ [jitteryTraffic]).Perm
        ([jitteryTraffic] ++ [pinged, steadyLatency]) := List.perm_append_comm
    exact hswap
  stable := by
    intro m
    cases m <;> simp [pinged, steadyLatency, jitteryTraffic, probe]

theorem ping_reordered :
    Reordered [pinged, steadyLatency, jitteryTraffic] [steadyLatency, pinged, jitteryTraffic] where
  perm := .swap _ _ _
  stable := by
    intro m
    cases m <;> simp [pinged, steadyLatency, jitteryTraffic, probe]

end Sample

theorem concluded_order_iff_ping :
    concluded [Sample.pinged, Sample.steadyLatency, Sample.jitteryTraffic] "google.com" =
        concluded [Sample.steadyLatency, Sample.pinged, Sample.jitteryTraffic] "google.com" ↔
      JudgedAlike [Sample.pinged, Sample.steadyLatency, Sample.jitteryTraffic]
        [Sample.steadyLatency, Sample.pinged, Sample.jitteryTraffic] :=
  concluded_order_iff "google.com" Sample.ping_reordered

/-- The traffic probe's jitter is an anomaly only when its result comes first. -/
theorem jitter_order_matters :
    ¬ ∀ (results results' : List DiagnosticResult) (targetHost : String),
      Reordered results results' →
        concluded results targetHost = concluded results' targetHost := by
  intro hall
  have hsame := hall _ _ "google.com" Sample.jitter_reordered
  have hlength := congrArg (Option.map fun c => c.2.length) hsame
  revert hlength
  decide +kernel

end NetForge.Analysis
