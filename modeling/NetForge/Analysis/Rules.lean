import NetForge.Analysis.Context

/-! # Diagnostic rules

The 23 default rules of `analysis/rules/`, each from an analysis context to at
most one issue, and `build_issue` of their base class. A rule is left by
exception where the source's is. Root causes, evidence lines and recommendations
are texts that no decision reads; they are left out, except that building them
may raise. A title keeps the values put into it.
-/

namespace NetForge.Analysis

open NetForge.Core Python

/-! ## Issues -/

inductive RuleId
  | evidenceAnomaly (index : Nat)
  | allInterfacesDown | activePacketDrops
  | noDefaultGateway | gatewayUnreachable | gatewayHealthyWanOutage | totalInternetOutage
  | dnsFailIpHealthy | dnsTimeout | slowDnsResolution
  | severePacketLoss | highJitterLatency
  | portBlockedFirewall | targetSpecificFailure
  | hostResourceSaturation
  | pathChange | highHopLoss | lastMileVsCore
  | linkSaturation | interfaceErrors
  | elephantFlow | linkCongestionWithPathLoss | suddenDegradation | meshPartition
  deriving DecidableEq, Repr

/-- An issue's title: its template and what is put into it. -/
inductive Title
  | text (title : String)
  | severePacketLoss (average : Rat)
  | portFiltering (ports : List PyVal)
  | destinationOutage (targets : List String)

inductive ConfidenceLevel
  | veryHigh | high | medium | low
  deriving DecidableEq, Repr

def ConfidenceLevel.fromScore (score : Rat) : ConfidenceLevel :=
  if 90 / 100 ≤ score then .veryHigh
  else if 75 / 100 ≤ score then .high
  else if 50 / 100 ≤ score then .medium
  else .low

structure DiagnosedIssue where
  ruleId : RuleId
  title : Title
  severity : Severity
  confidence : Rat
  confidenceLevel : ConfidenceLevel
  suppressedRules : List RuleId

def buildIssue (ruleId : RuleId) (title : Title) (severity : Severity) (confidence : Rat)
    (suppressedRules : List RuleId) : DiagnosedIssue :=
  let boundedConf := max (5 / 100) (min (99 / 100) (roundTo 2 confidence))
  { ruleId, title, severity
    confidence := boundedConf
    confidenceLevel := .fromScore boundedConf
    suppressedRules }

/-- What a rule concludes: an issue, nothing, or an exception. -/
abbrev Finding := Except PyError (Option DiagnosedIssue)

structure DiagnosticRule where
  ruleId : RuleId
  evaluate : AnalysisContext → Finding

namespace Rules

/-! ## Physical link -/

def allInterfacesDown (ctx : AnalysisContext) : Finding :=
  if !ctx.allInterfacesDown then .ok none
  else
    .ok (some (buildIssue .allInterfacesDown
      (.text "Complete Physical Link Disconnection (All Interfaces Down)") .critical (98 / 100)
      [.totalInternetOutage, .noDefaultGateway, .dnsFailIpHealthy, .gatewayUnreachable]))

def activePacketDrops (ctx : AnalysisContext) : Finding := do
  let dropRate ← ctx.getActiveDropRate
  let errRate ← ctx.getActiveErrorRate
  if dropRate < 1 / 2 ∧ errRate < 1 / 2 then return none
  else
    let confidence := if 5 < dropRate ∨ 5 < errRate then 95 / 100 else 85 / 100
    return some (buildIssue .activePacketDrops
      (.text "Active Hardware/Link-Layer Packet Drops Detected") .high confidence [])

/-! ## Routing and gateway -/

def noDefaultGateway (ctx : AnalysisContext) : Finding :=
  if ctx.allInterfacesDown then .ok none
  else if ctx.hasDefaultGateway then .ok none
  else
    .ok (some (buildIssue .noDefaultGateway (.text "Missing Default Gateway Route") .critical
      (96 / 100) [.totalInternetOutage, .dnsFailIpHealthy]))

def gatewayUnreachable (ctx : AnalysisContext) : Finding :=
  if !ctx.hasDefaultGateway then .ok none
  else do
    let reachable ← ctx.isGatewayReachable
    if reachable ≠ some false then return none
    else
      return some (buildIssue .gatewayUnreachable (.text "Default Gateway Unreachable") .critical
        (95 / 100) [.gatewayHealthyWanOutage, .totalInternetOutage, .dnsFailIpHealthy, .dnsTimeout])

def gatewayHealthyWanOutage (ctx : AnalysisContext) : Finding :=
  if !ctx.hasDefaultGateway then .ok none
  else do
    let reachable ← ctx.isGatewayReachable
    if reachable = some false then return none
    else if reachable = none ∧ ctx.allInterfacesDown then return none
    else
      let ipWorking ← ctx.isIpConnectivityWorking
      let maxLoss ← ctx.getMaxPacketLoss
      if ipWorking then return none
      else if ← maxLoss.isAtLeast 99 then
        return some (buildIssue .gatewayHealthyWanOutage
          (.text "Upstream WAN / ISP Outage (Local Gateway Reachable)") .critical
          (if reachable = some true then 94 / 100 else 88 / 100) [.dnsFailIpHealthy, .dnsTimeout])
      else return none

def totalInternetOutage (ctx : AnalysisContext) : Finding :=
  if ctx.allInterfacesDown ∨ !ctx.hasDefaultGateway then .ok none
  else do
    let reachable ← ctx.isGatewayReachable
    if reachable = some false then return none
    else if ← ctx.isIpConnectivityWorking then return none
    else if ← (← ctx.getMaxPacketLoss).isBelow 99 then return none
    else if reachable = some true then return none
    else
      return some (buildIssue .totalInternetOutage (.text "Total Internet Connectivity Outage")
        .critical (90 / 100) [.dnsFailIpHealthy, .dnsTimeout])

/-! ## DNS -/

/-- The evidence line on the configured servers, as far as it raises. -/
def namedServers (ctx : AnalysisContext) : Except PyError Unit :=
  if ctx.getDnsServers.truthy then ctx.getDnsServers.joined else .ok ()

def dnsFailureWithHealthyIp (ctx : AnalysisContext) : Finding :=
  match ctx.firstByModule .dns with
  | none => .ok none
  | some dns =>
      if dns.status = .healthy then .ok none
      else do
        if !(← ctx.isIpConnectivityWorking) then return none
        else
          namedServers ctx
          return some (buildIssue .dnsFailIpHealthy
            (.text "DNS Resolution Failure with Functional IP Transit") .high
            (if ctx.getDnsServers.truthy then 95 / 100 else 90 / 100) [])

def dnsTimeout (ctx : AnalysisContext) : Finding :=
  match ctx.firstByModule .dns with
  | none => .ok none
  | some dns =>
      if dns.status ≠ .failed ∧ dns.status ≠ .unknown then .ok none
      else do
        let errBlob := lower (" ".intercalate (dns.errors ++ [dns.summary]))
        let ipWorking ← ctx.isIpConnectivityWorking
        if !containsText "timeout" errBlob ∧ !containsText "timed out" errBlob then return none
        else if !ipWorking then return none
        else
          namedServers ctx
          return some (buildIssue .dnsTimeout (.text "DNS Resolution Timeout") .high (92 / 100) [])

def slowDnsResolution (ctx : AnalysisContext) : Finding :=
  match ctx.firstByModule .dns with
  | none => .ok none
  | some dns =>
      if dns.status ≠ .healthy then .ok none
      else
        let resTime := dns.metrics.value "resolution_time_ms"
        if resTime.isNone then .ok none
        else do
          if ← resTime.isBelow 180 then return none
          else if 200 < (← ctx.getAvgLatency) then return none
          else
            namedServers ctx
            return some (buildIssue .slowDnsResolution (.text "Sluggish DNS Resolution Latency")
              .medium (85 / 100) [])

/-! ## Internet transit -/

def severePacketLoss (ctx : AnalysisContext) : Finding := do
  let maxLoss ← ctx.getMaxPacketLoss
  let avgLoss ← ctx.getAvgPacketLoss
  if avgLoss < 10 then return none
  else if ← maxLoss.isAtLeast 100 then return none
  else
    let _ ← ctx.getActiveDropRate
    return some (buildIssue .severePacketLoss (.severePacketLoss avgLoss)
      (if 20 ≤ avgLoss then .high else .medium)
      (if 20 ≤ avgLoss then 92 / 100 else 80 / 100) [])

def highJitterLatency (ctx : AnalysisContext) : Finding := do
  let jitter ← ctx.getMaxJitter
  if ← jitter.isBelow 40 then return none
  else if !(← ctx.hasConfirmedJitterPattern 40) then return none
  else if 85 ≤ (← ctx.getCpuPercent) then return none
  else
    return some (buildIssue .highJitterLatency
      (.text "Elevated Network Jitter / Bufferbloat Detected") .medium (85 / 100) [])

/-! ## Firewall and transport -/

def portBlockedByFirewall (ctx : AnalysisContext) : Finding := do
  if !(← ctx.isIpConnectivityWorking) then return none
  else
    let tcpResults := ctx.byModule .tcp
    let failedPorts := tcpResults.filter (·.status = .failed)
    let healthyPorts := tcpResults.filter (·.status = .healthy)
    if failedPorts.isEmpty ∨ healthyPorts.isEmpty then return none
    else
      return some (buildIssue .portBlockedFirewall
        (.portFiltering (failedPorts.map (·.metrics.value "port"))) .high (88 / 100) [])

/-- The recommendation names the first failed target that has a name, and raises
when there is none. -/
def targetSpecificFailure (ctx : AnalysisContext) : Finding :=
  let connResults := ctx.byModule .connectivity
  let failedTargets := connResults.filter (·.status = .failed)
  let healthyTargets := connResults.filter (·.status = .healthy)
  if healthyTargets.any AnalysisContext.isPublicTarget ∧ !failedTargets.isEmpty then do
    let failedNames := (failedTargets.filterMap (·.target)).filter (· ≠ "")
    let _ ← index failedNames 0
    return some (buildIssue .targetSpecificFailure (.destinationOutage failedNames) .high (91 / 100)
      [])
  else .ok none

/-! ## Host resources -/

def hostSaturationBufferbloat (ctx : AnalysisContext) : Finding := do
  let cpu ← ctx.getCpuPercent
  let ram ← ctx.getMemoryPercent
  if cpu < 85 ∧ ram < 90 then return none
  else
    let jitter ← ctx.getMaxJitter
    let _ ← jitter.toNumber
    return some (buildIssue .hostResourceSaturation
      (.text "Host Resource Exhaustion Impacting Network Performance")
      (if 95 ≤ cpu ∨ 95 ≤ ram then .high else .medium)
      (if 90 ≤ cpu ∧ 90 ≤ ram then 92 / 100 else 85 / 100) [])

/-! ## Path -/

/-- IP connectivity works and less than 15 percent are lost end to end. -/
def pathWorksEndToEnd (ctx : AnalysisContext) : Except PyError Bool :=
  both ctx.isIpConnectivityWorking do (← ctx.getMaxPacketLoss).isBelow 15

def pathChange (ctx : AnalysisContext) : Finding :=
  if !ctx.pathChanged then .ok none
  else do
    if ← pathWorksEndToEnd ctx then return none
    else
      return some (buildIssue .pathChange (.text "Forwarding Path Change Detected") .medium
        (72 / 100) [])

/-- `h.get(key) or 0`. -/
def hopMetric (key : String) (h : PyVal) : Except PyError PyVal := do
  return ((← h.asDict).value key).orElse (.num 0)

def isBadHop (h : PyVal) : Except PyError Bool := do
  let loss ← hopMetric "loss_percent" h
  both (loss.isAtLeast 50) do return ((← h.asDict).value "address").truthy

def anyBadHop (hops : List PyVal) : Except PyError Bool := do
  return (← hops.mapM isBadHop).any id

/-- The hops of the trace, or those of the aggregated hop metrics. -/
def tracedHops (ctx : AnalysisContext) : Except PyError (List PyVal) :=
  if !ctx.getPathHops.isEmpty then .ok ctx.getPathHops
  else
    match ctx.firstByModule .hopMetrics with
    | none => .ok []
    | some hopMetrics => (hopMetrics.metrics.valueOr "hops" (.list [])).iterate

def highHopLoss (ctx : AnalysisContext) : Finding := do
  let hops ← tracedHops ctx
  if !(← anyBadHop hops) then return none
  else if ← pathWorksEndToEnd ctx then return none
  else
    return some (buildIssue .highHopLoss (.text "Elevated Packet Loss on Path Hops") .high
      (68 / 100) [])

/-- `max((h.get(key) or 0) for h in hops)`. -/
def maxHopMetric (key : String) (hops : List PyVal) : Except PyError PyVal := do
  PyVal.max (← hops.mapM (hopMetric key))

def lastMileVsCore (ctx : AnalysisContext) : Finding :=
  let hops := ctx.getPathHops
  if hops.length < 3 then .ok none
  else do
    let early := hops.take 2
    let late := hops.drop 2
    let earlyLoss ← maxHopMetric "loss_percent" early
    let lateLoss ← maxHopMetric "loss_percent" late
    let earlyRtt ← maxHopMetric "avg_rtt_ms" early
    let lateRtt ← maxHopMetric "avg_rtt_ms" late
    let lastMile ← both (earlyLoss.isAtLeast 50) (lateLoss.isBelow 30)
    let core ← both (return !lastMile) (both (lateLoss.isAtLeast 50) (both (earlyLoss.isBelow 20)
      do lateRtt.isAbove ((← earlyRtt.toNumber) + 80)))
    if lastMile then
      return some (buildIssue .lastMileVsCore (.text "Likely Last-Mile / Access Path Issue") .high
        (78 / 100) [])
    else if core then
      return some (buildIssue .lastMileVsCore (.text "Likely Core / Transit Path Degradation") .high
        (75 / 100) [])
    else return none

/-! ## Link -/

def comparedUtilizations (ctx : AnalysisContext) : Except PyError Unit := do
  let _ ← (ctx.metricValues .linkUtilization "util_percent").mapM PyVal.toNumber

def linkSaturation (ctx : AnalysisContext) : Finding := do
  let util ← ctx.getMaxLinkUtilization
  if util < 75 then return none
  else
    comparedUtilizations ctx
    return some (buildIssue .linkSaturation (.text "Network Link Near or At Capacity")
      (if 90 ≤ util then .high else .medium) (if 90 ≤ util then 86 / 100 else 78 / 100) [])

def linkErrorRates (r : DiagnosticResult) : Except PyError (Rat × Rat) := do
  let d ← (r.metrics.valueOr "drops_per_sec" (.num 0)).float
  let e ← (r.metrics.valueOr "errors_per_sec" (.num 0)).float
  return (d, e)

def interfaceErrors (ctx : AnalysisContext) : Finding := do
  let dropRate ← ctx.getMaxLinkDropRate
  let rates ← (ctx.byModule .linkErrors).mapM linkErrorRates
  let maxErr := (rates.map (·.2)).foldl max 0
  if dropRate < 1 / 2 ∧ maxErr < 1 / 2 then return none
  else
    return some (buildIssue .interfaceErrors (.text "Active Interface Errors or Drops") .high
      (90 / 100) [.activePacketDrops])

/-! ## Flow, cross-domain, baseline and mesh -/

/-- The evidence line on one elephant flow, as far as it raises. -/
def describedFlow (flow : PyVal) : Except PyError Unit := do
  let _ ← ((← flow.asDict).valueOr "share" (.num 0)).float

def elephantFlow (ctx : AnalysisContext) : Finding :=
  match ctx.firstByModule .flowAnalysis with
  | none => .ok none
  | some flow =>
      let elephants := (flow.metrics.value "elephant_flows").orElse (.list [])
      if !elephants.truthy then .ok none
      else do
        let _ ← ((← elephants.elements).take 5).mapM describedFlow
        return some (buildIssue .elephantFlow (.text "Elephant Flow Dominating Observed Traffic")
          .medium (84 / 100) [])

/-- `any((r.metrics.get("congestion_score") or 0) >= 45 for r in ..)`. -/
def anySevere : List DiagnosticResult → Except PyError Bool
  | [] => .ok false
  | r :: rest => do
      let score := (r.metrics.value "congestion_score").orElse (.num 0)
      if ← score.isAtLeast 45 then return true else anySevere rest

def maxHopLoss (hops : List PyVal) : Except PyError PyVal :=
  if hops.isEmpty then .ok (.num 0) else maxHopMetric "loss_percent" hops

def linkCongestionWithPathLoss (ctx : AnalysisContext) : Finding := do
  let util ← ctx.getMaxLinkUtilization
  let severe ← anySevere (ctx.byModule .linkCongestion)
  if util < 75 ∧ !severe then return none
  else
    let hopLoss ← maxHopLoss ctx.getPathHops
    let e2eLoss ← ctx.getMaxPacketLoss
    if ← both (hopLoss.isBelow 30) (e2eLoss.isBelow 5) then return none
    else
      return some (buildIssue .linkCongestionWithPathLoss
        (.text "Local Link Congestion Correlated with Path Loss") .high (80 / 100) [.highHopLoss])

/-- The ratio of a baseline comparison that counts as a degradation. -/
def degradedRatio (r : DiagnosticResult) : Except PyError (Option Rat) :=
  if !(r.metrics.value "deviated").truthy then .ok none
  else do
    let samples ← ((r.metrics.value "sample_count").orElse (.num 0)).int
    if samples < 5 then return none
    else
      let ratio ← ((r.metrics.value "ratio").orElse (.num 0)).toNumber
      return if 3 / 2 ≤ ratio then some ratio else none

def suddenDegradation (ctx : AnalysisContext) : Finding := do
  let ratios ← (ctx.byModule .baselineDelta).mapM degradedRatio
  match AnalysisContext.maxFloat (ratios.filterMap id) with
  | none => return none
  | some ratio =>
      return some (buildIssue .suddenDegradation
        (.text "Sudden Performance Degradation Relative to Baseline")
        (if 5 / 2 ≤ ratio then .high else .medium) (80 / 100) [])

def meshPartition (ctx : AnalysisContext) : Finding :=
  match ctx.firstByModule .meshSummary with
  | none => .ok none
  | some summary => do
      let failed ← ((summary.metrics.value "failed_count").orElse (.num 0)).int
      let total ← ((summary.metrics.value "target_count").orElse (.num 0)).int
      if total = 0 ∨ failed = 0 then return none
      else if failed = total then
        return some (buildIssue .meshPartition (.text "Total Mesh Reachability Failure") .critical
          (90 / 100) [])
      else
        return some (buildIssue .meshPartition (.text "Partial Mesh Partition") .high (82 / 100) [])

end Rules

open Rules in
def DEFAULT_RULES : List DiagnosticRule :=
  [⟨.allInterfacesDown, allInterfacesDown⟩,
    ⟨.activePacketDrops, activePacketDrops⟩,
    ⟨.noDefaultGateway, noDefaultGateway⟩,
    ⟨.gatewayUnreachable, gatewayUnreachable⟩,
    ⟨.gatewayHealthyWanOutage, gatewayHealthyWanOutage⟩,
    ⟨.totalInternetOutage, totalInternetOutage⟩,
    ⟨.dnsFailIpHealthy, dnsFailureWithHealthyIp⟩,
    ⟨.dnsTimeout, dnsTimeout⟩,
    ⟨.slowDnsResolution, slowDnsResolution⟩,
    ⟨.severePacketLoss, severePacketLoss⟩,
    ⟨.highJitterLatency, highJitterLatency⟩,
    ⟨.portBlockedFirewall, portBlockedByFirewall⟩,
    ⟨.targetSpecificFailure, targetSpecificFailure⟩,
    ⟨.hostResourceSaturation, hostSaturationBufferbloat⟩,
    ⟨.pathChange, pathChange⟩,
    ⟨.highHopLoss, highHopLoss⟩,
    ⟨.lastMileVsCore, lastMileVsCore⟩,
    ⟨.linkSaturation, linkSaturation⟩,
    ⟨.interfaceErrors, interfaceErrors⟩,
    ⟨.elephantFlow, elephantFlow⟩,
    ⟨.linkCongestionWithPathLoss, linkCongestionWithPathLoss⟩,
    ⟨.suddenDegradation, suddenDegradation⟩,
    ⟨.meshPartition, meshPartition⟩]

/-- What holds of each default rule holds of all; each case is called after its rule. -/
theorem default_rule_cases {P : DiagnosticRule → Prop} {rule : DiagnosticRule}
    (h : rule ∈ DEFAULT_RULES)
    (allInterfacesDown : P ⟨.allInterfacesDown, Rules.allInterfacesDown⟩)
    (activePacketDrops : P ⟨.activePacketDrops, Rules.activePacketDrops⟩)
    (noDefaultGateway : P ⟨.noDefaultGateway, Rules.noDefaultGateway⟩)
    (gatewayUnreachable : P ⟨.gatewayUnreachable, Rules.gatewayUnreachable⟩)
    (gatewayHealthyWanOutage : P ⟨.gatewayHealthyWanOutage, Rules.gatewayHealthyWanOutage⟩)
    (totalInternetOutage : P ⟨.totalInternetOutage, Rules.totalInternetOutage⟩)
    (dnsFailureWithHealthyIp : P ⟨.dnsFailIpHealthy, Rules.dnsFailureWithHealthyIp⟩)
    (dnsTimeout : P ⟨.dnsTimeout, Rules.dnsTimeout⟩)
    (slowDnsResolution : P ⟨.slowDnsResolution, Rules.slowDnsResolution⟩)
    (severePacketLoss : P ⟨.severePacketLoss, Rules.severePacketLoss⟩)
    (highJitterLatency : P ⟨.highJitterLatency, Rules.highJitterLatency⟩)
    (portBlockedByFirewall : P ⟨.portBlockedFirewall, Rules.portBlockedByFirewall⟩)
    (targetSpecificFailure : P ⟨.targetSpecificFailure, Rules.targetSpecificFailure⟩)
    (hostSaturationBufferbloat : P ⟨.hostResourceSaturation, Rules.hostSaturationBufferbloat⟩)
    (pathChange : P ⟨.pathChange, Rules.pathChange⟩)
    (highHopLoss : P ⟨.highHopLoss, Rules.highHopLoss⟩)
    (lastMileVsCore : P ⟨.lastMileVsCore, Rules.lastMileVsCore⟩)
    (linkSaturation : P ⟨.linkSaturation, Rules.linkSaturation⟩)
    (interfaceErrors : P ⟨.interfaceErrors, Rules.interfaceErrors⟩)
    (elephantFlow : P ⟨.elephantFlow, Rules.elephantFlow⟩)
    (linkCongestionWithPathLoss : P ⟨.linkCongestionWithPathLoss, Rules.linkCongestionWithPathLoss⟩)
    (suddenDegradation : P ⟨.suddenDegradation, Rules.suddenDegradation⟩)
    (meshPartition : P ⟨.meshPartition, Rules.meshPartition⟩) : P rule := by
  simp only [DEFAULT_RULES, List.mem_cons, List.not_mem_nil, or_false] at h
  rcases h with rfl | rfl | rfl | rfl | rfl | rfl | rfl | rfl | rfl | rfl | rfl | rfl | rfl | rfl |
    rfl | rfl | rfl | rfl | rfl | rfl | rfl | rfl | rfl <;> assumption

end NetForge.Analysis
