import NetForge.Core.Result

/-! # Analysis context

`analysis/context.py`: queries over a collection of probe results. A query that
Python evaluates with a comparison or a conversion raises where that does.
-/

namespace NetForge.Analysis

open NetForge.Core Python

structure AnalysisContext where
  results : List DiagnosticResult

namespace AnalysisContext

variable (ctx : AnalysisContext)

def byModule (module : Module) : List DiagnosticResult :=
  ctx.results.filter (·.module = module)

def firstByModule (module : Module) : Option DiagnosticResult := (ctx.byModule module).head?

def metricValues (module : Module) (key : String) : List PyVal :=
  ((ctx.byModule module).map (·.metrics.value key)).filter (!·.isNone)

/-! ## Interface layer -/

def isActiveInterface (r : DiagnosticResult) : Bool :=
  (r.metrics.value "is_up").truthy && !containsText "loopback" (lower (r.target.getD ""))

def hasActiveInterface : Bool := (ctx.byModule .interface).any isActiveInterface

def allInterfacesDown : Bool :=
  !(ctx.byModule .interface).isEmpty && !ctx.hasActiveInterface

/-! ## Routing and gateway layer -/

def defaultGateway : PyVal :=
  match ctx.firstByModule .routing with
  | some routing => routing.metrics.value "default_gateway"
  | none => .none

def hasDefaultGateway : Bool :=
  let gw := ctx.defaultGateway
  gw.truthy && !gw.isStr "None" && !gw.isStr "0.0.0.0"

/-- Whether the gateway answered, or nothing when it was not probed. -/
def isGatewayReachable : Except PyError (Option Bool) :=
  match ctx.firstByModule .gateway with
  | none => .ok none
  | some gw =>
      let loss := gw.metrics.value "packet_loss_percent"
      let lost : Except PyError Bool :=
        if loss.isNone then .ok false else loss.isAtLeast 99
      match gw.status with
      | .healthy => .ok (some true)
      | .failed => do
          let _ ← lost
          return some false
      | .degraded => do return if ← lost then some false else some true
      | .unknown => .ok none

/-! ## IP connectivity layer -/

def isPublicTarget (r : DiagnosticResult) : Bool :=
  r.target = some "1.1.1.1" || r.target = some "8.8.8.8"

def anyPingAnswered : List PyVal → Except PyError Bool
  | [] => .ok false
  | loss :: rest => do
      if ← loss.isBelow 100 then return true else anyPingAnswered rest

def isIpConnectivityWorking : Except PyError Bool :=
  if (ctx.byModule .connectivity).any fun r => isPublicTarget r && r.status = .healthy then
    .ok true
  else anyPingAnswered (ctx.metricValues .packetLoss "packet_loss_percent")

/-! ## DNS layer -/

def isDnsResolutionWorking : Bool :=
  match ctx.firstByModule .dns with
  | some dns => dns.status = .healthy
  | none => false

def getDnsServers : PyVal :=
  match ctx.firstByModule .dns with
  | some dns => dns.metrics.valueOr "dns_servers" (.list [])
  | none => .list []

/-! ## Latency and loss metrics -/

def getMaxPacketLoss : Except PyError PyVal :=
  PyVal.maxOr (.num 0) (ctx.metricValues .packetLoss "packet_loss_percent")

def getAvgPacketLoss : Except PyError Rat :=
  PyVal.mean (ctx.metricValues .packetLoss "packet_loss_percent")

def getAvgLatency : Except PyError Rat :=
  PyVal.mean (((ctx.results.filter fun r =>
    r.module = .latency ∨ r.module = .trafficJitter ∨ r.module = .gateway).map
      (·.metrics.value "avg_ms")).filter (!·.isNone))

def getMaxJitter : Except PyError PyVal :=
  PyVal.maxOr (.num 0) (ctx.metricValues .latency "jitter_ms")

def maxFloat : List Rat → Option Rat
  | [] => none
  | q :: qs => some (qs.foldl max q)

def getJitter (module : Module) : Except PyError (Option Rat) := do
  return maxFloat (← (ctx.metricValues module "jitter_ms").mapM PyVal.float)

def getMaxLinkUtilization : Except PyError Rat := do
  let utils ← (ctx.metricValues .linkUtilization "util_percent").mapM PyVal.float
  return (maxFloat utils).getD 0

def isUnderLoad (r : DiagnosticResult) : Bool :=
  (match r.metrics.value "under_load" with
    | .bool true => true
    | _ => false) || (r.metrics.value "load_phase").isStr "under_load"

def hasConfirmedJitterPattern (thresholdMs : Rat) : Except PyError Bool := do
  let gateway ← ctx.getJitter .gateway
  let latency ← ctx.getJitter .latency
  let endpoint ←
    match latency with
    | some q => if q ≠ 0 then pure (some q) else ctx.getJitter .trafficJitter
    | none => ctx.getJitter .trafficJitter
  match gateway, endpoint with
  | some g, some e =>
      if g < thresholdMs ∨ e < thresholdMs then return false
      else if ctx.results.any isUnderLoad then return true
      else return decide (70 ≤ (← ctx.getMaxLinkUtilization))
  | _, _ => return false

/-! ## Resource and activity layer -/

/-- A number from the resource probe, 0 when it has none. -/
def resourceMetric (key : String) : Except PyError Rat :=
  match ctx.firstByModule .resourceNetwork with
  | none => .ok 0
  | some res =>
      match res.metrics.lookup key with
      | none => .ok 0
      | some v => v.float

def getActiveDropRate : Except PyError Rat := ctx.resourceMetric "active_drops_per_sec"

def getActiveErrorRate : Except PyError Rat := ctx.resourceMetric "active_errors_per_sec"

def getCpuPercent : Except PyError Rat := ctx.resourceMetric "cpu_percent"

def getMemoryPercent : Except PyError Rat := ctx.resourceMetric "memory_percent"

/-! ## Link and path layers -/

def getMaxLinkDropRate : Except PyError Rat := do
  match maxFloat (← (ctx.metricValues .linkErrors "drops_per_sec").mapM PyVal.float) with
  | some rate => return rate
  | none => ctx.getActiveDropRate

def getPathHops : List PyVal :=
  match ctx.firstByModule .traceroute with
  | none => []
  | some path =>
      match path.metrics.value "hops" with
      | .list hops => hops
      | _ => []

def pathChanged : Bool :=
  match ctx.firstByModule .pathChange with
  | none => false
  | some change => (change.metrics.value "changed").truthy

end AnalysisContext

end NetForge.Analysis
