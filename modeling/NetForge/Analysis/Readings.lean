import NetForge.Analysis.Rules
import NetForge.Calculus.Raising
import NetForge.Calculus.Returning

/-! # What the queries read

The queries of the analysis context in terms of the results they ask: which
modules, which statuses, which metrics. A largest value is never computed here; it
reaches a bound where all values can be read and one of them does.
-/

namespace NetForge.Analysis

open NetForge.Core Python Calculus

/-! ## Largest values -/

section Largest

variable {α : Type} {read : α → Except PyError Rat} {bound : Rat} {xs : List α}

/-- All of `xs` can be read, and one reaches the bound. -/
def Peaks (read : α → Except PyError Rat) (bound : Rat) (xs : List α) : Prop :=
  (∀ x ∈ xs, Finishes (read x)) ∧ ∃ x ∈ xs, Returns (read x) (bound ≤ ·)

/-- All of `xs` can be read, and none reaches the bound. -/
def StaysBelow (read : α → Except PyError Rat) (bound : Rat) (xs : List α) : Prop :=
  ∀ x ∈ xs, Returns (read x) (· < bound)

theorem foldl_max_lt_iff {first bound : Rat} {qs : List Rat} :
    qs.foldl max first < bound ↔ first < bound ∧ ∀ q ∈ qs, q < bound := by
  induction qs generalizing first with
  | nil => simp
  | cons q qs ih =>
      rw [List.foldl_cons, ih, max_lt_iff]
      simp only [List.mem_cons, forall_eq_or_imp]
      exact and_assoc

theorem maxFloat_mem {qs : List Rat} {m : Rat} (h : AnalysisContext.maxFloat qs = some m) :
    m ∈ qs := by
  cases qs with
  | nil => cases h
  | cons q qs =>
      cases h
      induction qs generalizing q with
      | nil => exact List.mem_singleton.mpr rfl
      | cons p qs ih =>
          rw [List.foldl_cons]
          rcases List.mem_cons.mp (ih (max q p)) with hm | hm
          · rw [hm]
            rcases max_choice q p with hq | hp
            · simp [hq]
            · simp [hp]
          · exact List.mem_cons_of_mem _ (List.mem_cons_of_mem _ hm)

end Largest

/-! ## Largest numbers -/

section Comparison

variable {v : PyVal} {bound : Rat} {r : Bool → Prop}

end Comparison

/-! ## Interfaces and gateway -/

namespace AnalysisContext

variable {ctx : AnalysisContext}

def Disconnected (ctx : AnalysisContext) : Prop :=
  ctx.byModule .interface ≠ [] ∧ ∀ r ∈ ctx.byModule .interface, isActiveInterface r = false

theorem allInterfacesDown_iff : ctx.allInterfacesDown = true ↔ ctx.Disconnected := by
  simp [allInterfacesDown, hasActiveInterface, Disconnected]

def Routed (ctx : AnalysisContext) : Prop :=
  ∃ routing, ctx.firstByModule .routing = some routing ∧
    let gateway := routing.metrics.value "default_gateway"
    gateway.truthy = true ∧ gateway.isStr "None" = false ∧ gateway.isStr "0.0.0.0" = false

theorem hasDefaultGateway_iff : ctx.hasDefaultGateway = true ↔ ctx.Routed := by
  unfold hasDefaultGateway defaultGateway Routed
  cases ctx.firstByModule .routing with
  | none => simp [PyVal.truthy]
  | some routing => simp [and_assoc]

def gatewayLoss (gateway : DiagnosticResult) : PyVal :=
  gateway.metrics.value "packet_loss_percent"

/-- The first gateway result failed, or lost nearly every ping. -/
def GatewayDown (ctx : AnalysisContext) : Prop :=
  ∃ gateway, ctx.firstByModule .gateway = some gateway ∧
    (gateway.status = .failed ∧
        ((gatewayLoss gateway).isNone = true ∨ Finishes (gatewayLoss gateway).toNumber) ∨
      gateway.status = .degraded ∧ Returns (gatewayLoss gateway).toNumber (99 ≤ ·))

def GatewayUp (ctx : AnalysisContext) : Prop :=
  ∃ gateway, ctx.firstByModule .gateway = some gateway ∧
    (gateway.status = .healthy ∨
      gateway.status = .degraded ∧
        ((gatewayLoss gateway).isNone = true ∨ Returns (gatewayLoss gateway).toNumber (· < 99)))

/-- The gateway was not probed, or its probe says nothing. -/
def GatewayUnjudged (ctx : AnalysisContext) : Prop :=
  ∀ gateway, ctx.firstByModule .gateway = some gateway → gateway.status = .unknown

def pingLosses (ctx : AnalysisContext) : List PyVal :=
  ctx.metricValues .packetLoss "packet_loss_percent"

def PublicHealthy (ctx : AnalysisContext) : Prop :=
  ∃ r ∈ ctx.byModule .connectivity, isPublicTarget r = true ∧ r.status = .healthy

/-- A public address answers, or the first ping result that does not lose everything
loses less. -/
def Reaches (ctx : AnalysisContext) : Prop :=
  ctx.PublicHealthy ∨ FirstHit (·.isBelow 100) ctx.pingLosses

def Unreached (ctx : AnalysisContext) : Prop :=
  ¬ ctx.PublicHealthy ∧ ∀ loss ∈ ctx.pingLosses, Returns loss.toNumber (100 ≤ ·)

/-- Nothing outside is reached, or at least 15 percent of some pings are lost. -/
def PathBroken (ctx : AnalysisContext) : Prop :=
  ctx.Unreached ∨ ctx.Reaches ∧ Peaks PyVal.toNumber 15 ctx.pingLosses

/-- A number of the resource probe, zero when it has none. -/
def resourceValue (ctx : AnalysisContext) (key : String) : PyVal :=
  match ctx.firstByModule .resourceNetwork with
  | none => .num 0
  | some resource => resource.metrics.valueOr key (.num 0)

def linkUtilizations (ctx : AnalysisContext) : List PyVal :=
  ctx.metricValues .linkUtilization "util_percent"

def latencyJitters (ctx : AnalysisContext) : List PyVal := ctx.metricValues .latency "jitter_ms"

def linkDropRates (ctx : AnalysisContext) : List PyVal :=
  ctx.metricValues .linkErrors "drops_per_sec"

def congestionScore (r : DiagnosticResult) : PyVal :=
  (r.metrics.value "congestion_score").orElse (.num 0)

end AnalysisContext

/-! ## Hops -/

/-- A measurement of a hop, zero when it is missing. -/
def hopNumber (key : String) (hop : PyVal) : Except PyError Rat := do
  (← Rules.hopMetric key hop).toNumber

abbrev hopLoss : PyVal → Except PyError Rat := hopNumber "loss_percent"

abbrev hopRtt : PyVal → Except PyError Rat := hopNumber "avg_rtt_ms"

def Addressed (hop : PyVal) : Prop := ∃ fields, hop = .dict fields ∧
  (Dict.value fields "address").truthy = true

/-- The losses of all hops can be read, and one hop with an address loses half. -/
def HasBadHop (hops : List PyVal) : Prop :=
  (∀ hop ∈ hops, Finishes (hopLoss hop)) ∧
    ∃ hop ∈ hops, Addressed hop ∧ Returns (hopLoss hop) (50 ≤ ·)

section MaxHop

variable {key : String} {bound : Rat} {hops : List PyVal}

end MaxHop

end NetForge.Analysis
