import NetForge.Core.Result
import NetForge.Python.Arithmetic
import Mathlib.Data.List.Sort

/-! # Fault localization from several vantage points

The decision of `analysis/multivantage.py`: observations of one probe from
several vantages become a localization, a status, a verdict and a confidence,
with the evidence trail behind them. Report timestamps are left out. The confidence
is computed with floats, so it is one in a given arithmetic.
-/

namespace NetForge.Analysis

open NetForge.Core Python

/-- Role of a vantage. The field is free text in the source; a role outside the
enum sorts with the peers and matches none of the named roles. -/
inductive VantageRole
  | destination | source | third | peer
  | other (name : String)
  deriving DecidableEq, Repr

def VantageRole.value : VantageRole → String
  | .destination => "destination"
  | .source => "source"
  | .third => "third"
  | .peer => "peer"
  | .other name => name

def roleOrder : VantageRole → Nat
  | .destination => 0
  | .source => 1
  | .third => 2
  | .peer => 3
  | .other _ => 3

inductive FaultLocalization
  | healthy | sourceSide | vantageIsolated | targetSide | pathShared | inconclusive
  deriving DecidableEq, Repr

structure VantageObservation where
  agentId : String
  nodeId : Option String
  role : VantageRole
  target : String
  probeType : String
  status : DiagnosticStatus
  evidenceQuality : EvidenceQuality
  confidence : Option Rat
  summary : String
  evidence : List String
  confidence_mem : ∀ c ∈ confidence, 0 ≤ c ∧ c ≤ 1
  deriving DecidableEq

namespace VantageObservation

/-- `node_id or agent_id`. -/
def vantage (o : VantageObservation) : String :=
  match o.nodeId with
  | some n => if n = "" then o.agentId else n
  | none => o.agentId

/-- The model validator: a missing confidence is the grade's own. -/
def deriveConfidence (o : VantageObservation) : VantageObservation :=
  match h : o.confidence with
  | some _ => o
  | none =>
      { o with
        confidence := some o.evidenceQuality.confidence
        confidence_mem := by
          rintro c ⟨⟩
          exact o.evidenceQuality.confidence_mem }

def confidenceOf (o : VantageObservation) : Rat :=
  match o.confidence with
  | some c => c
  | none => o.evidenceQuality.confidence

/-- The sort key order of the observation list: role, then vantage name. -/
def Precedes (a b : VantageObservation) : Prop :=
  roleOrder a.role < roleOrder b.role ∨
    (roleOrder a.role = roleOrder b.role ∧ a.vantage ≤ b.vantage)

instance : DecidableRel Precedes := fun _ _ =>
  inferInstanceAs (Decidable (_ ∨ (_ ∧ _)))

end VantageObservation

/-- One link in the evidence trail leading to the verdict. -/
structure EvidenceStep where
  order : Nat
  vantage : String
  role : String
  observation : String
  status : DiagnosticStatus
  evidenceQuality : EvidenceQuality
  confidence : Rat
  deriving DecidableEq

structure MultiVantageReport where
  diagnosisId : String
  target : String
  serviceId : Option String
  topology : Option String
  localization : FaultLocalization
  status : DiagnosticStatus
  verdict : String
  confidence : Rat
  vantageCount : Nat
  reachableCount : Nat
  failedCount : Nat
  degradedCount : Nat
  agentErrors : List (String × String)
  observations : List VantageObservation
  evidenceTrail : List EvidenceStep
  deriving DecidableEq

def clamp (A : Arithmetic) (value : Rat) : Rat :=
  max (A.round (5 / 100)) (min (A.round (99 / 100)) (A.round (roundTo 2 value)))

def verdict (localization : FaultLocalization) (target : String)
    (dest : Option VantageObservation) (unreach : List VantageObservation)
    (vantageCount : Nat) : String :=
  let failedNames := ", ".intercalate (unreach.map (·.vantage))
  match localization with
  | .healthy =>
      s!"{target} is reachable from all {vantageCount} vantage point(s); no fault localized."
  | .targetSide =>
      match dest.filter (·.status = .failed) with
      | some d =>
          s!"{target} is unreachable even from its own host agent ({d.vantage}) and from " ++
          s!"{unreach.length} vantage(s) total — fault localized to the target/service itself."
      | none =>
          s!"{target} is unreachable from all {vantageCount} vantage points with no " ++
          "destination-local agent to confirm; the target/service is the most likely common " ++
          "cause (a broad upstream event cannot be ruled out without a control probe)."
  | .sourceSide =>
      s!"{target} is reachable from other vantage(s) but not from the source ({failedNames}) — " ++
      "fault localized to the source host or its access path, not the target."
  | .vantageIsolated =>
      s!"{target} is reachable from most vantage(s); only {failedNames} fails — isolated " ++
      "vantage/access issue rather than a target or shared-path fault."
  | .pathShared =>
      s!"{target} responds but is unreachable/degraded from multiple vantage(s) " ++
      s!"({failedNames}) — fault localized to the shared network path or target-side inbound " ++
      "filtering (ACL/firewall)."
  | .inconclusive =>
      s!"Insufficient or conflicting vantage evidence to localize a fault for {target}."

def decideFault (dest source third : Option VantageObservation)
    (unreach degrad reachable allObs : List VantageObservation) (vantageCount : Nat) :
    FaultLocalization × Rat × List VantageObservation :=
  match unreach, degrad with
  | [], [] => (.healthy, 90 / 100, allObs)
  | [], [only] =>
      (if only.role = .source then .sourceSide else .vantageIsolated, 60 / 100, degrad)
  | [], _ :: _ :: _ => (.pathShared, 60 / 100, degrad)
  | _ :: _, _ =>
      match dest.filter (·.status = .failed), dest.filter (·.status = .healthy) with
      | some d, _ => (.targetSide, 90 / 100, d :: unreach)
      | none, some d =>
          match source.filter (·.status = .failed), third.filter (·.status = .failed) with
          | some s, some t => (.pathShared, 75 / 100, [d, s, t])
          | some s, none => (.sourceSide, 82 / 100, [d, s] ++ third.toList)
          | none, some t => (.vantageIsolated, 78 / 100, [d, t])
          | none, none =>
              (if 1 < unreach.length then .pathShared else .vantageIsolated, 70 / 100, d :: unreach)
      | none, none =>
          -- No destination-local ground truth: reason from the external vantages.
          if unreach.length = vantageCount then (.targetSide, 60 / 100, unreach)
          else
            match unreach with
            | [only] =>
                (if only.role = .source then .sourceSide else .vantageIsolated, 72 / 100, allObs)
            | _ => (.pathShared, 65 / 100, unreach ++ reachable)

def overallStatus (localization : FaultLocalization)
    (unreach degrad : List VantageObservation) : DiagnosticStatus :=
  match localization with
  | .healthy => .healthy
  | .inconclusive => .unknown
  | _ =>
      if unreach ≠ [] then .failed
      else if degrad ≠ [] then .degraded
      else .unknown

def trailStep (A : Arithmetic) (idx : Nat) (o : VantageObservation) : EvidenceStep where
  order := idx
  vantage := o.vantage
  role := o.role.value
  observation :=
    match o.evidence with
    | [] => o.summary
    | first :: _ => if o.summary = "" then first else s!"{o.summary} | {first}"
  status := o.status
  evidenceQuality := o.evidenceQuality
  confidence := A.round (roundTo 2 o.confidenceOf)

def buildTrail (A : Arithmetic) (obsSorted : List VantageObservation) (verdict : String)
    (status : DiagnosticStatus) (confidence : Rat) (vantageCount : Nat) : List EvidenceStep :=
  obsSorted.mapIdx (fun i o => trailStep A (i + 1) o) ++
    [{ order := obsSorted.length + 1
       vantage := "controller"
       role := "verdict"
       observation := verdict
       status := status
       evidenceQuality := if 2 ≤ vantageCount then .corroborated else .singleSource
       confidence := confidence }]

/-- Mean confidence of the driving observations; `0.5` when there is none. -/
def evidenceFactor (A : Arithmetic) (drivers : List VantageObservation) : Rat :=
  if drivers = [] then 1 / 2
  else A.round (A.sum (drivers.map (·.confidenceOf)) / drivers.length)

/-- `_clamp(base_conf * (0.6 + 0.4 * evidence_factor))`. -/
def confidenceOn (A : Arithmetic) (baseConf : Rat) (drivers : List VantageObservation) : Rat :=
  let weight := A.round (A.round (40 / 100) * evidenceFactor A drivers)
  clamp A (A.round (A.round baseConf * A.round (A.round (60 / 100) + weight)))

def withStatus (status : DiagnosticStatus) (obs : List VantageObservation) :
    List VantageObservation := obs.filter (·.status = status)

def firstWithRole (role : VantageRole) (obs : List VantageObservation) :
    Option VantageObservation := obs.find? (·.role = role)

def sortObservations (obs : List VantageObservation) : List VantageObservation :=
  obs.insertionSort VantageObservation.Precedes

/-- `localize_fault` in a given arithmetic. `diagnosisId` is the identifier the report's
default factory generates. -/
def localizeFaultIn (A : Arithmetic) (observations : List VantageObservation) (target : String)
    (serviceId topology : Option String) (agentErrors : List (String × String))
    (diagnosisId : String) : MultiVantageReport :=
  let obsSorted := sortObservations observations
  let vantageCount := obsSorted.length
  if vantageCount = 0 then
    { diagnosisId, target, serviceId, topology
      localization := .inconclusive
      status := .unknown
      verdict := verdict .inconclusive target none [] 0
      confidence := A.round (5 / 100)
      vantageCount := 0
      reachableCount := 0
      failedCount := 0
      degradedCount := 0
      agentErrors
      observations := []
      evidenceTrail :=
        [{ order := 1
           vantage := "controller"
           role := "verdict"
           observation := "No vantage observations were collected."
           status := .unknown
           evidenceQuality := .unknown
           confidence := A.round (5 / 100) }] }
  else
    let dest := firstWithRole .destination obsSorted
    let source := firstWithRole .source obsSorted
    let third := firstWithRole .third obsSorted
    let unreach := withStatus .failed obsSorted
    let degrad := withStatus .degraded obsSorted
    let reachable := withStatus .healthy obsSorted
    let (localization, baseConf, drivers) :=
      decideFault dest source third unreach degrad reachable obsSorted vantageCount
    let confidence := confidenceOn A baseConf drivers
    let status := overallStatus localization unreach degrad
    let verdictText := verdict localization target dest unreach vantageCount
    { diagnosisId, target, serviceId, topology, localization, status
      verdict := verdictText
      confidence
      vantageCount
      reachableCount := reachable.length
      failedCount := unreach.length
      degradedCount := degrad.length
      agentErrors
      observations := obsSorted
      evidenceTrail := buildTrail A obsSorted verdictText status confidence vantageCount }

/-- `localize_fault`, its confidence in exact arithmetic. -/
def localizeFault (observations : List VantageObservation) (target : String)
    (serviceId topology : Option String) (agentErrors : List (String × String))
    (diagnosisId : String) : MultiVantageReport :=
  localizeFaultIn .exact observations target serviceId topology agentErrors diagnosisId

/-! ## When no fault is localized -/

@[simp] theorem mem_sortObservations {obs : List VantageObservation} {o : VantageObservation} :
    o ∈ sortObservations obs ↔ o ∈ obs := List.mem_insertionSort _

theorem withStatus_eq_nil {status : DiagnosticStatus} {obs : List VantageObservation} :
    withStatus status obs = [] ↔ ∀ o ∈ obs, o.status ≠ status := by
  simp [withStatus, List.filter_eq_nil_iff]

theorem decideFault_eq_healthy (dest source third : Option VantageObservation)
    (unreach degrad reachable allObs : List VantageObservation) (vantageCount : Nat) :
    (decideFault dest source third unreach degrad reachable allObs vantageCount).1 = .healthy ↔
      unreach = [] ∧ degrad = [] := by
  unfold decideFault
  cases unreach with
  | nil =>
      match degrad with
      | [] => simp
      | [only] => by_cases h : only.role = .source <;> simp [h]
      | _ :: _ :: _ => simp
  | cons u us =>
      simp only [reduceCtorEq, false_and, iff_false]
      repeat' split
      all_goals simp

theorem localizeFault_eq_healthy (observations : List VantageObservation) (target : String)
    (serviceId topology : Option String) (agentErrors : List (String × String))
    (diagnosisId : String) :
    (localizeFault observations target serviceId topology agentErrors diagnosisId).localization =
        .healthy ↔
      observations ≠ [] ∧ ∀ o ∈ observations, o.status ≠ .failed ∧ o.status ≠ .degraded := by
  have hlen : (sortObservations observations).length = 0 ↔ observations = [] := by
    rw [sortObservations, List.length_insertionSort, List.length_eq_zero_iff]
  unfold localizeFault localizeFaultIn
  by_cases hnil : observations = []
  · rw [if_pos (hlen.mpr hnil)]
    simp [hnil]
  · rw [if_neg fun h => hnil (hlen.mp h)]
    refine (decideFault_eq_healthy _ _ _ _ _ _ _ _).trans ?_
    simp only [withStatus_eq_nil, mem_sortObservations, ne_eq, hnil, not_false_eq_true, true_and]
    exact ⟨fun h o ho => ⟨h.1 o ho, h.2 o ho⟩,
      fun h => ⟨fun o ho => (h o ho).1, fun o ho => (h o ho).2⟩⟩

end NetForge.Analysis
