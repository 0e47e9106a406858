import NetForge.Controller.Service

/-! # Operations of the controller

The requests the controller serves, each the program of its service method, and
the parts of the store each one can write. What an operation does to the alert
and incident tables is decided by the few calls that save a row there.
-/

namespace NetForge.Controller

open Calculus NetForge.Core Analysis

inductive Resource
  | agents | topologies | services | diagnoses | schedules | alertRules | alerts | incidents
  | history | identifiers | network | clock | jobs | bindings
  deriving DecidableEq, Repr

/-- What a call changes. A snapshot of the schedules counts as well: no other method
than a scheduling pass takes one. -/
def StoreCall.touches : StoreCall → Option Resource
  | .uuid4 => some .identifiers
  | .time => some .clock
  | .upsertAgent _ | .markSeen _ => some .agents
  | .saveTopology _ => some .topologies
  | .upsertService _ => some .services
  | .fanout _ _ => some .network
  | .saveDiagnosis _ => some .diagnoses
  | .upsertSchedule _ | .listSchedules _ | .deleteSchedule _ => some .schedules
  | .upsertAlertRule _ | .deleteAlertRule _ => some .alertRules
  | .saveAlert _ => some .alerts
  | .saveIncident _ => some .incidents
  | .saveSnapshot _ _ _ _ => some .history
  | .saveJob _ => some .jobs
  | .replaceBindings _ _ => some .bindings
  | _ => none

def StoreCall.savedAlert : StoreCall → Option Alert
  | .saveAlert alert => some alert
  | _ => none

def StoreCall.savedIncident : StoreCall → Option Incident
  | .saveIncident incident => some incident
  | _ => none

/-! ## Frames -/

theorem perform_alerts {c : StoreCall} (h : c.touches ≠ some .alerts) (w : World) :
    (perform c w).2.store.alerts = w.store.alerts := by
  cases c with
  | saveAlert a => exact absurd rfl h
  | fanout agents probe => simp only [perform]; split <;> rfl
  | _ => rfl

theorem perform_incidents {c : StoreCall} (h : c.touches ≠ some .incidents) (w : World) :
    (perform c w).2.store.incidents = w.store.incidents := by
  cases c with
  | saveIncident i => exact absurd rfl h
  | fanout agents probe => simp only [perform]; split <;> rfl
  | _ => rfl

@[simp] theorem perform_uuid (c : StoreCall) (w : World) : (perform c w).2.uuid = w.uuid := by
  cases c with
  | fanout agents probe => simp only [perform]; split <;> rfl
  | _ => rfl

theorem issued_le_perform (c : StoreCall) (w : World) : w.issued ≤ (perform c w).2.issued := by
  cases c with
  | uuid4 => exact Nat.le_succ _
  | fanout agents probe => simp only [perform]; split <;> exact le_rfl
  | _ => exact le_rfl

/-! ## Which methods touch what -/

def Within (resources : List Resource) (c : StoreCall) : Prop :=
  ∀ r, c.touches = some r → r ∈ resources

theorem Within.of_none {resources : List Resource} {c : StoreCall} (h : c.touches = none) :
    Within resources c := by
  intro r hr
  rw [h] at hr
  contradiction

theorem Within.of_mem {resources : List Resource} {c : StoreCall} {r : Resource}
    (h : c.touches = some r) (hr : r ∈ resources) : Within resources c := by
  intro q hq
  rw [h, Option.some.injEq] at hq
  exact hq ▸ hr

theorem Within.mono {a b : List Resource} (h : a ⊆ b) {c : StoreCall} (hc : Within a c) :
    Within b c := fun r hr => h (hc r hr)

def Confined {α : Type} (resources : List Resource) (p : Method α) : Prop :=
  p.Calls (Within resources)

namespace Confined

variable {α β : Type} {resources : List Resource}

theorem pure (a : α) : Confined resources (Program.done a) := trivial

theorem read {c : StoreCall} {f : c.Reply → Method α} (hc : c.touches = none)
    (hf : ∀ r, Confined resources (f r)) : Confined resources (call c >>= f) :=
  Program.calls_request_bind.mpr ⟨.of_none hc, hf⟩

theorem write {c : StoreCall} {f : c.Reply → Method α} {r : Resource} (hc : c.touches = some r)
    (hr : r ∈ resources) (hf : ∀ r, Confined resources (f r)) :
    Confined resources (call c >>= f) :=
  Program.calls_request_bind.mpr ⟨.of_mem hc hr, hf⟩

theorem mono {sub : List Resource} {p : Method α} (hp : Confined sub p)
    (hsub : sub ⊆ resources) : Confined resources p :=
  Program.Calls.mono hp fun _ => Within.mono hsub

theorem bind {sub : List Resource} {p : Method α} {f : α → Method β} (hp : Confined sub p)
    (hsub : sub ⊆ resources) (hf : ∀ a, Confined resources (f a)) :
    Confined resources (p >>= f) :=
  Program.Calls.bind (hp.mono hsub) hf

theorem fold {body : β → α → Method β} (h : ∀ acc x, Confined resources (body acc x))
    (acc : β) (xs : List α) : Confined resources (Program.fold body acc xs) :=
  Program.Calls.fold h acc xs

end Confined

theorem registerAgent_confined (registration : AgentRegistration) :
    Confined [.agents] (registerAgent registration) := .write rfl (by simp) fun _ => .pure _

theorem importTopology_confined (topology : NetworkTopology) :
    Confined [.topologies] (importTopology topology) := .write rfl (by simp) fun _ => .pure _

theorem getTopology_confined (name : String) : Confined [] (getTopology name) := by
  refine .read rfl fun found => ?_
  cases found <;> exact .pure _

theorem resolveTopology_confined (name : Option String) : Confined [] (resolveTopology name) := by
  cases name with
  | some name =>
      refine (getTopology_confined name).bind (by simp) fun found => ?_
      cases found <;> exact .pure _
  | none =>
      refine .read rfl fun names => ?_
      split
      · exact .read rfl fun _ => .pure _
      · exact .pure _

theorem registerServices_confined (inventory : ServiceInventory) (topologyName : Option String) :
    Confined [.services] (registerServices inventory topologyName) := by
  refine (resolveTopology_confined topologyName).bind (by simp) fun found => ?_
  split
  · exact .pure _
  · split
    · exact .pure _
    · exact (Confined.fold (fun _ _ => .write rfl (by simp) fun _ => .pure _) _ _).bind
        (List.Subset.refl _) fun _ => .pure _

theorem correlateAgents_confined (name : String) : Confined [] (correlateAgents name) := by
  refine (getTopology_confined name).bind (by simp) fun found => ?_
  cases found with
  | error e => exact .pure _
  | ok topology => exact .read rfl fun _ => .pure _

theorem topologyContaining_confined (nodeId : Option String) (names : List String) :
    Confined [] (topologyContaining nodeId names) := by
  induction names with
  | nil => exact .pure _
  | cons candidate rest ih =>
      refine .read rfl fun found => ?_
      split
      · exact ih
      · split
        · exact .pure _
        · exact ih

theorem topologyForService_confined (service : ServiceEndpoint) (name : Option String) :
    Confined [] (topologyForService service name) := by
  cases name with
  | some name => exact getTopology_confined name
  | none =>
      refine .read rfl fun names => ?_
      refine (topologyContaining_confined service.nodeId names).bind (by simp) fun found => ?_
      split
      · exact .pure _
      · refine .read rfl fun names => ?_
        split
        · refine .read rfl fun found => ?_
          split <;> exact .pure _
        · exact .pure _

theorem planAgents_confined (plan : List VantageAssignment) : Confined [] (planAgents plan) := by
  induction plan with
  | nil => exact .pure _
  | cons a rest ih => exact .read rfl fun _ => ih.bind (by simp) fun _ => .pure _

theorem diagnoseService_confined (request : DiagnosisRequest) :
    Confined [.identifiers, .network, .diagnoses] (diagnoseService request) := by
  refine .read rfl fun found => ?_
  split
  · exact .pure _
  · refine (topologyForService_confined _ request.topology).bind (by simp) fun found => ?_
    split
    · exact .pure _
    · refine (correlateAgents_confined _).bind (by simp) fun found => ?_
      split
      · exact .pure _
      · simp only
        split
        · exact .pure _
        · refine (planAgents_confined _).bind (by simp) fun agents => ?_
          refine .write rfl (by simp) fun result => ?_
          split
          · exact .pure _
          · exact .write rfl (by simp) fun _ => .write rfl (by simp) fun _ => .pure _

theorem recordServiceBaseline_confined (report : MultiVantageReport) :
    Confined [.history] (recordServiceBaseline report) :=
  .bind (.read rfl fun _ => .write rfl (by simp) fun _ => .pure _) (List.Subset.refl _)
    fun _ => .pure _

theorem fireRule_confined (rule : AlertRule) (report : MultiVantageReport) (now : Rat)
    (regression : Bool) :
    Confined [.identifiers, .alerts] (fireRule rule report now regression) := by
  refine .read rfl fun found => ?_
  split
  · exact .write rfl (by simp) fun _ => .pure _
  · exact .write rfl (by simp) fun _ => .write rfl (by simp) fun _ => .pure _

theorem attachToIncident_confined (alert : Alert) (report : MultiVantageReport) (now : Rat) :
    Confined [.identifiers, .incidents] (attachToIncident alert report now) := by
  refine .read rfl fun found => ?_
  split
  · exact .write rfl (by simp) fun _ => .write rfl (by simp) fun _ => .pure _
  · exact .write rfl (by simp) fun _ => .pure _

theorem resolveService_confined (serviceId : Option String) (now : Rat) :
    Confined [.alerts, .incidents] (resolveService serviceId now) := by
  refine .read rfl fun firing => ?_
  refine (Confined.fold (fun _ _ => .write rfl (by simp) fun _ => .pure _) _ _).bind
    (List.Subset.refl _) fun _ => ?_
  refine .read rfl fun incidents => .fold (fun resolved incident => ?_) _ _
  split
  · exact .write rfl (by simp) fun _ => .pure _
  · exact .pure _

theorem processDiagnosis_confined (report : MultiVantageReport) (now : Rat) :
    Confined [.history, .identifiers, .alerts, .incidents] (processDiagnosis report now) := by
  refine (recordServiceBaseline_confined report).bind (by simp) fun regression => ?_
  split
  · exact (resolveService_confined _ now).bind (by simp) fun _ => .pure _
  · refine .read rfl fun rules => .fold (fun outcome rule => ?_) _ _
    refine (fireRule_confined rule report now _).bind (by simp) fun alert => ?_
    exact (attachToIncident_confined alert report now).bind (by simp) fun _ => .pure _

theorem createSchedule_confined (schedule : ScheduleEntry) (now : Rat) :
    Confined [.schedules] (createSchedule schedule now) := by
  refine .read rfl fun found => ?_
  split
  · exact .pure _
  · exact .write rfl (by simp) fun _ => .pure _

theorem deleteSchedule_confined (scheduleId : String) :
    Confined [.schedules] (deleteSchedule scheduleId) := by
  refine .write rfl (by simp) fun found => ?_
  split <;> exact .pure _

theorem registerAlertRule_confined (rule : AlertRule) :
    Confined [.alertRules] (registerAlertRule rule) := by
  unfold registerAlertRule
  split
  · exact .write rfl (by simp) fun _ => .pure _
  · refine .read rfl fun found => ?_
    split
    · exact .pure _
    · exact .write rfl (by simp) fun _ => .pure _

theorem deleteAlertRule_confined (ruleId : String) :
    Confined [.alertRules] (deleteAlertRule ruleId) := by
  refine .write rfl (by simp) fun found => ?_
  split <;> exact .pure _

/-! ## Operations and their sequential runs -/

inductive Operation
  | registerAgent (registration : AgentRegistration)
  | importTopology (topology : NetworkTopology)
  | registerServices (inventory : ServiceInventory) (topologyName : Option String)
  | diagnoseService (request : DiagnosisRequest)
  | createSchedule (schedule : ScheduleEntry) (now : Rat)
  | deleteSchedule (scheduleId : String)
  | runDueSchedules (now : Rat)
  | registerAlertRule (rule : AlertRule)
  | deleteAlertRule (ruleId : String)
  | processDiagnosis (report : MultiVantageReport) (now : Rat)
  | acknowledgeIncident (incidentId : String) (now : Rat)
  | resolveIncident (incidentId : String) (now : Rat)

def discard {α : Type} (p : Method α) : Method Unit := p >>= fun _ => pure ()

def Operation.method : Operation → Method Unit
  | .registerAgent registration => discard (Controller.registerAgent registration)
  | .importTopology topology => discard (Controller.importTopology topology)
  | .registerServices inventory name => discard (Controller.registerServices inventory name)
  | .diagnoseService request => discard (Controller.diagnoseService request)
  | .createSchedule schedule now => discard (Controller.createSchedule schedule now)
  | .deleteSchedule scheduleId => discard (Controller.deleteSchedule scheduleId)
  | .runDueSchedules now => discard (Controller.runDueSchedules now)
  | .registerAlertRule rule => discard (Controller.registerAlertRule rule)
  | .deleteAlertRule ruleId => discard (Controller.deleteAlertRule ruleId)
  | .processDiagnosis report now => discard (Controller.processDiagnosis report now)
  | .acknowledgeIncident incidentId now => discard (Controller.acknowledgeIncident incidentId now)
  | .resolveIncident incidentId now => discard (Controller.resolveIncident incidentId now)

/-- All operations but passes, diagnoses and the two edits of an incident. -/
def Operation.isQuiet : Operation → Bool
  | .runDueSchedules _ => false
  | .processDiagnosis _ _ => false
  | .acknowledgeIncident _ _ => false
  | .resolveIncident _ _ => false
  | _ => true

/-- What is left without alerts, incidents and the history of the probes. -/
def quietResources : List Resource :=
  [.agents, .topologies, .services, .identifiers, .network, .diagnoses, .schedules, .alertRules]

theorem Operation.quiet_confined {op : Operation} (h : op.isQuiet = true) :
    ∃ (α : Type) (p : Method α), op.method = discard p ∧ Confined quietResources p := by
  cases op with
  | registerAgent registration =>
      exact ⟨_, _, rfl, (registerAgent_confined registration).mono (by decide)⟩
  | importTopology topology =>
      exact ⟨_, _, rfl, (importTopology_confined topology).mono (by decide)⟩
  | registerServices inventory name =>
      exact ⟨_, _, rfl, (registerServices_confined inventory name).mono (by decide)⟩
  | diagnoseService request =>
      exact ⟨_, _, rfl, (diagnoseService_confined request).mono (by decide)⟩
  | createSchedule schedule now =>
      exact ⟨_, _, rfl, (createSchedule_confined schedule now).mono (by decide)⟩
  | deleteSchedule scheduleId =>
      exact ⟨_, _, rfl, (deleteSchedule_confined scheduleId).mono (by decide)⟩
  | registerAlertRule rule =>
      exact ⟨_, _, rfl, (registerAlertRule_confined rule).mono (by decide)⟩
  | deleteAlertRule ruleId =>
      exact ⟨_, _, rfl, (deleteAlertRule_confined ruleId).mono (by decide)⟩
  | runDueSchedules now => cases h
  | processDiagnosis report now => cases h
  | acknowledgeIncident incidentId now => cases h
  | resolveIncident incidentId now => cases h

def runOperations (w : World) (ops : List Operation) : World :=
  ops.foldl (fun w op => (op.method.run w).2) w

theorem runOperations_append (w : World) (ops later : List Operation) :
    runOperations w (ops ++ later) = runOperations (runOperations w ops) later :=
  List.foldl_append

/-- Before the first operation the store is empty; identifiers never repeat. -/
structure World.Initial (w : World) : Prop where
  store : w.store = .empty
  uuid : Function.Injective w.uuid

/-! ## A small installation

One rule that fires on every unhealthy report, and the reports of one failed and
one healthy vantage.
-/

namespace Sample

def world : World where
  store := .empty
  history := []
  clock := fun _ => 0
  readings := 0
  uuid := fun k => String.ofList (List.replicate (k + 1) 'u')
  issued := 0
  network := fun _ _ _ => ⟨[], []⟩
  fanouts := 0

theorem world_initial : world.Initial where
  store := rfl
  uuid := by
    intro j k h
    have lists : List.replicate (j + 1) 'u' = List.replicate (k + 1) 'u' :=
      String.ofList_injective h
    simpa using congrArg List.length lists

def rule : AlertRule where
  ruleId := "r1"
  name := "any outage"
  serviceId := none
  fireOnLocalizations := []
  minConfidence := 0
  severity := .high
  enabled := true
  minConfidence_mem := by decide +kernel

def observation (status : DiagnosticStatus) : VantageObservation where
  agentId := "a1"
  nodeId := none
  role := .source
  target := "10.0.0.1"
  probeType := "icmp"
  status := status
  evidenceQuality := .verified
  confidence := none
  summary := ""
  evidence := []
  confidence_mem := by simp

def report (serviceId : Option String) (status : DiagnosticStatus) : MultiVantageReport :=
  localizeFault [observation status] "10.0.0.1" serviceId none [] "d1"

end Sample

end NetForge.Controller
