import NetForge.Calculus.Interleaving
import NetForge.Calculus.Documents
import NetForge.Controller.Correlation
import NetForge.Controller.Monitoring
import NetForge.Controller.Vantage
import NetForge.Storage.Baselines
import Mathlib.Data.Prod.Lex
import Mathlib.Data.String.Basic

/-! # The controller store and its atomic calls

Each method of `controller/store.py` is one transaction, so one atomic call. The
tables keep, beside the JSON payload, the columns that queries read; columns that
no modelled query reads are left out. Two things outside the database also count
as calls: the generation of an identifier and a probe fan-out, whose outcome the
network decides.
-/

namespace NetForge.Controller

open Calculus NetForge.Core Analysis Storage

structure RegisteredAgent where
  agentId : String
  url : String
  topologyTags : List (String × String)
  enabled : Bool
  lastSeenAt : Option Rat
  deriving DecidableEq

/-- A probe request; hop limit, timeout and source interface keep their defaults
here and are left out. -/
structure ProbeRequest where
  probeType : ProbeType
  target : String
  port : Option Nat
  count : Nat
  deriving DecidableEq

/-- What one agent reports about one probe result: the parts of its context and
result that a diagnosis reads. -/
structure AgentObservation where
  target : Option String
  probeType : String
  evidenceQuality : EvidenceQuality
  confidence : Option Rat
  status : DiagnosticStatus
  summary : String
  evidence : List String
  confidence_mem : ∀ c ∈ confidence, 0 ≤ c ∧ c ≤ 1

structure FanoutResult where
  observations : List (String × List AgentObservation)
  errors : List (String × String)

structure FanoutJobRequest where
  agentIds : List String
  probe : ProbeRequest
  agentIds_length : 1 ≤ agentIds.length ∧ agentIds.length ≤ 32

/-- The status texts; a job with observations and errors is `"partial"`. -/
inductive JobStatus
  | running | completed | partially | failed
  deriving DecidableEq, Repr

/-- A fan-out job; its metadata, which nothing writes, is left out. -/
structure FanoutJob where
  jobId : String
  createdAt : Rat
  completedAt : Option Rat
  request : FanoutJobRequest
  status : JobStatus
  observations : List (String × List AgentObservation)
  errors : List (String × String)

/-- The columns of `alerts` that the conflict clause never updates. -/
structure AlertColumns where
  serviceId : Option String
  ruleId : String
  createdAt : Rat
  deriving DecidableEq

/-- `alerts`: the conflict clause updates the state and the payload. -/
def alertLayout : Layout Alert String AlertColumns AlertState where
  key := Alert.alertId
  fixed := fun a => ⟨a.serviceId, a.ruleId, a.createdAt⟩
  mutable := Alert.state

/-- The columns of `incidents` that the conflict clause never updates. -/
structure IncidentColumns where
  serviceId : Option String
  openedAt : Rat
  deriving DecidableEq

/-- `incidents`: the conflict clause updates the state and the payload. -/
def incidentLayout : Layout Incident String IncidentColumns IncidentState where
  key := Incident.incidentId
  fixed := fun i => ⟨i.serviceId, i.openedAt⟩
  mutable := Incident.state

abbrev AlertRow := Row Alert String AlertColumns AlertState

abbrev IncidentRow := Row Incident String IncidentColumns IncidentState

structure BindingRow where
  bindingId : String
  topology : String
  hostNodeId : String
  switchNodeId : String
  payload : HostPortBinding
  deriving DecidableEq

/-- `ORDER BY host_node_id, switch_node_id`. -/
def BindingRow.pair (row : BindingRow) : String ×ₗ String :=
  toLex (row.hostNodeId, row.switchNodeId)

/-- `bindings`: the conflict clause updates the payload, and none of the columns that
name the pair. -/
def bindingSchema : Schema BindingRow String where
  key := BindingRow.bindingId
  onConflict := fun old new => { old with payload := new.payload }
  key_onConflict := fun _ _ _ => rfl

structure ControllerStore where
  agents : Table (Schema.replacing RegisteredAgent.agentId)
  topologies : Table (Schema.replacing NetworkTopology.name)
  services : Table (Schema.replacing ServiceEndpoint.serviceId)
  diagnoses : Table (Schema.replacing MultiVantageReport.diagnosisId)
  schedules : Table (Schema.replacing ScheduleEntry.scheduleId)
  alertRules : Table (Schema.replacing AlertRule.ruleId)
  alerts : Table alertLayout.schema
  incidents : Table incidentLayout.schema
  jobs : Table (Schema.replacing FanoutJob.jobId)
  bindings : Table bindingSchema

namespace ControllerStore

def empty : ControllerStore :=
  ⟨.empty, .empty, .empty, .empty, .empty, .empty, .empty, .empty, .empty, .empty⟩

def listLimit : Nat := 100

def listAgents (s : ControllerStore) : List RegisteredAgent :=
  orderBy (·.agentId) s.agents.rows

def listTopologyNames (s : ControllerStore) : List String :=
  (orderBy (·.name) s.topologies.rows).map (·.name)

def listSchedules (s : ControllerStore) (serviceId : Option String) : List ScheduleEntry :=
  orderBy (·.serviceId) (s.schedules.rows.filter fun e => serviceId.all (e.serviceId = ·))

def listAlertRules (s : ControllerStore) : List AlertRule :=
  orderBy (·.ruleId) s.alertRules.rows

def saveAlert (s : ControllerStore) (alert : Alert) : ControllerStore :=
  { s with alerts := s.alerts.put alert }

/-- The alert rows a list query reads: `None` for the service or the state drops
the clause. -/
def alertPage (s : ControllerStore) (serviceId : Option String) (state : Option AlertState) :
    List AlertRow :=
  (orderByDesc (·.fixed.createdAt) (s.alerts.rows.filter fun r =>
    serviceId.all (r.fixed.serviceId = some ·) && state.all (r.mutable = ·))).take listLimit

def listAlerts (s : ControllerStore) (serviceId : Option String) (state : Option AlertState) :
    List Alert := (s.alertPage serviceId state).map (·.document)

/-- `service_id IS ?` matches a missing service with a missing parameter. -/
def findFiringAlert (s : ControllerStore) (ruleId : String) (serviceId : Option String) :
    Option Alert :=
  ((orderByDesc (·.fixed.createdAt) (s.alerts.rows.filter fun r =>
    r.fixed.ruleId = ruleId ∧ r.fixed.serviceId = serviceId ∧ r.mutable = .firing)).head?).map
      (·.document)

def saveIncident (s : ControllerStore) (incident : Incident) : ControllerStore :=
  { s with incidents := s.incidents.put incident }

def getIncident (s : ControllerStore) (incidentId : String) : Option Incident :=
  s.incidents.document? incidentId

def incidentPage (s : ControllerStore) (serviceId : Option String) (state : Option IncidentState) :
    List IncidentRow :=
  (orderByDesc (·.fixed.openedAt) (s.incidents.rows.filter fun r =>
    serviceId.all (r.fixed.serviceId = some ·) && state.all (r.mutable = ·))).take listLimit

def listIncidents (s : ControllerStore) (serviceId : Option String)
    (state : Option IncidentState) : List Incident :=
  (s.incidentPage serviceId state).map (·.document)

def findActiveIncident (s : ControllerStore) (serviceId : Option String) : Option Incident :=
  ((orderByDesc (·.fixed.openedAt) (s.incidents.rows.filter fun r =>
    r.fixed.serviceId = serviceId ∧ (r.mutable = .opened ∨ r.mutable = .acknowledged))).head?).map
      (·.document)

/-- `UPDATE agents SET last_seen_at = ?`. -/
def markSeen (s : ControllerStore) (agentId : String) (now : Rat) : ControllerStore :=
  { s with
    agents :=
      match s.agents.find? agentId with
      | some agent => s.agents.upsert { agent with lastSeenAt := some now }
      | none => s.agents }

def bindingId (topology hostNodeId switchNodeId : String) : String :=
  s!"{topology}:{hostNodeId}:{switchNodeId}"

def bindingRow (topology : String) (b : HostPortBinding) : BindingRow where
  bindingId := bindingId topology b.hostNodeId b.switchNodeId
  topology := topology
  hostNodeId := b.hostNodeId
  switchNodeId := b.switchNodeId
  payload := b

/-- Replace all stored bindings of a topology, in one transaction. -/
def replaceBindings (s : ControllerStore) (topology : String) (bindings : List HostPortBinding) :
    ControllerStore :=
  { s with
    bindings := (s.bindings.deleteWhere (·.topology = topology)).upsertAll
      (bindings.map (bindingRow topology)) }

def listBindings (s : ControllerStore) (topology : Option String) : List HostPortBinding :=
  (orderBy BindingRow.pair
    (s.bindings.rows.filter fun row => topology.all (row.topology = ·))).map (·.payload)

end ControllerStore

/-- Everything a controller call reads or writes: the database, the probe history
database, the wall clock, the source of identifiers and the network. -/
structure World where
  store : ControllerStore
  history : List Snapshot
  clock : Nat → Rat
  readings : Nat
  uuid : Nat → String
  issued : Nat
  network : Nat → List RegisteredAgent → ProbeRequest → FanoutResult
  fanouts : Nat

inductive StoreCall
  | uuid4
  | time
  | upsertAgent (agent : RegisteredAgent)
  | saveTopology (topology : NetworkTopology)
  | upsertService (service : ServiceEndpoint)
  | getAgent (agentId : String)
  | listAgents
  | getService (serviceId : String)
  | listTopologyNames
  | getTopology (name : String)
  | fanout (agents : List RegisteredAgent) (probe : ProbeRequest)
  | saveDiagnosis (report : MultiVantageReport)
  | upsertSchedule (schedule : ScheduleEntry)
  | listSchedules (serviceId : Option String)
  | deleteSchedule (scheduleId : String)
  | upsertAlertRule (rule : AlertRule)
  | listAlertRules
  | deleteAlertRule (ruleId : String)
  | saveAlert (alert : Alert)
  | listAlerts (serviceId : Option String) (state : Option AlertState)
  | findFiringAlert (ruleId : String) (serviceId : Option String)
  | saveIncident (incident : Incident)
  | getIncident (incidentId : String)
  | listIncidents (serviceId : Option String) (state : Option IncidentState)
  | findActiveIncident (serviceId : Option String)
  | rollingStats (domain key metric : String) (limit : Nat)
  | saveSnapshot (domain key : String) (payload : List (String × Rat)) (fingerprint : Option String)
  | markSeen (agentId : String)
  | saveJob (job : FanoutJob)
  | getJob (jobId : String)
  | replaceBindings (topology : String) (bindings : List HostPortBinding)
  | listBindings (topology : Option String)

abbrev StoreCall.Reply : StoreCall → Type
  | .uuid4 => String
  | .time => Rat
  | .upsertAgent _ => Unit
  | .saveTopology _ => Unit
  | .upsertService _ => Unit
  | .getAgent _ => Option RegisteredAgent
  | .listAgents => List RegisteredAgent
  | .getService _ => Option ServiceEndpoint
  | .listTopologyNames => List String
  | .getTopology _ => Option NetworkTopology
  | .fanout _ _ => Except String FanoutResult
  | .saveDiagnosis _ => Unit
  | .upsertSchedule _ => Unit
  | .listSchedules _ => List ScheduleEntry
  | .deleteSchedule _ => Bool
  | .upsertAlertRule _ => Unit
  | .listAlertRules => List AlertRule
  | .deleteAlertRule _ => Bool
  | .saveAlert _ => Unit
  | .listAlerts _ _ => List Alert
  | .findFiringAlert _ _ => Option Alert
  | .saveIncident _ => Unit
  | .getIncident _ => Option Incident
  | .listIncidents _ _ => List Incident
  | .findActiveIncident _ => Option Incident
  | .rollingStats _ _ _ _ => Option RollingStats
  | .saveSnapshot _ _ _ _ => Unit
  | .markSeen _ => Unit
  | .saveJob _ => Unit
  | .getJob _ => Option FanoutJob
  | .replaceBindings _ _ => Unit
  | .listBindings _ => List HostPortBinding

/-- A thread pool of zero workers is refused before any probe is sent. -/
def noWorkers : String := "max_workers must be greater than 0"

def perform (c : StoreCall) (w : World) : c.Reply × World :=
  match c with
  | .uuid4 => (w.uuid w.issued, { w with issued := w.issued + 1 })
  | .time => (w.clock w.readings, { w with readings := w.readings + 1 })
  | .upsertAgent agent =>
      ((), { w with store := { w.store with agents := w.store.agents.upsert agent } })
  | .saveTopology topology =>
      ((), { w with store := { w.store with topologies := w.store.topologies.upsert topology } })
  | .upsertService service =>
      ((), { w with store := { w.store with services := w.store.services.upsert service } })
  | .getAgent agentId => (w.store.agents.find? agentId, w)
  | .listAgents => (w.store.listAgents, w)
  | .getService serviceId => (w.store.services.find? serviceId, w)
  | .listTopologyNames => (w.store.listTopologyNames, w)
  | .getTopology name => (w.store.topologies.find? name, w)
  | .fanout agents probe =>
      if agents = [] then (.error noWorkers, w)
      else (.ok (w.network w.fanouts agents probe), { w with fanouts := w.fanouts + 1 })
  | .saveDiagnosis report =>
      ((), { w with store := { w.store with diagnoses := w.store.diagnoses.upsert report } })
  | .upsertSchedule schedule =>
      ((), { w with store := { w.store with schedules := w.store.schedules.upsert schedule } })
  | .listSchedules serviceId => (w.store.listSchedules serviceId, w)
  | .deleteSchedule scheduleId =>
      ((w.store.schedules.find? scheduleId).isSome,
        { w with store := { w.store with schedules := w.store.schedules.delete scheduleId } })
  | .upsertAlertRule rule =>
      ((), { w with store := { w.store with alertRules := w.store.alertRules.upsert rule } })
  | .listAlertRules => (w.store.listAlertRules, w)
  | .deleteAlertRule ruleId =>
      ((w.store.alertRules.find? ruleId).isSome,
        { w with store := { w.store with alertRules := w.store.alertRules.delete ruleId } })
  | .saveAlert alert => ((), { w with store := w.store.saveAlert alert })
  | .listAlerts serviceId state => (w.store.listAlerts serviceId state, w)
  | .findFiringAlert ruleId serviceId => (w.store.findFiringAlert ruleId serviceId, w)
  | .saveIncident incident => ((), { w with store := w.store.saveIncident incident })
  | .getIncident incidentId => (w.store.getIncident incidentId, w)
  | .listIncidents serviceId state => (w.store.listIncidents serviceId state, w)
  | .findActiveIncident serviceId => (w.store.findActiveIncident serviceId, w)
  | .rollingStats domain key metric limit =>
      (Storage.rollingStats w.history domain key metric limit, w)
  | .saveSnapshot domain key payload fingerprint =>
      ((), { w with
        history := w.history ++ [⟨domain, key, fingerprint, payload, w.clock w.readings⟩]
        readings := w.readings + 1 })
  | .markSeen agentId =>
      ((), { w with
        store := w.store.markSeen agentId (w.clock w.readings)
        readings := w.readings + 1 })
  | .saveJob job => ((), { w with store := { w.store with jobs := w.store.jobs.upsert job } })
  | .getJob jobId => (w.store.jobs.find? jobId, w)
  | .replaceBindings topology bindings =>
      ((), { w with store := w.store.replaceBindings topology bindings })
  | .listBindings topology => (w.store.listBindings topology, w)

abbrev controller : Interface World := ⟨StoreCall, StoreCall.Reply, perform⟩

abbrev Method := Program controller

abbrev call (c : StoreCall) : Method c.Reply := Program.request (I := controller) c

end NetForge.Controller
