import NetForge.Calculus.Extension
import NetForge.Controller.Augmentation
import NetForge.Controller.Http

/-! # The HTTP API of the controller

The handler of `controller/http_server.py` as a program over store calls: every
request is validated, handed to one method of the service, and answered. What
pydantic makes of a body is a parameter, and so is the time at which each diagnosis
was first stored, the one column of the store that only a listing reads.
-/

namespace NetForge.Controller

open Calculus NetForge.Core Analysis Python

/-! ## Queries of the API alone -/

inductive QueryCall
  | listServices
  | listDiagnoses (limit : Nat)
  | getDiagnosis (diagnosisId : String)

abbrev QueryCall.Reply : QueryCall → Type
  | .listServices => List ServiceEndpoint
  | .listDiagnoses _ => List MultiVantageReport
  | .getDiagnosis _ => Option MultiVantageReport

def ControllerStore.listServices (s : ControllerStore) : List ServiceEndpoint :=
  orderBy (·.serviceId) s.services.rows

/-- `ORDER BY created_at DESC LIMIT ?`; `createdAt` is the column, by primary key. -/
def ControllerStore.listDiagnoses (createdAt : String → Rat) (s : ControllerStore) (limit : Nat) :
    List MultiVantageReport :=
  (orderByDesc (fun report => createdAt report.diagnosisId) s.diagnoses.rows).take limit

def performQuery (createdAt : String → Rat) (c : QueryCall) (w : World) : c.Reply × World :=
  match c with
  | .listServices => (w.store.listServices, w)
  | .listDiagnoses limit => (w.store.listDiagnoses createdAt limit, w)
  | .getDiagnosis diagnosisId => (w.store.diagnoses.find? diagnosisId, w)

abbrev queries (createdAt : String → Rat) : Interface World :=
  ⟨QueryCall, QueryCall.Reply, performQuery createdAt⟩

abbrev apiCalls (createdAt : String → Rat) : Interface World :=
  controller.sum (queries createdAt)

abbrev Api (createdAt : String → Rat) := Program (apiCalls createdAt)

/-! ## Exceptions of the handler -/

/-- What a handler raises: the errors of the service, three of them raised by methods
of the API alone, and the refusal of a body or of a query value. -/
inductive ApiError
  | service (e : ServiceError)
  | unknownDiagnosis (message : String)
  | noBindings (message : String)
  | validation (message : String)
  | python (e : PyError)

/-- The `except` clauses; an exception that none of them takes leaves the request
without a reply. -/
def ApiError.reply? : ApiError → Option Reply
  | .service (.unknownTopology m) => some (.failure .notFound m)
  | .unknownDiagnosis m => some (.failure .notFound m)
  | .service (.unknownService m) => some (.failure .notFound m)
  | .service (.unknownSchedule m) => some (.failure .notFound m)
  | .service (.unknownAlertRule m) => some (.failure .notFound m)
  | .service (.unknownIncident m) => some (.failure .notFound m)
  | .service (.noVantageAgents m) => some (.failure .conflict m)
  | .noBindings m => some (.failure .conflict m)
  | .validation m => some (.failure .badRequest m)
  | .service (.unknownAgent m) => some (.failure .badRequest m)
  | .service (.unknownNode m) => some (.failure .badRequest m)
  | .service (.raised exception m) =>
      if exception = "ValueError" then some (.failure .badRequest m) else none
  | .python (.valueError m) => some (.failure .badRequest m)
  | .python (.berError m) => some (.failure .badRequest m)
  | .python _ => none

/-! ## Service methods of the API alone -/

section

variable {createdAt : String → Rat}

def ofService {α : Type} (p : Method (Except ServiceError α)) :
    Api createdAt (Except ApiError α) := do
  let result ← p.inl
  pure (result.mapError .service)

def query (c : QueryCall) : Api createdAt c.Reply :=
  Program.request (I := apiCalls createdAt) (.inr c)

def storeCall (c : StoreCall) : Api createdAt c.Reply :=
  Program.request (I := apiCalls createdAt) (.inl c)

end

def requireTopology (name : Option String) : Method (Except ServiceError NetworkTopology) := do
  match ← resolveTopology name with
  | .error e => pure (.error e)
  | .ok (some topology) => pure (.ok topology)
  | .ok none =>
      pure (.error (.unknownTopology
        "no topology specified and none/multiple imported; pass an explicit topology name"))

structure DeviceCorrelationRequest where
  topology : Option String
  switches : List SwitchTelemetry

namespace ControllerService

def correlateHostPorts (lowercase : String → String) (request : DeviceCorrelationRequest) :
    Method (Except ServiceError (List HostPortBinding)) := do
  match ← requireTopology request.topology with
  | .error e => pure (.error e)
  | .ok topology =>
      let bindings := Controller.correlateHostPorts lowercase topology request.switches
      call (.replaceBindings topology.name bindings)
      pure (.ok bindings)

def listBindings (topology : Option String) :
    Method (Except ServiceError (List HostPortBinding)) := do
  match topology with
  | none =>
      let bindings ← call (.listBindings none)
      pure (.ok bindings)
  | some name =>
      match ← call (.getTopology name) with
      | none => pure (.error (.unknownTopology s!"unknown topology: {name}"))
      | some _ =>
          let bindings ← call (.listBindings (some name))
          pure (.ok bindings)

/-- Add the access edges of the stored bindings and persist the graph again. -/
def augmentTopology (name : Option String) : Method (Except ApiError NetworkTopology) := do
  match ← requireTopology name with
  | .error e => pure (.error (.service e))
  | .ok topology =>
      let bindings ← call (.listBindings (some topology.name))
      if bindings = [] then
        pure (.error (.noBindings
          (s!"no host-port bindings for topology '{topology.name}'; " ++
            "correlate device telemetry first")))
      else
        match augmentTopologyWithBindings topology bindings with
        | .error e => pure (.error (.python e))
        | .ok augmented =>
            call (.saveTopology augmented)
            pure (.ok augmented)

end ControllerService

section

variable {createdAt : String → Rat}

def getDiagnosis (diagnosisId : String) : Api createdAt (Except ApiError MultiVantageReport) := do
  match ← query (.getDiagnosis diagnosisId) with
  | some report => pure (.ok report)
  | none => pure (.error (.unknownDiagnosis s!"unknown diagnosis: {diagnosisId}"))

/-! ## Handlers -/

/-- What pydantic makes of a body, model by model: a value, or the text of the
validation error. A body of a schedule or a rule has its identifier by then. -/
structure Validation where
  agentRegistration : Dict → Except String AgentRegistration
  fanoutJobRequest : Dict → Except String FanoutJobRequest
  networkTopology : Dict → Except String NetworkTopology
  deviceCorrelationRequest : Dict → Except String DeviceCorrelationRequest
  serviceInventory : Dict → Except String ServiceInventory
  diagnosisRequest : Dict → Except String DiagnosisRequest
  scheduleEntry : Dict → Except String ScheduleEntry
  alertRule : Dict → Except String AlertRule

/-- `Field(default_factory=lambda: str(uuid4()))` of the field `key`. -/
def withIdentifier (key : String) (body : Dict) : Api createdAt Dict := do
  match body.lookup key with
  | some _ => pure body
  | none =>
      let fresh ← storeCall .uuid4
      pure (body ++ [(key, .str fresh)])

/-- The model of a body handed to a method, whose result makes the reply. -/
def validated {α β : Type} (model : Except String α)
    (method : α → Api createdAt (Except ApiError β)) (status : Status) (payload : β → Payload) :
    Api createdAt (Except ApiError Reply) := do
  match model with
  | .error message => pure (.error (.validation message))
  | .ok request =>
      match ← method request with
      | .error e => pure (.error e)
      | .ok result => pure (.ok ⟨status, payload result⟩)

def answered {α : Type} (method : Api createdAt (Except ApiError α)) (payload : α → Payload) :
    Api createdAt (Except ApiError Reply) := do
  match ← method with
  | .error e => pure (.error e)
  | .ok result => pure (.ok ⟨.ok, payload result⟩)

def listed {α : Type} (read : Api createdAt α) (payload : α → Payload) :
    Api createdAt (Except ApiError Reply) := do
  let result ← read
  pure (.ok ⟨.ok, payload result⟩)

def alertState? : String → Option AlertState
  | "firing" => some .firing
  | "resolved" => some .resolved
  | _ => none

def incidentState? : String → Option IncidentState
  | "open" => some .opened
  | "acknowledged" => some .acknowledged
  | "resolved" => some .resolved
  | _ => none

/-- `State(text) if text else None`. -/
def stateFilter {σ : Type} (name : String) (parse : String → Option σ) (text : Option String) :
    Except ApiError (Option σ) :=
  match nonEmpty text with
  | none => .ok none
  | some value =>
      match parse value with
      | some state => .ok (some state)
      | none => .error (.python (.valueError s!"{strRepr value} is not a valid {name}"))

/-- `payload["topology"] = name` in a copy of the body. -/
def bodyFor (name : String) (body : Dict) : Dict :=
  body.filter (fun item => item.1 ≠ "topology") ++ [("topology", .str name)]

/-- The handler of an endpoint. The clock is read where the service method is entered. -/
def Endpoint.handle (V : Validation) (lowercase : String → String) (body : Dict) :
    Endpoint → Api createdAt (Except ApiError Reply)
  | .health => pure (.ok ⟨.ok, .health⟩)
  | .listAgents => listed (storeCall .listAgents) .agents
  | .registerAgent =>
      validated (V.agentRegistration body)
        (fun registration => do
          let agent ← (Controller.registerAgent registration).inl
          pure (.ok agent))
        .created .agent
  | .dispatchJob =>
      validated (V.fanoutJobRequest body)
        (fun request => ofService (Controller.dispatchJob request))
        .ok .job
  | .getJob jobId => do
      match ← (Controller.getJob jobId).inl with
      | none => pure (.ok (.failure .notFound "job not found"))
      | some job => pure (.ok ⟨.ok, .job job⟩)
  | .importTopology =>
      validated (V.networkTopology body)
        (fun topology => do
          let stored ← (Controller.importTopology topology).inl
          pure (.ok stored))
        .created .topology
  | .listTopologyNames => listed (storeCall .listTopologyNames) .topologies
  | .correlateAgents name =>
      answered (ofService (Controller.correlateAgents name)) (.agentNodes name)
  | .correlateHostPorts name =>
      validated (V.deviceCorrelationRequest (bodyFor name body))
        (fun request => ofService (ControllerService.correlateHostPorts lowercase request))
        .ok .correlated
  | .topologyBindings name =>
      answered (ofService (ControllerService.listBindings (some name))) .bindings
  | .augmentTopology name =>
      answered (ControllerService.augmentTopology (some name)).inl .topology
  | .getTopology name => answered (ofService (Controller.getTopology name)) .topology
  | .registerServices topologyName =>
      validated (V.serviceInventory body)
        (fun inventory => ofService (Controller.registerServices inventory topologyName))
        .created .services
  | .listServices => listed (query .listServices) .services
  | .diagnose =>
      validated (V.diagnosisRequest body)
        (fun request => ofService (Controller.diagnoseService request)) .ok .report
  | .listDiagnoses => listed (query (.listDiagnoses 50)) .diagnoses
  | .getDiagnosis diagnosisId => answered (Controller.getDiagnosis diagnosisId) .report
  | .createSchedule => do
      let body ← withIdentifier "schedule_id" body
      validated (V.scheduleEntry body)
        (fun schedule => do
          let now ← storeCall .time
          ofService (Controller.createSchedule schedule now))
        .created .schedule
  | .listSchedules serviceId => listed (storeCall (.listSchedules serviceId)) .schedules
  | .deleteSchedule scheduleId =>
      answered (ofService (Controller.deleteSchedule scheduleId)) fun _ => .deleted
  | .runMonitor => do
      let now ← storeCall .time
      listed (Controller.runDueSchedules now).inl .ran
  | .registerAlertRule => do
      let body ← withIdentifier "rule_id" body
      validated (V.alertRule body) (fun rule => ofService (Controller.registerAlertRule rule))
        .created .alertRule
  | .listAlertRules => listed (storeCall .listAlertRules) .alertRules
  | .deleteAlertRule ruleId =>
      answered (ofService (Controller.deleteAlertRule ruleId)) fun _ => .deleted
  | .listAlerts serviceId state =>
      match stateFilter "AlertState" alertState? state with
      | .error e => pure (.error e)
      | .ok state => listed (storeCall (.listAlerts serviceId state)) .alerts
  | .listIncidents serviceId state =>
      match stateFilter "IncidentState" incidentState? state with
      | .error e => pure (.error e)
      | .ok state => listed (storeCall (.listIncidents serviceId state)) .incidents
  | .listBindings topologyName =>
      answered (ofService (ControllerService.listBindings topologyName)) .bindings
  | .acknowledgeIncident incidentId => do
      let now ← storeCall .time
      answered (ofService (Controller.acknowledgeIncident incidentId now)) .incident
  | .resolveIncident incidentId => do
      let now ← storeCall .time
      answered (ofService (Controller.resolveIncident incidentId now)) .incident
  | .getIncident incidentId => answered (ofService (Controller.getIncident incidentId)) .incident

/-! ## Serving a request -/

structure Server where
  token : String
  validation : Validation
  lowercase : String → String
  loads : Bytes → Option PyVal

variable (server : Server)

/-- `_dispatch`: the token is compared before anything else. -/
def Server.dispatch (request : HttpRequest) (body : Dict) : Api createdAt (Option Reply) :=
  match compareDigest (request.authorization.getD "") (bearer server.token) with
  | .error _ => pure none
  | .ok false => pure (some (.failure .unauthorized "valid bearer token required"))
  | .ok true =>
      match targetEndpoint? request.command request.target with
      | none => pure (some (.failure .notFound "unknown endpoint"))
      | some endpoint => do
          match ← endpoint.handle server.validation server.lowercase body with
          | .ok reply => pure (some reply)
          | .error e => pure e.reply?

/-- `do_GET`, `do_POST` and `do_DELETE`; no reply where an exception leaves the handler. -/
def Server.serve (request : HttpRequest) : Api createdAt (Option Reply) :=
  match request.command with
  | .post =>
      match (readJsonBody server.loads maxBodyBytes request).result with
      | .error (.tooLarge message) => pure (some (.failure .entityTooLarge message))
      | .error (.malformed message) => pure (some (.failure .badRequest message))
      | .ok body => server.dispatch request body
  | _ => server.dispatch request []

end

end NetForge.Controller
