import NetForge.Controller.Store

/-! # The controller service

The methods of `controller/service.py` as programs over the store calls: what
runs between two calls of a method is local to its thread. A method that raises
returns the error; attribute updates of a loaded model are record updates.
-/

namespace NetForge.Controller

open Calculus NetForge.Core Analysis Storage

inductive ServiceError
  | unknownAgent (message : String)
  | unknownTopology (message : String)
  | unknownNode (message : String)
  | unknownService (message : String)
  | unknownSchedule (message : String)
  | unknownAlertRule (message : String)
  | unknownIncident (message : String)
  | noVantageAgents (message : String)
  | raised (exception message : String)
  deriving DecidableEq, Repr

/-- `f"{type(exc).__name__}: {exc}"`. -/
def ServiceError.text : ServiceError → String
  | .unknownAgent m => s!"UnknownAgentError: {m}"
  | .unknownTopology m => s!"UnknownTopologyError: {m}"
  | .unknownNode m => s!"UnknownNodeError: {m}"
  | .unknownService m => s!"UnknownServiceError: {m}"
  | .unknownSchedule m => s!"UnknownScheduleError: {m}"
  | .unknownAlertRule m => s!"UnknownAlertRuleError: {m}"
  | .unknownIncident m => s!"UnknownIncidentError: {m}"
  | .noVantageAgents m => s!"NoVantageAgentsError: {m}"
  | .raised exception m => s!"{exception}: {m}"

structure DiagnosisRequest where
  serviceId : String
  probeType : Option ProbeType
  count : Nat
  sourceNodeId : Option String
  topology : Option String

/-! ## Agents -/

structure AgentRegistration where
  agentId : String
  url : String
  topologyTags : List (String × String)
  agentId_ne : agentId ≠ ""

def registerAgent (registration : AgentRegistration) : Method RegisteredAgent := do
  let agent : RegisteredAgent :=
    { agentId := registration.agentId
      url := registration.url
      topologyTags := registration.topologyTags
      enabled := true
      lastSeenAt := none }
  call (.upsertAgent agent)
  pure agent

/-! ## Fan-out jobs -/

/-- `dict.fromkeys(ids)`: each identifier where it first occurs. -/
def distinctIds (ids : List String) : List String :=
  ids.foldl (fun seen id => if id ∈ seen then seen else seen ++ [id]) []

def requireAgents : List String → Method (Except ServiceError (List RegisteredAgent))
  | [] => pure (.ok [])
  | agentId :: rest => do
      match ← call (.getAgent agentId) with
      | none => pure (.error (.unknownAgent s!"unknown or disabled agent: {agentId}"))
      | some agent =>
          if agent.enabled then
            match ← requireAgents rest with
            | .error e => pure (.error e)
            | .ok others => pure (.ok (agent :: others))
          else pure (.error (.unknownAgent s!"unknown or disabled agent: {agentId}"))

def jobStatus (result : FanoutResult) : JobStatus :=
  if result.errors = [] then .completed
  else if result.observations.isEmpty then .failed
  else .partially

def dispatchJob (request : FanoutJobRequest) : Method (Except ServiceError FanoutJob) := do
  match ← requireAgents (distinctIds request.agentIds) with
  | .error e => pure (.error e)
  | .ok agents =>
      let jobId ← call .uuid4
      let createdAt ← call .time
      let job : FanoutJob :=
        { jobId
          createdAt
          completedAt := none
          request
          status := .running
          observations := []
          errors := [] }
      call (.saveJob job)
      match ← call (.fanout agents request.probe) with
      | .error message => pure (.error (.raised "ValueError" message))
      | .ok result =>
          let _ ← Program.fold (fun (_ : Unit) entry => call (.markSeen entry.1)) ()
            result.observations
          let completedAt ← call .time
          let finished : FanoutJob :=
            { job with
              observations := result.observations
              errors := result.errors
              completedAt := some completedAt
              status := jobStatus result }
          call (.saveJob finished)
          pure (.ok finished)

def getJob (jobId : String) : Method (Option FanoutJob) := call (.getJob jobId)

/-! ## Topologies and services -/

structure ServiceInventory where
  services : List ServiceEndpoint
  services_nodup : (services.map (·.serviceId)).Nodup

def importTopology (topology : NetworkTopology) : Method NetworkTopology := do
  call (.saveTopology topology)
  pure topology

def getTopology (name : String) : Method (Except ServiceError NetworkTopology) := do
  match ← call (.getTopology name) with
  | some topology => pure (.ok topology)
  | none => pure (.error (.unknownTopology s!"unknown topology: {name}"))

def resolveTopology (name : Option String) :
    Method (Except ServiceError (Option NetworkTopology)) := do
  match name with
  | some name =>
      match ← getTopology name with
      | .ok topology => pure (.ok (some topology))
      | .error e => pure (.error e)
  | none =>
      match ← call .listTopologyNames with
      | [only] =>
          let topology ← call (.getTopology only)
          pure (.ok topology)
      | _ => pure (.ok none)

def unknownNode? (topology : NetworkTopology) (services : List ServiceEndpoint) :
    Option (ServiceEndpoint × String) :=
  services.findSome? fun service =>
    match service.nodeId with
    | some nodeId => if topology.hasNode nodeId then none else some (service, nodeId)
    | none => none

def registerServices (inventory : ServiceInventory) (topologyName : Option String) :
    Method (Except ServiceError (List ServiceEndpoint)) := do
  match ← resolveTopology topologyName with
  | .error e => pure (.error e)
  | .ok topology =>
      match topology.bind (unknownNode? · inventory.services) with
      | some (service, nodeId) =>
          pure (.error (.unknownNode
            s!"service {service.serviceId} references unknown node: {nodeId}"))
      | none =>
          let _ ← Program.fold (fun (_ : Unit) service => call (.upsertService service)) ()
            inventory.services
          pure (.ok inventory.services)

/-! ## Multi-vantage diagnosis -/

def correlateAgents (topologyName : String) :
    Method (Except ServiceError (List CorrelatedNode)) := do
  match ← getTopology topologyName with
  | .error e => pure (.error e)
  | .ok topology =>
      let registered ← call .listAgents
      pure (.ok (topology.agentNodes.map fun node =>
        let agent := (nonEmpty node.agentId).bind fun id => registered.find? (·.agentId = id)
        { nodeId := node.nodeId
          agentId := node.agentId
          registered := agent.isSome
          enabled := agent.any (·.enabled) }))

/-- The first stored topology, in name order, that contains the service node. -/
def topologyContaining (nodeId : Option String) :
    List String → Method (Option NetworkTopology)
  | [] => pure none
  | candidate :: rest => do
      match ← call (.getTopology candidate) with
      | none => topologyContaining nodeId rest
      | some topology =>
          if (nonEmpty nodeId).any topology.hasNode then pure (some topology)
          else topologyContaining nodeId rest

/-- The single stored topology, read under the name just listed. -/
def topologyForService (service : ServiceEndpoint) (name : Option String) :
    Method (Except ServiceError NetworkTopology) := do
  match name with
  | some name => getTopology name
  | none =>
      match ← topologyContaining service.nodeId (← call .listTopologyNames) with
      | some topology => pure (.ok topology)
      | none =>
          match ← call .listTopologyNames with
          | [only] =>
              match ← call (.getTopology only) with
              | some topology => pure (.ok topology)
              | none =>
                  pure (.error (.raised "AttributeError"
                    "'NoneType' object has no attribute 'name'"))
          | _ =>
              pure (.error (.unknownTopology
                "no imported topology contains the service node; import a topology first"))

def planAgents : List VantageAssignment → Method (List RegisteredAgent)
  | [] => pure []
  | a :: rest => do
      let agent ← call (.getAgent a.agentId)
      let others ← planAgents rest
      pure (agent.toList ++ others)

def vantageObservation (service : ServiceEndpoint) (a : VantageAssignment)
    (obs : AgentObservation) : VantageObservation :=
  VantageObservation.deriveConfidence
    { agentId := a.agentId
      nodeId := some a.nodeId
      role := a.role
      target := (nonEmpty obs.target).getD service.host
      probeType := obs.probeType
      status := obs.status
      evidenceQuality := obs.evidenceQuality
      confidence := obs.confidence
      summary := obs.summary
      evidence := obs.evidence
      confidence_mem := obs.confidence_mem }

def diagnoseService (request : DiagnosisRequest) :
    Method (Except ServiceError MultiVantageReport) := do
  match ← call (.getService request.serviceId) with
  | none => pure (.error (.unknownService s!"unknown service: {request.serviceId}"))
  | some service =>
      match ← topologyForService service request.topology with
      | .error e => pure (.error e)
      | .ok topology =>
          match ← correlateAgents topology.name with
          | .error e => pure (.error e)
          | .ok correlation =>
              let plan := selectVantages topology service correlation request.sourceNodeId
              if plan.assignments = [] then
                pure (.error (.noVantageAgents
                  (s!"no registered agents available in topology '{topology.name}' " ++
                    s!"to diagnose {service.serviceId}")))
              else
                let probeType := request.probeType.getD
                  (if service.protocol = .tcp then .tcp else .icmp)
                let probe : ProbeRequest :=
                  { probeType
                    target := service.host
                    port := if probeType = .tcp then some service.port else none
                    count := request.count }
                let agents ← planAgents plan.assignments
                match ← call (.fanout agents probe) with
                | .error message => pure (.error (.raised "ValueError" message))
                | .ok result =>
                    let observations := plan.assignments.flatMap fun a =>
                      (((result.observations.find? (·.1 = a.agentId)).map (·.2)).getD []).map
                        (vantageObservation service a)
                    let diagnosisId ← call .uuid4
                    let report := localizeFault observations service.host
                      (some service.serviceId) (some topology.name) result.errors diagnosisId
                    call (.saveDiagnosis report)
                    pure (.ok report)

/-! ## Baselines, alerts and incidents -/

/-- `record_and_compare` against the history database. -/
def recordAndCompare (domain key metric : String) (metricIsPercent : Bool) (current : Rat)
    (higherIsWorse : Bool) (warnRatio failRatio : Rat) : Method BaselineDelta := do
  let stats ← call (.rollingStats domain key metric 20)
  call (.saveSnapshot domain key [(metric, current)] none)
  pure (compareToBaseline stats metric metricIsPercent current higherIsWorse warnRatio failRatio)

def reachableRatio (report : MultiVantageReport) : Rat :=
  if report.vantageCount = 0 then 0 else (report.reachableCount : Rat) / report.vantageCount

def recordServiceBaseline (report : MultiVantageReport) : Method Bool := do
  let key := (nonEmpty report.serviceId).getD report.target
  let result ← recordAndCompare "service" key "reachable_ratio" false (reachableRatio report)
    false (3 / 2) (5 / 2)
  pure result.deviated

def createIncident (incidentId : String) (alert : Alert) (report : MultiVantageReport)
    (now : Rat) : Incident where
  incidentId := incidentId
  serviceId := alert.serviceId
  target := report.target
  state := .opened
  severity := alert.severity
  summary := report.verdict
  alertIds := [alert.alertId]
  openedAt := now
  updatedAt := now
  resolvedAt := none

def extendIncident (incident : Incident) (alert : Alert) (report : MultiVantageReport)
    (now : Rat) : Incident :=
  { incident with
    alertIds :=
      if alert.alertId ∈ incident.alertIds then incident.alertIds
      else incident.alertIds ++ [alert.alertId]
    severity := maxSeverity [incident.severity, alert.severity]
    summary := report.verdict
    updatedAt := now }

def attachToIncident (alert : Alert) (report : MultiVantageReport) (now : Rat) :
    Method Incident := do
  match ← call (.findActiveIncident alert.serviceId) with
  | none =>
      let incidentId ← call .uuid4
      let incident := createIncident incidentId alert report now
      call (.saveIncident incident)
      pure incident
  | some found =>
      let incident := extendIncident found alert report now
      call (.saveIncident incident)
      pure incident

def refreshAlert (alert : Alert) (report : MultiVantageReport) (now : Rat) (regression : Bool) :
    Alert :=
  { alert with
    diagnosisId := report.diagnosisId
    updatedAt := now
    regression := alert.regression || regression }

/-- The alert of a matching rule: the firing one refreshed, or a new one. -/
def fireRule (rule : AlertRule) (report : MultiVantageReport) (now : Rat) (regression : Bool) :
    Method Alert := do
  match ← call (.findFiringAlert rule.ruleId report.serviceId) with
  | some found =>
      let alert := refreshAlert found report now regression
      call (.saveAlert alert)
      pure alert
  | none =>
      let alertId ← call .uuid4
      let alert := buildAlert alertId rule report now regression
      call (.saveAlert alert)
      pure alert

def resolveAlert (alert : Alert) (now : Rat) : Alert :=
  { alert with state := .resolved, resolvedAt := some now, updatedAt := now }

def closeIncident (incident : Incident) (now : Rat) : Incident :=
  { incident with state := .resolved, resolvedAt := some now, updatedAt := now }

def isActive (incident : Incident) : Bool :=
  incident.state = .opened || incident.state = .acknowledged

def resolveService (serviceId : Option String) (now : Rat) : Method (List Incident) := do
  let firing ← call (.listAlerts serviceId (some .firing))
  let _ ← Program.fold (fun (_ : Unit) alert => call (.saveAlert (resolveAlert alert now)))
    () firing
  let incidents ← call (.listIncidents serviceId none)
  Program.fold
    (fun resolved incident =>
      if isActive incident then do
        call (.saveIncident (closeIncident incident now))
        pure (resolved ++ [closeIncident incident now])
      else pure resolved)
    [] incidents

/-- The outcome of one diagnosis. `resolvedIncidents` is set only by the healthy
branch. -/
structure DiagnosisOutcome where
  regression : Bool
  alerts : List Alert
  incidents : List Incident
  resolvedIncidents : Option (List Incident)
  deriving DecidableEq

def applyRule (report : MultiVantageReport) (now : Rat) (outcome : DiagnosisOutcome)
    (rule : AlertRule) : Method DiagnosisOutcome := do
  let alert ← fireRule rule report now outcome.regression
  let incident ← attachToIncident alert report now
  pure { outcome with
    alerts := outcome.alerts ++ [alert]
    incidents := outcome.incidents ++ [incident] }

def processDiagnosis (report : MultiVantageReport) (now : Rat) : Method DiagnosisOutcome := do
  let regression ← recordServiceBaseline report
  if isHealthy report then
    let resolved ← resolveService report.serviceId now
    pure ⟨regression, [], [], some resolved⟩
  else
    let rules ← call .listAlertRules
    Program.fold (applyRule report now) ⟨regression, [], [], none⟩ (matchingRules rules report)

def getIncident (incidentId : String) : Method (Except ServiceError Incident) := do
  match ← call (.getIncident incidentId) with
  | some incident => pure (.ok incident)
  | none => pure (.error (.unknownIncident s!"unknown incident: {incidentId}"))

def acknowledge (incident : Incident) (now : Rat) : Incident :=
  { incident with state := .acknowledged, updatedAt := now }

/-- The shared body of acknowledge and resolve: a resolved incident is returned
as it is, any other one is updated and saved. -/
def updateIncident (update : Incident → Rat → Incident) (incidentId : String) (now : Rat) :
    Method (Except ServiceError Incident) := do
  match ← getIncident incidentId with
  | .error e => pure (.error e)
  | .ok incident =>
      if incident.state = .resolved then pure (.ok incident)
      else
        call (.saveIncident (update incident now))
        pure (.ok (update incident now))

def acknowledgeIncident (incidentId : String) (now : Rat) :
    Method (Except ServiceError Incident) := updateIncident acknowledge incidentId now

def resolveIncident (incidentId : String) (now : Rat) :
    Method (Except ServiceError Incident) := updateIncident closeIncident incidentId now

/-! ## Schedules and alert rules -/

/-- `now` is the clock reading `time.time()` of the call. -/
def createSchedule (schedule : ScheduleEntry) (now : Rat) :
    Method (Except ServiceError ScheduleEntry) := do
  match ← call (.getService schedule.serviceId) with
  | none => pure (.error (.unknownService s!"unknown service: {schedule.serviceId}"))
  | some _ =>
      let stored : ScheduleEntry :=
        { schedule with
          createdAt := if schedule.createdAt = 0 then now else schedule.createdAt
          nextRunAt := some (schedule.nextRunAt.getD now) }
      call (.upsertSchedule stored)
      pure (.ok stored)

def deleteSchedule (scheduleId : String) : Method (Except ServiceError Bool) := do
  if ← call (.deleteSchedule scheduleId) then pure (.ok true)
  else pure (.error (.unknownSchedule s!"unknown schedule: {scheduleId}"))

def registerAlertRule (rule : AlertRule) : Method (Except ServiceError AlertRule) := do
  match rule.serviceId with
  | none =>
      call (.upsertAlertRule rule)
      pure (.ok rule)
  | some serviceId =>
      match ← call (.getService serviceId) with
      | none => pure (.error (.unknownService s!"unknown service: {serviceId}"))
      | some _ =>
          call (.upsertAlertRule rule)
          pure (.ok rule)

def deleteAlertRule (ruleId : String) : Method (Except ServiceError Bool) := do
  if ← call (.deleteAlertRule ruleId) then pure (.ok true)
  else pure (.error (.unknownAlertRule s!"unknown alert rule: {ruleId}"))

def diagnosisRequest (schedule : ScheduleEntry) : DiagnosisRequest where
  serviceId := schedule.serviceId
  probeType := schedule.probeType
  count := schedule.count
  sourceNodeId := schedule.sourceNodeId
  topology := schedule.topology

def runSchedule (now : Rat) (reports : List MultiVantageReport) (schedule : ScheduleEntry) :
    Method (List MultiVantageReport) := do
  match ← diagnoseService (diagnosisRequest schedule) with
  | .ok report =>
      let _ ← processDiagnosis report now
      call (.upsertSchedule (advanceSchedule schedule now none))
      pure (reports ++ [report])
  | .error e =>
      call (.upsertSchedule (advanceSchedule schedule now (some e.text)))
      pure reports

def runDueSchedules (now : Rat) : Method (List MultiVantageReport) := do
  let schedules ← call (.listSchedules none)
  Program.fold (runSchedule now) [] (schedules.filter (isDue · now))

end NetForge.Controller
