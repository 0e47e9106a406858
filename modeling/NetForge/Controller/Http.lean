import NetForge.Controller.Service
import NetForge.Python.Url
import NetForge.Python.Value

/-! # Requests, routes and replies

What `core/http_utils.py` and `controller/http_server.py` do before and after a service
method runs: the body of a request is read within a bound, the bearer token is
compared, and the command and the route decide which endpoint answers. A request
target is in origin form, as HTTP clients send it to a server.
-/

namespace NetForge.Controller

open NetForge.Core Analysis Python

/-! ## Requests -/

inductive Command
  | get | post | delete
  deriving DecidableEq, Repr

/-- A target that starts with one slash and holds no blank. -/
def IsOrigin (target : List Char) : Prop :=
  target.head? = some '/' ∧ (target.drop 1).head? ≠ some '/' ∧ ∀ c ∈ target, isSpace c = false

theorem isOrigin_iff {target : List Char} :
    (target.head? == some '/' && (target.drop 1).head? != some '/' &&
      target.all fun c => !isSpace c) = true ↔ IsOrigin target := by
  simp only [IsOrigin, Bool.and_eq_true, beq_iff_eq, bne_iff_ne, List.all_eq_true,
    Bool.not_eq_true', and_assoc]

instance (target : List Char) : Decidable (IsOrigin target) := decidable_of_iff _ isOrigin_iff

/-- A request as the handler sees it: the two headers that are read, and the octets
that can be read off the connection. -/
structure HttpRequest where
  command : Command
  target : List Char
  authorization : Option String
  contentLength : Option String
  body : Bytes
  origin : IsOrigin target

/-! ## Bodies -/

def maxBodyBytes : Nat := 2 ^ 20

inductive BodyError
  | tooLarge (message : String)
  | malformed (message : String)
  deriving DecidableEq, Repr

/-- The octets asked of the connection, and what the body was. -/
structure BodyReading where
  asked : Nat
  result : Except BodyError Dict

/-- `json.loads(body)` of octets that were read: it must be an object. -/
def decodeBody (loads : Bytes → Option PyVal) (body : Bytes) : Except BodyError Dict :=
  match loads (if body = [] then encodeUtf8 "{}" else body) with
  | none => .error (.malformed "request body must be JSON")
  | some (.dict items) => .ok items
  | some _ => .error (.malformed "request body must be a JSON object")

def readJsonBody (loads : Bytes → Option PyVal) (maxBytes : Nat) (request : HttpRequest) :
    BodyReading :=
  match int (request.contentLength.getD "0") with
  | .error _ => ⟨0, .error (.malformed "Content-Length must be an integer")⟩
  | .ok size =>
      if size < 0 then ⟨0, .error (.malformed "Content-Length must not be negative")⟩
      else if (maxBytes : Int) < size then
        ⟨0, .error (.tooLarge s!"request body exceeds {maxBytes} bytes")⟩
      else ⟨size.toNat, decodeBody loads (request.body.take size.toNat)⟩

/-- The body of a sent request is read back, unless it is too large. -/
theorem readJsonBody_sent {loads : Bytes → Option PyVal} {dumps : Dict → Bytes}
    {request : HttpRequest} {body : Dict} (hloads : loads (dumps body) = some (.dict body))
    (hne : dumps body ≠ []) (hlength : request.contentLength = some (Nat.repr (dumps body).length))
    (hbody : request.body = dumps body) :
    (readJsonBody loads maxBodyBytes request).result = .ok body ↔
      (dumps body).length ≤ maxBodyBytes := by
  unfold readJsonBody
  rw [hlength, Option.getD_some, int_repr_eq]
  by_cases hshort : (dumps body).length < 10 ^ maxStrDigits
  · rw [if_pos hshort]
    simp only []
    rw [if_neg (by omega)]
    by_cases hfits : (dumps body).length ≤ maxBodyBytes
    · rw [if_neg (by omega)]
      have hdecode : decodeBody loads (dumps body) = .ok body := by
        unfold decodeBody
        rw [if_neg hne, hloads]
      simp [hbody, hdecode, hfits]
    · rw [if_pos (by omega)]
      simp [hfits]
  · rw [if_neg hshort]
    have hlarge : 10 ^ 7 ≤ 10 ^ maxStrDigits := Nat.pow_le_pow_right (by decide) (by decide)
    have hover : ¬ (dumps body).length ≤ maxBodyBytes := by
      unfold maxBodyBytes
      omega
    simp [hover]

/-! ## Routes -/

/-- The endpoints, each with what its route and query hand over. -/
inductive Endpoint
  | health
  | listAgents
  | registerAgent
  | dispatchJob
  | getJob (jobId : String)
  | importTopology
  | listTopologyNames
  | correlateAgents (name : String)
  | correlateHostPorts (name : String)
  | topologyBindings (name : String)
  | augmentTopology (name : String)
  | getTopology (name : String)
  | registerServices (topologyName : Option String)
  | listServices
  | diagnose
  | listDiagnoses
  | getDiagnosis (diagnosisId : String)
  | createSchedule
  | listSchedules (serviceId : Option String)
  | deleteSchedule (scheduleId : String)
  | runMonitor
  | registerAlertRule
  | listAlertRules
  | deleteAlertRule (ruleId : String)
  | listAlerts (serviceId state : Option String)
  | listIncidents (serviceId state : Option String)
  | listBindings (topologyName : Option String)
  | acknowledgeIncident (incidentId : String)
  | resolveIncident (incidentId : String)
  | getIncident (incidentId : String)
  deriving DecidableEq, Repr

def endsWith (last route : List Char) : Bool := last.isSuffixOf route

/-- `route.split("/")[3]` of a route that has that many parts. -/
def fourthPart (route : List Char) : String :=
  ((splitList '/' route)[3]?.map String.ofList).getD ""

/-- `route.rsplit("/", 1)[-1]`. -/
def lastPart (route : List Char) : String :=
  ((splitList '/' route).getLast?.map String.ofList).getD ""

/-- `route.startswith("/v1/topology/") and route.endswith(last) and len(route.split("/")) == 5`. -/
def isTopologyRoute (last : String) (route : List Char) : Bool :=
  "/v1/topology/".toList.isPrefixOf route && endsWith last.toList route &&
    (splitList '/' route).length == 5

/-- The branch of `_dispatch` that a request takes. -/
def endpoint? (command : Command) (route : List Char) (query : List (String × String)) :
    Option Endpoint :=
  if command = .get ∧ route = "/v1/health".toList then some .health
  else if command = .get ∧ route = "/v1/agents".toList then some .listAgents
  else if command = .post ∧ route = "/v1/agents".toList then some .registerAgent
  else if command = .post ∧ route = "/v1/jobs".toList then some .dispatchJob
  else if command = .get ∧ "/v1/jobs/".toList.isPrefixOf route then some (.getJob (lastPart route))
  else if command = .post ∧ route = "/v1/topology".toList then some .importTopology
  else if command = .get ∧ route = "/v1/topology".toList then some .listTopologyNames
  else if command = .get ∧ isTopologyRoute "/agents" route then
    some (.correlateAgents (fourthPart route))
  else if command = .post ∧ isTopologyRoute "/correlate" route then
    some (.correlateHostPorts (fourthPart route))
  else if command = .get ∧ isTopologyRoute "/bindings" route then
    some (.topologyBindings (fourthPart route))
  else if command = .post ∧ isTopologyRoute "/augment" route then
    some (.augmentTopology (fourthPart route))
  else if command = .get ∧ "/v1/topology/".toList.isPrefixOf route then
    some (.getTopology (lastPart route))
  else if command = .post ∧ route = "/v1/services".toList then
    some (.registerServices (queryValue query "topology"))
  else if command = .get ∧ route = "/v1/services".toList then some .listServices
  else if command = .post ∧ route = "/v1/diagnose".toList then some .diagnose
  else if command = .get ∧ route = "/v1/diagnoses".toList then some .listDiagnoses
  else if command = .get ∧ "/v1/diagnoses/".toList.isPrefixOf route then
    some (.getDiagnosis (lastPart route))
  else if command = .post ∧ route = "/v1/schedules".toList then some .createSchedule
  else if command = .get ∧ route = "/v1/schedules".toList then
    some (.listSchedules (queryValue query "service_id"))
  else if command = .delete ∧ "/v1/schedules/".toList.isPrefixOf route then
    some (.deleteSchedule (lastPart route))
  else if command = .post ∧ route = "/v1/monitor/run".toList then some .runMonitor
  else if command = .post ∧ route = "/v1/alert-rules".toList then some .registerAlertRule
  else if command = .get ∧ route = "/v1/alert-rules".toList then some .listAlertRules
  else if command = .delete ∧ "/v1/alert-rules/".toList.isPrefixOf route then
    some (.deleteAlertRule (lastPart route))
  else if command = .get ∧ route = "/v1/alerts".toList then
    some (.listAlerts (queryValue query "service_id") (queryValue query "state"))
  else if command = .get ∧ route = "/v1/incidents".toList then
    some (.listIncidents (queryValue query "service_id") (queryValue query "state"))
  else if command = .get ∧ route = "/v1/bindings".toList then
    some (.listBindings (queryValue query "topology"))
  else if command = .post ∧ "/v1/incidents/".toList.isPrefixOf route ∧
      endsWith "/ack".toList route then
    some (.acknowledgeIncident (fourthPart route))
  else if command = .post ∧ "/v1/incidents/".toList.isPrefixOf route ∧
      endsWith "/resolve".toList route then
    some (.resolveIncident (fourthPart route))
  else if command = .get ∧ "/v1/incidents/".toList.isPrefixOf route then
    some (.getIncident (lastPart route))
  else none

theorem of_branch {p : Prop} [Decidable p] {endpoint taken : Endpoint} {rest : Option Endpoint}
    {P : Endpoint → Prop} (htaken : p → P taken) (hrest : rest = some endpoint → P endpoint) :
    (if p then some taken else rest) = some endpoint → P endpoint := by
  intro h
  by_cases hp : p
  · rw [if_pos hp, Option.some.injEq] at h
    exact h ▸ htaken hp
  · rw [if_neg hp] at h
    exact hrest h

def targetEndpoint? (command : Command) (target : List Char) : Option Endpoint :=
  let (route, query) := urlparse target
  endpoint? command route (parseQsl (String.ofList query))

/-! ## Replies -/

inductive Status
  | ok | created | badRequest | unauthorized | notFound | conflict | entityTooLarge
  deriving DecidableEq, Repr

def Status.code : Status → Nat
  | .ok => 200
  | .created => 201
  | .badRequest => 400
  | .unauthorized => 401
  | .notFound => 404
  | .conflict => 409
  | .entityTooLarge => 413

/-- The JSON object of a reply, by the models it is made of. -/
inductive Payload
  | error (message : String)
  | health
  | agents (agents : List RegisteredAgent)
  | agent (agent : RegisteredAgent)
  | job (job : FanoutJob)
  | topology (topology : NetworkTopology)
  | topologies (names : List String)
  | agentNodes (topology : String) (nodes : List CorrelatedNode)
  | correlated (bindings : List HostPortBinding)
  | bindings (bindings : List HostPortBinding)
  | services (services : List ServiceEndpoint)
  | report (report : MultiVantageReport)
  | diagnoses (reports : List MultiVantageReport)
  | schedule (schedule : ScheduleEntry)
  | schedules (schedules : List ScheduleEntry)
  | deleted
  | ran (reports : List MultiVantageReport)
  | alertRule (rule : AlertRule)
  | alertRules (rules : List AlertRule)
  | alerts (alerts : List Alert)
  | incidents (incidents : List Incident)
  | incident (incident : Incident)

structure Reply where
  status : Status
  payload : Payload

def Reply.failure (status : Status) (message : String) : Reply := ⟨status, .error message⟩

def Reply.isError (reply : Reply) : Bool := 400 ≤ reply.status.code

/-! ## The bearer token -/

/-- `hmac.compare_digest(a, b)` of two texts; text beyond ASCII is a `TypeError`. -/
def compareDigest (a b : String) : Except PyError Bool :=
  if a.toList.all isAscii && b.toList.all isAscii then .ok (a = b) else .error .typeError

def bearer (token : String) : String := s!"Bearer {token}"

theorem isAscii_of_isPrintable {c : Char} (h : isPrintable c = true) : isAscii c = true := by
  simp only [isPrintable, isAscii, Bool.and_eq_true, decide_eq_true_eq] at h ⊢
  omega

theorem isAscii_bearer (token : String) :
    (bearer token).toList.all isAscii = token.toList.all isAscii := by
  have hchars : (bearer token).toList = "Bearer ".toList ++ token.toList := String.toList_append
  rw [hchars, List.all_append]
  show (true && token.toList.all isAscii) = _
  exact Bool.true_and _

theorem bearer_inj {a b : String} : bearer a = bearer b ↔ a = b := by
  constructor
  · intro h
    have hchars := congrArg String.toList h
    rw [show (bearer a).toList = "Bearer ".toList ++ a.toList from String.toList_append,
      show (bearer b).toList = "Bearer ".toList ++ b.toList from String.toList_append] at hchars
    exact String.toList_inj.mp (List.append_cancel_left hchars)
  · exact congrArg bearer

theorem all_isAscii {token : String} (h : token.toList.all isPrintable = true) :
    token.toList.all isAscii = true := by
  rw [List.all_eq_true] at h ⊢
  exact fun c hc => isAscii_of_isPrintable (h c hc)

theorem compareDigest_bearer {token : String} (h : token.toList.all isPrintable = true) :
    compareDigest (bearer token) (bearer token) = .ok true := by
  unfold compareDigest
  rw [isAscii_bearer, all_isAscii h]
  simp

end NetForge.Controller
