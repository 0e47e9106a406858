import NetForge.Controller.Atomicity

/-! # The client of the API

The methods of `controller/client.py` as the requests they make, and what the server
makes of these: a method reaches the endpoint it is meant for, with its arguments and
its body, exactly when its identifiers and texts fit into a request target. What the
methods do with a reply is left to the models that validate it.
-/

namespace NetForge.Controller

open Calculus NetForge.Core Analysis Python

/-! ## Requests -/

structure ClientRequest where
  method : Command
  path : List Char
  body : Option Dict
  query : List (String × Option String)

/-- `{k: v for k, v in query.items() if v is not None}`. -/
def ClientRequest.clean (r : ClientRequest) : List (String × String) :=
  r.query.filterMap fun param => param.2.map fun value => (param.1, value)

/-- `self.base_url + path`, behind the host, with the query of the values that are set. -/
def ClientRequest.url (r : ClientRequest) : List Char :=
  if r.clean = [] then r.path else r.path ++ '?' :: (urlencode r.clean).toList

/-- `json.dumps(body).encode("utf-8")` is a parameter. A target that holds a blank, a
control character or one beyond ASCII is refused before anything is sent. -/
def ClientRequest.send? (token : String) (dumps : Dict → Bytes) (r : ClientRequest) :
    Option HttpRequest :=
  let target := selector r.url
  let data := r.body.map dumps
  if h : IsOrigin target ∧ target.all isPrintable = true then
    some
      { command := r.method
        target
        authorization := some (bearer token)
        contentLength := data.map fun octets => Nat.repr octets.length
        body := data.getD []
        origin := h.1 }
  else none

/-! ## Methods -/

inductive ClientCall
  | health
  | listAgents
  | registerAgent (agentId url : String) (topologyTags : Dict)
  | listTopologyNames
  | importTopology (topology : Dict)
  | registerServices (inventory : Dict) (topology : Option String)
  | listServices
  | diagnose (serviceId : String) (probeType : Option String) (count : Int)
      (sourceNodeId topology : Option String)
  | listDiagnoses
  | runMonitor
  | listSchedules (serviceId : Option String)
  | createSchedule (serviceId : String) (intervalSeconds : Rat) (count : Int)
      (probeType sourceNodeId topology : Option String)
  | deleteSchedule (scheduleId : String)
  | listAlertRules
  | createAlertRule (name : String) (minConfidence : Rat) (severity : String)
      (serviceId : Option String) (fireOnLocalizations : List String)
  | listAlerts (serviceId state : Option String)
  | listIncidents (serviceId state : Option String)
  | getIncident (incidentId : String)
  | ackIncident (incidentId : String)
  | resolveIncident (incidentId : String)
  | correlate (topology : String) (switches : List PyVal)
  | listBindings (topology : Option String)
  | augmentTopology (topology : String)

/-- `if value: body[key] = value`. -/
def optionalText (key : String) (value : Option String) : Dict :=
  ((nonEmpty value).map fun text => (key, .str text)).toList

def ClientCall.request : ClientCall → ClientRequest
  | .health => ⟨.get, "/v1/health".toList, none, []⟩
  | .listAgents => ⟨.get, "/v1/agents".toList, none, []⟩
  | .registerAgent agentId url topologyTags =>
      ⟨.post, "/v1/agents".toList,
        some [("agent_id", .str agentId), ("url", .str url), ("topology_tags", .dict topologyTags)],
        []⟩
  | .listTopologyNames => ⟨.get, "/v1/topology".toList, none, []⟩
  | .importTopology topology => ⟨.post, "/v1/topology".toList, some topology, []⟩
  | .registerServices inventory topology =>
      ⟨.post, "/v1/services".toList, some inventory, [("topology", topology)]⟩
  | .listServices => ⟨.get, "/v1/services".toList, none, []⟩
  | .diagnose serviceId probeType count sourceNodeId topology =>
      ⟨.post, "/v1/diagnose".toList,
        some ([("service_id", .str serviceId), ("count", .num count)] ++
          optionalText "probe_type" probeType ++ optionalText "source_node_id" sourceNodeId ++
          optionalText "topology" topology),
        []⟩
  | .listDiagnoses => ⟨.get, "/v1/diagnoses".toList, none, []⟩
  | .runMonitor => ⟨.post, "/v1/monitor/run".toList, some [], []⟩
  | .listSchedules serviceId => ⟨.get, "/v1/schedules".toList, none, [("service_id", serviceId)]⟩
  | .createSchedule serviceId intervalSeconds count probeType sourceNodeId topology =>
      ⟨.post, "/v1/schedules".toList,
        some ([("service_id", .str serviceId), ("interval_seconds", .num intervalSeconds),
            ("count", .num count)] ++
          optionalText "probe_type" probeType ++ optionalText "source_node_id" sourceNodeId ++
          optionalText "topology" topology),
        []⟩
  | .deleteSchedule scheduleId =>
      ⟨.delete, "/v1/schedules/".toList ++ scheduleId.toList, none, []⟩
  | .listAlertRules => ⟨.get, "/v1/alert-rules".toList, none, []⟩
  | .createAlertRule name minConfidence severity serviceId fireOnLocalizations =>
      ⟨.post, "/v1/alert-rules".toList,
        some ([("name", .str name), ("min_confidence", .num minConfidence),
            ("severity", .str severity)] ++
          optionalText "service_id" serviceId ++
          (if fireOnLocalizations = [] then []
            else [("fire_on_localizations", .list (fireOnLocalizations.map .str))])),
        []⟩
  | .listAlerts serviceId state =>
      ⟨.get, "/v1/alerts".toList, none, [("service_id", serviceId), ("state", state)]⟩
  | .listIncidents serviceId state =>
      ⟨.get, "/v1/incidents".toList, none, [("service_id", serviceId), ("state", state)]⟩
  | .getIncident incidentId => ⟨.get, "/v1/incidents/".toList ++ incidentId.toList, none, []⟩
  | .ackIncident incidentId =>
      ⟨.post, "/v1/incidents/".toList ++ incidentId.toList ++ "/ack".toList, some [], []⟩
  | .resolveIncident incidentId =>
      ⟨.post, "/v1/incidents/".toList ++ incidentId.toList ++ "/resolve".toList, some [], []⟩
  | .correlate topology switches =>
      ⟨.post, "/v1/topology/".toList ++ topology.toList ++ "/correlate".toList,
        some [("switches", .list switches)], []⟩
  | .listBindings topology =>
      ⟨.get,
        match nonEmpty topology with
        | some name => "/v1/topology/".toList ++ name.toList ++ "/bindings".toList
        | none => "/v1/bindings".toList,
        none, []⟩
  | .augmentTopology topology =>
      ⟨.post, "/v1/topology/".toList ++ topology.toList ++ "/augment".toList, some [], []⟩

/-- The endpoint a method is written for, with the arguments it was given. -/
def ClientCall.endpoint : ClientCall → Endpoint
  | .health => .health
  | .listAgents => .listAgents
  | .registerAgent _ _ _ => .registerAgent
  | .listTopologyNames => .listTopologyNames
  | .importTopology _ => .importTopology
  | .registerServices _ topology => .registerServices topology
  | .listServices => .listServices
  | .diagnose _ _ _ _ _ => .diagnose
  | .listDiagnoses => .listDiagnoses
  | .runMonitor => .runMonitor
  | .listSchedules serviceId => .listSchedules serviceId
  | .createSchedule _ _ _ _ _ _ => .createSchedule
  | .deleteSchedule scheduleId => .deleteSchedule scheduleId
  | .listAlertRules => .listAlertRules
  | .createAlertRule _ _ _ _ _ => .registerAlertRule
  | .listAlerts serviceId state => .listAlerts serviceId state
  | .listIncidents serviceId state => .listIncidents serviceId state
  | .getIncident incidentId => .getIncident incidentId
  | .ackIncident incidentId => .acknowledgeIncident incidentId
  | .resolveIncident incidentId => .resolveIncident incidentId
  | .correlate topology _ => .correlateHostPorts topology
  | .listBindings topology =>
      match nonEmpty topology with
      | some name => .topologyBindings name
      | none => .listBindings none
  | .augmentTopology topology => .augmentTopology topology

/-! ## What the server makes of a request -/

/-- The body that `do_POST` hands on, and none for the other commands. -/
def Server.requestBody (server : Server) (request : HttpRequest) : Option Dict :=
  match request.command with
  | .post => (readJsonBody server.loads maxBodyBytes request).result.toOption
  | _ => some []

/-- The octets of a line that `http.server` reads, its end included. A longer request line
is answered with 414, a longer header line with 431, before any method is called. -/
def maxLine : Nat := 65536

def Command.name : Command → String
  | .get => "GET"
  | .post => "POST"
  | .delete => "DELETE"

def requestLine (command : Command) (target : List Char) : List Char :=
  command.name.toList ++ ' ' :: target ++ " HTTP/1.1\r\n".toList

def headerLine (name value : String) : List Char := (name ++ ": " ++ value ++ "\r\n").toList

def HttpRequest.linesFit (request : HttpRequest) : Bool :=
  (requestLine request.command request.target).length ≤ maxLine &&
    request.authorization.all fun value => (headerLine "Authorization" value).length ≤ maxLine

/-- The endpoint a request reaches and the body it brings there, where it is not refused
before. -/
def Server.admits (server : Server) (request : HttpRequest) : Option (Endpoint × Dict) :=
  if request.linesFit then
    match compareDigest (request.authorization.getD "") (bearer server.token) with
    | .ok true =>
        (server.requestBody request).bind fun body =>
          (targetEndpoint? request.command request.target).map fun endpoint => (endpoint, body)
    | _ => none
  else none

variable {createdAt : String → Rat}

theorem admits_iff {server : Server} {request : HttpRequest} {endpoint : Endpoint} {body : Dict} :
    server.admits request = some (endpoint, body) ↔
      request.linesFit = true ∧
        compareDigest (request.authorization.getD "") (bearer server.token) = .ok true ∧
        server.requestBody request = some body ∧
        targetEndpoint? request.command request.target = some endpoint := by
  unfold Server.admits
  by_cases hlines : request.linesFit = true
  · rw [if_pos hlines, and_iff_right hlines]
    cases compareDigest (request.authorization.getD "") (bearer server.token) with
    | error e => simp
    | ok authorized =>
        cases authorized with
        | false => simp
        | true => simp [Option.bind_eq_some_iff]
  · rw [if_neg hlines]
    simp [hlines]

theorem requestBody_post {server : Server} {request : HttpRequest} {body : Dict}
    (hcommand : request.command = .post) :
    server.requestBody request = some body ↔
      (readJsonBody server.loads maxBodyBytes request).result = .ok body := by
  unfold Server.requestBody
  rw [hcommand]
  cases (readJsonBody server.loads maxBodyBytes request).result <;> simp [Except.toOption]

/-- An admitted request is served by the handler of its endpoint. -/
theorem serve_of_admits {server : Server} {request : HttpRequest} {endpoint : Endpoint}
    {body : Dict} (h : server.admits request = some (endpoint, body)) :
    (server.serve request : Api createdAt _) =
      (endpoint.handle server.validation server.lowercase body >>= fun
        | .ok reply => pure (some reply)
        | .error e => pure e.reply?) := by
  obtain ⟨-, hauthorized, hbody, hroute⟩ := admits_iff.mp h
  have hdispatch : (server.dispatch request body : Api createdAt _) =
      (endpoint.handle server.validation server.lowercase body >>= fun
        | .ok reply => pure (some reply)
        | .error e => pure e.reply?) := by
    unfold Server.dispatch
    rw [hauthorized]
    cases hfound : targetEndpoint? request.command request.target with
    | none => cases hfound.symm.trans hroute
    | some found =>
        obtain rfl := Option.some.inj (hfound.symm.trans hroute)
        rfl
  rw [← hdispatch]
  unfold Server.serve
  cases hcommand : request.command with
  | post =>
      rw [requestBody_post hcommand] at hbody
      simp only [hbody]
  | get | delete =>
      unfold Server.requestBody at hbody
      rw [hcommand] at hbody
      cases hbody
      rfl

/-! ## What the server makes of a sent request -/

section

variable {server : Server} {dumps : Dict → Bytes} {r : ClientRequest} {request : HttpRequest}

theorem send?_eq_some : r.send? server.token dumps = some request ↔
    ∃ h : IsOrigin (selector r.url) ∧ (selector r.url).all isPrintable = true,
      request =
        { command := r.method
          target := selector r.url
          authorization := some (bearer server.token)
          contentLength := (r.body.map dumps).map fun octets => Nat.repr octets.length
          body := (r.body.map dumps).getD []
          origin := h.1 } := by
  unfold ClientRequest.send?
  constructor
  · intro h
    simp only at h
    split at h
    case isTrue hsent => exact ⟨hsent, (Option.some.inj h).symm⟩
    case isFalse => cases h
  · rintro ⟨hsent, rfl⟩
    simp only
    rw [dif_pos hsent]

end

/-! ## Targets and endpoints -/

/-- A path that is sent as it stands and routed as it stands. -/
def PlainPath (path : List Char) : Prop :=
  IsOrigin path ∧ path.all isPrintable = true ∧ '#' ∉ path ∧ '?' ∉ path ∧
    ';' ∉ (splitList '/' path).getLast?.getD []

instance (path : List Char) : Decidable (PlainPath path) :=
  inferInstanceAs (Decidable (_ ∧ _ ∧ _ ∧ _ ∧ _))

/-- The request line and the line of the token are not too long for the server. -/
def ClientRequest.LinesFit (token : String) (r : ClientRequest) : Prop :=
  (requestLine r.method (selector r.url)).length ≤ maxLine ∧
    (headerLine "Authorization" (bearer token)).length ≤ maxLine

/-- The request is sent, and its target routed to the endpoint. -/
def ClientRequest.Reaches (r : ClientRequest) (endpoint : Endpoint) : Prop :=
  (IsOrigin (selector r.url) ∧ (selector r.url).all isPrintable = true) ∧
    targetEndpoint? r.method (selector r.url) = some endpoint

theorem isOrigin_append {path rest : List Char} (h : IsOrigin path) (hlong : 1 < path.length)
    (hrest : ∀ c ∈ rest, isSpace c = false) : IsOrigin (path ++ rest) := by
  match path, hlong with
  | first :: second :: path, _ =>
      refine ⟨h.1, h.2.1, fun c hc => ?_⟩
      rcases List.mem_append.mp hc with hc | hc
      · exact h.2.2 c hc
      · exact hrest c hc

/-- A plain path is routed with the parameters that have a value. -/
theorem reaches_iff_of_plain {r : ClientRequest} (h : PlainPath r.path) (hlong : 1 < r.path.length)
    (endpoint : Endpoint) :
    r.Reaches endpoint ↔
      endpoint? r.method r.path (r.clean.filter fun param => param.2 ≠ "") = some endpoint := by
  obtain ⟨horigin, hprint, hhash, hquery, hparams⟩ := h
  rw [List.all_eq_true] at hprint
  have hlast : ∀ last, (splitList '/' r.path).getLast? = some last → ';' ∉ last := by
    intro last hlast
    rwa [hlast] at hparams
  by_cases hclean : r.clean = []
  · have hurl : r.url = r.path := by
      unfold ClientRequest.url
      rw [if_pos hclean]
    have hroute : targetEndpoint? r.method r.path = endpoint? r.method r.path [] := by
      unfold targetEndpoint?
      rw [urlparse_path hhash hquery hlast]
      rfl
    unfold ClientRequest.Reaches
    rw [hurl, selector_eq_self hprint hhash, hroute, hclean, List.filter_nil,
      and_iff_right ⟨horigin, List.all_eq_true.mpr hprint⟩]
  · have hurl : r.url = r.path ++ '?' :: (urlencode r.clean).toList := by
      unfold ClientRequest.url
      rw [if_neg hclean]
    have hrest : ∀ c ∈ '?' :: (urlencode r.clean).toList, isPrintable c = true ∧ c ≠ '#' := by
      intro c hc
      rcases List.mem_cons.mp hc with rfl | hc
      · decide
      · exact urlencoded_char hc
    have hprintable : ∀ c ∈ r.path ++ '?' :: (urlencode r.clean).toList, isPrintable c = true := by
      intro c hc
      rcases List.mem_append.mp hc with hc | hc
      · exact hprint c hc
      · exact (hrest c hc).1
    have hnone : '#' ∉ r.path ++ '?' :: (urlencode r.clean).toList := by
      intro hmem
      rcases List.mem_append.mp hmem with hmem | hmem
      · exact hhash hmem
      · exact (hrest _ hmem).2 rfl
    have hfragment : '#' ∉ (urlencode r.clean).toList := fun hmem => (urlencoded_char hmem).2 rfl
    have hroute : targetEndpoint? r.method (r.path ++ '?' :: (urlencode r.clean).toList) =
        endpoint? r.method r.path (r.clean.filter fun param => param.2 ≠ "") := by
      unfold targetEndpoint?
      rw [urlparse_query hhash hquery hfragment hlast]
      simp only []
      rw [String.ofList_toList, parseQsl_urlencode]
    have hsent : IsOrigin (r.path ++ '?' :: (urlencode r.clean).toList) :=
      isOrigin_append horigin hlong fun c hc => not_isSpace_of_isPrintable (hrest c hc).1
    unfold ClientRequest.Reaches
    rw [hurl, selector_eq_self hprintable hnone, hroute,
      and_iff_right ⟨hsent, List.all_eq_true.mpr hprintable⟩]

theorem reaches_fixed {method : Command} {path : List Char} {body : Option Dict}
    {endpoint : Endpoint} (h : PlainPath path ∧ 1 < path.length)
    (hroute : endpoint? method path [] = some endpoint) :
    ClientRequest.Reaches ⟨method, path, body, []⟩ endpoint :=
  (reaches_iff_of_plain (r := ⟨method, path, body, []⟩) h.1 h.2 endpoint).mpr hroute

/-! ## Identifiers in a path -/

/-- A text that can stand between two slashes of a path. -/
def FitsSegment (text : String) : Prop :=
  ∀ c ∈ text.toList, isPrintable c = true ∧ c ≠ '/' ∧ c ≠ '?' ∧ c ≠ '#'

def FitsLast (text : String) : Prop := FitsSegment text ∧ ';' ∉ text.toList

theorem lastPart_fits {target : List Char} (h : target.all isPrintable = true) :
    FitsLast (lastPart (urlparse target).1) := by
  unfold lastPart
  cases hlast : (splitList '/' (urlparse target).1).getLast? with
  | none => simp [FitsLast, FitsSegment]
  | some piece =>
      rw [Option.map_some, Option.getD_some]
      constructor
      · intro c hc
        rw [String.toList_ofList] at hc
        obtain ⟨hmem, hseps⟩ := mem_route_piece (List.mem_of_getLast? hlast) hc
        exact ⟨List.all_eq_true.mp h c hmem, hseps⟩
      · rw [String.toList_ofList]
        exact last_route_piece hlast

theorem fourthPart_fits {target : List Char} (h : target.all isPrintable = true) :
    FitsSegment (fourthPart (urlparse target).1) := by
  unfold fourthPart
  cases hfourth : (splitList '/' (urlparse target).1)[3]? with
  | none => simp [FitsSegment]
  | some piece =>
      intro c hc
      rw [Option.map_some, Option.getD_some, String.toList_ofList] at hc
      obtain ⟨hmem, hseps⟩ := mem_route_piece (List.mem_of_getElem? hfourth) hc
      exact ⟨List.all_eq_true.mp h c hmem, hseps⟩

def Endpoint.Named (route : List Char) : Endpoint → Prop
  | .deleteSchedule text | .getIncident text => text = lastPart route
  | .acknowledgeIncident text | .resolveIncident text | .correlateHostPorts text
  | .topologyBindings text | .augmentTopology text => text = fourthPart route
  | _ => True

theorem named_of_endpoint? {command : Command} {route : List Char}
    {query : List (String × String)} {endpoint : Endpoint} :
    endpoint? command route query = some endpoint → endpoint.Named route := by
  unfold endpoint?
  repeat
    refine of_branch (P := Endpoint.Named route)
      (fun _ => by first | exact rfl | exact trivial) ?_
  intro h
  cases h

theorem named_of_reaches {r : ClientRequest} {endpoint : Endpoint} (h : r.Reaches endpoint) :
    endpoint.Named (urlparse (selector r.url)).1 := named_of_endpoint? h.2

/-! ## Routes with an identifier -/

theorem isPrefixOf_eq_false {stem route : List Char} (h : stem <+: route) {other : List Char}
    (hother : (stem.isPrefixOf other || other.isPrefixOf stem) = false) :
    other.isPrefixOf route = false := by
  rw [Bool.or_eq_false_iff] at hother
  by_contra hprefix
  rw [Bool.not_eq_false, List.isPrefixOf_iff_prefix] at hprefix
  rcases List.prefix_or_prefix_of_prefix h hprefix with hle | hle
  · rw [List.isPrefixOf_iff_prefix.mpr hle] at hother
    exact Bool.noConfusion hother.1
  · rw [List.isPrefixOf_iff_prefix.mpr hle] at hother
    exact Bool.noConfusion hother.2

theorem route_ne {stem route : List Char} (h : stem <+: route) {other : List Char}
    (hother : stem.isPrefixOf other = false) : (route = other) = False := by
  apply eq_false
  rintro rfl
  rw [List.isPrefixOf_iff_prefix.mpr h] at hother
  exact Bool.noConfusion hother

theorem endsWith_eq_false {last route : List Char} (h : last <:+ route) {other : List Char}
    (hother : (last.isSuffixOf other || other.isSuffixOf last) = false) :
    endsWith other route = false := by
  unfold endsWith
  rw [Bool.or_eq_false_iff] at hother
  by_contra hsuffix
  rw [Bool.not_eq_false, List.isSuffixOf_iff_suffix] at hsuffix
  rcases List.suffix_or_suffix_of_suffix h hsuffix with hle | hle
  · rw [List.isSuffixOf_iff_suffix.mpr hle] at hother
    exact Bool.noConfusion hother.1
  · rw [List.isSuffixOf_iff_suffix.mpr hle] at hother
    exact Bool.noConfusion hother.2

section

variable {route : List Char}

theorem endpoint?_deleteSchedule (h : "/v1/schedules/".toList <+: route) :
    endpoint? .delete route [] = some (.deleteSchedule (lastPart route)) := by
  have hstem := List.isPrefixOf_iff_prefix.mpr h
  unfold endpoint? isTopologyRoute
  simp (disch := decide +kernel) only [route_ne h, isPrefixOf_eq_false h, hstem, reduceCtorEq,
    false_and, true_and, and_false, if_false, Bool.false_and, if_true, Bool.false_eq_true]

theorem endpoint?_incident (h : "/v1/incidents/".toList <+: route) :
    endpoint? .get route [] = some (.getIncident (lastPart route)) ∧
      ("/ack".toList <:+ route →
        endpoint? .post route [] = some (.acknowledgeIncident (fourthPart route))) ∧
      ("/resolve".toList <:+ route →
        endpoint? .post route [] = some (.resolveIncident (fourthPart route))) := by
  have hstem := List.isPrefixOf_iff_prefix.mpr h
  unfold endpoint? isTopologyRoute
  simp (disch := decide +kernel) only [route_ne h, isPrefixOf_eq_false h, hstem, reduceCtorEq,
    false_and, true_and, and_false, if_false, Bool.false_and, if_true, Bool.false_eq_true]
  constructor
  · intro hlast
    have hend : endsWith "/ack".toList route = true := List.isSuffixOf_iff_suffix.mpr hlast
    rw [if_pos hend]
  · intro hlast
    have hend : endsWith "/resolve".toList route = true := List.isSuffixOf_iff_suffix.mpr hlast
    have hack : ¬ endsWith "/ack".toList route = true := by
      rw [endsWith_eq_false hlast (by decide +kernel)]
      exact Bool.false_ne_true
    rw [if_neg hack, if_pos hend]

/-- The endpoints of a topology that have a part after its name. -/
theorem endpoint?_topology (h : "/v1/topology/".toList <+: route)
    (hparts : (splitList '/' route).length = 5) :
    ("/correlate".toList <:+ route →
        endpoint? .post route [] = some (.correlateHostPorts (fourthPart route))) ∧
      ("/bindings".toList <:+ route →
        endpoint? .get route [] = some (.topologyBindings (fourthPart route))) ∧
      ("/augment".toList <:+ route →
        endpoint? .post route [] = some (.augmentTopology (fourthPart route))) := by
  have hstem := List.isPrefixOf_iff_prefix.mpr h
  unfold endpoint? isTopologyRoute
  simp (disch := decide +kernel) only [route_ne h, isPrefixOf_eq_false h, hstem, hparts,
    reduceCtorEq, false_and, true_and, and_false, if_false, Bool.false_eq_true, Bool.true_and,
    beq_self_eq_true, Bool.and_true]
  refine ⟨fun hlast => ?_, fun hlast => ?_, fun hlast => ?_⟩
  · have hend : endsWith "/correlate".toList route = true :=
      List.isSuffixOf_iff_suffix.mpr hlast
    rw [if_pos hend]
  · have hend : endsWith "/bindings".toList route = true :=
      List.isSuffixOf_iff_suffix.mpr hlast
    have hagents : ¬ endsWith "/agents".toList route = true := by
      rw [endsWith_eq_false hlast (by decide +kernel)]
      exact Bool.false_ne_true
    rw [if_neg hagents, if_pos hend]
  · have hend : endsWith "/augment".toList route = true :=
      List.isSuffixOf_iff_suffix.mpr hlast
    have hcorrelate : ¬ endsWith "/correlate".toList route = true := by
      rw [endsWith_eq_false hlast (by decide +kernel)]
      exact Bool.false_ne_true
    rw [if_neg hcorrelate, if_pos hend]

end

/-! ## Paths with an identifier -/

theorem slash_not_mem {text : String} (h : FitsSegment text) : '/' ∉ text.toList :=
  fun hmem => (h _ hmem).2.1 rfl

theorem plainPath_segment {stem last : List Char} {text : String} (h : FitsSegment text)
    (hstem : IsOrigin stem ∧ 1 < stem.length ∧ stem.all isPrintable = true ∧ '#' ∉ stem ∧
      '?' ∉ stem)
    (hlast : last.all isPrintable = true ∧ '#' ∉ last ∧ '?' ∉ last)
    (hparams : ';' ∉ (splitList '/' (stem ++ text.toList ++ last)).getLast?.getD []) :
    PlainPath (stem ++ text.toList ++ last) ∧ 1 < (stem ++ text.toList ++ last).length := by
  obtain ⟨horigin, hlong, hstem, hhash, hquery⟩ := hstem
  have hprint : (stem ++ (text.toList ++ last)).all isPrintable = true := by
    rw [List.all_append, List.all_append, hstem, hlast.1,
      List.all_eq_true.mpr fun c hc => (h c hc).1]
    rfl
  rw [List.append_assoc] at hparams ⊢
  have hspace : ∀ c ∈ text.toList ++ last, isSpace c = false := by
    intro c hc
    exact not_isSpace_of_isPrintable
      (List.all_eq_true.mp hprint c (List.mem_append_right _ hc))
  have without : ∀ d : Char, (∀ c ∈ text.toList, c ≠ d) → d ∉ stem → d ∉ last →
      d ∉ stem ++ (text.toList ++ last) := by
    intro d htext hs hl hmem
    rcases List.mem_append.mp hmem with hmem | hmem
    · exact hs hmem
    · rcases List.mem_append.mp hmem with hmem | hmem
      · exact htext d hmem rfl
      · exact hl hmem
  refine ⟨⟨isOrigin_append horigin hlong hspace, hprint, ?_, ?_, hparams⟩, ?_⟩
  · exact without '#' (fun c hc => (h c hc).2.2.2) hhash hlast.2.1
  · exact without '?' (fun c hc => (h c hc).2.2.1) hquery hlast.2.2
  · rw [List.length_append]
    omega

/-! ## The methods that reach their endpoint -/

/-- What the arguments that go into the target of a request must be like. An empty
query value is lost on the way. -/
def ClientCall.FitsTarget : ClientCall → Prop
  | .deleteSchedule text | .getIncident text => FitsLast text
  | .ackIncident text | .resolveIncident text | .correlate text _ | .augmentTopology text =>
      FitsSegment text
  | .listBindings topology => ∀ text, nonEmpty topology = some text → FitsSegment text
  | .registerServices _ value | .listSchedules value => value ≠ some ""
  | .listAlerts serviceId state | .listIncidents serviceId state =>
      serviceId ≠ some "" ∧ state ≠ some ""
  | _ => True

section

variable {stem : List Char} {front : List (List Char)} {text : String}

/-- A path that ends in an identifier: what it is split into, and that it is plain. -/
theorem path_last (h : FitsLast text)
    (hsplit : splitList '/' (stem ++ text.toList) = front ++ splitList '/' text.toList)
    (hstem : IsOrigin stem ∧ 1 < stem.length ∧ stem.all isPrintable = true ∧ '#' ∉ stem ∧
      '?' ∉ stem) :
    (PlainPath (stem ++ text.toList) ∧ 1 < (stem ++ text.toList).length) ∧
      lastPart (stem ++ text.toList) = text := by
  rw [splitList_of_not_mem (slash_not_mem h.1)] at hsplit
  have hlast : (splitList '/' (stem ++ text.toList)).getLast? = some text.toList := by
    rw [hsplit, List.getLast?_append_of_ne_nil _ (by simp)]
    rfl
  constructor
  · have hparams : ';' ∉ (splitList '/' (stem ++ text.toList ++ [])).getLast?.getD [] := by
      rw [List.append_nil, hlast]
      exact h.2
    have hplain := plainPath_segment h.1 hstem (by simp) hparams
    rwa [List.append_nil] at hplain
  · unfold lastPart
    rw [hlast, Option.map_some, Option.getD_some, String.ofList_toList]

theorem path_fourth {first second third last : List Char} (h : FitsSegment text)
    (hsplit : splitList '/' (stem ++ (text.toList ++ '/' :: last)) =
      [first, second, third] ++ splitList '/' (text.toList ++ '/' :: last))
    (hstem : IsOrigin stem ∧ 1 < stem.length ∧ stem.all isPrintable = true ∧ '#' ∉ stem ∧
      '?' ∉ stem)
    (hlast : last.all isPrintable = true ∧ '#' ∉ last ∧ '?' ∉ last ∧ '/' ∉ last ∧ ';' ∉ last) :
    let path := stem ++ text.toList ++ '/' :: last
    (PlainPath path ∧ 1 < path.length) ∧ fourthPart path = text ∧
      (splitList '/' path).length = 5 := by
  intro path
  obtain ⟨hprint, hhash, hquery, hslash, hparams⟩ := hlast
  have hparts : splitList '/' path = [first, second, third, text.toList, last] := by
    show splitList '/' (stem ++ text.toList ++ '/' :: last) = _
    rw [List.append_assoc, hsplit, splitList_append (slash_not_mem h),
      splitList_of_not_mem hslash]
    rfl
  refine ⟨plainPath_segment h hstem ⟨?_, ?_, ?_⟩ ?_, ?_, ?_⟩
  · rw [List.all_cons, hprint]
    decide
  · simp [hhash]
  · simp [hquery]
  · show ';' ∉ (splitList '/' path).getLast?.getD []
    rw [hparts]
    exact hparams
  · unfold fourthPart
    rw [hparts]
    exact String.ofList_toList
  · rw [hparts]
    rfl

end

theorem queryValue_one (name : String) (value : Option String) :
    queryValue ((([(name, value)] : List (String × Option String)).filterMap fun param =>
      param.2.map fun value => (param.1, value)).filter fun param => param.2 ≠ "") name =
        value.filter (· ≠ "") := by
  cases value with
  | none => rfl
  | some text => by_cases hblank : text = "" <;> simp [queryValue, hblank, Option.filter]

theorem filter_ne_blank_iff {value : Option String} :
    value.filter (· ≠ "") = value ↔ value ≠ some "" := by
  cases value with
  | none => simp
  | some text => by_cases hblank : text = "" <;> simp [hblank, Option.filter]

theorem queryValue_two (first second : Option String) :
    let clean := (([("service_id", first), ("state", second)] :
      List (String × Option String)).filterMap fun param =>
        param.2.map fun value => (param.1, value)).filter fun param => param.2 ≠ ""
    queryValue clean "service_id" = first.filter (· ≠ "") ∧
      queryValue clean "state" = second.filter (· ≠ "") := by
  cases first with
  | none =>
      cases second with
      | none => exact ⟨rfl, rfl⟩
      | some text => by_cases hblank : text = "" <;> simp [queryValue, hblank, Option.filter]
  | some text =>
      cases second with
      | none => by_cases hblank : text = "" <;> simp [queryValue, hblank, Option.filter]
      | some other =>
          by_cases hblank : text = "" <;> by_cases hother : other = "" <;>
            simp [queryValue, hblank, hother, Option.filter, List.lookup_cons]

theorem plainPath_queried {path : List Char}
    (h : path ∈ ["/v1/services".toList, "/v1/schedules".toList, "/v1/alerts".toList,
      "/v1/incidents".toList]) : PlainPath path ∧ 1 < path.length := by
  simp only [List.mem_cons, List.not_mem_nil, or_false] at h
  rcases h with rfl | rfl | rfl | rfl <;> decide +kernel

theorem reaches_query {r : ClientRequest} {made : List (String × String) → Endpoint}
    (h : PlainPath r.path ∧ 1 < r.path.length)
    (hroute : ∀ query, endpoint? r.method r.path query = some (made query)) (endpoint : Endpoint) :
    r.Reaches endpoint ↔ made (r.clean.filter fun param => param.2 ≠ "") = endpoint := by
  rw [reaches_iff_of_plain h.1 h.2, hroute, Option.some.injEq]

theorem reaches_registerServices (inventory : Dict) (value : Option String) :
    (ClientCall.registerServices inventory value).request.Reaches (.registerServices value) ↔
      value ≠ some "" := by
  have hroute : ∀ query, endpoint? .post "/v1/services".toList query =
      some (.registerServices (queryValue query "topology")) := by
    intro query
    simp [endpoint?, isTopologyRoute, endsWith]
  have hreach := reaches_query (r := (ClientCall.registerServices inventory value).request)
    (plainPath_queried (by simp [ClientCall.request])) hroute (.registerServices value)
  rw [hreach, Endpoint.registerServices.injEq, ← filter_ne_blank_iff]
  unfold ClientCall.request ClientRequest.clean
  rw [queryValue_one]

theorem reaches_listSchedules (value : Option String) :
    (ClientCall.listSchedules value).request.Reaches (.listSchedules value) ↔ value ≠ some "" := by
  have hroute : ∀ query, endpoint? .get "/v1/schedules".toList query =
      some (.listSchedules (queryValue query "service_id")) := by
    intro query
    simp [endpoint?, isTopologyRoute, endsWith]
  have hreach := reaches_query (r := (ClientCall.listSchedules value).request)
    (plainPath_queried (by simp [ClientCall.request])) hroute (.listSchedules value)
  rw [hreach, Endpoint.listSchedules.injEq, ← filter_ne_blank_iff]
  unfold ClientCall.request ClientRequest.clean
  rw [queryValue_one]

theorem reaches_listAlerts (serviceId state : Option String) :
    (ClientCall.listAlerts serviceId state).request.Reaches (.listAlerts serviceId state) ↔
      serviceId ≠ some "" ∧ state ≠ some "" := by
  have hroute : ∀ query, endpoint? .get "/v1/alerts".toList query =
      some (.listAlerts (queryValue query "service_id") (queryValue query "state")) := by
    intro query
    simp [endpoint?, isTopologyRoute, endsWith]
  have hreach := reaches_query (r := (ClientCall.listAlerts serviceId state).request)
    (plainPath_queried (by simp [ClientCall.request])) hroute (.listAlerts serviceId state)
  rw [hreach, Endpoint.listAlerts.injEq, ← filter_ne_blank_iff, ← filter_ne_blank_iff]
  unfold ClientCall.request ClientRequest.clean
  rw [(queryValue_two serviceId state).1, (queryValue_two serviceId state).2]

theorem reaches_listIncidents (serviceId state : Option String) :
    (ClientCall.listIncidents serviceId state).request.Reaches (.listIncidents serviceId state) ↔
      serviceId ≠ some "" ∧ state ≠ some "" := by
  have hroute : ∀ query, endpoint? .get "/v1/incidents".toList query =
      some (.listIncidents (queryValue query "service_id") (queryValue query "state")) := by
    intro query
    simp [endpoint?, isTopologyRoute, endsWith]
  have hreach := reaches_query (r := (ClientCall.listIncidents serviceId state).request)
    (plainPath_queried (by simp [ClientCall.request])) hroute (.listIncidents serviceId state)
  rw [hreach, Endpoint.listIncidents.injEq, ← filter_ne_blank_iff, ← filter_ne_blank_iff]
  unfold ClientCall.request ClientRequest.clean
  rw [(queryValue_two serviceId state).1, (queryValue_two serviceId state).2]

theorem reaches_last {method : Command} {stem first second third : List Char} {text : String}
    {f : String → Endpoint} (hnamed : ∀ route, (f text).Named route → text = lastPart route)
    (hroute : ∀ route, stem <+: route → endpoint? method route [] = some (f (lastPart route)))
    (hsplit : ∀ rest, splitList '/' (stem ++ rest) = [first, second, third] ++ splitList '/' rest)
    (hstem : IsOrigin stem ∧ 1 < stem.length ∧ stem.all isPrintable = true ∧ '#' ∉ stem ∧
      '?' ∉ stem) :
    ClientRequest.Reaches ⟨method, stem ++ text.toList, none, []⟩ (f text) ↔ FitsLast text := by
  constructor
  · intro h
    have hfits := lastPart_fits h.1.2
    rwa [← hnamed _ (named_of_reaches h)] at hfits
  · intro h
    obtain ⟨hplain, hname⟩ := path_last h (hsplit text.toList) hstem
    apply reaches_fixed hplain
    rw [hroute _ (List.prefix_append _ _), hname]

/-- A method with an identifier between the fixed parts of its path. -/
theorem reaches_fourth {method : Command} {stem first second third last : List Char}
    {body : Option Dict} {text : String} {f : String → Endpoint}
    (hnamed : ∀ route, (f text).Named route → text = fourthPart route)
    (hroute : ∀ route, stem <+: route → '/' :: last <:+ route → (splitList '/' route).length = 5 →
      endpoint? method route [] = some (f (fourthPart route)))
    (hsplit : ∀ rest, splitList '/' (stem ++ rest) = [first, second, third] ++ splitList '/' rest)
    (hstem : IsOrigin stem ∧ 1 < stem.length ∧ stem.all isPrintable = true ∧ '#' ∉ stem ∧
      '?' ∉ stem)
    (hlast : last.all isPrintable = true ∧ '#' ∉ last ∧ '?' ∉ last ∧ '/' ∉ last ∧ ';' ∉ last) :
    ClientRequest.Reaches ⟨method, stem ++ text.toList ++ '/' :: last, body, []⟩ (f text) ↔
      FitsSegment text := by
  constructor
  · intro h
    have hfits := fourthPart_fits h.1.2
    rwa [← hnamed _ (named_of_reaches h)] at hfits
  · intro h
    obtain ⟨hplain, hname, hparts⟩ := path_fourth h (hsplit _) hstem hlast
    apply reaches_fixed hplain
    rw [hroute _ (by rw [List.append_assoc]; exact List.prefix_append _ _)
      (List.suffix_append _ _) hparts, hname]

/-- A method reaches its endpoint exactly when its arguments fit into a target. -/
theorem reaches_iff (c : ClientCall) : c.request.Reaches c.endpoint ↔ c.FitsTarget := by
  cases c with
  | health | listAgents | registerAgent _ _ _ | listTopologyNames | importTopology _
  | listServices | diagnose _ _ _ _ _ | listDiagnoses | runMonitor | createSchedule _ _ _ _ _ _
  | listAlertRules | createAlertRule _ _ _ _ _ =>
      exact iff_of_true (reaches_fixed (by decide +kernel)
        (by dsimp only [ClientCall.endpoint]; decide +kernel)) trivial
  | registerServices inventory value => exact reaches_registerServices inventory value
  | listSchedules value => exact reaches_listSchedules value
  | listAlerts serviceId state => exact reaches_listAlerts serviceId state
  | listIncidents serviceId state => exact reaches_listIncidents serviceId state
  | deleteSchedule text =>
      exact reaches_last (f := .deleteSchedule) (fun _ => id)
        (fun _ h => endpoint?_deleteSchedule h) (fun _ => rfl) (by decide +kernel)
  | getIncident text =>
      exact reaches_last (f := .getIncident) (fun _ => id)
        (fun _ h => (endpoint?_incident h).1) (fun _ => rfl) (by decide +kernel)
  | ackIncident text =>
      exact reaches_fourth (f := .acknowledgeIncident) (fun _ => id)
        (fun _ h hlast _ => (endpoint?_incident h).2.1 hlast) (fun _ => rfl)
        (by decide +kernel)
        (by decide +kernel)
  | resolveIncident text =>
      exact reaches_fourth (f := .resolveIncident) (fun _ => id)
        (fun _ h hlast _ => (endpoint?_incident h).2.2 hlast) (fun _ => rfl) (by decide +kernel)
        (by decide +kernel)
  | correlate text switches =>
      exact reaches_fourth (f := .correlateHostPorts) (fun _ => id)
        (fun _ h hlast hparts => (endpoint?_topology h hparts).1 hlast) (fun _ => rfl)
        (by decide +kernel)
        (by decide +kernel)
  | augmentTopology text =>
      exact reaches_fourth (f := .augmentTopology) (fun _ => id)
        (fun _ h hlast hparts => (endpoint?_topology h hparts).2.2 hlast) (fun _ => rfl)
        (by decide +kernel)
        (by decide +kernel)
  | listBindings topology =>
      cases hname : nonEmpty topology with
      | none =>
          have hpath : (ClientCall.listBindings topology).request =
              ⟨.get, "/v1/bindings".toList, none, []⟩ := by
            simp only [ClientCall.request, hname]
          have hendpoint : (ClientCall.listBindings topology).endpoint = .listBindings none := by
            simp only [ClientCall.endpoint, hname]
          rw [hpath, hendpoint]
          apply iff_of_true (reaches_fixed (by decide +kernel) (by decide +kernel))
          intro text htext
          rw [hname] at htext
          cases htext
      | some name =>
          have hpath : (ClientCall.listBindings topology).request =
              ⟨.get, "/v1/topology/".toList ++ name.toList ++ "/bindings".toList, none, []⟩ := by
            simp only [ClientCall.request, hname]
          have hendpoint :
              (ClientCall.listBindings topology).endpoint = .topologyBindings name := by
            simp only [ClientCall.endpoint, hname]
          have hfits : (ClientCall.listBindings topology).FitsTarget ↔ FitsSegment name := by
            simp [ClientCall.FitsTarget, hname]
          rw [hpath, hendpoint, hfits]
          exact reaches_fourth (f := .topologyBindings) (fun _ => id)
            (fun _ h hlast hparts => (endpoint?_topology h hparts).2.1 hlast) (fun _ => rfl)
            (by decide +kernel)
            (by decide +kernel)

theorem request_method (c : ClientCall) : c.request.method = .post ↔ c.request.body ≠ none := by
  cases c <;> simp [ClientCall.request]

/-- The server gets the body that a method was given, unless it is too large. -/
theorem requestBody_sent {server : Server} {dumps : Dict → Bytes} {c : ClientCall}
    {request : HttpRequest} (hsend : c.request.send? server.token dumps = some request)
    (hjson : ∀ body, c.request.body = some body →
      server.loads (dumps body) = some (.dict body) ∧ dumps body ≠ []) :
    server.requestBody request = some (c.request.body.getD []) ↔
      ∀ body, c.request.body = some body → (dumps body).length ≤ maxBodyBytes := by
  obtain ⟨hsent, rfl⟩ := send?_eq_some.mp hsend
  cases hbody : c.request.body with
  | none =>
      have hmethod : c.request.method ≠ .post := fun h => (request_method c).mp h hbody
      unfold Server.requestBody
      cases hm : c.request.method with
      | post => exact absurd hm hmethod
      | get | delete => simp
  | some body =>
      have hmethod : c.request.method = .post := (request_method c).mpr (by simp [hbody])
      obtain ⟨hloads, hne⟩ := hjson body hbody
      rw [requestBody_post hmethod, Option.getD_some,
        readJsonBody_sent hloads hne (by simp) (by simp)]
      simp

theorem linesFit_sent {r : ClientRequest} {token : String} {contentLength : Option String}
    {body : Bytes} {origin : IsOrigin (selector r.url)} :
    HttpRequest.linesFit
        ⟨r.method, selector r.url, some (bearer token), contentLength, body, origin⟩ = true ↔
      r.LinesFit token := by
  simp [HttpRequest.linesFit, ClientRequest.LinesFit]

namespace Sample

def reader : Server where
  token := server.token
  validation := server.validation
  lowercase := id
  loads := fun octets => if octets = encodeUtf8 "{}" then some (.dict []) else none

def dumps : Dict → Bytes
  | [] => encodeUtf8 "{}"
  | _ :: _ => encodeUtf8 "{...}"

end Sample

section

variable (server : Server) (dumps : Dict → Bytes)

/-- A method is received, at the endpoint it is written for and with the body it was
given, exactly when its arguments fit into a target, its lines are not too long and its
body is not too large; what is received is handed to the handler of that endpoint. -/
theorem client_call_received_iff (htoken : server.token.toList.all isPrintable = true)
    (c : ClientCall) (hjson : ∀ body, c.request.body = some body →
      server.loads (dumps body) = some (.dict body) ∧ dumps body ≠ []) :
    ((∃ request, c.request.send? server.token dumps = some request ∧
        server.admits request = some (c.endpoint, c.request.body.getD [])) ↔
      c.FitsTarget ∧ c.request.LinesFit server.token ∧
        ∀ body, c.request.body = some body → (dumps body).length ≤ maxBodyBytes) ∧
    ∀ request endpoint body, server.admits request = some (endpoint, body) →
      (server.serve request : Api createdAt _) =
        (endpoint.handle server.validation server.lowercase body >>= fun
          | .ok reply => pure (some reply)
          | .error e => pure e.reply?) := by
  constructor
  · rw [← reaches_iff c]
    constructor
    · rintro ⟨request, hsend, hadmits⟩
      obtain ⟨hsent, rfl⟩ := send?_eq_some.mp hsend
      obtain ⟨hlines, -, hbody, hroute⟩ := admits_iff.mp hadmits
      exact ⟨⟨hsent, hroute⟩, linesFit_sent.mp hlines, (requestBody_sent hsend hjson).mp hbody⟩
    · rintro ⟨⟨hsent, hroute⟩, hlines, hsizes⟩
      have hsend : ∃ request, c.request.send? server.token dumps = some request :=
        ⟨_, send?_eq_some.mpr ⟨hsent, rfl⟩⟩
      obtain ⟨request, hsend⟩ := hsend
      have hbody := (requestBody_sent hsend hjson).mpr hsizes
      refine ⟨request, hsend, admits_iff.mpr ⟨?_, ?_, hbody, ?_⟩⟩
      · obtain ⟨-, rfl⟩ := send?_eq_some.mp hsend
        exact linesFit_sent.mpr hlines
      · obtain ⟨-, rfl⟩ := send?_eq_some.mp hsend
        exact compareDigest_bearer htoken
      · obtain ⟨-, rfl⟩ := send?_eq_some.mp hsend
        exact hroute
  · intro request endpoint body h
    exact serve_of_admits h

/-- An identifier with a semicolon reaches the endpoint that acknowledges it. -/
theorem acknowledgement_received :
    ∃ request, (ClientCall.ackIncident "a;1").request.send? Sample.reader.token Sample.dumps =
        some request ∧
      Sample.reader.admits request = some (.acknowledgeIncident "a;1", []) := by
  have h := (@client_call_received_iff (fun _ => 0) Sample.reader Sample.dumps
    (by decide +kernel) (.ackIncident "a;1") (by
      intro body hbody
      cases hbody
      exact ⟨by simp [Sample.reader, Sample.dumps], by decide +kernel⟩)).1.mpr
  apply h
  refine ⟨?_, ?_, ?_⟩
  · intro c hc
    have hc : c ∈ ['a', ';', '1'] := hc
    simp only [List.mem_cons, List.not_mem_nil, or_false] at hc
    rcases hc with rfl | rfl | rfl <;> decide
  · unfold ClientRequest.LinesFit
    decide +kernel
  · intro body hbody
    cases hbody
    decide +kernel

end

end NetForge.Controller
