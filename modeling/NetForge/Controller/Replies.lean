import NetForge.Controller.References

/-! # What a reply names

Every handler keeps the references between the tables, and what it names in its reply
is stored: when the reply is sent, and in every later state.
-/

namespace NetForge.Controller

open Calculus NetForge.Core Analysis Python Storage

variable {α β : Type} {w : World}

/-! ## The other methods of the service -/

theorem registerAgent_grown (registration : AgentRegistration) :
    (registerAgent registration).Grown referential
      (fun agent (v : World) => v.store.agents.Has agent.agentId) w := by
  refine grown_save (fun _ _ => trivial) fun v _ _ => ?_
  intro u _ hvu
  exact hvu.agents _ (Table.has_upsert.mpr (.inr rfl))

theorem importTopology_grown (topology : NetworkTopology) :
    (importTopology topology).Grown referential
      (fun stored (v : World) => TopologyStored stored v.store) w := by
  refine grown_save (fun _ _ => trivial) fun v _ _ => ?_
  intro u _ hvu
  exact hvu.topologies _ (Table.has_upsert.mpr (.inr rfl))

theorem getJob_grown (jobId : String) :
    (getJob jobId).Grown referential
      (fun found (v : World) => ∀ job ∈ found, v.store.jobs.Has job.jobId) w := by
  refine grown_read (f := fun found => pure found) (fun _ => trivial) fun v _ _ => ?_
  intro u _ hvu job hjob
  have hfind : v.store.jobs.find? jobId = some job := hjob
  exact hvu.jobs _ ⟨job, (Table.find?_eq_some.mp hfind).1, rfl⟩

theorem upsertServices_grown (services : List ServiceEndpoint) :
    (Program.fold (fun (_ : Unit) service => call (.upsertService service)) () services).Grown
      referential (fun _ (v : World) => ∀ service ∈ services,
        v.store.services.Has service.serviceId) w := by
  induction services generalizing w with
  | nil => exact fun _ _ _ service hservice => absurd hservice List.not_mem_nil
  | cons service services ih =>
      refine grown_save (fun _ _ => trivial) fun v _ _ => ?_
      apply ih.mono
      intro _ u _ hvu hrest other hother
      rcases List.mem_cons.mp hother with rfl | hother
      · exact hvu.services _ (Table.has_upsert.mpr (.inr rfl))
      · exact hrest other hother

theorem resolveTopology_grown (name : Option String) :
    (resolveTopology name).Grown referential
      (Yields fun found s => ∀ topology ∈ found, TopologyStored topology s) w := by
  cases name with
  | some name =>
      apply (getTopology_grown name).bind
      intro result v _ _ hresult
      cases result with
      | error e => exact yields_error
      | ok topology =>
          have hstored := hresult topology rfl
          apply yields_ok
          intro u _ hvu other hother
          cases hother
          exact hvu.topologies _ hstored
  | none =>
      refine grown_any (fun _ => trivial) fun names => ?_
      split
      · rename_i only
        refine grown_read (fun _ => trivial) fun v _ _ => ?_
        apply yields_ok
        intro u _ hvu topology htopology
        exact hvu.topologies _ (has_topology htopology)
      · exact yields_ok fun _ _ _ _ h => absurd h (by simp)

theorem registerServices_grown (inventory : ServiceInventory) (topologyName : Option String) :
    (registerServices inventory topologyName).Grown referential
      (Yields fun stored s => ∀ service ∈ stored, s.services.Has service.serviceId) w := by
  apply (resolveTopology_grown topologyName).bind
  intro found v _ _ _
  cases found with
  | error e => exact yields_error
  | ok topology =>
      simp only
      split
      · exact yields_error
      · apply (upsertServices_grown inventory.services).bind
        intro _ u _ _ hstored
        exact yields_ok fun x _ hux service hservice => hux.services _ (hstored service hservice)

theorem requireTopology_grown (name : Option String) :
    (requireTopology name).Grown referential (Yields TopologyStored) w := by
  apply (resolveTopology_grown name).bind
  intro found v _ _ hfound
  match found with
  | .error e => exact yields_error
  | .ok none => exact yields_error
  | .ok (some topology) =>
      have hstored := hfound _ rfl topology rfl
      exact yields_ok fun u _ hvu => hvu.topologies _ hstored

theorem correlateHostPorts_grown (lowercase : String → String)
    (request : DeviceCorrelationRequest) :
    (ControllerService.correlateHostPorts lowercase request).Grown referential
      (Yields fun _ _ => True) w := by
  apply (requireTopology_grown request.topology).bind
  intro found v _ _ hfound
  cases found with
  | error e => exact yields_error
  | ok topology =>
      have hstored := hfound topology rfl
      have hlicensed : ∀ bindings (u : World), Accrues v.store u.store →
          Licensed u.store (.replaceBindings topology.name bindings) :=
        fun _ u hvu => hvu.topologies _ hstored
      exact grown_write (hlicensed _) fun _ => yields_ok fun _ _ _ => trivial

theorem listBindings_grown (topology : Option String) :
    (ControllerService.listBindings topology).Grown referential (Yields fun _ _ => True) w := by
  apply ((listBindings_confined topology).grown (by simp)).mono
  exact fun _ _ _ _ _ _ _ => trivial

theorem augmentTopology_grown (name : Option String) :
    (ControllerService.augmentTopology name).Grown referential (Yields TopologyStored) w := by
  apply (requireTopology_grown name).bind
  intro found v _ _ _
  cases found with
  | error e => exact yields_error
  | ok topology =>
      refine grown_any (fun _ => trivial) fun bindings => ?_
      split
      · exact yields_error
      · cases augmentTopologyWithBindings topology bindings with
        | error e => exact yields_error
        | ok augmented =>
            refine grown_save (fun _ _ => trivial) fun u _ _ => ?_
            exact yields_ok fun x _ hux => hux.topologies _ (Table.has_upsert.mpr (.inr rfl))

theorem deleteSchedule_grown (scheduleId : String) :
    (deleteSchedule scheduleId).Grown referential (Yields fun _ _ => True) w := by
  refine grown_any (fun _ => trivial) fun found => ?_
  cases found
  · exact yields_error
  · exact yields_ok fun _ _ _ => trivial

theorem deleteAlertRule_grown (ruleId : String) :
    (deleteAlertRule ruleId).Grown referential (Yields fun _ _ => True) w := by
  refine grown_any (fun _ => trivial) fun found => ?_
  cases found
  · exact yields_error
  · exact yields_ok fun _ _ _ => trivial

/-! ## Replies -/

/-- An alert that is stored, as are its service and its diagnosis. -/
structure AlertStored (alert : Alert) (s : ControllerStore) : Prop where
  refers : AlertRefers s alert
  stored : s.alerts.Has alert.alertId

/-- What a reply names is stored, and so is what its reports, alerts and incidents refer to. -/
def PayloadStored (s : ControllerStore) : Payload → Prop
  | .agents agents => ∀ agent ∈ agents, s.agents.Has agent.agentId
  | .agent agent => s.agents.Has agent.agentId
  | .job job => s.jobs.Has job.jobId
  | .topology topology => TopologyStored topology s
  | .topologies names => ∀ name ∈ names, s.topologies.Has name
  | .agentNodes _ nodes => Correlated nodes s
  | .services services => ∀ service ∈ services, s.services.Has service.serviceId
  | .report report => Reported report s
  | .diagnoses reports | .ran reports => ∀ report ∈ reports, Reported report s
  | .schedule schedule => s.services.Has schedule.serviceId
  | .schedules schedules => ∀ schedule ∈ schedules, s.services.Has schedule.serviceId
  | .alertRule rule => ServiceKnown s rule.serviceId
  | .alertRules rules => ∀ rule ∈ rules, ServiceKnown s rule.serviceId
  | .alerts alerts => ∀ alert ∈ alerts, AlertStored alert s
  | .incidents incidents => ∀ incident ∈ incidents, Tracked incident s
  | .incident incident => Tracked incident s
  | .error _ | .health | .deleted | .correlated _ | .bindings _ => True

theorem PayloadStored.grow {payload : Payload} {s t : ControllerStore} (h : PayloadStored s payload)
    (hst : Accrues s t) : PayloadStored t payload := by
  cases payload with
  | agents agents => exact fun agent hmem => hst.agents _ (h agent hmem)
  | agent agent => exact hst.agents _ h
  | job job => exact hst.jobs _ h
  | topology topology => exact hst.topologies _ h
  | topologies names => exact fun name hmem => hst.topologies _ (h name hmem)
  | agentNodes topology nodes =>
      exact ⟨h.nodup, fun node hnode id hid => hst.agents _ (h.registered node hnode id hid)⟩
  | services services => exact fun service hmem => hst.services _ (h service hmem)
  | report report => exact Reported.grow h hst
  | diagnoses reports | ran reports => exact fun report hmem => (h report hmem).grow hst
  | schedule schedule => exact hst.services _ h
  | schedules schedules => exact fun schedule hmem => hst.services _ (h schedule hmem)
  | alertRule rule => exact ServiceKnown.grow hst h
  | alertRules rules => exact fun rule hmem => (h rule hmem).grow hst
  | alerts alerts =>
      exact fun alert hmem => ⟨(h alert hmem).refers.grow hst, hst.alerts _ (h alert hmem).stored⟩
  | incidents incidents => exact fun incident hmem => (h incident hmem).grow hst
  | incident incident => exact Tracked.grow h hst
  | _ => trivial

/-! ## Handlers -/

variable {createdAt : String → Rat}

/-- The handler keeps all references, and its reply names what is stored. -/
abbrev Answers (createdAt : String → Rat) (p : Api createdAt (Except ApiError Reply))
    (w : World) : Prop :=
  p.Grown referential (Yields fun reply s => PayloadStored s reply.payload) w

section

variable {payload : α → Payload}

theorem answered_grown {method : Api createdAt (Except ApiError α)}
    (h : method.Grown referential (Yields fun a s => PayloadStored s (payload a)) w)
    (status : Status) :
    Answers createdAt (method >>= fun
      | .error e => pure (.error e)
      | .ok result => pure (.ok ⟨status, payload result⟩)) w := by
  apply h.bind
  intro result v _ _ hresult
  cases result with
  | error e => exact yields_error
  | ok a => exact yields_ok fun u _ hvu => (hresult a rfl).grow hvu

theorem ofService_grown {p : Method (Except ServiceError α)}
    (h : p.Grown referential (Yields fun a s => PayloadStored s (payload a)) w) :
    (ofService p : Api createdAt _).Grown referential
      (Yields fun a s => PayloadStored s (payload a)) w := by
  apply h.inl.bind
  intro result v _ _ hresult
  cases result with
  | error e => exact yields_error
  | ok a => exact yields_ok fun u _ hvu => (hresult a rfl).grow hvu

theorem service_grown {p : Method (Except ServiceError α)}
    (h : p.Grown referential (Yields fun a s => PayloadStored s (payload a)) w) (status : Status) :
    Answers createdAt (ofService p >>= fun
      | .error e => pure (.error e)
      | .ok result => pure (.ok ⟨status, payload result⟩)) w :=
  answered_grown (ofService_grown h) status

theorem listed_grown {read : Api createdAt α}
    (h : read.Grown referential (fun a v => PayloadStored v.store (payload a)) w) :
    Answers createdAt (listed read payload) w := by
  apply h.bind
  intro a v _ _ ha
  exact yields_ok fun u _ hvu => ha.grow hvu

theorem listed_call {c : StoreCall} {payload : c.Reply → Payload} (hc : Unreferring c)
    (h : ∀ v : World, References v.store → PayloadStored v.store (payload (perform c v).1)) :
    Answers createdAt (listed (storeCall c) payload) w := by
  apply listed_grown
  intro v hv _
  refine ⟨Licensed.keeps hv (hc _), fun u _ hvu => (h v hv).grow ?_⟩
  exact (accrues_perform c v).trans hvu

theorem validated_grown {model : Except String β} {p : β → Method (Except ServiceError α)}
    (h : ∀ request,
      (p request).Grown referential (Yields fun a s => PayloadStored s (payload a)) w)
    (status : Status) :
    Answers createdAt (validated model (fun request => ofService (p request)) status
      payload) w := by
  cases model with
  | error message => exact yields_error
  | ok request => exact service_grown (h request) status

theorem stored_grown {model : Except String β} {p : β → Method α}
    (h : ∀ request, (p request).Grown referential (fun a v => PayloadStored v.store (payload a)) w)
    (status : Status) :
    Answers createdAt (validated model (fun request => do
      let result ← (p request).inl
      pure (.ok result)) status payload) w := by
  cases model with
  | error message => exact yields_error
  | ok request =>
      apply answered_grown
      apply (h request).inl.bind
      intro a v _ _ ha
      exact yields_ok fun u _ hvu => ha.grow hvu

end

theorem query_grown {Q : β → World → Prop} {c : QueryCall} {f : c.Reply → Api createdAt β}
    (h : ∀ v : World, References v.store →
      (f (performQuery createdAt c v).1).Grown referential Q v) :
    (query c >>= f).Grown referential Q w := by
  intro v hv _
  have hrest := h v hv
  have hsame : (performQuery createdAt c v).2 = v := by cases c <;> rfl
  show (References (performQuery createdAt c v).2.store ∧
    Accrues v.store (performQuery createdAt c v).2.store) ∧
      (f (performQuery createdAt c v).1).Grown referential Q (performQuery createdAt c v).2
  rw [hsame]
  exact ⟨⟨hv, .refl _⟩, hrest⟩

theorem withIdentifier_grown (key : String) (body : Dict)
    {rest : Dict → Api createdAt (Except ApiError Reply)}
    (h : ∀ body, Answers createdAt (rest body) w) :
    Answers createdAt (withIdentifier key body >>= rest) w := by
  unfold withIdentifier
  cases body.lookup key with
  | some value => exact h body
  | none =>
      intro v hv hwv
      refine ⟨Licensed.keeps (c := .uuid4) hv trivial, ?_⟩
      exact (h _).of_ext (hwv.trans (accrues_perform .uuid4 v))

theorem timed_grown {rest : Rat → Api createdAt (Except ApiError Reply)}
    (h : ∀ now, Answers createdAt (rest now) w) :
    Answers createdAt (storeCall .time >>= rest) w := by
  intro v hv hwv
  refine ⟨Licensed.keeps (c := .time) hv trivial, ?_⟩
  exact (h _).of_ext (hwv.trans (accrues_perform .time v))

theorem handle_grown (V : Validation) (lowercase : String → String) (body : Dict)
    (endpoint : Endpoint) :
    Answers createdAt (endpoint.handle V lowercase body) w := by
  cases endpoint with
  | health => exact yields_ok fun _ _ _ => trivial
  | listAgents =>
      refine listed_call (fun _ => trivial) fun v _ agent hagent => ?_
      exact ⟨agent, mem_orderBy.mp hagent, rfl⟩
  | registerAgent => exact stored_grown registerAgent_grown _
  | dispatchJob => exact validated_grown dispatchJob_grown _
  | getJob jobId =>
      apply (getJob_grown jobId).inl.bind
      intro found v _ _ hfound
      cases found with
      | none => exact yields_ok fun _ _ _ => trivial
      | some job => exact yields_ok fun u _ hvu => hvu.jobs _ (hfound job rfl)
  | importTopology => exact stored_grown importTopology_grown _
  | listTopologyNames =>
      refine listed_call (fun _ => trivial) fun v _ name hname => ?_
      obtain ⟨topology, htopology, rfl⟩ := List.mem_map.mp hname
      exact ⟨topology, mem_orderBy.mp htopology, rfl⟩
  | correlateAgents name => exact service_grown (correlateAgents_grown name) _
  | correlateHostPorts name =>
      exact validated_grown (correlateHostPorts_grown lowercase) _
  | topologyBindings name => exact service_grown (listBindings_grown _) _
  | augmentTopology name =>
      exact answered_grown (augmentTopology_grown _).inl _
  | getTopology name => exact service_grown (getTopology_grown name) _
  | registerServices topologyName =>
      exact validated_grown (fun inventory => registerServices_grown inventory _) _
  | listServices =>
      apply listed_grown
      intro v hv _
      refine ⟨⟨hv, .refl _⟩, fun u _ hvu service hservice => ?_⟩
      exact hvu.services _ ⟨service, mem_orderBy.mp hservice, rfl⟩
  | diagnose => exact validated_grown diagnoseService_grown _
  | listDiagnoses =>
      apply listed_grown
      intro v hv _
      refine ⟨⟨hv, .refl _⟩, fun u _ hvu report hreport => ?_⟩
      have hstored : report ∈ v.store.diagnoses.rows :=
        mem_orderByDesc.mp (List.mem_of_mem_take hreport)
      exact Reported.grow ⟨hv.diagnoses report hstored, ⟨report, hstored, rfl⟩⟩ hvu
  | getDiagnosis diagnosisId =>
      have hread : (Controller.getDiagnosis diagnosisId : Api createdAt _).Grown referential
          (Yields Reported) w := by
        refine query_grown fun v hv => ?_
        cases hfound : (performQuery createdAt (.getDiagnosis diagnosisId) v).1 with
        | none => exact yields_error
        | some report =>
            have hstored := (Table.find?_eq_some.mp hfound).1
            apply yields_ok
            intro u _ hvu
            exact Reported.grow ⟨hv.diagnoses report hstored, ⟨report, hstored, rfl⟩⟩ hvu
      exact answered_grown hread _
  | createSchedule =>
      apply withIdentifier_grown
      intro body
      cases V.scheduleEntry body with
      | error message => exact yields_error
      | ok schedule =>
          apply answered_grown
          intro v hv hwv
          refine ⟨Licensed.keeps (c := .time) hv trivial, ?_⟩
          exact ofService_grown (createSchedule_grown schedule _)
  | listSchedules serviceId =>
      refine listed_call (fun _ => trivial) fun v hv schedule hschedule => ?_
      have hstored := (List.mem_filter.mp (mem_orderBy.mp hschedule)).1
      exact hv.schedules schedule hstored
  | deleteSchedule scheduleId =>
      exact service_grown (deleteSchedule_grown scheduleId) _
  | runMonitor =>
      apply timed_grown
      intro now
      exact listed_grown (runDueSchedules_grown now).inl
  | registerAlertRule =>
      apply withIdentifier_grown
      intro body
      exact validated_grown registerAlertRule_grown _
  | listAlertRules =>
      refine listed_call (fun _ => trivial) fun v hv rule hrule => ?_
      exact hv.alertRules rule (mem_orderBy.mp hrule)
  | deleteAlertRule ruleId =>
      exact service_grown (deleteAlertRule_grown ruleId) _
  | listAlerts serviceId state =>
      simp only [Endpoint.handle]
      split
      · exact yields_error
      · refine listed_call (fun _ => trivial) fun v hv alert halert => ?_
        have hstored := mem_documents_of_alertPage halert
        exact ⟨hv.alerts alert hstored, hv.alertIds.has hstored⟩
  | listIncidents serviceId state =>
      simp only [Endpoint.handle]
      split
      · exact yields_error
      · refine listed_call (fun _ => trivial) fun v hv incident hincident => ?_
        exact hv.tracked (mem_documents_of_incidentPage hincident)
  | listBindings topologyName => exact service_grown (listBindings_grown _) _
  | acknowledgeIncident incidentId =>
      apply timed_grown
      intro now
      have hkept : ∀ incident now s, IncidentRefers s incident →
          IncidentRefers s (acknowledge incident now) := fun _ _ _ h => ⟨h.service, h.alerts⟩
      exact service_grown (updateIncident_grown hkept incidentId now) _
  | resolveIncident incidentId =>
      apply timed_grown
      intro now
      have hkept : ∀ incident now s, IncidentRefers s incident →
          IncidentRefers s (closeIncident incident now) := fun _ _ _ h => ⟨h.service, h.alerts⟩
      exact service_grown (updateIncident_grown hkept incidentId now) _
  | getIncident incidentId => exact service_grown (getIncident_grown incidentId) _

/-! ## Runs -/

def Told (outcome : Option Reply) (v : World) : Prop :=
  ∀ reply, outcome = some reply → PayloadStored v.store reply.payload

theorem told_failure {reply : Reply} (h : ∀ s, PayloadStored s reply.payload) :
    (pure (some reply) : Api createdAt _).Grown referential Told w := by
  intro v _ _ other hother
  cases hother
  exact h v.store

theorem told_none : (pure none : Api createdAt _).Grown referential Told w :=
  fun _ _ _ _ h => nomatch h

theorem payload_of_error {e : ApiError} {reply : Reply} (h : e.reply? = some reply) :
    ∃ message, reply.payload = .error message := by
  unfold ApiError.reply? at h
  split at h
  case h_12 =>
    split at h
    · cases h
      exact ⟨_, rfl⟩
    · cases h
  all_goals
    cases h
    try exact ⟨_, rfl⟩

theorem dispatch_grown (server : Server) (request : HttpRequest) (body : Dict) :
    (server.dispatch request body : Api createdAt _).Grown referential Told w := by
  unfold Server.dispatch
  cases compareDigest (request.authorization.getD "") (bearer server.token) with
  | error e => exact told_none
  | ok authorized =>
      cases authorized with
      | false => exact told_failure fun _ => trivial
      | true =>
          cases targetEndpoint? request.command request.target with
          | none => exact told_failure fun _ => trivial
          | some endpoint =>
              apply (handle_grown _ _ _ endpoint).bind
              intro result v _ _ hresult
              cases result with
              | ok reply =>
                  intro u _ hvu other hother
                  cases hother
                  exact (hresult reply rfl).grow hvu
              | error e =>
                  intro u _ _ reply hreply
                  obtain ⟨message, hmessage⟩ := payload_of_error hreply
                  rw [hmessage]
                  trivial

theorem client_grown (server : Server) (client : Client) :
    (server.client client : Api createdAt _).Grown referential Told w := by
  cases client with
  | request request =>
      show (server.serve request).Grown _ _ _
      unfold Server.serve
      cases request.command with
      | post =>
          simp only
          split
          · exact told_failure fun _ => trivial
          · exact told_failure fun _ => trivial
          · exact dispatch_grown server request _
      | get => exact dispatch_grown server request []
      | delete => exact dispatch_grown server request []
  | tick =>
      intro v hv hwv
      refine ⟨Licensed.keeps (c := .time) hv trivial, ?_⟩
      apply (runDueSchedules_grown _).inl.bind
      intro _ _ _ _ _
      exact told_none

theorem references_empty : References .empty where
  alertIds := fun _ h => nomatch h
  incidentIds := fun _ h => nomatch h
  schedules := fun _ h => nomatch h
  alertRules := fun _ h => nomatch h
  diagnoses := fun _ h => nomatch h
  alerts := fun _ h => nomatch h
  incidents := fun _ h => nomatch h
  jobs := fun _ h => nomatch h
  bindings := fun _ h => nomatch h

namespace Sample

def registration : AgentRegistration where
  agentId := "edge-1"
  url := "http://10.0.0.9:8900"
  topologyTags := []
  agentId_ne := by decide

def registrar : Server where
  token := server.token
  validation := { server.validation with agentRegistration := fun _ => .ok registration }
  lowercase := id
  loads := fun _ => some (.dict [])

def enrolment : HttpRequest where
  command := .post
  target := "/v1/agents".toList
  authorization := some "Bearer secret"
  contentLength := none
  body := []
  origin := by decide +kernel

def enrolling (ticks : Bool) : Client := if ticks then .tick else .request enrolment

end Sample

variable {ι : Type} [DecidableEq ι] (server : Server) (clients : ι → Client) (w : World)

theorem clients_grown (hw : References w.store) (is : List ι) :
    Config.AllGrown referential (fun _ => Told)
        ((server.clients createdAt clients w).run is) ∧
      Accrues w.store ((server.clients createdAt clients w).run is).state.store :=
  Config.AllGrown.run ⟨hw, fun i => client_grown server (clients i)⟩ is

/-- In every interleaving of requests with the monitoring thread, every reference of
every row leads to a row, and no row that can be referred to is lost. -/
theorem interleaved_references_hold (hw : References w.store) (is : List ι) :
    References ((server.clients createdAt clients w).run is).state.store ∧
      Accrues w.store ((server.clients createdAt clients w).run is).state.store :=
  ⟨(clients_grown server clients w hw is).1.inv, (clients_grown server clients w hw is).2⟩

/-- An agent is registered while the monitoring thread runs. -/
theorem enrolment_keeps_references :
    References ((Sample.registrar.clients (fun _ => 0) Sample.enrolling
        Sample.world).run [true, false]).state.store ∧
      Accrues Sample.world.store ((Sample.registrar.clients (fun _ => 0)
        Sample.enrolling Sample.world).run [true, false]).state.store :=
  interleaved_references_hold Sample.registrar Sample.enrolling Sample.world references_empty _

/-- What a reply names is stored from then on, whatever the other clients do. -/
theorem replied_rows_stay_stored (hw : References w.store) (is : List ι) {i : ι} {reply : Reply}
    (hdone : ((server.clients createdAt clients w).run is).thread i =
      .done (some reply)) :
    PayloadStored ((server.clients createdAt clients w).run is).state.store
      reply.payload :=
  (clients_grown server clients w hw is).1.post hdone reply rfl

/-- The agent of the reply is registered, also after a pass over the schedules. -/
theorem enrolled_agent_stays :
    PayloadStored ((Sample.registrar.clients (fun _ => 0) Sample.enrolling
        Sample.world).run [true, false, true]).state.store
      (.agent ⟨"edge-1", "http://10.0.0.9:8900", [], true, none⟩) :=
  have hdone : ((Sample.registrar.clients (fun _ => 0) Sample.enrolling Sample.world).run
      [true, false, true]).thread false =
        .done (some ⟨.created, .agent ⟨"edge-1", "http://10.0.0.9:8900", [], true, none⟩⟩) := rfl
  replied_rows_stay_stored Sample.registrar Sample.enrolling Sample.world references_empty
    [true, false, true] hdone

end NetForge.Controller
