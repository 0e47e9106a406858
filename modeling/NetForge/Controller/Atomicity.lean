import NetForge.Calculus.Commitment
import NetForge.Controller.Api
import NetForge.Controller.Dispatch

/-! # Requests that are refused

Requests are served in threads of their own, beside the monitoring thread. A request
that is answered with an error, or not at all, has changed nothing that is stored,
however its calls were interleaved with those of the others; neither has a request
that only reads.
-/

namespace NetForge.Controller

open Calculus NetForge.Core Analysis Python Storage

def World.stored (w : World) : ControllerStore × List Snapshot := (w.store, w.history)

/-- Who calls the service: a request that is being served, or the monitoring thread. -/
inductive Client
  | request (request : HttpRequest)
  | tick

variable {createdAt : String → Rat}

/-- `tick()`: one pass over the schedules. -/
def monitorTick : Api createdAt (Option Reply) := do
  let now ← storeCall .time
  let _ ← (Controller.runDueSchedules now).inl
  pure none

def Server.client (server : Server) : Client → Api createdAt (Option Reply)
  | .request request => server.serve request
  | .tick => monitorTick

/-! ## Quiet calls -/

/-- The calls that change no table: a snapshot of the schedules is one of them. -/
theorem quiet_of_touches {c : StoreCall}
    (h : c.touches ∈ [none, some .identifiers, some .network, some .clock]) :
    controller.Quiet World.stored c := by
  intro w
  cases c with
  | fanout agents probe =>
      simp only [perform]
      split <;> rfl
  | _ => first | rfl | exact absurd h (by simp [StoreCall.touches])

theorem Confined.quiet {α : Type} {resources : List Resource} {p : Method α}
    (h : Confined resources p) (hreads : ∀ r ∈ resources, r ∈ [.identifiers, .network, .clock]) :
    p.Calls (controller.Quiet World.stored) := by
  apply Program.Calls.mono h
  intro c hc
  apply quiet_of_touches
  cases ht : c.touches with
  | none => simp
  | some r =>
      have hr := hreads r (hc r ht)
      simp only [List.mem_cons, List.not_mem_nil, or_false] at hr ⊢
      rcases hr with rfl | rfl | rfl <;> simp

theorem quiet_query (createdAt : String → Rat) (c : QueryCall) :
    (queries createdAt).Quiet World.stored c := by
  intro w
  cases c <;> rfl

/-! ## Service methods -/

def Raised {ε α : Type} : Except ε α → Prop
  | .ok _ => False
  | .error _ => True

section

variable {α : Type}

abbrev RaisesQuietly {ε : Type} (p : Method (Except ε α)) : Prop :=
  p.FailsQuietly World.stored Raised

theorem Confined.raisesQuietly {ε : Type} {p : Method (Except ε α)} (h : Confined [] p) :
    RaisesQuietly p := (h.quiet (by simp)).failsQuietly

theorem write_returns {c : StoreCall} {result : Except ServiceError α} (h : ¬ Raised result) :
    RaisesQuietly (call c >>= fun _ => pure result) := fun _ => .inr h

/-- What raises has not written; the last write of a method is followed by its result. -/
theorem requireAgents_length (ids : List String) :
    (requireAgents ids).Returns fun
      | .ok agents => agents.length = ids.length
      | .error _ => True := by
  induction ids with
  | nil => rfl
  | cons id rest ih =>
      refine .request fun found => ?_
      cases found with
      | none => trivial
      | some agent =>
          show Program.Returns _ (if agent.enabled then _ else _)
          by_cases henabled : agent.enabled
          · rw [if_pos henabled]
            apply ih.bind
            intro result hresult
            cases result with
            | error e => trivial
            | ok others => exact congrArg (· + 1) hresult
          · rw [if_neg henabled]
            trivial

theorem dispatchJob_raisesQuietly (request : FanoutJobRequest) :
    RaisesQuietly (dispatchJob request) := by
  rw [dispatchJob_eq]
  apply Program.FailsQuietly.after ((requireAgents_confined _).quiet (by simp))
    (requireAgents_length _)
  intro result hlength
  cases result with
  | error e => trivial
  | ok agents =>
      have hagents : agents ≠ [] := by
        obtain ⟨id, hid⟩ := List.exists_mem_of_length_pos request.agentIds_length.1
        have hmem := List.length_pos_of_mem (mem_distinctIds.mpr hid)
        rw [← hlength] at hmem
        exact List.ne_nil_of_length_pos hmem
      refine .read (fun _ => rfl) fun jobId => ?_
      refine .read (fun _ => rfl) fun createdAt => ?_
      apply Program.Returns.failsQuietly
      refine .request fun _ => ?_
      intro w
      -- The pool has a worker for every agent, so the fan-out itself does not raise.
      have hfanout : (perform (.fanout agents request.probe) w).1 =
          .ok (w.network w.fanouts agents request.probe) := by
        simp only [perform, if_neg hagents]
      simp only [hfanout]
      show Program.Returns _ (recordJob _ (w.network w.fanouts agents request.probe))
      apply (Program.returns_trivial _).bind
      intro _ _
      exact .request fun _ => .request fun _ => id

theorem registerServices_raisesQuietly (inventory : ServiceInventory)
    (topologyName : Option String) : RaisesQuietly (registerServices inventory topologyName) := by
  apply Program.FailsQuietly.after ((resolveTopology_confined _).quiet (by simp))
    (Program.returns_trivial _)
  intro found _
  cases found with
  | error e => trivial
  | ok topology =>
      simp only
      cases topology.bind (unknownNode? · inventory.services) with
      | some missing => trivial
      | none =>
          apply Program.Returns.failsQuietly
          exact (Program.returns_trivial _).bind fun _ _ => id

theorem diagnoseService_raisesQuietly (request : DiagnosisRequest) :
    RaisesQuietly (diagnoseService request) := by
  refine .read (fun _ => rfl) fun found => ?_
  cases found with
  | none => trivial
  | some service =>
      apply Program.FailsQuietly.after
        ((topologyForService_confined service request.topology).quiet (by simp))
        (Program.returns_trivial _)
      intro found _
      cases found with
      | error e => trivial
      | ok topology =>
          have hquiet := (correlateAgents_confined topology.name).quiet (by simp)
          apply Program.FailsQuietly.after hquiet
            (Program.returns_trivial _)
          intro correlated _
          cases correlated with
          | error e => trivial
          | ok correlation =>
              simp only
              split
              · trivial
              · apply Program.FailsQuietly.after ((planAgents_confined _).quiet (by simp))
                  (Program.returns_trivial _)
                intro agents _
                refine .read (quiet_of_touches (by simp [StoreCall.touches])) fun outcome => ?_
                cases outcome with
                | error message => trivial
                | ok result =>
                    refine .read (fun _ => rfl) fun fresh => ?_
                    exact fun _ => .inr id

theorem createSchedule_raisesQuietly (schedule : ScheduleEntry) (now : Rat) :
    RaisesQuietly (createSchedule schedule now) := by
  refine .read (fun _ => rfl) fun found => ?_
  cases found with
  | none => trivial
  | some service => exact write_returns id

theorem registerAlertRule_raisesQuietly (rule : AlertRule) :
    RaisesQuietly (registerAlertRule rule) := by
  unfold registerAlertRule
  cases rule.serviceId with
  | none => exact write_returns id
  | some serviceId =>
      refine .read (fun _ => rfl) fun found => ?_
      cases found with
      | none => trivial
      | some service => exact write_returns id

theorem delete_of_absent {ρ κ : Type} [DecidableEq κ] {S : Schema ρ κ} {t : Table S} {k : κ}
    (h : (t.find? k).isSome = false) : t.delete k = t := by
  have hnone : t.find? k = none := by simpa using h
  have hrows : t.rows.filter (fun r => S.key r ≠ k) = t.rows :=
    List.filter_eq_self.mpr fun r hr => decide_eq_true (Table.find?_eq_none.mp hnone r hr)
  cases t
  simp only [Table.delete] at hrows ⊢
  congr 1

theorem deleteSchedule_raisesQuietly (scheduleId : String) :
    RaisesQuietly (deleteSchedule scheduleId) := by
  apply Program.FailsQuietly.request
  intro w
  by_cases hfound : (w.store.schedules.find? scheduleId).isSome
  · exact .inr (by simp [perform, hfound, Program.Returns, Raised])
  · rw [Bool.not_eq_true] at hfound
    exact .inl (by simp [perform, hfound, World.stored, delete_of_absent hfound,
      Program.FailsQuietly])

theorem deleteAlertRule_raisesQuietly (ruleId : String) :
    RaisesQuietly (deleteAlertRule ruleId) := by
  apply Program.FailsQuietly.request
  intro w
  by_cases hfound : (w.store.alertRules.find? ruleId).isSome
  · exact .inr (by simp [perform, hfound, Program.Returns, Raised])
  · rw [Bool.not_eq_true] at hfound
    exact .inl (by simp [perform, hfound, World.stored, delete_of_absent hfound,
      Program.FailsQuietly])

theorem getIncident_confined (incidentId : String) : Confined [] (getIncident incidentId) := by
  refine .read rfl fun found => ?_
  cases found <;> exact .pure _

theorem updateIncident_raisesQuietly (update : Incident → Rat → Incident) (incidentId : String)
    (now : Rat) : RaisesQuietly (updateIncident update incidentId now) := by
  apply Program.FailsQuietly.after ((getIncident_confined incidentId).quiet (by simp))
    (Program.returns_trivial _)
  intro found _
  cases found with
  | error e => trivial
  | ok incident =>
      show Program.FailsQuietly _ _ (if incident.state = .resolved then _ else _)
      by_cases hresolved : incident.state = .resolved
      · rw [if_pos hresolved]
        trivial
      · rw [if_neg hresolved]
        exact write_returns id

theorem requireTopology_confined (name : Option String) : Confined [] (requireTopology name) := by
  refine (resolveTopology_confined name).bind (by simp) fun found => ?_
  split <;> exact .pure _

theorem correlateHostPorts_raisesQuietly (lowercase : String → String)
    (request : DeviceCorrelationRequest) :
    RaisesQuietly (ControllerService.correlateHostPorts lowercase request) := by
  apply Program.FailsQuietly.after ((requireTopology_confined _).quiet (by simp))
    (Program.returns_trivial _)
  intro found _
  cases found with
  | error e => trivial
  | ok topology => exact write_returns id

theorem listBindings_confined (topology : Option String) :
    Confined [] (ControllerService.listBindings topology) := by
  cases topology with
  | none => exact .read rfl fun _ => .pure _
  | some name =>
      refine .read rfl fun found => ?_
      cases found with
      | none => exact .pure _
      | some topology => exact .read rfl fun _ => .pure _

theorem augmentTopology_raisesQuietly (name : Option String) :
    RaisesQuietly (ControllerService.augmentTopology name) := by
  apply Program.FailsQuietly.after ((requireTopology_confined _).quiet (by simp))
    (Program.returns_trivial _)
  intro found _
  cases found with
  | error e => trivial
  | ok topology =>
      refine .read (fun _ => rfl) fun bindings => ?_
      show Program.FailsQuietly _ _ (if bindings = [] then _ else _)
      by_cases hempty : bindings = []
      · rw [if_pos hempty]
        trivial
      · rw [if_neg hempty]
        cases augmentTopologyWithBindings topology bindings with
        | error e => trivial
        | ok augmented => exact fun _ => .inr id

end

/-! ## Handlers -/

/-- A request that is refused with an error, before or in its handler. -/
def Refused : Except ApiError Reply → Prop
  | .ok reply => reply.isError = true
  | .error _ => True

abbrev RefusesQuietly (p : Api createdAt (Except ApiError Reply)) : Prop :=
  p.FailsQuietly World.stored Refused

section

variable {α β : Type}

theorem ofService_failsQuietly {p : Method (Except ServiceError α)} (h : RaisesQuietly p) :
    (ofService p : Api createdAt _).FailsQuietly World.stored Raised := by
  apply Program.FailsQuietly.bind h.inl
  · intro result
    trivial
  · intro result hresult
    cases result with
    | error e => exact absurd trivial hresult
    | ok value => exact id

theorem answered_quietly {method : Api createdAt (Except ApiError α)}
    (h : method.FailsQuietly World.stored Raised) {status : Status} (hstatus : status.code < 400)
    (payload : α → Payload) :
    RefusesQuietly (method >>= fun
      | .error e => pure (.error e)
      | .ok result => pure (.ok ⟨status, payload result⟩)) := by
  apply Program.FailsQuietly.bind h
  · intro result
    cases result <;> trivial
  · intro result hresult
    cases result with
    | error e => exact absurd trivial hresult
    | ok value => simp [Program.Returns, Refused, Reply.isError, hstatus]

theorem validated_quietly {model : Except String α} {method : α → Api createdAt (Except ApiError β)}
    (h : ∀ request, (method request).FailsQuietly World.stored Raised) {status : Status}
    (hstatus : status.code < 400) (payload : β → Payload) :
    RefusesQuietly (validated model method status payload) := by
  cases model with
  | error message => trivial
  | ok request => exact answered_quietly (h request) hstatus payload

theorem listed_quietly (read : Api createdAt α) (payload : α → Payload) :
    RefusesQuietly (listed read payload) := by
  apply Program.Returns.failsQuietly
  apply (Program.returns_trivial _).bind
  intro value _
  simp [Program.Returns, Refused, Reply.isError, Status.code]

theorem write_quietly {p : Method α} :
    (p.inl >>= fun value => pure (.ok value) : Api createdAt (Except ApiError α)).FailsQuietly
      World.stored Raised := by
  apply Program.Returns.failsQuietly
  exact (Program.returns_trivial _).bind fun _ _ => id

theorem withIdentifier_quietly (key : String) (body : Dict)
    {rest : Dict → Api createdAt (Except ApiError Reply)} (h : ∀ body, RefusesQuietly (rest body)) :
    RefusesQuietly (withIdentifier key body >>= rest) := by
  unfold withIdentifier
  cases body.lookup key with
  | some value => exact h body
  | none => exact .read (fun _ => rfl) fun fresh => h _

theorem handle_quietly (V : Validation) (lowercase : String → String) (body : Dict)
    (endpoint : Endpoint) :
    RefusesQuietly (endpoint.handle V lowercase body : Api createdAt _) := by
  cases endpoint with
  | health => trivial
  | listAgents => exact listed_quietly _ _
  | registerAgent => exact validated_quietly (fun _ => write_quietly) (by decide) _
  | dispatchJob =>
      exact validated_quietly
        (fun request => ofService_failsQuietly (dispatchJob_raisesQuietly request))
        (by decide) _
  | getJob jobId =>
      refine .read (fun _ => rfl) fun found => ?_
      cases found <;> trivial
  | importTopology => exact validated_quietly (fun _ => write_quietly) (by decide) _
  | listTopologyNames => exact listed_quietly _ _
  | correlateAgents name =>
      exact answered_quietly (ofService_failsQuietly (correlateAgents_confined name).raisesQuietly)
        (by decide) _
  | correlateHostPorts name =>
      exact validated_quietly
        (fun request => ofService_failsQuietly (correlateHostPorts_raisesQuietly lowercase request))
        (by decide) _
  | topologyBindings name =>
      exact answered_quietly (ofService_failsQuietly (listBindings_confined _).raisesQuietly)
        (by decide) _
  | augmentTopology name =>
      exact answered_quietly (augmentTopology_raisesQuietly _).inl (by decide) _
  | getTopology name =>
      exact answered_quietly (ofService_failsQuietly (getTopology_confined name).raisesQuietly)
        (by decide) _
  | registerServices topologyName =>
      exact validated_quietly
        (fun inventory => ofService_failsQuietly (registerServices_raisesQuietly inventory _))
        (by decide) _
  | listServices => exact listed_quietly _ _
  | diagnose =>
      exact validated_quietly
        (fun request => ofService_failsQuietly (diagnoseService_raisesQuietly request))
        (by decide) _
  | listDiagnoses => exact listed_quietly _ _
  | getDiagnosis diagnosisId =>
      apply answered_quietly _ (by decide)
      refine .read (quiet_query createdAt _) fun found => ?_
      cases found <;> trivial
  | createSchedule =>
      apply withIdentifier_quietly
      intro body
      apply validated_quietly _ (by decide)
      intro schedule
      refine .read (fun _ => rfl) fun now => ?_
      exact ofService_failsQuietly (createSchedule_raisesQuietly schedule now)
  | listSchedules serviceId => exact listed_quietly _ _
  | deleteSchedule scheduleId =>
      exact answered_quietly (ofService_failsQuietly (deleteSchedule_raisesQuietly scheduleId))
        (by decide) _
  | runMonitor =>
      refine .read (fun _ => rfl) fun now => ?_
      exact listed_quietly _ _
  | registerAlertRule =>
      apply withIdentifier_quietly
      intro body
      exact validated_quietly
        (fun rule => ofService_failsQuietly (registerAlertRule_raisesQuietly rule))
        (by decide) _
  | listAlertRules => exact listed_quietly _ _
  | deleteAlertRule ruleId =>
      exact answered_quietly (ofService_failsQuietly (deleteAlertRule_raisesQuietly ruleId))
        (by decide) _
  | listAlerts serviceId state =>
      simp only [Endpoint.handle]
      split
      · trivial
      · exact listed_quietly _ _
  | listIncidents serviceId state =>
      simp only [Endpoint.handle]
      split
      · trivial
      · exact listed_quietly _ _
  | listBindings topologyName =>
      exact answered_quietly (ofService_failsQuietly (listBindings_confined _).raisesQuietly)
        (by decide) _
  | acknowledgeIncident incidentId =>
      refine .read (fun _ => rfl) fun now => ?_
      exact answered_quietly (ofService_failsQuietly (updateIncident_raisesQuietly _ _ now))
        (by decide) _
  | resolveIncident incidentId =>
      refine .read (fun _ => rfl) fun now => ?_
      exact answered_quietly (ofService_failsQuietly (updateIncident_raisesQuietly _ _ now))
        (by decide) _
  | getIncident incidentId =>
      exact answered_quietly
        (ofService_failsQuietly (getIncident_confined incidentId).raisesQuietly)
        (by decide) _

end

/-! ## Requests that only read -/

def Endpoint.isRead : Endpoint → Bool
  | .health | .listAgents | .getJob _ | .listTopologyNames | .correlateAgents _
  | .topologyBindings _ | .getTopology _ | .listServices | .listDiagnoses | .getDiagnosis _
  | .listSchedules _ | .listAlertRules | .listAlerts _ _ | .listIncidents _ _ | .listBindings _
  | .getIncident _ => true
  | _ => false

theorem isRead_of_get {route : List Char} {query : List (String × String)} {endpoint : Endpoint} :
    endpoint? .get route query = some endpoint → endpoint.isRead = true := by
  unfold endpoint?
  repeat
    refine of_branch (P := fun e => e.isRead = true)
      (by first | exact fun _ => rfl | exact fun h => nomatch h.1) ?_
  exact fun h => nomatch h

section

variable {α : Type}

theorem ofService_calls {p : Method (Except ServiceError α)} (h : Confined [] p) :
    (ofService p : Api createdAt _).Calls ((apiCalls createdAt).Quiet World.stored) :=
  (Program.calls_inl.mpr (h.quiet (by simp))).bind fun _ => trivial

theorem answered_calls {method : Api createdAt (Except ApiError α)}
    (h : method.Calls ((apiCalls createdAt).Quiet World.stored)) (payload : α → Payload) :
    (answered method payload).Calls ((apiCalls createdAt).Quiet World.stored) := by
  apply h.bind
  intro result
  cases result <;> trivial

theorem listed_calls {c : (apiCalls createdAt).Call} (h : (apiCalls createdAt).Quiet World.stored c)
    (payload : (apiCalls createdAt).Reply c → Payload) :
    (listed (Program.request c) payload).Calls ((apiCalls createdAt).Quiet World.stored) :=
  ⟨h, fun _ => trivial⟩

end

theorem handle_read (V : Validation) (lowercase : String → String) (body : Dict)
    {endpoint : Endpoint} (h : endpoint.isRead = true) :
    (endpoint.handle V lowercase body : Api createdAt _).Calls
      ((apiCalls createdAt).Quiet World.stored) := by
  cases endpoint with
  | health => trivial
  | listAgents | listTopologyNames | listServices | listDiagnoses | listSchedules _
  | listAlertRules => exact listed_calls (fun _ => rfl) _
  | getJob jobId =>
      refine ⟨fun _ => rfl, fun found => ?_⟩
      cases found <;> trivial
  | getDiagnosis diagnosisId =>
      apply answered_calls
      refine ⟨fun _ => rfl, fun found => ?_⟩
      cases found <;> trivial
  | correlateAgents name => exact answered_calls (ofService_calls (correlateAgents_confined name)) _
  | getTopology name => exact answered_calls (ofService_calls (getTopology_confined name)) _
  | getIncident incidentId =>
      exact answered_calls (ofService_calls (getIncident_confined incidentId)) _
  | topologyBindings name => exact answered_calls (ofService_calls (listBindings_confined _)) _
  | listBindings topologyName => exact answered_calls (ofService_calls (listBindings_confined _)) _
  | listAlerts serviceId state | listIncidents serviceId state =>
      simp only [Endpoint.handle]
      split
      · trivial
      · exact listed_calls (fun _ => rfl) _
  | _ => exact absurd h (by simp [Endpoint.isRead])

/-! ## Requests -/

/-- A request answered with an error or not at all, or one that asked for data. -/
def Unsuccessful (request : HttpRequest) (outcome : Option Reply) : Prop :=
  outcome.all Reply.isError = true ∨ request.command = .get

theorem dispatch_quietly (server : Server) (request : HttpRequest) (body : Dict) :
    (server.dispatch request body : Api createdAt _).FailsQuietly World.stored
      (Unsuccessful request) := by
  unfold Server.dispatch
  cases compareDigest (request.authorization.getD "") (bearer server.token) with
  | error e => trivial
  | ok authorized =>
      cases authorized with
      | false => trivial
      | true =>
          cases hroute : targetEndpoint? request.command request.target with
          | none => trivial
          | some endpoint =>
              by_cases hget : request.command = .get
              · -- A read makes quiet calls only, whatever becomes of it.
                have hread : endpoint.isRead = true := by
                  rw [hget] at hroute
                  exact isRead_of_get hroute
                apply Program.Calls.failsQuietly
                apply (handle_read _ _ _ hread).bind
                intro result
                cases result <;> trivial
              · apply Program.FailsQuietly.bind (handle_quietly _ _ _ endpoint)
                · intro result
                  cases result <;> trivial
                · intro result hresult
                  cases result with
                  | error e => exact absurd trivial hresult
                  | ok reply => simpa [Program.Returns, Unsuccessful, Refused, hget] using hresult

theorem serve_quietly (server : Server) (request : HttpRequest) :
    (server.serve request : Api createdAt _).FailsQuietly World.stored
      (Unsuccessful request) := by
  unfold Server.serve
  cases request.command with
  | post =>
      simp only
      split
      · trivial
      · trivial
      · exact dispatch_quietly server request _
  | get => exact dispatch_quietly server request []
  | delete => exact dispatch_quietly server request []

variable {ι : Type} [DecidableEq ι]

def Server.clients (createdAt : String → Rat) (server : Server) (clients : ι → Client) (w : World) :
    Config ι (apiCalls createdAt) (Option Reply) :=
  .start (fun i => server.client (clients i)) w

namespace Sample

def server : Server where
  token := "secret"
  validation :=
    { agentRegistration := fun _ => .error "invalid"
      fanoutJobRequest := fun _ => .error "invalid"
      networkTopology := fun _ => .error "invalid"
      deviceCorrelationRequest := fun _ => .error "invalid"
      serviceInventory := fun _ => .error "invalid"
      diagnosisRequest := fun _ => .error "invalid"
      scheduleEntry := fun _ => .error "invalid"
      alertRule := fun _ => .error "invalid" }
  lowercase := id
  loads := fun _ => none

def deletion : HttpRequest where
  command := .delete
  target := "/v1/schedules/s1".toList
  authorization := some "Bearer secret"
  contentLength := none
  body := []
  origin := by decide +kernel

def clients (ticks : Bool) : Client := if ticks then .tick else .request deletion

end Sample

/-- However the calls of the clients are interleaved, no step of a request that is
refused in the end, and none of a request that reads, changes a stored row. -/
theorem unsuccessful_request_changes_nothing (server : Server) (clients : ι → Client) (w : World)
    {i : ι} {request : HttpRequest} (hi : clients i = .request request)
    {before after : List ι} {outcome : Option Reply}
    (hdone : ((server.clients createdAt clients w).run
      (before ++ i :: after)).thread i = .done outcome)
    (hfail : Unsuccessful request outcome) :
    (((server.clients createdAt clients w).run before).step i).state.stored =
      ((server.clients createdAt clients w).run before).state.stored := by
  have hstart : ((server.clients createdAt clients w).thread i).FailsQuietly
      World.stored (Unsuccessful request) := by
    show (server.client (clients i)).FailsQuietly _ _
    rw [hi]
    exact serve_quietly server request
  rw [Config.run_append, Config.run_cons] at hdone
  exact Config.step_of_failure (Config.failsQuietly_run hstart before) hdone hfail

/-- Beside a monitoring thread, the deletion of an unknown schedule is refused. -/
theorem unknown_deletion_changes_nothing :
    (((Sample.server.clients (fun _ => 0) Sample.clients Sample.world).run
      [true]).step false).state.stored =
        ((Sample.server.clients (fun _ => 0) Sample.clients Sample.world).run
          [true]).state.stored :=
  have hdone : ((Sample.server.clients (fun _ => 0) Sample.clients Sample.world).run
      ([true] ++ false :: [true])).thread false =
        .done (some (.failure .notFound "unknown schedule: s1")) := rfl
  unsuccessful_request_changes_nothing Sample.server Sample.clients Sample.world rfl hdone
    (.inl rfl)

end NetForge.Controller
