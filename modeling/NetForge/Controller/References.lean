import NetForge.Calculus.Growth
import NetForge.Calculus.Keys
import NetForge.Controller.Atomicity
import NetForge.Controller.Independence

/-! # References between the tables

Rows name rows of other tables: a schedule its service, an alert the diagnosis that
raised it, an incident its alerts. The database declares no foreign key. The tables
that rows refer to are never deleted from, so that a reference that was checked when
a row was written holds for good, however the requests are interleaved with the
monitoring thread.
-/

namespace NetForge.Controller

open Calculus NetForge.Core Analysis Python Storage

/-! ## What is referred to -/

structure Accrues (s t : ControllerStore) : Prop where
  agents : s.agents.Extends t.agents
  topologies : s.topologies.Extends t.topologies
  services : s.services.Extends t.services
  diagnoses : s.diagnoses.Extends t.diagnoses
  alerts : s.alerts.Extends t.alerts
  incidents : s.incidents.Extends t.incidents
  jobs : s.jobs.Extends t.jobs

theorem Accrues.refl (s : ControllerStore) : Accrues s s :=
  ⟨.refl _, .refl _, .refl _, .refl _, .refl _, .refl _, .refl _⟩

theorem Accrues.trans {s t u : ControllerStore} (h : Accrues s t) (h' : Accrues t u) :
    Accrues s u :=
  ⟨h.agents.trans h'.agents, h.topologies.trans h'.topologies, h.services.trans h'.services,
    h.diagnoses.trans h'.diagnoses, h.alerts.trans h'.alerts, h.incidents.trans h'.incidents,
    h.jobs.trans h'.jobs⟩

/-- A service that is named, if one is, is registered. -/
def ServiceKnown (s : ControllerStore) (serviceId : Option String) : Prop :=
  ∀ id ∈ serviceId, s.services.Has id

structure ReportRefers (s : ControllerStore) (report : MultiVantageReport) : Prop where
  service : ServiceKnown s report.serviceId
  topology : ∀ name ∈ report.topology, s.topologies.Has name
  vantages : ∀ obs ∈ report.observations, s.agents.Has obs.agentId

structure AlertRefers (s : ControllerStore) (alert : Alert) : Prop where
  service : ServiceKnown s alert.serviceId
  diagnosis : s.diagnoses.Has alert.diagnosisId

structure IncidentRefers (s : ControllerStore) (incident : Incident) : Prop where
  service : ServiceKnown s incident.serviceId
  alerts : ∀ id ∈ incident.alertIds, s.alerts.Has id

/-- Every reference of every row leads to a row, and alerts and incidents stand under
their identifiers. -/
structure References (s : ControllerStore) : Prop where
  alertIds : s.alerts.Filed
  incidentIds : s.incidents.Filed
  schedules : ∀ schedule ∈ s.schedules.rows, s.services.Has schedule.serviceId
  alertRules : ∀ rule ∈ s.alertRules.rows, ServiceKnown s rule.serviceId
  diagnoses : ∀ report ∈ s.diagnoses.rows, ReportRefers s report
  alerts : ∀ alert ∈ s.alerts.documents, AlertRefers s alert
  incidents : ∀ incident ∈ s.incidents.documents, IncidentRefers s incident
  jobs : ∀ job ∈ s.jobs.rows, ∀ id ∈ job.request.agentIds, s.agents.Has id
  bindings : ∀ row ∈ s.bindings.rows, s.topologies.Has row.topology

section

variable {s t : ControllerStore} (h : Accrues s t)
include h

theorem ServiceKnown.grow {serviceId : Option String} (hs : ServiceKnown s serviceId) :
    ServiceKnown t serviceId := fun id hid => h.services id (hs id hid)

theorem ReportRefers.grow {report : MultiVantageReport} (hs : ReportRefers s report) :
    ReportRefers t report where
  service := hs.service.grow h
  topology := fun name hname => h.topologies name (hs.topology name hname)
  vantages := fun obs hobs => h.agents _ (hs.vantages obs hobs)

theorem AlertRefers.grow {alert : Alert} (hs : AlertRefers s alert) : AlertRefers t alert where
  service := hs.service.grow h
  diagnosis := h.diagnoses _ hs.diagnosis

theorem IncidentRefers.grow {incident : Incident} (hs : IncidentRefers s incident) :
    IncidentRefers t incident where
  service := hs.service.grow h
  alerts := fun id hid => h.alerts id (hs.alerts id hid)

/-- A row of the second store is one of the first, or what it refers to is there. -/
structure Additions (s t : ControllerStore) : Prop where
  alertIds : s.alerts.Filed → t.alerts.Filed := by exact id
  incidentIds : s.incidents.Filed → t.incidents.Filed := by exact id
  schedules : ∀ e ∈ t.schedules.rows, e ∈ s.schedules.rows ∨ t.services.Has e.serviceId := by
    exact fun _ => .inl
  alertRules : ∀ r ∈ t.alertRules.rows, r ∈ s.alertRules.rows ∨ ServiceKnown t r.serviceId := by
    exact fun _ => .inl
  diagnoses : ∀ d ∈ t.diagnoses.rows, d ∈ s.diagnoses.rows ∨ ReportRefers t d := by
    exact fun _ => .inl
  alerts : ∀ a ∈ t.alerts.documents, a ∈ s.alerts.documents ∨ AlertRefers t a := by
    exact fun _ => .inl
  incidents : ∀ i ∈ t.incidents.documents, i ∈ s.incidents.documents ∨ IncidentRefers t i := by
    exact fun _ => .inl
  jobs : ∀ j ∈ t.jobs.rows,
      j ∈ s.jobs.rows ∨ ∀ id ∈ j.request.agentIds, t.agents.Has id := by
    exact fun _ => .inl
  bindings : ∀ b ∈ t.bindings.rows,
      (∃ b' ∈ s.bindings.rows, b'.topology = b.topology) ∨ t.topologies.Has b.topology := by
    exact fun b hb => .inl ⟨b, hb, rfl⟩

theorem References.grow (hs : References s) (new : Additions s t) : References t where
  alertIds := new.alertIds hs.alertIds
  incidentIds := new.incidentIds hs.incidentIds
  schedules := fun e he => (new.schedules e he).elim (fun he => h.services _ (hs.schedules e he)) id
  alertRules := fun r hr => (new.alertRules r hr).elim (fun hr => (hs.alertRules r hr).grow h) id
  diagnoses := fun d hd => (new.diagnoses d hd).elim (fun hd => (hs.diagnoses d hd).grow h) id
  alerts := fun a ha => (new.alerts a ha).elim (fun ha => (hs.alerts a ha).grow h) id
  incidents := fun i hi => (new.incidents i hi).elim (fun hi => (hs.incidents i hi).grow h) id
  jobs := fun j hj => (new.jobs j hj).elim (fun hj k hk => h.agents k (hs.jobs j hj k hk)) id
  bindings := by
    intro b hb
    rcases new.bindings b hb with ⟨b', hb', htopology⟩ | hknown
    · rw [← htopology]
      exact h.topologies _ (hs.bindings b' hb')
    · exact hknown

end

/-! ## What a call does to them -/

/-- No call takes a row away that may be referred to. -/
theorem accrues_perform (c : StoreCall) (w : World) : Accrues w.store (perform c w).2.store := by
  cases c with
  | upsertAgent agent => exact { Accrues.refl _ with agents := Table.extends_upsert _ _ }
  | saveTopology topology => exact { Accrues.refl _ with topologies := Table.extends_upsert _ _ }
  | upsertService service => exact { Accrues.refl _ with services := Table.extends_upsert _ _ }
  | saveDiagnosis report => exact { Accrues.refl _ with diagnoses := Table.extends_upsert _ _ }
  | saveAlert alert => exact { Accrues.refl _ with alerts := Table.extends_upsert _ _ }
  | saveIncident incident => exact { Accrues.refl _ with incidents := Table.extends_upsert _ _ }
  | saveJob job => exact { Accrues.refl _ with jobs := Table.extends_upsert _ _ }
  | markSeen agentId =>
      have hagents :
          w.store.agents.Extends (w.store.markSeen agentId (w.clock w.readings)).agents := by
        unfold ControllerStore.markSeen
        simp only
        cases w.store.agents.find? agentId with
        | none => exact .refl _
        | some agent => exact Table.extends_upsert _ _
      exact { Accrues.refl _ with agents := hagents }
  | fanout agents probe =>
      simp only [perform]
      split <;> exact .refl _
  | _ => exact { Accrues.refl _ with }

def Licensed (s : ControllerStore) : StoreCall → Prop
  | .upsertSchedule schedule => s.services.Has schedule.serviceId
  | .upsertAlertRule rule => ServiceKnown s rule.serviceId
  | .saveDiagnosis report => ReportRefers s report
  | .saveAlert alert => AlertRefers s alert
  | .saveIncident incident => IncidentRefers s incident
  | .saveJob job => ∀ id ∈ job.request.agentIds, s.agents.Has id
  | .replaceBindings topology _ => s.topologies.Has topology
  | _ => True

/-- A written row is one that was there, or the licensed one. -/
theorem references_perform {c : StoreCall} {w : World} (h : References w.store)
    (hc : Licensed w.store c) : References (perform c w).2.store := by
  have hgrow := accrues_perform c w
  cases c with
  | upsertSchedule schedule =>
      refine h.grow hgrow { schedules := ?_ }
      intro e he
      rcases Table.mem_upsert_replacing he with he | rfl
      · exact .inl he
      · exact .inr hc
  | deleteSchedule scheduleId =>
      exact h.grow hgrow { schedules := fun _ he => .inl (Table.mem_delete.mp he).1 }
  | upsertAlertRule rule =>
      refine h.grow hgrow { alertRules := ?_ }
      intro r hr
      rcases Table.mem_upsert_replacing hr with hr | rfl
      · exact .inl hr
      · exact .inr hc
  | deleteAlertRule ruleId =>
      exact h.grow hgrow { alertRules := fun _ hr => .inl (Table.mem_delete.mp hr).1 }
  | saveDiagnosis report =>
      refine h.grow hgrow { diagnoses := ?_ }
      intro d hd
      rcases Table.mem_upsert_replacing hd with hd | rfl
      · exact .inl hd
      · exact .inr (hc.grow hgrow)
  | saveAlert alert =>
      refine h.grow hgrow { alertIds := fun hids => hids.put alert, alerts := ?_ }
      intro a ha
      rcases Table.mem_documents_put ha with ha | rfl
      · exact .inl ha
      · exact .inr (hc.grow hgrow)
  | saveIncident incident =>
      refine h.grow hgrow { incidentIds := fun hids => hids.put incident, incidents := ?_ }
      intro i hi
      rcases Table.mem_documents_put hi with hi | rfl
      · exact .inl hi
      · exact .inr (hc.grow hgrow)
  | saveJob job =>
      refine h.grow hgrow { jobs := ?_ }
      intro j hj
      rcases Table.mem_upsert_replacing hj with hj | rfl
      · exact .inl hj
      · exact .inr fun k hk => hc k hk
  | replaceBindings topology bindings =>
      refine h.grow hgrow { bindings := ?_ }
      intro b hb
      have hcolumn := Table.mem_upsertAll_of_keeps BindingRow.topology (fun _ _ => rfl) hb
      rcases hcolumn with ⟨b', hb', htopology⟩ | ⟨b', hb', htopology⟩
      · exact .inl ⟨b', (Table.mem_deleteWhere.mp hb').1, htopology⟩
      · obtain ⟨binding, -, rfl⟩ := List.mem_map.mp hb'
        rw [← htopology]
        exact .inr hc
  | fanout agents probe =>
      simp only [perform]
      split <;> exact h
  | _ => exact h.grow hgrow {}

/-- All clients keep every reference, and take nothing away that may be referred to. -/
def referential : Growth World where
  Inv := fun w => References w.store
  Ext := fun v w => Accrues v.store w.store
  refl := fun w => .refl w.store
  trans := fun _ _ _ => .trans

theorem Licensed.keeps {c : StoreCall} {w : World} (hw : References w.store)
    (hc : Licensed w.store c) : referential.Keeps controller c w :=
  ⟨references_perform hw hc, accrues_perform c w⟩

/-! ## Calls that refer to nothing -/

def Unreferring (c : StoreCall) : Prop := ∀ s, Licensed s c

theorem unreferring_of_touches {c : StoreCall}
    (h : c.touches ∉ [some .schedules, some .alertRules, some .diagnoses, some .alerts,
      some .incidents, some .jobs, some .bindings]) : Unreferring c := by
  intro s
  cases c <;> first | trivial | exact absurd (by simp [StoreCall.touches]) h

variable {α : Type} {w : World}

theorem Confined.grown {resources : List Resource} {p : Method α} (h : Confined resources p)
    (hfree : ∀ r ∈ resources, r ∈ [.agents, .topologies, .services, .identifiers, .network,
      .clock, .history]) : p.Grown referential (fun _ _ => True) w := by
  apply Program.Calls.grown h
  intro c v hc hv
  apply Licensed.keeps hv
  apply unreferring_of_touches
  intro hmem
  cases ht : c.touches with
  | none => simp [ht] at hmem
  | some r =>
      have hr := hfree r (hc r ht)
      rw [ht] at hmem
      simp only [List.mem_cons, Option.some.injEq, List.not_mem_nil, or_false] at hmem hr
      rcases hr with rfl | rfl | rfl | rfl | rfl | rfl | rfl <;> simp at hmem

section

variable {β : Type} {Q : β → World → Prop} {c : StoreCall} {f : c.Reply → Method β}

/-- A read, and what the rest of the method makes of its reply. -/
theorem grown_read (hc : Unreferring c)
    (h : ∀ v, References v.store → Accrues w.store v.store →
      (f (perform c v).1).Grown referential Q (perform c v).2) :
    (call c >>= f).Grown referential Q w :=
  .request (fun _ hv _ => Licensed.keeps hv (hc _)) h

/-- A write whose references are known to be there, and of which the rest of the method
knows nothing more. -/
theorem grown_write (hc : ∀ v : World, Accrues w.store v.store → Licensed v.store c)
    (h : ∀ r, (f r).Grown referential Q w) : (call c >>= f).Grown referential Q w := by
  apply Program.Grown.request
  · exact fun v hv hwv => Licensed.keeps hv (hc v hwv)
  · intro v _ hwv
    apply (h _).of_ext
    exact hwv.trans (accrues_perform c v)

theorem grown_save (hc : ∀ v : World, Accrues w.store v.store → Licensed v.store c)
    (h : ∀ v, References v.store → Accrues w.store v.store →
      (f (perform c v).1).Grown referential Q (perform c v).2) :
    (call c >>= f).Grown referential Q w :=
  .request (fun v hv hwv => Licensed.keeps hv (hc v hwv)) h

theorem grown_any (hc : Unreferring c) (h : ∀ r, (f r).Grown referential Q w) :
    (call c >>= f).Grown referential Q w := grown_write (fun v _ => hc v.store) h

end

theorem grown_pure {a : α} : (pure a : Method α).Grown referential (fun _ _ => True) w :=
  fun _ _ _ => trivial

/-- What a method returns, where it returns something, satisfies `K` from then on. -/
def Yields {ε : Type} (K : α → ControllerStore → Prop) (result : Except ε α) (v : World) : Prop :=
  ∀ a, result = .ok a → K a v.store

theorem yields_error {I : Interface World} {ε : Type} {K : α → ControllerStore → Prop} {e : ε} :
    (pure (.error e) : Program I (Except ε α)).Grown referential (Yields K) w :=
  fun _ _ _ _ h => nomatch h

theorem yields_ok {I : Interface World} {ε : Type} {K : α → ControllerStore → Prop} {a : α}
    (h : ∀ v : World, References v.store → Accrues w.store v.store → K a v.store) :
    (pure (.ok a) : Program I (Except ε α)).Grown referential (Yields K) w := by
  intro v hv hwv b hb
  cases hb
  exact h v hv hwv

/-! ## Fan-out jobs -/

/-- The ids of a job that is taken on are those of registered agents. -/
theorem requireAgents_grown (ids : List String) :
    (requireAgents ids).Grown referential (Yields fun _ s => ∀ id ∈ ids, s.agents.Has id) w := by
  induction ids generalizing w with
  | nil => exact yields_ok fun _ _ _ _ hid => absurd hid List.not_mem_nil
  | cons id rest ih =>
      refine grown_read (fun _ => trivial) fun v _ _ => ?_
      cases hfind : (perform (.getAgent id) v).1 with
      | none => exact yields_error
      | some agent =>
          simp only
          by_cases henabled : agent.enabled
          · rw [if_pos henabled]
            apply ih.bind
            intro result u _ hvu hrest
            cases result with
            | error e => exact yields_error
            | ok others =>
                apply yields_ok
                intro x _ hux k hk
                rcases List.mem_cons.mp hk with rfl | hk
                · exact hux.agents _ (hvu.agents _ (Table.has_of_find? hfind))
                · exact hux.agents _ (hrest others rfl k hk)
          · rw [if_neg henabled]
            exact yields_error

theorem serveJob_grown {request : FanoutJobRequest} {agents : List RegisteredAgent}
    (h : ∀ id ∈ request.agentIds, w.store.agents.Has id) :
    (serveJob request agents).Grown referential (Yields fun job s => s.jobs.Has job.jobId) w := by
  have hknown : ∀ v : World, Accrues w.store v.store →
      ∀ id ∈ request.agentIds, v.store.agents.Has id := fun v hwv id hid => hwv.agents id (h id hid)
  refine grown_any (fun _ => trivial) fun jobId => ?_
  refine grown_any (fun _ => trivial) fun createdAt => ?_
  apply grown_write hknown
  intro _
  refine grown_any (fun _ => trivial) fun outcome => ?_
  cases outcome with
  | error message => exact yields_error
  | ok result =>
      have hmarks : (Program.fold (fun (_ : Unit) entry => call (.markSeen entry.1)) ()
          result.observations).Grown referential (fun _ _ => True) w := by
        apply Program.Grown.fold _ (fun _ _ _ _ h => h) trivial
        intro _ entry _ v _ _ _
        exact grown_any (c := .markSeen entry.1) (fun _ => trivial) fun _ => grown_pure
      apply hmarks.bind
      intro _ v _ hwv _
      apply Program.Grown.of_ext _ hwv
      refine grown_any (fun _ => trivial) fun completedAt => ?_
      apply grown_save hknown
      intro u _ _
      exact yields_ok fun x _ hux => hux.jobs _ (Table.has_upsert.mpr (.inr rfl))

theorem dispatchJob_grown (request : FanoutJobRequest) :
    (dispatchJob request).Grown referential (Yields fun job s => s.jobs.Has job.jobId) w := by
  rw [dispatchJob_eq]
  apply (requireAgents_grown _).bind
  intro result v _ _ hresult
  cases result with
  | error e => exact yields_error
  | ok agents =>
      apply serveJob_grown
      intro id hid
      exact hresult agents rfl id (mem_distinctIds.mpr hid)

/-! ## Diagnoses -/

def TopologyStored (topology : NetworkTopology) (s : ControllerStore) : Prop :=
  s.topologies.Has topology.name

theorem has_topology {v : World} {name : String} {topology : NetworkTopology}
    (h : v.store.topologies.find? name = some topology) : v.store.topologies.Has topology.name := by
  have hname : topology.name = name := (Table.find?_eq_some.mp h).2
  rw [hname]
  exact Table.has_of_find? h

theorem getTopology_grown (name : String) :
    (getTopology name).Grown referential (Yields TopologyStored) w := by
  refine grown_read (fun _ => trivial) fun v _ _ => ?_
  cases hfind : (perform (.getTopology name) v).1 with
  | none => exact yields_error
  | some found => exact yields_ok fun u _ hvu => hvu.topologies _ (has_topology hfind)

theorem topologyContaining_grown (nodeId : Option String) (names : List String) :
    (topologyContaining nodeId names).Grown referential
      (fun result (v : World) => ∀ topology, result = some topology →
        v.store.topologies.Has topology.name) w := by
  induction names generalizing w with
  | nil => exact fun _ _ _ topology htopology => by cases htopology
  | cons candidate rest ih =>
      refine grown_read (fun _ => trivial) fun v _ _ => ?_
      cases hfind : (perform (.getTopology candidate) v).1 with
      | none => exact ih
      | some found =>
          simp only
          by_cases hin : (nonEmpty nodeId).any found.hasNode
          · rw [if_pos hin]
            intro u _ hvu topology htopology
            cases htopology
            exact hvu.topologies _ (has_topology hfind)
          · rw [if_neg hin]
            exact ih

theorem topologyForService_grown (service : ServiceEndpoint) (name : Option String) :
    (topologyForService service name).Grown referential (Yields TopologyStored) w := by
  cases name with
  | some name => exact getTopology_grown name
  | none =>
      refine grown_any (fun _ => trivial) fun names => ?_
      apply (topologyContaining_grown service.nodeId names).bind
      intro found v _ _ hfound
      cases found with
      | some topology => exact yields_ok fun u _ hvu => hvu.topologies _ (hfound topology rfl)
      | none =>
          refine grown_any (fun _ => trivial) fun names => ?_
          split
          · rename_i only
            refine grown_read (fun _ => trivial) fun u _ _ => ?_
            cases hfind : (perform (.getTopology only) u).1 with
            | none => exact yields_error
            | some topology => exact yields_ok fun x _ hux => hux.topologies _ (has_topology hfind)
          · exact yields_error

structure Correlated (nodes : List CorrelatedNode) (s : ControllerStore) : Prop where
  nodup : (nodes.map (·.nodeId)).Nodup
  registered : ∀ node ∈ nodes, ∀ agentId, node.probing = some agentId → s.agents.Has agentId

theorem correlateAgents_grown (name : String) :
    (correlateAgents name).Grown referential (Yields Correlated) w := by
  apply (getTopology_grown name).bind
  intro result v _ _ _
  cases result with
  | error e => exact yields_error
  | ok topology =>
      refine grown_read (fun _ => trivial) fun u _ _ => ?_
      apply yields_ok
      intro x _ hux
      refine ⟨correlation_nodup topology u.store.listAgents, ?_⟩
      intro node hnode agentId hprobing
      obtain ⟨source, -, rfl⟩ := List.mem_map.mp hnode
      obtain ⟨-, -, hany⟩ := (probing_correlate u.store.listAgents source agentId).mp hprobing
      cases hfind : u.store.listAgents.find? (·.agentId = agentId) with
      | none =>
          rw [hfind] at hany
          exact absurd hany (by simp)
      | some agent =>
          have hid : agent.agentId = agentId := by simpa using List.find?_some hfind
          have hmem : agent ∈ u.store.agents.rows :=
            mem_orderBy.mp (List.mem_of_find?_eq_some hfind)
          exact hux.agents _ ⟨agent, hmem, hid⟩

/-- An agent is assigned a vantage only where the correlation offers it. -/
theorem probing_of_assignment {topology : NetworkTopology} {service : ServiceEndpoint}
    {nodes : List CorrelatedNode} {sourceNodeId : Option String}
    (hnodup : (nodes.map (·.nodeId)).Nodup) {a : VantageAssignment}
    (ha : a ∈ (selectVantages topology service nodes sourceNodeId).assignments) :
    ∃ node ∈ nodes, node.probing = some a.agentId := by
  have hpart : ∀ {o : Option String} {role : VantageRole},
      a ∈ (o.map (assign (eligibleNodes nodes) role)).getD [] →
        ∃ node ∈ nodes, node.probing = some a.agentId := by
    intro o role hmem
    cases o with
    | none => exact absurd hmem List.not_mem_nil
    | some n =>
        have hmem : a ∈ assign (eligibleNodes nodes) role n := hmem
        unfold assign at hmem
        cases hentry : getEntry (eligibleNodes nodes) n with
        | none =>
            rw [hentry] at hmem
            exact absurd hmem List.not_mem_nil
        | some agentId =>
            rw [hentry] at hmem
            have hassigned : a = ⟨role, n, agentId⟩ := by simpa using hmem
            obtain ⟨node, hnode, -, hprobing⟩ := (getEntry_eligibleNodes hnodup n agentId).mp hentry
            exact ⟨node, hnode, by rw [hassigned, hprobing]⟩
  unfold selectVantages at ha
  simp only [List.mem_append] at ha
  rcases ha with (ha | ha) | ha
  · exact hpart ha
  · exact hpart ha
  · exact hpart ha

/-- A report that was saved refers to rows, and is one itself. -/
structure Reported (report : MultiVantageReport) (s : ControllerStore) : Prop where
  refers : ReportRefers s report
  stored : s.diagnoses.Has report.diagnosisId

theorem Reported.grow {report : MultiVantageReport} {s t : ControllerStore} (h : Reported report s)
    (hst : Accrues s t) : Reported report t := ⟨h.refers.grow hst, hst.diagnoses _ h.stored⟩

theorem deriveConfidence_agentId (obs : VantageObservation) :
    obs.deriveConfidence.agentId = obs.agentId := by
  unfold VantageObservation.deriveConfidence
  split <;> rfl

theorem agentId_of_observation {assignments : List VantageAssignment} {service : ServiceEndpoint}
    {result : FanoutResult} {topology : Option String} {agentErrors : List (String × String)}
    {diagnosisId : String} {obs : VantageObservation}
    (h : obs ∈ (localizeFault (assignments.flatMap fun a =>
      (answers result a.agentId).map (vantageObservation service a)) service.host
        (some service.serviceId) topology agentErrors diagnosisId).observations) :
    ∃ a ∈ assignments, obs.agentId = a.agentId := by
  rw [localizeFault_observations] at h
  obtain ⟨a, ha, hobs⟩ := List.mem_flatMap.mp ((List.mem_insertionSort _).mp h)
  obtain ⟨answer, -, rfl⟩ := List.mem_map.mp hobs
  exact ⟨a, ha, deriveConfidence_agentId _⟩

theorem localizeFault_names (observations : List VantageObservation) (target : String)
    (serviceId topology : Option String) (agentErrors : List (String × String))
    (diagnosisId : String) :
    (localizeFault observations target serviceId topology agentErrors diagnosisId).serviceId =
        serviceId ∧
      (localizeFault observations target serviceId topology agentErrors diagnosisId).topology =
        topology := by
  unfold localizeFault localizeFaultIn
  by_cases h : (sortObservations observations).length = 0
  · simp only [h, if_true, and_self]
  · simp only [h, if_false, and_self]

theorem probePlan_grown {request : DiagnosisRequest} {service : ServiceEndpoint}
    {topology : NetworkTopology} {plan : VantagePlan}
    (hservice : w.store.services.Has service.serviceId)
    (htopology : w.store.topologies.Has topology.name)
    (hplan : ∀ a ∈ plan.assignments, w.store.agents.Has a.agentId) :
    (probePlan request service topology plan).Grown referential (Yields Reported) w := by
  apply ((planAgents_confined _).grown (by simp)).bind
  intro agents v _ hwv _
  apply Program.Grown.of_ext _ hwv
  refine grown_any (fun _ => trivial) fun outcome => ?_
  cases outcome with
  | error message => exact yields_error
  | ok result =>
      refine grown_any (fun _ => trivial) fun diagnosisId => ?_
      simp only
      generalize hreport : localizeFault _ service.host _ _ result.errors diagnosisId = report
      have hnames := localizeFault_names (plan.assignments.flatMap fun a =>
        (answers result a.agentId).map (vantageObservation service a)) service.host
        (some service.serviceId) (some topology.name) result.errors diagnosisId
      rw [hreport] at hnames
      have hrefers : ReportRefers w.store report := by
        refine ⟨?_, ?_, ?_⟩
        · intro id hid
          rw [hnames.1] at hid
          cases hid
          exact hservice
        · intro name hname
          rw [hnames.2] at hname
          cases hname
          exact htopology
        · intro obs hobs
          rw [← hreport] at hobs
          obtain ⟨a, ha, hagent⟩ := agentId_of_observation hobs
          rw [hagent]
          exact hplan a ha
      have hlicensed :
          ∀ u : World, Accrues w.store u.store → Licensed u.store (.saveDiagnosis report) :=
        fun u hwu => hrefers.grow hwu
      apply grown_save hlicensed
      intro u _ hwu
      apply yields_ok
      intro x _ hux
      have hstored : (perform (.saveDiagnosis report) u).2.store.diagnoses.Has report.diagnosisId :=
        Table.has_upsert.mpr (.inr rfl)
      exact ⟨hrefers.grow (hwu.trans ((accrues_perform _ u).trans hux)), hux.diagnoses _ hstored⟩

theorem diagnoseService_grown (request : DiagnosisRequest) :
    (diagnoseService request).Grown referential (Yields Reported) w := by
  rw [diagnoseService_eq]
  refine grown_read (fun _ => trivial) fun v _ _ => ?_
  cases hfind : (perform (.getService request.serviceId) v).1 with
  | none => exact yields_error
  | some service =>
      have hid : service.serviceId = request.serviceId := (Table.find?_eq_some.mp hfind).2
      have hservice : v.store.services.Has service.serviceId := hid ▸ Table.has_of_find? hfind
      apply (topologyForService_grown service request.topology).bind
      intro found v₁ _ h₁ hfound
      cases found with
      | error e => exact yields_error
      | ok topology =>
          apply (correlateAgents_grown topology.name).bind
          intro correlated v₂ _ h₂ hcorrelated
          cases correlated with
          | error e => exact yields_error
          | ok nodes =>
              obtain ⟨hnodup, hregistered⟩ := hcorrelated nodes rfl
              simp only
              split
              · exact yields_error
              · apply probePlan_grown
                · exact h₂.services _ (h₁.services _ hservice)
                · exact h₂.topologies _ (hfound topology rfl)
                · intro a ha
                  obtain ⟨node, hnode, hprobing⟩ := probing_of_assignment hnodup ha
                  exact hregistered node hnode _ hprobing

/-! ## Alerts and incidents -/

/-- An alert that was saved, for a service that is known. -/
structure Raising (alert : Alert) (s : ControllerStore) : Prop where
  service : ServiceKnown s alert.serviceId
  stored : s.alerts.Has alert.alertId

theorem Raising.grow {alert : Alert} {s t : ControllerStore} (h : Raising alert s)
    (hst : Accrues s t) : Raising alert t := ⟨h.service.grow hst, hst.alerts _ h.stored⟩

theorem saveAlert_grown {alert : Alert} (h : AlertRefers w.store alert) :
    (call (.saveAlert alert) >>= fun _ => pure alert).Grown referential
      (fun alert v => Raising alert v.store) w := by
  have hlicensed : ∀ u : World, Accrues w.store u.store → Licensed u.store (.saveAlert alert) :=
    fun u hwu => h.grow hwu
  apply grown_save hlicensed
  intro u _ hwu x _ hux
  have hstored : (perform (.saveAlert alert) u).2.store.alerts.Has alert.alertId :=
    Table.has_upsert.mpr (.inr rfl)
  exact ⟨h.service.grow (hwu.trans ((accrues_perform _ u).trans hux)), hux.alerts _ hstored⟩

theorem fireRule_grown {rule : AlertRule} {report : MultiVantageReport} (now : Rat)
    (regression : Bool) (h : Reported report w.store) :
    (fireRule rule report now regression).Grown referential
      (fun alert v => Raising alert v.store) w := by
  refine grown_read (fun _ => trivial) fun v hv hwv => ?_
  have hreport := h.grow hwv
  cases hfound : (perform (.findFiringAlert rule.ruleId report.serviceId) v).1 with
  | some found =>
      have hmem : found ∈ v.store.alerts.documents := Table.mem_documents_of_first hfound
      have hrefers : AlertRefers v.store (refreshAlert found report now regression) :=
        ⟨(hv.alerts found hmem).service, hreport.stored⟩
      exact saveAlert_grown hrefers
  | none =>
      refine grown_any (fun _ => trivial) fun alertId => ?_
      have hrefers : AlertRefers v.store (buildAlert alertId rule report now regression) :=
        ⟨hreport.refers.service, hreport.stored⟩
      exact saveAlert_grown hrefers

theorem saveIncident_grown {incident : Incident} (h : IncidentRefers w.store incident) :
    (call (.saveIncident incident) >>= fun _ => pure incident).Grown referential
      (fun incident v => v.store.incidents.Has incident.incidentId) w := by
  have hlicensed :
      ∀ u : World, Accrues w.store u.store → Licensed u.store (.saveIncident incident) :=
    fun u hwu => h.grow hwu
  apply grown_save hlicensed
  intro u _ _ x _ hux
  exact hux.incidents _ (Table.has_upsert.mpr (.inr rfl))

theorem attachToIncident_grown {alert : Alert} {report : MultiVantageReport} (now : Rat)
    (h : Raising alert w.store) :
    (attachToIncident alert report now).Grown referential
      (fun incident v => v.store.incidents.Has incident.incidentId) w := by
  refine grown_read (fun _ => trivial) fun v hv hwv => ?_
  have halert := h.grow hwv
  cases hfound : (perform (.findActiveIncident alert.serviceId) v).1 with
  | none =>
      refine grown_any (fun _ => trivial) fun incidentId => ?_
      have hrefers : IncidentRefers v.store (createIncident incidentId alert report now) := by
        refine ⟨halert.service, ?_⟩
        intro id hid
        rw [List.mem_singleton.mp hid]
        exact halert.stored
      exact saveIncident_grown hrefers
  | some found =>
      have hmem : found ∈ v.store.incidents.documents := Table.mem_documents_of_first hfound
      have hfoundRefers := hv.incidents found hmem
      have hrefers : IncidentRefers v.store (extendIncident found alert report now) := by
        refine ⟨hfoundRefers.service, ?_⟩
        intro id hid
        simp only [extendIncident] at hid
        split at hid
        · exact hfoundRefers.alerts id hid
        · rcases List.mem_append.mp hid with hid | hid
          · exact hfoundRefers.alerts id hid
          · rw [List.mem_singleton.mp hid]
            exact halert.stored
      exact saveIncident_grown hrefers

theorem mem_documents_of_alertPage {s : ControllerStore} {serviceId : Option String}
    {state : Option AlertState} {alert : Alert} (h : alert ∈ s.listAlerts serviceId state) :
    alert ∈ s.alerts.documents := by
  obtain ⟨row, hrow, rfl⟩ := List.mem_map.mp h
  exact Table.mem_documents_of_query (List.mem_map_of_mem (List.mem_of_mem_take hrow))

theorem mem_documents_of_incidentPage {s : ControllerStore} {serviceId : Option String}
    {state : Option IncidentState} {incident : Incident}
    (h : incident ∈ s.listIncidents serviceId state) : incident ∈ s.incidents.documents := by
  obtain ⟨row, hrow, rfl⟩ := List.mem_map.mp h
  exact Table.mem_documents_of_query (List.mem_map_of_mem (List.mem_of_mem_take hrow))

/-- The rows that a healthy report closes keep what they refer to. -/
theorem resolveService_grown (serviceId : Option String) (now : Rat) :
    (resolveService serviceId now).Grown referential (fun _ _ => True) w := by
  refine grown_read (fun _ => trivial) fun v hv _ => ?_
  have halerts : (Program.fold (fun (_ : Unit) alert => call (.saveAlert (resolveAlert alert now)))
      () (perform (.listAlerts serviceId (some .firing)) v).1).Grown referential
        (fun _ _ => True) v := by
    apply Program.Grown.fold _ (fun _ _ _ _ h => h) trivial
    intro _ alert hmem u _ hvu _
    have hrefers := hv.alerts alert (mem_documents_of_alertPage hmem)
    have hlicensed : ∀ x : World, Accrues u.store x.store →
        Licensed x.store (.saveAlert (resolveAlert alert now)) :=
      fun x hux =>
        ⟨hrefers.service.grow (hvu.trans hux), (hvu.trans hux).diagnoses _ hrefers.diagnosis⟩
    exact grown_write hlicensed fun _ => grown_pure
  apply halerts.bind
  intro _ u _ _ _
  refine grown_read (fun _ => trivial) fun x hx _ => ?_
  apply Program.Grown.fold _ (fun _ _ _ _ h => h) trivial
  intro resolved incident hmem y _ hxy _
  have hrefers := hx.incidents incident (mem_documents_of_incidentPage hmem)
  by_cases hactive : isActive incident
  · simp only [hactive, if_true]
    have hlicensed : ∀ z : World, Accrues y.store z.store →
        Licensed z.store (.saveIncident (closeIncident incident now)) :=
      fun z hyz => ⟨hrefers.service.grow (hxy.trans hyz),
        fun id hid => (hxy.trans hyz).alerts id (hrefers.alerts id hid)⟩
    exact grown_write hlicensed fun _ => grown_pure
  · simp only [hactive, Bool.false_eq_true, if_false]
    exact grown_pure

theorem processDiagnosis_grown {report : MultiVantageReport} (now : Rat)
    (h : Reported report w.store) :
    (processDiagnosis report now).Grown referential (fun _ _ => True) w := by
  apply ((recordServiceBaseline_confined report).grown (by simp)).bind
  intro regression v _ hwv _
  have hreport := h.grow hwv
  by_cases hhealthy : isHealthy report
  · rw [if_pos hhealthy]
    apply (resolveService_grown report.serviceId now).bind
    intro _ _ _ _ _
    exact grown_pure
  · rw [if_neg hhealthy]
    refine grown_any (fun _ => trivial) fun rules => ?_
    apply Program.Grown.fold _ (fun _ _ _ _ h => h) trivial
    intro outcome rule _ u _ hvu _
    apply (fireRule_grown now _ (hreport.grow hvu)).bind
    intro alert x _ _ halert
    apply (attachToIncident_grown now halert).bind
    intro _ _ _ _ _
    exact grown_pure

structure Tracked (incident : Incident) (s : ControllerStore) : Prop where
  refers : IncidentRefers s incident
  stored : s.incidents.Has incident.incidentId

theorem Tracked.grow {incident : Incident} {s t : ControllerStore} (h : Tracked incident s)
    (hst : Accrues s t) : Tracked incident t := ⟨h.refers.grow hst, hst.incidents _ h.stored⟩

theorem References.tracked {s : ControllerStore} (h : References s) {incident : Incident}
    (hmem : incident ∈ s.incidents.documents) : Tracked incident s :=
  ⟨h.incidents incident hmem, h.incidentIds.has hmem⟩

theorem getIncident_grown (incidentId : String) :
    (getIncident incidentId).Grown referential (Yields Tracked) w := by
  refine grown_read (fun _ => trivial) fun v hv _ => ?_
  cases hfound : (perform (.getIncident incidentId) v).1 with
  | none => exact yields_error
  | some incident =>
      have htracked := hv.tracked (Table.mem_documents_of_document? hfound)
      exact yields_ok fun u _ hvu => htracked.grow hvu

/-- An update of an incident that leaves its service and its alerts. -/
theorem updateIncident_grown {update : Incident → Rat → Incident}
    (hupdate : ∀ incident now s, IncidentRefers s incident → IncidentRefers s (update incident now))
    (incidentId : String) (now : Rat) :
    (updateIncident update incidentId now).Grown referential (Yields Tracked) w := by
  apply (getIncident_grown incidentId).bind
  intro result v _ _ hresult
  cases result with
  | error e => exact yields_error
  | ok incident =>
      have htracked := hresult incident rfl
      simp only
      split
      · exact yields_ok fun u _ hvu => htracked.grow hvu
      · have hrefers := hupdate incident now v.store htracked.refers
        have hlicensed : ∀ u : World, Accrues v.store u.store →
            Licensed u.store (.saveIncident (update incident now)) := fun u hvu => hrefers.grow hvu
        apply grown_save hlicensed
        intro u _ hvu
        apply yields_ok
        intro x _ hux
        exact ⟨hrefers.grow (hvu.trans ((accrues_perform _ u).trans hux)),
          hux.incidents _ (Table.has_upsert.mpr (.inr rfl))⟩

/-! ## Schedules and alert rules -/

theorem createSchedule_grown (schedule : ScheduleEntry) (now : Rat) :
    (createSchedule schedule now).Grown referential
      (Yields fun stored s => s.services.Has stored.serviceId) w := by
  refine grown_read (fun _ => trivial) fun v _ _ => ?_
  cases hfind : (perform (.getService schedule.serviceId) v).1 with
  | none => exact yields_error
  | some service =>
      have hservice : v.store.services.Has schedule.serviceId := Table.has_of_find? hfind
      have hlicensed :
          ∀ u : World, Accrues v.store u.store → u.store.services.Has schedule.serviceId :=
        fun u hvu => hvu.services _ hservice
      apply grown_write hlicensed
      intro _
      exact yields_ok fun u _ hvu => hvu.services _ hservice

theorem registerAlertRule_grown (rule : AlertRule) :
    (registerAlertRule rule).Grown referential
      (Yields fun stored s => ServiceKnown s stored.serviceId) w := by
  unfold registerAlertRule
  cases hservice : rule.serviceId with
  | none =>
      have hknown : ∀ s : ControllerStore, ServiceKnown s rule.serviceId := by
        intro s id hid
        rw [hservice] at hid
        exact absurd hid (by simp)
      have hlicensed :
          ∀ u : World, Accrues w.store u.store → Licensed u.store (.upsertAlertRule rule) :=
        fun u _ => hknown u.store
      apply grown_write hlicensed
      intro _
      exact yields_ok fun u _ _ => hknown u.store
  | some serviceId =>
      refine grown_read (fun _ => trivial) fun v _ _ => ?_
      cases hfind : (perform (.getService serviceId) v).1 with
      | none => exact yields_error
      | some service =>
          have hknown : ServiceKnown v.store rule.serviceId := by
            intro id hid
            rw [hservice] at hid
            cases hid
            exact Table.has_of_find? hfind
          have hlicensed : ∀ u : World, Accrues v.store u.store →
              Licensed u.store (.upsertAlertRule rule) := fun u hvu => hknown.grow hvu
          apply grown_write hlicensed
          intro _
          exact yields_ok fun u _ hvu => hknown.grow hvu

theorem runSchedule_grown {schedule : ScheduleEntry} (now : Rat)
    {reports : List MultiVantageReport} (hservice : w.store.services.Has schedule.serviceId)
    (hreports : ∀ report ∈ reports, Reported report w.store) :
    (runSchedule now reports schedule).Grown referential
      (fun reports v => ∀ report ∈ reports, Reported report v.store) w := by
  apply (diagnoseService_grown _).bind
  intro result v _ hwv hresult
  have hlicensed : ∀ error (u : World), Accrues w.store u.store →
      Licensed u.store (.upsertSchedule (advanceSchedule schedule now error)) :=
    fun error u hwu => hwu.services _ hservice
  cases result with
  | error e =>
      apply grown_write fun u hvu => hlicensed _ u (hwv.trans hvu)
      intro _ u _ hvu report hreport
      exact (hreports report hreport).grow (hwv.trans hvu)
  | ok report =>
      have hreported := hresult report rfl
      apply (processDiagnosis_grown now hreported).bind
      intro _ u _ hvu _
      apply grown_write fun x hux => hlicensed _ x ((hwv.trans hvu).trans hux)
      intro _ x _ hux other hother
      rcases List.mem_append.mp hother with hother | hother
      · exact (hreports other hother).grow ((hwv.trans hvu).trans hux)
      · rw [List.mem_singleton.mp hother]
        exact hreported.grow (hvu.trans hux)

theorem runDueSchedules_grown (now : Rat) :
    (runDueSchedules now).Grown referential
      (fun reports v => ∀ report ∈ reports, Reported report v.store) w := by
  refine grown_read (fun _ => trivial) fun v hv _ => ?_
  apply Program.Grown.fold (J := fun reports (u : World) => ∀ report ∈ reports,
    Reported report u.store)
  · intro reports schedule hmem u _ hvu hreports
    have hstored : schedule ∈ v.store.schedules.rows := by
      have hlisted := (List.mem_filter.mp hmem).1
      exact (List.mem_filter.mp (mem_orderBy.mp hlisted)).1
    exact runSchedule_grown now (hvu.services _ (hv.schedules schedule hstored)) hreports
  · exact fun reports u x hux hreports report hreport => (hreports report hreport).grow hux
  · exact fun report hreport => absurd hreport List.not_mem_nil

end NetForge.Controller
