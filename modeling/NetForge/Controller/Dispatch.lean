import NetForge.Calculus.Entries
import NetForge.Controller.Independence

/-! # Fan-out jobs

`dispatch_job` of `controller/service.py` and the fan-out of `controller/dispatch.py`: the
agents of a job are probed by a thread pool, and each answer is recorded under its agent
when its future completes. The account of a job says what is stored whatever the agents
answer and in whatever order.
-/

namespace NetForge.Controller

open Calculus NetForge.Core

/-! ## Recording futures -/

/-- The observations an agent returns, or the text of what was raised. -/
abbrev Outcome := Except String (List AgentObservation)

def Outcome.error? : Outcome → Option String
  | .ok _ => none
  | .error text => some text

def recordFuture (result : FanoutResult) (future : String × Outcome) : FanoutResult :=
  match future.2 with
  | .ok observations =>
      { result with
        observations := Entries.alter result.observations future.1 fun _ => observations }
  | .error text =>
      { result with errors := Entries.alter result.errors future.1 fun _ => text }

def recordFutures (result : FanoutResult) (futures : List (String × Outcome)) : FanoutResult :=
  futures.foldl recordFuture result

/-- How agents answer a probe, and in which order the futures of a fan-out complete. -/
structure AgentNetwork where
  probe : RegisteredAgent → ProbeRequest → Outcome
  completion : List RegisteredAgent → List RegisteredAgent
  completion_perm : ∀ agents, (completion agents).Perm agents

/-- `AgentDispatcher.fanout`: one future for each agent. -/
def AgentNetwork.fanout (n : AgentNetwork) (agents : List RegisteredAgent)
    (request : ProbeRequest) : FanoutResult :=
  recordFutures ⟨[], []⟩
    ((n.completion agents).map fun agent => (agent.agentId, n.probe agent request))

def World.over (w : World) (n : AgentNetwork) : World :=
  { w with network := fun _ agents request => n.fanout agents request }

theorem recordFutures_eq (result : FanoutResult) (futures : List (String × Outcome)) :
    recordFutures result futures =
      { observations := Entries.fill (fun v _ => v) result.observations
          (Entries.filterValues Except.toOption futures)
        errors := Entries.fill (fun v _ => v) result.errors
          (Entries.filterValues Outcome.error? futures) } := by
  induction futures generalizing result with
  | nil => rfl
  | cons future futures ih =>
      obtain ⟨agentId, outcome⟩ := future
      show recordFutures (recordFuture result (agentId, outcome)) futures = _
      rw [ih]
      cases outcome <;> rfl

theorem toOption_eq_some {outcome : Outcome} {observations : List AgentObservation} :
    Except.toOption outcome = some observations ↔ outcome = .ok observations := by
  cases outcome <;> simp [Except.toOption]

theorem Outcome.error?_eq_some {outcome : Outcome} {text : String} :
    Outcome.error? outcome = some text ↔ outcome = .error text := by
  cases outcome <;> simp [Outcome.error?]

section

variable (n : AgentNetwork) {agents : List RegisteredAgent} (request : ProbeRequest)

/-- The futures of a fan-out, in the order of completion. -/
def AgentNetwork.futures (agents : List RegisteredAgent) : List (String × Outcome) :=
  (n.completion agents).map fun agent => (agent.agentId, n.probe agent request)

theorem nodup_futures (h : (agents.map (·.agentId)).Nodup) :
    (Entries.keys (n.futures request agents)).Nodup := by
  have hids : Entries.keys (n.futures request agents) =
      (n.completion agents).map (·.agentId) := by
    unfold Entries.keys AgentNetwork.futures
    rw [List.map_map]
    rfl
  rw [hids]
  exact ((n.completion_perm agents).map _).nodup_iff.mpr h

theorem mem_futures {agentId : String} {outcome : Outcome} :
    (agentId, outcome) ∈ n.futures request agents ↔
      ∃ agent ∈ agents, agent.agentId = agentId ∧ n.probe agent request = outcome := by
  unfold AgentNetwork.futures
  rw [List.mem_map]
  constructor
  · rintro ⟨agent, hagent, heq⟩
    obtain ⟨hid, houtcome⟩ := Prod.mk.inj heq
    exact ⟨agent, (n.completion_perm agents).mem_iff.mp hagent, hid, houtcome⟩
  · rintro ⟨agent, hagent, hid, houtcome⟩
    exact ⟨agent, (n.completion_perm agents).mem_iff.mpr hagent, by rw [hid, houtcome]⟩

/-- What a fan-out keeps of the outcomes, under the agent of each. -/
theorem value?_recorded {β : Type} (f : Outcome → Option β)
    (h : (agents.map (·.agentId)).Nodup) {agentId : String} {v : β} :
    Entries.value? (Entries.fill (fun v _ => v) []
        (Entries.filterValues f (n.futures request agents))) agentId = some v ↔
      ∃ agent ∈ agents, agent.agentId = agentId ∧ f (n.probe agent request) = some v := by
  have hnodup := (nodup_futures n request h).sublist (Entries.keys_filterValues_sublist f _)
  rw [Entries.value?_overwritten hnodup, Entries.mem_filterValues]
  constructor
  · rintro ⟨outcome, hmem, hv⟩
    obtain ⟨agent, hagent, hid, rfl⟩ := (mem_futures n request).mp hmem
    exact ⟨agent, hagent, hid, hv⟩
  · rintro ⟨agent, hagent, hid, hv⟩
    exact ⟨_, (mem_futures n request).mpr ⟨agent, hagent, hid, rfl⟩, hv⟩

theorem fanout_eq (agents : List RegisteredAgent) :
    n.fanout agents request = recordFutures ⟨[], []⟩ (n.futures request agents) := rfl

theorem value?_observations (h : (agents.map (·.agentId)).Nodup) {agentId : String}
    {observations : List AgentObservation} :
    Entries.value? (n.fanout agents request).observations agentId = some observations ↔
      ∃ agent ∈ agents, agent.agentId = agentId ∧
        n.probe agent request = .ok observations := by
  rw [fanout_eq, recordFutures_eq, value?_recorded n request _ h]
  simp only [toOption_eq_some]

theorem value?_errors (h : (agents.map (·.agentId)).Nodup) {agentId text : String} :
    Entries.value? (n.fanout agents request).errors agentId = some text ↔
      ∃ agent ∈ agents, agent.agentId = agentId ∧ n.probe agent request = .error text := by
  rw [fanout_eq, recordFutures_eq, value?_recorded n request _ h]
  simp only [Outcome.error?_eq_some]

theorem nodup_recorded (agents : List RegisteredAgent) :
    (Entries.keys (n.fanout agents request).observations).Nodup ∧
      (Entries.keys (n.fanout agents request).errors).Nodup := by
  rw [fanout_eq, recordFutures_eq]
  simp only
  constructor
  · apply Entries.nodup_fill
    exact List.nodup_nil
  · apply Entries.nodup_fill
    exact List.nodup_nil

end

/-! ## The agents of a job -/

theorem nodup_mem_foldl_distinct (ids : List String) {seen : List String} (h : seen.Nodup) :
    (ids.foldl (fun seen id => if id ∈ seen then seen else seen ++ [id]) seen).Nodup ∧
      ∀ id, id ∈ ids.foldl (fun seen id => if id ∈ seen then seen else seen ++ [id]) seen ↔
        id ∈ seen ∨ id ∈ ids := by
  induction ids generalizing seen with
  | nil => simp [h]
  | cons a ids ih =>
      rw [List.foldl_cons]
      by_cases ha : a ∈ seen
      · rw [if_pos ha]
        obtain ⟨hnodup, hmem⟩ := ih h
        refine ⟨hnodup, fun id => ?_⟩
        rw [hmem, List.mem_cons]
        constructor
        · rintro (hid | hid)
          · exact .inl hid
          · exact .inr (.inr hid)
        · rintro (hid | rfl | hid)
          · exact .inl hid
          · exact .inl ha
          · exact .inr hid
      · rw [if_neg ha]
        have hnext : (seen ++ [a]).Nodup := by
          rw [← List.concat_eq_append]
          exact h.concat ha
        obtain ⟨hnodup, hmem⟩ := ih hnext
        refine ⟨hnodup, fun id => ?_⟩
        rw [hmem, List.mem_append, List.mem_singleton, List.mem_cons, or_assoc]

theorem distinctIds_nodup (ids : List String) : (distinctIds ids).Nodup :=
  (nodup_mem_foldl_distinct ids List.nodup_nil).1

theorem mem_distinctIds {ids : List String} {id : String} : id ∈ distinctIds ids ↔ id ∈ ids := by
  unfold distinctIds
  rw [(nodup_mem_foldl_distinct ids List.nodup_nil).2]
  simp

def World.Available (w : World) (agentId : String) : Prop :=
  ∃ agent, w.store.agents.find? agentId = some agent ∧ agent.enabled = true

def unavailable (agentId : String) : ServiceError :=
  .unknownAgent s!"unknown or disabled agent: {agentId}"

theorem requireAgents_confined (ids : List String) : Confined [] (requireAgents ids) := by
  induction ids with
  | nil => exact .pure _
  | cons id rest ih =>
      refine .read rfl fun found => ?_
      split
      · exact .pure _
      · split
        · refine ih.bind (by simp) fun result => ?_
          split <;> exact .pure _
        · exact .pure _

theorem run_requireAgents_cons {id : String} {w : World} {agent : RegisteredAgent}
    (hfind : w.store.agents.find? id = some agent) (henabled : agent.enabled = true)
    (rest : List String) :
    ((requireAgents (id :: rest)).run w).1 = ((requireAgents rest).run w).1.map (agent :: ·) := by
  rw [requireAgents, Program.run_bind, Program.run_request]
  simp only [perform, hfind, henabled, if_true]
  rw [Program.run_bind, (requireAgents_confined rest).run_eq]
  cases ((requireAgents rest).run w).1 <;> rfl

theorem requireAgents_ok {ids : List String} {w : World} (h : ∀ id ∈ ids, w.Available id) :
    ∃ agents, ((requireAgents ids).run w).1 = .ok agents ∧ agents.map (·.agentId) = ids ∧
      ∀ agent ∈ agents, w.store.agents.find? agent.agentId = some agent := by
  induction ids with
  | nil => exact ⟨[], rfl, rfl, by simp⟩
  | cons id rest ih =>
      obtain ⟨agent, hfind, henabled⟩ := h id List.mem_cons_self
      obtain ⟨others, hothers, hids, hstored⟩ :=
        ih fun other hother => h other (List.mem_cons_of_mem _ hother)
      have hid : agent.agentId = id := (Table.find?_eq_some.mp hfind).2
      refine ⟨agent :: others, ?_, by rw [List.map_cons, hid, hids], ?_⟩
      · rw [run_requireAgents_cons hfind henabled, hothers]
        rfl
      · intro other hother
        rcases List.mem_cons.mp hother with rfl | hother
        · rw [hid]
          exact hfind
        · exact hstored other hother

/-- The first id that is not available is named in the error. -/
theorem requireAgents_error {ids : List String} {w : World}
    (h : ∃ id ∈ ids, ¬ w.Available id) :
    ∃ id ∈ ids, ¬ w.Available id ∧ ((requireAgents ids).run w).1 = .error (unavailable id) := by
  induction ids with
  | nil =>
      obtain ⟨id, hid, -⟩ := h
      exact absurd hid List.not_mem_nil
  | cons id rest ih =>
      by_cases hid : w.Available id
      · obtain ⟨agent, hfind, henabled⟩ := hid
        have hrest : ∃ other ∈ rest, ¬ w.Available other := by
          obtain ⟨other, hother, hnot⟩ := h
          rcases List.mem_cons.mp hother with rfl | hother
          · exact absurd ⟨agent, hfind, henabled⟩ hnot
          · exact ⟨other, hother, hnot⟩
        obtain ⟨other, hother, hnot, herror⟩ := ih hrest
        refine ⟨other, List.mem_cons_of_mem _ hother, hnot, ?_⟩
        rw [run_requireAgents_cons hfind henabled, herror]
        rfl
      · refine ⟨id, List.mem_cons_self, hid, ?_⟩
        unfold requireAgents
        rw [Program.run_bind, Program.run_request]
        cases hfind : w.store.agents.find? id with
        | none =>
            simp only [perform, hfind]
            rfl
        | some agent =>
            have hdisabled : agent.enabled = false := by
              by_contra henabled
              exact hid ⟨agent, hfind, by simpa using henabled⟩
            simp only [perform, hfind, hdisabled, Bool.false_eq_true, if_false]
            rfl

/-! ## The run of a job -/

/-- The probes a call sends: to whom, and what is asked. -/
def StoreCall.probes : StoreCall → List (String × ProbeRequest)
  | .fanout agents probe => agents.map fun agent => (agent.agentId, probe)
  | _ => []

/-- The end of `dispatchJob`, with the answers. -/
def recordJob (job : FanoutJob) (result : FanoutResult) :
    Method (Except ServiceError FanoutJob) := do
  let _ ← Program.fold (fun (_ : Unit) entry => call (.markSeen entry.1)) ()
    result.observations
  let completedAt ← call .time
  let finished : FanoutJob :=
    { job with
      observations := result.observations
      errors := result.errors
      completedAt := some completedAt
      status := jobStatus result }
  call (.saveJob finished)
  pure (.ok finished)

/-- `dispatchJob` once the agents are found. -/
def serveJob (request : FanoutJobRequest) (agents : List RegisteredAgent) :
    Method (Except ServiceError FanoutJob) := do
  let jobId ← call .uuid4
  let createdAt ← call .time
  let job : FanoutJob :=
    { jobId
      createdAt
      completedAt := none
      request
      status := .running
      observations := []
      errors := [] }
  call (.saveJob job)
  match ← call (.fanout agents request.probe) with
  | .error message => pure (.error (.raised "ValueError" message))
  | .ok result => recordJob job result

theorem dispatchJob_eq (request : FanoutJobRequest) :
    dispatchJob request = (requireAgents (distinctIds request.agentIds) >>= fun
      | .error e => pure (.error e)
      | .ok agents => serveJob request agents) := rfl

theorem run_recordJob (job : FanoutJob) (result : FanoutResult) (w : World) :
    ∃ completedAt, ∃ finished : FanoutJob,
      finished = { job with
        observations := result.observations
        errors := result.errors
        completedAt := some completedAt
        status := jobStatus result } ∧
      ((recordJob job result).run w).1 = .ok finished ∧
      ((recordJob job result).run w).2.store.jobs.find? job.jobId = some finished := by
  unfold recordJob
  rw [Program.run_bind]
  exact ⟨_, _, rfl, rfl, Table.find?_upsert_replacing _ _⟩

theorem noProbes_of_reads {α : Type} {p : Method α} (h : Confined [] p) (w : World) :
    (p.trace w).flatMap (·.call.probes) = [] := by
  rw [List.flatMap_eq_nil_iff]
  intro ev hev
  have hreads := Program.Calls.trace h w ev hev
  cases hcall : ev.call with
  | fanout agents probe => exact absurd (hreads .network (by rw [hcall]; rfl)) List.not_mem_nil
  | _ => rfl

theorem probes_recordJob (job : FanoutJob) (result : FanoutResult) (w : World) :
    ((recordJob job result).trace w).flatMap (·.call.probes) = [] := by
  have hcalls : (recordJob job result).Calls fun c : StoreCall => c.probes = [] := by
    have hmark : ∀ (_ : Unit) (entry : String × List AgentObservation),
        (call (.markSeen entry.1)).Calls fun c : StoreCall => c.probes = [] :=
      fun _ _ => ⟨rfl, fun _ => trivial⟩
    refine Program.Calls.bind (Program.Calls.fold hmark _ _) ?_
    exact fun _ => ⟨rfl, fun _ => ⟨rfl, fun _ => trivial⟩⟩
  rw [List.flatMap_eq_nil_iff]
  intro ev hev
  exact Program.Calls.trace hcalls w ev hev

section

variable {n : AgentNetwork} {request : FanoutJobRequest} {agents : List RegisteredAgent}

def startedJob (request : FanoutJobRequest) (w : World) : FanoutJob where
  jobId := w.uuid w.issued
  createdAt := w.clock w.readings
  completedAt := none
  request := request
  status := .running
  observations := []
  errors := []

/-- A job with agents goes to the network once, and then records the answers. -/
theorem serveJob_run (h : agents ≠ []) (w : World) :
    ∃ v, (serveJob request agents).run (w.over n) =
        (recordJob (startedJob request w) (n.fanout agents request.probe)).run v ∧
      ((serveJob request agents).trace (w.over n)).flatMap (·.call.probes) =
        agents.map fun agent => (agent.agentId, request.probe) := by
  have hfanout : ∀ v : World, v.network = (w.over n).network →
      perform (.fanout agents request.probe) v =
        (.ok (n.fanout agents request.probe), { v with fanouts := v.fanouts + 1 }) := by
    intro v hv
    simp only [perform, h, if_false, hv]
    rfl
  let after : (StoreCall.fanout agents request.probe).Reply →
      Method (Except ServiceError FanoutJob)
    | .error message => pure (.error (.raised "ValueError" message))
    | .ok result => recordJob (startedJob request w) result
  let u : World :=
    (perform (.saveJob (startedJob request w))
      (perform .time (perform .uuid4 (w.over n)).2).2).2
  have hrun : (serveJob request agents).run (w.over n) =
      (after (perform (.fanout agents request.probe) u).1).run
        (perform (.fanout agents request.probe) u).2 := rfl
  have htrace : ((serveJob request agents).trace (w.over n)).flatMap (·.call.probes) =
      agents.map (fun agent => (agent.agentId, request.probe)) ++
        ((after (perform (.fanout agents request.probe) u).1).trace
          (perform (.fanout agents request.probe) u).2).flatMap (·.call.probes) := rfl
  refine ⟨{ u with fanouts := u.fanouts + 1 }, ?_, ?_⟩
  · rw [hrun, hfanout u rfl]
  · rw [htrace, hfanout u rfl]
    show _ ++ ((recordJob (startedJob request w) _).trace _).flatMap _ = _
    rw [probes_recordJob, List.append_nil]

end

/-! ## The account of a job -/

theorem jobStatus_eq_completed {result : FanoutResult} :
    jobStatus result = .completed ↔ result.errors = [] := by
  unfold jobStatus
  by_cases herrors : result.errors = []
  · simp [herrors]
  · by_cases hobserved : result.observations.isEmpty = true <;> simp [herrors, hobserved]

/-- A job that asked somebody has an observation or an error. -/
theorem jobStatus_eq_failed {result : FanoutResult}
    (h : result.observations ≠ [] ∨ result.errors ≠ []) :
    jobStatus result = .failed ↔ result.observations = [] := by
  unfold jobStatus
  by_cases herrors : result.errors = []
  · have hobserved := h.resolve_right fun hne => hne herrors
    simp [herrors, hobserved]
  · by_cases hobserved : result.observations = [] <;> simp [herrors, hobserved]

theorem jobStatus_eq_partially {result : FanoutResult} :
    jobStatus result = .partially ↔ result.errors ≠ [] ∧ result.observations ≠ [] := by
  unfold jobStatus
  by_cases herrors : result.errors = []
  · simp [herrors]
  · by_cases hobserved : result.observations = [] <;> simp [herrors, hobserved]

theorem jobStatus_congr {a b : FanoutResult} (herrors : a.errors = [] ↔ b.errors = [])
    (hobserved : a.observations = [] ↔ b.observations = []) : jobStatus a = jobStatus b := by
  unfold jobStatus
  simp only [herrors, List.isEmpty_iff, hobserved]

structure JobAccount (w : World) (n : AgentNetwork) (request : FanoutJobRequest)
    (job : FanoutJob) : Prop where
  request_eq : job.request = request
  observed : ∀ agentId observations,
    Entries.value? job.observations agentId = some observations ↔
      agentId ∈ request.agentIds ∧ ∃ agent, w.store.agents.find? agentId = some agent ∧
        n.probe agent request.probe = .ok observations
  raised : ∀ agentId text,
    Entries.value? job.errors agentId = some text ↔
      agentId ∈ request.agentIds ∧ ∃ agent, w.store.agents.find? agentId = some agent ∧
        n.probe agent request.probe = .error text
  observations_nodup : (Entries.keys job.observations).Nodup
  errors_nodup : (Entries.keys job.errors).Nodup
  /-- The keys are the requested agents. -/
  covered : ∀ agentId, agentId ∈ request.agentIds ↔
    agentId ∈ Entries.keys job.observations ∨ agentId ∈ Entries.keys job.errors
  /-- No agent is in both. -/
  disjoint : ∀ agentId, agentId ∈ Entries.keys job.observations →
    agentId ∉ Entries.keys job.errors
  completed_iff : job.status = .completed ↔ job.errors = []
  failed_iff : job.status = .failed ↔ job.observations = []
  partially_iff : job.status = .partially ↔ job.errors ≠ [] ∧ job.observations ≠ []

structure Dispatched (w : World) (n : AgentNetwork) (request : FanoutJobRequest) : Prop where
  /-- Nothing is stored and nothing sent for a request with an agent that is unknown or
  disabled. -/
  refused : (∃ agentId ∈ request.agentIds, ¬ w.Available agentId) →
    ∃ agentId ∈ request.agentIds, ¬ w.Available agentId ∧
      (dispatchJob request).run (w.over n) =
        (.error (.unknownAgent s!"unknown or disabled agent: {agentId}"), w.over n) ∧
      ((dispatchJob request).trace (w.over n)).flatMap (·.call.probes) = []
  served : (∀ agentId ∈ request.agentIds, w.Available agentId) →
    ∃ job, ((dispatchJob request).run (w.over n)).1 = .ok job ∧
      ((dispatchJob request).run (w.over n)).2.store.jobs.find? job.jobId = some job ∧
      JobAccount w n request job
  /-- Each distinct agent is sent one probe. -/
  probed : (∀ agentId ∈ request.agentIds, w.Available agentId) →
    ∃ agentIds : List String, agentIds.Nodup ∧
      (∀ agentId, agentId ∈ agentIds ↔ agentId ∈ request.agentIds) ∧
      ((dispatchJob request).trace (w.over n)).flatMap (·.call.probes) =
        agentIds.map fun agentId => (agentId, request.probe)
  /-- Another order of completion stores the same maps and the same status. -/
  unordered : ∀ other : AgentNetwork, other.probe = n.probe → ∀ job job',
    ((dispatchJob request).run (w.over n)).1 = .ok job →
    ((dispatchJob request).run (w.over other)).1 = .ok job' →
      (∀ agentId, Entries.value? job.observations agentId =
        Entries.value? job'.observations agentId) ∧
      (∀ agentId, Entries.value? job.errors agentId = Entries.value? job'.errors agentId) ∧
      job.status = job'.status

section

variable {w : World} {n : AgentNetwork} {request : FanoutJobRequest}

theorem asked_iff {agents : List RegisteredAgent}
    (hids : agents.map (·.agentId) = distinctIds request.agentIds)
    (hstored : ∀ agent ∈ agents, w.store.agents.find? agent.agentId = some agent)
    {agentId : String} {p : RegisteredAgent → Prop} :
    (∃ agent ∈ agents, agent.agentId = agentId ∧ p agent) ↔
      agentId ∈ request.agentIds ∧ ∃ agent, w.store.agents.find? agentId = some agent ∧
        p agent := by
  have hmem : agentId ∈ agents.map (·.agentId) ↔ agentId ∈ request.agentIds := by
    rw [hids]
    exact mem_distinctIds
  constructor
  · rintro ⟨agent, hagent, rfl, hp⟩
    exact ⟨hmem.mp (List.mem_map.mpr ⟨agent, hagent, rfl⟩), agent, hstored agent hagent, hp⟩
  · rintro ⟨hid, agent, hfind, hp⟩
    obtain ⟨found, hfound, heq⟩ := List.mem_map.mp (hmem.mpr hid)
    have hsame := hstored found hfound
    rw [heq, hfind, Option.some.injEq] at hsame
    exact ⟨found, hfound, heq, hsame ▸ hp⟩

section

variable {agents : List RegisteredAgent} (n)

/-- An agent has observations exactly where it was asked and answered. -/
theorem observed_iff (hids : agents.map (·.agentId) = distinctIds request.agentIds)
    (hstored : ∀ agent ∈ agents, w.store.agents.find? agent.agentId = some agent)
    (agentId : String) (observations : List AgentObservation) :
    Entries.value? (n.fanout agents request.probe).observations agentId = some observations ↔
      agentId ∈ request.agentIds ∧ ∃ agent, w.store.agents.find? agentId = some agent ∧
        n.probe agent request.probe = .ok observations := by
  have hnodup : (agents.map (·.agentId)).Nodup := hids ▸ distinctIds_nodup _
  rw [value?_observations n _ hnodup, asked_iff hids hstored]

theorem raised_iff (hids : agents.map (·.agentId) = distinctIds request.agentIds)
    (hstored : ∀ agent ∈ agents, w.store.agents.find? agent.agentId = some agent)
    (agentId text : String) :
    Entries.value? (n.fanout agents request.probe).errors agentId = some text ↔
      agentId ∈ request.agentIds ∧ ∃ agent, w.store.agents.find? agentId = some agent ∧
        n.probe agent request.probe = .error text := by
  have hnodup : (agents.map (·.agentId)).Nodup := hids ▸ distinctIds_nodup _
  rw [value?_errors n _ hnodup, asked_iff hids hstored]

/-- Every agent that was asked is in one of the two maps. -/
theorem covered_iff (hids : agents.map (·.agentId) = distinctIds request.agentIds)
    (hstored : ∀ agent ∈ agents, w.store.agents.find? agent.agentId = some agent)
    (agentId : String) :
    agentId ∈ request.agentIds ↔
      agentId ∈ Entries.keys (n.fanout agents request.probe).observations ∨
        agentId ∈ Entries.keys (n.fanout agents request.probe).errors := by
  rw [Entries.mem_keys_iff, Entries.mem_keys_iff]
  constructor
  · intro hid
    have hlisted : agentId ∈ agents.map (·.agentId) := by
      rw [hids]
      exact mem_distinctIds.mpr hid
    obtain ⟨agent, hagent, rfl⟩ := List.mem_map.mp hlisted
    have hfind := hstored agent hagent
    cases houtcome : n.probe agent request.probe with
    | ok observations =>
        exact .inl ⟨observations,
          (observed_iff n hids hstored _ _).mpr ⟨hid, agent, hfind, houtcome⟩⟩
    | error text =>
        exact .inr ⟨text, (raised_iff n hids hstored _ _).mpr ⟨hid, agent, hfind, houtcome⟩⟩
  · rintro (⟨observations, hv⟩ | ⟨text, hv⟩)
    · exact ((observed_iff n hids hstored _ _).mp hv).1
    · exact ((raised_iff n hids hstored _ _).mp hv).1

theorem not_mem_errors_of_observed (hids : agents.map (·.agentId) = distinctIds request.agentIds)
    (hstored : ∀ agent ∈ agents, w.store.agents.find? agent.agentId = some agent)
    {agentId : String}
    (hobs : agentId ∈ Entries.keys (n.fanout agents request.probe).observations) :
    agentId ∉ Entries.keys (n.fanout agents request.probe).errors := by
  intro herr
  obtain ⟨observations, hv⟩ := Entries.mem_keys_iff.mp hobs
  obtain ⟨text, hv'⟩ := Entries.mem_keys_iff.mp herr
  obtain ⟨-, agent, hfind, hok⟩ := (observed_iff n hids hstored _ _).mp hv
  obtain ⟨-, other, hother, herror⟩ := (raised_iff n hids hstored _ _).mp hv'
  rw [hfind, Option.some.injEq] at hother
  rw [← hother, hok] at herror
  cases herror

end

theorem account_of_fanout {agents : List RegisteredAgent}
    (hids : agents.map (·.agentId) = distinctIds request.agentIds)
    (hstored : ∀ agent ∈ agents, w.store.agents.find? agent.agentId = some agent)
    {job : FanoutJob} (hrequest : job.request = request)
    (hobserved : job.observations = (n.fanout agents request.probe).observations)
    (herrors : job.errors = (n.fanout agents request.probe).errors)
    (hstatus : job.status = jobStatus (n.fanout agents request.probe)) :
    JobAccount w n request job := by
  have hsome : (n.fanout agents request.probe).observations ≠ [] ∨
      (n.fanout agents request.probe).errors ≠ [] := by
    obtain ⟨agentId, hid⟩ := List.exists_mem_of_length_pos request.agentIds_length.1
    have hin := (covered_iff n hids hstored agentId).mp hid
    exact hin.imp Entries.ne_nil_of_key Entries.ne_nil_of_key
  obtain ⟨hobsNodup, herrNodup⟩ := nodup_recorded n request.probe agents
  exact {
    request_eq := hrequest
    observed := hobserved ▸ observed_iff n hids hstored
    raised := herrors ▸ raised_iff n hids hstored
    observations_nodup := hobserved ▸ hobsNodup
    errors_nodup := herrors ▸ herrNodup
    covered := by
      intro agentId
      rw [hobserved, herrors]
      exact covered_iff n hids hstored agentId
    disjoint := by
      intro agentId
      rw [hobserved, herrors]
      exact not_mem_errors_of_observed n hids hstored
    completed_iff := by
      rw [hstatus, herrors]
      exact jobStatus_eq_completed
    failed_iff := by
      rw [hstatus, hobserved]
      exact jobStatus_eq_failed hsome
    partially_iff := by
      rw [hstatus, hobserved, herrors]
      exact jobStatus_eq_partially }

/-- A request whose agents are all there: the job, what is stored, and what was sent. -/
theorem dispatchJob_served (h : ∀ agentId ∈ request.agentIds, w.Available agentId) :
    ∃ (agents : List RegisteredAgent) (job : FanoutJob),
      agents.map (·.agentId) = distinctIds request.agentIds ∧
      ((dispatchJob request).run (w.over n)).1 = .ok job ∧
      ((dispatchJob request).run (w.over n)).2.store.jobs.find? job.jobId = some job ∧
      ((dispatchJob request).trace (w.over n)).flatMap (·.call.probes) =
        agents.map (fun agent => (agent.agentId, request.probe)) ∧
      job.status = jobStatus ⟨job.observations, job.errors⟩ ∧ JobAccount w n request job := by
  have hall : ∀ agentId ∈ distinctIds request.agentIds, (w.over n).Available agentId :=
    fun agentId hid => h agentId (mem_distinctIds.mp hid)
  obtain ⟨agents, hagents, hids, hstored⟩ := requireAgents_ok hall
  have hsome : agents ≠ [] := by
    rintro rfl
    obtain ⟨agentId, hid⟩ := List.exists_mem_of_length_pos request.agentIds_length.1
    have hnone := mem_distinctIds.mpr hid
    rw [← hids] at hnone
    exact List.not_mem_nil hnone
  obtain ⟨v, hrun, hprobes⟩ := @serveJob_run n request agents hsome w
  obtain ⟨completedAt, job, hfinished, hjob, hfind⟩ :=
    run_recordJob (startedJob request w) (n.fanout agents request.probe) v
  have hdispatch : (dispatchJob request).run (w.over n) =
      (serveJob request agents).run (w.over n) := by
    rw [dispatchJob_eq, (requireAgents_confined _).run_bind, hagents]
  have htrace : ((dispatchJob request).trace (w.over n)).flatMap (·.call.probes) =
      agents.map fun agent => (agent.agentId, request.probe) := by
    have hreads : ((requireAgents (distinctIds request.agentIds)).trace (w.over n)).flatMap
        (·.call.probes) = [] := noProbes_of_reads (requireAgents_confined _) _
    rw [dispatchJob_eq, Program.trace_bind, List.flatMap_append, hreads,
      (requireAgents_confined _).run_eq, hagents, List.nil_append]
    exact hprobes
  have hstatus : job.status = jobStatus ⟨job.observations, job.errors⟩ := by rw [hfinished]
  have hstored : ∀ agent ∈ agents, w.store.agents.find? agent.agentId = some agent := hstored
  have haccount : JobAccount w n request job :=
    account_of_fanout hids hstored (by rw [hfinished]; rfl) (by rw [hfinished])
      (by rw [hfinished]) (by rw [hfinished])
  refine ⟨agents, job, hids, ?_, ?_, htrace, hstatus, haccount⟩
  · rw [hdispatch, hrun, hjob]
  · have hid : job.jobId = (startedJob request w).jobId := by rw [hfinished]
    rw [hdispatch, hrun, hid]
    exact hfind

theorem dispatchJob_refused (h : ∃ agentId ∈ request.agentIds, ¬ w.Available agentId) :
    ∃ agentId ∈ request.agentIds, ¬ w.Available agentId ∧
      (dispatchJob request).run (w.over n) = (.error (unavailable agentId), w.over n) ∧
      ((dispatchJob request).trace (w.over n)).flatMap (·.call.probes) = [] := by
  have hmissing : ∃ agentId ∈ distinctIds request.agentIds, ¬ (w.over n).Available agentId := by
    obtain ⟨agentId, hid, hnot⟩ := h
    exact ⟨agentId, mem_distinctIds.mpr hid, hnot⟩
  obtain ⟨agentId, hid, hnot, herror⟩ := requireAgents_error hmissing
  refine ⟨agentId, mem_distinctIds.mp hid, hnot, ?_, ?_⟩
  · rw [dispatchJob_eq, (requireAgents_confined _).run_bind, herror]
    rfl
  · rw [dispatchJob_eq, Program.trace_bind, List.flatMap_append,
      noProbes_of_reads (requireAgents_confined _), (requireAgents_confined _).run_eq, herror]
    rfl

end

theorem dispatchJob_dispatched (w : World) (n : AgentNetwork) (request : FanoutJobRequest) :
    Dispatched w n request where
  refused := dispatchJob_refused
  served := by
    intro h
    obtain ⟨agents, job, -, hjob, hfind, -, -, haccount⟩ := @dispatchJob_served w n request h
    exact ⟨job, hjob, hfind, haccount⟩
  probed := by
    intro h
    obtain ⟨agents, job, hids, -, -, hprobes, -, -⟩ := @dispatchJob_served w n request h
    refine ⟨distinctIds request.agentIds, distinctIds_nodup _, fun _ => mem_distinctIds, ?_⟩
    rw [hprobes, ← hids, List.map_map]
    rfl
  unordered := by
    intro other hprobe job job' hjob hjob'
    by_cases h : ∀ agentId ∈ request.agentIds, w.Available agentId
    · obtain ⟨_, served, -, hserved, -, -, hstatus, haccount⟩ :=
        @dispatchJob_served w n request h
      obtain ⟨_, served', -, hserved', -, -, hstatus', haccount'⟩ :=
        @dispatchJob_served w other request h
      rw [hjob, Except.ok.injEq] at hserved
      rw [hjob', Except.ok.injEq] at hserved'
      subst hserved hserved'
      have hobserved : ∀ agentId, Entries.value? job.observations agentId =
          Entries.value? job'.observations agentId := by
        intro agentId
        apply Option.ext
        intro observations
        rw [haccount.observed, haccount'.observed, hprobe]
      have herrors : ∀ agentId, Entries.value? job.errors agentId =
          Entries.value? job'.errors agentId := by
        intro agentId
        apply Option.ext
        intro text
        rw [haccount.raised, haccount'.raised, hprobe]
      refine ⟨hobserved, herrors, ?_⟩
      rw [hstatus, hstatus']
      apply jobStatus_congr
      · simp only [Entries.eq_nil_iff, herrors]
      · simp only [Entries.eq_nil_iff, hobserved]
    · have hmissing : ∃ agentId ∈ request.agentIds, ¬ w.Available agentId := by
        simpa using h
      obtain ⟨agentId, -, -, hrefused, -⟩ := @dispatchJob_refused w n request hmissing
      rw [hrefused] at hjob
      cases hjob

end NetForge.Controller
