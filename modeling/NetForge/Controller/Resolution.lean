import NetForge.Controller.Invariant

/-! # Automatic resolution

A healthy diagnosis resolves the service's alerts and incidents. What it
resolves is what two list queries return, each limited to one page and each
dropping its service clause when the report names no service; whether it may
resolve at all is decided by the localization.
-/

namespace NetForge.Controller

open Calculus NetForge.Core Analysis

/-! ## What a resolution writes -/

theorem run_saveAlerts (now : Rat) (alerts : List Alert) (w : World) :
    ((Program.fold (fun (_ : Unit) a => call (.saveAlert (resolveAlert a now))) () alerts).run
        w).2.store =
      { w.store with alerts := w.store.alerts.putAll (resolveAlert · now) alerts } := by
  induction alerts generalizing w with
  | nil => rfl
  | cons a alerts ih =>
      rw [Program.fold_cons, Program.run_bind]
      exact ih _

theorem run_saveIncidents (now : Rat) (incidents resolved : List Incident) (w : World) :
    ((Program.fold
        (fun resolved incident =>
          if isActive incident then do
            call (.saveIncident (closeIncident incident now))
            pure (resolved ++ [closeIncident incident now])
          else pure resolved)
        resolved incidents).run w).2.store =
      { w.store with
        incidents :=
          w.store.incidents.putAll (closeIncident · now) (incidents.filter isActive) } := by
  induction incidents generalizing resolved w with
  | nil => rfl
  | cons i incidents ih =>
      rw [Program.fold_cons, Program.run_bind]
      cases h : isActive i with
      | false =>
          rw [List.filter_cons_of_neg (by simp [h])]
          exact ih _ _
      | true =>
          rw [List.filter_cons_of_pos h]
          exact ih _ _

/-- The incidents a resolution closes: the active ones on its page. -/
def closable (s : ControllerStore) (serviceId : Option String) : List Incident :=
  (s.listIncidents serviceId none).filter isActive

theorem run_resolveService (serviceId : Option String) (now : Rat) (w : World) :
    ((resolveService serviceId now).run w).2.store =
      { w.store with
        alerts := w.store.alerts.putAll (resolveAlert · now)
          (w.store.listAlerts serviceId (some .firing))
        incidents :=
          w.store.incidents.putAll (closeIncident · now) (closable w.store serviceId) } := by
  have alerts := run_saveAlerts now (w.store.listAlerts serviceId (some .firing)) w
  unfold resolveService
  rw [Program.request_bind, Program.run_call, Program.run_bind, Program.request_bind,
    Program.run_call, run_saveIncidents]
  simp only [perform]
  rw [alerts]
  rfl

theorem run_recordServiceBaseline (report : MultiVantageReport) (w : World) :
    ((recordServiceBaseline report).run w).2.store = w.store := rfl

theorem run_processDiagnosis_healthy {report : MultiVantageReport} (h : isHealthy report)
    (now : Rat) (w : World) :
    let t := ((processDiagnosis report now).run w).2.store
    t.alerts = w.store.alerts.putAll (resolveAlert · now)
        (w.store.listAlerts report.serviceId (some .firing)) ∧
      t.incidents = w.store.incidents.putAll (closeIncident · now)
        (closable w.store report.serviceId) := by
  intro t
  have store : t = ((resolveService report.serviceId now).run
      ((recordServiceBaseline report).run w).2).2.store := by
    unfold t processDiagnosis
    rw [Program.run_bind, if_pos h, Program.run_bind]
    rfl
  rw [store, run_resolveService, run_recordServiceBaseline]
  exact ⟨rfl, rfl⟩

/-! ## Exactly the service -/

/-- After a resolution nothing of the service is live and nothing of another
service has changed. -/
structure ServiceResolved (serviceId : Option String) (s t : ControllerStore) : Prop where
  alerts : ∀ a ∈ t.alerts.documents, a.serviceId = serviceId → a.state ≠ .firing
  incidents : ∀ i ∈ t.incidents.documents, i.serviceId = serviceId → i.state = .resolved
  alerts_frame : ∀ a, a.serviceId ≠ serviceId →
    (a ∈ t.alerts.documents ↔ a ∈ s.alerts.documents)
  incidents_frame : ∀ i, i.serviceId ≠ serviceId →
    (i ∈ t.incidents.documents ↔ i ∈ s.incidents.documents)

/-- Of the firing alerts and of the active incidents, the two listings return
those of the service, all of them and no others. -/
structure ListedExactly (serviceId : Option String) (s : ControllerStore) : Prop where
  alerts : ∀ a ∈ s.alerts.documents, a.state = .firing →
    (a ∈ s.listAlerts serviceId (some .firing) ↔ a.serviceId = serviceId)
  incidents : ∀ i ∈ s.incidents.documents, isActive i →
    (i ∈ s.listIncidents serviceId none ↔ i.serviceId = serviceId)

section Exact

variable {s : ControllerStore} (hs : Consistent s) (x : Option String) (now : Rat)
include hs

theorem resolveAlerts_iff :
    ((∀ a, (s.alerts.putAll (resolveAlert · now) (s.listAlerts x (some .firing))).Stores a →
        a.serviceId = x → a.state ≠ .firing) ∧
      ∀ a, a.serviceId ≠ x →
        ((s.alerts.putAll (resolveAlert · now) (s.listAlerts x (some .firing))).Stores a ↔
          s.alerts.Stores a)) ↔
      ∀ a, s.alerts.Stores a → a.state = .firing →
        (a ∈ s.listAlerts x (some .firing) ↔ a.serviceId = x) := by
  refine hs.alerts.retire_iff (u := (resolveAlert · now)) (fun a => a.state = .firing)
    (fun a => a.serviceId = x) (fun _ => rfl) (fun _ => rfl) (fun _ h => ?_) (fun _ => .rfl)
    (fun a ha => ?_) (ControllerStore.listAlerts_nodup hs.alerts _ _)
  · exact AlertState.noConfusion h
  · obtain ⟨hst, _, hf⟩ := ControllerStore.mem_listAlerts hs.alerts ha
    exact ⟨hst, hf _ rfl⟩

theorem closeIncidents_iff :
    ((∀ i, (s.incidents.putAll (closeIncident · now) (closable s x)).Stores i →
        i.serviceId = x → ¬ isActive i) ∧
      ∀ i, i.serviceId ≠ x →
        ((s.incidents.putAll (closeIncident · now) (closable s x)).Stores i ↔
          s.incidents.Stores i)) ↔
      ∀ i, s.incidents.Stores i → isActive i →
        (i ∈ s.listIncidents x none ↔ i.serviceId = x) := by
  have nodup : ((closable s x).map (·.incidentId)).Nodup :=
    (ControllerStore.listIncidents_nodup hs.incidents x none).sublist
      (List.filter_sublist.map _)
  refine (hs.incidents.retire_iff (u := (closeIncident · now)) (fun i => isActive i)
    (fun i => i.serviceId = x) (fun _ => rfl) (fun _ => rfl) (fun _ h => ?_) (fun _ => .rfl)
    (fun i hi => ?_) nodup).trans ?_
  · exact absurd h (by simp [isActive, closeIncident])
  · obtain ⟨hlisted, hactive⟩ := List.mem_filter.mp hi
    exact ⟨(ControllerStore.mem_listIncidents hs.incidents hlisted).1, hactive⟩
  · refine forall_congr' fun i => imp_congr_right fun _ => imp_congr_right fun hactive => ?_
    rw [closable, List.mem_filter, and_iff_left hactive]

end Exact

theorem serviceResolved_iff {w : World} (hw : Sound w) {report : MultiVantageReport}
    (healthy : isHealthy report) (now : Rat) :
    ServiceResolved report.serviceId w.store ((processDiagnosis report now).run w).2.store ↔
      ListedExactly report.serviceId w.store := by
  have hs := hw.consistent
  have safe := processDiagnosis_sequential report now hw []
  have ht := (Keeps.of_safe hw safe).1.consistent
  have alerts := resolveAlerts_iff hs report.serviceId now
  have incidents := closeIncidents_iff hs report.serviceId now
  obtain ⟨halerts, hincidents⟩ := run_processDiagnosis_healthy healthy now w
  generalize ((processDiagnosis report now).run w).2.store = t at halerts hincidents ht
  rw [← halerts] at alerts
  rw [← hincidents] at incidents
  constructor
  · rintro ⟨h₁, h₂, h₃, h₄⟩
    constructor
    · intro a ha
      refine alerts.mp ⟨fun b hb => h₁ b (ht.alerts.mem_documents.mpr hb), fun b hb => ?_⟩ a
        (hs.alerts.mem_documents.mp ha)
      rw [← ht.alerts.mem_documents, ← hs.alerts.mem_documents]
      exact h₃ b hb
    · intro i hi
      refine incidents.mp ⟨fun j hj hx => ?_, fun j hj => ?_⟩ i
        (hs.incidents.mem_documents.mp hi)
      · rw [Bool.not_eq_true, isActive_eq_false]
        exact h₂ j (ht.incidents.mem_documents.mpr hj) hx
      · rw [← ht.incidents.mem_documents, ← hs.incidents.mem_documents]
        exact h₄ j hj
  · rintro ⟨h₁, h₂⟩
    obtain ⟨a₁, a₂⟩ := alerts.mpr fun a ha => h₁ a (hs.alerts.mem_documents.mpr ha)
    obtain ⟨i₁, i₂⟩ := incidents.mpr fun i hi => h₂ i (hs.incidents.mem_documents.mpr hi)
    refine ⟨fun a ha => a₁ a (ht.alerts.mem_documents.mp ha), fun i hi hx => ?_, fun a ha => ?_,
      fun i hi => ?_⟩
    · have hdead := i₁ i (ht.incidents.mem_documents.mp hi) hx
      rwa [Bool.not_eq_true, isActive_eq_false] at hdead
    · rw [ht.alerts.mem_documents, hs.alerts.mem_documents]
      exact a₂ a ha
    · rw [ht.incidents.mem_documents, hs.incidents.mem_documents]
      exact i₂ i hi

/-- A named service's alerts are listed exactly as long as they fit on a page. -/
theorem listed_named_iff {s : ControllerStore} (hs : Consistent s) (serviceId : String) :
    (∀ a ∈ s.alerts.documents, a.state = .firing →
        (a ∈ s.listAlerts (some serviceId) (some .firing) ↔ a.serviceId = some serviceId)) ↔
      (s.alerts.documents.filter fun a =>
        a.serviceId = some serviceId && a.state = .firing).length ≤ ControllerStore.listLimit := by
  refine Iff.trans ?_ (hs.alerts.page_complete (f := fun r => r.fixed.createdAt)
    (p := fun r => (some serviceId).all (r.fixed.serviceId = some ·) &&
      (some AlertState.firing).all (r.mutable = ·)) ControllerStore.listLimit)
  constructor
  · intro listed a ha hp
    obtain ⟨hx, hf⟩ := (Bool.and_eq_true _ _).mp hp
    exact (listed a (hs.alerts.mem_documents.mpr ha) (of_decide_eq_true hf)).mpr
      (of_decide_eq_true hx)
  · intro complete a ha hf
    constructor
    · intro hlisted
      exact (ControllerStore.mem_listAlerts hs.alerts hlisted).2.1 (Option.some_ne_none _)
    · intro hx
      refine complete a (hs.alerts.mem_documents.mp ha) ?_
      exact (Bool.and_eq_true _ _).mpr ⟨decide_eq_true hx, decide_eq_true hf⟩

/-- In every store a run reaches, a healthy diagnosis resolves the service and
nothing else if and only if the two listings return exactly what is live of it. -/
theorem processDiagnosis_resolves_iff {w : World} (hw : w.Initial) (ops : List Operation)
    {report : MultiVantageReport} (healthy : report.localization = .healthy) (now : Rat) :
    ServiceResolved report.serviceId (runOperations w ops).store
        ((processDiagnosis report now).run (runOperations w ops)).2.store ↔
      ListedExactly report.serviceId (runOperations w ops).store :=
  serviceResolved_iff (hw.sound.runOperations ops).1 (decide_eq_true healthy) now

/-- The outage of one service, resolved by its own recovery. -/
theorem processDiagnosis_resolves_outage :
    let ops : List Operation :=
      [.registerAlertRule Sample.rule, .processDiagnosis (Sample.report (some "db") .failed) 1]
    ServiceResolved (some "db") (runOperations Sample.world ops).store
        ((processDiagnosis (Sample.report (some "db") .healthy) 2).run
          (runOperations Sample.world ops)).2.store ∧
      ListedExactly (some "db") (runOperations Sample.world ops).store := by
  intro ops
  have listed : ListedExactly (some "db") (runOperations Sample.world ops).store :=
    ⟨by decide +kernel, by decide +kernel⟩
  have healthy : (Sample.report (some "db") .healthy).localization = .healthy := by decide +kernel
  have resolves := processDiagnosis_resolves_iff Sample.world_initial ops healthy 2
  exact ⟨resolves.mpr listed, listed⟩

/-- A healthy report that names no service resolves the outage of one that it
says nothing about. -/
theorem not_always_resolved_exactly :
    ¬ ∀ (w : World), w.Initial → ∀ (ops : List Operation) (report : MultiVantageReport) (now : Rat),
      report.localization = .healthy →
        ServiceResolved report.serviceId (runOperations w ops).store
          ((processDiagnosis report now).run (runOperations w ops)).2.store := by
  intro always
  have resolved := always Sample.world Sample.world_initial
    [.registerAlertRule Sample.rule, .processDiagnosis (Sample.report (some "db") .failed) 1]
    (Sample.report none .healthy) 2 (by decide +kernel)
  have before : ∀ a ∈ (runOperations Sample.world
      [.registerAlertRule Sample.rule,
        .processDiagnosis (Sample.report (some "db") .failed) 1]).store.alerts.documents,
      a.serviceId ≠ none ∧ a ∉ ((processDiagnosis (Sample.report none .healthy) 2).run
        (runOperations Sample.world [.registerAlertRule Sample.rule,
          .processDiagnosis (Sample.report (some "db") .failed) 1])).2.store.alerts.documents := by
    decide +kernel
  have some_alert : (runOperations Sample.world
      [.registerAlertRule Sample.rule,
        .processDiagnosis (Sample.report (some "db") .failed) 1]).store.alerts.documents ≠ [] := by
    decide +kernel
  obtain ⟨a, ha⟩ := List.exists_mem_of_ne_nil _ some_alert
  exact (before a ha).2 ((resolved.alerts_frame a (before a ha).1).mpr ha)

/-! ## Resolution and evidence -/

/-- Positive evidence of reachability: some vantage looked, and all of them reached
the target. -/
def ReachedByAll (observations : List VantageObservation) : Prop :=
  observations ≠ [] ∧ ∀ o ∈ observations, o.status = .healthy

theorem resolvedIncidents_isSome (report : MultiVantageReport) (now : Rat) (w : World) :
    ((processDiagnosis report now).run w).1.resolvedIncidents.isSome → isHealthy report := by
  intro h
  by_contra hunhealthy
  have keeps : ∀ (rules : List AlertRule) (outcome : DiagnosisOutcome) (w : World),
      ((Program.fold (applyRule report now) outcome rules).run w).1.resolvedIncidents =
        outcome.resolvedIncidents := by
    intro rules
    induction rules with
    | nil => exact fun _ _ => rfl
    | cons rule rules ih =>
        intro outcome w
        rw [Program.fold_cons, Program.run_bind, ih]
        simp only [applyRule, Program.run_bind, Program.pure_eq_done, Program.run_done]
  unfold processDiagnosis at h
  rw [Program.run_bind, if_neg hunhealthy, Program.request_bind, Program.run_call, keeps] at h
  contradiction

/-- HEALTHY, and with it automatic resolution, needs positive evidence exactly for
the observation lists in which a fault was seen or no vantage was left UNKNOWN. -/
theorem localizeFault_needs_evidence_iff (observations : List VantageObservation)
    (target : String) (serviceId topology : Option String) (agentErrors : List (String × String))
    (diagnosisId : String) :
    let report := localizeFault observations target serviceId topology agentErrors diagnosisId
    ((report.localization = .healthy → ReachedByAll observations) ∧
        ∀ (now : Rat) (w : World),
          ((processDiagnosis report now).run w).1.resolvedIncidents.isSome →
            ReachedByAll observations) ↔
      ((∃ o ∈ observations, o.status = .failed ∨ o.status = .degraded) ∨
        ∀ o ∈ observations, o.status ≠ .unknown) := by
  intro report
  have healthy := localizeFault_eq_healthy observations target serviceId topology agentErrors
    diagnosisId
  constructor
  · rintro ⟨evidence, -⟩
    by_cases fault : ∃ o ∈ observations, o.status = .failed ∨ o.status = .degraded
    · exact .inl fault
    · refine .inr fun o ho hunknown => ?_
      have clean : ∀ o ∈ observations, o.status ≠ .failed ∧ o.status ≠ .degraded := fun o ho =>
        ⟨fun h => fault ⟨o, ho, .inl h⟩, fun h => fault ⟨o, ho, .inr h⟩⟩
      have reached := (evidence (healthy.mpr ⟨List.ne_nil_of_mem ho, clean⟩)).2 o ho
      rw [hunknown] at reached
      contradiction
  · intro condition
    have evidence : report.localization = .healthy → ReachedByAll observations := by
      intro h
      obtain ⟨hne, clean⟩ := healthy.mp h
      refine ⟨hne, fun o ho => ?_⟩
      rcases condition with ⟨f, hf, hfault⟩ | known
      · exact absurd hfault (not_or.mpr (clean f hf))
      · have hclean := clean o ho
        have hknown := known o ho
        revert hclean hknown
        cases o.status <;> simp
    exact ⟨evidence, fun now w h =>
      evidence (of_decide_eq_true (resolvedIncidents_isSome report now w h))⟩

/-- One vantage whose probe could not run: the report is HEALTHY and resolves the
firing alert of the service. -/
theorem unknown_observation_resolves :
    (¬ ∀ (observations : List VantageObservation) (target : String)
        (serviceId topology : Option String) (agentErrors : List (String × String))
        (diagnosisId : String),
        (localizeFault observations target serviceId topology agentErrors
          diagnosisId).localization = .healthy → ReachedByAll observations) ∧
      let outage := runOperations Sample.world
        [.registerAlertRule Sample.rule, .processDiagnosis (Sample.report (some "db") .failed) 1]
      outage.store.alerts.documents.map (·.state) = [.firing] ∧
        ((processDiagnosis (Sample.report (some "db") .unknown) 2).run
          outage).2.store.alerts.documents.map (·.state) = [.resolved] := by
  refine ⟨fun always => ?_, by decide +kernel⟩
  have reached := (always [Sample.observation .unknown] "10.0.0.1" none none [] "d1"
    (by decide +kernel)).2 _ (List.mem_singleton_self _)
  contradiction

end NetForge.Controller
