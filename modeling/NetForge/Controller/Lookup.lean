import NetForge.Controller.Operations

/-! # What the stored queries find

One specification lemma for each query and each save of the alert and incident
tables, under the agreement of columns and payloads. Proofs about the service
cite these and never open a query.
-/

namespace NetForge.Controller

open Calculus NetForge.Core

theorem isActive_iff {i : Incident} :
    isActive i = true ↔ i.state = .opened ∨ i.state = .acknowledged := by
  simp [isActive]

theorem isActive_eq_false {i : Incident} : isActive i = false ↔ i.state = .resolved := by
  cases h : i.state <;> simp [isActive, h]

namespace ControllerStore

variable {s : ControllerStore} {x : Option String}

/-- What the optional clauses of a list query say of a row they select. -/
theorem clauses_hold {σ : Type} [DecidableEq σ] {service : Option String} {state : Option σ}
    {stored : σ}
    (h : x.all (service = some ·) = true ∧ state.all (stored = ·) = true) :
    (x ≠ none → service = x) ∧ ∀ st, state = some st → stored = st := by
  constructor
  · intro hx
    obtain ⟨id, rfl⟩ := Option.ne_none_iff_exists'.mp hx
    exact of_decide_eq_true h.1
  · rintro st rfl
    exact of_decide_eq_true h.2

/-! ## Alerts -/

theorem findFiringAlert_eq_some (hs : s.alerts.Agrees) {ruleId : String} {a : Alert}
    (h : s.findFiringAlert ruleId x = some a) :
    s.alerts.Stores a ∧ a.ruleId = ruleId ∧ a.serviceId = x ∧ a.state = .firing := by
  obtain ⟨hstored, hp⟩ := hs.of_first h
  exact ⟨hstored, of_decide_eq_true hp⟩

theorem findFiringAlert_eq_none (hs : s.alerts.Agrees) {ruleId : String} :
    s.findFiringAlert ruleId x = none ↔
      ∀ a, s.alerts.Stores a → a.ruleId = ruleId → a.serviceId = x → a.state ≠ .firing := by
  refine hs.first_eq_none.trans (forall_congr' fun a => imp_congr_right fun _ => ?_)
  refine decide_eq_false_iff_not.trans ⟨fun h hr hx hf => h ⟨hr, hx, hf⟩, ?_⟩
  rintro h ⟨hr, hx, hf⟩
  exact h hr hx hf

theorem mem_listAlerts (hs : s.alerts.Agrees) {state : Option AlertState} {a : Alert}
    (h : a ∈ s.listAlerts x state) :
    s.alerts.Stores a ∧ (x ≠ none → a.serviceId = x) ∧ ∀ st, state = some st → a.state = st := by
  obtain ⟨hstored, hp, _⟩ := hs.of_mem_query (fun _ hr => List.mem_of_mem_take hr) h
  simp only [alertLayout, Layout.row, Bool.and_eq_true] at hp
  exact ⟨hstored, clauses_hold hp⟩

theorem listAlerts_nodup (hs : s.alerts.Agrees) (x : Option String) (state : Option AlertState) :
    ((s.listAlerts x state).map (·.alertId)).Nodup := hs.page_nodup listLimit

/-! ## Incidents -/

theorem findActiveIncident_eq_some (hs : s.incidents.Agrees) {i : Incident}
    (h : s.findActiveIncident x = some i) :
    s.incidents.Stores i ∧ i.serviceId = x ∧ isActive i := by
  obtain ⟨hstored, hp⟩ := hs.of_first h
  obtain ⟨hx, hactive⟩ := of_decide_eq_true hp
  exact ⟨hstored, hx, isActive_iff.mpr hactive⟩

theorem findActiveIncident_eq_none (hs : s.incidents.Agrees) :
    s.findActiveIncident x = none ↔
      ∀ i, s.incidents.Stores i → i.serviceId = x → isActive i = false := by
  refine hs.first_eq_none.trans (forall_congr' fun i => imp_congr_right fun _ => ?_)
  refine decide_eq_false_iff_not.trans ⟨fun h hx => ?_, ?_⟩
  · exact Bool.eq_false_iff.mpr fun ha => h ⟨hx, isActive_iff.mp ha⟩
  · rintro h ⟨hx, ha⟩
    exact Bool.eq_false_iff.mp (h hx) (isActive_iff.mpr ha)

theorem getIncident_eq_some (hs : s.incidents.Agrees) {incidentId : String} {i : Incident} :
    s.getIncident incidentId = some i ↔ s.incidents.Stores i ∧ i.incidentId = incidentId :=
  hs.document?_eq_some

theorem mem_listIncidents (hs : s.incidents.Agrees) {state : Option IncidentState} {i : Incident}
    (h : i ∈ s.listIncidents x state) :
    s.incidents.Stores i ∧ (x ≠ none → i.serviceId = x) ∧ ∀ st, state = some st → i.state = st := by
  obtain ⟨hstored, hp, _⟩ := hs.of_mem_query (fun _ hr => List.mem_of_mem_take hr) h
  simp only [incidentLayout, Layout.row, Bool.and_eq_true] at hp
  exact ⟨hstored, clauses_hold hp⟩

theorem listIncidents_nodup (hs : s.incidents.Agrees) (x : Option String)
    (state : Option IncidentState) :
    ((s.listIncidents x state).map (·.incidentId)).Nodup := hs.page_nodup listLimit

end ControllerStore

end NetForge.Controller
