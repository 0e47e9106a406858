import NetForge.Calculus.Keys
import NetForge.Calculus.Latch
import NetForge.Controller.Regression

/-! # Outages

What the alert and incident tables are for: which rules are firing for which service, and
which rules stand behind a service's active incident. Both are latches. An unhealthy
diagnosis switches its matching rules on, a healthy one switches the service off, and
resolving an incident switches off what it groups. Run one operation at a time, the
tables refine the latches.
-/

namespace NetForge.Controller

open Calculus NetForge.Core Analysis

/-! ## Signals -/

inductive Signal
  | matched (serviceId : Option String) (ruleIds : List String)
  | recovered (serviceId : Option String)
  | closed (serviceId : Option String)
  deriving DecidableEq, Repr

abbrev Outage := String × Option String

def covers (serviceId owner : Option String) : Bool := serviceId.all (owner = some ·)

def Signal.firing : Signal → Switch Outage
  | .matched serviceId ruleIds => ⟨{k | k.1 ∈ ruleIds ∧ k.2 = serviceId}, ∅⟩
  | .recovered serviceId => ⟨∅, {k | covers serviceId k.2 = true}⟩
  | .closed _ => .idle

/-- What a signal does to the rules behind active incidents. -/
def Signal.grouped : Signal → Switch Outage
  | .matched serviceId ruleIds => ⟨{k | k.1 ∈ ruleIds ∧ k.2 = serviceId}, ∅⟩
  | .recovered serviceId => ⟨∅, {k | covers serviceId k.2 = true}⟩
  | .closed serviceId => ⟨∅, {k | k.2 = serviceId}⟩

def diagnosisSignal (rules : List AlertRule) (report : MultiVantageReport) : Signal :=
  if isHealthy report then .recovered report.serviceId
  else .matched report.serviceId ((matchingRules rules report).map (·.ruleId))

def Operation.signals (w : World) : Operation → List Signal
  | .processDiagnosis report _ => [diagnosisSignal w.store.listAlertRules report]
  | .runDueSchedules now =>
      ((Controller.runDueSchedules now).run w).1.map (diagnosisSignal w.store.listAlertRules)
  | .resolveIncident incidentId _ =>
      match w.store.getIncident incidentId with
      | some incident => if isActive incident then [.closed incident.serviceId] else []
      | none => []
  | _ => []

def signalsIn (w : World) : List Operation → List Signal
  | [] => []
  | op :: ops => op.signals w ++ signalsIn (op.method.run w).2 ops

/-! ## The outages of a store -/

def firing (s : ControllerStore) : Set Outage :=
  {k | ∃ a, s.alerts.Stores a ∧ a.state = .firing ∧ a.ruleId = k.1 ∧ a.serviceId = k.2}

def grouped (s : ControllerStore) : Set Outage :=
  {k | ∃ i a, s.incidents.Stores i ∧ isActive i = true ∧ i.serviceId = k.2 ∧
    s.alerts.Stores a ∧ a.alertId ∈ i.alertIds ∧ a.ruleId = k.1}

/-- The rows of a service, or all of them, fit on a page of the listings. -/
structure OnePage (serviceId : Option String) (s : ControllerStore) : Prop where
  alerts : s.alerts.rows.countP (fun r => covers serviceId r.fixed.serviceId) ≤
    ControllerStore.listLimit
  incidents : s.incidents.rows.countP (fun r => covers serviceId r.fixed.serviceId) ≤
    ControllerStore.listLimit

/-- From one state to another, the tables follow the signals. -/
structure Refines (w t : World) (signals : List Signal) : Prop where
  sound : Sound t
  firing : firing t.store = Switch.run (firing w.store) (signals.map Signal.firing)
  grouped : grouped t.store = Switch.run (grouped w.store) (signals.map Signal.grouped)

theorem Refines.trans {u v w : World} {first later : List Signal} (h : Refines u v first)
    (h' : Refines v w later) : Refines u w (first ++ later) where
  sound := h'.sound
  firing := by rw [h'.firing, h.firing, List.map_append, Switch.run_append]
  grouped := by rw [h'.grouped, h.grouped, List.map_append, Switch.run_append]

theorem Refines.of_same {w t : World} (hsound : Sound t)
    (halerts : t.store.alerts = w.store.alerts)
    (hincidents : t.store.incidents = w.store.incidents) : Refines w t [] where
  sound := hsound
  firing := by
    unfold Controller.firing
    rw [halerts]
    rfl
  grouped := by
    unfold Controller.grouped
    rw [halerts, hincidents]
    rfl

/-! ## Saves -/

section

variable {s : ControllerStore}

theorem mem_firing_saveAlert (hs : s.alerts.Agrees) {a : Alert} (h : s.alerts.Settles a)
    {k : Outage} :
    k ∈ firing (s.saveAlert a) ↔
      (a.state = .firing ∧ a.ruleId = k.1 ∧ a.serviceId = k.2) ∨
        ∃ b, s.alerts.Stores b ∧ b.alertId ≠ a.alertId ∧ b.state = .firing ∧ b.ruleId = k.1 ∧
          b.serviceId = k.2 := by
  constructor
  · rintro ⟨b, hb, hfiring⟩
    rcases (stores_saveAlert hs h).mp hb with rfl | ⟨hb, hne⟩
    · exact .inl hfiring
    · exact .inr ⟨b, hb, hne, hfiring⟩
  · rintro (hfiring | ⟨b, hb, hne, hfiring⟩)
    · exact ⟨a, (stores_saveAlert hs h).mpr (.inl rfl), hfiring⟩
    · exact ⟨b, (stores_saveAlert hs h).mpr (.inr ⟨hb, hne⟩), hfiring⟩

/-- An alert of the same key replaces one of the same rule, or is behind no incident. -/
theorem grouped_saveAlert (hs : Consistent s) {a : Alert} (h : s.alerts.Settles a)
    (hrule : ∀ b, s.alerts.Stores b → b.alertId = a.alertId → b.ruleId = a.ruleId) :
    grouped (s.saveAlert a) = grouped s := by
  ext k
  constructor
  · rintro ⟨i, b, hi, hactive, hx, hb, hid, hk⟩
    rcases (stores_saveAlert hs.alerts h).mp hb with rfl | ⟨hb, -⟩
    · obtain ⟨c, hc, hkey, -⟩ := (hs.supported i hi).stored _ hid
      exact ⟨i, c, hi, hactive, hx, hc, hkey ▸ hid, (hrule c hc hkey).trans hk⟩
    · exact ⟨i, b, hi, hactive, hx, hb, hid, hk⟩
  · rintro ⟨i, b, hi, hactive, hx, hb, hid, hk⟩
    by_cases hkey : b.alertId = a.alertId
    · exact ⟨i, a, hi, hactive, hx, (stores_saveAlert hs.alerts h).mpr (.inl rfl), hkey ▸ hid,
        (hrule b hb hkey).symm.trans hk⟩
    · exact ⟨i, b, hi, hactive, hx, (stores_saveAlert hs.alerts h).mpr (.inr ⟨hb, hkey⟩), hid, hk⟩

theorem mem_grouped_saveIncident (hs : s.incidents.Agrees) {i : Incident}
    (h : s.incidents.Settles i) {k : Outage} :
    k ∈ grouped (s.saveIncident i) ↔
      (isActive i = true ∧ i.serviceId = k.2 ∧
        ∃ a, s.alerts.Stores a ∧ a.alertId ∈ i.alertIds ∧ a.ruleId = k.1) ∨
        ∃ j a, s.incidents.Stores j ∧ j.incidentId ≠ i.incidentId ∧ isActive j = true ∧
          j.serviceId = k.2 ∧ s.alerts.Stores a ∧ a.alertId ∈ j.alertIds ∧ a.ruleId = k.1 := by
  constructor
  · rintro ⟨j, a, hj, hactive, hx, ha⟩
    rcases (stores_saveIncident hs h).mp hj with rfl | ⟨hj, hne⟩
    · exact .inl ⟨hactive, hx, a, ha⟩
    · exact .inr ⟨j, a, hj, hne, hactive, hx, ha⟩
  · rintro (⟨hactive, hx, a, ha⟩ | ⟨j, a, hj, hne, hactive, hx, ha⟩)
    · exact ⟨i, a, (stores_saveIncident hs h).mpr (.inl rfl), hactive, hx, ha⟩
    · exact ⟨j, a, (stores_saveIncident hs h).mpr (.inr ⟨hj, hne⟩), hactive, hx, ha⟩

end

/-! ## Firing a rule -/

/-- What firing a rule leaves: its alert, firing for the service, and no other change. -/
structure Fired (rule : AlertRule) (report : MultiVantageReport) (w : World)
    (result : Alert × World) : Prop where
  sound : Sound result.2
  stored : result.2.store.alerts.Stores result.1
  ofRule : result.1.ruleId = rule.ruleId
  ofService : result.1.serviceId = report.serviceId
  firing : ∀ k, k ∈ firing result.2.store ↔
    k = (rule.ruleId, report.serviceId) ∨ k ∈ firing w.store
  grouped : grouped result.2.store = grouped w.store

theorem fired (rule : AlertRule) (report : MultiVantageReport) (now : Rat) (regression : Bool)
    {w : World} (hw : Sound w) :
    Fired rule report w ((fireRule rule report now regression).run w) := by
  have hsound : Sound ((fireRule rule report now regression).run w).2 :=
    (Keeps.of_safe hw ((fireRule_sequential rule report now regression hw []).mono
      fun _ _ _ h => h.1)).1
  have hs := hw.consistent
  unfold fireRule at hsound ⊢
  rw [Program.request_bind, Program.run_call] at hsound ⊢
  cases hfound : w.store.findFiringAlert rule.ruleId report.serviceId with
  | some found =>
      obtain ⟨hst, hr, hx, hf⟩ := ControllerStore.findFiringAlert_eq_some hs.alerts hfound
      simp only [perform, hfound] at hsound ⊢
      have settles : w.store.alerts.Settles (refreshAlert found report now regression) :=
        Table.settles_of_update hst rfl rfl
      refine ⟨hsound, ?_, hr, hx, ?_, ?_⟩
      · exact (stores_saveAlert hs.alerts settles).mpr (.inl rfl)
      · intro k
        refine (mem_firing_saveAlert hs.alerts settles).trans ?_
        constructor
        · rintro (⟨-, hk, hy⟩ | ⟨b, hb, -, hfiring⟩)
          · exact .inl (Prod.ext (hk.symm.trans hr) (hy.symm.trans hx))
          · exact .inr ⟨b, hb, hfiring⟩
        · rintro (rfl | ⟨b, hb, hfiring⟩)
          · exact .inl ⟨hf, hr, hx⟩
          · by_cases hkey : b.alertId = found.alertId
            · obtain rfl := hb.eq_of_key hst hkey
              exact .inl hfiring
            · exact .inr ⟨b, hb, hkey, hfiring⟩
      · refine grouped_saveAlert hs settles fun b hb hkey => ?_
        rw [hb.eq_of_key hst hkey]
        rfl
  | none =>
      have fresh := hw.fresh
      simp only [perform, hfound] at hsound fresh ⊢
      have settles : w.store.alerts.Settles
          (buildAlert (w.uuid w.issued) rule report now regression) :=
        Table.settles_of_fresh fresh.alerts
      refine ⟨hsound, ?_, rfl, rfl, ?_, ?_⟩
      · exact (stores_saveAlert hs.alerts settles).mpr (.inl rfl)
      · intro k
        refine (mem_firing_saveAlert hs.alerts settles).trans ?_
        constructor
        · rintro (⟨-, hk, hy⟩ | ⟨b, hb, -, hfiring⟩)
          · exact .inl (Prod.ext hk.symm hy.symm)
          · exact .inr ⟨b, hb, hfiring⟩
        · rintro (rfl | ⟨b, hb, hfiring⟩)
          · exact .inl ⟨rfl, rfl, rfl⟩
          · exact .inr ⟨b, hb, fresh.alerts b hb, hfiring⟩
      · exact grouped_saveAlert hs settles fun b hb hkey => absurd hkey (fresh.alerts b hb)

/-- What attaching an alert leaves: its rule behind an active incident of the service. -/
theorem refines_attach {alert : Alert} (report : MultiVantageReport) (now : Rat) {w : World}
    (hw : Sound w) (halert : w.store.alerts.Stores alert) :
    let t := ((attachToIncident alert report now).run w).2
    Sound t ∧ firing t.store = firing w.store ∧
      ∀ k, k ∈ grouped t.store ↔ k = (alert.ruleId, alert.serviceId) ∨ k ∈ grouped w.store := by
  intro t
  have hsound : Sound t :=
    (Keeps.of_safe hw (attachToIncident_sequential report now hw halert [])).1
  have hs := hw.consistent
  have halerts : t.store.alerts = w.store.alerts := by
    exact Program.Calls.run_keeps (f := fun w : World => w.store.alerts)
      (fun _ _ hc => perform_alerts (fun he => by simpa using hc _ he) _)
      (attachToIncident_confined alert report now) w
  refine ⟨hsound, by unfold firing; rw [halerts], ?_⟩
  intro k
  unfold t attachToIncident
  rw [Program.request_bind, Program.run_call]
  cases hfound : w.store.findActiveIncident alert.serviceId with
  | some found =>
      obtain ⟨hst, hx, hactive⟩ := ControllerStore.findActiveIncident_eq_some hs.incidents hfound
      have settles : w.store.incidents.Settles (extendIncident found alert report now) :=
        Table.settles_of_update hst rfl rfl
      simp only [perform, hfound]
      refine (mem_grouped_saveIncident hs.incidents settles).trans ?_
      constructor
      · rintro (⟨-, hy, a, ha, hid, hk⟩ | ⟨j, a, hj, -, hgrouped⟩)
        · rcases mem_extendIncident.mp hid with hid | hid
          · exact .inr ⟨found, a, hst, hactive, hy, ha, hid, hk⟩
          · obtain rfl := ha.eq_of_key halert hid
            exact .inl (Prod.ext hk.symm (hy.symm.trans hx))
        · exact .inr ⟨j, a, hj, hgrouped⟩
      · rintro (rfl | ⟨j, a, hj, hjactive, hy, ha, hid, hk⟩)
        · exact .inl ⟨hactive, hx, alert, halert, mem_extendIncident.mpr (.inr rfl), rfl⟩
        · by_cases hkey : j.incidentId = found.incidentId
          · obtain rfl := hj.eq_of_key hst hkey
            exact .inl ⟨hactive, hy, a, ha, mem_extendIncident.mpr (.inl hid), hk⟩
          · exact .inr ⟨j, a, hj, hkey, hjactive, hy, ha, hid, hk⟩
  | none =>
      have fresh := hw.fresh
      simp only [perform, hfound] at fresh ⊢
      have settles : w.store.incidents.Settles
          (createIncident (w.uuid w.issued) alert report now) :=
        Table.settles_of_fresh fresh.incidents
      refine (mem_grouped_saveIncident hs.incidents settles).trans ?_
      constructor
      · rintro (⟨-, hy, a, ha, hid, hk⟩ | ⟨j, a, hj, -, hgrouped⟩)
        · obtain rfl := ha.eq_of_key halert (List.mem_singleton.mp hid)
          exact .inl (Prod.ext hk.symm hy.symm)
        · exact .inr ⟨j, a, hj, hgrouped⟩
      · rintro (rfl | ⟨j, a, hj, hgrouped⟩)
        · exact .inl ⟨rfl, rfl, alert, halert, List.mem_singleton_self _, rfl⟩
        · exact .inr ⟨j, a, hj, fresh.incidents j hj, hgrouped⟩

theorem refines_applyRule (report : MultiVantageReport) (now : Rat) (outcome : DiagnosisOutcome)
    (rule : AlertRule) {w : World} (hw : Sound w) :
    Refines w ((applyRule report now outcome rule).run w).2
      [.matched report.serviceId [rule.ruleId]] := by
  have first := fired rule report now outcome.regression hw
  obtain ⟨hsound, hfiring, hgrouped⟩ := refines_attach report now first.sound first.stored
  unfold applyRule
  rw [Program.run_bind, Program.run_bind]
  have hon : ∀ k : Outage, k = (rule.ruleId, report.serviceId) ↔
      k.1 ∈ [rule.ruleId] ∧ k.2 = report.serviceId := by
    intro k
    rw [List.mem_singleton, Prod.ext_iff]
  refine ⟨hsound, ?_, ?_⟩
  · refine hfiring.trans ?_
    ext k
    rw [first.firing, hon]
    simp [Switch.apply, Signal.firing]
  · ext k
    refine (hgrouped k).trans ?_
    rw [first.ofRule, first.ofService, first.grouped, hon]
    simp [Switch.apply, Signal.grouped]

theorem Refines.matched_cons {w t : World} {serviceId : Option String} {ruleId : String}
    {ruleIds : List String}
    (h : Refines w t [.matched serviceId [ruleId], .matched serviceId ruleIds]) :
    Refines w t [.matched serviceId (ruleId :: ruleIds)] where
  sound := h.sound
  firing := by
    rw [h.firing]
    ext k
    simp only [List.map_cons, List.map_nil, Switch.run_cons, Switch.run_nil, Switch.apply,
      Signal.firing, Set.mem_ofPred_eq, Set.mem_empty_iff_false, not_false_eq_true, and_true,
      List.mem_cons, List.not_mem_nil, or_false]
    tauto
  grouped := by
    rw [h.grouped]
    ext k
    simp only [List.map_cons, List.map_nil, Switch.run_cons, Switch.run_nil, Switch.apply,
      Signal.grouped, Set.mem_ofPred_eq, Set.mem_empty_iff_false, not_false_eq_true, and_true,
      List.mem_cons, List.not_mem_nil, or_false]
    tauto

theorem refines_rules (report : MultiVantageReport) (now : Rat) (rules : List AlertRule)
    (outcome : DiagnosisOutcome) {w : World} (hw : Sound w) :
    Refines w ((Program.fold (applyRule report now) outcome rules).run w).2
      [.matched report.serviceId (rules.map (·.ruleId))] := by
  induction rules generalizing outcome w with
  | nil =>
      refine ⟨hw, ?_, ?_⟩
      · ext k
        simp [Switch.apply, Signal.firing]
      · ext k
        simp [Switch.apply, Signal.grouped]
  | cons rule rules ih =>
      have first := refines_applyRule report now outcome rule hw
      rw [Program.fold_cons, Program.run_bind]
      exact (first.trans (ih _ first.sound)).matched_cons

/-! ## Recovery -/

theorem page_length_le {δ κ φ μ : Type} {L : Layout δ κ φ μ} {t : Table L.schema} (ht : t.Agrees)
    {p q : Row δ κ φ μ → Bool} (hpq : ∀ r, p r = true → q r = true) {n : Nat}
    (h : t.rows.countP q ≤ n) : (t.documents.filter fun d => p (L.row d)).length ≤ n := by
  have hcount : (t.documents.filter fun d => p (L.row d)).length = t.rows.countP p := by
    rw [← List.countP_eq_length_filter, Table.documents, List.countP_map]
    apply List.countP_congr
    intro r hr
    rw [Function.comp, ← ht r hr]
  rw [hcount]
  exact (List.countP_mono_left fun r _ => hpq r).trans h

theorem mem_listAlerts_iff {s : ControllerStore} {serviceId : Option String}
    (hs : s.alerts.Agrees) (h : OnePage serviceId s) {a : Alert} (ha : s.alerts.Stores a)
    (hf : a.state = .firing) :
    a ∈ s.listAlerts serviceId (some .firing) ↔ covers serviceId a.serviceId = true := by
  constructor
  · intro hmem
    obtain ⟨-, hx, -⟩ := ControllerStore.mem_listAlerts hs hmem
    cases serviceId with
    | none => rfl
    | some id => exact decide_eq_true (hx (Option.some_ne_none _))
  · intro hcover
    have hlength := page_length_le hs
      (p := fun r => serviceId.all (r.fixed.serviceId = some ·) &&
        (some AlertState.firing).all (r.mutable = ·))
      (q := fun r => covers serviceId r.fixed.serviceId)
      (fun r hr => (Bool.and_eq_true _ _ ▸ hr).1) h.alerts
    exact (hs.page_complete ControllerStore.listLimit).mpr hlength a ha
      ((Bool.and_eq_true _ _).mpr ⟨hcover, decide_eq_true hf⟩)

theorem mem_listIncidents_iff {s : ControllerStore} {serviceId : Option String}
    (hs : s.incidents.Agrees) (h : OnePage serviceId s) {i : Incident} (hi : s.incidents.Stores i) :
    i ∈ s.listIncidents serviceId none ↔ covers serviceId i.serviceId = true := by
  constructor
  · intro hmem
    obtain ⟨-, hx, -⟩ := ControllerStore.mem_listIncidents hs hmem
    cases serviceId with
    | none => rfl
    | some id => exact decide_eq_true (hx (Option.some_ne_none _))
  · intro hcover
    have hlength := page_length_le hs
      (p := fun r => serviceId.all (r.fixed.serviceId = some ·) &&
        (none : Option IncidentState).all (r.mutable = ·))
      (q := fun r => covers serviceId r.fixed.serviceId)
      (fun r hr => (Bool.and_eq_true _ _ ▸ hr).1) h.incidents
    exact (hs.page_complete ControllerStore.listLimit).mpr hlength i hi
      ((Bool.and_eq_true _ _).mpr ⟨hcover, rfl⟩)

/-- What a resolution leaves of the alerts: those off the page, and the listed ones
resolved. -/
theorem resolved_alerts {w t : World} (hs : w.store.alerts.Agrees) {x : Option String} {now : Rat}
    (h : t.store.alerts = w.store.alerts.putAll (resolveAlert · now)
      (w.store.listAlerts x (some .firing))) (a : Alert) :
    t.store.alerts.Stores a ↔
      (∃ d ∈ w.store.listAlerts x (some .firing), a = resolveAlert d now) ∨
        (w.store.alerts.Stores a ∧
          ∀ d ∈ w.store.listAlerts x (some .firing), a.alertId ≠ d.alertId) := by
  rw [h]
  exact (hs.putAll (u := (resolveAlert · now)) (fun _ => rfl) (fun _ => rfl)
    (fun d hd => (ControllerStore.mem_listAlerts hs hd).1)
    (ControllerStore.listAlerts_nodup hs _ _)).2 a

theorem closed_incidents {w t : World} (hs : w.store.incidents.Agrees) {x : Option String}
    {now : Rat}
    (h : t.store.incidents = w.store.incidents.putAll (closeIncident · now) (closable w.store x))
    (i : Incident) :
    t.store.incidents.Stores i ↔
      (∃ d ∈ closable w.store x, i = closeIncident d now) ∨
        (w.store.incidents.Stores i ∧ ∀ d ∈ closable w.store x, i.incidentId ≠ d.incidentId) := by
  rw [h]
  exact (hs.putAll (u := (closeIncident · now)) (fun _ => rfl) (fun _ => rfl)
    (fun d hd => (ControllerStore.mem_listIncidents hs (List.mem_filter.mp hd).1).1)
    ((ControllerStore.listIncidents_nodup hs _ none).sublist (List.filter_sublist.map _))).2 i

section

variable {w t : World} (hs : Consistent w.store) {x : Option String} {now : Rat}
  (hpage : OnePage x w.store)
  (halerts : t.store.alerts = w.store.alerts.putAll (resolveAlert · now)
    (w.store.listAlerts x (some .firing)))
include hs halerts

include hpage in
theorem mem_firing_resolved {k : Outage} :
    k ∈ firing t.store ↔ k ∈ firing w.store ∧ covers x k.2 = false := by
  have hstored := resolved_alerts hs.alerts halerts
  constructor
  · rintro ⟨a, ha, hf, hk⟩
    rcases (hstored a).mp ha with ⟨d, -, rfl⟩ | ⟨ha, hne⟩
    · exact AlertState.noConfusion hf
    · refine ⟨⟨a, ha, hf, hk⟩, ?_⟩
      rw [← hk.2]
      by_contra hcover
      rw [Bool.not_eq_false] at hcover
      exact hne a ((mem_listAlerts_iff hs.alerts hpage ha hf).mpr hcover) rfl
  · rintro ⟨⟨a, ha, hf, hk⟩, hcover⟩
    refine ⟨a, (hstored a).mpr (.inr ⟨ha, fun d hd hkey => ?_⟩), hf, hk⟩
    obtain rfl := ha.eq_of_key (ControllerStore.mem_listAlerts hs.alerts hd).1 hkey
    have hlisted := (mem_listAlerts_iff hs.alerts hpage ha hf).mp hd
    rw [hk.2, hcover] at hlisted
    cases hlisted

theorem exists_rule_resolved {id ruleId : String} :
    (∃ a, t.store.alerts.Stores a ∧ a.alertId = id ∧ a.ruleId = ruleId) ↔
      ∃ a, w.store.alerts.Stores a ∧ a.alertId = id ∧ a.ruleId = ruleId := by
  have hstored := resolved_alerts hs.alerts halerts
  constructor
  · rintro ⟨a, ha, hk⟩
    rcases (hstored a).mp ha with ⟨d, hd, rfl⟩ | ⟨ha, -⟩
    · exact ⟨d, (ControllerStore.mem_listAlerts hs.alerts hd).1, hk⟩
    · exact ⟨a, ha, hk⟩
  · rintro ⟨a, ha, hk⟩
    by_cases hlisted : a ∈ w.store.listAlerts x (some .firing)
    · exact ⟨resolveAlert a now, (hstored _).mpr (.inl ⟨a, hlisted, rfl⟩), hk⟩
    · refine ⟨a, (hstored a).mpr (.inr ⟨ha, fun d hd hkey => hlisted ?_⟩), hk⟩
      rwa [ha.eq_of_key (ControllerStore.mem_listAlerts hs.alerts hd).1 hkey]

include hpage in
theorem mem_grouped_resolved
    (hincidents : t.store.incidents = w.store.incidents.putAll (closeIncident · now)
      (closable w.store x)) {k : Outage} :
    k ∈ grouped t.store ↔ k ∈ grouped w.store ∧ covers x k.2 = false := by
  have hclosed := closed_incidents hs.incidents hincidents
  constructor
  · rintro ⟨i, a, hi, hactive, hx, ha, hid, hk⟩
    obtain ⟨b, hb, hkey, hrule⟩ := (exists_rule_resolved hs halerts).mp ⟨a, ha, rfl, hk⟩
    rcases (hclosed i).mp hi with ⟨d, -, rfl⟩ | ⟨hi, hne⟩
    · exact absurd hactive (by simp [isActive, closeIncident])
    · refine ⟨⟨i, b, hi, hactive, hx, hb, hkey ▸ hid, hrule⟩, ?_⟩
      rw [← hx]
      by_contra hcover
      rw [Bool.not_eq_false] at hcover
      have hlisted := (mem_listIncidents_iff hs.incidents hpage hi).mpr hcover
      exact hne i (List.mem_filter.mpr ⟨hlisted, hactive⟩) rfl
  · rintro ⟨⟨i, a, hi, hactive, hx, ha, hid, hk⟩, hcover⟩
    obtain ⟨b, hb, hkey, hrule⟩ := (exists_rule_resolved hs halerts).mpr ⟨a, ha, rfl, hk⟩
    refine ⟨i, b, (hclosed i).mpr (.inr ⟨hi, fun d hd hkey => ?_⟩), hactive, hx, hb, hkey ▸ hid,
      hrule⟩
    have hmem := (List.mem_filter.mp hd).1
    obtain rfl := hi.eq_of_key (ControllerStore.mem_listIncidents hs.incidents hmem).1 hkey
    have hlisted := (mem_listIncidents_iff hs.incidents hpage hi).mp hmem
    rw [hx, hcover] at hlisted
    cases hlisted

end

theorem refines_healthy {report : MultiVantageReport} (healthy : isHealthy report) (now : Rat)
    {w : World} (hw : Sound w) (hpage : OnePage report.serviceId w.store) :
    Refines w ((processDiagnosis report now).run w).2 [.recovered report.serviceId] := by
  have hs := hw.consistent
  obtain ⟨halerts, hincidents⟩ := run_processDiagnosis_healthy healthy now w
  refine ⟨(Keeps.of_safe hw (processDiagnosis_sequential report now hw [])).1, ?_, ?_⟩
  · ext k
    rw [mem_firing_resolved hs hpage halerts]
    simp [Switch.apply, Signal.firing]
  · ext k
    rw [mem_grouped_resolved hs hpage halerts hincidents]
    simp [Switch.apply, Signal.grouped]

/-! ## Operations -/

theorem refines_processDiagnosis (report : MultiVantageReport) (now : Rat) {w : World}
    (hw : Sound w) (hpage : isHealthy report = true → OnePage report.serviceId w.store) :
    Refines w ((processDiagnosis report now).run w).2
      [diagnosisSignal w.store.listAlertRules report] := by
  unfold diagnosisSignal
  cases hhealthy : isHealthy report with
  | true => exact refines_healthy hhealthy now hw (hpage hhealthy)
  | false =>
      have hconfined := (recordServiceBaseline_confined report).sequential (by simp) (by simp)
        hw []
      have hbaseline : (recordServiceBaseline report).Safe sequential (fun _ _ t => Sound t) [] w :=
        hconfined.mono fun _ _ _ h => h.1
      have hstore := run_recordServiceBaseline report w
      have hsound : Sound ((recordServiceBaseline report).run w).2 := (Keeps.of_safe hw hbaseline).1
      have hrules := refines_rules report now
        (matchingRules ((recordServiceBaseline report).run w).2.store.listAlertRules report)
        ⟨((recordServiceBaseline report).run w).1, [], [], none⟩ hsound
      have hsame : Refines w ((recordServiceBaseline report).run w).2 [] :=
        .of_same hsound (by rw [hstore]) (by rw [hstore])
      rw [processDiagnosis_eq, Program.run_bind]
      unfold respond
      rw [hhealthy]
      exact hsame.trans hrules

theorem Confined.refines {α : Type} {resources : List Resource} {p : Method α}
    (h : Confined resources p) (ha : .alerts ∉ resources) (hi : .incidents ∉ resources)
    {w : World} (hw : Sound w) : Refines w (p.run w).2 [] := by
  obtain ⟨⟨-, hpost⟩, -⟩ := (h.sequential ha hi hw []).run fun _ _ _ => trivial
  exact .of_same hpost.1 hpost.2.1 hpost.2.2

/-! ### Scheduled passes -/

theorem perform_alertRules {c : StoreCall} (h : c.touches ≠ some .alertRules) (w : World) :
    (perform c w).2.store.alertRules = w.store.alertRules := by
  cases c with
  | upsertAlertRule rule => exact absurd rfl h
  | deleteAlertRule ruleId => exact absurd rfl h
  | markSeen agentId =>
      simp only [perform, ControllerStore.markSeen]
  | fanout agents probe => simp only [perform]; split <;> rfl
  | _ => rfl

theorem Confined.run_alertRules {α : Type} {resources : List Resource} {p : Method α}
    (h : Confined resources p) (hr : .alertRules ∉ resources) (w : World) :
    (p.run w).2.store.alertRules = w.store.alertRules :=
  Program.Calls.run_keeps (f := fun w : World => w.store.alertRules)
    (fun _ _ hc => perform_alertRules (fun he => hr (hc _ he)) _) h w

theorem onePage_of_perform {x : Option String} {c : StoreCall} {w : World}
    (h : OnePage x (perform c w).2.store) : OnePage x w.store := by
  constructor
  · by_cases hc : c.touches = some .alerts
    · cases c with
      | saveAlert alert =>
          exact (Table.countP_le_upsert (fun _ _ => rfl) _ (alertLayout.row alert)).trans h.alerts
      | _ => cases hc
    · rw [← perform_alerts hc w]
      exact h.alerts
  · by_cases hc : c.touches = some .incidents
    · cases c with
      | saveIncident incident =>
          exact (Table.countP_le_upsert (fun _ _ => rfl) _ (incidentLayout.row incident)).trans
            h.incidents
      | _ => cases hc
    · rw [← perform_incidents hc w]
      exact h.incidents

theorem onePage_of_run {α : Type} {x : Option String} (p : Method α) {w : World}
    (h : OnePage x (p.run w).2.store) : OnePage x w.store := by
  induction p generalizing w with
  | done a => exact h
  | call c next ih => exact onePage_of_perform (ih _ h)

/-- From one state to another the rules stay, and the outages follow the diagnoses
handled, as long as the rows of every recovered service fit on a page. -/
structure Handles (w t : World) (handled : List MultiVantageReport) : Prop where
  rules : t.store.alertRules = w.store.alertRules
  sound : Sound t
  earlier : ∀ x, OnePage x t.store → OnePage x w.store
  refines : (∀ r ∈ handled, isHealthy r = true → OnePage r.serviceId t.store) →
    Refines w t (handled.map (diagnosisSignal w.store.listAlertRules))

theorem Handles.trans {u v w : World} {first later : List MultiVantageReport}
    (h : Handles u v first) (h' : Handles v w later) : Handles u w (first ++ later) where
  rules := h'.rules.trans h.rules
  sound := h'.sound
  earlier := fun x hx => h.earlier x (h'.earlier x hx)
  refines := by
    intro hpages
    have hrules : v.store.listAlertRules = u.store.listAlertRules := by
      unfold ControllerStore.listAlertRules
      rw [h.rules]
    have hfirst := h.refines fun r hr hhealthy =>
      h'.earlier _ (hpages r (List.mem_append_left _ hr) hhealthy)
    have hlater := h'.refines fun r hr => hpages r (List.mem_append_right _ hr)
    rw [hrules] at hlater
    rw [List.map_append]
    exact hfirst.trans hlater

theorem Handles.of_confined {α : Type} {resources : List Resource} {p : Method α}
    (h : Confined resources p) (hr : .alertRules ∉ resources) (ha : .alerts ∉ resources)
    (hi : .incidents ∉ resources) {w : World} (hw : Sound w) : Handles w (p.run w).2 [] where
  rules := h.run_alertRules hr w
  sound := (h.refines ha hi hw).sound
  earlier := fun _ => onePage_of_run p
  refines := fun _ => h.refines ha hi hw

theorem handles_processDiagnosis (report : MultiVantageReport) (now : Rat) {w : World}
    (hw : Sound w) : Handles w ((processDiagnosis report now).run w).2 [report] where
  rules := (processDiagnosis_confined report now).run_alertRules (by simp) w
  sound := (Keeps.of_safe hw (processDiagnosis_sequential report now hw [])).1
  earlier := fun _ => onePage_of_run _
  refines := fun hpages => refines_processDiagnosis report now hw fun hhealthy =>
    onePage_of_run _ (hpages report (List.mem_singleton_self _) hhealthy)

/-- The diagnosis of a schedule, if it succeeds, is the one its run handles. -/
theorem handles_runSchedule (now : Rat) (reports : List MultiVantageReport)
    (schedule : ScheduleEntry) {w : World} (hw : Sound w) :
    ∃ handled, ((runSchedule now reports schedule).run w).1 = reports ++ handled ∧
      Handles w ((runSchedule now reports schedule).run w).2 handled := by
  have hdiagnose := Handles.of_confined (diagnoseService_confined (diagnosisRequest schedule))
    (by simp) (by simp) (by simp) hw
  have hadvance : ∀ (entry : ScheduleEntry) {v : World}, Sound v →
      Handles v (perform (.upsertSchedule entry) v).2 [] := fun entry _ hv =>
    Handles.of_confined (p := call (.upsertSchedule entry))
      ((Program.calls_request _).mpr (.of_mem rfl List.mem_cons_self) : Confined [.schedules] _)
      (by simp) (by simp) (by simp) hv
  unfold runSchedule
  rw [Program.run_bind]
  cases hrun : ((diagnoseService (diagnosisRequest schedule)).run w).1 with
  | error e =>
      refine ⟨[], (List.append_nil _).symm, ?_⟩
      exact hdiagnose.trans (hadvance _ hdiagnose.sound)
  | ok report =>
      have hprocess := handles_processDiagnosis report now hdiagnose.sound
      have hall := (hdiagnose.trans hprocess).trans
        (hadvance (advanceSchedule schedule now none) hprocess.sound)
      refine ⟨[report], ?_, ?_⟩
      · simp only [Program.run_bind]
        rfl
      · simp only [Program.run_bind]
        exact hall

theorem handles_pass (now : Rat) (due : List ScheduleEntry) (reports : List MultiVantageReport)
    {w : World} (hw : Sound w) :
    ∃ handled, ((Program.fold (runSchedule now) reports due).run w).1 = reports ++ handled ∧
      Handles w ((Program.fold (runSchedule now) reports due).run w).2 handled := by
  induction due generalizing reports w with
  | nil => exact ⟨[], (List.append_nil _).symm, rfl, hw, fun _ h => h, fun _ => .of_same hw rfl rfl⟩
  | cons schedule due ih =>
      obtain ⟨first, hreports, hfirst⟩ := handles_runSchedule now reports schedule hw
      obtain ⟨later, hrest, hlater⟩ := ih ((runSchedule now reports schedule).run w).1 hfirst.sound
      rw [Program.fold_cons, Program.run_bind]
      refine ⟨first ++ later, ?_, hfirst.trans hlater⟩
      rw [hrest, hreports, List.append_assoc]

theorem handles_runDueSchedules (now : Rat) {w : World} (hw : Sound w) :
    Handles w ((runDueSchedules now).run w).2 ((runDueSchedules now).run w).1 := by
  have hlist : Handles w (perform (.listSchedules none) w).2 [] :=
    Handles.of_confined (p := call (.listSchedules none))
      ((Program.calls_request _).mpr (.of_mem rfl List.mem_cons_self) : Confined [.schedules] _)
      (by simp) (by simp) (by simp) hw
  obtain ⟨handled, hreports, hpass⟩ := handles_pass now
    ((perform (.listSchedules none) w).1.filter (isDue · now)) [] hlist.sound
  unfold runDueSchedules
  rw [Program.request_bind, Program.run_call]
  have hall := hlist.trans hpass
  rw [List.nil_append] at hreports hall
  show Handles w ((Program.fold (runSchedule now) [] _).run _).2
    ((Program.fold (runSchedule now) [] _).run _).1
  rw [hreports]
  exact hall

/-! ## Edits of an incident -/

section

variable {w : World} (hw : Sound w) {i : Incident} (hi : w.store.incidents.Stores i)
  (hactive : isActive i = true)
include hw hi hactive

theorem refines_acknowledge (now : Rat) :
    Refines w { w with store := w.store.saveIncident (acknowledge i now) } [] where
  sound := (hw.updateIncident (i := acknowledge i now) hi hactive rfl rfl
    ((hw.consistent.supported i hi).congr rfl rfl rfl)).1
  firing := rfl
  grouped := by
    have settles : w.store.incidents.Settles (acknowledge i now) :=
      Table.settles_of_update hi rfl rfl
    ext k
    refine (mem_grouped_saveIncident hw.consistent.incidents settles).trans ?_
    constructor
    · rintro (⟨-, hx, a, ha⟩ | ⟨j, a, hj, -, hgrouped⟩)
      · exact ⟨i, a, hi, hactive, hx, ha⟩
      · exact ⟨j, a, hj, hgrouped⟩
    · rintro ⟨j, a, hj, hjactive, hx, ha⟩
      by_cases hkey : j.incidentId = i.incidentId
      · obtain rfl := hj.eq_of_key hi hkey
        exact .inl ⟨rfl, hx, a, ha⟩
      · exact .inr ⟨j, a, hj, hkey, hjactive, hx, ha⟩

theorem refines_close (now : Rat) :
    Refines w { w with store := w.store.saveIncident (closeIncident i now) }
      [.closed i.serviceId] where
  sound := (hw.updateIncident (i := closeIncident i now) hi hactive rfl rfl
    ((hw.consistent.supported i hi).congr rfl rfl rfl)).1
  firing := (Switch.apply_idle _).symm
  grouped := by
    have settles : w.store.incidents.Settles (closeIncident i now) :=
      Table.settles_of_update hi rfl rfl
    ext k
    refine (mem_grouped_saveIncident hw.consistent.incidents settles).trans ?_
    simp only [List.map_cons, List.map_nil, Switch.run_cons, Switch.run_nil, Switch.apply,
      Signal.grouped, Set.mem_ofPred_eq, Set.mem_empty_iff_false, false_or]
    constructor
    · rintro (⟨hclosed, -⟩ | ⟨j, a, hj, hne, hjactive, hx, ha⟩)
      · exact absurd hclosed (by simp [isActive, closeIncident])
      · refine ⟨⟨j, a, hj, hjactive, hx, ha⟩, fun hk => hne ?_⟩
        rw [hw.consistent.active_unique j i hj hi hjactive hactive (hx.trans hk)]
        rfl
    · rintro ⟨⟨j, a, hj, hjactive, hx, ha⟩, hk⟩
      refine .inr ⟨j, a, hj, fun hkey => hk ?_, hjactive, hx, ha⟩
      rw [← hx, hj.eq_of_key hi hkey]

end

theorem refines_acknowledgeIncident (incidentId : String) (now : Rat) {w : World} (hw : Sound w) :
    Refines w ((acknowledgeIncident incidentId now).run w).2 [] := by
  unfold acknowledgeIncident updateIncident getIncident
  rw [Program.run_bind, Program.request_bind, Program.run_call]
  simp only [perform]
  cases hfound : w.store.getIncident incidentId with
  | none => exact .of_same hw rfl rfl
  | some i =>
      obtain ⟨hi, -⟩ := (ControllerStore.getIncident_eq_some hw.consistent.incidents).mp hfound
      by_cases hstate : i.state = .resolved
      · simp only [Program.pure_eq_done, Program.run_done, hstate, if_true]
        exact .of_same hw rfl rfl
      · have hactive : isActive i = true := by
          rw [← Bool.not_eq_false, isActive_eq_false]
          exact hstate
        simp only [Program.pure_eq_done, Program.run_done, hstate, if_false]
        exact refines_acknowledge hw hi hactive now

theorem refines_resolveIncident (incidentId : String) (now : Rat) {w : World} (hw : Sound w) :
    Refines w ((resolveIncident incidentId now).run w).2
      ((Operation.resolveIncident incidentId now).signals w) := by
  unfold resolveIncident updateIncident getIncident Operation.signals
  rw [Program.run_bind, Program.request_bind, Program.run_call]
  simp only [perform]
  cases hfound : w.store.getIncident incidentId with
  | none => exact .of_same hw rfl rfl
  | some i =>
      obtain ⟨hi, -⟩ := (ControllerStore.getIncident_eq_some hw.consistent.incidents).mp hfound
      by_cases hstate : i.state = .resolved
      · simp only [Program.pure_eq_done, Program.run_done, hstate, if_true,
          isActive_eq_false.mpr hstate, Bool.false_eq_true, if_false]
        exact .of_same hw rfl rfl
      · have hactive : isActive i = true := by
          rw [← Bool.not_eq_false, isActive_eq_false]
          exact hstate
        simp only [Program.pure_eq_done, Program.run_done, hstate, if_false, hactive, if_true]
        exact refines_close hw hi hactive now

/-! ## Runs -/

theorem Operation.refines (op : Operation) {w : World} (hw : Sound w)
    (hpages : ∀ r ∈ op.handled w, isHealthy r = true →
      OnePage r.serviceId (op.method.run w).2.store) :
    Refines w (op.method.run w).2 (op.signals w) := by
  have quiet : op.isQuiet = true → Refines w (op.method.run w).2 [] := by
    intro hquiet
    obtain ⟨α, p, hmethod, hp⟩ := Operation.quiet_confined hquiet
    rw [hmethod, run_discard]
    exact hp.refines (by decide) (by decide) hw
  cases op with
  | runDueSchedules now =>
      have hrun := run_discard (Controller.runDueSchedules now) w
      rw [Operation.method, hrun] at hpages ⊢
      exact (handles_runDueSchedules now hw).refines hpages
  | processDiagnosis report now =>
      have hrun := run_discard (Controller.processDiagnosis report now) w
      rw [Operation.method, hrun] at hpages ⊢
      exact (handles_processDiagnosis report now hw).refines hpages
  | acknowledgeIncident incidentId now =>
      rw [Operation.method, run_discard]
      exact refines_acknowledgeIncident incidentId now hw
  | resolveIncident incidentId now =>
      rw [Operation.method, run_discard]
      exact refines_resolveIncident incidentId now hw
  | _ => exact quiet rfl

theorem onePage_of_runOperations {x : Option String} {ops : List Operation} {w : World}
    (h : OnePage x (runOperations w ops).store) : OnePage x w.store := by
  induction ops generalizing w with
  | nil => exact h
  | cons op ops ih => exact onePage_of_run op.method (ih h)

theorem runOperations_refines {w : World} (hw : Sound w) (ops : List Operation)
    (hpages : ∀ r ∈ handledIn w ops, isHealthy r = true →
      OnePage r.serviceId (runOperations w ops).store) :
    Refines w (runOperations w ops) (signalsIn w ops) := by
  induction ops generalizing w with
  | nil => exact .of_same hw rfl rfl
  | cons op ops ih =>
      have first := op.refines hw fun r hr hhealthy =>
        onePage_of_runOperations (hpages r (List.mem_append_left _ hr) hhealthy)
      have later := ih first.sound fun r hr => hpages r (List.mem_append_right _ hr)
      exact first.trans later

theorem firing_initial {w : World} (hw : w.Initial) : firing w.store = ∅ := by
  rw [Set.eq_empty_iff_forall_notMem]
  rintro k ⟨a, ha, -⟩
  rw [hw.store] at ha
  exact Table.not_stores_empty a ha

theorem grouped_initial {w : World} (hw : w.Initial) : grouped w.store = ∅ := by
  rw [Set.eq_empty_iff_forall_notMem]
  rintro k ⟨i, -, hi, -⟩
  rw [hw.store] at hi
  exact Table.not_stores_empty i hi

/-- After every run of the controller's operations: a rule is firing for a service when
an unhealthy diagnosis of the service matched it and the service has not recovered since;
it stands behind the active incident of the service when that incident has not been closed
since either; and the service has an active incident when a rule stands behind it. -/
theorem outages_follow_signals {w : World} (hw : w.Initial) (ops : List Operation)
    (hpages : ∀ r ∈ handledIn w ops, isHealthy r = true →
      OnePage r.serviceId (runOperations w ops).store) (x : Option String) :
    let s := (runOperations w ops).store
    let signals := signalsIn w ops
    (∀ ruleId, (∃ a ∈ s.alerts.documents, a.state = .firing ∧ a.ruleId = ruleId ∧ a.serviceId = x) ↔
        Switch.LastOn (ruleId, x) (signals.map Signal.firing)) ∧
      (∀ ruleId, (∃ i ∈ s.incidents.documents, isActive i = true ∧ i.serviceId = x ∧
          ∃ a ∈ s.alerts.documents, a.alertId ∈ i.alertIds ∧ a.ruleId = ruleId) ↔
        Switch.LastOn (ruleId, x) (signals.map Signal.grouped)) ∧
      ((∃ i ∈ s.incidents.documents, isActive i = true ∧ i.serviceId = x) ↔
        ∃ ruleId, Switch.LastOn (ruleId, x) (signals.map Signal.grouped)) := by
  intro s signals
  have hrefines := runOperations_refines hw.sound ops hpages
  have hs : Consistent s := hrefines.sound.consistent
  have hfiring : ∀ k, k ∈ firing s ↔ Switch.LastOn k (signals.map Signal.firing) := by
    intro k
    rw [hrefines.firing, firing_initial hw, Switch.mem_run_empty]
  have hgrouped : ∀ k, k ∈ grouped s ↔ Switch.LastOn k (signals.map Signal.grouped) := by
    intro k
    rw [hrefines.grouped, grouped_initial hw, Switch.mem_run_empty]
  simp only [hs.alerts.mem_documents, hs.incidents.mem_documents]
  refine ⟨fun ruleId => hfiring (ruleId, x), fun ruleId => ?_, ?_⟩
  · rw [← hgrouped]
    constructor
    · rintro ⟨i, hi, hactive, hx, a, ha, hid, hrule⟩
      exact ⟨i, a, hi, hactive, hx, ha, hid, hrule⟩
    · rintro ⟨i, a, hi, hactive, hx, ha, hid, hrule⟩
      exact ⟨i, hi, hactive, hx, a, ha, hid, hrule⟩
  · simp only [← hgrouped]
    constructor
    · rintro ⟨i, hi, hactive, hx⟩
      -- The severity of an incident is that of one of its alerts, so it has one.
      obtain ⟨a, ha, hid, -⟩ := (hs.supported i hi).severity.1
      exact ⟨a.ruleId, i, a, hi, hactive, hx, ha, hid, rfl⟩
    · rintro ⟨ruleId, i, a, hi, hactive, hx, -⟩
      exact ⟨i, hi, hactive, hx⟩

/-- An outage, its recovery and the next outage: the rule fires for the second one. -/
theorem second_outage_fires :
    let ops : List Operation :=
      [.registerAlertRule Sample.rule, .processDiagnosis (Sample.report (some "db") .failed) 1,
        .processDiagnosis (Sample.report (some "db") .healthy) 2,
        .processDiagnosis (Sample.report (some "db") .failed) 3]
    ∃ a ∈ (runOperations Sample.world ops).store.alerts.documents,
      a.state = .firing ∧ a.ruleId = "r1" ∧ a.serviceId = some "db" := by
  intro ops
  have hpage : OnePage (some "db") (runOperations Sample.world ops).store :=
    ⟨by decide +kernel, by decide +kernel⟩
  have hreports : ∀ r ∈ handledIn Sample.world ops, r.serviceId = some "db" := by decide +kernel
  have hfollow := outages_follow_signals Sample.world_initial ops
    (fun r hr _ => by rw [hreports r hr]; exact hpage) (some "db")
  refine (hfollow.1 "r1").mpr ?_
  have hlast : (signalsIn Sample.world ops).getLast? = some (.matched (some "db") ["r1"]) := by
    decide +kernel
  obtain ⟨before, hsplit⟩ := List.getLast?_eq_some_iff.mp hlast
  refine ⟨before.map Signal.firing, Signal.firing (.matched (some "db") ["r1"]), [], ?_, ?_, ?_⟩
  · rw [hsplit, List.map_append]
    rfl
  · exact ⟨List.mem_singleton_self _, rfl⟩
  · intro f hf
    cases hf

end NetForge.Controller
