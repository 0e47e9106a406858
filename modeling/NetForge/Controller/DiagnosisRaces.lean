import NetForge.Controller.IncidentRaces

/-! # Concurrent diagnoses of one service

The monitor thread and the request handlers share one service object, so several
unhealthy reports of a service may be processed at once. Each finds, then saves;
between the two another may have saved as well. Where no save comes after such a
change, the alerts stay unique and none is lost from the incident.
-/

namespace NetForge.Controller

open Calculus NetForge.Core Analysis

/-! ## Undisturbed saves -/

def firingRead : Event controller → Option (Option Alert)
  | ⟨.findFiringAlert _ _, reply⟩ => some reply
  | _ => none

def lastFiring (log : List (Event controller)) : Option Alert := (log.findSome? firingRead).join

def activeRead : Event controller → Option (Option Incident)
  | ⟨.findActiveIncident _, reply⟩ => some reply
  | _ => none

def lastActive (log : List (Event controller)) : Option Incident := (log.findSome? activeRead).join

/-- A new alert is saved, under a new identifier, while the rule still fires none. -/
def UndisturbedAlert (log : List (Event controller)) (a : Alert) (s : ControllerStore) : Prop :=
  lastFiring log = none →
    (∀ b ∈ s.alerts.documents, b.alertId ≠ a.alertId) ∧
      s.findFiringAlert a.ruleId a.serviceId = none

/-- An incident that was found is saved before it gains another alert; a new one is
saved, under a new identifier, while the service still has none. -/
def UndisturbedAttach (log : List (Event controller)) (i : Incident) (s : ControllerStore) : Prop :=
  (∀ found ∈ lastActive log, ∀ j ∈ s.incidents.documents, j.incidentId = i.incidentId →
      ∀ id ∈ j.alertIds, id ∈ found.alertIds) ∧
    (lastActive log = none →
      (∀ j ∈ s.incidents.documents, j.incidentId ≠ i.incidentId) ∧
        s.findActiveIncident i.serviceId = none)

instance (log : List (Event controller)) (a : Alert) (s : ControllerStore) :
    Decidable (UndisturbedAlert log a s) := inferInstanceAs (Decidable (_ → _ ∧ _))

instance (log : List (Event controller)) (i : Incident) (s : ControllerStore) :
    Decidable (UndisturbedAttach log i s) :=
  inferInstanceAs (Decidable ((∀ found ∈ lastActive log, ∀ j ∈ s.incidents.documents,
    j.incidentId = i.incidentId → ∀ id ∈ j.alertIds, id ∈ found.alertIds) ∧ (_ → _ ∧ _)))

def UndisturbedDiagnosis (log : List (Event controller)) (c : StoreCall) (w : World) : Prop :=
  (∀ a ∈ c.savedAlert, UndisturbedAlert log a w.store) ∧
    ∀ i ∈ c.savedIncident, UndisturbedAttach log i w.store

instance (log : List (Event controller)) (c : StoreCall) (w : World) :
    Decidable (UndisturbedDiagnosis log c w) :=
  inferInstanceAs (Decidable ((∀ a ∈ c.savedAlert, UndisturbedAlert log a w.store) ∧
    ∀ i ∈ c.savedIncident, UndisturbedAttach log i w.store))

/-- Alerts keep firing; incidents stay active and keep their alerts. -/
structure Extends (s t : ControllerStore) : Prop where
  alerts : ∀ a, s.alerts.Stores a → ∃ a', t.alerts.Stores a' ∧ a'.alertId = a.alertId ∧
    alertLayout.fixed a' = alertLayout.fixed a ∧ (a.state = .firing → a'.state = .firing)
  incidents : ∀ i, s.incidents.Stores i → ∃ i', t.incidents.Stores i' ∧
    i'.incidentId = i.incidentId ∧ incidentLayout.fixed i' = incidentLayout.fixed i ∧
    (∀ id ∈ i.alertIds, id ∈ i'.alertIds) ∧ (isActive i → isActive i')

theorem Extends.refl (s : ControllerStore) : Extends s s where
  alerts := fun a ha => ⟨a, ha, rfl, rfl, fun h => h⟩
  incidents := fun i hi => ⟨i, hi, rfl, rfl, fun _ h => h, fun h => h⟩

theorem Extends.trans {s t u : ControllerStore} (h : Extends s t) (h' : Extends t u) :
    Extends s u where
  alerts := by
    intro a ha
    obtain ⟨b, hb, hk, hx, hf⟩ := h.alerts a ha
    obtain ⟨c, hc, hk', hx', hf'⟩ := h'.alerts b hb
    exact ⟨c, hc, hk'.trans hk, hx'.trans hx, fun hfire => hf' (hf hfire)⟩
  incidents := by
    intro i hi
    obtain ⟨j, hj, hk, hx, hids, ha⟩ := h.incidents i hi
    obtain ⟨k, hk', hkey, hx', hids', ha'⟩ := h'.incidents j hj
    exact ⟨k, hk', hkey.trans hk, hx'.trans hx, fun id hid => hids' id (hids id hid),
      fun hactive => ha' (ha hactive)⟩

/-- Beside unique alerts and incidents: no incident lists an alert twice. -/
structure Orderly (s : ControllerStore) : Prop extends Exclusive s where
  distinct : ∀ i, s.incidents.Stores i → i.alertIds.Nodup

theorem Orderly.congr {s t : ControllerStore} (h : Orderly s) (ha : t.alerts = s.alerts)
    (hi : t.incidents = s.incidents) : Orderly t where
  toExclusive := h.toExclusive.congr ha hi
  distinct := by
    rw [hi]
    exact h.distinct

def diagnosing : Contract controller :=
  .invariant controller (fun w => Orderly w.store) (fun w w' => Extends w.store w'.store)
    UndisturbedDiagnosis (fun w => .refl w.store) (fun _ _ _ => .trans)

instance (log : List (Event controller)) (c : StoreCall) (w : World) :
    Decidable (diagnosing.admits log c w) :=
  inferInstanceAs (Decidable (UndisturbedDiagnosis log c w))

/-! ## Saves -/

theorem extends_saveAlert {s : ControllerStore} (hs : Exclusive s) {a : Alert}
    (settles : s.alerts.Settles a)
    (keeps : ∀ b, s.alerts.Stores b → b.alertId = a.alertId → b.state = .firing →
      a.state = .firing) : Extends s (s.saveAlert a) where
  alerts := by
    intro b hb
    have mem := @stores_saveAlert s hs.alerts a settles
    by_cases hk : b.alertId = a.alertId
    · exact ⟨a, mem.mpr (.inl rfl), hk.symm, (settles b hb hk).symm, keeps b hb hk⟩
    · exact ⟨b, mem.mpr (.inr ⟨hb, hk⟩), rfl, rfl, fun h => h⟩
  incidents := (Extends.refl s).incidents

theorem extends_saveIncident {s : ControllerStore} (hs : Exclusive s) {i : Incident}
    (settles : s.incidents.Settles i)
    (keeps : ∀ j, s.incidents.Stores j → j.incidentId = i.incidentId →
      (∀ id ∈ j.alertIds, id ∈ i.alertIds) ∧ (isActive j → isActive i)) :
    Extends s (s.saveIncident i) where
  alerts := (Extends.refl s).alerts
  incidents := by
    intro j hj
    have mem := @stores_saveIncident s hs.incidents i settles
    by_cases hk : j.incidentId = i.incidentId
    · exact ⟨i, mem.mpr (.inl rfl), hk.symm, (settles j hj hk).symm, keeps j hj hk⟩
    · exact ⟨j, mem.mpr (.inr ⟨hj, hk⟩), rfl, rfl, fun _ h => h, fun h => h⟩

theorem Orderly.saveAlert {s : ControllerStore} (hs : Orderly s) {a : Alert}
    (settles : s.alerts.Settles a)
    (alone : a.state = .firing → ∀ b, s.alerts.Stores b → b.state = .firing →
      b.ruleId = a.ruleId → b.serviceId = a.serviceId → b.alertId = a.alertId) :
    Orderly (s.saveAlert a) where
  toExclusive := hs.toExclusive.saveAlert settles alone
  distinct := hs.distinct

theorem Orderly.saveIncident {s : ControllerStore} (hs : Orderly s) {i : Incident}
    (settles : s.incidents.Settles i)
    (alone : isActive i → ∀ j, s.incidents.Stores j → isActive j → j.serviceId = i.serviceId →
      j.incidentId = i.incidentId)
    (nodup : i.alertIds.Nodup) : Orderly (s.saveIncident i) where
  toExclusive := hs.toExclusive.saveIncident settles alone
  distinct := by
    intro j hj
    rcases (stores_saveIncident hs.incidents settles).mp hj with rfl | ⟨hj, -⟩
    · exact nodup
    · exact hs.distinct j hj

theorem orderly_refresh {s t : ControllerStore} (ht : Orderly t) (hst : Extends s t)
    {found a : Alert} (hfound : s.alerts.Stores found) (hfiring : found.state = .firing)
    (hkey : found.alertId = a.alertId) (hfix : alertLayout.fixed found = alertLayout.fixed a)
    (hstate : a.state = .firing) : Orderly (t.saveAlert a) ∧ Extends t (t.saveAlert a) := by
  obtain ⟨stored, hstored, hk, hx, hf⟩ := hst.alerts found hfound
  have settles : t.alerts.Settles a :=
    Table.settles_of_update hstored (hk.trans hkey) (hx.trans hfix)
  have columns := hx.trans hfix
  refine ⟨ht.saveAlert settles fun _ b hb fb hr hs => ?_,
    extends_saveAlert ht.toExclusive settles fun _ _ _ _ => hstate⟩
  have hr' := hr.trans (congrArg AlertColumns.ruleId columns).symm
  have hs' := hs.trans (congrArg AlertColumns.serviceId columns).symm
  rw [ht.firing_unique b stored hb hstored fb (hf hfiring) hr' hs']
  exact hk.trans hkey

theorem orderly_newAlert {s : ControllerStore} (hs : Orderly s) {a : Alert}
    (fresh : ∀ b ∈ s.alerts.documents, b.alertId ≠ a.alertId)
    (unfired : s.findFiringAlert a.ruleId a.serviceId = none) :
    Orderly (s.saveAlert a) ∧ Extends s (s.saveAlert a) := by
  have fresh' : ∀ b, s.alerts.Stores b → b.alertId ≠ a.alertId := fun b hb =>
    fresh b (hs.alerts.mem_documents.mpr hb)
  have settles : s.alerts.Settles a := Table.settles_of_fresh fresh'
  refine ⟨hs.saveAlert settles fun _ b hb fb hr hx => ?_,
    extends_saveAlert hs.toExclusive settles fun b hb hk => absurd hk (fresh' b hb)⟩
  exact absurd fb ((ControllerStore.findFiringAlert_eq_none hs.alerts).mp unfired b hb hr hx)

/-- Extending an incident found active a while ago that gained no alert since. -/
theorem orderly_extend {s t : ControllerStore} (ht : Orderly t) (hst : Extends s t)
    {found i : Incident} (hfound : s.incidents.Stores found) (hactive : isActive found)
    (hkey : found.incidentId = i.incidentId)
    (hfix : incidentLayout.fixed found = incidentLayout.fixed i) (hstate : isActive i)
    (hids : ∀ id ∈ found.alertIds, id ∈ i.alertIds) (nodup : i.alertIds.Nodup)
    (current : ∀ j ∈ t.incidents.documents, j.incidentId = i.incidentId →
      ∀ id ∈ j.alertIds, id ∈ found.alertIds) :
    Orderly (t.saveIncident i) ∧ Extends t (t.saveIncident i) := by
  obtain ⟨stored, hstored, hk, hx, -, ha⟩ := hst.incidents found hfound
  have settles : t.incidents.Settles i :=
    Table.settles_of_update hstored (hk.trans hkey) (hx.trans hfix)
  have columns := hx.trans hfix
  refine ⟨ht.saveIncident settles (fun _ j hj aj hs => ?_) nodup,
    extends_saveIncident ht.toExclusive settles fun j hj hkj =>
      ⟨fun id hid => ?_, fun _ => hstate⟩⟩
  · have hs' := hs.trans (congrArg IncidentColumns.serviceId columns).symm
    rw [ht.active_unique j stored hj hstored aj (ha hactive) hs']
    exact hk.trans hkey
  · exact hids id (current j (ht.incidents.mem_documents.mpr hj) hkj id hid)

theorem orderly_newIncident {s : ControllerStore} (hs : Orderly s) {i : Incident}
    (fresh : ∀ j ∈ s.incidents.documents, j.incidentId ≠ i.incidentId)
    (idle : s.findActiveIncident i.serviceId = none) (nodup : i.alertIds.Nodup) :
    Orderly (s.saveIncident i) ∧ Extends s (s.saveIncident i) := by
  have fresh' : ∀ j, s.incidents.Stores j → j.incidentId ≠ i.incidentId := fun j hj =>
    fresh j (hs.incidents.mem_documents.mpr hj)
  have settles : s.incidents.Settles i := Table.settles_of_fresh fresh'
  refine ⟨hs.saveIncident settles (fun _ j hj aj hx => ?_) nodup,
    extends_saveIncident hs.toExclusive settles fun j hj hk => absurd hk (fresh' j hj)⟩
  have idle := (ControllerStore.findActiveIncident_eq_none hs.incidents).mp idle j hj hx
  rw [aj] at idle
  contradiction

/-! ## Methods -/

def Listed (serviceId : Option String) (alertId : String) (s : ControllerStore) : Prop :=
  ∃ i, s.incidents.Stores i ∧ isActive i ∧ i.serviceId = serviceId ∧ alertId ∈ i.alertIds

theorem Listed.extends {serviceId : Option String} {alertId : String} {s t : ControllerStore}
    (h : Listed serviceId alertId s) (hst : Extends s t) : Listed serviceId alertId t := by
  obtain ⟨i, hi, ha, hx, hid⟩ := h
  obtain ⟨i', hi', _, hfix, hids, ha'⟩ := hst.incidents i hi
  exact ⟨i', hi', ha' ha, (congrArg IncidentColumns.serviceId hfix).trans hx, hids _ hid⟩

theorem Confined.diagnosing {α : Type} {resources : List Resource} {p : Method α}
    (h : Confined resources p) (ha : .alerts ∉ resources) (hi : .incidents ∉ resources)
    {w : World} (hw : Orderly w.store) (log : List (Event controller)) :
    p.Safe diagnosing (fun _ _ t => Orderly t.store) log w := by
  refine Program.Calls.safe (fun s t hst hs => (hst hs).1) (fun c s hc hs => ?_) h hw
  have alerts := perform_alerts (fun he => ha (hc _ he)) s
  have incidents := perform_incidents (fun he => hi (hc _ he)) s
  have keeps : Orderly (perform c s).2.store := hs.congr alerts incidents
  refine ⟨fun _ => ⟨keeps, ?_, ?_⟩, keeps⟩
  · rw [alerts]
    exact (Extends.refl s.store).alerts
  · rw [incidents]
    exact (Extends.refl s.store).incidents

theorem fireRule_diagnosing (rule : AlertRule) (report : MultiVantageReport) (now : Rat)
    (regression : Bool) {w : World} (hw : Orderly w.store) (log : List (Event controller)) :
    (fireRule rule report now regression).Safe diagnosing
      (fun _ a t => Orderly t.store ∧ Extends w.store t.store ∧ a.serviceId = report.serviceId)
      log w := by
  refine .inv_request hw fun w₁ hw₁ h₀₁ _ => ⟨hw₁, .refl _, ?_⟩
  cases h : w₁.store.findFiringAlert rule.ruleId report.serviceId with
  | some found =>
      obtain ⟨hst, _, hx, hf⟩ := ControllerStore.findFiringAlert_eq_some hw₁.alerts h
      simp only [perform, h]
      refine .inv_request hw₁ fun w₂ hw₂ h₁₂ _ => ?_
      have keeps := orderly_refresh hw₂ h₁₂ (a := refreshAlert found report now regression)
        hst hf rfl rfl hf
      exact ⟨keeps.1, keeps.2, .inv_done keeps.1 fun _ ht h₂₃ =>
        ⟨ht, ((h₀₁.trans h₁₂).trans keeps.2).trans h₂₃, hx⟩⟩
  | none =>
      simp only [perform, h]
      refine .inv_request hw₁ fun w₂ hw₂ h₁₂ _ => ⟨hw₂, .refl _, ?_⟩
      refine .inv_request hw₂ fun w₃ hw₃ h₂₃ undisturbed => ?_
      obtain ⟨fresh, unfired⟩ := undisturbed.1 _ rfl rfl
      have keeps := orderly_newAlert hw₃ fresh unfired
      exact ⟨keeps.1, keeps.2, .inv_done keeps.1 fun _ ht h₃₄ =>
        ⟨ht, (((h₀₁.trans h₁₂).trans h₂₃).trans keeps.2).trans h₃₄, rfl⟩⟩

theorem attachToIncident_diagnosing (alert : Alert) (report : MultiVantageReport) (now : Rat)
    {w : World} (hw : Orderly w.store) (log : List (Event controller)) :
    (attachToIncident alert report now).Safe diagnosing
      (fun _ _ t => Orderly t.store ∧ Extends w.store t.store ∧
        Listed alert.serviceId alert.alertId t.store) log w := by
  refine .inv_request hw fun w₁ hw₁ h₀₁ _ => ⟨hw₁, .refl _, ?_⟩
  cases h : w₁.store.findActiveIncident alert.serviceId with
  | some found =>
      obtain ⟨hst, hx, hactive⟩ := ControllerStore.findActiveIncident_eq_some hw₁.incidents h
      simp only [perform, h]
      refine .inv_request hw₁ fun w₂ hw₂ h₁₂ undisturbed => ?_
      have keeps := orderly_extend hw₂ h₁₂ (i := extendIncident found alert report now)
        hst hactive rfl rfl hactive (fun id hid => mem_extendIncident.mpr (.inl hid))
        (nodup_extendIncident (hw₁.distinct found hst) alert report now)
        ((undisturbed.2 _ rfl).1 found rfl)
      have settles : w₂.store.incidents.Settles (extendIncident found alert report now) := by
        obtain ⟨stored, hstored, hk, hfix, -⟩ := h₁₂.incidents found hst
        exact Table.settles_of_update hstored hk hfix
      have listed : Listed alert.serviceId alert.alertId
          (w₂.store.saveIncident (extendIncident found alert report now)) :=
        ⟨_, (stores_saveIncident hw₂.incidents settles).mpr (.inl rfl), hactive, hx,
          mem_extendIncident.mpr (.inr rfl)⟩
      exact ⟨keeps.1, keeps.2, .inv_done keeps.1 fun _ ht h₂₃ =>
        ⟨ht, ((h₀₁.trans h₁₂).trans keeps.2).trans h₂₃, listed.extends h₂₃⟩⟩
  | none =>
      simp only [perform, h]
      refine .inv_request hw₁ fun w₂ hw₂ h₁₂ _ => ⟨hw₂, .refl _, ?_⟩
      refine .inv_request hw₂ fun w₃ hw₃ h₂₃ undisturbed => ?_
      obtain ⟨fresh, idle⟩ := (undisturbed.2 _ rfl).2 rfl
      have keeps := orderly_newIncident hw₃ fresh idle (List.nodup_singleton _)
      have settles : w₃.store.incidents.Settles
          (createIncident (w₂.uuid w₂.issued) alert report now) :=
        Table.settles_of_fresh fun j hj => fresh j (hw₃.incidents.mem_documents.mpr hj)
      have listed : Listed alert.serviceId alert.alertId
          (w₃.store.saveIncident (createIncident (w₂.uuid w₂.issued) alert report now)) :=
        ⟨_, (stores_saveIncident hw₃.incidents settles).mpr (.inl rfl), rfl, rfl,
          List.mem_singleton_self _⟩
      exact ⟨keeps.1, keeps.2, .inv_done keeps.1 fun _ ht h₃₄ =>
        ⟨ht, (((h₀₁.trans h₁₂).trans h₂₃).trans keeps.2).trans h₃₄, listed.extends h₃₄⟩⟩

def OutcomeListed (serviceId : Option String) (outcome : DiagnosisOutcome) (w : World) : Prop :=
  Orderly w.store ∧ ∀ a ∈ outcome.alerts, Listed serviceId a.alertId w.store

theorem OutcomeListed.done {serviceId : Option String} {outcome : DiagnosisOutcome} {w : World}
    (h : OutcomeListed serviceId outcome w) (log : List (Event controller)) :
    (Program.done outcome : Method DiagnosisOutcome).Safe diagnosing
      (fun _ out t => OutcomeListed serviceId out t) log w :=
  .inv_done h.1 fun _ ht hwt => ⟨ht, fun a ha => (h.2 a ha).extends hwt⟩

theorem processDiagnosis_diagnosing {report : MultiVantageReport}
    (unhealthy : report.localization ≠ .healthy) (now : Rat) {w : World} (hw : Orderly w.store)
    (log : List (Event controller)) :
    (processDiagnosis report now).Safe diagnosing
      (fun _ outcome t => OutcomeListed report.serviceId outcome t) log w := by
  refine .bind (((recordServiceBaseline_confined report).diagnosing (by simp) (by simp) hw log).mono
    fun log regression w₁ hw₁ => ?_)
  rw [if_neg (by simpa [isHealthy] using unhealthy)]
  refine .inv_request hw₁ fun w₂ hw₂ _ _ => ⟨hw₂, .refl _, ?_⟩
  have none_yet : OutcomeListed report.serviceId ⟨regression, [], [], none⟩ w₂ :=
    ⟨hw₂, fun a ha => absurd ha List.not_mem_nil⟩
  refine .fold (fun _ outcome _ w => OutcomeListed report.serviceId outcome w) ?_
    (fun log outcome w h => h.done log) none_yet
  rintro log outcome rule rules w ⟨hw, hlisted⟩
  refine .bind ((fireRule_diagnosing rule report now _ hw log).mono ?_)
  rintro log alert t ⟨ht, hwt, hx⟩
  refine .bind ((attachToIncident_diagnosing alert report now ht log).mono ?_)
  rintro log incident u ⟨hu, htu, hlast⟩
  have appended : OutcomeListed report.serviceId { outcome with
      alerts := outcome.alerts ++ [alert], incidents := outcome.incidents ++ [incident] } u := ?_
  · exact appended.done log
  refine ⟨hu, fun a ha => ?_⟩
  rcases List.mem_append.mp ha with ha | ha
  · exact (hlisted a ha).extends (hwt.trans htu)
  · rw [List.mem_singleton.mp ha, ← hx]
    exact hlast

/-! ## Runs -/

section Runs

variable {ι : Type} [DecidableEq ι]

def startDiagnoses (reports : ι → MultiVantageReport) (now : ι → Rat) (w : World) :
    Config ι controller DiagnosisOutcome :=
  .start (fun i => processDiagnosis (reports i) (now i)) w

/-- What concurrent diagnoses of one service owe: unique firing alerts, a unique active
incident that lists no alert twice, and in it every alert of a finished diagnosis. -/
structure DiagnosesKept (serviceId : Option String) (cfg : Config ι controller DiagnosisOutcome) :
    Prop where
  firing : ∀ a ∈ cfg.state.store.alerts.documents, ∀ b ∈ cfg.state.store.alerts.documents,
    a.state = .firing → b.state = .firing → a.ruleId = b.ruleId → a.serviceId = b.serviceId → a = b
  active : ∀ i ∈ cfg.state.store.incidents.documents, ∀ j ∈ cfg.state.store.incidents.documents,
    isActive i → isActive j → i.serviceId = j.serviceId → i = j
  distinct : ∀ i ∈ cfg.state.store.incidents.documents, i.alertIds.Nodup
  listed : ∀ k outcome, cfg.thread k = .done outcome → ∀ a ∈ outcome.alerts,
    ∃ i ∈ cfg.state.store.incidents.documents,
      isActive i ∧ i.serviceId = serviceId ∧ a.alertId ∈ i.alertIds

/-- From any reachable store, any number of unhealthy diagnoses of one service in
any interleaving whose saves are undisturbed. -/
theorem concurrent_diagnoses_kept {w : World} (hw : w.Initial) (ops : List Operation)
    {serviceId : Option String} {reports : ι → MultiVantageReport}
    (unhealthy : ∀ k, (reports k).localization ≠ .healthy)
    (same : ∀ k, (reports k).serviceId = serviceId) (now : ι → Rat) {schedule : List ι}
    (undisturbed : Config.Admitted (Config.meets diagnosing)
      (startDiagnoses reports now (runOperations w ops)) schedule) :
    DiagnosesKept serviceId
      ((startDiagnoses reports now (runOperations w ops)).run schedule) := by
  have consistent := (hw.sound.runOperations ops).1.consistent
  have orderly : Orderly (runOperations w ops).store :=
    ⟨consistent.toExclusive, fun i hi => (consistent.supported i hi).nodup⟩
  have safe : Config.AllSafe diagnosing (fun _ _ outcome t => OutcomeListed serviceId outcome t)
      (startDiagnoses reports now (runOperations w ops)) := by
    intro k
    have mine := processDiagnosis_diagnosing (unhealthy k) (now k) orderly []
    rw [same k] at mine
    exact mine
  obtain ⟨safe', rely⟩ := safe.run (fun _ _ h => h) undisturbed
  obtain ⟨final, -⟩ := rely orderly
  constructor
  · intro a ha b hb fa fb hr hx
    exact final.firing_unique a b (final.alerts.mem_documents.mp ha)
      (final.alerts.mem_documents.mp hb) fa fb hr hx
  · intro i hi j hj ai aj hx
    exact final.active_unique i j (final.incidents.mem_documents.mp hi)
      (final.incidents.mem_documents.mp hj) ai aj hx
  · exact fun i hi => final.distinct i (final.incidents.mem_documents.mp hi)
  · intro k outcome hdone a ha
    obtain ⟨i, hi, hactive, hx, hid⟩ := (safe'.post hdone).2 a ha
    exact ⟨i, final.incidents.mem_documents.mpr hi, hactive, hx, hid⟩

end Runs

/-! ## Races -/

namespace Sample

def outages : Bool → MultiVantageReport := fun _ => report (some "db") .failed

def diagnosisCalls : Nat := 9

def inTurn : List Bool := List.replicate diagnosisCalls false ++ List.replicate diagnosisCalls true

def alternating : List Bool := (List.replicate diagnosisCalls [false, true]).flatten

end Sample

theorem concurrent_diagnoses_kept_inTurn :
    Config.Admitted (Config.meets diagnosing) (startDiagnoses Sample.outages (fun _ => 1)
        (runOperations Sample.world [.registerAlertRule Sample.rule])) Sample.inTurn ∧
      DiagnosesKept (some "db") ((startDiagnoses Sample.outages (fun _ => 1)
        (runOperations Sample.world [.registerAlertRule Sample.rule])).run Sample.inTurn) := by
  have undisturbed : Config.Admitted (Config.meets diagnosing)
      (startDiagnoses Sample.outages (fun _ => 1)
        (runOperations Sample.world [.registerAlertRule Sample.rule])) Sample.inTurn := by
    decide +kernel
  have unhealthy : ∀ k, (Sample.outages k).localization ≠ .healthy := by decide +kernel
  exact ⟨undisturbed, concurrent_diagnoses_kept Sample.world_initial
    [.registerAlertRule Sample.rule] unhealthy (fun _ => rfl) (fun _ => 1) undisturbed⟩

/-- Both diagnoses look for the firing alert before either saves one: the rule
fires twice. -/
theorem concurrent_diagnoses_fire_twice :
    ¬ ∀ (w : World), w.Initial → ∀ (ops : List Operation) (serviceId : Option String)
      (reports : Bool → MultiVantageReport) (now : Bool → Rat) (schedule : List Bool),
      (∀ k, (reports k).localization ≠ .healthy) → (∀ k, (reports k).serviceId = serviceId) →
        DiagnosesKept serviceId
          ((startDiagnoses reports now (runOperations w ops)).run schedule) := by
  intro always
  have kept := always Sample.world Sample.world_initial [.registerAlertRule Sample.rule]
    (some "db") Sample.outages (fun _ => 1) Sample.alternating (by decide +kernel) (fun _ => rfl)
  have twice : ¬ ∀ a ∈ ((startDiagnoses Sample.outages (fun _ => 1)
        (runOperations Sample.world [.registerAlertRule Sample.rule])).run
          Sample.alternating).state.store.alerts.documents,
      ∀ b ∈ ((startDiagnoses Sample.outages (fun _ => 1)
        (runOperations Sample.world [.registerAlertRule Sample.rule])).run
          Sample.alternating).state.store.alerts.documents,
      a.state = .firing → b.state = .firing → a.ruleId = b.ruleId → a.serviceId = b.serviceId →
        a = b := by
    decide +kernel
  exact twice kept.firing

end NetForge.Controller
