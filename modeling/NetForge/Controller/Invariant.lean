import NetForge.Controller.Lookup
import Mathlib.Order.Bounds.Basic

/-! # The alert and incident invariant

Four facts about the two tables, none stated in the code: one firing alert per
rule and service, one active incident per service, incidents made of stored
alerts of their own service, and an incident's severity being the worst of its
alerts. Every save the service makes, run one operation at a time, preserves
them, and no save touches a resolved row.
-/

namespace NetForge.Controller

open Calculus NetForge.Core Analysis

/-- An incident made of stored alerts of its service, as severe as the worst. -/
structure Supported (s : ControllerStore) (i : Incident) : Prop where
  nodup : i.alertIds.Nodup
  stored : ∀ id ∈ i.alertIds, ∃ a, s.alerts.Stores a ∧ a.alertId = id ∧ a.serviceId = i.serviceId
  severity : IsGreatest
    {rank | ∃ a, s.alerts.Stores a ∧ a.alertId ∈ i.alertIds ∧ severityRank a.severity = rank}
    (severityRank i.severity)

/-- Columns and payloads agree; a rule fires once per service, and a service has
one active incident. -/
structure Exclusive (s : ControllerStore) : Prop where
  alerts : s.alerts.Agrees
  incidents : s.incidents.Agrees
  firing_unique : ∀ a b, s.alerts.Stores a → s.alerts.Stores b → a.state = .firing →
    b.state = .firing → a.ruleId = b.ruleId → a.serviceId = b.serviceId → a = b
  active_unique : ∀ i j, s.incidents.Stores i → s.incidents.Stores j → isActive i → isActive j →
    i.serviceId = j.serviceId → i = j

structure Consistent (s : ControllerStore) : Prop extends Exclusive s where
  supported : ∀ i, s.incidents.Stores i → Supported s i

structure ResolvedKept (s t : ControllerStore) : Prop where
  alerts : ∀ a, s.alerts.Stores a → a.state = .resolved → t.alerts.Stores a
  incidents : ∀ i, s.incidents.Stores i → i.state = .resolved → t.incidents.Stores i

theorem ResolvedKept.refl (s : ControllerStore) : ResolvedKept s s :=
  ⟨fun _ h _ => h, fun _ h _ => h⟩

theorem ResolvedKept.trans {s t u : ControllerStore} (h : ResolvedKept s t)
    (h' : ResolvedKept t u) : ResolvedKept s u :=
  ⟨fun a ha hr => h'.alerts a (h.alerts a ha hr) hr,
    fun i hi hr => h'.incidents i (h.incidents i hi hr) hr⟩

theorem consistent_empty : Consistent .empty where
  alerts := Table.agrees_empty
  incidents := Table.agrees_empty
  firing_unique := fun a _ ha => absurd ha (Table.not_stores_empty a)
  active_unique := fun i _ hi => absurd hi (Table.not_stores_empty i)
  supported := fun i hi => absurd hi (Table.not_stores_empty i)

/-! ## Saving an alert -/

/-- What makes saving `a` legitimate: its fixed columns and its severity are
those of the alert it replaces, and it does not fire beside another alert of its
rule and service. -/
structure SavableAlert (s : ControllerStore) (a : Alert) : Prop where
  settles : s.alerts.Settles a
  severity : ∀ b, s.alerts.Stores b → b.alertId = a.alertId → b.severity = a.severity
  alone : a.state = .firing → ∀ b, s.alerts.Stores b → b.state = .firing → b.ruleId = a.ruleId →
    b.serviceId = a.serviceId → b.alertId = a.alertId

theorem stores_saveAlert {s : ControllerStore} (hs : s.alerts.Agrees) {a : Alert}
    (h : s.alerts.Settles a) {b : Alert} :
    (s.saveAlert a).alerts.Stores b ↔ b = a ∨ (s.alerts.Stores b ∧ b.alertId ≠ a.alertId) :=
  hs.stores_put h

/-- The alerts behind an incident are still there after a legitimate save. -/
theorem Supported.saveAlert {s : ControllerStore} (hs : s.alerts.Agrees) {a : Alert}
    (h : SavableAlert s a) {i : Incident} (hi : Supported s i) :
    Supported (s.saveAlert a) i := by
  have mem := @stores_saveAlert s hs a h.settles
  -- An alert and what is stored under its identifier afterwards.
  have after : ∀ b, s.alerts.Stores b → ∃ b', (s.saveAlert a).alerts.Stores b' ∧
      b'.alertId = b.alertId ∧ b'.serviceId = b.serviceId ∧ b'.severity = b.severity := by
    intro b hb
    by_cases hk : b.alertId = a.alertId
    · have hfix := congrArg AlertColumns.serviceId (h.settles b hb hk)
      exact ⟨a, mem.mpr (.inl rfl), hk.symm, hfix.symm, (h.severity b hb hk).symm⟩
    · exact ⟨b, mem.mpr (.inr ⟨hb, hk⟩), rfl, rfl, rfl⟩
  have before : ∀ b, (s.saveAlert a).alerts.Stores b → b.alertId ∈ i.alertIds →
      ∃ b', s.alerts.Stores b' ∧ b'.alertId = b.alertId ∧ b'.severity = b.severity := by
    intro b hb hid
    rcases mem.mp hb with rfl | ⟨hb, _⟩
    · obtain ⟨b', hb', hk, _⟩ := hi.stored _ hid
      exact ⟨b', hb', hk, h.severity b' hb' hk⟩
    · exact ⟨b, hb, rfl, rfl⟩
  refine ⟨hi.nodup, fun id hid => ?_, ?_, ?_⟩
  · obtain ⟨b, hb, rfl, hx⟩ := hi.stored id hid
    obtain ⟨b', hb', hk, hx', _⟩ := after b hb
    exact ⟨b', hb', hk, hx'.trans hx⟩
  · obtain ⟨b, hb, hid, hrank⟩ := hi.severity.1
    obtain ⟨b', hb', hk, _, hsev⟩ := after b hb
    exact ⟨b', hb', hk ▸ hid, hsev ▸ hrank⟩
  · rintro rank ⟨b, hb, hid, rfl⟩
    obtain ⟨b', hb', hk, hsev⟩ := before b hb hid
    exact hi.severity.2 ⟨b', hb', hk ▸ hid, congrArg severityRank hsev⟩

theorem Exclusive.saveAlert {s : ControllerStore} (hs : Exclusive s) {a : Alert}
    (settles : s.alerts.Settles a)
    (alone : a.state = .firing → ∀ b, s.alerts.Stores b → b.state = .firing →
      b.ruleId = a.ruleId → b.serviceId = a.serviceId → b.alertId = a.alertId) :
    Exclusive (s.saveAlert a) where
  alerts := hs.alerts.put settles
  incidents := hs.incidents
  firing_unique := by
    have mem := @stores_saveAlert s hs.alerts a settles
    intro b c hb hc fb fc hr hx
    rcases mem.mp hb with rfl | ⟨hb', hkb⟩ <;> rcases mem.mp hc with rfl | ⟨hc', hkc⟩
    · rfl
    · exact absurd (alone fb c hc' fc hr.symm hx.symm) hkc
    · exact absurd (alone fc b hb' fb hr hx) hkb
    · exact hs.firing_unique b c hb' hc' fb fc hr hx
  active_unique := hs.active_unique

theorem Consistent.saveAlert {s : ControllerStore} (hs : Consistent s) {a : Alert}
    (h : SavableAlert s a) : Consistent (s.saveAlert a) where
  toExclusive := hs.toExclusive.saveAlert h.settles h.alone
  supported := fun i hi => (hs.supported i hi).saveAlert hs.alerts h

theorem resolvedKept_saveAlert {s : ControllerStore} (hs : s.alerts.Agrees) {a : Alert}
    (h : s.alerts.Settles a)
    (open_ : ∀ b, s.alerts.Stores b → b.alertId = a.alertId → b.state ≠ .resolved) :
    ResolvedKept s (s.saveAlert a) where
  alerts := fun b hb hr =>
    (stores_saveAlert hs h).mpr (.inr ⟨hb, fun hk => open_ b hb hk hr⟩)
  incidents := fun _ hi _ => hi

/-! ## Saving an incident -/

structure SavableIncident (s : ControllerStore) (i : Incident) : Prop where
  settles : s.incidents.Settles i
  supported : Supported s i
  alone : isActive i → ∀ j, s.incidents.Stores j → isActive j → j.serviceId = i.serviceId →
    j.incidentId = i.incidentId

theorem stores_saveIncident {s : ControllerStore} (hs : s.incidents.Agrees) {i : Incident}
    (h : s.incidents.Settles i) {j : Incident} :
    (s.saveIncident i).incidents.Stores j ↔
      j = i ∨ (s.incidents.Stores j ∧ j.incidentId ≠ i.incidentId) :=
  hs.stores_put h

theorem Exclusive.saveIncident {s : ControllerStore} (hs : Exclusive s) {i : Incident}
    (settles : s.incidents.Settles i)
    (alone : isActive i → ∀ j, s.incidents.Stores j → isActive j → j.serviceId = i.serviceId →
      j.incidentId = i.incidentId) : Exclusive (s.saveIncident i) where
  alerts := hs.alerts
  incidents := hs.incidents.put settles
  firing_unique := hs.firing_unique
  active_unique := by
    have mem := @stores_saveIncident s hs.incidents i settles
    intro j k hj hk aj ak hx
    rcases mem.mp hj with rfl | ⟨hj', hne⟩ <;> rcases mem.mp hk with rfl | ⟨hk', hne'⟩
    · rfl
    · exact absurd (alone aj k hk' ak hx.symm) hne'
    · exact absurd (alone ak j hj' aj hx) hne
    · exact hs.active_unique j k hj' hk' aj ak hx

theorem Consistent.saveIncident {s : ControllerStore} (hs : Consistent s) {i : Incident}
    (h : SavableIncident s i) : Consistent (s.saveIncident i) where
  toExclusive := hs.toExclusive.saveIncident h.settles h.alone
  supported := by
    intro j hj
    rcases (stores_saveIncident hs.incidents h.settles).mp hj with rfl | ⟨hj, _⟩
    · exact ⟨h.supported.nodup, h.supported.stored, h.supported.severity⟩
    · have hj := hs.supported j hj
      exact ⟨hj.nodup, hj.stored, hj.severity⟩

theorem resolvedKept_saveIncident {s : ControllerStore} (hs : s.incidents.Agrees) {i : Incident}
    (h : s.incidents.Settles i)
    (open_ : ∀ j, s.incidents.Stores j → j.incidentId = i.incidentId → j.state ≠ .resolved) :
    ResolvedKept s (s.saveIncident i) where
  alerts := fun _ ha _ => ha
  incidents := fun j hj hr =>
    (stores_saveIncident hs h).mpr (.inr ⟨hj, fun hk => open_ j hj hk hr⟩)

/-! ## The saves the service makes -/

section Saves

variable {s : ControllerStore}

theorem SavableAlert.of_update (hs : Consistent s) {old a : Alert} (hold : s.alerts.Stores old)
    (hkey : old.alertId = a.alertId) (hfix : alertLayout.fixed old = alertLayout.fixed a)
    (hsev : old.severity = a.severity) (hfire : a.state = .firing → old.state = .firing) :
    SavableAlert s a where
  settles := Table.settles_of_update hold hkey hfix
  severity := by
    intro b hb hk
    rw [hb.eq_of_key hold (hk.trans hkey.symm), hsev]
  alone := by
    intro ha b hb fb hr hx
    have hr' := hr.trans (congrArg AlertColumns.ruleId hfix).symm
    have hx' := hx.trans (congrArg AlertColumns.serviceId hfix).symm
    rw [hs.firing_unique b old hb hold fb (hfire ha) hr' hx', hkey]

theorem SavableAlert.of_fresh {a : Alert} (hfresh : ∀ b, s.alerts.Stores b → b.alertId ≠ a.alertId)
    (hnone : ∀ b, s.alerts.Stores b → b.ruleId = a.ruleId → b.serviceId = a.serviceId →
      b.state ≠ .firing) : SavableAlert s a where
  settles := Table.settles_of_fresh hfresh
  severity := fun b hb hk => absurd hk (hfresh b hb)
  alone := fun _ b hb fb hr hx => absurd fb (hnone b hb hr hx)

theorem SavableIncident.of_update (hs : Consistent s) {old i : Incident}
    (hold : s.incidents.Stores old) (hkey : old.incidentId = i.incidentId)
    (hfix : incidentLayout.fixed old = incidentLayout.fixed i) (hsupported : Supported s i)
    (hactive : isActive i → isActive old) : SavableIncident s i where
  settles := Table.settles_of_update hold hkey hfix
  supported := hsupported
  alone := by
    intro ha j hj aj hx
    have hx' := hx.trans (congrArg IncidentColumns.serviceId hfix).symm
    rw [hs.active_unique j old hj hold aj (hactive ha) hx', hkey]

theorem SavableIncident.of_fresh {i : Incident}
    (hfresh : ∀ j, s.incidents.Stores j → j.incidentId ≠ i.incidentId)
    (hnone : ∀ j, s.incidents.Stores j → j.serviceId = i.serviceId → isActive j = false)
    (hsupported : Supported s i) : SavableIncident s i where
  settles := Table.settles_of_fresh hfresh
  supported := hsupported
  alone := fun _ j hj aj hx => by simp [hnone j hj hx] at aj

theorem Supported.congr {i j : Incident} (h : Supported s i) (hids : j.alertIds = i.alertIds)
    (hsev : j.severity = i.severity) (hx : j.serviceId = i.serviceId) : Supported s j where
  nodup := hids ▸ h.nodup
  stored := by
    rw [hids, hx]
    exact h.stored
  severity := by
    rw [hids, hsev]
    exact h.severity

theorem supported_createIncident {a : Alert} (ha : s.alerts.Stores a) (incidentId : String)
    (report : MultiVantageReport) (now : Rat) :
    Supported s (createIncident incidentId a report now) where
  nodup := List.nodup_singleton _
  stored := by
    intro id hid
    exact ⟨a, ha, (List.mem_singleton.mp hid).symm, rfl⟩
  severity := by
    refine ⟨⟨a, ha, List.mem_singleton_self _, rfl⟩, ?_⟩
    rintro rank ⟨b, hb, hid, rfl⟩
    have hba : b = a := hb.eq_of_key ha (List.mem_singleton.mp hid)
    exact le_of_eq (congrArg (severityRank ·.severity) hba)

theorem mem_extendIncident {i : Incident} {a : Alert} {report : MultiVantageReport} {now : Rat}
    {id : String} :
    id ∈ (extendIncident i a report now).alertIds ↔ id ∈ i.alertIds ∨ id = a.alertId := by
  unfold extendIncident
  split
  case isTrue h =>
    exact ⟨.inl, fun hid => hid.elim (fun hid => hid) (fun he => he ▸ h)⟩
  case isFalse h => simp

theorem nodup_extendIncident {i : Incident} (h : i.alertIds.Nodup) (a : Alert)
    (report : MultiVantageReport) (now : Rat) :
    (extendIncident i a report now).alertIds.Nodup := by
  unfold extendIncident
  split
  case isTrue => exact h
  case isFalse hnot =>
    refine List.nodup_append.mpr ⟨h, List.nodup_singleton _, ?_⟩
    rintro id hid _ hmem rfl
    exact hnot (List.mem_singleton.mp hmem ▸ hid)

theorem Supported.extendIncident {i : Incident} (h : Supported s i) {a : Alert}
    (ha : s.alerts.Stores a) (hx : a.serviceId = i.serviceId) (report : MultiVantageReport)
    (now : Rat) : Supported s (extendIncident i a report now) where
  nodup := nodup_extendIncident h.nodup a report now
  stored := by
    intro id hid
    rcases mem_extendIncident.mp hid with hid | rfl
    · exact h.stored id hid
    · exact ⟨a, ha, rfl, hx⟩
  severity := by
    have rank : severityRank (Controller.extendIncident i a report now).severity =
        max (severityRank i.severity) (severityRank a.severity) :=
      severityRank_maxSeverity_pair _ _
    rw [rank]
    constructor
    · rcases le_total (severityRank i.severity) (severityRank a.severity) with hle | hle
      · rw [max_eq_right hle]
        exact ⟨a, ha, mem_extendIncident.mpr (.inr rfl), rfl⟩
      · rw [max_eq_left hle]
        obtain ⟨b, hb, hid, hrank⟩ := h.severity.1
        exact ⟨b, hb, mem_extendIncident.mpr (.inl hid), hrank⟩
    · rintro rank ⟨b, hb, hid, rfl⟩
      rcases mem_extendIncident.mp hid with hid | hid
      · exact le_max_of_le_left (h.severity.2 ⟨b, hb, hid, rfl⟩)
      · have hba : b = a := hb.eq_of_key ha hid
        exact le_max_of_le_right (le_of_eq (congrArg (severityRank ·.severity) hba))

end Saves

/-! ## Identifiers -/

/-- Every stored identifier was issued, so the next one is not stored. -/
structure Sound (w : World) : Prop where
  consistent : Consistent w.store
  uuid : Function.Injective w.uuid
  alertIds : ∀ a, w.store.alerts.Stores a → ∃ k < w.issued, w.uuid k = a.alertId
  incidentIds : ∀ i, w.store.incidents.Stores i → ∃ k < w.issued, w.uuid k = i.incidentId

theorem World.Initial.sound {w : World} (h : w.Initial) : Sound w where
  consistent := h.store ▸ consistent_empty
  uuid := h.uuid
  alertIds := fun a ha => by
    rw [h.store] at ha
    exact absurd ha (Table.not_stores_empty a)
  incidentIds := fun i hi => by
    rw [h.store] at hi
    exact absurd hi (Table.not_stores_empty i)

theorem Exclusive.congr {s t : ControllerStore} (h : Exclusive s) (ha : t.alerts = s.alerts)
    (hi : t.incidents = s.incidents) : Exclusive t := by
  obtain ⟨h₁, h₂, h₃, h₄⟩ := h
  refine ⟨ha ▸ h₁, hi ▸ h₂, ?_, ?_⟩
  · rw [ha]
    exact h₃
  · rw [hi]
    exact h₄

theorem Consistent.congr {s t : ControllerStore} (h : Consistent s) (ha : t.alerts = s.alerts)
    (hi : t.incidents = s.incidents) : Consistent t where
  toExclusive := h.toExclusive.congr ha hi
  supported := by
    intro i hst
    rw [hi] at hst
    obtain ⟨hn, hs, hv⟩ := h.supported i hst
    refine ⟨hn, ?_, ?_⟩
    · rw [ha]
      exact hs
    · rw [ha]
      exact hv

/-! ## Calls -/

/-- What a call of a sequential run leaves: a sound world with every resolved row
as it was. -/
def Keeps (w w' : World) : Prop := Sound w' ∧ ResolvedKept w.store w'.store

abbrev sequential : Contract controller := .solo controller Keeps

theorem Sound.perform_quiet {w : World} (h : Sound w) {c : StoreCall}
    (ha : c.touches ≠ some .alerts) (hi : c.touches ≠ some .incidents) :
    Keeps w (perform c w).2 := by
  have alerts := perform_alerts ha w
  have incidents := perform_incidents hi w
  have issued := issued_le_perform c w
  refine ⟨⟨h.consistent.congr alerts incidents, ?_, ?_, ?_⟩, ?_, ?_⟩
  · rw [perform_uuid]
    exact h.uuid
  · intro a hst
    rw [alerts] at hst
    obtain ⟨k, hk, hid⟩ := h.alertIds a hst
    exact ⟨k, hk.trans_le issued, by rw [perform_uuid, hid]⟩
  · intro i hst
    rw [incidents] at hst
    obtain ⟨k, hk, hid⟩ := h.incidentIds i hst
    exact ⟨k, hk.trans_le issued, by rw [perform_uuid, hid]⟩
  · intro a hst _
    rw [alerts]
    exact hst
  · intro i hst _
    rw [incidents]
    exact hst

theorem Sound.saveAlert {w : World} (h : Sound w) {a : Alert} (hs : SavableAlert w.store a)
    (hid : ∃ k < w.issued, w.uuid k = a.alertId) :
    Sound { w with store := w.store.saveAlert a } where
  consistent := h.consistent.saveAlert hs
  uuid := h.uuid
  alertIds := by
    intro b hb
    rcases (stores_saveAlert h.consistent.alerts hs.settles).mp hb with rfl | ⟨hb, _⟩
    · exact hid
    · exact h.alertIds b hb
  incidentIds := h.incidentIds

theorem Sound.saveIncident {w : World} (h : Sound w) {i : Incident} (hs : SavableIncident w.store i)
    (hid : ∃ k < w.issued, w.uuid k = i.incidentId) :
    Sound { w with store := w.store.saveIncident i } where
  consistent := h.consistent.saveIncident hs
  uuid := h.uuid
  alertIds := h.alertIds
  incidentIds := by
    intro j hj
    rcases (stores_saveIncident h.consistent.incidents hs.settles).mp hj with rfl | ⟨hj, _⟩
    · exact hid
    · exact h.incidentIds j hj

theorem Sound.updateAlert {w : World} (h : Sound w) {old a : Alert}
    (hold : w.store.alerts.Stores old) (hopen : old.state = .firing)
    (hkey : old.alertId = a.alertId) (hfix : alertLayout.fixed old = alertLayout.fixed a)
    (hsev : old.severity = a.severity) :
    Keeps w { w with store := w.store.saveAlert a } := by
  have hs : SavableAlert w.store a := .of_update h.consistent hold hkey hfix hsev fun _ => hopen
  refine ⟨h.saveAlert hs (hkey ▸ h.alertIds old hold), ?_⟩
  refine resolvedKept_saveAlert h.consistent.alerts hs.settles fun b hb hk => ?_
  rw [hb.eq_of_key hold (hk.trans hkey.symm), hopen]
  exact AlertState.noConfusion

theorem Sound.updateIncident {w : World} (h : Sound w) {old i : Incident}
    (hold : w.store.incidents.Stores old) (hopen : isActive old)
    (hkey : old.incidentId = i.incidentId)
    (hfix : incidentLayout.fixed old = incidentLayout.fixed i) (hsup : Supported w.store i) :
    Keeps w { w with store := w.store.saveIncident i } := by
  have hs : SavableIncident w.store i := .of_update h.consistent hold hkey hfix hsup fun _ => hopen
  refine ⟨h.saveIncident hs (hkey ▸ h.incidentIds old hold), ?_⟩
  refine resolvedKept_saveIncident h.consistent.incidents hs.settles fun j hj hk => ?_
  rw [hj.eq_of_key hold (hk.trans hkey.symm)]
  intro hr
  rw [isActive_eq_false.mpr hr] at hopen
  contradiction

/-- An identifier fresh from the source: issued, and stored nowhere. -/
structure Fresh (w : World) (id : String) : Prop where
  issued : ∃ k < w.issued, w.uuid k = id
  alerts : ∀ a, w.store.alerts.Stores a → a.alertId ≠ id
  incidents : ∀ i, w.store.incidents.Stores i → i.incidentId ≠ id

theorem Sound.fresh {w : World} (h : Sound w) :
    Fresh (perform .uuid4 w).2 (perform .uuid4 w).1 where
  issued := ⟨w.issued, Nat.lt_succ_self _, rfl⟩
  alerts := by
    intro a ha hid
    obtain ⟨k, hk, he⟩ := h.alertIds a ha
    exact hk.ne (h.uuid (he.trans hid))
  incidents := by
    intro i hi hid
    obtain ⟨k, hk, he⟩ := h.incidentIds i hi
    exact hk.ne (h.uuid (he.trans hid))

/-- A quiet method keeps the world sound and both tables as they are. -/
theorem Confined.sequential {α : Type} {resources : List Resource} {p : Method α}
    (h : Confined resources p) (ha : .alerts ∉ resources) (hi : .incidents ∉ resources)
    {w : World} (hw : Sound w) (log : List (Event controller)) :
    p.Safe sequential (fun _ _ t => Sound t ∧ t.store.alerts = w.store.alerts ∧
      t.store.incidents = w.store.incidents) log w := by
  refine Program.Calls.safe (fun s t (he : s = t) hs => he ▸ hs) (fun c s hc hs => ?_) h
    ⟨hw, rfl, rfl⟩
  have hca : c.touches ≠ some .alerts := fun he => ha (hc _ he)
  have hci : c.touches ≠ some .incidents := fun he => hi (hc _ he)
  have keeps := hs.1.perform_quiet hca hci
  exact ⟨keeps, keeps.1, (perform_alerts hca s).trans hs.2.1,
    (perform_incidents hci s).trans hs.2.2⟩

/-! ## Methods -/

/-- The alert a rule fires: stored, firing, of the report's service. -/
theorem fireRule_sequential (rule : AlertRule) (report : MultiVantageReport) (now : Rat)
    (regression : Bool) {w : World} (hw : Sound w) (log : List (Event controller)) :
    (fireRule rule report now regression).Safe sequential
      (fun _ a t => Sound t ∧ t.store.alerts.Stores a ∧ a.serviceId = report.serviceId) log w := by
  refine .solo_request ⟨hw, .refl _⟩ ?_
  cases h : w.store.findFiringAlert rule.ruleId report.serviceId with
  | some found =>
      obtain ⟨hst, hr, hx, hf⟩ :=
        ControllerStore.findFiringAlert_eq_some hw.consistent.alerts h
      have keeps :=
        hw.updateAlert (a := refreshAlert found report now regression) hst hf rfl rfl rfl
      simp only [perform, h]
      refine .solo_request keeps (.solo_done ⟨keeps.1, ?_, hx⟩)
      have settles : w.store.alerts.Settles (refreshAlert found report now regression) :=
        Table.settles_of_update hst rfl rfl
      exact (stores_saveAlert hw.consistent.alerts settles).mpr (.inl rfl)
  | none =>
      have none_firing := (ControllerStore.findFiringAlert_eq_none hw.consistent.alerts).mp h
      simp only [perform, h]
      have issued := hw.perform_quiet (c := .uuid4) (by decide) (by decide)
      have fresh := hw.fresh
      refine .solo_request issued ?_
      have savable : SavableAlert (perform .uuid4 w).2.store
          (buildAlert (perform .uuid4 w).1 rule report now regression) :=
        .of_fresh fresh.alerts none_firing
      have sound := issued.1.saveAlert savable fresh.issued
      refine .solo_request ⟨sound, ?_⟩ (.solo_done ⟨sound, ?_, rfl⟩)
      · exact resolvedKept_saveAlert issued.1.consistent.alerts savable.settles
          fun b hb hk => absurd hk (fresh.alerts b hb)
      · exact (stores_saveAlert issued.1.consistent.alerts savable.settles).mpr (.inl rfl)

theorem attachToIncident_sequential {alert : Alert} (report : MultiVantageReport) (now : Rat)
    {w : World} (hw : Sound w) (halert : w.store.alerts.Stores alert)
    (log : List (Event controller)) :
    (attachToIncident alert report now).Safe sequential (fun _ _ t => Sound t) log w := by
  refine .solo_request ⟨hw, .refl _⟩ ?_
  cases h : w.store.findActiveIncident alert.serviceId with
  | some found =>
      obtain ⟨hst, hx, hactive⟩ :=
        ControllerStore.findActiveIncident_eq_some hw.consistent.incidents h
      have supported := (hw.consistent.supported found hst).extendIncident halert hx.symm report now
      have keeps :=
        hw.updateIncident (i := extendIncident found alert report now) hst hactive rfl rfl supported
      simp only [perform, h]
      exact .solo_request keeps (.solo_done keeps.1)
  | none =>
      have none_active := (ControllerStore.findActiveIncident_eq_none hw.consistent.incidents).mp h
      simp only [perform, h]
      have issued := hw.perform_quiet (c := .uuid4) (by decide) (by decide)
      have fresh := hw.fresh
      refine .solo_request issued ?_
      have savable : SavableIncident (perform .uuid4 w).2.store
          (createIncident (perform .uuid4 w).1 alert report now) :=
        .of_fresh fresh.incidents none_active (supported_createIncident halert _ report now)
      have sound := issued.1.saveIncident savable fresh.issued
      refine .solo_request ⟨sound, ?_⟩ (.solo_done sound)
      exact resolvedKept_saveIncident issued.1.consistent.incidents savable.settles
        fun j hj hk => absurd hk (fresh.incidents j hj)

structure AlertsPending (w : World) (pending : List Alert) : Prop where
  sound : Sound w
  nodup : (pending.map (·.alertId)).Nodup
  stored : ∀ a ∈ pending, w.store.alerts.Stores a ∧ a.state = .firing

theorem AlertsPending.step {w : World} {a : Alert} {pending : List Alert}
    (h : AlertsPending w (a :: pending)) (now : Rat) :
    Keeps w { w with store := w.store.saveAlert (resolveAlert a now) } ∧
      AlertsPending { w with store := w.store.saveAlert (resolveAlert a now) } pending := by
  obtain ⟨hst, hf⟩ := h.stored a (by simp)
  obtain ⟨hnot, htail⟩ := List.nodup_cons.mp h.nodup
  have keeps := h.sound.updateAlert (a := resolveAlert a now) hst hf rfl rfl rfl
  have settles : w.store.alerts.Settles (resolveAlert a now) := Table.settles_of_update hst rfl rfl
  refine ⟨keeps, keeps.1, htail, fun b hb => ⟨?_, (h.stored b (by simp [hb])).2⟩⟩
  refine (stores_saveAlert h.sound.consistent.alerts settles).mpr
    (.inr ⟨(h.stored b (by simp [hb])).1, fun he => hnot ?_⟩)
  exact List.mem_map.mpr ⟨b, hb, he⟩

/-- Incidents still to be looked at are stored as listed. -/
structure IncidentsPending (w : World) (pending : List Incident) : Prop where
  sound : Sound w
  nodup : (pending.map (·.incidentId)).Nodup
  stored : ∀ i ∈ pending, w.store.incidents.Stores i

theorem IncidentsPending.step {w : World} {i : Incident} {pending : List Incident}
    (h : IncidentsPending w (i :: pending)) (hactive : isActive i) (now : Rat) :
    Keeps w { w with store := w.store.saveIncident (closeIncident i now) } ∧
      IncidentsPending { w with store := w.store.saveIncident (closeIncident i now) } pending := by
  have hst := h.stored i (by simp)
  obtain ⟨hnot, htail⟩ := List.nodup_cons.mp h.nodup
  have supported : Supported w.store (closeIncident i now) :=
    (h.sound.consistent.supported i hst).congr rfl rfl rfl
  have keeps := h.sound.updateIncident (i := closeIncident i now) hst hactive rfl rfl supported
  have settles : w.store.incidents.Settles (closeIncident i now) :=
    Table.settles_of_update hst rfl rfl
  refine ⟨keeps, keeps.1, htail, fun j hj => ?_⟩
  refine (stores_saveIncident h.sound.consistent.incidents settles).mpr
    (.inr ⟨h.stored j (by simp [hj]), fun he => hnot ?_⟩)
  exact List.mem_map.mpr ⟨j, hj, he⟩

theorem resolveService_sequential (serviceId : Option String) (now : Rat) {w : World}
    (hw : Sound w) (log : List (Event controller)) :
    (resolveService serviceId now).Safe sequential (fun _ _ t => Sound t) log w := by
  refine .solo_request ⟨hw, .refl _⟩ (.bind ?_)
  have pending : AlertsPending w (w.store.listAlerts serviceId (some .firing)) := by
    refine ⟨hw, ControllerStore.listAlerts_nodup hw.consistent.alerts _ _, fun a ha => ?_⟩
    obtain ⟨hst, _, hf⟩ := ControllerStore.mem_listAlerts hw.consistent.alerts ha
    exact ⟨hst, hf _ rfl⟩
  refine .mono (Q := fun _ _ t => Sound t)
    (.fold (fun _ _ xs t => AlertsPending t xs) ?_ ?_ pending) ?_
  · intro log _ a xs t ht
    exact .solo_call (ht.step now).1 (.solo_done (ht.step now).2)
  · exact fun log _ t ht => .solo_done ht.sound
  · intro log _ t ht
    refine .solo_request ⟨ht, .refl _⟩ ?_
    have pending : IncidentsPending t (t.store.listIncidents serviceId none) :=
      ⟨ht, ControllerStore.listIncidents_nodup ht.consistent.incidents _ _,
        fun i hi => (ControllerStore.mem_listIncidents ht.consistent.incidents hi).1⟩
    refine .fold (fun _ _ xs t => IncidentsPending t xs) ?_ ?_ pending
    · intro log acc i xs t ht
      split
      case isTrue ha => exact .solo_request (ht.step ha now).1 (.solo_done (ht.step ha now).2)
      case isFalse =>
        exact .solo_done ⟨ht.sound, (List.nodup_cons.mp ht.nodup).2,
          fun j hj => ht.stored j (by simp [hj])⟩
    · exact fun log _ t ht => .solo_done ht.sound

theorem processDiagnosis_sequential (report : MultiVantageReport) (now : Rat) {w : World}
    (hw : Sound w) (log : List (Event controller)) :
    (processDiagnosis report now).Safe sequential (fun _ _ t => Sound t) log w := by
  refine .bind
    (((recordServiceBaseline_confined report).sequential (by simp) (by simp) hw log).mono ?_)
  rintro log regression t ⟨ht, -, -⟩
  split
  · exact .bind ((resolveService_sequential report.serviceId now ht log).mono
      fun _ _ _ hu => .solo_done hu)
  · refine .solo_request ⟨ht, .refl _⟩ (.fold (fun _ _ _ t => Sound t) ?_ ?_ ht)
    · intro log outcome rule rules t ht
      refine .bind ((fireRule_sequential rule report now _ ht log).mono ?_)
      rintro log alert t ⟨ht, hst, -⟩
      exact .bind ((attachToIncident_sequential report now ht hst log).mono
        fun _ _ _ hu => .solo_done hu)
    · exact fun log outcome t ht => .solo_done ht

/-- Acknowledging and resolving overwrite an active incident in its alerts,
severity and service. -/
theorem updateIncident_sequential (update : Incident → Rat → Incident)
    (same : ∀ i now, (update i now).incidentId = i.incidentId ∧
      incidentLayout.fixed (update i now) = incidentLayout.fixed i ∧
      (update i now).alertIds = i.alertIds ∧ (update i now).severity = i.severity)
    (incidentId : String) (now : Rat) {w : World} (hw : Sound w) (log : List (Event controller)) :
    (updateIncident update incidentId now).Safe sequential (fun _ _ t => Sound t) log w := by
  refine .bind (.solo_request ⟨hw, .refl _⟩ ?_)
  simp only [perform]
  cases h : w.store.getIncident incidentId with
  | none => exact .solo_done (.solo_done hw)
  | some i =>
      obtain ⟨hst, -⟩ := (ControllerStore.getIncident_eq_some hw.consistent.incidents).mp h
      refine .solo_done ?_
      simp only
      split
      case isTrue => exact .solo_done hw
      case isFalse hopen =>
        obtain ⟨hkey, hfix, hids, hsev⟩ := same i now
        have hactive : isActive i := by
          rw [← Bool.not_eq_false, isActive_eq_false]
          exact hopen
        have supported := (hw.consistent.supported i hst).congr hids hsev
          (congrArg IncidentColumns.serviceId hfix)
        have keeps := hw.updateIncident hst hactive hkey.symm hfix.symm supported
        exact .solo_request keeps (.solo_done keeps.1)

/-! ## Operations and runs -/

theorem runSchedule_sequential (now : Rat) (reports : List MultiVantageReport)
    (schedule : ScheduleEntry) {w : World} (hw : Sound w) (log : List (Event controller)) :
    (runSchedule now reports schedule).Safe sequential (fun _ _ t => Sound t) log w := by
  have quiet : ∀ e t, Sound t → Keeps t (perform (.upsertSchedule e) t).2 := fun e t ht =>
    ht.perform_quiet (by simp [StoreCall.touches]) (by simp [StoreCall.touches])
  refine .bind (((diagnoseService_confined _).sequential (by simp) (by simp) hw log).mono ?_)
  rintro log result t ⟨ht, -, -⟩
  cases result with
  | error e => exact .solo_request (quiet _ t ht) (.solo_done (quiet _ t ht).1)
  | ok report =>
      refine .bind ((processDiagnosis_sequential report now ht log).mono fun log _ u hu => ?_)
      exact .solo_request (quiet _ u hu) (.solo_done (quiet _ u hu).1)

theorem Operation.sequential (op : Operation) {w : World} (hw : Sound w)
    (log : List (Event controller)) :
    op.method.Safe Controller.sequential (fun _ _ t => Sound t) log w := by
  have finish : ∀ {α : Type} {p : Method α},
      p.Safe Controller.sequential (fun _ _ t => Sound t) log w →
      (discard p).Safe Controller.sequential (fun _ _ t => Sound t) log w :=
    fun h => .bind (h.mono fun _ _ _ ht => .solo_done ht)
  have quiet : op.isQuiet = true →
      op.method.Safe Controller.sequential (fun _ _ t => Sound t) log w := by
    intro hquiet
    obtain ⟨α, p, hmethod, hp⟩ := Operation.quiet_confined hquiet
    have hsafe := hp.sequential (by decide) (by decide) hw log
    rw [hmethod]
    exact finish (hsafe.mono fun _ _ _ ht => ht.1)
  cases op with
  | runDueSchedules now =>
      refine finish (.solo_request ⟨hw, .refl _⟩ (.fold (fun _ _ _ t => Sound t) ?_ ?_ hw))
      · exact fun log reports schedule _ t ht => runSchedule_sequential now reports schedule ht log
      · exact fun log _ t ht => .solo_done ht
  | processDiagnosis report now => exact finish (processDiagnosis_sequential report now hw log)
  | acknowledgeIncident incidentId now =>
      exact finish
        (updateIncident_sequential acknowledge (fun _ _ => ⟨rfl, rfl, rfl, rfl⟩) incidentId now hw
          log)
  | resolveIncident incidentId now =>
      exact finish
        (updateIncident_sequential closeIncident (fun _ _ => ⟨rfl, rfl, rfl, rfl⟩) incidentId now hw
          log)
  | _ => exact quiet rfl

theorem Keeps.refl {w : World} (h : Sound w) : Keeps w w := ⟨h, .refl _⟩

theorem Keeps.trans {u v w : World} (h : Keeps u v) (h' : Keeps v w) : Keeps u w :=
  ⟨h'.1, h.2.trans h'.2⟩

/-- A method that is safe alone keeps the world sound from call to call. -/
theorem Keeps.of_safe {α : Type} {p : Method α} {w : World} (hw : Sound w)
    (h : p.Safe sequential (fun _ _ t => Sound t) [] w) : Keeps w (p.run w).2 := by
  have steps := (h.run fun _ _ _ => trivial).2
  generalize (p.run w).2 = w' at steps
  induction steps with
  | refl => exact .refl hw
  | tail _ step ih => exact ih.trans step

theorem Sound.runOperations {w : World} (hw : Sound w) (ops : List Operation) :
    Keeps w (runOperations w ops) := by
  induction ops generalizing w with
  | nil => exact .refl hw
  | cons op ops ih =>
      have step : Keeps w (op.method.run w).2 := .of_safe hw (op.sequential hw [])
      exact step.trans (ih step.1)

/-- Whatever operations ran, in whatever order: the tables are consistent, and no
later operation changes a resolved alert or incident. -/
theorem runOperations_consistent {w : World} (hw : w.Initial) (ops later : List Operation) :
    Consistent (runOperations w ops).store ∧
      ResolvedKept (runOperations w ops).store (runOperations w (ops ++ later)).store := by
  have first := hw.sound.runOperations ops
  refine ⟨first.1.consistent, ?_⟩
  rw [runOperations_append]
  exact (first.1.runOperations later).2

/-- An outage leaves one firing alert in one open incident; the recovery resolves
both. -/
theorem runOperations_consistent_outage :
    let ops : List Operation :=
      [.registerAlertRule Sample.rule, .processDiagnosis (Sample.report (some "db") .failed) 1,
        .processDiagnosis (Sample.report (some "db") .failed) 2]
    let later : List Operation := [.processDiagnosis (Sample.report (some "db") .healthy) 3]
    ((runOperations Sample.world ops).store.incidents.documents.map (·.alertIds.length) = [1]) ∧
      Consistent (runOperations Sample.world ops).store ∧
      ResolvedKept (runOperations Sample.world ops).store
        (runOperations Sample.world (ops ++ later)).store :=
  ⟨by decide +kernel, runOperations_consistent Sample.world_initial _ _⟩

end NetForge.Controller
