import NetForge.Controller.Resolution

/-! # Incidents under concurrent operations

Every update of an incident reads the whole document, changes it and writes it
back whole. Interleaved at single store calls, updates can be lost; they are not in
any run where no write hits an incident that was resolved, or was given an
alert, after the writing call read it.
-/

namespace NetForge.Controller

open Calculus NetForge.Core Analysis

def incidentsRead : Event controller → Option (List Incident)
  | ⟨.getIncident _, reply⟩ => some (Option.toList reply)
  | ⟨.listIncidents _ _, reply⟩ => some reply
  | ⟨.findActiveIncident _, reply⟩ => some (Option.toList reply)
  | _ => none

/-- What a call's most recent incident read said about an incident. -/
def lastRead (incidentId : String) (log : List (Event controller)) : Option Incident :=
  (log.findSome? incidentsRead).bind (·.find? (·.incidentId = incidentId))

theorem lastRead_getIncident {i : Incident} (log : List (Event controller)) :
    lastRead i.incidentId (⟨.getIncident i.incidentId, some i⟩ :: log) = some i := by
  change [i].find? (·.incidentId = i.incidentId) = some i
  simp

theorem lastRead_findActiveIncident (serviceId : Option String) (i : Incident)
    (log : List (Event controller)) :
    lastRead i.incidentId (⟨.findActiveIncident serviceId, some i⟩ :: log) = some i := by
  change [i].find? (·.incidentId = i.incidentId) = some i
  simp

theorem lastRead_listIncidents {serviceId : Option String} {state : Option IncidentState}
    {reply : List Incident} (nodup : (reply.map (·.incidentId)).Nodup) {i : Incident}
    (hi : i ∈ reply) (log : List (Event controller)) :
    lastRead i.incidentId (⟨.listIncidents serviceId state, reply⟩ :: log) = some i := by
  change reply.find? (·.incidentId = i.incidentId) = some i
  cases h : reply.find? (·.incidentId = i.incidentId) with
  | none => exact absurd (decide_eq_true rfl) (List.find?_eq_none.mp h i hi)
  | some j =>
      have hk : j.incidentId = i.incidentId := by simpa using List.find?_some h
      rw [List.inj_on_of_nodup_map nodup (List.mem_of_find?_eq_some h) hi hk]

/-- The stored incident `j` has not moved past what was read before writing `i`:
it gained no alert, and unless `i` itself resolves it, it was not resolved. -/
def readCurrent (read i j : Incident) : Bool :=
  (i.state = .resolved || j.state ≠ .resolved || read.state = .resolved) &&
    j.alertIds.all (· ∈ read.alertIds)

/-- A write over a stored incident finds it as the writing call last read it. -/
def UndisturbedIncident (log : List (Event controller)) (c : StoreCall) (w : World) : Prop :=
  ∀ i ∈ c.savedIncident, ∀ j ∈ w.store.incidents.documents, j.incidentId = i.incidentId →
    (lastRead i.incidentId log).any (readCurrent · i j)

instance (log : List (Event controller)) (c : StoreCall) (w : World) :
    Decidable (UndisturbedIncident log c w) :=
  inferInstanceAs (Decidable (∀ i ∈ c.savedIncident, ∀ j ∈ w.store.incidents.documents,
    j.incidentId = i.incidentId → (lastRead i.incidentId log).any (readCurrent · i j)))

/-- Incidents stay stored, keep their alerts, and stay resolved once they are. -/
def Grows (s t : ControllerStore) : Prop :=
  ∀ i, s.incidents.Stores i → ∃ i', t.incidents.Stores i' ∧ i'.incidentId = i.incidentId ∧
    incidentLayout.fixed i' = incidentLayout.fixed i ∧ (∀ id ∈ i.alertIds, id ∈ i'.alertIds) ∧
    (i.state = .resolved → i'.state = .resolved)

theorem Grows.refl (s : ControllerStore) : Grows s s :=
  fun i hi => ⟨i, hi, rfl, rfl, fun _ h => h, fun h => h⟩

theorem Grows.trans {s t u : ControllerStore} (h : Grows s t) (h' : Grows t u) : Grows s u := by
  intro i hi
  obtain ⟨i', hi', hk, hx, hids, hr⟩ := h i hi
  obtain ⟨i'', hi'', hk', hx', hids', hr'⟩ := h' i' hi'
  exact ⟨i'', hi'', hk'.trans hk, hx'.trans hx, fun id hid => hids' id (hids id hid),
    fun hres => hr' (hr hres)⟩

def pooled : Contract controller :=
  .invariant controller (fun w => w.store.incidents.Agrees) (fun w w' => Grows w.store w'.store)
    UndisturbedIncident (fun w => .refl w.store) (fun _ _ _ => .trans)

instance (log : List (Event controller)) (c : StoreCall) (w : World) :
    Decidable (pooled.admits log c w) :=
  inferInstanceAs (Decidable (UndisturbedIncident log c w))

/-! ## Writes -/

/-- An incident that was read is still stored, whatever became of its contents. -/
def Known (i : Incident) (s : ControllerStore) : Prop :=
  ∃ i', s.incidents.Stores i' ∧ i'.incidentId = i.incidentId ∧
    incidentLayout.fixed i' = incidentLayout.fixed i

theorem Known.of_stores {i : Incident} {s : ControllerStore} (h : s.incidents.Stores i) :
    Known i s := ⟨i, h, rfl, rfl⟩

theorem Known.grows {i : Incident} {s t : ControllerStore} (h : Known i s) (hst : Grows s t) :
    Known i t := by
  obtain ⟨j, hj, hk, hx⟩ := h
  obtain ⟨j', hj', hk', hx', _⟩ := hst j hj
  exact ⟨j', hj', hk'.trans hk, hx'.trans hx⟩

theorem grows_saveIncident {s : ControllerStore} (hs : s.incidents.Agrees) {i : Incident}
    (settles : s.incidents.Settles i)
    (keeps : ∀ j, s.incidents.Stores j → j.incidentId = i.incidentId →
      (∀ id ∈ j.alertIds, id ∈ i.alertIds) ∧ (j.state = .resolved → i.state = .resolved)) :
    (s.saveIncident i).incidents.Agrees ∧ Grows s (s.saveIncident i) := by
  refine ⟨hs.put settles, fun j hj => ?_⟩
  have mem := @stores_saveIncident s hs i settles
  by_cases hk : j.incidentId = i.incidentId
  · obtain ⟨hids, hr⟩ := keeps j hj hk
    exact ⟨i, mem.mpr (.inl rfl), hk.symm, (settles j hj hk).symm, hids, hr⟩
  · exact ⟨j, mem.mpr (.inr ⟨hj, hk⟩), rfl, rfl, fun _ h => h, fun h => h⟩

/-- Writing back an incident that was read, with its alerts and, if it was
resolved, still resolved. -/
theorem grows_update {w : World} (hw : w.store.incidents.Agrees) {log : List (Event controller)}
    {read i : Incident} (hread : lastRead i.incidentId log = some read) (known : Known read w.store)
    (hkey : read.incidentId = i.incidentId)
    (hfix : incidentLayout.fixed read = incidentLayout.fixed i)
    (hids : ∀ id ∈ read.alertIds, id ∈ i.alertIds)
    (hres : read.state = .resolved → i.state = .resolved)
    (undisturbed : UndisturbedIncident log (.saveIncident i) w) :
    (w.store.saveIncident i).incidents.Agrees ∧ Grows w.store (w.store.saveIncident i) := by
  obtain ⟨stored, hst, hk, hx⟩ := known
  refine grows_saveIncident hw
    (Table.settles_of_update hst (hk.trans hkey) (hx.trans hfix)) fun j hj hkj => ?_
  have same := undisturbed i rfl j (hw.mem_documents.mpr hj) hkj
  rw [hread, Option.any_some, readCurrent, Bool.and_eq_true] at same
  obtain ⟨hstate, halerts⟩ := same
  refine ⟨fun id hid => hids id (by simpa using List.all_eq_true.mp halerts id hid), fun hr => ?_⟩
  simp only [hr, Bool.or_eq_true, decide_eq_true_eq, ne_eq, not_true, decide_false,
    Bool.false_eq_true, or_false] at hstate
  exact hstate.elim (fun h => h) hres

/-- Writing an incident that the last read did not return: nothing is overwritten. -/
theorem grows_insert {w : World} (hw : w.store.incidents.Agrees) {log : List (Event controller)}
    {i : Incident} (hread : lastRead i.incidentId log = none)
    (undisturbed : UndisturbedIncident log (.saveIncident i) w) :
    (w.store.saveIncident i).incidents.Agrees ∧ Grows w.store (w.store.saveIncident i) := by
  have fresh : ∀ j, w.store.incidents.Stores j → j.incidentId ≠ i.incidentId := by
    intro j hj hk
    have read := undisturbed i rfl j (hw.mem_documents.mpr hj) hk
    rw [hread] at read
    contradiction
  exact grows_saveIncident hw (Table.settles_of_fresh fresh) fun j hj hk => absurd hk (fresh j hj)

/-! ## Methods -/

theorem pooled_quiet {c : StoreCall} (hc : c.touches ≠ some .incidents) {w : World}
    (hw : w.store.incidents.Agrees) :
    (perform c w).2.store.incidents.Agrees ∧ Grows w.store (perform c w).2.store := by
  have same := perform_incidents hc w
  refine ⟨same ▸ hw, fun i hi => ⟨i, ?_, rfl, rfl, fun _ h => h, fun h => h⟩⟩
  rw [same]
  exact hi

abbrev Settled {α : Type} : List (Event controller) → α → World → Prop :=
  fun _ _ w => w.store.incidents.Agrees

theorem Confined.pooled {α : Type} {resources : List Resource} {p : Method α}
    (h : Confined resources p) (hi : .incidents ∉ resources) {w : World}
    (hw : w.store.incidents.Agrees) (log : List (Event controller)) :
    p.Safe pooled Settled log w := by
  refine Program.Calls.safe (fun s t hst hs => (hst hs).1) (fun c s hc hs => ?_) h hw
  have keeps := pooled_quiet (fun he => hi (hc _ he)) hs
  exact ⟨fun _ => keeps, keeps.1⟩

theorem attachToIncident_pooled (alert : Alert) (report : MultiVantageReport) (now : Rat)
    {w : World} (hw : w.store.incidents.Agrees) (log : List (Event controller)) :
    (attachToIncident alert report now).Safe pooled Settled log w := by
  refine .inv_request hw fun w₁ hw₁ _ _ => ⟨hw₁, .refl _, ?_⟩
  cases h : w₁.store.findActiveIncident alert.serviceId with
  | some found =>
      obtain ⟨hst, -, hactive⟩ := ControllerStore.findActiveIncident_eq_some hw₁ h
      simp only [perform, h]
      refine .inv_request hw₁ fun w₂ hw₂ h₁₂ undisturbed => ?_
      have keeps := grows_update hw₂ (i := extendIncident found alert report now)
        (lastRead_findActiveIncident _ found log) ((Known.of_stores hst).grows h₁₂) rfl rfl
        (fun id hid => mem_extendIncident.mpr (.inl hid)) (fun hr => hr) undisturbed
      exact ⟨keeps.1, keeps.2, .inv_done keeps.1 fun _ ht _ => ht⟩
  | none =>
      simp only [perform, h]
      refine .inv_request hw₁ fun w₂ hw₂ _ _ => ⟨hw₂, .refl _, ?_⟩
      refine .inv_request hw₂ fun w₃ hw₃ _ undisturbed => ?_
      have keeps := grows_insert hw₃ rfl undisturbed
      exact ⟨keeps.1, keeps.2, .inv_done keeps.1 fun _ ht _ => ht⟩

theorem updateIncident_pooled (update : Incident → Rat → Incident)
    (same : ∀ i now, (update i now).incidentId = i.incidentId ∧
      incidentLayout.fixed (update i now) = incidentLayout.fixed i ∧
      (update i now).alertIds = i.alertIds)
    (incidentId : String) (now : Rat) {w : World} (hw : w.store.incidents.Agrees)
    (log : List (Event controller)) :
    (updateIncident update incidentId now).Safe pooled Settled log w := by
  refine .bind (.inv_request hw fun w₁ hw₁ _ _ => ⟨hw₁, .refl _, ?_⟩)
  simp only [perform]
  cases h : w₁.store.getIncident incidentId with
  | none => exact .inv_done hw₁ fun _ ht _ => .inv_done ht fun _ hu _ => hu
  | some i =>
      obtain ⟨hst, rfl⟩ := (ControllerStore.getIncident_eq_some hw₁).mp h
      refine .inv_done hw₁ fun w₂ hw₂ h₁₂ => ?_
      simp only
      split
      case isTrue => exact .inv_done hw₂ fun _ ht _ => ht
      case isFalse hopen =>
        obtain ⟨hkey, hfix, hids⟩ := same i now
        refine .inv_request hw₂ fun w₃ hw₃ h₂₃ undisturbed => ?_
        have keeps := grows_update hw₃ (i := update i now)
          ((congrArg (lastRead · _) hkey).trans (lastRead_getIncident log))
          ((Known.of_stores hst).grows (h₁₂.trans h₂₃)) hkey.symm hfix.symm
          (fun id hid => hids ▸ hid) (fun hr => absurd hr hopen) undisturbed
        exact ⟨keeps.1, keeps.2, .inv_done keeps.1 fun _ ht _ => ht⟩

/-- Incidents still to be looked at were all in the last read. -/
def ReadPending (log : List (Event controller)) (pending : List Incident) (w : World) : Prop :=
  w.store.incidents.Agrees ∧
    ∀ i ∈ pending, lastRead i.incidentId log = some i ∧ Known i w.store

theorem resolveService_pooled (serviceId : Option String) (now : Rat) {w : World}
    (hw : w.store.incidents.Agrees) (log : List (Event controller)) :
    (resolveService serviceId now).Safe pooled Settled log w := by
  refine .inv_request hw fun w₁ hw₁ _ _ => ⟨hw₁, .refl _, .bind ?_⟩
  have saves : Confined [.alerts] (Program.fold
      (fun (_ : Unit) a => call (.saveAlert (resolveAlert a now))) ()
      (w₁.store.listAlerts serviceId (some .firing))) :=
    .fold (fun _ _ => .write rfl (by simp) fun _ => .pure _) _ _
  refine (saves.pooled (by simp) hw₁ _).mono fun log _ w₂ hw₂ => ?_
  refine .inv_request hw₂ fun w₃ hw₃ _ _ => ⟨hw₃, .refl _, ?_⟩
  have pending : ReadPending
      (⟨.listIncidents serviceId none, w₃.store.listIncidents serviceId none⟩ :: log)
      (w₃.store.listIncidents serviceId none) w₃ := by
    refine ⟨hw₃, fun i hi => ⟨?_, .of_stores (ControllerStore.mem_listIncidents hw₃ hi).1⟩⟩
    exact lastRead_listIncidents (ControllerStore.listIncidents_nodup hw₃ _ _) hi log
  refine .fold (fun log _ xs w => ReadPending log xs w) ?_ ?_ pending
  · rintro log acc i xs w ⟨hw, hpending⟩
    split
    case isTrue =>
      refine .inv_request hw fun w₁ hw₁ h₁ undisturbed => ?_
      obtain ⟨hread, known⟩ := hpending i (by simp)
      have keeps := grows_update hw₁ (i := closeIncident i now) hread (known.grows h₁) rfl rfl
        (fun _ h => h) (fun _ => rfl) undisturbed
      refine ⟨keeps.1, keeps.2, .inv_done keeps.1 fun t ht h₂ => ⟨ht, fun j hj => ?_⟩⟩
      obtain ⟨hread, known⟩ := hpending j (by simp [hj])
      exact ⟨hread, (known.grows h₁).grows (keeps.2.trans h₂)⟩
    case isFalse =>
      refine .inv_done hw fun t ht h₁ => ⟨ht, fun j hj => ?_⟩
      obtain ⟨hread, known⟩ := hpending j (by simp [hj])
      exact ⟨hread, known.grows h₁⟩
  · exact fun log _ w hw => .inv_done hw.1 fun _ ht _ => ht

theorem processDiagnosis_pooled (report : MultiVantageReport) (now : Rat) {w : World}
    (hw : w.store.incidents.Agrees) (log : List (Event controller)) :
    (processDiagnosis report now).Safe pooled Settled log w := by
  refine .bind (((recordServiceBaseline_confined report).pooled (by simp) hw log).mono
    fun log regression w₁ hw₁ => ?_)
  split
  · exact .bind ((resolveService_pooled report.serviceId now hw₁ log).mono
      fun _ _ _ ht => .inv_done ht fun _ hu _ => hu)
  · refine .inv_request hw₁ fun w₂ hw₂ _ _ => ⟨hw₂, .refl _, ?_⟩
    refine .fold (fun _ _ _ => fun w => w.store.incidents.Agrees) ?_ ?_ hw₂
    · intro log outcome rule rules w hw
      refine .bind (((fireRule_confined rule report now _).pooled (by simp) hw log).mono
        fun log alert w hw => .bind ((attachToIncident_pooled alert report now hw log).mono
          fun _ _ _ ht => .inv_done ht fun _ hu _ => hu))
    · exact fun log _ w hw => .inv_done hw fun _ ht _ => ht

theorem runSchedule_pooled (now : Rat) (reports : List MultiVantageReport)
    (schedule : ScheduleEntry) {w : World} (hw : w.store.incidents.Agrees)
    (log : List (Event controller)) :
    (runSchedule now reports schedule).Safe pooled Settled log w := by
  have advance : ∀ (e : ScheduleEntry) (out : List MultiVantageReport) (w : World)
      (log : List (Event controller)), w.store.incidents.Agrees →
      (call (.upsertSchedule e) >>= fun _ => Program.done out).Safe pooled Settled log w :=
    fun e out w log hw => .inv_request hw fun w₁ hw₁ _ _ =>
      ⟨hw₁, fun i hi => ⟨i, hi, rfl, rfl, fun _ h => h, fun h => h⟩,
        .inv_done hw₁ fun _ ht _ => ht⟩
  refine .bind (((diagnoseService_confined _).pooled (by simp) hw log).mono
    fun log result w₁ hw₁ => ?_)
  cases result with
  | error e => exact advance _ _ _ _ hw₁
  | ok report =>
      exact .bind ((processDiagnosis_pooled report now hw₁ log).mono
        fun _ _ _ hw₂ => advance _ _ _ _ hw₂)

theorem Operation.pooled (op : Operation) {w : World} (hw : w.store.incidents.Agrees)
    (log : List (Event controller)) : op.method.Safe Controller.pooled Settled log w := by
  have finish : ∀ {α : Type} {p : Method α}, p.Safe Controller.pooled Settled log w →
      (discard p).Safe Controller.pooled Settled log w :=
    fun h => .bind (h.mono fun _ _ _ ht => .inv_done ht fun _ hu _ => hu)
  have quiet : op.isQuiet = true → op.method.Safe Controller.pooled Settled log w := by
    intro hquiet
    obtain ⟨α, p, hmethod, hp⟩ := Operation.quiet_confined hquiet
    rw [hmethod]
    exact finish (hp.pooled (by decide) hw log)
  cases op with
  | runDueSchedules now =>
      refine finish (.inv_request hw fun w₁ hw₁ _ _ => ⟨hw₁, .refl _, ?_⟩)
      refine .fold (fun _ _ _ => fun w => w.store.incidents.Agrees) ?_ ?_ hw₁
      · exact fun log reports schedule _ w hw => runSchedule_pooled now reports schedule hw log
      · exact fun log _ w hw => .inv_done hw fun _ ht _ => ht
  | processDiagnosis report now => exact finish (processDiagnosis_pooled report now hw log)
  | acknowledgeIncident incidentId now =>
      exact finish
        (updateIncident_pooled acknowledge (fun _ _ => ⟨rfl, rfl, rfl⟩) incidentId now hw log)
  | resolveIncident incidentId now =>
      exact finish
        (updateIncident_pooled closeIncident (fun _ _ => ⟨rfl, rfl, rfl⟩) incidentId now hw log)
  | _ => exact quiet rfl

/-! ## Runs -/

section Runs

variable {ι : Type} [DecidableEq ι]

def startPool (pool : ι → Operation) (w : World) : Config ι controller Unit :=
  .start (fun i => (pool i).method) w

/-- What a client can rely on between two points of a run: an incident that was
resolved is, and no alert has left an incident. -/
structure IncidentsKept (s t : ControllerStore) : Prop where
  resolved : ∀ i ∈ s.incidents.documents, i.state = .resolved →
    ∃ i' ∈ t.incidents.documents, i'.incidentId = i.incidentId ∧ i'.state = .resolved
  alertIds : ∀ i ∈ s.incidents.documents,
    ∃ i' ∈ t.incidents.documents, i'.incidentId = i.incidentId ∧ ∀ id ∈ i.alertIds, id ∈ i'.alertIds

theorem Grows.incidentsKept {s t : ControllerStore} (hs : s.incidents.Agrees)
    (ht : t.incidents.Agrees) (h : Grows s t) : IncidentsKept s t := by
  constructor
  · intro i hi hr
    obtain ⟨i', hi', hk, _, _, hres⟩ := h i (hs.mem_documents.mp hi)
    exact ⟨i', ht.mem_documents.mpr hi', hk, hres hr⟩
  · intro i hi
    obtain ⟨i', hi', hk, _, hids, _⟩ := h i (hs.mem_documents.mp hi)
    exact ⟨i', ht.mem_documents.mpr hi', hk, hids⟩

theorem pooled_run {pool : ι → Operation} {w : World} (hw : w.store.incidents.Agrees)
    {schedule : List ι}
    (undisturbed : Config.Admitted (Config.meets pooled) (startPool pool w) schedule) :
    Config.AllSafe pooled (fun _ => Settled) ((startPool pool w).run schedule) ∧
      ((startPool pool w).run schedule).state.store.incidents.Agrees := by
  have safe : Config.AllSafe pooled (fun _ => Settled) (startPool pool w) :=
    fun i => (pool i).pooled hw _
  obtain ⟨safe', rely⟩ := safe.run (fun _ _ h => h) undisturbed
  exact ⟨safe', (rely hw).1⟩

/-- From any reachable store, any operations in any interleaving whose writes are
undisturbed: between any two points of the run, resolved incidents stay resolved
and no alert leaves an incident. -/
theorem concurrent_operations_keep_incidents {w : World} (hw : w.Initial) (ops : List Operation)
    (pool : ι → Operation) (before after : List ι)
    (undisturbed : Config.Admitted (Config.meets pooled) (startPool pool (runOperations w ops))
      (before ++ after)) :
    IncidentsKept ((startPool pool (runOperations w ops)).run before).state.store
      ((startPool pool (runOperations w ops)).run (before ++ after)).state.store := by
  have agrees := (hw.sound.runOperations ops).1.consistent.incidents
  obtain ⟨first, second⟩ := Config.admitted_append.mp undisturbed
  obtain ⟨safe, hs⟩ := pooled_run agrees first
  obtain ⟨-, rely⟩ := safe.run (fun _ _ h => h) second
  rw [Config.run_append]
  obtain ⟨ht, grows⟩ := rely hs
  exact grows.incidentsKept hs ht

end Runs

/-! ## Races -/

namespace Sample

def outage : List Operation :=
  [.registerAlertRule rule, .processDiagnosis (report (some "db") .failed) 1]

def incidentId : String := "uu"

def monitorAndOperator : Bool → Operation
  | false => .processDiagnosis (report (some "db") .failed) 2
  | true => .resolveIncident incidentId 3

def untilWrite : List Bool := List.replicate 6 false

end Sample

/-- The monitor first, the operator afterwards: every write is undisturbed. -/
theorem concurrent_operations_keep_incidents_outage :
    Config.Admitted (Config.meets pooled)
        (startPool Sample.monitorAndOperator (runOperations Sample.world Sample.outage))
        ((Sample.untilWrite ++ [false]) ++ [true, true]) ∧
      IncidentsKept
        ((startPool Sample.monitorAndOperator (runOperations Sample.world Sample.outage)).run
          (Sample.untilWrite ++ [false])).state.store
        ((startPool Sample.monitorAndOperator (runOperations Sample.world Sample.outage)).run
          ((Sample.untilWrite ++ [false]) ++ [true, true])).state.store := by
  have undisturbed : Config.Admitted (Config.meets pooled)
      (startPool Sample.monitorAndOperator (runOperations Sample.world Sample.outage))
      ((Sample.untilWrite ++ [false]) ++ [true, true]) := by decide +kernel
  exact ⟨undisturbed, concurrent_operations_keep_incidents Sample.world_initial Sample.outage
    Sample.monitorAndOperator (Sample.untilWrite ++ [false]) [true, true] undisturbed⟩

/-- The monitor reads, the resolution completes, the monitor writes: the resolved
incident is stored as open. -/
theorem resolved_incident_reopened :
    ¬ ∀ (w : World), w.Initial → ∀ (ops : List Operation) (pool : Bool → Operation)
      (before after : List Bool),
      IncidentsKept ((startPool pool (runOperations w ops)).run before).state.store
        ((startPool pool (runOperations w ops)).run (before ++ after)).state.store := by
  intro always
  have kept := always Sample.world Sample.world_initial Sample.outage Sample.monitorAndOperator
    (Sample.untilWrite ++ [true, true]) [false]
  have stored :
      ((startPool Sample.monitorAndOperator (runOperations Sample.world Sample.outage)).run
        (Sample.untilWrite ++ [true, true])).state.store.incidents.documents.map (·.state) =
          [.resolved] := by
    decide +kernel
  have reopened : ∀ i ∈ ((startPool Sample.monitorAndOperator
      (runOperations Sample.world Sample.outage)).run
        ((Sample.untilWrite ++ [true, true]) ++ [false])).state.store.incidents.documents,
      i.state = .opened := by
    decide +kernel
  obtain ⟨i, hi, hr⟩ : ∃ i ∈ ((startPool Sample.monitorAndOperator
      (runOperations Sample.world Sample.outage)).run
        (Sample.untilWrite ++ [true, true])).state.store.incidents.documents, i.state = .resolved :=
    List.mem_map.mp (stored ▸ List.mem_singleton_self _)
  obtain ⟨i', hi', -, hr'⟩ := kept.resolved i hi hr
  rw [reopened i' hi'] at hr'
  contradiction

end NetForge.Controller
