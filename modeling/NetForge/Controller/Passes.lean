import NetForge.Controller.ScheduleRaces

/-! # A pass that isolates failures

`run_due_schedules` runs the diagnosis and the alert pipeline of each due schedule and
advances the schedule in a `finally` block. Here both steps may raise, at any of their
calls and for any of the schedules. A pass run alone writes back every due schedule
once, whatever happened to it, and leaves none due.
-/

namespace NetForge.Controller

open Calculus NetForge.Core Analysis

/-! ## Passes over steps that may raise -/

def OffSchedules (c : StoreCall) : Prop := c.touches ≠ some .schedules

/-- The two steps of a scheduled run. Which runs raise is decided schedule by schedule. -/
structure Pipeline where
  diagnose : ScheduleEntry → DiagnosisRequest → Method (Except ServiceError MultiVantageReport)
  process : ScheduleEntry → MultiVantageReport → Rat → Method (Except ServiceError DiagnosisOutcome)
  diagnose_off : ∀ schedule request, (diagnose schedule request).Calls OffSchedules
  process_off : ∀ schedule report now, (process schedule report now).Calls OffSchedules

namespace Pipeline

variable (P : Pipeline) (now : Rat)

/-- The body of the `try` block: the report, once it was processed. -/
def attempt (schedule : ScheduleEntry) : Method (Except ServiceError MultiVantageReport) := do
  match ← P.diagnose schedule (diagnosisRequest schedule) with
  | .error e => pure (.error e)
  | .ok report =>
      match ← P.process schedule report now with
      | .error e => pure (.error e)
      | .ok _ => pure (.ok report)

/-- `runSchedule` over these steps. -/
def runSchedule (reports : List MultiVantageReport) (schedule : ScheduleEntry) :
    Method (List MultiVantageReport) := do
  match ← P.attempt now schedule with
  | .ok report =>
      call (.upsertSchedule (advanceSchedule schedule now none))
      pure (reports ++ [report])
  | .error e =>
      call (.upsertSchedule (advanceSchedule schedule now (some e.text)))
      pure reports

def runDueSchedules : Method (List MultiVantageReport) := do
  let schedules ← call (.listSchedules none)
  Program.fold (P.runSchedule now) [] (schedules.filter (isDue · now))

end Pipeline

def servicePipeline : Pipeline where
  diagnose := fun _ request => diagnoseService request
  process := fun _ report now => do
    let outcome ← processDiagnosis report now
    pure (.ok outcome)
  diagnose_off := by
    intro _ request
    apply Program.Calls.mono (diagnoseService_confined request)
    intro c hc htouches
    exact absurd (hc _ htouches) (by simp)
  process_off := by
    intro _ report now
    refine Program.Calls.bind ?_ fun _ => trivial
    apply Program.Calls.mono (processDiagnosis_confined report now)
    intro c hc htouches
    exact absurd (hc _ htouches) (by simp)

theorem servicePipeline_runSchedule (now : Rat) :
    servicePipeline.runSchedule now = runSchedule now := by
  funext reports schedule
  unfold Pipeline.runSchedule Pipeline.attempt runSchedule
  rw [Program.bind_assoc]
  congr 1
  funext result
  cases result with
  | error e => rfl
  | ok report =>
      simp only [servicePipeline]
      rw [Program.bind_assoc, Program.bind_assoc]
      rfl

theorem servicePipeline_runDueSchedules (now : Rat) :
    servicePipeline.runDueSchedules now = runDueSchedules now := by
  unfold Pipeline.runDueSchedules runDueSchedules
  rw [servicePipeline_runSchedule]

/-! ## What a pass writes -/

theorem perform_schedules {c : StoreCall} (h : OffSchedules c) (w : World) :
    (perform c w).2.store.schedules = w.store.schedules := by
  cases c with
  | upsertSchedule e => exact absurd rfl h
  | deleteSchedule x => exact absurd rfl h
  | fanout agents probe => simp only [perform]; split <;> rfl
  | _ => rfl

theorem savedSchedule_eq_none {c : StoreCall} (h : OffSchedules c) : c.savedSchedule = none := by
  cases c with
  | upsertSchedule e => exact absurd rfl h
  | _ => rfl

abbrev Attempt := ScheduleEntry × Except ServiceError MultiVantageReport

def Attempt.settled (now : Rat) (a : Attempt) : ScheduleEntry :=
  match a.2 with
  | .ok _ => advanceSchedule a.1 now none
  | .error e => advanceSchedule a.1 now (some e.text)

theorem Attempt.settled_scheduleId (now : Rat) (a : Attempt) :
    (a.settled now).scheduleId = a.1.scheduleId := by
  unfold settled
  split <;> rfl

namespace Pipeline

variable {P : Pipeline} {now : Rat}

theorem attempt_off (schedule : ScheduleEntry) :
    (P.attempt now schedule).Calls OffSchedules := by
  refine Program.Calls.bind (P.diagnose_off schedule _) fun result => ?_
  split
  · trivial
  · refine Program.Calls.bind (P.process_off schedule _ now) fun outcome => ?_
    split <;> trivial

variable (P now)

def attempts : List ScheduleEntry → World → List Attempt
  | [], _ => []
  | e :: rest, w =>
      (e, ((P.attempt now e).run w).1) :: attempts rest ((P.runSchedule now [] e).run w).2

def passAttempts (w : World) : List Attempt :=
  P.attempts now ((w.store.listSchedules none).filter (isDue · now)) w

theorem map_attempts (due : List ScheduleEntry) (w : World) :
    (P.attempts now due w).map (·.1) = due := by
  induction due generalizing w with
  | nil => rfl
  | cons e rest ih =>
      rw [attempts, List.map_cons, ih]

/-- A run of one schedule is its attempt, then one write. -/
theorem runSchedule_eq (reports : List MultiVantageReport) (e : ScheduleEntry) :
    P.runSchedule now reports e = (P.attempt now e >>= fun result =>
      call (.upsertSchedule (Attempt.settled now (e, result))) >>= fun _ =>
        pure (reports ++ result.toOption.toList)) := by
  unfold runSchedule
  congr 1
  funext result
  cases result with
  | ok report => rfl
  | error err => simp [Attempt.settled, Except.toOption]

theorem runSchedule_reports (reports : List MultiVantageReport) (e : ScheduleEntry) (w : World) :
    ((P.runSchedule now reports e).run w).1 =
      reports ++ ((P.attempt now e).run w).1.toOption.toList := by
  rw [runSchedule_eq, Program.run_bind]
  rfl

/-- What a run does to the world does not depend on the earlier reports. -/
theorem runSchedule_world (reports : List MultiVantageReport) (e : ScheduleEntry) (w : World) :
    ((P.runSchedule now reports e).run w).2 = ((P.runSchedule now [] e).run w).2 := by
  rw [runSchedule_eq, runSchedule_eq, Program.run_bind, Program.run_bind, Program.run_bind,
    Program.run_bind]
  rfl

theorem runSchedule_schedules (reports : List MultiVantageReport) (e : ScheduleEntry)
    (w : World) :
    ((P.runSchedule now reports e).run w).2.store.schedules =
      w.store.schedules.upsert (Attempt.settled now (e, ((P.attempt now e).run w).1)) := by
  have hkeep : ((P.attempt now e).run w).2.store.schedules = w.store.schedules :=
    Program.Calls.run_keeps (f := fun w : World => w.store.schedules)
      (fun c w hc => perform_schedules hc w) (attempt_off e) w
  rw [runSchedule_eq, Program.run_bind, ← hkeep]
  rfl

theorem runSchedule_saved (reports : List MultiVantageReport) (e : ScheduleEntry) (w : World) :
    ((P.runSchedule now reports e).trace w).filterMap (·.call.savedSchedule) =
      [Attempt.settled now (e, ((P.attempt now e).run w).1)] := by
  have hnone : ((P.attempt now e).trace w).filterMap (·.call.savedSchedule) = [] :=
    Program.Calls.filterMap_trace (g := StoreCall.savedSchedule)
      (fun c hc => savedSchedule_eq_none hc) (attempt_off e) w
  rw [runSchedule_eq, Program.trace_bind, List.filterMap_append, hnone]
  rfl

/-- A loop over due entries: the reports of the good attempts, one write per entry. -/
theorem fold_runSchedule (due : List ScheduleEntry) (reports : List MultiVantageReport)
    (w : World) :
    ((Program.fold (P.runSchedule now) reports due).run w).1 =
        reports ++ (P.attempts now due w).filterMap (·.2.toOption) ∧
      ((Program.fold (P.runSchedule now) reports due).run w).2.store.schedules =
        w.store.schedules.upsertAll ((P.attempts now due w).map (·.settled now)) ∧
      ((Program.fold (P.runSchedule now) reports due).trace w).filterMap
        (·.call.savedSchedule) = (P.attempts now due w).map (·.settled now) := by
  induction due generalizing reports w with
  | nil => simp [attempts]
  | cons e rest ih =>
      have hworld := P.runSchedule_world now reports e w
      obtain ⟨hreports, hschedules, hsaved⟩ :=
        ih ((P.runSchedule now reports e).run w).1 ((P.runSchedule now [] e).run w).2
      rw [Program.fold_cons, Program.run_bind, Program.trace_bind, hworld, attempts]
      refine ⟨?_, ?_, ?_⟩
      · rw [hreports, runSchedule_reports, List.append_assoc]
        cases hresult : ((P.attempt now e).run w).1 <;>
          simp [Except.toOption]
      · rw [hschedules, runSchedule_schedules]
        rfl
      · rw [List.filterMap_append, hsaved, runSchedule_saved]
        rfl

end Pipeline

/-! ## Isolation -/

section

variable (P : Pipeline) (now : Rat) (w : World)

theorem map_passAttempts :
    (P.passAttempts now w).map (·.1) = (w.store.listSchedules none).filter (isDue · now) :=
  P.map_attempts now _ w

theorem runDueSchedules_schedules :
    ((P.runDueSchedules now).run w).2.store.schedules =
      w.store.schedules.upsertAll ((P.passAttempts now w).map (·.settled now)) :=
  (P.fold_runSchedule now _ [] w).2.1

theorem settled_nodup :
    (((P.passAttempts now w).map (·.settled now)).map (·.scheduleId)).Nodup := by
  have hids : ((P.passAttempts now w).map (·.settled now)).map (·.scheduleId) =
      ((w.store.listSchedules none).filter (isDue · now)).map (·.scheduleId) := by
    rw [← map_passAttempts P now w, List.map_map, List.map_map]
    apply List.map_congr_left
    intro a _
    exact a.settled_scheduleId now
  rw [hids]
  exact (listSchedules_nodup w.store).sublist (List.filter_sublist.map _)

variable {P now w}

theorem find?_settled {a : Attempt} (ha : a ∈ P.passAttempts now w) :
    ((P.runDueSchedules now).run w).2.store.schedules.find? a.1.scheduleId =
      some (a.settled now) := by
  rw [runDueSchedules_schedules, ← a.settled_scheduleId now]
  exact Table.find?_upsertAll_replacing (settled_nodup P now w)
    (List.mem_map.mpr ⟨a, ha, rfl⟩)

theorem find?_unattempted {scheduleId : String}
    (h : ∀ a ∈ P.passAttempts now w, a.1.scheduleId ≠ scheduleId) :
    ((P.runDueSchedules now).run w).2.store.schedules.find? scheduleId =
      w.store.schedules.find? scheduleId := by
  rw [runDueSchedules_schedules]
  apply Table.find?_upsertAll_of_ne
  intro row hrow
  obtain ⟨a, ha, rfl⟩ := List.mem_map.mp hrow
  intro heq
  exact h a ha ((a.settled_scheduleId now).symm.trans heq)

theorem mem_listSchedules_none {s : ControllerStore} {e : ScheduleEntry} :
    e ∈ s.listSchedules none ↔ e ∈ s.schedules.rows := by
  simp [ControllerStore.listSchedules]

theorem mem_passAttempts {a : Attempt} (ha : a ∈ P.passAttempts now w) :
    a.1 ∈ w.store.schedules.rows ∧ isDue a.1 now = true := by
  have hmem : a.1 ∈ (w.store.listSchedules none).filter (isDue · now) := by
    rw [← map_passAttempts P now w]
    exact List.mem_map.mpr ⟨a, ha, rfl⟩
  obtain ⟨hlisted, hdue⟩ := List.mem_filter.mp hmem
  exact ⟨mem_listSchedules_none.mp hlisted, hdue⟩

theorem find?_notDue {e : ScheduleEntry} (he : e ∈ w.store.schedules.rows)
    (hdue : isDue e now = false) :
    ((P.runDueSchedules now).run w).2.store.schedules.find? e.scheduleId = some e := by
  have hstored : w.store.schedules.find? e.scheduleId = some e :=
    Table.find?_eq_some.mpr ⟨he, rfl⟩
  rw [find?_unattempted, hstored]
  intro a ha heq
  obtain ⟨hmem, hattempted⟩ := mem_passAttempts ha
  have hsame : a.1 = e := w.store.schedules.eq_of_key hmem he heq
  rw [hsame, hdue] at hattempted
  cases hattempted

end

end NetForge.Controller
