import NetForge.Calculus.Cadence
import NetForge.Controller.Passes

/-! # The cadence of the schedules

The monitoring thread of `controller/scheduler.py` runs one pass after the other, each at
its own reading of the clock. Over all its ticks a schedule runs at the first reading at
which it is due and is due again one interval later, whatever the other schedules do and
whatever its own diagnoses come to.
-/

namespace NetForge.Controller

open Calculus NetForge.Core Analysis

/-! ## Ticks -/

/-- A tick: the pass it runs and the time it reads. -/
abbrev Tick := Pipeline × Rat

def Tick.after (tick : Tick) (w : World) : World := ((tick.1.runDueSchedules tick.2).run w).2

def runTicks (w : World) (ticks : List Tick) : World := ticks.foldl (fun w tick => tick.after w) w

/-- The times at which a schedule is attempted, once for each attempt. -/
def executions (scheduleId : String) (w : World) : List Tick → List Rat
  | [] => []
  | tick :: ticks =>
      ((tick.1.passAttempts tick.2 w).filter fun a => a.1.scheduleId = scheduleId).map
        (fun _ => tick.2) ++ executions scheduleId (tick.after w) ticks

/-! ## One tick -/

theorem isDue_iff {e : ScheduleEntry} (henabled : e.enabled = true) {now : Rat} :
    isDue e now = true ↔ dueAt e.nextRunAt now := by
  unfold isDue dueAt
  rw [henabled]
  cases e.nextRunAt with
  | none => simp
  | some due => simp

section

variable {w : World} {e : ScheduleEntry} (he : e ∈ w.store.schedules.rows) (tick : Tick)
include he

/-- A tick attempts a stored schedule once if it is due, and not at all otherwise. -/
theorem attempts_of_stored :
    (((tick.1.passAttempts tick.2 w).filter fun a => a.1.scheduleId = e.scheduleId).map
      fun _ => tick.2) = if isDue e tick.2 = true then [tick.2] else [] := by
  have hids : (tick.1.passAttempts tick.2 w).map (fun a => a.1.scheduleId) =
      ((w.store.listSchedules none).filter (isDue · tick.2)).map (·.scheduleId) := by
    rw [← map_passAttempts tick.1 tick.2 w, List.map_map]
    rfl
  have hnodup : (((w.store.listSchedules none).filter (isDue · tick.2)).map
      (·.scheduleId)).Nodup :=
    (listSchedules_nodup w.store).sublist (List.filter_sublist.map _)
  have hcount : ((tick.1.passAttempts tick.2 w).filter fun a =>
      a.1.scheduleId = e.scheduleId).length =
        ((tick.1.passAttempts tick.2 w).map fun a => a.1.scheduleId).count e.scheduleId := by
    rw [← List.countP_eq_length_filter, List.count, List.countP_map]
    apply List.countP_congr
    intro a _
    simp
  have hmem : e.scheduleId ∈ ((w.store.listSchedules none).filter (isDue · tick.2)).map
      (·.scheduleId) ↔ isDue e tick.2 = true := by
    constructor
    · intro h
      obtain ⟨d, hd, hid⟩ := List.mem_map.mp h
      obtain ⟨hlisted, hdue⟩ := List.mem_filter.mp hd
      have hsame : d = e :=
        w.store.schedules.eq_of_key (mem_listSchedules_none.mp hlisted) he hid
      exact hsame ▸ hdue
    · intro hdue
      exact List.mem_map_of_mem (List.mem_filter.mpr ⟨mem_listSchedules_none.mpr he, hdue⟩)
  rw [List.map_const', hcount, hids]
  by_cases hdue : isDue e tick.2 = true
  · rw [if_pos hdue, List.count_eq_one_of_mem hnodup (hmem.mpr hdue)]
    rfl
  · rw [if_neg hdue, List.count_eq_zero_of_not_mem (mt hmem.mp hdue)]
    rfl

theorem stored_after :
    ∃ later, later ∈ (tick.after w).store.schedules.rows ∧ later.scheduleId = e.scheduleId ∧
      later.enabled = e.enabled ∧ later.intervalSeconds = e.intervalSeconds ∧
      (isDue e tick.2 = true → later.lastRunAt = some tick.2 ∧
        later.nextRunAt = some (tick.2 + e.intervalSeconds)) ∧
      (isDue e tick.2 = false → later = e) := by
  cases hdue : isDue e tick.2 with
  | false =>
      obtain ⟨hmem, -⟩ := Table.find?_eq_some.mp (find?_notDue (P := tick.1) he hdue)
      exact ⟨e, hmem, rfl, rfl, rfl, (fun h => nomatch h), fun _ => rfl⟩
  | true =>
      have hlisted : e ∈ (tick.1.passAttempts tick.2 w).map (·.1) := by
        rw [map_passAttempts]
        exact List.mem_filter.mpr ⟨mem_listSchedules_none.mpr he, hdue⟩
      obtain ⟨a, ha, rfl⟩ := List.mem_map.mp hlisted
      obtain ⟨hmem, hid⟩ := Table.find?_eq_some.mp (find?_settled ha)
      refine ⟨_, hmem, hid, ?_⟩
      unfold Attempt.settled
      split <;> exact ⟨rfl, rfl, fun _ => ⟨rfl, rfl⟩, (fun h => nomatch h)⟩

end

/-! ## All ticks -/

/-- What a run of ticks makes of a stored schedule. -/
structure Paced (w : World) (e : ScheduleEntry) (ticks : List Tick) : Prop where
  runs : executions e.scheduleId w ticks =
    cadence e.intervalSeconds e.nextRunAt (ticks.map (·.2))
  entry : ∃ later, later ∈ (runTicks w ticks).store.schedules.rows ∧
    later.scheduleId = e.scheduleId ∧
    later.lastRunAt = (executions e.scheduleId w ticks).getLast?.or e.lastRunAt ∧
    later.nextRunAt =
      ((executions e.scheduleId w ticks).getLast?.map (· + e.intervalSeconds)).or e.nextRunAt

theorem paced {w : World} {e : ScheduleEntry} (he : e ∈ w.store.schedules.rows)
    (henabled : e.enabled = true) (ticks : List Tick) : Paced w e ticks := by
  induction ticks generalizing w e with
  | nil => exact ⟨rfl, e, he, rfl, rfl, rfl⟩
  | cons tick ticks ih =>
      obtain ⟨later, hlater, hid, hstill, hinterval, hrun, hsame⟩ := stored_after he tick
      obtain ⟨hruns, entry, hentry, hkey, hlast, hnext⟩ := ih hlater (hstill.trans henabled)
      rw [hid, hinterval] at hruns
      rw [hid] at hkey hlast hnext
      rw [hinterval] at hnext
      have hhead := attempts_of_stored he tick
      have hexecutions : executions e.scheduleId w (tick :: ticks) =
          (if isDue e tick.2 = true then [tick.2] else []) ++
            executions e.scheduleId (tick.after w) ticks := by
        rw [executions, hhead]
      cases hdue : isDue e tick.2 with
      | true =>
          obtain ⟨hlastRun, hnextRun⟩ := hrun hdue
          have hdueAt : dueAt e.nextRunAt tick.2 := (isDue_iff henabled).mp hdue
          rw [hdue, if_pos rfl, List.singleton_append] at hexecutions
          rw [hnextRun] at hruns
          refine ⟨?_, entry, hentry, hkey, ?_, ?_⟩
          · rw [hexecutions, List.map_cons, cadence_cons_of_due hdueAt, hruns]
          · rw [hexecutions, hlast, hlastRun, List.getLast?_cons]
            cases (executions e.scheduleId (tick.after w) ticks).getLast? <;> rfl
          · rw [hexecutions, hnext, hnextRun, List.getLast?_cons]
            cases (executions e.scheduleId (tick.after w) ticks).getLast? <;> rfl
      | false =>
          obtain rfl := hsame hdue
          have hnot : ¬ dueAt later.nextRunAt tick.2 := by
            rw [← isDue_iff henabled, hdue]
            exact Bool.false_ne_true
          rw [hdue, if_neg Bool.false_ne_true, List.nil_append] at hexecutions
          refine ⟨?_, entry, hentry, hkey, ?_, ?_⟩
          · rw [hexecutions, List.map_cons, cadence_cons_of_not_due hnot, hruns]
          · rw [hexecutions, hlast]
          · rw [hexecutions, hnext]

/-- Over any ticks of the monitoring thread, the attempts of a stored and enabled schedule
are at least its interval apart, whatever becomes of them and of the other schedules. If
the clock never goes back, no tick finds the schedule overdue: it is attempted, or not due
by its entry, or was attempted less than an interval before. Its entry tells the last
attempt and when the next one is due. -/
theorem schedule_keeps_cadence {w : World} {e : ScheduleEntry} (he : e ∈ w.store.schedules.rows)
    (henabled : e.enabled = true) (ticks : List Tick) :
    let runs := executions e.scheduleId w ticks
    runs.IsChain (fun a b => a + e.intervalSeconds ≤ b) ∧
      ((ticks.map (·.2)).Pairwise (· ≤ ·) → ∀ now ∈ ticks.map (·.2),
        now ∈ runs ∨ isDue e now = false ∨
          ∃ run ∈ runs, run ≤ now ∧ now < run + e.intervalSeconds) ∧
      ∃ later ∈ (runTicks w ticks).store.schedules.rows, later.scheduleId = e.scheduleId ∧
        later.lastRunAt = runs.getLast?.or e.lastRunAt ∧
        later.nextRunAt = (runs.getLast?.map (· + e.intervalSeconds)).or e.nextRunAt := by
  intro runs
  obtain ⟨hruns, later, hlater, hid, hlast, hnext⟩ := paced he henabled ticks
  refine ⟨?_, ?_, later, hlater, hid, hlast, hnext⟩
  · show (executions e.scheduleId w ticks).IsChain _
    rw [hruns]
    exact cadence_spaced _ _
  · intro hsorted now hnow
    show now ∈ executions e.scheduleId w ticks ∨ _ ∨ ∃ run ∈ executions e.scheduleId w ticks, _
    rw [hruns]
    rcases cadence_prompt e.intervalSeconds e.nextRunAt hsorted hnow with hrun | hearly | hwithin
    · exact .inl hrun
    · refine .inr (.inl ?_)
      rwa [← isDue_iff henabled, Bool.not_eq_true] at hearly
    · exact .inr (.inr hwithin)

/-- A schedule of one minute, polled four times. -/
theorem schedule_keeps_cadence_minute :
    (executions "s1" (runOperations Sample.world Sample.scheduled)
      [(servicePipeline, 10), (servicePipeline, 30), (servicePipeline, 75),
        (servicePipeline, 140)]).IsChain fun a b => a + 60 ≤ b :=
  (schedule_keeps_cadence (w := runOperations Sample.world Sample.scheduled)
    (e := { Sample.schedule with nextRunAt := some 0 }) List.mem_cons_self rfl _).1

end NetForge.Controller
