import NetForge.Calculus.Trace
import NetForge.Controller.IncidentRaces
import Mathlib.Data.Option.Basic

/-! # The calls of a scheduling pass

A scheduling pass takes one snapshot of all schedules and works through its due
entries in order: it diagnoses an entry, with at most one fan-out of probes, and then
writes an advanced copy of it back. Its own log tells which entry it is at work on.
-/

namespace NetForge.Controller

open Calculus NetForge.Core Analysis

/-! ## Schedule events -/

def StoreCall.writtenSchedule : StoreCall → Option String
  | .upsertSchedule schedule => some schedule.scheduleId
  | .deleteSchedule scheduleId => some scheduleId
  | _ => none

def StoreCall.savedSchedule : StoreCall → Option ScheduleEntry
  | .upsertSchedule schedule => some schedule
  | _ => none

def StoreCall.isSnapshot : StoreCall → Bool
  | .listSchedules none => true
  | _ => false

def Operation.isPass : Operation → Bool
  | .runDueSchedules _ => true
  | _ => false

theorem perform_find_schedule {c : StoreCall} {x : String} (h : c.writtenSchedule ≠ some x)
    (w : World) : (perform c w).2.store.schedules.find? x = w.store.schedules.find? x := by
  cases c with
  | upsertSchedule e => exact Table.find?_upsert_of_ne fun he => h (congrArg some he.symm)
  | deleteSchedule y =>
      have hne : x ≠ y := fun he => h (congrArg some he.symm)
      exact Table.find?_delete_of_ne hne
  | fanout agents probe => simp only [perform]; split <;> rfl
  | _ => rfl

theorem perform_upsertSchedule (e : ScheduleEntry) (w : World) :
    (perform (.upsertSchedule e) w).2.store.schedules.find? e.scheduleId = some e :=
  Table.find?_upsert_replacing _ e

theorem perform_deleteSchedule (x : String) (w : World) :
    (perform (.deleteSchedule x) w).2.store.schedules.find? x = none :=
  Table.find?_delete_self _ x

theorem mem_listSchedules {s : ControllerStore} {e : ScheduleEntry}
    (h : e ∈ s.listSchedules none) : s.schedules.find? e.scheduleId = some e := by
  have hmem : e ∈ s.schedules.rows := by
    simpa using List.mem_of_mem_filter (mem_orderBy.mp h)
  exact Table.find?_eq_some.mpr ⟨hmem, rfl⟩

theorem listSchedules_nodup (s : ControllerStore) :
    ((s.listSchedules none).map (·.scheduleId)).Nodup := by
  have hperm : ((s.listSchedules none).map (·.scheduleId)).Perm
      (s.schedules.rows.map (·.scheduleId)) := by
    apply List.Perm.map
    unfold ControllerStore.listSchedules
    have hall : (s.schedules.rows.filter fun e => Option.all (fun x => e.serviceId = x) none) =
        s.schedules.rows := by simp
    rw [hall]
    exact List.perm_insertionSort _ _
  exact hperm.nodup_iff.mpr s.schedules.nodup

def AdvanceStep (e e' : ScheduleEntry) : Prop :=
  ∃ now error, isDue e now = true ∧ e' = advanceSchedule e now error

/-- The entry `e`, advanced any number of times, each time while it was due. -/
def Advanced : ScheduleEntry → ScheduleEntry → Prop := Relation.ReflTransGen AdvanceStep

theorem Advanced.keeps {e row : ScheduleEntry} (h : Advanced e row) :
    row.scheduleId = e.scheduleId ∧ row.enabled = e.enabled ∧
      row.intervalSeconds = e.intervalSeconds := by
  induction h with
  | refl => exact ⟨rfl, rfl, rfl⟩
  | tail _ step ih =>
      obtain ⟨now, error, _, rfl⟩ := step
      exact ih

/-! ## What a pass calls -/

def Operation.passTime : Operation → Option Rat
  | .runDueSchedules now => some now
  | _ => none

/-- The due entries of its snapshot that a pass has not written back yet, in order. -/
def unserved (now : Rat) : List (Event controller) → List ScheduleEntry
  | [] => []
  | ⟨.listSchedules none, snapshot⟩ :: _ => snapshot.filter (isDue · now)
  | ⟨.upsertSchedule _, _⟩ :: older => (unserved now older).tail
  | _ :: older => unserved now older

/-- The entry a pass has probed for and not written back yet. -/
def probed (now : Rat) : List (Event controller) → Option ScheduleEntry
  | [] => none
  | ⟨.fanout _ _, _⟩ :: older => (unserved now older).head?
  | ⟨.upsertSchedule _, _⟩ :: _ => none
  | _ :: older => probed now older

/-- A pass touches the schedules by its snapshot, its first call, and by writing
back an advanced copy of the entry it is at work on, for which it probes once. -/
structure PassCalls (now : Rat) (log : List (Event controller)) (c : StoreCall) : Prop where
  schedules : c.touches = some .schedules →
    (c = .listSchedules none ∧ log = []) ∨
      ∃ newer snapshot e error, log = newer ++ [⟨.listSchedules none, snapshot⟩] ∧ e ∈ snapshot ∧
        isDue e now = true ∧ (unserved now log).head? = some e ∧
        c = .upsertSchedule (advanceSchedule e now error)
  network : c.touches = some .network → probed now log = none ∧ unserved now log ≠ []

theorem PassCalls.of_other {now : Rat} {log : List (Event controller)} {c : StoreCall}
    (hs : c.touches ≠ some .schedules) (hn : c.touches ≠ some .network) : PassCalls now log c where
  schedules := fun h => absurd h hs
  network := fun h => absurd h hn

theorem unserved_cons {now : Rat} {log : List (Event controller)} {ev : Event controller}
    (h : ev.call.touches ≠ some .schedules) : unserved now (ev :: log) = unserved now log := by
  obtain ⟨c, reply⟩ := ev
  cases c with
  | upsertSchedule e => exact absurd rfl h
  | listSchedules serviceId => exact absurd rfl h
  | _ => rfl

theorem probed_cons {now : Rat} {log : List (Event controller)} {ev : Event controller}
    (hs : ev.call.touches ≠ some .schedules) (hn : ev.call.touches ≠ some .network) :
    probed now (ev :: log) = probed now log := by
  obtain ⟨c, reply⟩ := ev
  cases c with
  | upsertSchedule e => exact absurd rfl hs
  | fanout agents probe => exact absurd rfl hn
  | _ => rfl

def WrittenBack (x : String) (events : List (Event controller)) : Prop :=
  ∃ ev ∈ events, ∃ e, ev.call = .upsertSchedule e ∧ e.scheduleId = x

/-- After its snapshot a pass takes no other and writes back every due entry of it. -/
def PassLog (now : Rat) (log : List (Event controller)) : Prop :=
  ∃ newer snapshot, log = newer ++ [⟨.listSchedules none, snapshot⟩] ∧
    (∀ ev ∈ newer, ev.call.isSnapshot = false) ∧
    ∀ e ∈ snapshot, isDue e now = true → WrittenBack e.scheduleId newer

/-- A pass in progress: due entries are written back or still to come. -/
structure PassProgress (now : Rat) (snapshot : List ScheduleEntry) (log : List (Event controller))
    (pending : List ScheduleEntry) : Prop where
  log_eq : ∃ newer, log = newer ++ [⟨.listSchedules none, snapshot⟩] ∧
    (∀ ev ∈ newer, ev.call.isSnapshot = false) ∧
    ∀ e ∈ snapshot, isDue e now = true → e ∈ pending ∨ WrittenBack e.scheduleId newer
  pending_due : ∀ e ∈ pending, e ∈ snapshot ∧ isDue e now = true
  unserved_eq : unserved now log = pending

/-- A pass that has not probed for the next of its pending entries. -/
structure PassReady (now : Rat) (snapshot : List ScheduleEntry) (log : List (Event controller))
    (pending : List ScheduleEntry) : Prop extends PassProgress now snapshot log pending where
  probed_eq : probed now log = none

theorem isSnapshot_eq_false {c : StoreCall} (h : c.touches ≠ some .schedules) :
    c.isSnapshot = false := by
  cases c with
  | listSchedules serviceId => exact absurd rfl h
  | _ => rfl

section

variable {α : Type} {now : Rat} {snapshot pending : List ScheduleEntry}
  {log : List (Event controller)} {e : ScheduleEntry}

/-- Calls that stay off the schedules change nothing about a pass's progress. -/
theorem PassProgress.append {added : List (Event controller)}
    (h : PassProgress now snapshot log pending)
    (hadded : ∀ ev ∈ added, ev.call.touches ≠ some .schedules) :
    PassProgress now snapshot (added ++ log) pending := by
  obtain ⟨⟨newer, rfl, quiet, served⟩, hpending, hunserved⟩ := h
  refine ⟨⟨added ++ newer, by simp, fun ev hev => ?_, fun e he hdue => ?_⟩, hpending, ?_⟩
  · rcases List.mem_append.mp hev with hev | hev
    · exact isSnapshot_eq_false (hadded ev hev)
    · exact quiet ev hev
  · rcases served e he hdue with hp | ⟨ev, hev, hwrite⟩
    · exact .inl hp
    · exact .inr ⟨ev, List.mem_append_right _ hev, hwrite⟩
  · induction added with
    | nil => exact hunserved
    | cons ev added ih =>
        rw [List.cons_append, unserved_cons (hadded ev List.mem_cons_self)]
        exact ih fun ev' hev => hadded ev' (List.mem_cons_of_mem _ hev)

theorem PassReady.append {added : List (Event controller)}
    (h : PassReady now snapshot log pending)
    (hs : ∀ ev ∈ added, ev.call.touches ≠ some .schedules)
    (hn : ∀ ev ∈ added, ev.call.touches ≠ some .network) :
    PassReady now snapshot (added ++ log) pending where
  toPassProgress := h.toPassProgress.append hs
  probed_eq := by
    induction added with
    | nil => exact h.probed_eq
    | cons ev added ih =>
        rw [List.cons_append, probed_cons (hs ev List.mem_cons_self) (hn ev List.mem_cons_self)]
        exact ih (fun ev' hev => hs ev' (List.mem_cons_of_mem _ hev))
          fun ev' hev => hn ev' (List.mem_cons_of_mem _ hev)

/-- The entry at work is written back, and the next one can be probed for. -/
theorem PassProgress.writeBack (h : PassProgress now snapshot log (e :: pending))
    (error : Option String) :
    PassCalls now log (.upsertSchedule (advanceSchedule e now error)) ∧
      PassReady now snapshot
        (⟨.upsertSchedule (advanceSchedule e now error), ()⟩ :: log) pending := by
  obtain ⟨⟨newer, rfl, quiet, served⟩, hpending, hunserved⟩ := h
  obtain ⟨hmem, hdue⟩ := hpending e (by simp)
  have hhead := congrArg List.head? hunserved
  constructor
  · exact ⟨fun _ => .inr ⟨newer, snapshot, e, error, rfl, hmem, hdue, hhead, rfl⟩,
      (fun h => nomatch h)⟩
  have progress : PassProgress now snapshot (⟨.upsertSchedule (advanceSchedule e now error), ()⟩ ::
      (newer ++ [⟨.listSchedules none, snapshot⟩])) pending := by
    refine ⟨⟨⟨.upsertSchedule (advanceSchedule e now error), ()⟩ :: newer, rfl, fun ev hev => ?_,
      fun e' he' hdue' => ?_⟩, fun e' he' => hpending e' (by simp [he']),
      congrArg List.tail hunserved⟩
    · rcases List.mem_cons.mp hev with rfl | hev
      · rfl
      · exact quiet ev hev
    · rcases served e' he' hdue' with hp | ⟨ev, hev, hwrite⟩
      · rcases List.mem_cons.mp hp with rfl | hp
        · exact .inr ⟨_, List.mem_cons_self, _, rfl, rfl⟩
        · exact .inl hp
      · exact .inr ⟨ev, List.mem_cons_of_mem _ hev, hwrite⟩
  exact ⟨progress, rfl⟩

/-- A method confined away from schedules and network leaves calls in the log that are
neither. -/
theorem Confined.logs {resources : List Resource} {p : Method α} (h : Confined resources p)
    (hs : .schedules ∉ resources) (hn : .network ∉ resources) (now : Rat)
    (log : List (Event controller)) :
    p.Follows (PassCalls now) (fun log' _ => ∃ added, log' = added ++ log ∧
      (∀ ev ∈ added, ev.call.touches ≠ some .schedules) ∧
        ∀ ev ∈ added, ev.call.touches ≠ some .network) log := by
  have calls : p.Calls fun c : StoreCall =>
      c.touches ≠ some .schedules ∧ c.touches ≠ some .network :=
    Program.Calls.mono h fun c hc => ⟨fun he => hs (hc _ he), fun he => hn (hc _ he)⟩
  apply (calls.follows (fun log c hc => .of_other hc.1 hc.2) log).mono
  intro log' _ hlog
  obtain ⟨added, hadded, hquiet⟩ := hlog
  exact ⟨added, hadded, fun ev hev => (hquiet ev hev).1, fun ev hev => (hquiet ev hev).2⟩

theorem Confined.inPass {resources : List Resource} {p : Method α} (h : Confined resources p)
    (hs : .schedules ∉ resources) (hn : .network ∉ resources)
    (progress : PassProgress now snapshot log pending) :
    p.Follows (PassCalls now) (fun log' _ => PassProgress now snapshot log' pending) log := by
  apply (h.logs hs hn now log).mono
  intro log' _ hlog
  obtain ⟨added, rfl, quiet, -⟩ := hlog
  exact progress.append quiet

/-- A method that only reads, before the probes of an entry. -/
theorem PassReady.reads {p : Method α} (ready : PassReady now snapshot log pending)
    (h : Confined [] p) :
    p.Follows (PassCalls now) (fun log' _ => PassReady now snapshot log' pending) log := by
  apply (h.logs List.not_mem_nil List.not_mem_nil now log).mono
  intro log' _ hlog
  obtain ⟨added, rfl, quiet, unprobed⟩ := hlog
  exact ready.append quiet unprobed

theorem diagnoseService_inPass (request : DiagnosisRequest)
    (ready : PassReady now snapshot log (e :: pending)) :
    (diagnoseService request).Follows (PassCalls now)
      (fun log' _ => PassProgress now snapshot log' (e :: pending)) log := by
  refine .bind ((ready.reads (p := call (.getService request.serviceId))
    (.read rfl fun _ => .pure _)).mono fun log found ready => ?_)
  cases found with
  | none => exact ready.toPassProgress
  | some service =>
      refine .bind ((ready.reads (topologyForService_confined service request.topology)).mono
        fun log found ready => ?_)
      cases found with
      | error e => exact ready.toPassProgress
      | ok topology =>
          refine .bind ((ready.reads (correlateAgents_confined topology.name)).mono
            fun log found ready => ?_)
          cases found with
          | error e => exact ready.toPassProgress
          | ok correlation =>
              simp only
              split
              · exact ready.toPassProgress
              · refine .bind ((ready.reads (planAgents_confined _)).mono fun log agents ready => ?_)
                have pending_ne : unserved now log ≠ [] := by simp [ready.unserved_eq]
                refine .bind ⟨⟨(fun h => nomatch h), fun _ => ⟨ready.probed_eq, pending_ne⟩⟩,
                  fun result => ?_⟩
                have progress : PassProgress now snapshot ([⟨.fanout agents _, result⟩] ++ log)
                    (e :: pending) := ready.toPassProgress.append (by simp [StoreCall.touches])
                cases result with
                | error message => exact progress
                | ok result =>
                    refine Confined.inPass (?_ : Confined [.identifiers, .diagnoses] _)
                      (by simp) (by simp) progress
                    exact .write rfl (by simp) fun _ => .write rfl (by simp) fun _ => .pure _

theorem runSchedule_inPass (reports : List MultiVantageReport)
    (ready : PassReady now snapshot log (e :: pending)) :
    (runSchedule now reports e).Follows (PassCalls now)
      (fun log' _ => PassReady now snapshot log' pending) log := by
  refine .bind ((diagnoseService_inPass (diagnosisRequest e) ready).mono ?_)
  intro log result progress
  cases result with
  | error message => exact ⟨(progress.writeBack _).1, fun _ => (progress.writeBack _).2⟩
  | ok report =>
      refine .bind (((processDiagnosis_confined report now).inPass (by simp) (by simp)
        progress).mono ?_)
      intro log _ progress
      exact ⟨(progress.writeBack _).1, fun _ => (progress.writeBack _).2⟩

end

theorem runDueSchedules_follows (now : Rat) :
    (Operation.runDueSchedules now).method.Follows (PassCalls now) (fun log _ => PassLog now log)
      [] := by
  refine .bind ⟨⟨fun _ => .inl ⟨rfl, rfl⟩, (fun h => nomatch h)⟩, fun snapshot => ?_⟩
  have start : PassReady now snapshot [⟨.listSchedules none, snapshot⟩]
      (snapshot.filter (isDue · now)) := by
    refine ⟨⟨⟨[], rfl, by simp, fun e he hdue => .inl ?_⟩, fun e he => ?_, rfl⟩, rfl⟩
    · exact List.mem_filter.mpr ⟨he, hdue⟩
    · exact List.mem_filter.mp he
  refine .fold (fun log _ pending => PassReady now snapshot log pending) ?_ ?_ start
  · exact fun log reports e pending ready => runSchedule_inPass reports ready
  · rintro log _ ⟨⟨⟨newer, hlog, quiet, served⟩, -, -⟩, -⟩
    refine ⟨newer, snapshot, hlog, quiet, fun e he hdue => ?_⟩
    exact (served e he hdue).resolve_left List.not_mem_nil

/-- The calls an operation may make after a log. Only passes are restricted. -/
def Operation.Allowed : Operation → List (Event controller) → StoreCall → Prop
  | .runDueSchedules now => PassCalls now
  | _ => fun _ _ => True

def Operation.Final : Operation → List (Event controller) → Unit → Prop
  | .runDueSchedules now => fun log _ => PassLog now log
  | _ => fun _ _ => True

theorem Operation.follows (op : Operation) : op.method.Follows op.Allowed op.Final [] := by
  cases op with
  | runDueSchedules now => exact runDueSchedules_follows now
  | _ => exact .free _ _

/-! ## One entry after the other -/

end NetForge.Controller
