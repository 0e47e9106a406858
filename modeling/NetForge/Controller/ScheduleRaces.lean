import NetForge.Controller.PassCalls

/-! # Schedules under concurrent passes

A scheduling pass takes one snapshot of all schedules, probes, and then writes
back an advanced copy of each due entry of the snapshot. What happened to a row
in between is overwritten; where nothing did, the table is the one the clients
asked for, advanced by the passes one due slot at a time. Two passes probe for
one slot unless the first has written the entry back before the second reads it.
-/

namespace NetForge.Controller

open Calculus NetForge.Core Analysis

/-! ## Traces -/

section Traces

variable {ι : Type}

abbrev Trace (ι : Type) := List (ι × Event controller)

def HasSnapshot (i : ι) (trace : Trace ι) : Prop :=
  ∃ ev ∈ trace, ev.1 = i ∧ ev.2.call.isSnapshot = true

instance [DecidableEq ι] (i : ι) (trace : Trace ι) : Decidable (HasSnapshot i trace) :=
  inferInstanceAs (Decidable (∃ ev ∈ trace, ev.1 = i ∧ ev.2.call.isSnapshot = true))

/-- Nobody wrote schedule `x` after thread `i` took its snapshot. -/
def Untouched (i : ι) (x : String) : Trace ι → Prop
  | [] => True
  | ev :: older =>
      (HasSnapshot i older → ev.2.call.writtenSchedule ≠ some x) ∧ Untouched i x older

instance instDecidableUntouched [DecidableEq ι] (i : ι) (x : String) :
    ∀ trace : Trace ι, Decidable (Untouched i x trace)
  | [] => inferInstanceAs (Decidable True)
  | _ :: older =>
      have : Decidable (Untouched i x older) := instDecidableUntouched i x older
      inferInstanceAs (Decidable (_ ∧ _))

theorem Untouched.after {i : ι} {x : String} {newer older : Trace ι} {ev : ι × Event controller}
    (h : Untouched i x (newer ++ ev :: older)) (hi : ev.1 = i)
    (hsnap : ev.2.call.isSnapshot = true) :
    ∀ e ∈ newer, e.2.call.writtenSchedule ≠ some x := by
  induction newer with
  | nil => simp
  | cons e newer ih =>
      intro e' he'
      rcases List.mem_cons.mp he' with rfl | he'
      · exact h.1 ⟨ev, by simp, hi, hsnap⟩
      · exact ih h.2 e' he'

/-- The due entry a pass is at work on: the first one of its snapshot that it has not
written back. -/
def serving [DecidableEq ι] (pool : ι → Operation) (i : ι) (trace : Trace ι) :
    Option ScheduleEntry :=
  (pool i).passTime.bind fun now => (unserved now (Config.logOf i trace)).head?

/-- The entry a pass has probed for without having written it back. -/
def underway [DecidableEq ι] (pool : ι → Operation) (i : ι) (trace : Trace ι) :
    Option ScheduleEntry :=
  (pool i).passTime.bind fun now => probed now (Config.logOf i trace)

/-- Nobody wrote the schedule a pass is at work on after the pass took its snapshot, and
no other pass has probed for it without having written it back. -/
def UndisturbedProbe [DecidableEq ι] (pool : ι → Operation) (trace : Trace ι) (i : ι) : Prop :=
  ∀ e ∈ serving pool i trace, Untouched i e.scheduleId trace ∧
    ∀ j, j ≠ i → ∀ e' ∈ underway pool j trace, e'.scheduleId ≠ e.scheduleId

instance [DecidableEq ι] [Fintype ι] (pool : ι → Operation) (trace : Trace ι) (i : ι) :
    Decidable (UndisturbedProbe pool trace i) :=
  inferInstanceAs (Decidable (∀ e ∈ serving pool i trace, Untouched i e.scheduleId trace ∧
    ∀ j, j ≠ i → ∀ e' ∈ underway pool j trace, e'.scheduleId ≠ e.scheduleId))

/-- When a pass writes an entry back, nobody wrote that schedule after the pass took
its snapshot; nor has anybody when it probes for the entry, and no other pass is at it. -/
def UndisturbedPass [DecidableEq ι] (pool : ι → Operation) (cfg : Config ι controller Unit)
    (i : ι) : Prop :=
  ∀ c ∈ (cfg.thread i).next?,
    (∀ e ∈ StoreCall.savedSchedule c, (pool i).isPass = true →
      Untouched i e.scheduleId cfg.events) ∧
    (c.touches = some .network → UndisturbedProbe pool cfg.events i)

instance [DecidableEq ι] [Fintype ι] (pool : ι → Operation) (cfg : Config ι controller Unit)
    (i : ι) : Decidable (UndisturbedPass pool cfg i) :=
  inferInstanceAs (Decidable (∀ c ∈ (cfg.thread i).next?,
    (∀ e ∈ StoreCall.savedSchedule c, (pool i).isPass = true →
      Untouched i e.scheduleId cfg.events) ∧
    (c.touches = some .network → UndisturbedProbe pool cfg.events i)))

/-- The entry the clients asked for: the last one created unless it was deleted
since. Passes ask for nothing. -/
def wanted (pool : ι → Operation) (x : String) (initial : Option ScheduleEntry) :
    Trace ι → Option ScheduleEntry
  | [] => initial
  | ev :: older =>
      match ev.2.call with
      | .deleteSchedule y => if y = x then none else wanted pool x initial older
      | .upsertSchedule e =>
          if (pool ev.1).isPass = false ∧ e.scheduleId = x then some e
          else wanted pool x initial older
      | _ => wanted pool x initial older

variable {pool : ι → Operation} {w : World}

theorem wanted_cons_of_ne {x : String} {initial : Option ScheduleEntry} {ev : ι × Event controller}
    {older : Trace ι} (h : ev.2.call.writtenSchedule ≠ some x) :
    wanted pool x initial (ev :: older) = wanted pool x initial older := by
  obtain ⟨i, c, r⟩ := ev
  cases c with
  | upsertSchedule e =>
      have hne : e.scheduleId ≠ x := fun he => h (congrArg some he)
      simp [wanted, hne]
  | deleteSchedule y =>
      have hne : y ≠ x := fun he => h (congrArg some he)
      simp [wanted, hne]
  | _ => rfl

variable [DecidableEq ι]

/-- What holds of trace and table along a run of undisturbed passes. -/
structure Tracks (pool : ι → Operation) (w : World) (cfg : Config ι controller Unit) : Prop where
  follows : Config.AllFollow (fun i => (pool i).Allowed) (fun i => (pool i).Final) cfg
  obeys : Config.AllObey (fun i => (pool i).Allowed) cfg
  probes : Throughout (fun older ev =>
    ev.2.call.touches = some .network → UndisturbedProbe pool older ev.1) cfg.events
  distinct : ∀ i snapshot, (i, ⟨.listSchedules none, snapshot⟩) ∈ cfg.events →
    (snapshot.map (·.scheduleId)).Nodup
  /-- A snapshot entry is stored until somebody writes its schedule. -/
  snapshots : ∀ newer i snapshot older, cfg.events =
      newer ++ (i, ⟨.listSchedules none, snapshot⟩) :: older → ∀ e ∈ snapshot,
      (∀ ev ∈ newer, ev.2.call.writtenSchedule ≠ some e.scheduleId) →
      cfg.state.store.schedules.find? e.scheduleId = some e
  stored : ∀ x, Option.Rel Advanced (wanted pool x (w.store.schedules.find? x) cfg.events)
    (cfg.state.store.schedules.find? x)
  untouched : ∀ newer i e reply older, cfg.events =
      newer ++ (i, ⟨.upsertSchedule e, reply⟩) :: older → (pool i).isPass = true →
      Untouched i e.scheduleId older

theorem Tracks.start (pool : ι → Operation) (w : World) : Tracks pool w (startPool pool w) where
  follows := fun i => (pool i).follows
  obeys := fun _ => trivial
  probes := trivial
  distinct := fun _ _ h => absurd h (by simp [startPool, Config.start])
  snapshots := fun newer _ _ _ h => absurd h (by simp [startPool, Config.start])
  stored := by
    intro x
    simp only [startPool, Config.start, wanted]
    cases w.store.schedules.find? x with
    | none => exact .none
    | some e => exact .some .refl
  untouched := fun newer _ _ _ _ h => absurd h (by simp [startPool, Config.start])

/-- A pass about to write back a due entry finds it stored as its snapshot had it. -/
theorem Tracks.current {cfg : Config ι controller Unit} (h : Tracks pool w cfg) {i : ι}
    {e : ScheduleEntry} {next : Unit → Method Unit}
    (hi : cfg.thread i = .call (.upsertSchedule e) next) (hpass : (pool i).isPass = true)
    (untouched : Untouched i e.scheduleId cfg.events) :
    ∃ old, AdvanceStep old e ∧ old.scheduleId = e.scheduleId ∧
      cfg.state.store.schedules.find? e.scheduleId = some old := by
  have allowed := h.follows.at_call hi
  cases hop : pool i with
  | runDueSchedules now =>
      rw [hop] at allowed
      obtain ⟨heq, -⟩ | ⟨newer, snapshot, old, error, hlog, hmem, hdue, -, heq⟩ :=
        allowed.schedules rfl
      · simp at heq
      · obtain rfl : e = advanceSchedule old now error := by simpa using heq
        refine ⟨old, ⟨now, error, hdue, rfl⟩, rfl, ?_⟩
        have own : (⟨.listSchedules none, snapshot⟩ : Event controller) ∈ cfg.log i := by
          rw [hlog]
          simp
        obtain ⟨later, earlier, hevents⟩ := List.append_of_mem (Config.mem_logOf.mp own)
        rw [hevents] at untouched
        exact h.snapshots later i snapshot earlier hevents old hmem
          (untouched.after rfl rfl)
  | _ => simp [hop, Operation.isPass] at hpass

theorem Tracks.stored_step {cfg : Config ι controller Unit} (h : Tracks pool w cfg) {i : ι}
    {c : StoreCall} {next : c.Reply → Method Unit} (hi : cfg.thread i = .call c next)
    (undisturbed : UndisturbedPass pool cfg i) (x : String) :
    Option.Rel Advanced
      (wanted pool x (w.store.schedules.find? x) ((i, ⟨c, (perform c cfg.state).1⟩) :: cfg.events))
      ((perform c cfg.state).2.store.schedules.find? x) := by
  by_cases hx : c.writtenSchedule = some x
  · cases c with
    | deleteSchedule y =>
        obtain rfl : y = x := Option.some.inj hx
        rw [perform_deleteSchedule]
        simp only [wanted, if_true]
        exact .none
    | upsertSchedule e =>
        obtain rfl : e.scheduleId = x := Option.some.inj hx
        rw [perform_upsertSchedule]
        cases hpass : (pool i).isPass with
        | false =>
            simp only [wanted, hpass, and_self, if_true]
            exact .some .refl
        | true =>
            have untouched := (undisturbed (.upsertSchedule e) (by rw [hi]; rfl)).1 e rfl hpass
            obtain ⟨old, step, -, hold⟩ := h.current hi hpass untouched
            have before := h.stored e.scheduleId
            simp only [wanted, hpass, Bool.true_eq_false, false_and, if_false]
            rw [hold] at before
            generalize wanted pool e.scheduleId (w.store.schedules.find? e.scheduleId) cfg.events =
              asked at before ⊢
            cases before with
            | some advanced => exact .some (advanced.tail step)
    | _ => exact absurd hx (by simp [StoreCall.writtenSchedule])
  · rw [wanted_cons_of_ne hx, perform_find_schedule hx]
    exact h.stored x

theorem Tracks.step {cfg : Config ι controller Unit} {i : ι} (h : Tracks pool w cfg)
    (undisturbed : UndisturbedPass pool cfg i) : Tracks pool w (cfg.step i) := by
  cases hi : cfg.thread i with
  | done a =>
      rw [Config.step_of_done hi]
      exact h
  | call c next =>
      have follows := h.follows.step i
      have obeys := h.obeys.step h.follows i
      have asked := undisturbed c (by rw [hi]; rfl)
      rw [Config.step_of_call hi] at follows obeys ⊢
      refine ⟨follows, obeys, ⟨asked.2, h.probes⟩, ?_, ?_, h.stored_step hi undisturbed, ?_⟩
      · intro j snapshot hmem
        rcases List.mem_cons.mp hmem with heq | hmem
        · simp only [Prod.mk.injEq, Event.mk.injEq] at heq
          obtain ⟨rfl, rfl, hreply⟩ := heq
          rw [eq_of_heq hreply]
          exact listSchedules_nodup _
        · exact h.distinct j snapshot hmem
      · intro newer j snapshot older heq e he quiet
        cases newer with
        | nil =>
            simp only [List.nil_append, List.cons.injEq, Prod.mk.injEq, Event.mk.injEq] at heq
            obtain ⟨⟨rfl, rfl, hreply⟩, rfl⟩ := heq
            rw [← eq_of_heq hreply] at he
            exact mem_listSchedules he
        | cons ev newer =>
            simp only [List.cons_append, List.cons.injEq] at heq
            obtain ⟨rfl, heq⟩ := heq
            rw [perform_find_schedule (quiet _ List.mem_cons_self)]
            exact h.snapshots newer j snapshot older heq e he
              fun ev hev => quiet ev (List.mem_cons_of_mem _ hev)
      · intro newer j e reply older heq hpass
        cases newer with
        | nil =>
            simp only [List.nil_append, List.cons.injEq, Prod.mk.injEq, Event.mk.injEq] at heq
            obtain ⟨⟨rfl, rfl, -⟩, rfl⟩ := heq
            exact (undisturbed (.upsertSchedule e) (by rw [hi]; rfl)).1 e rfl hpass
        | cons ev newer =>
            simp only [List.cons_append, List.cons.injEq] at heq
            exact h.untouched newer j e reply older heq.2 hpass

theorem Tracks.run {schedule : List ι}
    (undisturbed : Config.Admitted (UndisturbedPass pool) (startPool pool w) schedule) :
    Tracks pool w ((startPool pool w).run schedule) :=
  undisturbed.invariant (fun _ _ h hc => h.step hc) (.start pool w)

/-! ## What the clients and the slots see -/

/-- A log that ends in its only snapshot is cut there in one way. -/
theorem snapshot_split {snapshot snapshot' : List ScheduleEntry}
    {newer newer' older : List (Event controller)}
    (quiet : ∀ ev ∈ newer, ev.call.isSnapshot = false)
    (h : newer' ++ ⟨.listSchedules none, snapshot'⟩ :: older =
      newer ++ [⟨.listSchedules none, snapshot⟩]) :
    newer' = newer ∧ snapshot' = snapshot := by
  induction newer generalizing newer' with
  | nil =>
      cases newer' with
      | nil => simpa using congrArg List.head? h
      | cons ev newer' => simp at h
  | cons ev newer ih =>
      cases newer' with
      | nil =>
          simp only [List.nil_append, List.cons_append, List.cons.injEq] at h
          have hev := quiet ev List.mem_cons_self
          rw [← h.1] at hev
          contradiction
      | cons ev' newer' =>
          simp only [List.cons_append, List.cons.injEq] at h
          obtain ⟨rfl, rfl⟩ := ih (fun e he => quiet e (List.mem_cons_of_mem _ he)) h.2
          rw [h.1]
          exact ⟨rfl, rfl⟩

/-- A finished pass wrote back every due entry of its snapshot, afterwards. -/
theorem Tracks.writtenBack {cfg : Config ι controller Unit} (h : Tracks pool w cfg) {p : ι}
    {now : Rat} (hp : pool p = .runDueSchedules now) (hdone : cfg.thread p = .done ())
    {newer older : Trace ι} {snapshot : List ScheduleEntry}
    (hevents : cfg.events = newer ++ (p, ⟨.listSchedules none, snapshot⟩) :: older)
    {e : ScheduleEntry} (he : e ∈ snapshot) (hdue : isDue e now = true) :
    ∃ e' reply, (p, (⟨.upsertSchedule e', reply⟩ : Event controller)) ∈ newer ∧
      e'.scheduleId = e.scheduleId := by
  have final := h.follows.at_done hdone
  rw [hp] at final
  obtain ⟨newer', snapshot', hlog, quiet, served⟩ := final
  have split : Config.logOf p newer ++ ⟨.listSchedules none, snapshot⟩ :: Config.logOf p older =
      newer' ++ [⟨.listSchedules none, snapshot'⟩] := by
    rw [← hlog, Config.log, hevents, Config.logOf_append, Config.logOf_cons_self]
  obtain ⟨rfl, rfl⟩ := snapshot_split quiet split
  obtain ⟨⟨c, reply⟩, hev, e', hc, hx⟩ := served e he hdue
  obtain rfl : c = .upsertSchedule e' := hc
  exact ⟨e', reply, Config.mem_logOf.mp hev, hx⟩

theorem Tracks.slots {cfg : Config ι controller Unit} (h : Tracks pool w cfg) {p q : ι}
    {nowP nowQ : Rat} (hne : p ≠ q) (hp : pool p = .runDueSchedules nowP)
    (hq : pool q = .runDueSchedules nowQ) (doneP : cfg.thread p = .done ())
    (doneQ : cfg.thread q = .done ()) {newer between older : Trace ι}
    {snapshotQ snapshotP : List ScheduleEntry}
    (hevents : cfg.events = newer ++ (q, ⟨.listSchedules none, snapshotQ⟩) :: (between ++
      (p, ⟨.listSchedules none, snapshotP⟩) :: older))
    {e e' : ScheduleEntry} (he : e ∈ snapshotP) (he' : e' ∈ snapshotQ)
    (due : isDue e nowP = true) (due' : isDue e' nowQ = true)
    (same : e.scheduleId = e'.scheduleId) :
    ∃ ev ∈ between, ev.2.call.writtenSchedule = some e.scheduleId := by
  have passP : (pool p).isPass = true := by rw [hp]; rfl
  have passQ : (pool q).isPass = true := by rw [hq]; rfl
  have split : cfg.events = (newer ++ (q, ⟨.listSchedules none, snapshotQ⟩) :: between) ++
      (p, ⟨.listSchedules none, snapshotP⟩) :: older := by
    rw [hevents]
    simp
  obtain ⟨written, replyP, hwritten, hx⟩ := h.writtenBack hp doneP split he due
  obtain ⟨written', replyQ, hwritten', hx'⟩ := h.writtenBack hq doneQ hevents he' due'
  -- Unless `p` wrote back before the snapshot of `q`, both wrote back after it.
  rcases List.mem_append.mp hwritten with hafter | hbefore
  · exfalso
    obtain ⟨later, earlier, hsplit⟩ := List.append_of_mem hafter
    rw [hsplit] at hwritten'
    rcases List.mem_append.mp hwritten' with hlater | hearlier
    · -- `q` wrote back last, after `p` did.
      obtain ⟨last, rest, hlast⟩ := List.append_of_mem hlater
      have untouched := h.untouched last q written' replyQ
        ((rest ++ (p, ⟨.upsertSchedule written, replyP⟩) :: earlier) ++
          (q, ⟨.listSchedules none, snapshotQ⟩) :: (between ++
            (p, ⟨.listSchedules none, snapshotP⟩) :: older))
        (by rw [hevents, hsplit, hlast]; simp) passQ
      refine untouched.after rfl rfl (p, ⟨.upsertSchedule written, replyP⟩) (by simp) ?_
      simp only [StoreCall.writtenSchedule, hx, hx', same]
    · -- `p` wrote back last, after `q` did.
      have hne' : (q, (⟨.upsertSchedule written', replyQ⟩ : Event controller)) ∈ earlier := by
        rcases List.mem_cons.mp hearlier with heq | hmem
        · exact absurd (congrArg Prod.fst heq).symm hne
        · exact hmem
      have untouched := h.untouched later p written replyP
        ((earlier ++ (q, ⟨.listSchedules none, snapshotQ⟩) :: between) ++
          (p, ⟨.listSchedules none, snapshotP⟩) :: older)
        (by rw [hevents, hsplit]; simp) passP
      refine untouched.after rfl rfl (q, ⟨.upsertSchedule written', replyQ⟩)
        (by simp [hne']) ?_
      simp only [StoreCall.writtenSchedule, hx, hx', same]
  · rcases List.mem_cons.mp hbefore with heq | hmem
    · exact absurd (congrArg Prod.fst heq) hne
    · exact ⟨_, hmem, congrArg some hx⟩

theorem serving_eq_some {p : ι} {trace : Trace ι} {e : ScheduleEntry} :
    serving pool p trace = some e ↔ ∃ now, pool p = .runDueSchedules now ∧
      (unserved now (Config.logOf p trace)).head? = some e := by
  cases hp : pool p with
  | runDueSchedules now => simp [serving, hp, Operation.passTime]
  | _ => simp [serving, hp, Operation.passTime]

theorem Tracks.probing {cfg : Config ι controller Unit} (h : Tracks pool w cfg) {p : ι}
    {now : Rat} (hp : pool p = .runDueSchedules now) {newer older : Trace ι} {ev : Event controller}
    (hevents : cfg.events = newer ++ (p, ev) :: older) :
    PassCalls now (Config.logOf p older) ev.call ∧
      Throughout (fun log ev => PassCalls now log ev.call) (Config.logOf p older) := by
  have obeys := h.obeys p
  rw [Config.log, hevents, Config.logOf_append, Config.logOf_cons_self] at obeys
  simp only [hp] at obeys
  exact obeys.earlier

theorem Tracks.serving {cfg : Config ι controller Unit} (h : Tracks pool w cfg) {p : ι}
    (hpass : (pool p).isPass = true) {newer older : Trace ι} {ev : Event controller}
    (hevents : cfg.events = newer ++ (p, ev) :: older) (hev : ev.call.touches = some .network) :
    ∃ e, Controller.serving pool p older = some e := by
  cases hp : pool p with
  | runDueSchedules now =>
      have pending := ((h.probing hp hevents).1.network hev).2
      obtain ⟨e, rest, hcons⟩ := List.exists_cons_of_ne_nil pending
      exact ⟨e, serving_eq_some.mpr ⟨now, hp, by rw [hcons]; rfl⟩⟩
  | _ => simp [hp, Operation.isPass] at hpass

end Traces

/-! ## Races -/

namespace Sample

def service : ServiceEndpoint where
  serviceId := "db"
  name := "database"
  nodeId := none
  host := "10.0.0.1"
  port := 5432
  protocol := .tcp
  serviceId_ne := by decide
  name_ne := by decide
  host_ne := by decide
  port_mem := by decide

def schedule : ScheduleEntry where
  scheduleId := "s1"
  serviceId := "db"
  intervalSeconds := 60
  enabled := true
  count := 4
  probeType := none
  sourceNodeId := none
  topology := none
  createdAt := 0
  lastRunAt := none
  nextRunAt := none
  lastError := none
  consecutiveFailures := 0
  serviceId_ne := by decide
  interval_pos := by decide +kernel
  count_mem := by decide

def scheduled : List Operation :=
  [.registerServices ⟨[service], by decide⟩ none, .createSchedule schedule 0]

end Sample

end NetForge.Controller
