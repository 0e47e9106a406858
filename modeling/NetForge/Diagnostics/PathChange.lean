import NetForge.Calculus.StableSort
import NetForge.Diagnostics.Traceroute

/-! # Path changes over a history of traces

Each trace of a target is stored, failed ones without a fingerprint, and compared with the
snapshot ranked second by clock reading. Over a run of traces the comparison says that the
path changed exactly when it should as long as the snapshot ranked second speaks for the
last successful trace.
-/

namespace NetForge.Diagnostics

open NetForge.Core NetForge.Python NetForge.Storage Calculus

variable (sha256 : String → String)

/-! ## One comparison -/

def TraceRun.fingerprint? (run : TraceRun) : Option String :=
  if run.error.filter (· ≠ "") = none ∧ run.hops ≠ [] then some (pathFingerprint sha256 run.hops)
  else none

theorem storedFingerprint_tracerouteToResult (target : String) (run : TraceRun) :
    storedFingerprint (tracerouteToResult sha256 target run) = run.fingerprint? sha256 := by
  unfold tracerouteToResult TraceRun.fingerprint?
  cases herror : run.error.filter (· ≠ "") with
  | some error => simp [storedFingerprint, Dict.value]
  | none =>
      by_cases hhops : run.hops = []
      · simp [hhops, storedFingerprint, Dict.value]
      · have hsuccess : True ∧ run.hops ≠ [] := ⟨trivial, hhops⟩
        simp only [if_neg hhops, if_pos hsuccess]
        rfl

def reportsChange (result : DiagnosticResult) : Bool := (result.metrics.value "changed").truthy

theorem detectPathChange_stored (target : String) (current : DiagnosticResult)
    (history : List Snapshot) (now : Rat) :
    (detectPathChange target current history now).2 =
      saveSnapshot history "path" target [] (storedFingerprint current) now := by
  unfold detectPathChange
  simp only
  split
  · rfl
  · split <;> rfl

theorem reportsChange_iff (target : String) (current : DiagnosticResult)
    (history : List Snapshot) (now : Rat) :
    reportsChange (detectPathChange target current history now).1 = true ↔
      ∃ previous ∈ previousSnapshot (detectPathChange target current history now).2 "path" target,
        previous.fingerprint ≠ storedFingerprint current := by
  rw [detectPathChange_stored]
  unfold detectPathChange
  simp only
  split
  · rename_i hnone
    simp [reportsChange, Dict.value, PyVal.truthy, hnone]
  · rename_i previous hsome
    by_cases h : previous.fingerprint = storedFingerprint current
    · simp [reportsChange, Dict.value, PyVal.truthy, hsome, h]
    · simp [reportsChange, Dict.value, PyVal.truthy, hsome, h]

/-! ## A run of traces -/

/-- A trace and the clock reading its snapshot is stored with. -/
structure TraceStep where
  now : Rat
  run : TraceRun
  deriving DecidableEq

def TraceStep.fingerprint? (step : TraceStep) : Option String := step.run.fingerprint? sha256

/-- The traces of one target, in order, over a history that has none of it yet. The clock
is never set back. -/
structure Tracing where
  target : String
  before : List Snapshot
  steps : List TraceStep
  before_foreign : ∀ s ∈ before, ¬ (s.domain = "path" ∧ s.key = target)
  clock : steps.Pairwise fun a b => a.now ≤ b.now

namespace Tracing

variable (r : Tracing)

def history (steps : List TraceStep) : List Snapshot :=
  steps.foldl
    (fun history step => (collectPathDiagnostics sha256 r.target step.run history step.now).2)
    r.before

def comparison (earlier : List TraceStep) (step : TraceStep) : DiagnosticResult :=
  (detectPathChange r.target (tracerouteToResult sha256 r.target step.run)
    (r.history sha256 earlier) step.now).1

def lastSuccess (earlier : List TraceStep) : Option String :=
  (earlier.filterMap (·.fingerprint? sha256)).getLast?

/-- Every comparison says that the path changed exactly when the trace succeeded on another
path than the most recent successful one before it. -/
def Sound : Prop :=
  ∀ earlier step later, r.steps = earlier ++ step :: later →
    (reportsChange (r.comparison sha256 earlier step) = true ↔
      ∃ p q, step.fingerprint? sha256 = some p ∧ lastSuccess sha256 earlier = some q ∧ q ≠ p)

/-- The trace whose snapshot is compared speaks for the last success: a failed trace is
compared with none or a failed one; a successful one with none, with a failed one when its
path is new, or with a success that is the last one or, like the last one, on another path. -/
def Comparable (earlier : List TraceStep) (step : TraceStep) : Prop :=
  ∀ other ∈ runnerUp TraceStep.now earlier step,
    match step.fingerprint? sha256, other.fingerprint? sha256 with
    | none, found => found = none
    | some p, none => ∃ q ∈ lastSuccess sha256 earlier, q ≠ p
    | some p, some found => ∀ q ∈ lastSuccess sha256 earlier, found = q ∨ (found ≠ p ∧ q ≠ p)

def row (step : TraceStep) : Snapshot :=
  ⟨"path", r.target, step.fingerprint? sha256, [], step.now⟩

theorem history_eq (steps : List TraceStep) :
    r.history sha256 steps = r.before ++ steps.map (r.row sha256) := by
  induction steps using List.reverseRecOn with
  | nil => simp [history]
  | append_singleton steps step ih =>
      unfold history at ih ⊢
      rw [List.foldl_append, ih, List.map_append, ← List.append_assoc]
      show (collectPathDiagnostics sha256 r.target step.run _ step.now).2 = _
      unfold collectPathDiagnostics
      simp only
      rw [detectPathChange_stored, storedFingerprint_tracerouteToResult]
      rfl

theorem filter_history (steps : List TraceStep) :
    (r.history sha256 steps).filter (fun s => s.domain = "path" ∧ s.key = r.target) =
      steps.map (r.row sha256) := by
  have hbefore : r.before.filter (fun s => s.domain = "path" ∧ s.key = r.target) = [] := by
    apply List.filter_eq_nil_iff.mpr
    intro s hs
    simpa using r.before_foreign s hs
  have hrows : (steps.map (r.row sha256)).filter
      (fun s => s.domain = "path" ∧ s.key = r.target) = steps.map (r.row sha256) := by
    apply List.filter_eq_self.mpr
    intro s hs
    obtain ⟨step, -, rfl⟩ := List.mem_map.mp hs
    simp [row]
  rw [history_eq, List.filter_append, hbefore, hrows, List.nil_append]

variable {r} {earlier later : List TraceStep} {step : TraceStep}

/-- The snapshot compared with is that of the trace ranked second. -/
theorem previousSnapshot_eq (h : r.steps = earlier ++ step :: later) :
    previousSnapshot (r.history sha256 (earlier ++ [step])) "path" r.target =
      (runnerUp TraceStep.now earlier step).map (r.row sha256) := by
  have hclock := r.clock
  rw [h] at hclock
  obtain ⟨hearlier, -, hlate⟩ := List.pairwise_append.mp hclock
  have hstep : ∀ e ∈ earlier, e.now ≤ step.now := fun e he => hlate e he step List.mem_cons_self
  have hsorted : ((earlier ++ [step]).map (r.row sha256)).insertionSort
      (fun a b => b.createdAt ≤ a.createdAt) =
        ((earlier ++ [step]).insertionSort fun a b => b.now ≤ a.now).map (r.row sha256) := by
    symm
    apply List.map_insertionSort
    intro a _ b _
    rfl
  unfold previousSnapshot recentSnapshots
  rw [filter_history, hsorted, List.getElem?_take_of_lt (by omega), List.getElem?_map,
    getElem?_one_insertionSort TraceStep.now hearlier hstep]

theorem reportsChange_comparison (h : r.steps = earlier ++ step :: later) :
    reportsChange (r.comparison sha256 earlier step) = true ↔
      ∃ other ∈ runnerUp TraceStep.now earlier step,
        other.fingerprint? sha256 ≠ step.fingerprint? sha256 := by
  have hstored : (detectPathChange r.target (tracerouteToResult sha256 r.target step.run)
      (r.history sha256 earlier) step.now).2 = r.history sha256 (earlier ++ [step]) := by
    unfold history
    rw [List.foldl_append]
    rfl
  unfold comparison
  rw [reportsChange_iff, hstored, previousSnapshot_eq sha256 h,
    storedFingerprint_tracerouteToResult]
  constructor
  · rintro ⟨previous, hprevious, hne⟩
    obtain ⟨other, hother, rfl⟩ := Option.mem_map.mp hprevious
    exact ⟨other, hother, hne⟩
  · rintro ⟨other, hother, hne⟩
    exact ⟨_, Option.mem_map.mpr ⟨other, hother, rfl⟩, hne⟩

theorem lastSuccess_append (front : List TraceStep) {last : TraceStep} {p : String}
    (h : last.fingerprint? sha256 = some p) : lastSuccess sha256 (front ++ [last]) = some p := by
  simp [lastSuccess, h]

theorem lastSuccess_eq_none {earlier : List TraceStep} :
    lastSuccess sha256 earlier = none ↔ ∀ e ∈ earlier, e.fingerprint? sha256 = none := by
  unfold lastSuccess
  rw [List.getLast?_eq_none_iff, List.filterMap_eq_nil_iff]

/-- A comparison is right exactly when the trace it is made with speaks for the last
success. -/
theorem right_iff_comparable (h : r.steps = earlier ++ step :: later) :
    (reportsChange (r.comparison sha256 earlier step) = true ↔
        ∃ p q, step.fingerprint? sha256 = some p ∧ lastSuccess sha256 earlier = some q ∧ q ≠ p) ↔
      Comparable sha256 earlier step := by
  rw [reportsChange_comparison sha256 h]
  unfold Comparable
  cases hother : runnerUp TraceStep.now earlier step with
  | none =>
      have hlast : lastSuccess sha256 earlier = none := by
        rw [eq_nil_of_runnerUp _ hother]
        rfl
      simp [hlast]
  | some other =>
      have hsource := mem_of_runnerUp _ hother
      cases hstep : step.fingerprint? sha256 with
      | none => simp
      | some p =>
          cases hfound : other.fingerprint? sha256 with
          | none => simp [hfound]
          | some found =>
              cases hlast : lastSuccess sha256 earlier with
              | none =>
                  have hself : other = step := by
                    rcases hsource with hmem | hself
                    · have hnone := (lastSuccess_eq_none sha256).mp hlast other hmem
                      rw [hfound] at hnone
                      cases hnone
                    · exact hself
                  rw [hself, hstep] at hfound
                  cases hfound
                  simp [hself, hstep]
              | some q =>
                  by_cases hp : found = p
                  · by_cases hq : q = p <;> simp [hfound, hp, hq, eq_comm]
                  · by_cases hq : q = p <;> simp [hfound, hp, hq]

/-- With a clock that advances at every trace, the trace before is compared. -/
theorem runnerUp_of_advancing (hclock : r.steps.Pairwise fun a b => a.now < b.now)
    (h : r.steps = earlier ++ step :: later) :
    runnerUp TraceStep.now earlier step = earlier.getLast? := by
  rw [h] at hclock
  obtain ⟨hearlier, -, hlate⟩ := List.pairwise_append.mp hclock
  exact runnerUp_of_strict _ hearlier fun e he => hlate e he step List.mem_cons_self

variable (r) in
theorem sound_iff_comparable :
    r.Sound sha256 ↔ ∀ earlier step later, r.steps = earlier ++ step :: later →
      Comparable sha256 earlier step := by
  constructor
  · intro hsound earlier step later h
    exact (right_iff_comparable sha256 h).mp (hsound earlier step later h)
  · intro hall earlier step later h
    exact (right_iff_comparable sha256 h).mpr (hall earlier step later h)

/-- One success, or one failure, decides how all traces of a sound run end. -/
theorem alike_of_sound (hclock : r.steps.Pairwise fun a b => a.now < b.now)
    (hsound : r.Sound sha256) (front later : List TraceStep) (h : r.steps = front ++ later) :
    (∀ s ∈ front, s.fingerprint? sha256 ≠ none) ∨
      ∀ s ∈ front, s.fingerprint? sha256 = none := by
  induction front using List.reverseRecOn generalizing later with
  | nil => simp
  | append_singleton front step ih =>
      have hsplit : r.steps = front ++ step :: later := by
        rw [h, List.append_assoc]
        rfl
      have hcomparable := (r.sound_iff_comparable sha256).mp hsound front step later hsplit
      unfold Comparable at hcomparable
      rw [runnerUp_of_advancing hclock hsplit] at hcomparable
      cases hlast : front.getLast? with
      | none =>
          rw [List.getLast?_eq_none_iff.mp hlast, List.nil_append]
          by_cases hstep : step.fingerprint? sha256 = none
          · exact .inr (by simpa using hstep)
          · exact .inl (by simpa using hstep)
      | some other =>
          have hmem : other ∈ front := List.mem_of_getLast? hlast
          have hother := hcomparable other hlast
          rcases ih _ hsplit with hall | hnone
          · cases hstep : step.fingerprint? sha256 with
            | none =>
                rw [hstep] at hother
                exact absurd hother (hall other hmem)
            | some p =>
                left
                intro s hs
                rcases List.mem_append.mp hs with hs | hs
                · exact hall s hs
                · rw [List.mem_singleton.mp hs, hstep]
                  simp
          · cases hstep : step.fingerprint? sha256 with
            | none =>
                right
                intro s hs
                rcases List.mem_append.mp hs with hs | hs
                · exact hnone s hs
                · rw [List.mem_singleton.mp hs, hstep]
            | some p =>
                rw [hstep, hnone other hmem] at hother
                obtain ⟨q, hq, -⟩ := hother
                rw [(lastSuccess_eq_none sha256).mpr hnone] at hq
                cases hq

theorem comparable_of_alike (hclock : r.steps.Pairwise fun a b => a.now < b.now)
    (halike : (∀ s ∈ r.steps, s.fingerprint? sha256 ≠ none) ∨
      ∀ s ∈ r.steps, s.fingerprint? sha256 = none)
    (h : r.steps = earlier ++ step :: later) : Comparable sha256 earlier step := by
  unfold Comparable
  rw [runnerUp_of_advancing hclock h]
  intro other hother
  obtain ⟨front, rfl⟩ := List.getLast?_eq_some_iff.mp hother
  rcases halike with hall | hnone
  · obtain ⟨p, hp⟩ := Option.ne_none_iff_exists'.mp (hall step (by simp [h]))
    obtain ⟨found, hfound⟩ := Option.ne_none_iff_exists'.mp (hall other (by simp [h]))
    rw [hp, hfound]
    intro q hq
    rw [lastSuccess_append sha256 front hfound] at hq
    exact .inl (Option.some.inj hq)
  · rw [hnone step (by simp [h]), hnone other (by simp [h])]

end Tracing

/-- The path changes of a run are reported rightly exactly when each trace is compared with
one that speaks for the last success; with a clock that advances at every trace, when all
traces succeed or all fail. -/
theorem path_changes_sound_iff (r : Tracing) :
    (r.Sound sha256 ↔ ∀ earlier step later, r.steps = earlier ++ step :: later →
        Tracing.Comparable sha256 earlier step) ∧
      (r.steps.Pairwise (fun a b => a.now < b.now) →
        (r.Sound sha256 ↔ (∀ s ∈ r.steps, s.fingerprint? sha256 ≠ none) ∨
          ∀ s ∈ r.steps, s.fingerprint? sha256 = none)) := by
  refine ⟨r.sound_iff_comparable sha256, fun hclock => ?_⟩
  constructor
  · intro hsound
    exact Tracing.alike_of_sound sha256 hclock hsound r.steps [] (List.append_nil _).symm
  · intro halike
    apply (r.sound_iff_comparable sha256).mpr
    intro earlier step later h
    exact Tracing.comparable_of_alike sha256 hclock halike h

namespace Sample

def digest (path : String) : String :=
  if path = "1:10.0.0.1" then "d25d25b5f5e76fc881116d9884e69efb447471a11712695644096e87892a3a72"
  else "56ce27fc665b7c71557084a046126c307ad3dba9a9c25c975743cca41217b5d2"

def via (address : String) : TraceRun where
  hops := [⟨1, some address, none, [1], some 0, false⟩]
  error := none

def cutOff : Tracing where
  target := "10.0.0.9"
  before := []
  steps := [⟨0, via "10.0.0.1"⟩, ⟨1, ⟨[], some "timed out after 60 seconds"⟩⟩]
  before_foreign := by simp
  clock := by decide +kernel

def hurried : Tracing where
  target := "10.0.0.9"
  before := []
  steps := [⟨0, via "10.0.0.1"⟩, ⟨0, via "10.0.0.254"⟩]
  before_foreign := by simp
  clock := by decide +kernel

end Sample

/-- A trace that fails after a success is reported as a changed path, and a new path within
the clock reading of the first is not. -/
theorem failed_trace_changes_path :
    (¬ ∀ (sha256 : String → String) (r : Tracing), r.Sound sha256) ∧
      reportsChange (Sample.cutOff.comparison Sample.digest (Sample.cutOff.steps.take 1)
        ⟨1, ⟨[], some "timed out after 60 seconds"⟩⟩) = true ∧
      reportsChange (Sample.hurried.comparison Sample.digest (Sample.hurried.steps.take 1)
        ⟨0, Sample.via "10.0.0.254"⟩) = false := by
  have hreported : reportsChange (Sample.cutOff.comparison Sample.digest
      (Sample.cutOff.steps.take 1) ⟨1, ⟨[], some "timed out after 60 seconds"⟩⟩) = true := by
    decide +kernel
  refine ⟨fun hclaim => ?_, hreported, by decide +kernel⟩
  obtain ⟨p, q, hstep, -⟩ := (hclaim Sample.digest Sample.cutOff (Sample.cutOff.steps.take 1)
    ⟨1, ⟨[], some "timed out after 60 seconds"⟩⟩ [] rfl).mp hreported
  cases hstep

end NetForge.Diagnostics
