import NetForge.Storage.Baselines
import NetForge.Controller.Monitoring
import NetForge.Python.Text
import Mathlib.Data.List.GetD
import Mathlib.Tactic.Linarith
import Mathlib.Tactic.Positivity
import Mathlib.Algebra.Order.Field.Basic

/-! # Sensitivity of the baseline comparison

`record_and_compare` of `storage/baselines.py`. Its two conditions are one predicate at two
ratios, which grows with the value and shrinks with the ratio. A median of zero is taken for
a missing baseline, so a history without any loss never reports a loss.
-/

namespace NetForge.Storage

open NetForge.Core NetForge.Python
open Controller (severityRank)

def recordAndCompare (history : List Snapshot) (domain key metricName : String)
    (currentValue : Rat) (higherIsWorse : Bool) (warnRatio failRatio : Rat) (now : Rat) :
    BaselineDelta × List Snapshot :=
  let stats := rollingStats history domain key metricName 20
  let metricIsPercent := containsText "percent" (lower metricName)
  (compareToBaseline stats metricName metricIsPercent currentValue higherIsWorse warnRatio
      failRatio,
    saveSnapshot history domain key [(metricName, currentValue)] none now)

def windowSamples (history : List Snapshot) (domain key metricName : String) : List Rat :=
  sampleValues (recentSnapshots history domain key 20) metricName

/-! ## Order statistics -/

theorem sorted_getD_mem {values : List Rat} {i : Nat} (h : i < values.length) :
    (values.insertionSort (· ≤ ·)).getD i 0 ∈ values := by
  have hlength : i < (values.insertionSort (· ≤ ·)).length := by
    rw [List.length_insertionSort]
    exact h
  rw [List.getD_eq_getElem _ _ hlength]
  exact (List.mem_insertionSort _).mp (List.getElem_mem hlength)

theorem sorted_getD_nonneg {values : List Rat} (h : ∀ x ∈ values, 0 ≤ x) (i : Nat) :
    0 ≤ (values.insertionSort (· ≤ ·)).getD i 0 := by
  by_cases hi : i < values.length
  · exact h _ (sorted_getD_mem hi)
  · have hlength : (values.insertionSort (· ≤ ·)).length ≤ i := by
      rw [List.length_insertionSort]
      omega
    rw [List.getD_eq_default _ _ hlength]

theorem median_nonneg {values : List Rat} (h : ∀ x ∈ values, 0 ≤ x) : 0 ≤ median values := by
  unfold median
  simp only
  have hlow := sorted_getD_nonneg h ((values.insertionSort (· ≤ ·)).length / 2 - 1)
  have hhigh := sorted_getD_nonneg h ((values.insertionSort (· ≤ ·)).length / 2)
  split
  · exact hhigh
  · linarith

/-- The value lies a ratio above the baseline, by an amount that counts, and outside of what the
samples do. -/
structure Deviates (st : RollingStats) (guard : Rat) (ratio v : Rat) : Prop where
  enough : 5 ≤ st.sampleCount
  above : ratio ≤ v / st.median
  moved : guard ≤ |v - st.median| ∨ 10 ≤ v
  unusual : st.p95 < v ∨ (0 < st.mad ∧ 3 * st.mad ≤ |v - st.median|)

theorem Deviates.of_le {st : RollingStats} {guard ratio ratio' v : Rat}
    (h : Deviates st guard ratio' v) (hratio : ratio ≤ ratio') : Deviates st guard ratio v where
  enough := h.enough
  above := hratio.trans h.above
  moved := h.moved
  unusual := h.unusual

theorem Deviates.mono {st : RollingStats} {guard ratio v v' : Rat} (hmedian : 0 < st.median)
    (hratio : 1 ≤ ratio) (h : Deviates st guard ratio v) (hv : v ≤ v') :
    Deviates st guard ratio v' := by
  have hbaseline : st.median ≤ v := by
    have hone : 1 ≤ v / st.median := hratio.trans h.above
    rwa [one_le_div hmedian] at hone
  have hdelta : |v - st.median| ≤ |v' - st.median| := by
    rw [abs_of_nonneg (by linarith), abs_of_nonneg (by linarith)]
    linarith
  constructor
  · exact h.enough
  · exact h.above.trans ((div_le_div_iff_of_pos_right hmedian).mpr hv)
  · rcases h.moved with hmoved | hmoved
    · exact .inl (hmoved.trans hdelta)
    · exact .inr (hmoved.trans hv)
  · rcases h.unusual with hunusual | ⟨hmad, hunusual⟩
    · exact .inl (hunusual.trans_le hv)
    · exact .inr ⟨hmad, hunusual.trans hdelta⟩

theorem deviates_iff {st : RollingStats} {guard ratio v : Rat} :
    Deviates st guard ratio v ↔ 5 ≤ st.sampleCount ∧ ratio ≤ v / st.median ∧
      (guard ≤ |v - st.median| ∨ 10 ≤ v) ∧
        (st.p95 < v ∨ (0 < st.mad ∧ 3 * st.mad ≤ |v - st.median|)) :=
  ⟨fun h => ⟨h.enough, h.above, h.moved, h.unusual⟩,
    fun h => ⟨h.1, h.2.1, h.2.2.1, h.2.2.2⟩⟩

/-- The report of a value that fails the upper condition or only the lower one. -/
structure Graded (delta : BaselineDelta) (failed warned : Prop) : Prop where
  deviated : delta.deviated = true ↔ warned
  of_failed : failed → delta.status = .failed ∧ delta.severity = .high
  of_not : ¬ failed →
    delta.status = (if delta.deviated then .degraded else .healthy) ∧
      delta.severity = if delta.deviated then .medium else .info

namespace Graded

variable {delta delta' : BaselineDelta} {failed failed' warned warned' : Prop}

theorem failed_iff (h : Graded delta failed warned) : delta.status = .failed ↔ failed := by
  constructor
  · intro hstatus
    by_contra hnot
    rw [(h.of_not hnot).1] at hstatus
    split at hstatus <;> cases hstatus
  · intro hfailed
    exact (h.of_failed hfailed).1

theorem healthy_iff (h : Graded delta failed warned) (himp : failed → warned) :
    delta.status = .healthy ↔ delta.deviated = false := by
  by_cases hfailed : failed
  · rw [(h.of_failed hfailed).1, h.deviated.mpr (himp hfailed)]
    decide
  · rw [(h.of_not hfailed).1]
    cases delta.deviated <;> decide

/-- Conditions that grow make a report that is at least as severe. -/
theorem rank_le (h : Graded delta failed warned) (h' : Graded delta' failed' warned')
    (hfailed : failed → failed') (hwarned : warned → warned') :
    severityRank delta.severity ≤ severityRank delta'.severity := by
  by_cases hupper : failed'
  · rw [(h'.of_failed hupper).2]
    by_cases hlower : failed
    · rw [(h.of_failed hlower).2]
    · rw [(h.of_not hlower).2]
      split <;> decide
  · have hlower : ¬ failed := mt hfailed hupper
    rw [(h.of_not hlower).2, (h'.of_not hupper).2]
    by_cases hwarn : warned
    · rw [if_pos (h.deviated.mpr hwarn), if_pos (h'.deviated.mpr (hwarned hwarn))]
    · rw [if_neg (mt h.deviated.mp hwarn)]
      exact Nat.zero_le _

end Graded

/-- The comparison with a baseline that is not zero, higher values being worse. -/
theorem compareToBaseline_graded {st : RollingStats} (hmedian : st.median ≠ 0) (metric : String)
    (percent : Bool) (v warnRatio failRatio : Rat) :
    Graded (compareToBaseline (some st) metric percent v true warnRatio failRatio)
      (Deviates st (absGuard percent) failRatio v)
      (Deviates st (absGuard percent) warnRatio v) := by
  have hsome : (some st).filter (fun st => st.median ≠ 0) = some st := by
    simp [Option.filter, hmedian]
  unfold compareToBaseline
  rw [hsome, deviates_iff, deviates_iff]
  constructor
  · simp
  · intro h
    simp [h]
  · intro h
    have hfailed : (true && decide (5 ≤ st.sampleCount) && decide (failRatio ≤ v / st.median) &&
        decide (absGuard percent ≤ |v - st.median| ∨ 10 ≤ v) &&
        decide (st.p95 < v ∨ 0 < st.mad ∧ 3 * st.mad ≤ |v - st.median|)) = false := by
      rw [Bool.eq_false_iff]
      intro htrue
      apply h
      simpa [and_assoc] using htrue
    simp only [hfailed]
    exact ⟨rfl, rfl⟩

/-- Without a baseline, and with a baseline of zero, nothing is reported. -/
theorem compareToBaseline_seeds {stats : Option RollingStats} (h : ∀ st ∈ stats, st.median = 0)
    (metric : String) (percent : Bool) (v warnRatio failRatio : Rat) :
    Graded (compareToBaseline stats metric percent v true warnRatio failRatio) False False := by
  have hnone : stats.filter (fun st => st.median ≠ 0) = none := by
    cases stats with
    | none => rfl
    | some st => simp [Option.filter, h st rfl]
  unfold compareToBaseline
  rw [hnone]
  exact ⟨by simp, fun h => h.elim, fun _ => ⟨rfl, rfl⟩⟩

/-! ## The statistics of the window -/

section

variable {history : List Snapshot} {domain key metricName : String}

theorem rollingStats_eq_none :
    rollingStats history domain key metricName 20 = none ↔
      windowSamples history domain key metricName = [] := by
  unfold rollingStats windowSamples
  cases sampleValues (recentSnapshots history domain key 20) metricName <;> simp

theorem rollingStats_eq_some {st : RollingStats}
    (h : rollingStats history domain key metricName 20 = some st) :
    st.sampleCount = (windowSamples history domain key metricName).length ∧
      st.median = median (windowSamples history domain key metricName) ∧
      (2 ≤ st.sampleCount →
        st.p95 = lastVigintile (windowSamples history domain key metricName)) := by
  unfold rollingStats at h
  unfold windowSamples
  cases hvalues : sampleValues (recentSnapshots history domain key 20) metricName with
  | nil =>
      rw [hvalues] at h
      cases h
  | cons x xs =>
      rw [hvalues] at h
      cases h
      refine ⟨rfl, rfl, ?_⟩
      intro hcount
      exact if_neg (Nat.not_lt.mpr hcount)

/-- The value deviates from a baseline of the history that is taken for one. -/
def Exceeds (history : List Snapshot) (domain key metricName : String) (ratio v : Rat) : Prop :=
  ∃ st, rollingStats history domain key metricName 20 = some st ∧ st.median ≠ 0 ∧
    Deviates st (absGuard (containsText "percent" (lower metricName))) ratio v

theorem recordAndCompare_graded (v warnRatio failRatio now : Rat) :
    Graded (recordAndCompare history domain key metricName v true warnRatio failRatio now).1
      (Exceeds history domain key metricName failRatio v)
      (Exceeds history domain key metricName warnRatio v) := by
  show Graded (compareToBaseline _ _ _ _ _ _ _) _ _
  by_cases hseeds : ∀ st ∈ rollingStats history domain key metricName 20, st.median = 0
  · have hnever : ∀ ratio, Exceeds history domain key metricName ratio v ↔ False := by
      intro ratio
      rw [iff_false]
      intro ⟨st, hst, hmedian, _⟩
      exact hmedian (hseeds st hst)
    rw [hnever, hnever]
    exact compareToBaseline_seeds hseeds _ _ v warnRatio failRatio
  · push Not at hseeds
    obtain ⟨st, hst, hmedian⟩ := hseeds
    have hexceeds : ∀ ratio, Exceeds history domain key metricName ratio v ↔
        Deviates st (absGuard (containsText "percent" (lower metricName))) ratio v := by
      intro ratio
      constructor
      · intro ⟨st', hst', _, hdev⟩
        rw [show st = st' from Option.some.inj (hst.symm.trans hst')]
        exact hdev
      · intro hdev
        exact ⟨st, hst, hmedian, hdev⟩
    rw [hexceeds, hexceeds, show rollingStats history domain key metricName 20 = some st from hst]
    exact compareToBaseline_graded hmedian _ _ v warnRatio failRatio

theorem Exceeds.of_le {ratio ratio' v : Rat} (h : Exceeds history domain key metricName ratio' v)
    (hratio : ratio ≤ ratio') : Exceeds history domain key metricName ratio v := by
  obtain ⟨st, hst, hmedian, hdev⟩ := h
  exact ⟨st, hst, hmedian, hdev.of_le hratio⟩

theorem baseline_pos (hnonneg : ∀ x ∈ windowSamples history domain key metricName, 0 ≤ x)
    {st : RollingStats} (hst : rollingStats history domain key metricName 20 = some st)
    (hmedian : st.median ≠ 0) : 0 < st.median := by
  have hle : 0 ≤ st.median := by
    rw [(rollingStats_eq_some hst).2.1]
    exact median_nonneg hnonneg
  exact lt_of_le_of_ne hle hmedian.symm

theorem Exceeds.mono (hnonneg : ∀ x ∈ windowSamples history domain key metricName, 0 ≤ x)
    {ratio v v' : Rat} (hratio : 1 ≤ ratio) (h : Exceeds history domain key metricName ratio v)
    (hv : v ≤ v') : Exceeds history domain key metricName ratio v' := by
  obtain ⟨st, hst, hmedian, hdev⟩ := h
  exact ⟨st, hst, hmedian, hdev.mono (baseline_pos hnonneg hst hmedian) hratio hv⟩

end

namespace Sample

def steady (metric : String) (value : Rat) : List Snapshot :=
  (List.range 5).map fun (i : Nat) => ⟨"host", "router", none, [(metric, value)], i⟩

end Sample

variable {history : List Snapshot} {domain key metricName : String}

/-- A larger value is never reported as less severe, and a value is healthy exactly when it does
not deviate. -/
theorem recordAndCompare_monotone
    (hnonneg : ∀ x ∈ windowSamples history domain key metricName, 0 ≤ x)
    {warnRatio failRatio : Rat} (hwarn : 1 ≤ warnRatio) (hfail : warnRatio ≤ failRatio)
    (now : Rat) :
    let result := fun v =>
      (recordAndCompare history domain key metricName v true warnRatio failRatio now).1
    (∀ v v', v ≤ v' → severityRank (result v).severity ≤ severityRank (result v').severity) ∧
      ∀ v, (result v).status = .healthy ↔ (result v).deviated = false := by
  intro result
  have hgraded : ∀ v, Graded (result v) _ _ := fun v =>
    recordAndCompare_graded v warnRatio failRatio now
  constructor
  · intro v v' hv
    apply (hgraded v).rank_le (hgraded v')
    · intro h
      exact h.mono hnonneg (hwarn.trans hfail) hv
    · intro h
      exact h.mono hnonneg hwarn hv
  · intro v
    apply (hgraded v).healthy_iff
    intro h
    exact h.of_le hfail

theorem recordAndCompare_monotone_latency :
    let result := fun v => (recordAndCompare (Sample.steady "avg_ms" 20) "host" "router" "avg_ms" v
      true (3 / 2) (5 / 2) 5).1
    severityRank (result 30).severity ≤ severityRank (result 50).severity ∧
      ((result 50).status = .healthy ↔ (result 50).deviated = false) := by
  have hwindow : windowSamples (Sample.steady "avg_ms" 20) "host" "router" "avg_ms" =
      List.replicate 5 20 := by decide +kernel
  obtain ⟨hrank, hhealthy⟩ := @recordAndCompare_monotone (Sample.steady "avg_ms" 20) "host"
    "router" "avg_ms" (by rw [hwindow]; decide +kernel) (3 / 2) (5 / 2) (by norm_num)
    (by norm_num) 5
  exact ⟨hrank 30 50 (by norm_num), hhealthy 50⟩

end NetForge.Storage
