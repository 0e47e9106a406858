import NetForge.Analysis.Engine

/-! # Hops with measured loss and round-trip time

A hop list whose losses and round-trip times are numbers, or missing, is read
without exceptions. What the rules compute from it is stated over the numbers.
-/

namespace NetForge.Analysis

open NetForge.Core Python

/-- An entry of a hop list, with the numbers read from it. Missing ones count as
zero. -/
structure HopRecord where
  fields : Dict
  loss : Rat
  rtt : Rat
  loss_eq : ((fields.value "loss_percent").orElse (.num 0)).number? = some loss
  rtt_eq : ((fields.value "avg_rtt_ms").orElse (.num 0)).number? = some rtt

namespace HopRecord

def val (h : HopRecord) : PyVal := .dict h.fields

/-- Half of the probes lost at an address that answered. -/
def isBad (h : HopRecord) : Bool :=
  decide (50 ≤ h.loss) && (h.fields.value "address").truthy

def worst (measure : HopRecord → Rat) (hops : List HopRecord) : Rat :=
  (AnalysisContext.maxFloat (hops.map measure)).getD 0

end HopRecord

open HopRecord

theorem hopMetric_val (key : String) (h : HopRecord) :
    Rules.hopMetric key h.val = .ok ((h.fields.value key).orElse (.num 0)) := rfl

theorem isBadHop_val (h : HopRecord) : Rules.isBadHop h.val = .ok h.isBad := by
  simp only [Rules.isBadHop, hopMetric_val, both, PyVal.isAtLeast_of_number h.loss_eq, bind,
    Except.bind, isBad]
  by_cases hl : 50 ≤ h.loss
  · simp [hl, val, PyVal.asDict, pure, Except.pure]
  · simp [hl, pure, Except.pure]

theorem anyBadHop_val (hops : List HopRecord) :
    Rules.anyBadHop (hops.map val) = .ok (hops.any isBad) := by
  have hmap : (hops.map val).mapM Rules.isBadHop = .ok (hops.map isBad) := by
    rw [List.mapM_map]
    exact mapM_ok fun h _ => isBadHop_val h
  simp [Rules.anyBadHop, hmap, bind, Except.bind, pure, Except.pure, List.any_map]

/-- The largest value of a measurement over some hops is a number. -/
theorem maxHopMetric_val {key : String} {measure : HopRecord → Rat}
    (hkey : ∀ h : HopRecord,
      ((h.fields.value key).orElse (.num 0)).number? = some (measure h))
    {hops : List HopRecord} (hne : hops ≠ []) :
    ∃ v, Rules.maxHopMetric key (hops.map val) = .ok v ∧
      v.number? = some (worst measure hops) := by
  cases hops with
  | nil => exact absurd rfl hne
  | cons h hops =>
      have hmap : ((h :: hops).map val).mapM (Rules.hopMetric key) =
          .ok ((h :: hops).map fun h => (h.fields.value key).orElse (.num 0)) := by
        rw [List.mapM_map]
        exact mapM_ok fun h _ => hopMetric_val key h
      have hnums : (hops.map fun h => (h.fields.value key).orElse (.num 0)).map PyVal.number? =
          (hops.map measure).map some := by
        simp only [List.map_map]
        exact List.map_congr_left fun h _ => hkey h
      obtain ⟨v, hv, hnum⟩ := PyVal.maxFrom_of_numbers (hkey h) hnums
      exact ⟨v, ok_of_bind.mpr ⟨_, hmap, hv⟩, hnum⟩

/-! ## The access segment and the rest of the path -/

/-- The first two hops lose, the later ones hardly do. -/
def LastMile (hops : List HopRecord) : Prop :=
  3 ≤ hops.length ∧ 50 ≤ worst loss (hops.take 2) ∧ worst loss (hops.drop 2) < 30

/-- The later hops lose and are slow, the first two are not. -/
def CoreTransit (hops : List HopRecord) : Prop :=
  3 ≤ hops.length ∧ 50 ≤ worst loss (hops.drop 2) ∧ worst loss (hops.take 2) < 20 ∧
    worst rtt (hops.take 2) + 80 < worst rtt (hops.drop 2)

instance (hops : List HopRecord) : Decidable (LastMile hops) :=
  inferInstanceAs (Decidable (_ ∧ _ ∧ _))

instance (hops : List HopRecord) : Decidable (CoreTransit hops) :=
  inferInstanceAs (Decidable (_ ∧ _ ∧ _ ∧ _))

def lastMileIssue (hops : List HopRecord) : Option DiagnosedIssue :=
  if LastMile hops then
    some (buildIssue .lastMileVsCore (.text "Likely Last-Mile / Access Path Issue") .high
      (78 / 100) [])
  else if CoreTransit hops then
    some (buildIssue .lastMileVsCore (.text "Likely Core / Transit Path Degradation") .high
      (75 / 100) [])
  else none

theorem lastMileIssue_eq_none_iff (hops : List HopRecord) :
    lastMileIssue hops = none ↔ ¬ LastMile hops ∧ ¬ CoreTransit hops := by
  unfold lastMileIssue
  by_cases hl : LastMile hops
  · simp [hl]
  · by_cases hc : CoreTransit hops <;> simp [hl, hc]

theorem lastMileIssue_spec {hops : List HopRecord} {issue : DiagnosedIssue}
    (h : lastMileIssue hops = some issue) :
    issue.isMinor = false ∧ issue.suppressedRules = [] := by
  unfold lastMileIssue at h
  split at h
  · cases h
    exact ⟨rfl, rfl⟩
  · split at h
    · cases h
      exact ⟨rfl, rfl⟩
    · cases h

theorem lastMileVsCore_val {ctx : AnalysisContext} {hops : List HopRecord}
    (h : ctx.getPathHops = hops.map val) :
    Rules.lastMileVsCore ctx = .ok (lastMileIssue hops) := by
  unfold Rules.lastMileVsCore lastMileIssue
  simp only [h, List.length_map]
  by_cases hlen : hops.length < 3
  · have hl : ¬ LastMile hops := fun hm => absurd hm.1 (by omega)
    have hc : ¬ CoreTransit hops := fun hm => absurd hm.1 (by omega)
    rw [if_pos hlen, if_neg hl, if_neg hc]
  · rw [if_neg hlen]
    have htake : hops.take 2 ≠ [] := by
      intro hnil
      have := congrArg List.length hnil
      simp only [List.length_take, List.length_nil] at this
      omega
    have hdrop : hops.drop 2 ≠ [] := by
      intro hnil
      have := congrArg List.length hnil
      simp only [List.length_drop, List.length_nil] at this
      omega
    obtain ⟨earlyLoss, hel, hel'⟩ := maxHopMetric_val loss_eq htake
    obtain ⟨lateLoss, hll, hll'⟩ := maxHopMetric_val loss_eq hdrop
    obtain ⟨earlyRtt, her, her'⟩ := maxHopMetric_val rtt_eq htake
    obtain ⟨lateRtt, hlr, hlr'⟩ := maxHopMetric_val rtt_eq hdrop
    have hlen : 3 ≤ hops.length := not_lt.mp hlen
    have hslow : (do lateRtt.isAbove ((← earlyRtt.toNumber) + 80)) =
        .ok (decide (worst rtt (hops.take 2) + 80 < worst rtt (hops.drop 2))) := by
      rw [PyVal.toNumber_of_number her']
      exact PyVal.isAbove_of_number hlr' _
    simp only [← List.map_take, ← List.map_drop, hel, hll, her, hlr, ok_bind, hslow,
      PyVal.isAtLeast_of_number hel', PyVal.isBelow_of_number hll',
      PyVal.isAtLeast_of_number hll', PyVal.isBelow_of_number hel', both_ok, both_pure]
    have hlast : (decide (50 ≤ worst loss (hops.take 2)) &&
        decide (worst loss (hops.drop 2) < 30)) = decide (LastMile hops) := by
      simp [LastMile, hlen]
    have hcore : (decide (50 ≤ worst loss (hops.drop 2)) &&
        (decide (worst loss (hops.take 2) < 20) &&
          decide (worst rtt (hops.take 2) + 80 < worst rtt (hops.drop 2)))) =
            decide (CoreTransit hops) := by
      simp [CoreTransit, hlen]
    rw [hlast, hcore]
    by_cases hl : LastMile hops
    · simp [hl, pure, Except.pure]
    · by_cases hc : CoreTransit hops <;> simp [hl, hc, pure, Except.pure]

end NetForge.Analysis
