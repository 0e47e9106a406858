import NetForge.Analysis.Localization

/-! # One confidence in all arithmetics

The confidence of a report is a rounded function of a sum of floats. Two decisions
give one confidence in every arithmetic exactly when their base confidences agree and
they add up the same terms in one order, the first two apart.
-/

namespace NetForge.Analysis

open NetForge.Core Python

/-- What a report says of the fault, apart from its texts and its trail. -/
structure SameOutcome (a b : MultiVantageReport) : Prop where
  localization : a.localization = b.localization
  status : a.status = b.status
  confidence : a.confidence = b.confidence
  reachable : a.reachableCount = b.reachableCount
  failed : a.failedCount = b.failedCount
  degraded : a.degradedCount = b.degradedCount

/-- Decisions that blame the same place on evidence of the same weight, added in one
order but for the first two terms. -/
structure SameDecision (a b : FaultLocalization × Rat × List VantageObservation) : Prop where
  localization : a.1 = b.1
  base : a.2.1 = b.2.1
  confidences : (a.2.2.map (·.confidenceOf)).Perm (b.2.2.map (·.confidenceOf))
  order : (a.2.2.map (·.confidenceOf)).drop 2 = (b.2.2.map (·.confidenceOf)).drop 2

/-! ## Confidences that agree in all arithmetics -/

def baseConfidences : List Rat :=
  [90 / 100, 60 / 100, 75 / 100, 82 / 100, 78 / 100, 70 / 100, 72 / 100, 65 / 100]

theorem base_mem (d s t : Option VantageObservation)
    (unreach degrad reachable all : List VantageObservation) (n : Nat) :
    (decideFault d s t unreach degrad reachable all n).2.1 ∈ baseConfidences := by
  unfold decideFault baseConfidences
  repeat' split
  all_goals simp

theorem drivers_ne_nil (d s t : Option VantageObservation)
    (unreach degrad reachable : List VantageObservation) {all : List VantageObservation} (n : Nat)
    (hall : all ≠ []) : (decideFault d s t unreach degrad reachable all n).2.2 ≠ [] := by
  unfold decideFault
  repeat' split
  all_goals simp [hall]

theorem decided_base_mem (observations : List VantageObservation) :
    (decided observations).2.1 ∈ baseConfidences := base_mem _ _ _ _ _ _ _ _

theorem decided_drivers_ne_nil {observations : List VantageObservation} (hne : observations ≠ []) :
    (decided observations).2.2 ≠ [] := by
  apply drivers_ne_nil
  intro hnil
  have hself := sortObservations_perm observations
  rw [hnil] at hself
  exact hne hself.symm.eq_nil

theorem base_eq_of_blank {p q : Rat} (hp : p ∈ baseConfidences) (hq : q ∈ baseConfidences)
    (h : clamp .exact (p * (60 / 100)) = clamp .exact (q * (60 / 100))) : p = q := by
  have hall : (baseConfidences.all fun p => baseConfidences.all fun q =>
      clamp .exact (p * (60 / 100)) ≠ clamp .exact (q * (60 / 100)) || p = q) = true := by
    decide +kernel
  have hpair := List.all_eq_true.mp (List.all_eq_true.mp hall p hp) q hq
  simpa [h] using hpair

theorem base_raised {p : Rat} (hp : p ∈ baseConfidences) :
    clamp .exact (p * (60 / 100)) ≠ clamp .exact p := by
  have hall : (baseConfidences.all fun p => clamp .exact (p * (60 / 100)) ≠ clamp .exact p) =
      true := by decide +kernel
  simpa using List.all_eq_true.mp hall p hp

theorem confidenceOn_of_factor {A : Arithmetic} (hround : A.round = id) {base factor : Rat}
    {drivers : List VantageObservation} (hfactor : evidenceFactor A drivers = factor) :
    confidenceOn A base drivers = clamp .exact (base * (60 / 100 + 40 / 100 * factor)) := by
  unfold confidenceOn clamp
  rw [hround, hfactor]
  rfl

theorem evidenceFactor_telling {drivers drivers' : List VantageObservation} (hne' : drivers' ≠ []) :
    evidenceFactor (.telling (drivers.map (·.confidenceOf))) drivers' =
      if (drivers'.map (·.confidenceOf)).Perm (drivers.map (·.confidenceOf)) ∧
        (drivers'.map (·.confidenceOf)).drop 2 = (drivers.map (·.confidenceOf)).drop 2
      then 0 else 1 := by
  have hlen : (drivers'.length : Rat) ≠ 0 := by
    rw [Ne, Nat.cast_eq_zero, List.length_eq_zero_iff]
    exact hne'
  unfold evidenceFactor
  rw [if_neg hne']
  show Arithmetic.sum _ _ / _ = _
  by_cases halike : (drivers'.map (·.confidenceOf)).Perm (drivers.map (·.confidenceOf)) ∧
      (drivers'.map (·.confidenceOf)).drop 2 = (drivers.map (·.confidenceOf)).drop 2
  · rw [if_pos halike]
    show (if _ then (0 : Rat) else _) / _ = 0
    rw [if_pos halike, zero_div]
  · rw [if_neg halike, Arithmetic.telling_sum_of_ne halike, List.length_map, div_self hlen]

/-- Two confidences agree in all arithmetics exactly when nothing but the first two terms
of one sum has changed places. -/
theorem confidenceOn_eq_iff {base base' : Rat} {drivers drivers' : List VantageObservation}
    (hbase : base ∈ baseConfidences) (hbase' : base' ∈ baseConfidences) (hne : drivers ≠ [])
    (hne' : drivers' ≠ []) :
    (∀ A, confidenceOn A base drivers = confidenceOn A base' drivers') ↔
      base = base' ∧ (drivers.map (·.confidenceOf)).Perm (drivers'.map (·.confidenceOf)) ∧
        (drivers.map (·.confidenceOf)).drop 2 = (drivers'.map (·.confidenceOf)).drop 2 := by
  constructor
  · intro hsame
    have hblank : ∀ {ds : List VantageObservation}, ds ≠ [] → evidenceFactor .blank ds = 0 := by
      intro ds hds
      unfold evidenceFactor
      rw [if_neg hds]
      exact zero_div _
    have hzero := hsame .blank
    rw [confidenceOn_of_factor rfl (hblank hne), confidenceOn_of_factor rfl (hblank hne'),
      mul_zero, add_zero] at hzero
    obtain rfl := base_eq_of_blank hbase hbase' hzero
    refine ⟨rfl, ?_⟩
    by_contra halike
    have htold := hsame (.telling (drivers'.map (·.confidenceOf)))
    rw [confidenceOn_of_factor rfl ((evidenceFactor_telling hne).trans (if_neg halike)),
      confidenceOn_of_factor rfl ((evidenceFactor_telling hne').trans (if_pos ⟨.refl _, rfl⟩))]
      at htold
    have hone : (60 / 100 + 40 / 100 * 1 : Rat) = 1 := by norm_num
    rw [hone, mul_one, mul_zero, add_zero] at htold
    exact base_raised hbase htold.symm
  · rintro ⟨rfl, hperm, hdrop⟩ A
    have hlen : drivers.length = drivers'.length := by simpa using hperm.length_eq
    unfold confidenceOn evidenceFactor
    rw [if_neg hne, if_neg hne', A.sum_eq_of_perm hperm hdrop, hlen]

section Report

variable (target : String) (serviceId topology : Option String)
  (agentErrors : List (String × String)) (diagnosisId : String)

/-- Two reports agree in all arithmetics exactly when their decisions do. -/
theorem sameOutcome_iff {observations shuffled : List VantageObservation}
    (hperm : shuffled.Perm observations) :
    (∀ A, SameOutcome
        (localizeFaultIn A shuffled target serviceId topology agentErrors diagnosisId)
        (localizeFaultIn A observations target serviceId topology agentErrors diagnosisId)) ↔
      SameDecision (decided shuffled) (decided observations) := by
  by_cases hne : observations = []
  · subst hne
    obtain rfl := hperm.eq_nil
    exact iff_of_true (fun A => ⟨rfl, rfl, rfl, rfl, rfl, rfl⟩) ⟨rfl, rfl, .refl _, rfl⟩
  have hne' : shuffled ≠ [] := by
    intro hnil
    rw [hnil] at hperm
    exact hne hperm.symm.eq_nil
  have hsorted : (sortObservations shuffled).Perm (sortObservations observations) :=
    (sortObservations_perm shuffled).trans (hperm.trans (sortObservations_perm observations).symm)
  have hconfidence := confidenceOn_eq_iff (decided_base_mem shuffled)
    (decided_base_mem observations) (decided_drivers_ne_nil hne') (decided_drivers_ne_nil hne)
  have hours := fun A => localizeFaultIn_report A target serviceId topology agentErrors
    diagnosisId hne
  have htheirs := fun A => localizeFaultIn_report A target serviceId topology agentErrors
    diagnosisId hne'
  constructor
  · intro hsame
    obtain ⟨hbase, hconfidences, horder⟩ := hconfidence.mp fun A => by
      have hconf := (hsame A).confidence
      rw [(hours A).2.2.2.1, (htheirs A).2.2.2.1] at hconf
      exact hconf
    have hloc := (hsame .exact).localization
    rw [(hours _).1, (htheirs _).1] at hloc
    exact ⟨hloc, hbase, hconfidences, horder⟩
  · intro hdecision A
    obtain ⟨hloc, hstatus, -, hconf, hreach, hfailed, hdegraded⟩ := hours A
    obtain ⟨hloc', hstatus', -, hconf', hreach', hfailed', hdegraded'⟩ := htheirs A
    have hcount := fun status => (withStatus_perm status hsorted).length_eq
    refine ⟨?_, ?_, ?_, ?_, ?_, ?_⟩
    · rw [hloc, hloc', hdecision.localization]
    · rw [hstatus, hstatus', hdecision.localization]
      exact overallStatus_perm _ (withStatus_perm _ hsorted) (withStatus_perm _ hsorted)
    · rw [hconf, hconf']
      exact hconfidence.mpr ⟨hdecision.base, hdecision.confidences, hdecision.order⟩ A
    · rw [hreach, hreach', hcount]
    · rw [hfailed, hfailed', hcount]
    · rw [hdegraded, hdegraded', hcount]

end Report

end NetForge.Analysis
