import NetForge.Analysis.Localization
import NetForge.Calculus.Alignment

/-! # What the quality of the evidence decides

The confidences of the observations enter a report at one place, the mean over the
driving observations. Two lists that differ in them alone are sorted, selected and
decided alike, so their reports differ in the confidence and its trail only, and
the better evidence never has the lower one.
-/

namespace NetForge.Analysis

open NetForge.Core NetForge.Python Calculus

/-- The first observation is the second one under weaker or equal evidence: they agree
on everything but the grade and the confidence. -/
structure Weaker (a b : VantageObservation) : Prop where
  agentId : a.agentId = b.agentId
  nodeId : a.nodeId = b.nodeId
  role : a.role = b.role
  target : a.target = b.target
  probeType : a.probeType = b.probeType
  status : a.status = b.status
  summary : a.summary = b.summary
  evidence : a.evidence = b.evidence
  confidence : a.confidenceOf ≤ b.confidenceOf

theorem Weaker.vantage {a b : VantageObservation} (h : Weaker a b) : a.vantage = b.vantage := by
  unfold VantageObservation.vantage
  rw [h.nodeId, h.agentId]

theorem weaker_sameOrder :
    SameOrder Weaker VantageObservation.Precedes VantageObservation.Precedes := by
  intro a b c d hab hcd
  unfold VantageObservation.Precedes
  rw [hab.role, hcd.role, hab.vantage, hcd.vantage]

section Decision

variable {obs obs' : List VantageObservation}

theorem sortObservations_weaker (h : List.Forall₂ Weaker obs obs') :
    List.Forall₂ Weaker (sortObservations obs) (sortObservations obs') :=
  forall₂_insertionSort weaker_sameOrder h

theorem withStatus_weaker (status : DiagnosticStatus) (h : List.Forall₂ Weaker obs obs') :
    List.Forall₂ Weaker (withStatus status obs) (withStatus status obs') := by
  apply forall₂_filter _ h
  intro a b hab
  rw [hab.status]

theorem firstWithRole_weaker (role : VantageRole) (h : List.Forall₂ Weaker obs obs') :
    Option.Rel Weaker (firstWithRole role obs) (firstWithRole role obs') := by
  apply rel_find? _ h
  intro a b hab
  rw [hab.role]

theorem filter_status_weaker (status : DiagnosticStatus) {o o' : Option VantageObservation}
    (h : Option.Rel Weaker o o') :
    Option.Rel Weaker (o.filter (·.status = status)) (o'.filter (·.status = status)) := by
  apply rel_filter_option _ h
  intro a b hab
  rw [hab.status]

/-- Two decisions that blame the same place with the same base confidence, driven by
observations of which the first ones are the weaker. -/
structure WeakerDecision (a b : FaultLocalization × Rat × List VantageObservation) : Prop where
  localization : a.1 = b.1
  base : a.2.1 = b.2.1
  drivers : List.Forall₂ Weaker a.2.2 b.2.2

theorem decideFault_weaker {d d' s s' t t' : Option VantageObservation}
    {unreach unreach' degrad degrad' reachable reachable' all all' : List VantageObservation}
    (hd : Option.Rel Weaker d d') (hs : Option.Rel Weaker s s') (ht : Option.Rel Weaker t t')
    (hu : List.Forall₂ Weaker unreach unreach') (hg : List.Forall₂ Weaker degrad degrad')
    (hr : List.Forall₂ Weaker reachable reachable') (ha : List.Forall₂ Weaker all all') (n : Nat) :
    WeakerDecision (decideFault d s t unreach degrad reachable all n)
      (decideFault d' s' t' unreach' degrad' reachable' all' n) := by
  have hulen := hu.length_eq
  cases hu with
  | nil =>
      cases hg with
      | nil => exact ⟨rfl, rfl, ha⟩
      | @cons only only' rest rest' honly hrest =>
          cases hrest with
          | nil => exact ⟨by simp only [decideFault, honly.role], rfl, .cons honly .nil⟩
          | cons hnext hmore => exact ⟨rfl, rfl, .cons honly (.cons hnext hmore)⟩
  | @cons u u' us us' huu hus =>
      have hall : List.Forall₂ Weaker (u :: us) (u' :: us') := .cons huu hus
      have hdown := filter_status_weaker .failed hd
      have hup := filter_status_weaker .healthy hd
      have hsource := filter_status_weaker .failed hs
      have hthird := filter_status_weaker .failed ht
      unfold decideFault
      generalize d.filter (·.status = .failed) = down, d'.filter (·.status = .failed) = down'
        at hdown ⊢
      cases hdown with
      | some hdest => exact ⟨rfl, rfl, .cons hdest hall⟩
      | none =>
        generalize d.filter (·.status = .healthy) = up, d'.filter (·.status = .healthy) = up'
          at hup ⊢
        cases hup with
        | some hdest =>
            generalize s.filter (·.status = .failed) = sf, s'.filter (·.status = .failed) = sf'
              at hsource ⊢
            generalize t.filter (·.status = .failed) = tf, t'.filter (·.status = .failed) = tf'
              at hthird ⊢
            cases hsource with
            | some hsrc =>
                cases hthird with
                | some hthd => exact ⟨rfl, rfl, .cons hdest (.cons hsrc (.cons hthd .nil))⟩
                | none =>
                    exact ⟨rfl, rfl, .cons hdest (.cons hsrc (forall₂_toList ht))⟩
            | none =>
                cases hthird with
                | some hthd => exact ⟨rfl, rfl, .cons hdest (.cons hthd .nil)⟩
                | none => exact ⟨by simp only [hulen], rfl, .cons hdest hall⟩
        | none =>
            simp only [hulen]
            by_cases hevery : (u' :: us').length = n
            · rw [if_pos hevery, if_pos hevery]
              exact ⟨rfl, rfl, hall⟩
            · rw [if_neg hevery, if_neg hevery]
              cases hus with
              | nil => exact ⟨by simp only [huu.role], rfl, ha⟩
              | cons hnext hmore => exact ⟨rfl, rfl, List.rel_append hall hr⟩

theorem overallStatus_weaker (localization : FaultLocalization)
    {unreach unreach' degrad degrad' : List VantageObservation}
    (hu : List.Forall₂ Weaker unreach unreach') (hg : List.Forall₂ Weaker degrad degrad') :
    overallStatus localization unreach degrad = overallStatus localization unreach' degrad' := by
  have hnil : ∀ {xs ys : List VantageObservation}, List.Forall₂ Weaker xs ys →
      (xs ≠ [] ↔ ys ≠ []) := by
    intro xs ys h
    cases h <;> simp
  unfold overallStatus
  cases localization <;> simp only [hnil hu, hnil hg]

theorem verdict_weaker (localization : FaultLocalization) (target : String)
    {dest dest' : Option VantageObservation} {unreach unreach' : List VantageObservation}
    (hd : Option.Rel Weaker dest dest') (hu : List.Forall₂ Weaker unreach unreach') (n : Nat) :
    verdict localization target dest unreach n = verdict localization target dest' unreach' n := by
  have hnames : unreach.map (·.vantage) = unreach'.map (·.vantage) :=
    map_eq_of_forall₂ (fun a b hab => hab.vantage) hu
  have hlen := hu.length_eq
  have hdown := filter_status_weaker .failed hd
  unfold verdict
  generalize dest.filter (·.status = .failed) = down, dest'.filter (·.status = .failed) = down'
    at hdown ⊢
  cases hdown with
  | some hdest => cases localization <;> simp only [hnames, hlen, hdest.vantage]
  | none => cases localization <;> simp only [hnames]

end Decision

/-! ## The confidence -/

theorem evidenceFactor_mono {drivers drivers' : List VantageObservation}
    (h : List.Forall₂ Weaker drivers drivers') :
    evidenceFactor .exact drivers ≤ evidenceFactor .exact drivers' := by
  have hsum : (drivers.map (·.confidenceOf)).sum ≤ (drivers'.map (·.confidenceOf)).sum := by
    induction h with
    | nil => exact le_rfl
    | @cons a b xs ys hab hrest ih =>
        rw [List.map_cons, List.map_cons, List.sum_cons, List.sum_cons]
        exact add_le_add hab.confidence ih
  have hlen := h.length_eq
  unfold evidenceFactor
  cases h with
  | nil => exact le_rfl
  | cons hab hrest =>
      rw [if_neg (List.cons_ne_nil _ _), if_neg (List.cons_ne_nil _ _), hlen]
      exact div_le_div_of_nonneg_right hsum (Nat.cast_nonneg _)

theorem clamp_mono {p q : Rat} (h : p ≤ q) : clamp .exact p ≤ clamp .exact q :=
  max_le_max le_rfl (min_le_min le_rfl (roundTo_mono 2 h))

theorem clamp_mem (q : Rat) : 5 / 100 ≤ clamp .exact q ∧ clamp .exact q ≤ 99 / 100 := by
  have hbounds : (5 / 100 : Rat) ≤ 99 / 100 := by norm_num
  constructor
  · exact le_max_left _ _
  · exact max_le hbounds (min_le_left _ _)

theorem decideFault_base_nonneg (d s t : Option VantageObservation)
    (unreach degrad reachable all : List VantageObservation) (n : Nat) :
    0 ≤ (decideFault d s t unreach degrad reachable all n).2.1 := by
  unfold decideFault
  repeat' split
  all_goals norm_num

theorem confidenceOn_mono {a b : FaultLocalization × Rat × List VantageObservation}
    (h : WeakerDecision a b) (hbase : 0 ≤ b.2.1) :
    confidenceOn .exact a.2.1 a.2.2 ≤ confidenceOn .exact b.2.1 b.2.2 := by
  have hfactor : evidenceFactor .exact a.2.2 ≤ evidenceFactor .exact b.2.2 :=
    evidenceFactor_mono h.drivers
  rw [h.base]
  apply clamp_mono
  show b.2.1 * (60 / 100 + 40 / 100 * evidenceFactor .exact a.2.2) ≤
    b.2.1 * (60 / 100 + 40 / 100 * evidenceFactor .exact b.2.2)
  apply mul_le_mul_of_nonneg_left _ hbase
  linarith

section Report

variable (target : String) (serviceId topology : Option String)
  (agentErrors : List (String × String)) {obs obs' : List VantageObservation}

/-- Better evidence for the same observations moves the confidence of the report alone, and
never down. -/
theorem localizeFault_better_evidence (h : List.Forall₂ Weaker obs obs')
    (diagnosisId diagnosisId' : String) :
    let first := localizeFault obs target serviceId topology agentErrors diagnosisId
    let second := localizeFault obs' target serviceId topology agentErrors diagnosisId'
    first.localization = second.localization ∧ first.status = second.status ∧
      first.verdict = second.verdict ∧ first.confidence ≤ second.confidence ∧
      (5 / 100 ≤ first.confidence ∧ first.confidence ≤ 99 / 100) ∧
      (5 / 100 ≤ second.confidence ∧ second.confidence ≤ 99 / 100) := by
  intro first second
  by_cases hne : obs = []
  · subst hne
    cases h
    have hbounds : (5 / 100 : Rat) ≤ 5 / 100 ∧ (5 / 100 : Rat) ≤ 99 / 100 := by norm_num
    exact ⟨rfl, rfl, rfl, le_rfl, hbounds, hbounds⟩
  · have hne' : obs' ≠ [] := by
      intro hnil
      subst hnil
      cases h
      exact hne rfl
    have hsorted : List.Forall₂ Weaker (sortObservations obs) (sortObservations obs') :=
      sortObservations_weaker h
    have hdest := firstWithRole_weaker .destination hsorted
    have hfailed := withStatus_weaker .failed hsorted
    have hdegraded := withStatus_weaker .degraded hsorted
    have hlen := hsorted.length_eq
    have hdecision : WeakerDecision (decided obs) (decided obs') := by
      unfold decided Representatives.decideOn
      rw [← hlen]
      exact decideFault_weaker hdest (firstWithRole_weaker .source hsorted)
        (firstWithRole_weaker .third hsorted) hfailed hdegraded
        (withStatus_weaker .healthy hsorted) hsorted _
    have hfirst := localizeFaultIn_report .exact target serviceId topology agentErrors
      diagnosisId hne
    have hsecond := localizeFaultIn_report .exact target serviceId topology agentErrors
      diagnosisId' hne'
    obtain ⟨hloc, hstatus, hverdict, hconf, -⟩ := hfirst
    obtain ⟨hloc', hstatus', hverdict', hconf', -⟩ := hsecond
    unfold first second localizeFault
    refine ⟨?_, ?_, ?_, ?_, ?_, ?_⟩
    · rw [hloc, hloc', hdecision.localization]
    · rw [hstatus, hstatus', hdecision.localization]
      exact overallStatus_weaker _ hfailed hdegraded
    · rw [hverdict, hverdict', hdecision.localization, ← hlen]
      exact verdict_weaker _ target hdest hfailed _
    · rw [hconf, hconf']
      exact confidenceOn_mono hdecision (decideFault_base_nonneg _ _ _ _ _ _ _ _)
    · rw [hconf]
      exact clamp_mem _
    · rw [hconf']
      exact clamp_mem _

end Report

namespace Sample

def seenOnce (agentId : String) (role : VantageRole) (status : DiagnosticStatus) :
    VantageObservation :=
  { seen agentId role status with
    evidenceQuality := .singleSource
    confidence := some (45 / 100)
    confidence_mem := by
      rintro c ⟨⟩
      exact ⟨by norm_num, by norm_num⟩ }

theorem seenOnce_weaker (agentId : String) (role : VantageRole) (status : DiagnosticStatus) :
    Weaker (seenOnce agentId role status) (seen agentId role status) := by
  have hconfidence : (45 / 100 : Rat) ≤ 95 / 100 := by norm_num
  exact ⟨rfl, rfl, rfl, rfl, rfl, rfl, rfl, rfl, hconfidence⟩

end Sample

/-- A failed source beside a healthy destination, seen once and seen well. -/
theorem failed_source_better_evidence :
    (localizeFault [Sample.seenOnce "b" .source .failed, Sample.seenOnce "a" .destination .healthy]
        "10.0.0.1" none none [] "d1").confidence ≤
      (localizeFault [Sample.seen "b" .source .failed, Sample.seen "a" .destination .healthy]
        "10.0.0.1" none none [] "d2").confidence := by
  have h : List.Forall₂ Weaker
      [Sample.seenOnce "b" .source .failed, Sample.seenOnce "a" .destination .healthy]
      [Sample.seen "b" .source .failed, Sample.seen "a" .destination .healthy] :=
    .cons (Sample.seenOnce_weaker _ _ _) (.cons (Sample.seenOnce_weaker _ _ _) .nil)
  have hreports := localizeFault_better_evidence "10.0.0.1" none none [] h "d1" "d2"
  exact hreports.2.2.2.1

end NetForge.Analysis
