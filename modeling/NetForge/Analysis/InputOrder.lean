import NetForge.Analysis.DecisionTies

/-! # Localization and the order of the observations

The order in which the observations come decides which of those that tie for a role
is taken, and in which order the confidences behind the verdict are added. A report
is independent of it, whatever the arithmetic of the floats, exactly when the ties
that its decision reads agree.
-/

namespace NetForge.Analysis

open NetForge.Core Python Calculus

/-! ## Orders that tell ties apart -/

/-- All orders of the observations lead to one decision. -/
def Steady (observations : List VantageObservation) : Prop :=
  ∀ shuffled : List VantageObservation, shuffled.Perm observations →
    SameDecision (decided shuffled) (decided observations)

theorem realized_of_perm {observations shuffled : List VantageObservation}
    (hperm : shuffled.Perm observations) :
    Realized observations (.first shuffled) (sortObservations shuffled) := by
  obtain ⟨hd, hs, ht⟩ := Representatives.first_of shuffled
  exact ⟨⟨hd.of_perm hperm.symm, hs.of_perm hperm.symm, ht.of_perm hperm.symm⟩,
    (sortObservations_perm shuffled).trans hperm, sortObservations_inOrder shuffled⟩

/-- The observations of one status come in any order that respects their keys. -/
theorem exists_order_withStatus {observations l : List VantageObservation}
    {status : DiagnosticStatus} (hl : InOrder sortKey l)
    (hperm : l.Perm (withStatus status observations)) :
    ∃ shuffled : List VantageObservation, shuffled.Perm observations ∧
      withStatus status (sortObservations shuffled) = l := by
  refine ⟨l ++ observations.filter fun o => !decide (o.status = status), ?_, ?_⟩
  · exact (hperm.append_right _).trans (List.filter_append_perm _ _)
  · have hself : l.filter (·.status = status) = l := by
      apply List.filter_eq_self.mpr
      intro o ho
      exact (List.mem_filter.mp (hperm.mem_iff.mp ho)).2
    have hother : (observations.filter fun o => !decide (o.status = status)).filter
        (·.status = status) = [] := by
      apply List.filter_eq_nil_iff.mpr
      intro o ho hstatus
      have hnot := (List.mem_filter.mp ho).2
      rw [hstatus] at hnot
      cases hnot
    unfold withStatus sortObservations
    rw [filter_insertionSort, List.filter_append, hself, hother, List.append_nil]
    exact sortObservations_of_inOrder hl

section Necessary

variable {observations : List VantageObservation}

theorem evenTies_of_drop_eq {status : DiagnosticStatus}
    (h : ∀ shuffled : List VantageObservation, shuffled.Perm observations →
      ((withStatus status (sortObservations shuffled)).map (·.confidenceOf)).drop 1 =
        ((withStatus status (sortObservations observations)).map (·.confidenceOf)).drop 1) :
    EvenTies (withStatus status observations) := by
  have hperm := withStatus_perm status (sortObservations_perm observations)
  have hsorted : EvenTies (withStatus status (sortObservations observations)) := by
    apply tiesEqual_of_drop_eq (withStatus_inOrder (sortObservations_inOrder observations) status)
    intro l hl hlperm
    obtain ⟨shuffled, hshuffled, rfl⟩ := exists_order_withStatus hl (hlperm.trans hperm)
    exact h shuffled hshuffled
  exact hsorted.of_perm hperm.symm

theorem evenTiesButFirst_of_drop_eq {status : DiagnosticStatus}
    (h : ∀ shuffled : List VantageObservation, shuffled.Perm observations →
      ((withStatus status (sortObservations shuffled)).map (·.confidenceOf)).drop 2 =
        ((withStatus status (sortObservations observations)).map (·.confidenceOf)).drop 2) :
    EvenTiesButFirst (withStatus status observations) := by
  have hperm := withStatus_perm status (sortObservations_perm observations)
  have hsorted : EvenTiesButFirst (withStatus status (sortObservations observations)) := by
    apply tiesEqualButFirst_of_drop_eq
      (withStatus_inOrder (sortObservations_inOrder observations) status)
    intro l hl hlperm
    obtain ⟨shuffled, hshuffled, rfl⟩ := exists_order_withStatus hl (hlperm.trans hperm)
    exact h shuffled hshuffled
  exact hsorted.of_perm hperm.symm

theorem evenTiesButFirst_all_of_drop_eq
    (h : ∀ shuffled : List VantageObservation, shuffled.Perm observations →
      ((sortObservations shuffled).map (·.confidenceOf)).drop 2 =
        ((sortObservations observations).map (·.confidenceOf)).drop 2) :
    EvenTiesButFirst observations := by
  have hperm := sortObservations_perm observations
  have hsorted : EvenTiesButFirst (sortObservations observations) := by
    apply tiesEqualButFirst_of_drop_eq (sortObservations_inOrder observations)
    intro l hl hlperm
    have hl' := h l (hlperm.trans hperm)
    rw [sortObservations_of_inOrder hl] at hl'
    exact hl'
  exact hsorted.of_perm hperm.symm

theorem Steady.exists_decision (h : Steady observations) {r : Representatives}
    (hr : r.Of observations) :
    ∃ xs, Realized observations r xs ∧ SameDecision (r.decideOn xs) (decided observations) := by
  obtain ⟨shuffled, hperm, hfirst⟩ := Representatives.exists_shuffle hr
  have hrealized := realized_of_perm hperm
  have hdecision := h shuffled hperm
  unfold decided at hdecision
  rw [hfirst] at hrealized hdecision
  exact ⟨_, hrealized, hdecision⟩

/-- What the decision adds up behind the first two terms is one list for all orders. -/
theorem Steady.order_eq (steady : Steady observations) (added : List VantageObservation → List Rat)
    (hadded : ∀ (r : Representatives) xs, Realized observations r xs →
      ((r.decideOn xs).2.2.map (·.confidenceOf)).drop 2 = added xs)
    (shuffled : List VantageObservation) (hperm : shuffled.Perm observations) :
    added (sortObservations shuffled) = added (sortObservations observations) := by
  have hdecision := steady shuffled hperm
  rw [← hadded _ _ (realized_of_perm hperm), ← hadded _ _ (realized_of_perm (.refl observations))]
  exact hdecision.order

variable (steady : Steady observations) (hf : withStatus .failed observations ≠ [])

include steady hf

theorem Steady.exists_sums_eq {r r' : Representatives} (hr : r.Of observations)
    (hr' : r'.Of observations) :
    ∃ xs ys, Realized observations r xs ∧ Realized observations r' ys ∧
      withStatus .failed xs ≠ [] ∧ withStatus .failed ys ≠ [] ∧
      ((r.decideOn xs).2.2.map (·.confidenceOf)).sum =
        ((r'.decideOn ys).2.2.map (·.confidenceOf)).sum := by
  obtain ⟨xs, hx, hours⟩ := steady.exists_decision hr
  obtain ⟨ys, hy, htheirs⟩ := steady.exists_decision hr'
  refine ⟨xs, ys, hx, hy, fun hnil => hf (hx.eq_nil_iff.mp hnil),
    fun hnil => hf (hy.eq_nil_iff.mp hnil), ?_⟩
  rw [hours.confidences.sum_eq, htheirs.confidences.sum_eq]

theorem Steady.base_iff (told : Rat → Prop) (holds : Representatives → Prop)
    (htold : ∀ r xs, withStatus .failed xs ≠ [] →
      (told (Representatives.decideOn r xs).2.1 ↔ holds r))
    {r r' : Representatives} (hr : r.Of observations) (hr' : r'.Of observations) :
    holds r ↔ holds r' := by
  have hbase : ∀ {r : Representatives}, r.Of observations →
      (told (decided observations).2.1 ↔ holds r) := by
    intro r hr
    obtain ⟨xs, hrealized, hdecision⟩ := steady.exists_decision hr
    rw [← hdecision.base]
    exact htold r xs fun hnil => hf (hrealized.eq_nil_iff.mp hnil)
  exact (hbase hr).symm.trans (hbase hr')

theorem Steady.agree_failed : Agree observations .destination .failed := by
  intro a b ha hb hfailed
  obtain ⟨-, hs, ht⟩ := Representatives.first_of observations
  have hsame := steady.base_iff hf (· = 90 / 100) (fun r => Takes r.destination .failed)
    (fun r xs hxs => (r.decideOn_base hxs).1) (r := ⟨some a, _, _⟩) ⟨ha, hs, ht⟩
    (⟨hb, hs, ht⟩ : Representatives.Of observations ⟨some b, _, _⟩)
  exact takes_some.mp (hsame.mp (takes_some.mpr hfailed))

theorem Steady.agree_healthy : Agree observations .destination .healthy := by
  intro a b ha hb hhealthy
  obtain ⟨-, hs, ht⟩ := Representatives.first_of observations
  have hsame := steady.base_iff hf (· ∈ [75 / 100, 82 / 100, 78 / 100, 70 / 100])
    (fun r => Takes r.destination .healthy) (fun r xs hxs => (r.decideOn_base hxs).2.1)
    (r := ⟨some a, _, _⟩) ⟨ha, hs, ht⟩
    (⟨hb, hs, ht⟩ : Representatives.Of observations ⟨some b, _, _⟩)
  exact takes_some.mp (hsame.mp (takes_some.mpr hhealthy))

section Reached

variable {d : VantageObservation} (hd : StandsFor .destination observations (some d))
  (hup : d.status = .healthy)

include hd hup

theorem Steady.agree_source : Agree observations .source .failed := by
  intro a b ha hb hfailed
  obtain ⟨-, -, ht⟩ := Representatives.first_of observations
  have hsame := steady.base_iff hf (· ∈ [75 / 100, 82 / 100])
    (fun r => Takes r.destination .healthy ∧ Takes r.source .failed)
    (fun r xs hxs => (r.decideOn_base hxs).2.2.1) (r := ⟨some d, some a, _⟩) ⟨hd, ha, ht⟩
    (⟨hd, hb, ht⟩ : Representatives.Of observations ⟨some d, some b, _⟩)
  exact takes_some.mp (hsame.mp ⟨takes_some.mpr hup, takes_some.mpr hfailed⟩).2

theorem Steady.agree_third : Agree observations .third .failed := by
  intro a b ha hb hfailed
  obtain ⟨-, hs, -⟩ := Representatives.first_of observations
  have hsame := steady.base_iff hf (· ∈ [75 / 100, 78 / 100])
    (fun r => Takes r.destination .healthy ∧ Takes r.third .failed)
    (fun r xs hxs => (r.decideOn_base hxs).2.2.2) (r := ⟨some d, _, some a⟩) ⟨hd, hs, ha⟩
    (⟨hd, hs, hb⟩ : Representatives.Of observations ⟨some d, _, some b⟩)
  exact takes_some.mp (hsame.mp ⟨takes_some.mpr hup, takes_some.mpr hfailed⟩).2

theorem Steady.sameConfidence_destination : SameConfidence observations .destination := by
  intro a b ha hb
  have hagree := steady.agree_healthy hf
  have haup := hagree d a hd ha hup
  have hbup := hagree d b hd hb hup
  obtain ⟨-, hs, ht⟩ := Representatives.first_of observations
  generalize (Representatives.first observations).source = source at hs
  generalize (Representatives.first observations).third = third at ht
  obtain ⟨xs, ys, hx, hy, hfx, hfy, hsum⟩ := steady.exists_sums_eq hf
    (⟨ha, hs, ht⟩ : Representatives.Of observations ⟨some a, source, third⟩)
    (⟨hb, hs, ht⟩ : Representatives.Of observations ⟨some b, source, third⟩)
  by_cases hsource : Takes source .failed
  · obtain ⟨s, rfl, hsf⟩ := hsource
    by_cases hthird : Takes third .failed
    · obtain ⟨t, rfl, htf⟩ := hthird
      rw [Representatives.decideOn_bothFailed rfl haup hfx rfl hsf rfl htf,
        Representatives.decideOn_bothFailed rfl hbup hfy rfl hsf rfl htf] at hsum
      simpa using hsum
    · rw [Representatives.decideOn_sourceFailed rfl haup hfx rfl hsf (not_takes hthird),
        Representatives.decideOn_sourceFailed rfl hbup hfy rfl hsf (not_takes hthird)] at hsum
      simpa using hsum
  · by_cases hthird : Takes third .failed
    · obtain ⟨t, rfl, htf⟩ := hthird
      rw [Representatives.decideOn_thirdFailed rfl haup hfx (not_takes hsource) rfl htf,
        Representatives.decideOn_thirdFailed rfl hbup hfy (not_takes hsource) rfl htf] at hsum
      simpa using hsum
    · rw [Representatives.decideOn_othersFailed rfl haup hfx (not_takes hsource) (not_takes hthird),
        Representatives.decideOn_othersFailed rfl hbup hfy (not_takes hsource) (not_takes hthird)]
        at hsum
      have hothers := ((hx.withStatus_perm hy .failed).map (·.confidenceOf)).sum_eq
      simpa [hothers] using hsum

theorem Steady.sameConfidence_source (hsource : Stands observations .source .failed) :
    SameConfidence observations .source := by
  intro a b ha hb
  obtain ⟨c, hc, hcf⟩ := hsource
  have hagree := steady.agree_source hf hd hup
  have haf := hagree c a hc ha hcf
  have hbf := hagree c b hc hb hcf
  obtain ⟨-, -, ht⟩ := Representatives.first_of observations
  generalize (Representatives.first observations).third = third at ht
  obtain ⟨xs, ys, -, -, hfx, hfy, hsum⟩ := steady.exists_sums_eq hf
    (⟨hd, ha, ht⟩ : Representatives.Of observations ⟨some d, some a, third⟩)
    (⟨hd, hb, ht⟩ : Representatives.Of observations ⟨some d, some b, third⟩)
  by_cases hthird : Takes third .failed
  · obtain ⟨t, rfl, htf⟩ := hthird
    rw [Representatives.decideOn_bothFailed rfl hup hfx rfl haf rfl htf,
      Representatives.decideOn_bothFailed rfl hup hfy rfl hbf rfl htf] at hsum
    simpa using hsum
  · rw [Representatives.decideOn_sourceFailed rfl hup hfx rfl haf (not_takes hthird),
      Representatives.decideOn_sourceFailed rfl hup hfy rfl hbf (not_takes hthird)] at hsum
    simpa using hsum

theorem Steady.sameConfidence_third
    (hany : Stands observations .source .failed ∨ Stands observations .third .failed) :
    SameConfidence observations .third := by
  intro a b ha hb
  have hagree := steady.agree_third hf hd hup
  obtain ⟨-, hs, -⟩ := Representatives.first_of observations
  generalize (Representatives.first observations).source = source at hs
  obtain ⟨xs, ys, -, -, hfx, hfy, hsum⟩ := steady.exists_sums_eq hf
    (⟨hd, hs, ha⟩ : Representatives.Of observations ⟨some d, source, some a⟩)
    (⟨hd, hs, hb⟩ : Representatives.Of observations ⟨some d, source, some b⟩)
  have hboth : a.status = .failed ↔ b.status = .failed := ⟨hagree a b ha hb, hagree b a hb ha⟩
  by_cases hsource : Takes source .failed
  · obtain ⟨s, rfl, hsf⟩ := hsource
    by_cases haf : a.status = .failed
    · rw [Representatives.decideOn_bothFailed rfl hup hfx rfl hsf rfl haf,
        Representatives.decideOn_bothFailed rfl hup hfy rfl hsf rfl (hboth.mp haf)] at hsum
      simpa using hsum
    · have hbf : b.status ≠ .failed := fun h => haf (hboth.mpr h)
      rw [Representatives.decideOn_sourceFailed rfl hup hfx rfl hsf (by rintro t ⟨⟩; exact haf),
        Representatives.decideOn_sourceFailed rfl hup hfy rfl hsf (by rintro t ⟨⟩; exact hbf)]
        at hsum
      simpa using hsum
  · have haf : a.status = .failed := by
      rcases hany with hany | ⟨c, hc, hcf⟩
      · obtain ⟨s, hs', hsf, -⟩ := hs.takes hany (steady.agree_source hf hd hup)
        exact absurd hsf (not_takes hsource s hs')
      · exact hagree c a hc ha hcf
    rw [Representatives.decideOn_thirdFailed rfl hup hfx (not_takes hsource) rfl haf,
      Representatives.decideOn_thirdFailed rfl hup hfy (not_takes hsource) rfl (hboth.mp haf)]
      at hsum
    simpa using hsum

theorem Steady.evenTies_othersFailed (hsource : ¬ Stands observations .source .failed)
    (hthird : ¬ Stands observations .third .failed) :
    EvenTies (withStatus .failed observations) := by
  have hagree := steady.agree_healthy hf
  apply evenTies_of_drop_eq
  apply steady.order_eq fun xs => ((withStatus .failed xs).map (·.confidenceOf)).drop 1
  intro r xs hr
  obtain ⟨c, hc, hcup, -⟩ := hr.of.1.takes ⟨d, hd, hup⟩ hagree
  rw [r.decideOn_othersFailed hc hcup (fun hnil => hf (hr.eq_nil_iff.mp hnil))
    (hr.of.2.1.not_takes hsource) (hr.of.2.2.not_takes hthird)]
  rfl

theorem Steady.orderFreeBesideDestination : OrderFreeBesideDestination observations where
  source := steady.agree_source hf hd hup
  third := steady.agree_third hf hd hup
  destination := steady.sameConfidence_destination hf hd hup
  sourceFailed hsource := ⟨steady.sameConfidence_source hf hd hup hsource,
    steady.sameConfidence_third hf hd hup (.inl hsource)⟩
  thirdFailed _ hthird := steady.sameConfidence_third hf hd hup (.inr hthird)
  othersFailed := steady.evenTies_othersFailed hf hd hup

end Reached

theorem Steady.evenTies_targetFailed (hstands : Stands observations .destination .failed) :
    EvenTies (withStatus .failed observations) := by
  have hagree := steady.agree_failed hf
  apply evenTies_of_drop_eq
  apply steady.order_eq fun xs => ((withStatus .failed xs).map (·.confidenceOf)).drop 1
  intro r xs hr
  obtain ⟨d, hd, hdf, -⟩ := hr.of.1.takes hstands hagree
  rw [r.decideOn_targetFailed hd hdf fun hnil => hf (hr.eq_nil_iff.mp hnil)]
  rfl

section Outside

variable (hdown : ¬ Stands observations .destination .failed)
  (hup : ¬ Stands observations .destination .healthy)

include hdown hup

theorem Steady.evenTies_all
    (hall : (withStatus .failed observations).length = observations.length) :
    EvenTiesButFirst (withStatus .failed observations) := by
  apply evenTiesButFirst_of_drop_eq
  apply steady.order_eq fun xs => ((withStatus .failed xs).map (·.confidenceOf)).drop 2
  intro r xs hr
  have hlen := (withStatus_perm .failed hr.perm).length_eq
  rw [r.decideOn_all (hr.of.1.not_takes hdown) (hr.of.1.not_takes hup)
    (fun hnil => hf (hr.eq_nil_iff.mp hnil)) (by rw [hlen, hall, hr.perm.length_eq])]

omit hf in
theorem Steady.evenTies_one
    (hall : (withStatus .failed observations).length ≠ observations.length)
    (hone : (withStatus .failed observations).length = 1) : EvenTiesButFirst observations := by
  apply evenTiesButFirst_all_of_drop_eq
  apply steady.order_eq fun xs => (xs.map (·.confidenceOf)).drop 2
  intro r xs hr
  have hlen := (withStatus_perm .failed hr.perm).length_eq
  obtain ⟨only, honly⟩ := List.length_eq_one_iff.mp (hlen.trans hone)
  rw [r.decideOn_one (hr.of.1.not_takes hdown) (hr.of.1.not_takes hup) honly
    (by rw [hlen, hr.perm.length_eq]; exact hall)]

theorem Steady.evenTies_several
    (hall : (withStatus .failed observations).length ≠ observations.length)
    (hone : (withStatus .failed observations).length ≠ 1) :
    EvenTiesButFirst (withStatus .failed observations) ∧
      EvenTies (withStatus .healthy observations) := by
  have hpos := List.length_pos_iff.mpr hf
  have hadded := steady.order_eq
    (fun xs => ((withStatus .failed xs).map (·.confidenceOf)).drop 2 ++
      (withStatus .healthy xs).map (·.confidenceOf)) (by
    intro r xs hr
    have hlen := (withStatus_perm .failed hr.perm).length_eq
    rw [r.decideOn_several (hr.of.1.not_takes hdown) (hr.of.1.not_takes hup)
      (fun hnil => hf (hr.eq_nil_iff.mp hnil)) (by rw [hlen, hr.perm.length_eq]; exact hall)
      (by rw [hlen]; exact hone), List.map_append, List.drop_append_of_le_length]
    rw [List.length_map]
    omega)
  have hsplit : ∀ shuffled : List VantageObservation, shuffled.Perm observations →
      ((withStatus .failed (sortObservations shuffled)).map (·.confidenceOf)).drop 2 =
          ((withStatus .failed (sortObservations observations)).map (·.confidenceOf)).drop 2 ∧
        (withStatus .healthy (sortObservations shuffled)).map (·.confidenceOf) =
          (withStatus .healthy (sortObservations observations)).map (·.confidenceOf) := by
    intro shuffled hperm
    apply List.append_inj (hadded shuffled hperm)
    have hlen := ((realized_of_perm hperm).withStatus_perm
      (realized_of_perm (.refl observations)) .failed).length_eq
    rw [List.length_drop, List.length_drop, List.length_map, List.length_map, hlen]
  constructor
  · apply evenTiesButFirst_of_drop_eq
    exact fun shuffled hperm => (hsplit shuffled hperm).1
  · apply evenTies_of_drop_eq
    intro shuffled hperm
    rw [(hsplit shuffled hperm).2]

end Outside

end Necessary

/-- Where all orders of the observations lead to one decision, the ties agree. -/
theorem Steady.orderFree {observations : List VantageObservation} (steady : Steady observations) :
    OrderFree observations where
  noFault hf hg := by
    apply evenTiesButFirst_all_of_drop_eq
    apply steady.order_eq fun xs => (xs.map (·.confidenceOf)).drop 2
    intro r xs hr
    rw [r.decideOn_noFault (hr.eq_nil_iff.mpr hf) (hr.eq_nil_iff.mpr hg)]
  degraded hf hg := by
    apply evenTiesButFirst_of_drop_eq
    apply steady.order_eq fun xs => ((withStatus .degraded xs).map (·.confidenceOf)).drop 2
    intro r xs hr
    rw [r.decideOn_degraded (hr.eq_nil_iff.mpr hf) fun hnil => hg (hr.eq_nil_iff.mp hnil)]
  destination hf := ⟨steady.agree_failed hf, steady.agree_healthy hf⟩
  targetFailed hstands := by
    obtain ⟨d, hd, hdf⟩ := hstands
    have hf : withStatus .failed observations ≠ [] :=
      List.ne_nil_of_mem (List.mem_filter.mpr ⟨hd.1, decide_eq_true hdf⟩)
    exact steady.evenTies_targetFailed hf ⟨d, hd, hdf⟩
  targetReached hf hstands := by
    obtain ⟨d, hd, hup⟩ := hstands
    exact steady.orderFreeBesideDestination hf hd hup
  outside hf hdown hup :=
    ⟨steady.evenTies_all hf hdown hup, steady.evenTies_one hdown hup,
      steady.evenTies_several hf hdown hup⟩

/-- The report is independent of the order of the observations, whatever the arithmetic,
exactly when the ties that its decision reads agree. -/
theorem localizeFault_order_independent_iff (observations : List VantageObservation)
    (target : String) (serviceId topology : Option String) (agentErrors : List (String × String))
    (diagnosisId : String) :
    (∀ (A : Arithmetic) (shuffled : List VantageObservation), shuffled.Perm observations →
        SameOutcome
          (localizeFaultIn A shuffled target serviceId topology agentErrors diagnosisId)
          (localizeFaultIn A observations target serviceId topology agentErrors diagnosisId)) ↔
      OrderFree observations := by
  have hdecision := fun (shuffled : List VantageObservation) hperm =>
    @sameOutcome_iff target serviceId topology agentErrors diagnosisId observations shuffled hperm
  constructor
  · intro hsame
    apply Steady.orderFree
    intro shuffled hperm
    exact (hdecision shuffled hperm).mp fun A => hsame A shuffled hperm
  · intro hfree A shuffled hperm
    have hsame := hfree.sameDecision (realized_of_perm hperm)
      (realized_of_perm (.refl observations))
    exact (hdecision shuffled hperm).mpr hsame A

/-- Two interfaces of the source agent, one of which failed: the verdict names the
source or not, depending on which of them came first. -/
theorem tied_interfaces_decide :
    ¬ ∀ (observations shuffled : List VantageObservation) (target : String)
        (serviceId topology : Option String) (agentErrors : List (String × String))
        (diagnosisId : String), shuffled.Perm observations →
        SameOutcome
          (localizeFaultIn .double shuffled target serviceId topology agentErrors diagnosisId)
          (localizeFaultIn .double observations target serviceId topology agentErrors
            diagnosisId) := by
  intro hclaim
  have hswap : [Sample.seen "a" .destination .healthy, Sample.seen "b" .source .healthy,
      Sample.seen "b" .source .failed].Perm [Sample.seen "a" .destination .healthy,
        Sample.seen "b" .source .failed, Sample.seen "b" .source .healthy] := by
    exact .cons _ (.swap _ _ _)
  have hsame := (hclaim _ _ "10.0.0.1" none none [] "d1" hswap).localization
  have hdiffer : (localizeFaultIn .double [Sample.seen "a" .destination .healthy,
      Sample.seen "b" .source .healthy, Sample.seen "b" .source .failed] "10.0.0.1" none none []
        "d1").localization ≠
      (localizeFaultIn .double [Sample.seen "a" .destination .healthy,
        Sample.seen "b" .source .failed, Sample.seen "b" .source .healthy] "10.0.0.1" none none
          [] "d1").localization := by
    decide +kernel
  exact hdiffer hsame

/-- Observations that tie and are alike in status and confidence decide nothing. -/
theorem orderFree_of_alike {observations : List VantageObservation}
    (h : ∀ a ∈ observations, ∀ b ∈ observations, sortKey a = sortKey b →
      a.status = b.status ∧ a.confidenceOf = b.confidenceOf) : OrderFree observations := by
  have hagree : ∀ role status, Agree observations role status := by
    intro role status a b ha hb hstatus
    rw [← (h a ha.1 b hb.1 (ha.tied hb)).1]
    exact hstatus
  have hsame : ∀ role, SameConfidence observations role := fun role a b ha hb =>
    (h a ha.1 b hb.1 (ha.tied hb)).2
  have hties : ∀ xs : List VantageObservation, xs ⊆ observations → EvenTies xs :=
    fun xs hxs a ha b hb htie => (h a (hxs ha) b (hxs hb) htie).2
  have hstatus : ∀ status, EvenTies (withStatus status observations) := fun status =>
    hties _ (List.filter_subset_self _)
  have hfirst : ∀ {xs : List VantageObservation}, EvenTies xs → EvenTiesButFirst xs :=
    fun hxs a ha b hb htie => .inl (hxs a ha b hb htie)
  exact {
    noFault := fun _ _ => hfirst (hties _ (List.Subset.refl _))
    degraded := fun _ _ => hfirst (hstatus _)
    destination := fun _ => ⟨hagree _ _, hagree _ _⟩
    targetFailed := fun _ => hstatus _
    targetReached := fun _ _ =>
      ⟨hagree _ _, hagree _ _, hsame _, fun _ => ⟨hsame _, hsame _⟩, fun _ _ => hsame _,
        fun _ _ => hstatus _⟩
    outside := fun _ _ _ =>
      ⟨fun _ => hfirst (hstatus _), fun _ _ => hfirst (hties _ (List.Subset.refl _)),
        fun _ _ => ⟨hfirst (hstatus _), hstatus _⟩⟩ }

namespace Sample

def interface (hundredths : Fin 101) : VantageObservation :=
  { seen "a" .peer .healthy with
    confidence := some (Arithmetic.nearestDouble (hundredths.val / 100))
    confidence_mem := by
      rintro c ⟨⟩
      revert hundredths
      decide +kernel }

end Sample

example :
    (localizeFaultIn .double ([45, 80, 80, 80, 95, 95].map Sample.interface) "10.0.0.1" none none []
      "d1").confidence = Arithmetic.nearestDouble (82 / 100) := by decide +kernel

example :
    (localizeFaultIn .double ([80, 80, 45, 80, 95, 95].map Sample.interface) "10.0.0.1" none none []
      "d1").confidence = Arithmetic.nearestDouble (83 / 100) := by decide +kernel

end NetForge.Analysis
