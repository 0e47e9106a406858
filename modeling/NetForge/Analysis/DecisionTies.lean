import NetForge.Analysis.Arithmetics
import NetForge.Analysis.Branches
import NetForge.Calculus.Ties
import Mathlib.Data.Prod.Lex

/-! # The ties that a decision reads

Observations of one role rank and one vantage tie in the sort. Which of their statuses
and confidences a decision reads depends on the branch it takes. Where these agree, all
orders of the observations lead to one decision.
-/

namespace NetForge.Analysis

open NetForge.Core Python Calculus

section Ties

variable (observations : List VantageObservation)

/-- An observation with the status may be the one taken for the role. -/
def Stands (role : VantageRole) (status : DiagnosticStatus) : Prop :=
  ∃ a, StandsFor role observations (some a) ∧ a.status = status

/-- The observations that may be taken for the role all have the status, or none has. -/
def Agree (role : VantageRole) (status : DiagnosticStatus) : Prop :=
  ∀ a b, StandsFor role observations (some a) → StandsFor role observations (some b) →
    a.status = status → b.status = status

/-- The observations that may be taken for the role have one confidence. -/
def SameConfidence (role : VantageRole) : Prop :=
  ∀ a b, StandsFor role observations (some a) → StandsFor role observations (some b) →
    a.confidenceOf = b.confidenceOf

def sortKey (o : VantageObservation) : Lex (Nat × String) := toLex (roleOrder o.role, o.vantage)

def EvenTies (obs : List VantageObservation) : Prop := TiesEqual sortKey (·.confidenceOf) obs

/-- Observations that tie have one confidence, unless they are the two that come first. -/
def EvenTiesButFirst (obs : List VantageObservation) : Prop :=
  TiesEqualButFirst sortKey (·.confidenceOf) obs

/-- What must agree beside a destination that reaches the target. -/
structure OrderFreeBesideDestination : Prop where
  source : Agree observations .source .failed
  third : Agree observations .third .failed
  destination : SameConfidence observations .destination
  sourceFailed : Stands observations .source .failed →
    SameConfidence observations .source ∧ SameConfidence observations .third
  thirdFailed : ¬ Stands observations .source .failed → Stands observations .third .failed →
    SameConfidence observations .third
  othersFailed : ¬ Stands observations .source .failed → ¬ Stands observations .third .failed →
    EvenTies (withStatus .failed observations)

/-- What must agree among external vantages, with nothing known of the destination. -/
structure OrderFreeOutside : Prop where
  all : (withStatus .failed observations).length = observations.length →
    EvenTiesButFirst (withStatus .failed observations)
  one : (withStatus .failed observations).length ≠ observations.length →
    (withStatus .failed observations).length = 1 → EvenTiesButFirst observations
  several : (withStatus .failed observations).length ≠ observations.length →
    (withStatus .failed observations).length ≠ 1 →
      EvenTiesButFirst (withStatus .failed observations) ∧
        EvenTies (withStatus .healthy observations)

/-- The ties that the decision on the observations reads agree. -/
structure OrderFree : Prop where
  noFault : withStatus .failed observations = [] → withStatus .degraded observations = [] →
    EvenTiesButFirst observations
  degraded : withStatus .failed observations = [] → withStatus .degraded observations ≠ [] →
    EvenTiesButFirst (withStatus .degraded observations)
  destination : withStatus .failed observations ≠ [] →
    Agree observations .destination .failed ∧ Agree observations .destination .healthy
  targetFailed : Stands observations .destination .failed →
    EvenTies (withStatus .failed observations)
  targetReached : withStatus .failed observations ≠ [] →
    Stands observations .destination .healthy → OrderFreeBesideDestination observations
  outside : withStatus .failed observations ≠ [] → ¬ Stands observations .destination .failed →
    ¬ Stands observations .destination .healthy → OrderFreeOutside observations

end Ties

/-! ## What any order of the observations gives -/

theorem precedes_iff {a b : VantageObservation} : a.Precedes b ↔ sortKey a ≤ sortKey b := by
  unfold VantageObservation.Precedes sortKey
  rw [Prod.Lex.toLex_le_toLex]

theorem sortObservations_inOrder (observations : List VantageObservation) :
    InOrder sortKey (sortObservations observations) :=
  (List.pairwise_insertionSort VantageObservation.Precedes observations).imp precedes_iff.mp

theorem sortObservations_of_inOrder {xs : List VantageObservation} (h : InOrder sortKey xs) :
    sortObservations xs = xs :=
  List.Pairwise.insertionSort_eq (h.imp precedes_iff.mpr)

theorem withStatus_inOrder {xs : List VantageObservation} (h : InOrder sortKey xs)
    (status : DiagnosticStatus) : InOrder sortKey (withStatus status xs) :=
  List.Pairwise.filter _ h

/-- Representatives and a sorted list, as an order of the observations may give them. -/
structure Realized (observations : List VantageObservation) (r : Representatives)
    (xs : List VantageObservation) : Prop where
  of : r.Of observations
  perm : xs.Perm observations
  inOrder : InOrder sortKey xs

theorem StandsFor.tied {role : VantageRole} {observations : List VantageObservation}
    {a b : VantageObservation} (ha : StandsFor role observations (some a))
    (hb : StandsFor role observations (some b)) : sortKey a = sortKey b := by
  have hvantage : a.vantage = b.vantage :=
    le_antisymm (ha.2.2 b hb.1 hb.2.1) (hb.2.2 a ha.1 ha.2.1)
  unfold sortKey
  rw [ha.2.1, hb.2.1, hvantage]

section Representative

variable {role : VantageRole} {status : DiagnosticStatus}
  {observations : List VantageObservation} {o : Option VantageObservation}

theorem StandsFor.takes (h : StandsFor role observations o)
    (hstands : Stands observations role status)
    (hagree : Agree observations role status) :
    ∃ a, o = some a ∧ a.status = status ∧ StandsFor role observations (some a) := by
  obtain ⟨b, hb, hstatus⟩ := hstands
  cases o with
  | none => exact absurd hb.2.1 (h b hb.1)
  | some a => exact ⟨a, rfl, hagree b a hb h hstatus, h⟩

theorem StandsFor.not_takes (h : StandsFor role observations o)
    (hstands : ¬ Stands observations role status) : ∀ a, o = some a → a.status ≠ status := by
  rintro a rfl hstatus
  exact hstands ⟨a, h, hstatus⟩

theorem StandsFor.toList_confidences {o' : Option VantageObservation}
    (h : StandsFor role observations o) (h' : StandsFor role observations o')
    (hsame : SameConfidence observations role) :
    o.toList.map (·.confidenceOf) = o'.toList.map (·.confidenceOf) := by
  cases o with
  | none =>
      cases o' with
      | none => rfl
      | some b => exact absurd h'.2.1 (h b h'.1)
  | some a =>
      cases o' with
      | none => exact absurd h.2.1 (h' a h.1)
      | some b => rw [Option.toList_some, Option.toList_some, List.map_singleton,
          List.map_singleton, hsame a b h h']

end Representative

theorem SameDecision.of_eq {loc : FaultLocalization} {base : Rat}
    {ds ds' : List VantageObservation}
    (h : ds.map (·.confidenceOf) = ds'.map (·.confidenceOf)) :
    SameDecision (loc, base, ds) (loc, base, ds') :=
  ⟨rfl, rfl, .of_eq h, congrArg (·.drop 2) h⟩

section Sufficient

variable {observations : List VantageObservation} {r r' : Representatives}
  {xs ys : List VantageObservation} (hr : Realized observations r xs)
  (hr' : Realized observations r' ys)

include hr hr'

theorem Realized.withStatus_perm (status : DiagnosticStatus) :
    (withStatus status xs).Perm (withStatus status ys) :=
  Analysis.withStatus_perm status (hr.perm.trans hr'.perm.symm)

theorem Realized.confidences_eq {status : DiagnosticStatus}
    (h : EvenTies (withStatus status observations)) :
    (withStatus status xs).map (·.confidenceOf) = (withStatus status ys).map (·.confidenceOf) :=
  (h.of_perm (Analysis.withStatus_perm status hr.perm)).map_eq
    (withStatus_inOrder hr.inOrder status) (withStatus_inOrder hr'.inOrder status)
    (hr.withStatus_perm hr' status)

theorem Realized.confidences_drop_eq {status : DiagnosticStatus}
    (h : EvenTiesButFirst (withStatus status observations)) :
    ((withStatus status xs).map (·.confidenceOf)).drop 2 =
      ((withStatus status ys).map (·.confidenceOf)).drop 2 :=
  (h.of_perm (Analysis.withStatus_perm status hr.perm)).drop_map_eq
    (withStatus_inOrder hr.inOrder status) (withStatus_inOrder hr'.inOrder status)
    (hr.withStatus_perm hr' status)

omit hr' in
theorem Realized.eq_nil_iff {status : DiagnosticStatus} :
    withStatus status xs = [] ↔ withStatus status observations = [] := by
  have hperm := Analysis.withStatus_perm status hr.perm
  rw [← List.length_eq_zero_iff, hperm.length_eq, List.length_eq_zero_iff]

theorem sameDecision_noFault (hf : withStatus .failed observations = [])
    (hg : withStatus .degraded observations = []) (h : EvenTiesButFirst observations) :
    SameDecision (r.decideOn xs) (r'.decideOn ys) := by
  rw [r.decideOn_noFault (hr.eq_nil_iff.mpr hf) (hr.eq_nil_iff.mpr hg),
    r'.decideOn_noFault (hr'.eq_nil_iff.mpr hf) (hr'.eq_nil_iff.mpr hg)]
  have hperm := hr.perm.trans hr'.perm.symm
  exact ⟨rfl, rfl, hperm.map _, (h.of_perm hr.perm).drop_map_eq hr.inOrder hr'.inOrder hperm⟩

theorem sameDecision_degraded (hf : withStatus .failed observations = [])
    (hg : withStatus .degraded observations ≠ [])
    (h : EvenTiesButFirst (withStatus .degraded observations)) :
    SameDecision (r.decideOn xs) (r'.decideOn ys) := by
  have hfx := hr.eq_nil_iff.mpr hf
  have hfy := hr'.eq_nil_iff.mpr hf
  have hours := r.decideOn_degraded hfx fun hnil => hg (hr.eq_nil_iff.mp hnil)
  have htheirs := r'.decideOn_degraded hfy fun hnil => hg (hr'.eq_nil_iff.mp hnil)
  have hloc : (r.decideOn xs).1 = (r'.decideOn ys).1 := by
    rw [(r.decideOn_perm (hr.perm.trans hr'.perm.symm)).1]
    exact r.decideOn_localization_of_none_failed r' hfy
  refine ⟨hloc, ?_, ?_, ?_⟩
  · rw [hours, htheirs]
  · rw [hours, htheirs]
    exact (hr.withStatus_perm hr' .degraded).map _
  · rw [hours, htheirs]
    exact hr.confidences_drop_eq hr' h

theorem sameDecision_targetFailed (hstands : Stands observations .destination .failed)
    (hagree : Agree observations .destination .failed)
    (h : EvenTies (withStatus .failed observations)) :
    SameDecision (r.decideOn xs) (r'.decideOn ys) := by
  obtain ⟨d, hd, hdstatus, hdstands⟩ := hr.of.1.takes hstands hagree
  obtain ⟨d', hd', hdstatus', hdstands'⟩ := hr'.of.1.takes hstands hagree
  have hmem : ∀ {a : VantageObservation}, a.status = .failed → a ∈ observations →
      a ∈ withStatus .failed observations := by
    intro a ha hmem
    exact List.mem_filter.mpr ⟨hmem, decide_eq_true ha⟩
  have hfailed : withStatus .failed observations ≠ [] :=
    List.ne_nil_of_mem (hmem hdstatus hdstands.1)
  rw [r.decideOn_targetFailed hd hdstatus fun hnil => hfailed (hr.eq_nil_iff.mp hnil),
    r'.decideOn_targetFailed hd' hdstatus' fun hnil => hfailed (hr'.eq_nil_iff.mp hnil)]
  apply SameDecision.of_eq
  have hconfidence : d.confidenceOf = d'.confidenceOf :=
    h d (hmem hdstatus hdstands.1) d' (hmem hdstatus' hdstands'.1) (hdstands.tied hdstands')
  rw [List.map_cons, List.map_cons, hconfidence, hr.confidences_eq hr' h]

theorem sameDecision_besideDestination (hf : withStatus .failed observations ≠ [])
    (hstands : Stands observations .destination .healthy)
    (hagree : Agree observations .destination .healthy)
    (h : OrderFreeBesideDestination observations) :
    SameDecision (r.decideOn xs) (r'.decideOn ys) := by
  have hfx : withStatus .failed xs ≠ [] := fun hnil => hf (hr.eq_nil_iff.mp hnil)
  have hfy : withStatus .failed ys ≠ [] := fun hnil => hf (hr'.eq_nil_iff.mp hnil)
  obtain ⟨d, hd, hup, hdstands⟩ := hr.of.1.takes hstands hagree
  obtain ⟨d', hd', hup', hdstands'⟩ := hr'.of.1.takes hstands hagree
  have hdconf : d.confidenceOf = d'.confidenceOf := h.destination d d' hdstands hdstands'
  by_cases hsource : Stands observations .source .failed
  · obtain ⟨s, hs, hsf, hsstands⟩ := hr.of.2.1.takes hsource h.source
    obtain ⟨s', hs', hsf', hsstands'⟩ := hr'.of.2.1.takes hsource h.source
    obtain ⟨hsame, hsameThird⟩ := h.sourceFailed hsource
    have hsconf : s.confidenceOf = s'.confidenceOf := hsame s s' hsstands hsstands'
    by_cases hthird : Stands observations .third .failed
    · obtain ⟨t, ht, htf, htstands⟩ := hr.of.2.2.takes hthird h.third
      obtain ⟨t', ht', htf', htstands'⟩ := hr'.of.2.2.takes hthird h.third
      have htconf : t.confidenceOf = t'.confidenceOf := hsameThird t t' htstands htstands'
      rw [r.decideOn_bothFailed hd hup hfx hs hsf ht htf,
        r'.decideOn_bothFailed hd' hup' hfy hs' hsf' ht' htf']
      apply SameDecision.of_eq
      simp only [List.map_cons, List.map_nil, hdconf, hsconf, htconf]
    · rw [r.decideOn_sourceFailed hd hup hfx hs hsf (hr.of.2.2.not_takes hthird),
        r'.decideOn_sourceFailed hd' hup' hfy hs' hsf' (hr'.of.2.2.not_takes hthird)]
      apply SameDecision.of_eq
      simp only [List.map_append, List.map_cons, List.map_nil, hdconf, hsconf,
        hr.of.2.2.toList_confidences hr'.of.2.2 hsameThird]
  · have hsx := hr.of.2.1.not_takes hsource
    have hsy := hr'.of.2.1.not_takes hsource
    by_cases hthird : Stands observations .third .failed
    · obtain ⟨t, ht, htf, htstands⟩ := hr.of.2.2.takes hthird h.third
      obtain ⟨t', ht', htf', htstands'⟩ := hr'.of.2.2.takes hthird h.third
      have htconf : t.confidenceOf = t'.confidenceOf :=
        h.thirdFailed hsource hthird t t' htstands htstands'
      rw [r.decideOn_thirdFailed hd hup hfx hsx ht htf,
        r'.decideOn_thirdFailed hd' hup' hfy hsy ht' htf']
      apply SameDecision.of_eq
      simp only [List.map_cons, List.map_nil, hdconf, htconf]
    · rw [r.decideOn_othersFailed hd hup hfx hsx (hr.of.2.2.not_takes hthird),
        r'.decideOn_othersFailed hd' hup' hfy hsy (hr'.of.2.2.not_takes hthird),
        (hr.withStatus_perm hr' .failed).length_eq]
      apply SameDecision.of_eq
      rw [List.map_cons, List.map_cons, hdconf,
        hr.confidences_eq hr' (h.othersFailed hsource hthird)]

theorem sameDecision_outside (hf : withStatus .failed observations ≠ [])
    (hdown : ¬ Stands observations .destination .failed)
    (hup : ¬ Stands observations .destination .healthy) (h : OrderFreeOutside observations) :
    SameDecision (r.decideOn xs) (r'.decideOn ys) := by
  have hfx : withStatus .failed xs ≠ [] := fun hnil => hf (hr.eq_nil_iff.mp hnil)
  have hfy : withStatus .failed ys ≠ [] := fun hnil => hf (hr'.eq_nil_iff.mp hnil)
  have hdx := hr.of.1.not_takes hdown
  have hdy := hr'.of.1.not_takes hdown
  have hhx := hr.of.1.not_takes hup
  have hhy := hr'.of.1.not_takes hup
  have hlenx := (Analysis.withStatus_perm .failed hr.perm).length_eq
  have hleny := (Analysis.withStatus_perm .failed hr'.perm).length_eq
  by_cases hall : (withStatus .failed observations).length = observations.length
  · rw [r.decideOn_all hdx hhx hfx (by rw [hlenx, hall, hr.perm.length_eq]),
      r'.decideOn_all hdy hhy hfy (by rw [hleny, hall, hr'.perm.length_eq])]
    exact ⟨rfl, rfl, (hr.withStatus_perm hr' .failed).map _,
      hr.confidences_drop_eq hr' (h.all hall)⟩
  · have hallx : (withStatus .failed xs).length ≠ xs.length := by
      rw [hlenx, hr.perm.length_eq]
      exact hall
    have hally : (withStatus .failed ys).length ≠ ys.length := by
      rw [hleny, hr'.perm.length_eq]
      exact hall
    by_cases hone : (withStatus .failed observations).length = 1
    · obtain ⟨only, honly⟩ := List.length_eq_one_iff.mp (hlenx.trans hone)
      have honly' : withStatus .failed ys = [only] := by
        have hperm := (hr.withStatus_perm hr' .failed).symm
        rw [honly] at hperm
        exact List.perm_singleton.mp hperm
      rw [r.decideOn_one hdx hhx honly hallx, r'.decideOn_one hdy hhy honly' hally]
      have hperm := hr.perm.trans hr'.perm.symm
      exact ⟨rfl, rfl, hperm.map _,
        ((h.one hall hone).of_perm hr.perm).drop_map_eq hr.inOrder hr'.inOrder hperm⟩
    · rw [r.decideOn_several hdx hhx hfx hallx (by rw [hlenx]; exact hone),
        r'.decideOn_several hdy hhy hfy hally (by rw [hleny]; exact hone)]
      obtain ⟨hfailed, hhealthy⟩ := h.several hall hone
      have htwo : 2 ≤ (withStatus .failed observations).length := by
        have hpos := List.length_pos_iff.mpr hf
        omega
      refine ⟨rfl, rfl, ?_, ?_⟩
      · exact ((hr.withStatus_perm hr' .failed).append (hr.withStatus_perm hr' .healthy)).map _
      · simp only [List.map_append]
        rw [List.drop_append_of_le_length (by rw [List.length_map]; omega),
          List.drop_append_of_le_length (by rw [List.length_map]; omega),
          hr.confidences_drop_eq hr' hfailed, hr.confidences_eq hr' hhealthy]

/-- Where the ties agree, all orders of the observations lead to one decision. -/
theorem OrderFree.sameDecision (h : OrderFree observations) :
    SameDecision (r.decideOn xs) (r'.decideOn ys) := by
  by_cases hf : withStatus .failed observations = []
  · by_cases hg : withStatus .degraded observations = []
    · exact sameDecision_noFault hr hr' hf hg (h.noFault hf hg)
    · exact sameDecision_degraded hr hr' hf hg (h.degraded hf hg)
  · obtain ⟨hagree, hagreeUp⟩ := h.destination hf
    by_cases hdown : Stands observations .destination .failed
    · exact sameDecision_targetFailed hr hr' hdown hagree (h.targetFailed hdown)
    · by_cases hup : Stands observations .destination .healthy
      · exact sameDecision_besideDestination hr hr' hf hup hagreeUp (h.targetReached hf hup)
      · exact sameDecision_outside hr hr' hf hdown hup (h.outside hf hdown hup)

end Sufficient

end NetForge.Analysis
