import NetForge.Analysis.Multivantage
import NetForge.Calculus.StableSort
import Mathlib.Data.String.Basic

/-! # Localization by representatives

The observations are sorted by role and vantage before one of each named role is
taken. Observations that tie there keep the order they came in, so any of them can
be the one taken, and the decision reads everything else up to its order.
-/

namespace NetForge.Analysis

open NetForge.Core Python Calculus

namespace VantageObservation

instance : IsTrans VantageObservation Precedes where
  trans a b c hab hbc := by
    rcases hab with hab | ⟨hab, hvab⟩
    · rcases hbc with hbc | ⟨hbc, -⟩
      · exact .inl (hab.trans hbc)
      · exact .inl (hbc ▸ hab)
    · rcases hbc with hbc | ⟨hbc, hvbc⟩
      · exact .inl (hab ▸ hbc)
      · exact .inr ⟨hab.trans hbc, le_trans hvab hvbc⟩

instance : Std.Total Precedes where
  total a b := by
    rcases Nat.lt_trichotomy (roleOrder a.role) (roleOrder b.role) with hlt | heq | hgt
    · exact .inl (.inl hlt)
    · rcases le_total a.vantage b.vantage with hv | hv
      · exact .inl (.inr ⟨heq, hv⟩)
      · exact .inr (.inr ⟨heq.symm, hv⟩)
    · exact .inr (.inl hgt)

end VantageObservation

/-! ## One observation for a role -/

/-- The observation stands for the role: it is one of the role from the first of
its vantages. Nothing stands for a role that no observation has. -/
def StandsFor (role : VantageRole) (observations : List VantageObservation) :
    Option VantageObservation → Prop
  | none => ∀ o ∈ observations, o.role ≠ role
  | some first =>
      first ∈ observations ∧ first.role = role ∧
        ∀ o ∈ observations, o.role = role → first.vantage ≤ o.vantage

theorem StandsFor.of_perm {role : VantageRole} {observations shuffled : List VantageObservation}
    {first : Option VantageObservation} (hperm : shuffled.Perm observations)
    (h : StandsFor role observations first) : StandsFor role shuffled first := by
  cases first with
  | none => exact fun o ho => h o (hperm.mem_iff.mp ho)
  | some first =>
      exact ⟨hperm.mem_iff.mpr h.1, h.2.1, fun o ho => h.2.2 o (hperm.mem_iff.mp ho)⟩

theorem standsFor_first (role : VantageRole) (observations : List VantageObservation) :
    StandsFor role observations (firstWithRole role (sortObservations observations)) := by
  cases hfirst : firstWithRole role (sortObservations observations) with
  | none =>
      intro o ho hrole
      have hnone := List.find?_eq_none.mp hfirst o (mem_sortObservations.mpr ho)
      exact hnone (decide_eq_true hrole)
  | some first =>
      obtain ⟨hmem, hrole, hleast⟩ := least_of_find? hfirst
      have hrole : first.role = role := of_decide_eq_true hrole
      refine ⟨hmem, hrole, fun o ho horole => ?_⟩
      rcases hleast o ho (decide_eq_true horole) with hlt | ⟨-, hle⟩
      · rw [hrole, horole] at hlt
        exact absurd hlt (lt_irrefl _)
      · exact hle

/-- An observation that stands for its role and comes first among those of the role
is the one taken. -/
theorem firstWithRole_of_standsFor {role : VantageRole} {observations : List VantageObservation}
    {first : Option VantageObservation} (h : StandsFor role observations first)
    (hfirst : ∀ o, first = some o →
      ∃ rest, observations.filter (·.role = role) = o :: rest) :
    firstWithRole role (sortObservations observations) = first := by
  cases first with
  | none =>
      refine List.find?_eq_none.mpr fun o ho hrole => ?_
      exact h o (mem_sortObservations.mp ho) (of_decide_eq_true hrole)
  | some o =>
      obtain ⟨rest, hrest⟩ := hfirst o rfl
      refine find?_of_least hrest fun b hb hrole => .inr ⟨?_, h.2.2 b hb (of_decide_eq_true hrole)⟩
      rw [h.2.1, of_decide_eq_true hrole]

/-! ## The decision on given representatives -/

/-- One observation, or none, for each of the named roles. -/
structure Representatives where
  destination : Option VantageObservation
  source : Option VantageObservation
  third : Option VantageObservation

namespace Representatives

def Of (observations : List VantageObservation) (r : Representatives) : Prop :=
  StandsFor .destination observations r.destination ∧ StandsFor .source observations r.source ∧
    StandsFor .third observations r.third

def first (observations : List VantageObservation) : Representatives :=
  let obsSorted := sortObservations observations
  ⟨firstWithRole .destination obsSorted, firstWithRole .source obsSorted,
    firstWithRole .third obsSorted⟩

theorem first_of (observations : List VantageObservation) : (first observations).Of observations :=
  ⟨standsFor_first _ _, standsFor_first _ _, standsFor_first _ _⟩

def decideOn (r : Representatives) (observations : List VantageObservation) :
    FaultLocalization × Rat × List VantageObservation :=
  decideFault r.destination r.source r.third (withStatus .failed observations)
    (withStatus .degraded observations) (withStatus .healthy observations) observations
    observations.length

end Representatives

/-! ## Shuffled observations -/

theorem decideFault_perm (d s t : Option VantageObservation)
    {unreach unreach' degrad degrad' reachable reachable' all all' : List VantageObservation}
    (hu : unreach.Perm unreach') (hd : degrad.Perm degrad') (hr : reachable.Perm reachable')
    (ha : all.Perm all') (n : Nat) :
    (decideFault d s t unreach degrad reachable all n).1 =
        (decideFault d s t unreach' degrad' reachable' all' n).1 ∧
      (decideFault d s t unreach degrad reachable all n).2.1 =
        (decideFault d s t unreach' degrad' reachable' all' n).2.1 ∧
      (decideFault d s t unreach degrad reachable all n).2.2.Perm
        (decideFault d s t unreach' degrad' reachable' all' n).2.2 := by
  have hulen := hu.length_eq
  have hdlen := hd.length_eq
  cases unreach with
  | nil =>
      obtain rfl := hu.symm.eq_nil
      match degrad, degrad' with
      | [], [] => exact ⟨rfl, rfl, ha⟩
      | [only], [only'] =>
          obtain rfl : only = only' := by simpa using hd
          exact ⟨rfl, rfl, hd⟩
      | _ :: _ :: _, _ :: _ :: _ => exact ⟨rfl, rfl, hd⟩
      | [], _ :: _ => simp at hdlen
      | _ :: _, [] => simp at hdlen
      | [_], _ :: _ :: _ => simp at hdlen
      | _ :: _ :: _, [_] => simp at hdlen
  | cons u us =>
      cases unreach' with
      | nil => simp at hulen
      | cons u' us' =>
          unfold decideFault
          cases hdf : d.filter (·.status = .failed) with
          | some dest => exact ⟨rfl, rfl, hu.cons dest⟩
          | none =>
              cases hdh : d.filter (·.status = .healthy) with
              | some dest =>
                  cases s.filter (·.status = .failed) with
                  | some source =>
                      cases t.filter (·.status = .failed) with
                      | some third => exact ⟨rfl, rfl, .refl _⟩
                      | none => exact ⟨rfl, rfl, .refl _⟩
                  | none =>
                      cases t.filter (·.status = .failed) with
                      | some third => exact ⟨rfl, rfl, .refl _⟩
                      | none => exact ⟨by simp only [hulen], rfl, hu.cons dest⟩
              | none =>
                  simp only [hulen]
                  by_cases hall : (u' :: us').length = n
                  · rw [if_pos hall, if_pos hall]
                    exact ⟨rfl, rfl, hu⟩
                  · rw [if_neg hall, if_neg hall]
                    match us, us' with
                    | [], [] =>
                        obtain rfl : u = u' := by simpa using hu
                        exact ⟨rfl, rfl, ha⟩
                    | _ :: _, _ :: _ => exact ⟨rfl, rfl, hu.append hr⟩
                    | [], _ :: _ => simp at hulen
                    | _ :: _, [] => simp at hulen

theorem withStatus_perm (status : DiagnosticStatus)
    {observations shuffled : List VantageObservation} (hperm : shuffled.Perm observations) :
    (withStatus status shuffled).Perm (withStatus status observations) := hperm.filter _

namespace Representatives

theorem decideOn_perm (r : Representatives) {observations shuffled : List VantageObservation}
    (hperm : shuffled.Perm observations) :
    (r.decideOn shuffled).1 = (r.decideOn observations).1 ∧
      (r.decideOn shuffled).2.1 = (r.decideOn observations).2.1 ∧
      (r.decideOn shuffled).2.2.Perm (r.decideOn observations).2.2 := by
  unfold decideOn
  rw [hperm.length_eq]
  exact decideFault_perm _ _ _ (withStatus_perm _ hperm) (withStatus_perm _ hperm)
    (withStatus_perm _ hperm) hperm _

end Representatives

theorem overallStatus_perm (localization : FaultLocalization)
    {unreach unreach' degrad degrad' : List VantageObservation} (hu : unreach.Perm unreach')
    (hd : degrad.Perm degrad') :
    overallStatus localization unreach degrad = overallStatus localization unreach' degrad' := by
  have hnil : ∀ {xs ys : List VantageObservation}, xs.Perm ys → (xs ≠ [] ↔ ys ≠ []) := by
    intro xs ys h
    rw [← List.length_pos_iff, ← List.length_pos_iff, h.length_eq]
  unfold overallStatus
  simp only [hnil hu, hnil hd]

theorem sortObservations_perm (observations : List VantageObservation) :
    (sortObservations observations).Perm observations := List.perm_insertionSort _ _

/-! ## Every choice among ties is taken in some order -/

theorem filter_role_of_leading {role : VantageRole} (before : List VantageObservation)
    {after : List VantageObservation} {o : VantageObservation} (ho : o.role = role)
    (hbefore : ∀ b ∈ before, b.role ≠ role) :
    ∃ rest, (before ++ o :: after).filter (·.role = role) = o :: rest := by
  refine ⟨after.filter (·.role = role), ?_⟩
  have hnone : before.filter (·.role = role) = [] := by
    refine List.filter_eq_nil_iff.mpr fun b hb hrole => ?_
    exact hbefore b hb (of_decide_eq_true hrole)
  rw [List.filter_append, hnone, List.nil_append]
  simp [ho]

theorem StandsFor.role_of_mem {role : VantageRole} {observations : List VantageObservation}
    {first : Option VantageObservation} (h : StandsFor role observations first)
    {o : VantageObservation} (ho : o ∈ first.toList) : o ∈ observations ∧ o.role = role := by
  cases first with
  | none => exact absurd ho List.not_mem_nil
  | some first =>
      obtain rfl : o = first := by simpa using ho
      exact ⟨h.1, h.2.1⟩

namespace Representatives

variable {observations : List VantageObservation} {r : Representatives}

/-- The representatives that exist, in the order of their roles. -/
def chosen (r : Representatives) : List VantageObservation :=
  r.destination.toList ++ r.source.toList ++ r.third.toList

theorem chosen_nodup (h : r.Of observations) : r.chosen.Nodup := by
  have hone : ∀ first : Option VantageObservation, first.toList.Nodup := by
    intro first
    cases first <;> simp
  unfold chosen
  rw [List.nodup_append, List.nodup_append]
  refine ⟨⟨hone _, hone _, ?_⟩, hone _, ?_⟩
  · rintro d hd s hs rfl
    have hrole := (h.1.role_of_mem hd).2.symm.trans (h.2.1.role_of_mem hs).2
    cases hrole
  · rintro o ho t ht rfl
    have hthird := (h.2.2.role_of_mem ht).2
    rcases List.mem_append.mp ho with hd | hs
    · cases (h.1.role_of_mem hd).2.symm.trans hthird
    · cases (h.2.1.role_of_mem hs).2.symm.trans hthird

theorem chosen_subset (h : r.Of observations) : ∀ o ∈ r.chosen, o ∈ observations := by
  intro o ho
  unfold chosen at ho
  rcases List.mem_append.mp ho with ho | ht
  · rcases List.mem_append.mp ho with hd | hs
    · exact (h.1.role_of_mem hd).1
    · exact (h.2.1.role_of_mem hs).1
  · exact (h.2.2.role_of_mem ht).1

theorem exists_shuffle (h : r.Of observations) :
    ∃ shuffled : List VantageObservation, shuffled.Perm observations ∧ first shuffled = r := by
  have hcount : ∀ o ∈ r.chosen, r.chosen.count o ≤ observations.count o := by
    intro o ho
    have hone := List.nodup_iff_count_le_one.mp (chosen_nodup h) o
    have hpos := List.count_pos_iff.mpr (chosen_subset h o ho)
    omega
  have hperm : (r.chosen ++ observations.diff r.chosen).Perm observations :=
    List.subperm_append_diff_self_of_count_le hcount
  refine ⟨r.chosen ++ observations.diff r.chosen, hperm, ?_⟩
  obtain ⟨d, s, t⟩ := r
  have hd := h.1.of_perm hperm
  have hs := h.2.1.of_perm hperm
  have ht := h.2.2.of_perm hperm
  have hdfirst := firstWithRole_of_standsFor hd fun o ho => by
    obtain rfl : d = some o := ho
    exact filter_role_of_leading [] hd.2.1 (by simp)
  have hsfirst := firstWithRole_of_standsFor hs fun o ho => by
    obtain rfl : s = some o := ho
    unfold chosen
    simp only [Option.toList_some, List.append_assoc, List.singleton_append]
    refine filter_role_of_leading _ hs.2.1 fun b hb hrole => ?_
    cases (h.1.role_of_mem hb).2.symm.trans hrole
  have htfirst := firstWithRole_of_standsFor ht fun o ho => by
    obtain rfl : t = some o := ho
    unfold chosen
    rw [Option.toList_some, List.append_assoc, List.singleton_append]
    refine filter_role_of_leading _ ht.2.1 fun b hb hrole => ?_
    rcases List.mem_append.mp hb with hb | hb
    · cases (h.1.role_of_mem hb).2.symm.trans hrole
    · cases (h.2.1.role_of_mem hb).2.symm.trans hrole
  unfold first
  simp only [hdfirst, hsfirst, htfirst]

end Representatives

def decided (observations : List VantageObservation) :
    FaultLocalization × Rat × List VantageObservation :=
  (Representatives.first observations).decideOn (sortObservations observations)

section Report

variable (A : Arithmetic) {observations : List VantageObservation} (target : String)
  (serviceId topology : Option String) (agentErrors : List (String × String))
  (diagnosisId : String)

/-- The report on some observations, by its decision and the counts. -/
theorem localizeFaultIn_report (hne : observations ≠ []) :
    let report := localizeFaultIn A observations target serviceId topology agentErrors diagnosisId
    let sorted := sortObservations observations
    let decision := decided observations
    report.localization = decision.1 ∧
      report.status = overallStatus decision.1 (withStatus .failed sorted)
        (withStatus .degraded sorted) ∧
      report.verdict = verdict decision.1 target (firstWithRole .destination sorted)
        (withStatus .failed sorted) sorted.length ∧
      report.confidence = confidenceOn A decision.2.1 decision.2.2 ∧
      report.reachableCount = (withStatus .healthy sorted).length ∧
      report.failedCount = (withStatus .failed sorted).length ∧
      report.degradedCount = (withStatus .degraded sorted).length := by
  intro report sorted decision
  have hlen : (sortObservations observations).length ≠ 0 := by
    rw [(sortObservations_perm observations).length_eq]
    intro hzero
    exact hne (List.length_eq_zero_iff.mp hzero)
  unfold report localizeFaultIn
  simp only
  rw [if_neg hlen]
  exact ⟨rfl, rfl, rfl, rfl, rfl, rfl, rfl⟩

end Report

namespace Sample

def seen (agentId : String) (role : VantageRole) (status : DiagnosticStatus) :
    VantageObservation where
  agentId := agentId
  nodeId := none
  role := role
  target := "10.0.0.1"
  probeType := "interfaces"
  status := status
  evidenceQuality := .verified
  confidence := some (95 / 100)
  summary := ""
  evidence := []
  confidence_mem := by
    rintro c ⟨⟩
    exact ⟨by norm_num, by norm_num⟩

end Sample

end NetForge.Analysis
