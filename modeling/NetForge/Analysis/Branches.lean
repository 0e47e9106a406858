import NetForge.Analysis.Localization

/-! # The branches of the decision

What `_decide` answers in each of its branches, by what became of the observations
taken for the named roles. The base confidence tells the branches apart.
-/

namespace NetForge.Analysis

open NetForge.Core Python

theorem filter_status_eq_some {o : Option VantageObservation} {a : VantageObservation}
    {status : DiagnosticStatus} (ho : o = some a) (ha : a.status = status) :
    o.filter (·.status = status) = some a := by
  rw [ho, Option.filter_some, if_pos (decide_eq_true ha)]

theorem filter_status_eq_none {o : Option VantageObservation} {status : DiagnosticStatus}
    (h : ∀ a, o = some a → a.status ≠ status) : o.filter (·.status = status) = none := by
  cases o with
  | none => rfl
  | some a => rw [Option.filter_some, if_neg (by simpa using h a rfl)]

def Takes (o : Option VantageObservation) (status : DiagnosticStatus) : Prop :=
  ∃ a, o = some a ∧ a.status = status

theorem takes_iff {o : Option VantageObservation} {status : DiagnosticStatus} :
    Takes o status ↔ (o.filter (·.status = status)).isSome = true := by
  cases o with
  | none => simp [Takes]
  | some a => by_cases ha : a.status = status <;> simp [Takes, ha]

theorem not_takes {o : Option VantageObservation} {status : DiagnosticStatus}
    (h : ¬ Takes o status) : ∀ a, o = some a → a.status ≠ status :=
  fun a ho ha => h ⟨a, ho, ha⟩

theorem takes_some {a : VantageObservation} {status : DiagnosticStatus} :
    Takes (some a) status ↔ a.status = status := by simp [Takes]

namespace Representatives

variable {r : Representatives} {xs : List VantageObservation}

theorem decideOn_noFault (hf : withStatus .failed xs = []) (hg : withStatus .degraded xs = []) :
    r.decideOn xs = (.healthy, 90 / 100, xs) := by
  unfold decideOn
  rw [hf, hg]
  rfl

theorem decideOn_degraded (hf : withStatus .failed xs = []) (hg : withStatus .degraded xs ≠ []) :
    (r.decideOn xs).2 = (60 / 100, withStatus .degraded xs) := by
  unfold decideOn
  rw [hf]
  match withStatus .degraded xs, hg with
  | [only], _ => rfl
  | _ :: _ :: _, _ => rfl

theorem decideOn_localization_of_none_failed (r r' : Representatives)
    (hf : withStatus .failed xs = []) : (r.decideOn xs).1 = (r'.decideOn xs).1 := by
  unfold decideOn
  rw [hf]
  match withStatus .degraded xs with
  | [] => rfl
  | [_] => rfl
  | _ :: _ :: _ => rfl

theorem decideOn_targetFailed {d : VantageObservation} (hd : r.destination = some d)
    (hstatus : d.status = .failed) (hf : withStatus .failed xs ≠ []) :
    r.decideOn xs = (.targetSide, 90 / 100, d :: withStatus .failed xs) := by
  obtain ⟨u, us, hu⟩ := List.exists_cons_of_ne_nil hf
  unfold decideOn
  rw [hu]
  simp only [decideFault, filter_status_eq_some hd hstatus]

theorem filter_failed_of_healthy {o : Option VantageObservation} {a : VantageObservation}
    (ho : o = some a) (ha : a.status = .healthy) : o.filter (·.status = .failed) = none := by
  apply filter_status_eq_none
  intro b hb hfailed
  rw [ho] at hb
  cases hb
  rw [ha] at hfailed
  cases hfailed

section Reached

variable {d : VantageObservation} (hd : r.destination = some d) (hstatus : d.status = .healthy)
  (hf : withStatus .failed xs ≠ [])

include hd hstatus hf

theorem decideOn_bothFailed {s t : VantageObservation} (hs : r.source = some s)
    (hsf : s.status = .failed) (ht : r.third = some t) (htf : t.status = .failed) :
    r.decideOn xs = (.pathShared, 75 / 100, [d, s, t]) := by
  obtain ⟨u, us, hu⟩ := List.exists_cons_of_ne_nil hf
  unfold decideOn
  rw [hu]
  simp only [decideFault, filter_failed_of_healthy hd hstatus, filter_status_eq_some hd hstatus,
    filter_status_eq_some hs hsf, filter_status_eq_some ht htf]

theorem decideOn_sourceFailed {s : VantageObservation} (hs : r.source = some s)
    (hsf : s.status = .failed) (ht : ∀ t, r.third = some t → t.status ≠ .failed) :
    r.decideOn xs = (.sourceSide, 82 / 100, [d, s] ++ r.third.toList) := by
  obtain ⟨u, us, hu⟩ := List.exists_cons_of_ne_nil hf
  unfold decideOn
  rw [hu]
  simp only [decideFault, filter_failed_of_healthy hd hstatus, filter_status_eq_some hd hstatus,
    filter_status_eq_some hs hsf, filter_status_eq_none ht]

theorem decideOn_thirdFailed {t : VantageObservation}
    (hs : ∀ s, r.source = some s → s.status ≠ .failed) (ht : r.third = some t)
    (htf : t.status = .failed) : r.decideOn xs = (.vantageIsolated, 78 / 100, [d, t]) := by
  obtain ⟨u, us, hu⟩ := List.exists_cons_of_ne_nil hf
  unfold decideOn
  rw [hu]
  simp only [decideFault, filter_failed_of_healthy hd hstatus, filter_status_eq_some hd hstatus,
    filter_status_eq_none hs, filter_status_eq_some ht htf]

theorem decideOn_othersFailed (hs : ∀ s, r.source = some s → s.status ≠ .failed)
    (ht : ∀ t, r.third = some t → t.status ≠ .failed) :
    r.decideOn xs =
      (if 1 < (withStatus .failed xs).length then .pathShared else .vantageIsolated, 70 / 100,
        d :: withStatus .failed xs) := by
  obtain ⟨u, us, hu⟩ := List.exists_cons_of_ne_nil hf
  unfold decideOn
  rw [hu]
  simp only [decideFault, filter_failed_of_healthy hd hstatus, filter_status_eq_some hd hstatus,
    filter_status_eq_none hs, filter_status_eq_none ht]

end Reached

section Outside

variable (hdf : ∀ d, r.destination = some d → d.status ≠ .failed)
  (hdh : ∀ d, r.destination = some d → d.status ≠ .healthy)

include hdf hdh

theorem decideOn_all (hf : withStatus .failed xs ≠ [])
    (hall : (withStatus .failed xs).length = xs.length) :
    r.decideOn xs = (.targetSide, 60 / 100, withStatus .failed xs) := by
  obtain ⟨u, us, hu⟩ := List.exists_cons_of_ne_nil hf
  rw [hu] at hall
  unfold decideOn
  rw [hu]
  simp only [decideFault, filter_status_eq_none hdf, filter_status_eq_none hdh]
  rw [if_pos hall]

theorem decideOn_one {only : VantageObservation} (hone : withStatus .failed xs = [only])
    (hall : (withStatus .failed xs).length ≠ xs.length) :
    r.decideOn xs =
      (if only.role = .source then .sourceSide else .vantageIsolated, 72 / 100, xs) := by
  rw [hone] at hall
  unfold decideOn
  rw [hone]
  simp only [decideFault, filter_status_eq_none hdf, filter_status_eq_none hdh]
  rw [if_neg hall]

theorem decideOn_several (hf : withStatus .failed xs ≠ [])
    (hall : (withStatus .failed xs).length ≠ xs.length)
    (hone : (withStatus .failed xs).length ≠ 1) :
    r.decideOn xs = (.pathShared, 65 / 100, withStatus .failed xs ++ withStatus .healthy xs) := by
  obtain ⟨u, us, hu⟩ := List.exists_cons_of_ne_nil hf
  rw [hu] at hall hone
  unfold decideOn
  rw [hu]
  simp only [decideFault, filter_status_eq_none hdf, filter_status_eq_none hdh]
  rw [if_neg hall]
  cases us with
  | nil => exact absurd rfl hone
  | cons u' us => rfl

end Outside

theorem not_healthy_of_failed {o : Option VantageObservation} {a : VantageObservation}
    (h : o.filter (·.status = .failed) = some a) : o.filter (·.status = .healthy) = none := by
  obtain ⟨ho, ha⟩ := Option.filter_eq_some_iff.mp h
  apply filter_status_eq_none
  intro b hb hhealthy
  rw [ho] at hb
  cases hb
  rw [hhealthy] at ha
  cases of_decide_eq_true ha

theorem decideOn_base (r : Representatives) (hf : withStatus .failed xs ≠ []) :
    ((r.decideOn xs).2.1 = 90 / 100 ↔ Takes r.destination .failed) ∧
      ((r.decideOn xs).2.1 ∈ [75 / 100, 82 / 100, 78 / 100, 70 / 100] ↔
        Takes r.destination .healthy) ∧
      ((r.decideOn xs).2.1 ∈ [75 / 100, 82 / 100] ↔
        Takes r.destination .healthy ∧ Takes r.source .failed) ∧
      ((r.decideOn xs).2.1 ∈ [75 / 100, 78 / 100] ↔
        Takes r.destination .healthy ∧ Takes r.third .failed) := by
  obtain ⟨u, us, hu⟩ := List.exists_cons_of_ne_nil hf
  simp only [takes_iff]
  unfold decideOn
  rw [hu]
  unfold decideFault
  simp only
  cases hdf : r.destination.filter (·.status = .failed) with
  | some d =>
      rw [not_healthy_of_failed hdf]
      norm_num
  | none =>
      cases r.destination.filter (·.status = .healthy) with
      | some d =>
          cases r.source.filter (·.status = .failed) <;>
            cases r.third.filter (·.status = .failed) <;> norm_num
      | none =>
          simp only
          by_cases hall : (u :: us).length = xs.length
          · rw [if_pos hall]
            norm_num
          · rw [if_neg hall]
            cases us <;> norm_num

end Representatives

end NetForge.Analysis
