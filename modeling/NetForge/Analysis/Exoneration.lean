import NetForge.Analysis.Localization

/-! # Verdicts that blame one vantage

A source-side or isolated-vantage verdict says that the target is reachable from
elsewhere. The decision singles the blamed observation out by what it knows to be
bad; whether any other vantage was healthy is asked in some branches only.
-/

namespace NetForge.Analysis

open NetForge.Core Python

/-- The observation that is singled out: the only degraded one where none failed,
the only failed one beside others where the destination did not fail, or else the
failed source or third beside a healthy destination when the other did not fail. -/
def blamed (observations : List VantageObservation) : Option VantageObservation :=
  let r := Representatives.first observations
  match withStatus .failed observations, withStatus .degraded observations with
  | [], [only] => some only
  | [], _ => none
  | u :: us, _ =>
      match r.destination.filter (·.status = .failed), r.destination.filter (·.status = .healthy),
        us with
      | some _, _, _ => none
      | none, _, [] => if observations.length = 1 then none else some u
      | none, some _, _ :: _ =>
          match r.source.filter (·.status = .failed), r.third.filter (·.status = .failed) with
          | some s, none => some s
          | none, some t => some t
          | _, _ => none
      | none, none, _ :: _ => none

def BlamesOne (localization : FaultLocalization) : Prop :=
  localization = .sourceSide ∨ localization = .vantageIsolated

theorem blamesOne_ite (c : Prop) [Decidable c] :
    BlamesOne (if c then .sourceSide else .vantageIsolated) := by
  by_cases h : c
  · rw [if_pos h]
    exact .inl rfl
  · rw [if_neg h]
    exact .inr rfl

section

variable {observations : List VantageObservation}

theorem not_both_failed {only s t : VantageObservation}
    (honly : withStatus .failed observations = [only])
    (hs : (Representatives.first observations).source.filter (·.status = .failed) = some s)
    (ht : (Representatives.first observations).third.filter (·.status = .failed) = some t) :
    False := by
  obtain ⟨-, hsource, hthird⟩ := Representatives.first_of observations
  have hfailed : ∀ (role : VantageRole) (first : Option VantageObservation)
      (o : VantageObservation), StandsFor role observations first →
      first.filter (·.status = .failed) = some o →
        o ∈ withStatus .failed observations ∧ o.role = role := by
    intro role first o hfor hfilter
    obtain ⟨hsome, hstatus⟩ := Option.filter_eq_some_iff.mp hfilter
    obtain ⟨hmem, hrole⟩ := hfor.role_of_mem (o := o) (by simp [hsome])
    exact ⟨List.mem_filter.mpr ⟨hmem, hstatus⟩, hrole⟩
  obtain ⟨hsmem, hsrole⟩ := hfailed _ _ _ hsource hs
  obtain ⟨htmem, htrole⟩ := hfailed _ _ _ hthird ht
  rw [honly] at hsmem htmem
  obtain rfl := List.mem_singleton.mp hsmem
  obtain rfl := List.mem_singleton.mp htmem
  rw [hsrole] at htrole
  cases htrole

theorem length_ne_one {only d : VantageObservation}
    (honly : withStatus .failed observations = [only])
    (hd : (Representatives.first observations).destination.filter (·.status = .healthy) = some d) :
    observations.length ≠ 1 := by
  intro hlen
  obtain ⟨hdest, -, -⟩ := Representatives.first_of observations
  obtain ⟨hsome, hstatus⟩ := Option.filter_eq_some_iff.mp hd
  obtain ⟨hmem, -⟩ := hdest.role_of_mem (o := d) (by simp [hsome])
  obtain ⟨o, rfl⟩ := List.length_eq_one_iff.mp hlen
  obtain rfl := List.mem_singleton.mp hmem
  have hbad : only ∈ withStatus .failed [d] := by simp [honly]
  obtain ⟨hin, hfailed⟩ := List.mem_filter.mp hbad
  obtain rfl := List.mem_singleton.mp hin
  have hhealthy : only.status = .healthy := of_decide_eq_true hstatus
  rw [hhealthy] at hfailed
  cases of_decide_eq_true hfailed

theorem blamesOne_iff :
    BlamesOne ((Representatives.first observations).decideOn observations).1 ↔
      (blamed observations).isSome = true := by
  have hboth := @not_both_failed observations
  have hlone := @length_ne_one observations
  unfold Representatives.decideOn decideFault
  simp only [blamed]
  generalize hr : Representatives.first observations = r at hboth hlone ⊢
  cases hu : withStatus .failed observations with
  | nil =>
      match withStatus .degraded observations with
      | [] => simp [BlamesOne]
      | [only] => simpa using blamesOne_ite _
      | _ :: _ :: _ => simp [BlamesOne]
  | cons u us =>
      generalize r.destination.filter (·.status = .failed) = df
      generalize hh : r.destination.filter (·.status = .healthy) = dh at hlone ⊢
      generalize r.source.filter (·.status = .failed) = sf at hboth ⊢
      generalize r.third.filter (·.status = .failed) = tf at hboth ⊢
      cases df with
      | some d => simp [BlamesOne]
      | none =>
      cases us with
      | nil =>
          cases dh with
          | some d =>
              have hlen := hlone hu rfl
              cases sf with
              | none => cases tf <;> simp [BlamesOne, hlen]
              | some s =>
                  cases tf with
                  | none => simp [BlamesOne, hlen]
                  | some t => exact absurd rfl (hboth hu rfl)
          | none =>
              by_cases hone : observations.length = 1
              · simp [BlamesOne, hone]
              · have hne : ¬ 1 = observations.length := fun h => hone h.symm
                simpa [hone, hne] using blamesOne_ite _
      | cons u' us =>
          cases dh with
          | some d => cases sf <;> cases tf <;> simp [BlamesOne]
          | none =>
              by_cases hall : us.length + 1 + 1 = observations.length <;> simp [BlamesOne, hall]

end

/-- A vantage other than that of the observation reached the target. -/
def ReachedElsewhere (observations : List VantageObservation) (b : VantageObservation) : Prop :=
  ∃ o ∈ observations, o.status = .healthy ∧ o.vantage ≠ b.vantage

/-- What the verdicts that blame one vantage state of the others. -/
def Exonerated (observations : List VantageObservation) (report : MultiVantageReport) : Prop :=
  BlamesOne report.localization →
    ∃ b, blamed observations = some b ∧ ReachedElsewhere observations b

/-- The statement is true exactly for the lists that single out no observation, or
one beside a healthy observation of another vantage. -/
theorem localizeFault_exonerated_iff (observations : List VantageObservation) (target : String)
    (serviceId topology : Option String) (agentErrors : List (String × String))
    (diagnosisId : String) :
    Exonerated observations
        (localizeFault observations target serviceId topology agentErrors diagnosisId) ↔
      ∀ b, blamed observations = some b → ReachedElsewhere observations b := by
  have hblames : BlamesOne (localizeFault observations target serviceId topology agentErrors
      diagnosisId).localization ↔ (blamed observations).isSome = true := by
    by_cases hne : observations = []
    · subst hne
      exact iff_of_false (by rintro (h | h) <;> cases h) Bool.false_ne_true
    · have hreport := localizeFaultIn_report .exact target serviceId topology agentErrors
        diagnosisId hne
      have hdecided := (Representatives.first observations).decideOn_perm
        (sortObservations_perm observations)
      rw [← blamesOne_iff, ← hdecided.1]
      unfold localizeFault
      rw [hreport.1]
      rfl
  unfold Exonerated
  rw [hblames]
  constructor
  · intro hstated b hb
    obtain ⟨b', hb', hreached⟩ := hstated (by simp [hb])
    rw [hb] at hb'
    cases hb'
    exact hreached
  · intro hreached hsome
    obtain ⟨b, hb⟩ := Option.isSome_iff_exists.mp hsome
    exact ⟨b, hb, hreached b hb⟩

/-- A degraded source alone is called reachable from other vantages. -/
theorem lone_source_exonerates :
    ¬ ∀ (observations : List VantageObservation) (target : String)
        (serviceId topology : Option String) (agentErrors : List (String × String))
        (diagnosisId : String), Exonerated observations
          (localizeFault observations target serviceId topology agentErrors diagnosisId) := by
  intro hclaim
  obtain ⟨b, -, o, ho, hhealthy, -⟩ := hclaim [Sample.seen "b" .source .degraded] "10.0.0.1" none
    none [] "d1" (.inl (by decide +kernel))
  obtain rfl := List.mem_singleton.mp ho
  cases hhealthy

end NetForge.Analysis
