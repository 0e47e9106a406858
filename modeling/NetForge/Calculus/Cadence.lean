import Mathlib.Order.Lattice
import Mathlib.Data.List.Pairwise

/-! # Periodic work on a polled clock

A job that is due from some time on, polled at the readings of a clock: it runs at the
first reading at which it is due, and is due again one interval after that reading. Runs
are never closer than the interval, and no reading finds the job overdue.
-/

namespace NetForge.Calculus

variable {τ : Type} [LinearOrder τ] [Add τ]

/-- Nothing is known of the last run: due at once. -/
def dueAt (next : Option τ) (now : τ) : Prop := ∀ due, next = some due → due ≤ now

instance (next : Option τ) (now : τ) : Decidable (dueAt next now) :=
  match next with
  | none => isTrue fun _ h => nomatch h
  | some due =>
      decidable_of_iff (due ≤ now)
        ⟨fun h _ heq => Option.some.inj heq ▸ h, fun h => h due rfl⟩

def cadence (interval : τ) : Option τ → List τ → List τ
  | _, [] => []
  | next, now :: later =>
      if dueAt next now then now :: cadence interval (some (now + interval)) later
      else cadence interval next later

section

variable {interval : τ}

theorem cadence_cons_of_due {next : Option τ} {now : τ} (h : dueAt next now) (later : List τ) :
    cadence interval next (now :: later) = now :: cadence interval (some (now + interval)) later :=
  if_pos h

theorem cadence_cons_of_not_due {next : Option τ} {now : τ} (h : ¬ dueAt next now)
    (later : List τ) : cadence interval next (now :: later) = cadence interval next later :=
  if_neg h

theorem head?_cadence {next : Option τ} {times : List τ} {t : τ}
    (h : (cadence interval next times).head? = some t) : dueAt next t := by
  induction times with
  | nil => cases h
  | cons now later ih =>
      by_cases hdue : dueAt next now
      · rw [cadence_cons_of_due hdue, List.head?_cons, Option.some.injEq] at h
        exact h ▸ hdue
      · rw [cadence_cons_of_not_due hdue] at h
        exact ih h

theorem cadence_spaced (next : Option τ) (times : List τ) :
    (cadence interval next times).IsChain fun a b => a + interval ≤ b := by
  induction times generalizing next with
  | nil => exact .nil
  | cons now later ih =>
      by_cases hdue : dueAt next now
      · rw [cadence_cons_of_due hdue]
        have hrest := ih (some (now + interval))
        cases hcadence : cadence interval (some (now + interval)) later with
        | nil => exact .singleton now
        | cons t rest =>
            rw [hcadence] at hrest
            have hhead : (cadence interval (some (now + interval)) later).head? = some t := by
              rw [hcadence, List.head?_cons]
            exact List.isChain_cons_cons.mpr ⟨head?_cadence hhead _ rfl, hrest⟩
      · rw [cadence_cons_of_not_due hdue]
        exact ih next

/-- A reading without a run comes before the job is due, or within an interval of an
earlier run. -/
theorem cadence_prompt (interval : τ) (next : Option τ) {times : List τ}
    (hsorted : times.Pairwise (· ≤ ·)) {t : τ} (h : t ∈ times) :
    t ∈ cadence interval next times ∨ ¬ dueAt next t ∨
      ∃ run ∈ cadence interval next times, run ≤ t ∧ t < run + interval := by
  induction times generalizing next with
  | nil => exact absurd h List.not_mem_nil
  | cons now later ih =>
      obtain ⟨hfirst, hlater⟩ := List.pairwise_cons.mp hsorted
      by_cases hdue : dueAt next now
      · rw [cadence_cons_of_due hdue]
        rcases List.mem_cons.mp h with rfl | h
        · exact .inl List.mem_cons_self
        · rcases ih (some (now + interval)) hlater h with hrun | hearly | ⟨run, hrun, hwithin⟩
          · exact .inl (List.mem_cons_of_mem _ hrun)
          · refine .inr (.inr ⟨now, List.mem_cons_self, hfirst t h, ?_⟩)
            by_contra hlate
            exact hearly fun due heq => Option.some.inj heq ▸ not_lt.mp hlate
          · exact .inr (.inr ⟨run, List.mem_cons_of_mem _ hrun, hwithin⟩)
      · rw [cadence_cons_of_not_due hdue]
        rcases List.mem_cons.mp h with rfl | h
        · exact .inr (.inl hdue)
        · exact ih next hlater h

end

end NetForge.Calculus
