import NetForge.Calculus.Interleaving

/-! # Specifications of a client's own trace

What a program calls, and what its log looks like when it returns, as far as that
depends on its own log alone: such a specification holds in any environment, so
it holds of a thread at every point of every interleaving.
-/

namespace NetForge.Calculus

variable {σ : Type} {I : Interface σ} {α β ι : Type}

/-- `R` holds of every element of a trace, most recent first, and what came before it. -/
def Throughout {ε : Type} (R : List ε → ε → Prop) : List ε → Prop
  | [] => True
  | ev :: older => R older ev ∧ Throughout R older

theorem Throughout.earlier {ε : Type} {R : List ε → ε → Prop} {newer older : List ε}
    (h : Throughout R (newer ++ older)) : Throughout R older := by
  induction newer with
  | nil => exact h
  | cons ev newer ih => exact ih h.2

theorem Throughout.at {ε : Type} {R : List ε → ε → Prop} {newer older : List ε} {ev : ε}
    (h : Throughout R (newer ++ ev :: older)) : R older ev := h.earlier.1

namespace Program

/-- Every call is one that `P` allows after the log so far, and the final log
satisfies `Q`, whatever the replies are. -/
def Follows (P : List (Event I) → I.Call → Prop) (Q : List (Event I) → α → Prop) :
    Program I α → List (Event I) → Prop
  | done a, log => Q log a
  | call c next, log => P log c ∧ ∀ r, (next r).Follows P Q (⟨c, r⟩ :: log)

variable {P : List (Event I) → I.Call → Prop}

theorem Follows.mono {Q Q' : List (Event I) → α → Prop} {p : Program I α}
    {log : List (Event I)} (h : p.Follows P Q log) (imp : ∀ log a, Q log a → Q' log a) :
    p.Follows P Q' log := by
  induction p generalizing log with
  | done a => exact imp log a h
  | call c next ih => exact ⟨h.1, fun r => ih r (h.2 r)⟩

theorem Follows.free (p : Program I α) (log : List (Event I)) :
    p.Follows (fun _ _ => True) (fun _ _ => True) log := by
  induction p generalizing log with
  | done a => trivial
  | call c next ih => exact ⟨trivial, fun r => ih r _⟩

theorem Follows.bind {Q : List (Event I) → β → Prop} {p : Program I α} {f : α → Program I β}
    {log : List (Event I)} (h : p.Follows P (fun log' a => (f a).Follows P Q log') log) :
    (p >>= f).Follows P Q log := by
  induction p generalizing log with
  | done a => exact h
  | call c next ih => exact ⟨h.1, fun r => ih r (h.2 r)⟩

theorem Follows.fold {body : β → α → Program I β} {Q : List (Event I) → β → Prop}
    (J : List (Event I) → β → List α → Prop)
    (step : ∀ log acc x xs, J log acc (x :: xs) →
      (body acc x).Follows P (fun log' acc' => J log' acc' xs) log)
    (last : ∀ log acc, J log acc [] → Q log acc) {xs : List α} {acc : β} {log : List (Event I)}
    (h : J log acc xs) : (Program.fold body acc xs).Follows P Q log := by
  induction xs generalizing acc log with
  | nil => exact last log acc h
  | cons x xs ih => exact Follows.bind ((step log acc x xs h).mono fun _ _ hj => ih hj)

/-- A program whose calls all lie in a class extends its log within that class. -/
theorem Calls.follows {R : I.Call → Prop} (allowed : ∀ log c, R c → P log c) {p : Program I α}
    (h : p.Calls R) (log : List (Event I)) :
    p.Follows P (fun log' _ => ∃ added, log' = added ++ log ∧ ∀ ev ∈ added, R ev.call) log := by
  induction p generalizing log with
  | done a => exact ⟨[], rfl, by simp⟩
  | call c next ih =>
      refine ⟨allowed log c h.1, fun r => (ih r (h.2 r) _).mono ?_⟩
      rintro log' a ⟨added, rfl, hall⟩
      refine ⟨added ++ [⟨c, r⟩], by simp, fun ev hev => ?_⟩
      rcases List.mem_append.mp hev with hev | hev
      · exact hall ev hev
      · rw [List.mem_singleton.mp hev]
        exact h.1

end Program

namespace Config

variable [DecidableEq ι] {P : ι → List (Event I) → I.Call → Prop}
  {Q : ι → List (Event I) → α → Prop}

/-- Every thread still follows its specification from its log on. -/
def AllFollow (P : ι → List (Event I) → I.Call → Prop) (Q : ι → List (Event I) → α → Prop)
    (cfg : Config ι I α) : Prop :=
  ∀ i, (cfg.thread i).Follows (P i) (Q i) (cfg.log i)

theorem AllFollow.step {cfg : Config ι I α} (h : AllFollow P Q cfg) (i : ι) :
    AllFollow P Q (cfg.step i) := by
  cases hi : cfg.thread i with
  | done a =>
      rw [step_of_done hi]
      exact h
  | call c next =>
      have mine := h i
      rw [hi] at mine
      rw [step_of_call hi]
      intro j
      by_cases hj : j = i
      · subst hj
        simpa only [log, Function.update_self, logOf_cons_self] using mine.2 _
      · simpa only [log, Function.update_of_ne hj, logOf_cons_of_ne hj] using h j

theorem AllFollow.at_call {cfg : Config ι I α} (h : AllFollow P Q cfg) {i : ι} {c : I.Call}
    {next : I.Reply c → Program I α} (hi : cfg.thread i = .call c next) : P i (cfg.log i) c := by
  have mine := h i
  rw [hi] at mine
  exact mine.1

theorem AllFollow.at_done {cfg : Config ι I α} (h : AllFollow P Q cfg) {i : ι} {a : α}
    (hi : cfg.thread i = .done a) : Q i (cfg.log i) a := by
  have mine := h i
  rw [hi] at mine
  exact mine

/-- What the threads have called so far is what their specifications allow. -/
def AllObey (P : ι → List (Event I) → I.Call → Prop) (cfg : Config ι I α) : Prop :=
  ∀ i, Throughout (fun log ev => P i log ev.call) (cfg.log i)

theorem AllObey.step {cfg : Config ι I α} (h : AllObey P cfg) (follows : AllFollow P Q cfg)
    (i : ι) : AllObey P (cfg.step i) := by
  cases hi : cfg.thread i with
  | done a =>
      rw [step_of_done hi]
      exact h
  | call c next =>
      have allowed := follows.at_call hi
      rw [step_of_call hi]
      intro j
      by_cases hj : j = i
      · subst hj
        simpa only [log, logOf_cons_self] using ⟨allowed, h j⟩
      · simpa only [log, logOf_cons_of_ne hj] using h j

/-- A thread's own events stand in its log in the order of the trace. -/
theorem mem_logOf {i : ι} {events : List (ι × Event I)} {ev : Event I} :
    ev ∈ logOf i events ↔ (i, ev) ∈ events := by
  simp only [logOf, List.mem_filterMap]
  constructor
  · rintro ⟨⟨j, e⟩, hmem, he⟩
    by_cases hj : j = i
    · subst hj
      simp only [if_true, Option.some.injEq] at he
      exact he ▸ hmem
    · simp [hj] at he
  · intro hmem
    exact ⟨(i, ev), hmem, by simp⟩

@[simp] theorem logOf_append (i : ι) (newer older : List (ι × Event I)) :
    logOf i (newer ++ older) = logOf i newer ++ logOf i older := by
  simp [logOf]

end Config

end NetForge.Calculus
