import NetForge.Calculus.Contract
import Mathlib.Logic.Function.Basic

/-! # Interleavings of programs

A configuration holds one program per thread, the calls made so far with the
thread that made each, and the shared state. A schedule is the list of threads
that take the next call; every interleaving at the granularity of single calls
is one.
-/

namespace NetForge.Calculus

variable {σ : Type} {I : Interface σ} {α ι : Type}

structure Config (ι : Type) (I : Interface σ) (α : Type) where
  thread : ι → Program I α
  /-- All calls so far, most recent first. -/
  events : List (ι × Event I)
  state : σ

namespace Config

def start (thread : ι → Program I α) (s : σ) : Config ι I α := ⟨thread, [], s⟩

variable [DecidableEq ι]

/-- What thread `i` itself has called and been answered, most recent first. -/
def logOf (i : ι) (events : List (ι × Event I)) : List (Event I) :=
  events.filterMap fun e => if e.1 = i then some e.2 else none

def log (cfg : Config ι I α) (i : ι) : List (Event I) := logOf i cfg.events

@[simp] theorem logOf_cons_self (i : ι) (e : Event I) (es : List (ι × Event I)) :
    logOf i ((i, e) :: es) = e :: logOf i es := by simp [logOf]

theorem logOf_cons_of_ne {i j : ι} (h : j ≠ i) (e : Event I) (es : List (ι × Event I)) :
    logOf j ((i, e) :: es) = logOf j es := by
  have hij : i ≠ j := fun he => h he.symm
  simp [logOf, hij]

/-- Thread `i` makes its next call; a finished thread makes none. -/
def step (cfg : Config ι I α) (i : ι) : Config ι I α :=
  match cfg.thread i with
  | .done _ => cfg
  | .call c next =>
      { thread := Function.update cfg.thread i (next (I.perform c cfg.state).1)
        events := (i, ⟨c, (I.perform c cfg.state).1⟩) :: cfg.events
        state := (I.perform c cfg.state).2 }

theorem step_of_done {cfg : Config ι I α} {i : ι} {a : α} (h : cfg.thread i = .done a) :
    cfg.step i = cfg := by
  simp only [step, h]

theorem step_of_call {cfg : Config ι I α} {i : ι} {c : I.Call} {next : I.Reply c → Program I α}
    (h : cfg.thread i = .call c next) :
    cfg.step i =
      { thread := Function.update cfg.thread i (next (I.perform c cfg.state).1)
        events := (i, ⟨c, (I.perform c cfg.state).1⟩) :: cfg.events
        state := (I.perform c cfg.state).2 } := by
  simp only [step, h]

def run (cfg : Config ι I α) : List ι → Config ι I α
  | [] => cfg
  | i :: is => (cfg.step i).run is

@[simp] theorem run_nil (cfg : Config ι I α) : cfg.run [] = cfg := rfl

@[simp] theorem run_cons (cfg : Config ι I α) (i : ι) (is : List ι) :
    cfg.run (i :: is) = (cfg.step i).run is := rfl

theorem run_append (cfg : Config ι I α) (is js : List ι) :
    cfg.run (is ++ js) = (cfg.run is).run js := by
  induction is generalizing cfg with
  | nil => rfl
  | cons i is ih => exact ih (cfg.step i)

def Admitted (C : Config ι I α → ι → Prop) : Config ι I α → List ι → Prop
  | _, [] => True
  | cfg, i :: is => C cfg i ∧ Admitted C (cfg.step i) is

instance instDecidableAdmitted (C : Config ι I α → ι → Prop) [∀ cfg i, Decidable (C cfg i)] :
    ∀ (cfg : Config ι I α) (is : List ι), Decidable (Admitted C cfg is)
  | _, [] => inferInstanceAs (Decidable True)
  | cfg, i :: is =>
      have : Decidable (Admitted C (cfg.step i) is) := instDecidableAdmitted C (cfg.step i) is
      inferInstanceAs (Decidable (_ ∧ _))

theorem admitted_append {C : Config ι I α → ι → Prop} {cfg : Config ι I α} {is js : List ι} :
    Admitted C cfg (is ++ js) ↔ Admitted C cfg is ∧ Admitted C (cfg.run is) js := by
  induction is generalizing cfg with
  | nil => simp [Admitted]
  | cons i is ih => simp [Admitted, ih, and_assoc]

/-- Invariant rule: what every admitted step preserves holds after every
admitted schedule. -/
theorem Admitted.invariant {C : Config ι I α → ι → Prop} {J : Config ι I α → Prop}
    (keep : ∀ cfg i, J cfg → C cfg i → J (cfg.step i)) {cfg : Config ι I α} {is : List ι}
    (h : Admitted C cfg is) (h₀ : J cfg) : J (cfg.run is) := by
  induction is generalizing cfg with
  | nil => exact h₀
  | cons i is ih => exact ih h.2 (keep cfg i h₀ h.1)

/-- The admission condition of a contract, read at the thread about to step. -/
def meets (K : Contract I) (cfg : Config ι I α) (i : ι) : Prop :=
  ∀ c ∈ (cfg.thread i).next?, K.admits (cfg.log i) c cfg.state

instance (K : Contract I) [∀ log c s, Decidable (K.admits log c s)] (cfg : Config ι I α) (i : ι) :
    Decidable (meets K cfg i) :=
  inferInstanceAs (Decidable (∀ c ∈ (cfg.thread i).next?, K.admits (cfg.log i) c cfg.state))

/-- All threads keep their contracts, each with its own postcondition. -/
def AllSafe (K : Contract I) (Q : ι → List (Event I) → α → σ → Prop) (cfg : Config ι I α) : Prop :=
  ∀ i, (cfg.thread i).Safe K (Q i) (cfg.log i) cfg.state

variable {K : Contract I} {Q : ι → List (Event I) → α → σ → Prop}

/-- One step: the stepping thread meets the guarantee, which is interference the
other threads rely on. -/
theorem AllSafe.step {cfg : Config ι I α} (h : AllSafe K Q cfg) {i : ι}
    (sub : ∀ s t, K.guarantee s t → K.rely s t) (hc : meets K cfg i) :
    AllSafe K Q (cfg.step i) ∧ K.rely cfg.state (cfg.step i).state := by
  cases hi : cfg.thread i with
  | done a =>
      rw [step_of_done hi]
      exact ⟨h, K.rely_refl _⟩
  | call c next =>
      have mine := h i
      rw [hi] at mine
      obtain ⟨hg, hn⟩ := mine cfg.state (K.rely_refl _) (hc c (by rw [hi]; rfl))
      have hr := sub _ _ hg
      rw [step_of_call hi]
      refine ⟨?_, hr⟩
      intro j
      by_cases hj : j = i
      · subst hj
        simpa only [log, Function.update_self, logOf_cons_self] using hn
      · simpa only [log, Function.update_of_ne hj, logOf_cons_of_ne hj] using (h j).stable hr

theorem AllSafe.run {cfg : Config ι I α} {is : List ι} (h : AllSafe K Q cfg)
    (sub : ∀ s t, K.guarantee s t → K.rely s t) (hc : Admitted (meets K) cfg is) :
    AllSafe K Q (cfg.run is) ∧ K.rely cfg.state (cfg.run is).state := by
  induction is generalizing cfg with
  | nil => exact ⟨h, K.rely_refl _⟩
  | cons i is ih =>
      obtain ⟨hs, hr⟩ := h.step sub hc.1
      obtain ⟨hs', hr'⟩ := ih hs hc.2
      exact ⟨hs', K.rely_trans hr hr'⟩

theorem AllSafe.post {cfg : Config ι I α} (h : AllSafe K Q cfg) {i : ι} {a : α}
    (hi : cfg.thread i = .done a) : Q i (cfg.log i) a cfg.state := by
  have mine := h i
  rw [hi] at mine
  exact mine cfg.state (K.rely_refl _)

end Config

end NetForge.Calculus
