import Mathlib.Data.Set.Basic

/-! # Latches

A set of keys that a run of events switches on and off. Whether a key is on at the end
is decided by the last event about it; an event that does both leaves its keys on.
-/

namespace NetForge.Calculus

structure Switch (κ : Type) where
  on : Set κ
  off : Set κ

namespace Switch

variable {κ : Type}

def idle : Switch κ := ⟨∅, ∅⟩

def apply (e : Switch κ) (keys : Set κ) : Set κ := {k | k ∈ e.on ∨ (k ∈ keys ∧ k ∉ e.off)}

def run (keys : Set κ) (events : List (Switch κ)) : Set κ :=
  events.foldl (fun keys e => e.apply keys) keys

@[simp] theorem run_nil (keys : Set κ) : run keys [] = keys := rfl

@[simp] theorem run_cons (keys : Set κ) (e : Switch κ) (events : List (Switch κ)) :
    run keys (e :: events) = run (e.apply keys) events := rfl

theorem run_append (keys : Set κ) (events later : List (Switch κ)) :
    run keys (events ++ later) = run (run keys events) later := List.foldl_append

@[simp] theorem apply_idle (keys : Set κ) : idle.apply keys = keys := by
  ext k
  simp [apply, idle]

def LastOn (k : κ) (events : List (Switch κ)) : Prop :=
  ∃ before e after, events = before ++ e :: after ∧ k ∈ e.on ∧ ∀ f ∈ after, k ∉ f.off

theorem lastOn_cons {k : κ} {e : Switch κ} {events : List (Switch κ)} :
    LastOn k (e :: events) ↔ LastOn k events ∨ (k ∈ e.on ∧ ∀ f ∈ events, k ∉ f.off) := by
  constructor
  · rintro ⟨before, d, after, heq, hon, hoff⟩
    cases before with
    | nil =>
        obtain ⟨rfl, rfl⟩ := List.cons.inj heq
        exact .inr ⟨hon, hoff⟩
    | cons b before =>
        obtain ⟨rfl, rfl⟩ := List.cons.inj heq
        exact .inl ⟨before, d, after, rfl, hon, hoff⟩
  · rintro (⟨before, d, after, rfl, hon, hoff⟩ | ⟨hon, hoff⟩)
    · exact ⟨e :: before, d, after, rfl, hon, hoff⟩
    · exact ⟨[], e, events, rfl, hon, hoff⟩

/-- What is on after a run: what it switched on last, and what it never switched off. -/
theorem mem_run {k : κ} {keys : Set κ} {events : List (Switch κ)} :
    k ∈ run keys events ↔ LastOn k events ∨ (k ∈ keys ∧ ∀ f ∈ events, k ∉ f.off) := by
  induction events generalizing keys with
  | nil => simp [LastOn]
  | cons e events ih =>
      rw [run_cons, ih, lastOn_cons]
      constructor
      · rintro (hlast | ⟨hon | ⟨hk, hoff⟩, hrest⟩)
        · exact .inl (.inl hlast)
        · exact .inl (.inr ⟨hon, hrest⟩)
        · exact .inr ⟨hk, List.forall_mem_cons.mpr ⟨hoff, hrest⟩⟩
      · rintro ((hlast | ⟨hon, hrest⟩) | ⟨hk, hoff⟩)
        · exact .inl hlast
        · exact .inr ⟨.inl hon, hrest⟩
        · obtain ⟨hhead, hrest⟩ := List.forall_mem_cons.mp hoff
          exact .inr ⟨.inr ⟨hk, hhead⟩, hrest⟩

theorem mem_run_empty {k : κ} {events : List (Switch κ)} : k ∈ run ∅ events ↔ LastOn k events := by
  simp [mem_run]

end Switch

end NetForge.Calculus
