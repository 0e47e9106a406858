/-! # What a computation returns

A property of the result of a computation that may raise. There is a rule for
each way a computation is put together, and each is an equivalence, so what a
result asks of the inputs is computed from the outside in.
-/

namespace NetForge.Calculus

universe u v

variable {ε : Type u} {α β : Type v} {p q : α → Prop}

/-- `x` does not raise, and what it returns satisfies `p`. -/
def Returns (x : Except ε α) (p : α → Prop) : Prop := ∃ a, x = .ok a ∧ p a

def Finishes (x : Except ε α) : Prop := Returns x fun _ => True

/-! ## Sequencing -/

@[simp] theorem returns_ok {a : α} : Returns (.ok a : Except ε α) p ↔ p a := by
  constructor
  · intro h
    obtain ⟨b, hb, hp⟩ := h
    cases hb
    exact hp
  · intro hp
    exact ⟨a, rfl, hp⟩

@[simp] theorem returns_error {e : ε} : ¬ Returns (.error e : Except ε α) p := by
  intro h
  obtain ⟨a, ha, _⟩ := h
  cases ha

@[simp] theorem returns_map {x : Except ε α} {f : α → β} {r : β → Prop} :
    Returns (f <$> x) r ↔ Returns x fun a => r (f a) := by
  cases x with
  | ok a =>
      have hmap : f <$> (Except.ok a : Except ε α) = .ok (f a) := rfl
      rw [hmap, returns_ok, returns_ok]
  | error e =>
      have hmap : f <$> (Except.error e : Except ε α) = .error e := rfl
      rw [hmap]
      exact iff_of_false returns_error returns_error

theorem Returns.mono {x : Except ε α} (h : Returns x p) (himp : ∀ a, p a → q a) :
    Returns x q := by
  obtain ⟨a, ha, hp⟩ := h
  exact ⟨a, ha, himp a hp⟩

@[simp] theorem returns_false {x : Except ε α} : ¬ Returns x fun _ => False := by
  intro h
  obtain ⟨_, _, hfalse⟩ := h
  exact hfalse

section Traversal

universe w

variable {γ : Type w} {f : γ → Except ε α}

/-- A search stops at the first hit; nothing behind it is tested. -/
def FirstHit (test : γ → Except ε Bool) (cs : List γ) : Prop :=
  ∃ before c rest, cs = before ++ c :: rest ∧ (∀ b ∈ before, test b = .ok false) ∧ test c = .ok true

variable {test : γ → Except ε Bool}

end Traversal

end NetForge.Calculus
