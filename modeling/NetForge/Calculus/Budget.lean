import NetForge.Calculus.Interleaving

/-! # Calls drawn from a budget

The calls of a program that fall into a class are the calls of a given list, in its
order and each at most once: the list is a budget on which the program draws. Beside any
other threads, what a thread has called is the part of its budget that it has drawn.
-/

namespace NetForge.Calculus

variable {σ : Type} {I : Interface σ} {α β ι : Type} {sel : I.Call → Bool}

namespace Program

/-- The calls in the class are drawn from the front of the budget, and `Q` holds of what
is left of it when the program returns. -/
def Draws (sel : I.Call → Bool) (Q : α → List I.Call → Prop) :
    Program I α → List I.Call → Prop
  | done a, budget => Q a budget
  | call c next, budget =>
      (sel c = false ∧ ∀ r, (next r).Draws sel Q budget) ∨
        sel c = true ∧ ∃ rest, budget = c :: rest ∧ ∀ r, (next r).Draws sel Q rest

variable {Q : α → List I.Call → Prop} {budget : List I.Call}

theorem Draws.mono {Q' : α → List I.Call → Prop} {p : Program I α} (h : p.Draws sel Q budget)
    (imp : ∀ a rest, Q a rest → Q' a rest) : p.Draws sel Q' budget := by
  induction p generalizing budget with
  | done a => exact imp a budget h
  | call c next ih =>
      rcases h with ⟨hsel, hnext⟩ | ⟨hsel, rest, hbudget, hnext⟩
      · exact .inl ⟨hsel, fun r => ih r (hnext r)⟩
      · exact .inr ⟨hsel, rest, hbudget, fun r => ih r (hnext r)⟩

theorem Draws.bind {Q : β → List I.Call → Prop} {p : Program I α} {f : α → Program I β}
    (h : p.Draws sel (fun a rest => (f a).Draws sel Q rest) budget) :
    (p >>= f).Draws sel Q budget := by
  induction p generalizing budget with
  | done a => exact h
  | call c next ih =>
      rcases h with ⟨hsel, hnext⟩ | ⟨hsel, rest, hbudget, hnext⟩
      · exact .inl ⟨hsel, fun r => ih r (hnext r)⟩
      · exact .inr ⟨hsel, rest, hbudget, fun r => ih r (hnext r)⟩

theorem Draws.free {c : I.Call} {f : I.Reply c → Program I α} (hsel : sel c = false)
    (h : ∀ r, (f r).Draws sel Q budget) : (request c >>= f).Draws sel Q budget :=
  .inl ⟨hsel, h⟩

/-- A call of the class is the next of the budget. -/
theorem Draws.draw {c : I.Call} {f : I.Reply c → Program I α} (hsel : sel c = true)
    (h : ∀ r, (f r).Draws sel Q budget) : (request c >>= f).Draws sel Q (c :: budget) :=
  .inr ⟨hsel, budget, rfl, h⟩

theorem Draws.of_calls {p : Program I α} (h : p.Calls fun c => sel c = false)
    (hQ : ∀ a, Q a budget) : p.Draws sel Q budget := by
  induction p with
  | done a => exact hQ a
  | call c next ih => exact .inl ⟨h.1, fun r => ih r (h.2 r)⟩

end Program

namespace Config

/-- The calls of the class in a log, the first one first. -/
def drawn (sel : I.Call → Bool) (log : List (Event I)) : List I.Call :=
  (log.reverse.map (·.call)).filter sel

theorem drawn_cons_of_free {ev : Event I} (h : sel ev.call = false) (log : List (Event I)) :
    drawn sel (ev :: log) = drawn sel log := by
  simp [drawn, h]

theorem drawn_cons_of_sel {ev : Event I} (h : sel ev.call = true) (log : List (Event I)) :
    drawn sel (ev :: log) = drawn sel log ++ [ev.call] := by
  simp [drawn, h]

variable [DecidableEq ι] {Q : ι → α → List I.Call → Prop} {budget : ι → List I.Call}

/-- What a thread has called and what it still draws make up its budget. -/
def AllDraw (sel : I.Call → Bool) (Q : ι → α → List I.Call → Prop) (budget : ι → List I.Call)
    (cfg : Config ι I α) : Prop :=
  ∀ i, ∃ rest, drawn sel (cfg.log i) ++ rest = budget i ∧ (cfg.thread i).Draws sel (Q i) rest

theorem AllDraw.start {thread : ι → Program I α} {s : σ}
    (h : ∀ i, (thread i).Draws sel (Q i) (budget i)) :
    AllDraw sel Q budget (Config.start thread s) :=
  fun i => ⟨budget i, rfl, h i⟩

theorem AllDraw.step {cfg : Config ι I α} (h : AllDraw sel Q budget cfg) (i : ι) :
    AllDraw sel Q budget (cfg.step i) := by
  cases hi : cfg.thread i with
  | done a =>
      rw [step_of_done hi]
      exact h
  | call c next =>
      rw [step_of_call hi]
      intro j
      by_cases hj : j = i
      · subst hj
        obtain ⟨rest, hbudget, hdraws⟩ := h j
        rw [hi] at hdraws
        simp only [log, Function.update_self, logOf_cons_self]
        rcases hdraws with ⟨hsel, hnext⟩ | ⟨hsel, rest', rfl, hnext⟩
        · rw [drawn_cons_of_free hsel]
          exact ⟨rest, hbudget, hnext _⟩
        · rw [drawn_cons_of_sel hsel]
          exact ⟨rest', by rw [List.append_assoc]; exact hbudget, hnext _⟩
      · simpa only [log, Function.update_of_ne hj, logOf_cons_of_ne hj] using h j

theorem AllDraw.run {cfg : Config ι I α} (h : AllDraw sel Q budget cfg) (is : List ι) :
    AllDraw sel Q budget (cfg.run is) := by
  induction is generalizing cfg with
  | nil => exact h
  | cons i is ih => exact ih (h.step i)

theorem AllDraw.drawn_prefix {cfg : Config ι I α} (h : AllDraw sel Q budget cfg) (i : ι) :
    drawn sel (cfg.log i) <+: budget i := by
  obtain ⟨rest, hbudget, -⟩ := h i
  exact ⟨rest, hbudget⟩

theorem AllDraw.at_done {cfg : Config ι I α} (h : AllDraw sel Q budget cfg) {i : ι} {a : α}
    (hi : cfg.thread i = .done a) :
    ∃ rest, drawn sel (cfg.log i) ++ rest = budget i ∧ Q i a rest := by
  obtain ⟨rest, hbudget, hdraws⟩ := h i
  rw [hi] at hdraws
  exact ⟨rest, hbudget, hdraws⟩

end Config

end NetForge.Calculus
