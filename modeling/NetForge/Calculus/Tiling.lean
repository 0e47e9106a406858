import Mathlib.Order.Interval.Set.LinearOrder

/-! # Tilings of an interval

Spans laid end to end, each from its start up to the start of the next. They cover
the interval from the first start to the last stop, and no two of them overlap.
-/

namespace NetForge.Calculus

variable {α : Type*} [LinearOrder α]

/-- The spans lead from `a` to `b`, each of them forward and the next from where it stopped. -/
inductive Tiles : (a : α) → List (α × α) → (b : α) → Prop
  | nil {a : α} : Tiles a [] a
  | cons {a m b : α} {spans : List (α × α)} : a < m → Tiles m spans b → Tiles a ((a, m) :: spans) b

namespace Tiles

variable {a b : α} {spans : List (α × α)}

theorem le (h : Tiles a spans b) : a ≤ b := by
  induction h with
  | nil => exact le_rfl
  | cons hlt _ ih => exact hlt.le.trans ih

theorem le_start (h : Tiles a spans b) : ∀ span ∈ spans, a ≤ span.1 := by
  induction h with
  | nil => simp
  | cons hlt _ ih =>
      exact List.forall_mem_cons.mpr ⟨le_rfl, fun span hspan => hlt.le.trans (ih span hspan)⟩

/-- No gap: the spans hold every position of the interval, and no other. -/
theorem mem_iff (h : Tiles a spans b) (x : α) :
    x ∈ Set.Ico a b ↔ ∃ span ∈ spans, x ∈ Set.Ico span.1 span.2 := by
  induction h with
  | nil => simp
  | @cons a m b spans hlt hrest ih =>
      have hsplit : x ∈ Set.Ico a b ↔ x ∈ Set.Ico a m ∨ x ∈ Set.Ico m b := by
        rw [← Set.mem_union, Set.Ico_union_Ico_eq_Ico hlt.le hrest.le]
      rw [hsplit, ih]
      simp only [List.mem_cons, exists_eq_or_imp]

/-- No overlap: every span stops where a later one starts, or before. -/
theorem pairwise (h : Tiles a spans b) : spans.Pairwise fun s t => s.2 ≤ t.1 := by
  induction h with
  | nil => exact .nil
  | cons _ hrest ih => exact .cons hrest.le_start ih

end Tiles

end NetForge.Calculus
