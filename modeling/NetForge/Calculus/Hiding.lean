import Mathlib.Data.List.Basic
import Mathlib.Logic.Relation
import Mathlib.Order.WellFounded

/-! # Items that hide one another

Every item has a key and a list of keys it hides. One pass removes all items
whose key some item hides, hidden items included. If hiding descends in a rank,
every removed item is reached from a remaining one, and what holds of all hiding
items is lost by no removal.
-/

namespace NetForge.Calculus

variable {α κ : Type} [DecidableEq κ] (key : α → κ) (hides : α → List κ)

def Hides (items : List α) (a b : α) : Prop := a ∈ items ∧ b ∈ items ∧ key b ∈ hides a

def visible (items : List α) : List α :=
  items.filter fun b => key b ∉ items.flatMap hides

variable {key hides} {items : List α}

theorem mem_visible {b : α} :
    b ∈ visible key hides items ↔ b ∈ items ∧ ∀ a ∈ items, key b ∉ hides a := by
  simp [visible]

theorem exists_hides_of_hidden {b : α} (hb : b ∈ items) (hidden : b ∉ visible key hides items) :
    ∃ a, Hides key hides items a b := by
  by_contra hnone
  have hall : ∀ a ∈ items, key b ∉ hides a := by
    intro a ha hkey
    exact hnone ⟨a, ha, hb, hkey⟩
  exact hidden (mem_visible.mpr ⟨hb, hall⟩)

section Ranked

variable {rank : κ → ℕ} (descends : ∀ a ∈ items, ∀ k ∈ hides a, rank (key a) < rank k)

include descends

/-- By induction on the rank: what hides a removed item remains, or is reached
itself. -/
theorem reached_from_visible {b : α} (hb : b ∈ items)
    (hidden : b ∉ visible key hides items) :
    ∃ a ∈ visible key hides items, Relation.TransGen (Hides key hides items) a b := by
  induction hr : rank (key b) using Nat.strong_induction_on generalizing b with
  | h n ih =>
    obtain ⟨a, hab⟩ := exists_hides_of_hidden hb hidden
    by_cases ha : a ∈ visible key hides items
    · exact ⟨a, ha, .single hab⟩
    · have hlt : rank (key a) < n := hr ▸ descends a hab.1 (key b) hab.2.2
      obtain ⟨top, htop, hreach⟩ := ih (rank (key a)) hlt hab.1 ha rfl
      exact ⟨top, htop, hreach.tail hab⟩

/-- A property that all hiding items have is seen among the remaining items if it
is seen at all. -/
theorem exists_visible_iff {P : α → Prop} (hP : ∀ a ∈ items, hides a ≠ [] → P a) :
    (∃ a ∈ visible key hides items, P a) ↔ ∃ a ∈ items, P a := by
  constructor
  · rintro ⟨a, ha, hPa⟩
    exact ⟨a, (mem_visible.mp ha).1, hPa⟩
  · rintro ⟨b, hb, hPb⟩
    by_cases hv : b ∈ visible key hides items
    · exact ⟨b, hv, hPb⟩
    · obtain ⟨a, ha, hreach⟩ := reached_from_visible descends hb hv
      have hhides : hides a ≠ [] := by
        obtain ⟨c, hac, -⟩ := Relation.TransGen.head'_iff.mp hreach
        exact List.ne_nil_of_mem hac.2.2
      exact ⟨a, ha, hP a (mem_visible.mp ha).1 hhides⟩

end Ranked

end NetForge.Calculus
