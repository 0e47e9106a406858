import Mathlib.Data.List.Forall2
import Mathlib.Data.List.Sort

/-! # Lists that agree position by position

A stable sort, a selection and a search treat two lists alike whose entries agree
position by position on everything these read.
-/

namespace NetForge.Calculus

variable {α β : Type} {R : α → β → Prop} {r : α → α → Prop} {s : β → β → Prop}
  [DecidableRel r] [DecidableRel s]

/-- The two orders compare related entries in the same way. -/
def SameOrder (R : α → β → Prop) (r : α → α → Prop) (s : β → β → Prop) : Prop :=
  ∀ a b c d, R a b → R c d → (r a c ↔ s b d)

theorem forall₂_orderedInsert (hrs : SameOrder R r s) {a : α} {b : β} (hab : R a b)
    {xs : List α} {ys : List β} (h : List.Forall₂ R xs ys) :
    List.Forall₂ R (xs.orderedInsert r a) (ys.orderedInsert s b) := by
  induction h with
  | nil => exact .cons hab .nil
  | @cons c d xs ys hcd hrest ih =>
      have horder : r a c ↔ s b d := hrs a b c d hab hcd
      by_cases hac : r a c
      · rw [List.orderedInsert_cons_of_le r xs hac,
          List.orderedInsert_cons_of_le s ys (horder.mp hac)]
        exact .cons hab (.cons hcd hrest)
      · have hbd : ¬ s b d := fun hbd => hac (horder.mpr hbd)
        rw [List.orderedInsert_of_not_le r xs hac, List.orderedInsert_of_not_le s ys hbd]
        exact .cons hcd ih

theorem forall₂_insertionSort (hrs : SameOrder R r s) {xs : List α} {ys : List β}
    (h : List.Forall₂ R xs ys) : List.Forall₂ R (xs.insertionSort r) (ys.insertionSort s) := by
  induction h with
  | nil => exact .nil
  | @cons a b xs ys hab hrest ih =>
      rw [List.insertionSort_cons, List.insertionSort_cons]
      exact forall₂_orderedInsert hrs hab ih

variable {p : α → Bool} {q : β → Bool}

theorem forall₂_filter (hpq : ∀ a b, R a b → p a = q b) {xs : List α} {ys : List β}
    (h : List.Forall₂ R xs ys) : List.Forall₂ R (xs.filter p) (ys.filter q) := by
  apply List.rel_filter _ h
  intro a b hab
  show p a = true ↔ q b = true
  rw [hpq a b hab]

theorem rel_find? (hpq : ∀ a b, R a b → p a = q b) {xs : List α} {ys : List β}
    (h : List.Forall₂ R xs ys) : Option.Rel R (xs.find? p) (ys.find? q) := by
  induction h with
  | nil => exact .none
  | @cons a b xs ys hab hrest ih =>
      rw [List.find?_cons, List.find?_cons, ← hpq a b hab]
      cases p a with
      | true => exact .some hab
      | false => exact ih

theorem rel_filter_option (hpq : ∀ a b, R a b → p a = q b) {x : Option α} {y : Option β}
    (h : Option.Rel R x y) : Option.Rel R (x.filter p) (y.filter q) := by
  cases h with
  | none => exact .none
  | @some a b hab =>
      rw [Option.filter_some, Option.filter_some, ← hpq a b hab]
      cases p a with
      | true => exact .some hab
      | false => exact .none

theorem forall₂_toList {x : Option α} {y : Option β} (h : Option.Rel R x y) :
    List.Forall₂ R x.toList y.toList := by
  cases h with
  | none => exact .nil
  | some hab => exact .cons hab .nil

/-- What a map reads of both lists alike, it returns alike. -/
theorem map_eq_of_forall₂ {γ : Type} {f : α → γ} {g : β → γ} (hfg : ∀ a b, R a b → f a = g b)
    {xs : List α} {ys : List β} (h : List.Forall₂ R xs ys) : xs.map f = ys.map g := by
  induction h with
  | nil => rfl
  | @cons a b xs ys hab hrest ih => rw [List.map_cons, List.map_cons, hfg a b hab, ih]

end NetForge.Calculus
