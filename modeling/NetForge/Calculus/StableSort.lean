import Mathlib.Data.List.Sort

/-! # The first of its kind in a stable sort

Stable sorting commutes with selecting the items of a kind. The first item of a
kind is therefore a least one of it, and which least one is decided by the order
before sorting alone.
-/

namespace NetForge.Calculus

variable {α : Type} {r : α → α → Prop} [DecidableRel r]

theorem orderedInsert_of_least {a : α} {xs : List α} (h : ∀ x ∈ xs, r a x) :
    xs.orderedInsert r a = a :: xs := by
  cases xs with
  | nil => rfl
  | cons x xs => exact List.orderedInsert_cons_of_le r xs (h x List.mem_cons_self)

theorem filter_orderedInsert [IsTrans α r] (p : α → Bool) (a : α) {xs : List α}
    (sorted : xs.Pairwise r) :
    (xs.orderedInsert r a).filter p =
      if p a then (xs.filter p).orderedInsert r a else xs.filter p := by
  induction xs with
  | nil => by_cases ha : p a = true <;> simp [ha]
  | cons x xs ih =>
      obtain ⟨hx, hxs⟩ := List.pairwise_cons.mp sorted
      by_cases hax : r a x
      · rw [List.orderedInsert_cons_of_le r xs hax, List.filter_cons]
        have hleast : ∀ y ∈ (x :: xs).filter p, r a y := by
          intro y hy
          rcases List.mem_cons.mp (List.mem_of_mem_filter hy) with rfl | hy
          · exact hax
          · exact trans_of r hax (hx y hy)
        by_cases ha : p a = true
        · rw [if_pos ha, if_pos ha, orderedInsert_of_least hleast]
        · rw [if_neg ha, if_neg ha]
      · rw [List.orderedInsert_of_not_le r xs hax, List.filter_cons, ih hxs]
        by_cases hpx : p x = true
        · by_cases ha : p a = true
          · simp only [hpx, ha, if_true, List.filter_cons]
            rw [List.orderedInsert_of_not_le r _ hax]
          · simp [hpx, ha]
        · by_cases ha : p a = true <;> simp [hpx, ha]

variable [IsTrans α r] [Std.Total r]

theorem filter_insertionSort (p : α → Bool) (xs : List α) :
    (xs.insertionSort r).filter p = (xs.filter p).insertionSort r := by
  induction xs with
  | nil => rfl
  | cons x xs ih =>
      rw [List.insertionSort_cons,
        filter_orderedInsert p x (List.pairwise_insertionSort r xs), ih, List.filter_cons]
      by_cases hx : p x = true
      · rw [if_pos hx, if_pos hx, List.insertionSort_cons]
      · rw [if_neg hx, if_neg hx]

theorem find?_insertionSort (p : α → Bool) (xs : List α) :
    (xs.insertionSort r).find? p = ((xs.filter p).insertionSort r).head? := by
  rw [← filter_insertionSort, List.head?_filter]

theorem least_of_find? {p : α → Bool} {xs : List α} {x : α}
    (h : (xs.insertionSort r).find? p = some x) :
    x ∈ xs ∧ p x = true ∧ ∀ y ∈ xs, p y = true → r x y := by
  rw [find?_insertionSort] at h
  have hmem : x ∈ xs.filter p := (List.mem_insertionSort r).mp (List.mem_of_head? h)
  obtain ⟨hx, hp⟩ := List.mem_filter.mp hmem
  refine ⟨hx, hp, fun y hy hpy => ?_⟩
  have hy : y ∈ (xs.filter p).insertionSort r :=
    (List.mem_insertionSort r).mpr (List.mem_filter.mpr ⟨hy, hpy⟩)
  have hsorted := List.pairwise_insertionSort r (xs.filter p)
  cases hs : (xs.filter p).insertionSort r with
  | nil =>
      rw [hs] at hy
      exact absurd hy List.not_mem_nil
  | cons z zs =>
      rw [hs] at h hy hsorted
      cases h
      rcases List.mem_cons.mp hy with rfl | hy
      · exact refl_of r y
      · exact (List.pairwise_cons.mp hsorted).1 y hy

/-- Where no two items tie, the first of a kind is its one least item. -/
theorem find?_insertionSort_eq_some [Std.Antisymm r] {p : α → Bool} {xs : List α} {x : α} :
    (xs.insertionSort r).find? p = some x ↔
      x ∈ xs ∧ p x = true ∧ ∀ y ∈ xs, p y = true → r x y := by
  constructor
  · exact least_of_find?
  · rintro ⟨hx, hp, hleast⟩
    cases h : (xs.insertionSort r).find? p with
    | none =>
        have hnot := List.find?_eq_none.mp h x ((List.mem_insertionSort r).mpr hx)
        exact absurd hp hnot
    | some z =>
        obtain ⟨hz, hpz, hzleast⟩ := least_of_find? h
        have hzx : r z x := hzleast x hx hp
        have hxz : r x z := hleast z hz hpz
        rw [antisymm_of r hzx hxz]

/-- A least item of a kind that comes before the others of its kind stays first. -/
theorem find?_of_least {p : α → Bool} {xs rest : List α} {x : α} (hfirst : xs.filter p = x :: rest)
    (hleast : ∀ y ∈ xs, p y = true → r x y) : (xs.insertionSort r).find? p = some x := by
  have hrest : ∀ y ∈ rest.insertionSort r, r x y := by
    intro y hy
    have hmem : y ∈ xs.filter p := by
      rw [hfirst]
      exact List.mem_cons_of_mem x ((List.mem_insertionSort r).mp hy)
    exact hleast y (List.mem_filter.mp hmem).1 (List.mem_filter.mp hmem).2
  rw [find?_insertionSort, hfirst, List.insertionSort_cons, orderedInsert_of_least hrest]
  rfl

/-! ## Greatest first -/

section

variable {τ : Type} [LinearOrder τ] (f : α → τ)

theorem orderedInsert_after_top {a : α} {m : τ} (ha : f a < m) {top : List α}
    (htop : ∀ x ∈ top, f x = m) (rest : List α) :
    (top ++ rest).orderedInsert (fun a b => f b ≤ f a) a =
      top ++ rest.orderedInsert (fun a b => f b ≤ f a) a := by
  induction top with
  | nil => rfl
  | cons x top ih =>
      have hx : ¬ f x ≤ f a := by
        rw [htop x List.mem_cons_self]
        exact not_le.mpr ha
      rw [List.cons_append, List.orderedInsert_of_not_le (fun a b => f b ≤ f a) _ hx,
        ih fun y hy => htop y (List.mem_cons_of_mem _ hy), List.cons_append]

/-- Sorting by descending `f` puts the items that reach the bound first, in their order. -/
theorem insertionSort_top {m : τ} {xs : List α} (h : ∀ x ∈ xs, f x ≤ m) :
    xs.insertionSort (fun a b => f b ≤ f a) =
      xs.filter (fun x => f x = m) ++
        (xs.filter fun x => f x < m).insertionSort (fun a b => f b ≤ f a) := by
  induction xs with
  | nil => rfl
  | cons x xs ih =>
      have hxs : ∀ y ∈ xs, f y ≤ m := fun y hy => h y (List.mem_cons_of_mem _ hy)
      rw [List.insertionSort_cons, ih hxs]
      rcases (h x List.mem_cons_self).eq_or_lt with hx | hx
      · have hleast : ∀ y ∈ xs.filter (fun x => f x = m) ++
            (xs.filter fun x => f x < m).insertionSort (fun a b => f b ≤ f a), f y ≤ f x := by
          intro y hy
          rw [hx]
          rcases List.mem_append.mp hy with hy | hy
          · exact hxs y (List.mem_filter.mp hy).1
          · exact hxs y (List.mem_filter.mp ((List.mem_insertionSort _).mp hy)).1
        rw [orderedInsert_of_least hleast, List.filter_cons_of_pos (by simpa using hx),
          List.filter_cons_of_neg (by simp [hx]), List.cons_append]
      · have htop : ∀ y ∈ xs.filter (fun x => f x = m), f y = m := by
          intro y hy
          simpa using (List.mem_filter.mp hy).2
        rw [orderedInsert_after_top f hx htop, List.filter_cons_of_neg (by simpa using hx.ne),
          List.filter_cons_of_pos (by simpa using hx), List.insertionSort_cons]

/-- The item ranked second after `x`, which comes last and ties at most with the greatest. -/
def runnerUp (xs : List α) (x : α) : Option α :=
  match xs.filter (fun y => f y = f x) with
  | [] => xs.getLast?.bind fun last => (xs.filter fun y => f y = f last).head?
  | [_] => some x
  | _ :: second :: _ => some second

theorem mem_of_runnerUp {xs : List α} {x y : α} (h : runnerUp f xs x = some y) :
    y ∈ xs ∨ y = x := by
  unfold runnerUp at h
  split at h
  · obtain ⟨last, -, hy⟩ := Option.bind_eq_some_iff.mp h
    exact .inl (List.mem_filter.mp (List.mem_of_head? hy)).1
  · exact .inr (Option.some.inj h).symm
  · rename_i a second ties hties
    cases h
    have hmem : y ∈ xs.filter fun y => f y = f x := by
      rw [hties]
      simp
    exact .inl (List.mem_filter.mp hmem).1

theorem eq_nil_of_runnerUp {xs : List α} {x : α} (h : runnerUp f xs x = none) : xs = [] := by
  unfold runnerUp at h
  split at h
  · cases hlast : xs.getLast? with
    | none => exact List.getLast?_eq_none_iff.mp hlast
    | some last =>
        rw [hlast, Option.bind_some, List.head?_eq_none_iff, List.filter_eq_nil_iff] at h
        have hself := h last (List.mem_of_getLast? hlast)
        simp at hself
  · cases h
  · cases h

/-- Where nothing ties, the last item is the runner-up of a greater one. -/
theorem runnerUp_of_strict {xs : List α} {x : α} (h : xs.Pairwise fun a b => f a < f b)
    (hx : ∀ y ∈ xs, f y < f x) : runnerUp f xs x = xs.getLast? := by
  have hties : xs.filter (fun y => f y = f x) = [] := by
    apply List.filter_eq_nil_iff.mpr
    intro y hy
    simpa using (hx y hy).ne
  unfold runnerUp
  rw [hties]
  cases hlast : xs.getLast? with
  | none => rfl
  | some last =>
      obtain ⟨front, rfl⟩ := List.getLast?_eq_some_iff.mp hlast
      have hfront : front.filter (fun y => f y = f last) = [] := by
        apply List.filter_eq_nil_iff.mpr
        intro y hy
        have hlt := (List.pairwise_append.mp h).2.2 y hy last (List.mem_singleton_self _)
        simpa using hlt.ne
      show ((front ++ [last]).filter fun y => f y = f last).head? = some last
      rw [List.filter_append, hfront]
      simp

theorem head?_insertionSort_ascending {xs : List α} (h : xs.Pairwise fun a b => f a ≤ f b) :
    (xs.insertionSort fun a b => f b ≤ f a).head? =
      xs.getLast?.bind fun last => (xs.filter fun y => f y = f last).head? := by
  cases hlast : xs.getLast? with
  | none =>
      rw [List.getLast?_eq_none_iff.mp hlast]
      rfl
  | some last =>
      obtain ⟨front, rfl⟩ := List.getLast?_eq_some_iff.mp hlast
      have htop : ∀ y ∈ front ++ [last], f y ≤ f last := by
        intro y hy
        rcases List.mem_append.mp hy with hy | hy
        · exact (List.pairwise_append.mp h).2.2 y hy last (List.mem_singleton_self _)
        · rw [List.mem_singleton.mp hy]
      have hmem : last ∈ (front ++ [last]).filter fun y => f y = f last :=
        List.mem_filter.mpr ⟨by simp, by simp⟩
      rw [insertionSort_top f htop, List.head?_append]
      cases hgroup : (front ++ [last]).filter fun y => f y = f last with
      | nil =>
          rw [hgroup] at hmem
          exact absurd hmem List.not_mem_nil
      | cons y ys =>
          rw [Option.bind_some, hgroup]
          rfl

/-- The second of the items in descending order, where they came in ascending order. -/
theorem getElem?_one_insertionSort {xs : List α} {x : α} (h : xs.Pairwise fun a b => f a ≤ f b)
    (hx : ∀ y ∈ xs, f y ≤ f x) :
    ((xs ++ [x]).insertionSort fun a b => f b ≤ f a)[1]? = runnerUp f xs x := by
  have htop : ∀ y ∈ xs ++ [x], f y ≤ f x := by
    intro y hy
    rcases List.mem_append.mp hy with hy | hy
    · exact hx y hy
    · rw [List.mem_singleton.mp hy]
  have hgroup : (xs ++ [x]).filter (fun y => f y = f x) =
      xs.filter (fun y => f y = f x) ++ [x] := by simp
  have hrest : (xs ++ [x]).filter (fun y => f y < f x) = xs.filter fun y => f y < f x := by simp
  rw [insertionSort_top f htop, hgroup, hrest]
  unfold runnerUp
  cases hties : xs.filter (fun y => f y = f x) with
  | nil =>
      have hall : xs.filter (fun y => f y < f x) = xs := by
        apply List.filter_eq_self.mpr
        intro y hy
        have hne := List.filter_eq_nil_iff.mp hties y hy
        simp only [decide_eq_true_eq] at hne ⊢
        exact lt_of_le_of_ne (hx y hy) hne
      rw [hall]
      simp only
      rw [← head?_insertionSort_ascending f h, List.head?_eq_getElem?]
      rfl
  | cons a ties =>
      cases ties with
      | nil => rfl
      | cons b ties => rfl

end

end NetForge.Calculus
