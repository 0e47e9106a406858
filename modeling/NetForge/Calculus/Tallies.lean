import NetForge.Calculus.Entries
import Mathlib.Algebra.Order.BigOperators.Group.List

/-! # Sums kept under keys

A loop that adds the weight of each event to the entry of its key keeps the total weight, and
leaves under each key the weight of the events of that key, in whatever order they come. Where
the entries are ranked and cut, those above a threshold are all kept as long as there are not
more of them than the cut allows; a total bounds how many there can be.
-/

namespace NetForge.Calculus

namespace Entries

variable {κ β γ M : Type} [DecidableEq κ] [AddCommMonoid M]

/-- What a value measures grows by the weight of each event. -/
structure Adds (step : γ → Option β → β) (measure : β → M) (weight : γ → M) : Prop where
  first : ∀ c, measure (step c none) = weight c
  next : ∀ c v, measure (step c (some v)) = measure v + weight c

variable {step : γ → Option β → β} {measure : β → M} {weight : γ → M}

theorem sum_alter (h : Adds step measure weight) {entries : List (κ × β)}
    (hnodup : (keys entries).Nodup) (key : κ) (c : γ) :
    ((alter entries key (step c)).map fun e => measure e.2).sum =
      (entries.map fun e => measure e.2).sum + weight c := by
  induction entries with
  | nil =>
      show measure (step c none) + 0 = 0 + weight c
      rw [h.first, add_zero, zero_add]
  | cons e entries ih =>
      obtain ⟨hfresh, hrest⟩ := List.nodup_cons.mp hnodup
      have hcons : keys (e :: entries) = e.1 :: keys entries := rfl
      by_cases he : e.1 = key
      · subst he
        have halter : alter (e :: entries) e.1 (step c) =
            (e.1, step c (some e.2)) :: entries := by
          unfold alter
          rw [if_pos (hcons ▸ List.mem_cons_self), List.map_cons, if_pos rfl]
          congr 1
          apply List.map_congr_left _ |>.trans (List.map_id _)
          intro e' he'
          have hne : ¬ e'.1 = e.1 := fun heq => hfresh (List.mem_map.mpr ⟨e', he', heq⟩)
          rw [if_neg hne]
          rfl
        rw [halter, List.map_cons, List.map_cons, List.sum_cons, List.sum_cons, h.next]
        exact add_right_comm _ _ _
      · have hmem : key ∈ keys (e :: entries) ↔ key ∈ keys entries := by
          rw [hcons, List.mem_cons]
          exact or_iff_right fun heq => he heq.symm
        have halter : alter (e :: entries) key (step c) = e :: alter entries key (step c) := by
          unfold alter
          by_cases hkey : key ∈ keys entries
          · rw [if_pos (hmem.mpr hkey), if_pos hkey, List.map_cons, if_neg he]
          · rw [if_neg (fun hk => hkey (hmem.mp hk)), if_neg hkey, List.cons_append]
        rw [halter, List.map_cons, List.map_cons, List.sum_cons, List.sum_cons, ih hrest]
        exact (add_assoc _ _ _).symm

theorem sum_fill (h : Adds step measure weight) (events : List (κ × γ)) {entries : List (κ × β)}
    (hnodup : (keys entries).Nodup) :
    ((fill step entries events).map fun e => measure e.2).sum =
      (entries.map fun e => measure e.2).sum + (events.map fun e => weight e.2).sum := by
  induction events generalizing entries with
  | nil => exact (add_zero _).symm
  | cons e events ih =>
      show ((fill step (alter entries e.1 (step e.2)) events).map _).sum = _
      rw [ih (nodup_alter hnodup _ _), sum_alter h hnodup, List.map_cons, List.sum_cons]
      exact add_assoc _ _ _

theorem measure_foldl (h : Adds step measure weight) (v : β) (cs : List γ) :
    (cs.foldl (fun v c => some (step c v)) (some v)).map measure =
      some (measure v + (cs.map weight).sum) := by
  induction cs generalizing v with
  | nil => exact congrArg some (add_zero _).symm
  | cons c cs ih =>
      rw [List.foldl_cons, ih, h.next, List.map_cons, List.sum_cons, add_assoc]

def weightOf (weight : γ → M) (events : List (κ × γ)) (key : κ) : M :=
  ((events.filter (·.1 = key)).map fun e => weight e.2).sum

/-- A key has an entry when it has an event, and the entry holds the weight of its events. -/
theorem measure_value?_fill (h : Adds step measure weight) (events : List (κ × γ)) (key : κ) :
    (value? (fill step [] events) key).map measure =
      if key ∈ keys events then some (weightOf weight events key) else none := by
  rw [value?_fill, value?_nil]
  by_cases hkey : key ∈ keys events
  · obtain ⟨e, he, hek⟩ := List.mem_map.mp hkey
    rw [if_pos hkey]
    unfold weightOf
    cases hfilter : events.filter (·.1 = key) with
    | nil =>
        have hnone := List.filter_eq_nil_iff.mp hfilter e he
        exact absurd hek (by simpa using hnone)
    | cons e' rest =>
        rw [List.map_cons, List.foldl_cons, measure_foldl h, h.first, List.map_cons, List.sum_cons,
          List.map_map]
        rfl
  · have hnone : events.filter (·.1 = key) = [] := by
      apply List.filter_eq_nil_iff.mpr
      intro e he hek
      exact hkey (List.mem_map.mpr ⟨e, he, by simpa using hek⟩)
    rw [if_neg hkey, hnone]
    rfl

end Entries

/-! ## Ranking -/

variable {α : Type} {p : α → Bool}

/-- In a ranked list the items that pass come first, so a cut that has room for them keeps
them all. -/
theorem filter_take_of_ranked {xs : List α} (h : xs.Pairwise fun a b => p b = true → p a = true)
    {n : Nat} (hroom : (xs.filter p).length ≤ n) : (xs.take n).filter p = xs.filter p := by
  induction xs generalizing n with
  | nil => rw [List.take_nil]
  | cons x xs ih =>
      obtain ⟨hx, hxs⟩ := List.pairwise_cons.mp h
      by_cases hp : p x = true
      · rw [List.filter_cons_of_pos hp, List.length_cons] at hroom
        obtain ⟨n, rfl⟩ := Nat.exists_eq_succ_of_ne_zero (Nat.ne_zero_of_lt hroom)
        rw [List.take_succ_cons, List.filter_cons_of_pos hp, List.filter_cons_of_pos hp,
          ih hxs (Nat.le_of_succ_le_succ hroom)]
      · have hnone : ∀ y ∈ x :: xs, ¬ p y = true := by
          intro y hy hpy
          cases hy with
          | head => exact hp hpy
          | tail _ hy => exact hp (hx y hy hpy)
        rw [List.filter_eq_nil_iff.mpr hnone]
        exact List.filter_eq_nil_iff.mpr fun y hy => hnone y (List.mem_of_mem_take hy)

/-- Weights above a bound take up their share of the total. -/
theorem filter_length_nsmul_le {M : Type} [AddCommMonoid M] [PartialOrder M]
    [IsOrderedAddMonoid M] (weight : α → M) {bound : M} {xs : List α}
    (hnonneg : ∀ x ∈ xs, 0 ≤ weight x) (hbound : ∀ x ∈ xs, p x = true → bound ≤ weight x) :
    (xs.filter p).length • bound ≤ (xs.map weight).sum := by
  have hheavy : (xs.filter p).length • bound ≤ ((xs.filter p).map weight).sum := by
    have hcard := List.card_nsmul_le_sum ((xs.filter p).map weight) bound ?_
    · rwa [List.length_map] at hcard
    · intro w hw
      obtain ⟨x, hx, rfl⟩ := List.mem_map.mp hw
      exact hbound x (List.mem_of_mem_filter hx) (List.of_mem_filter hx)
  apply hheavy.trans
  apply List.Sublist.sum_le_sum (List.filter_sublist.map weight)
  intro w hw
  obtain ⟨x, hx, rfl⟩ := List.mem_map.mp hw
  exact hnonneg x hx

end NetForge.Calculus
