import Mathlib.Data.List.Sort

/-! # What sorting leaves to the order before it

Items with one key keep the order they came in. A value read off the sorted items
is independent of that order, from some place on, exactly when the items that tie
there agree on it.
-/

namespace NetForge.Calculus

variable {α κ β : Type} [LinearOrder κ] (key : α → κ) (f : α → β)

def TiesEqual (xs : List α) : Prop := ∀ a ∈ xs, ∀ b ∈ xs, key a = key b → f a = f b

/-- Items that tie agree on the value, unless they are the two that come first. -/
def TiesEqualButFirst (xs : List α) : Prop :=
  ∀ a ∈ xs, ∀ b ∈ xs, key a = key b →
    f a = f b ∨ xs.countP (fun c => key c ≤ key a) = 2

def InOrder (xs : List α) : Prop := xs.Pairwise fun a b => key a ≤ key b

section

variable {key f} {xs ys : List α}

theorem InOrder.map_key (hx : InOrder key xs) (hy : InOrder key ys) (hperm : xs.Perm ys) :
    xs.map key = ys.map key := by
  have hx' : (xs.map key).Pairwise (· ≤ ·) := List.pairwise_map.mpr hx
  have hy' : (ys.map key).Pairwise (· ≤ ·) := List.pairwise_map.mpr hy
  exact (hperm.map key).eq_of_pairwise' hx' hy'

theorem InOrder.tied (hx : InOrder key xs) (hy : InOrder key ys) (hperm : xs.Perm ys) {i : Nat}
    {a b : α} (ha : xs[i]? = some a) (hb : ys[i]? = some b) : key a = key b := by
  have hkeys := congrArg (fun keys : List κ => keys[i]?) (hx.map_key hy hperm)
  simp only [List.getElem?_map, ha, hb, Option.map_some] at hkeys
  exact Option.some.inj hkeys

theorem InOrder.key_le (h : InOrder key xs) {i j : Nat} (hij : i ≤ j) {a b : α}
    (ha : xs[i]? = some a) (hb : xs[j]? = some b) : key a ≤ key b := by
  obtain ⟨hi, rfl⟩ := List.getElem?_eq_some_iff.mp ha
  obtain ⟨hj, rfl⟩ := List.getElem?_eq_some_iff.mp hb
  rcases hij.eq_or_lt with rfl | hlt
  · exact le_rfl
  · exact List.pairwise_iff_getElem.mp h i j hi hj hlt

/-- All items up to a place count among those not after it. -/
theorem InOrder.lt_countP (h : InOrder key xs) {i : Nat} {a : α} (ha : xs[i]? = some a) :
    i < xs.countP (fun c => key c ≤ key a) := by
  obtain ⟨hi, -⟩ := List.getElem?_eq_some_iff.mp ha
  have hall : ∀ c ∈ xs.take (i + 1), decide (key c ≤ key a) = true := by
    intro c hc
    obtain ⟨j, hj, rfl⟩ := List.mem_iff_getElem.mp hc
    rw [List.length_take] at hj
    rw [List.getElem_take, decide_eq_true_eq]
    exact h.key_le (by omega) (List.getElem?_eq_getElem _) ha
  have htake : (xs.take (i + 1)).countP (fun c => key c ≤ key a) = i + 1 := by
    rw [List.countP_eq_length.mpr hall, List.length_take]
    omega
  have hle := (List.take_sublist (i + 1) xs).countP_le (p := fun c => decide (key c ≤ key a))
  omega

omit [LinearOrder κ] in
theorem TiesEqual.of_perm (h : TiesEqual key f xs) (hperm : ys.Perm xs) : TiesEqual key f ys :=
  fun a ha b hb => h a (hperm.mem_iff.mp ha) b (hperm.mem_iff.mp hb)

theorem TiesEqualButFirst.of_perm (h : TiesEqualButFirst key f xs) (hperm : ys.Perm xs) :
    TiesEqualButFirst key f ys := by
  intro a ha b hb htie
  rw [hperm.countP_eq]
  exact h a (hperm.mem_iff.mp ha) b (hperm.mem_iff.mp hb) htie

/-! ## Ties that agree -/

theorem map_eq_of_tied {i : Nat} (hperm : xs.Perm ys)
    (h : ∀ a b, xs[i]? = some a → ys[i]? = some b → f a = f b) :
    (xs.map f)[i]? = (ys.map f)[i]? := by
  have hlen := hperm.length_eq
  rw [List.getElem?_map, List.getElem?_map]
  cases ha : xs[i]? with
  | none =>
      rw [List.getElem?_eq_none_iff] at ha
      rw [List.getElem?_eq_none_iff.mpr (hlen ▸ ha)]
  | some a =>
      cases hb : ys[i]? with
      | none =>
          rw [List.getElem?_eq_none_iff, ← hlen, ← List.getElem?_eq_none_iff] at hb
          rw [hb] at ha
          cases ha
      | some b => rw [Option.map_some, Option.map_some, h a b ha hb]

theorem TiesEqual.map_eq (h : TiesEqual key f xs) (hx : InOrder key xs) (hy : InOrder key ys)
    (hperm : xs.Perm ys) : xs.map f = ys.map f := by
  apply List.ext_getElem?
  intro i
  apply map_eq_of_tied hperm
  intro a b ha hb
  exact h a (List.mem_of_getElem? ha) b (hperm.mem_iff.mpr (List.mem_of_getElem? hb))
    (hx.tied hy hperm ha hb)

theorem TiesEqualButFirst.drop_map_eq (h : TiesEqualButFirst key f xs) (hx : InOrder key xs)
    (hy : InOrder key ys) (hperm : xs.Perm ys) : (xs.map f).drop 2 = (ys.map f).drop 2 := by
  apply List.ext_getElem?
  intro i
  rw [List.getElem?_drop, List.getElem?_drop]
  apply map_eq_of_tied hperm
  intro a b ha hb
  have hcount := hx.lt_countP ha
  apply (h a (List.mem_of_getElem? ha) b (hperm.mem_iff.mpr (List.mem_of_getElem? hb))
    (hx.tied hy hperm ha hb)).resolve_right
  omega

/-! ## Ties that do not -/

/-- Where all orders of the items give the same values from the place `k` on, an item
that ties with one from there on agrees with it: the two can change places. -/
theorem InOrder.agree_of_drop_eq (h : InOrder key xs) {k : Nat}
    (hsame : ∀ ys, InOrder key ys → ys.Perm xs → (ys.map f).drop k = (xs.map f).drop k)
    {i j : Nat} {a b : α} (ha : xs[i]? = some a) (hb : xs[j]? = some b) (htie : key a = key b)
    (hk : k ≤ j) : f a = f b := by
  obtain ⟨hi, rfl⟩ := List.getElem?_eq_some_iff.mp ha
  obtain ⟨hj, rfl⟩ := List.getElem?_eq_some_iff.mp hb
  have hself : ∀ m (hm : m < xs.length), (xs.map key).set m (key xs[m]) = xs.map key := by
    intro m hm
    rw [← List.map_set, List.set_getElem_self]
  have hkeys : ((xs.set i xs[j]).set j xs[i]).map key = xs.map key := by
    rw [List.map_set, List.map_set, ← htie, hself i hi, htie, hself j hj]
  have hswapped : InOrder key ((xs.set i xs[j]).set j xs[i]) := by
    unfold InOrder
    rw [← List.pairwise_map (R := fun x y => x ≤ y), hkeys, List.pairwise_map]
    exact h
  have hdrop := hsame _ hswapped (List.set_set_perm hi hj)
  have hplace := congrArg (fun values : List β => values[j - k]?) hdrop
  simp only [List.getElem?_drop, List.getElem?_map, Nat.add_sub_cancel' hk, hb] at hplace
  rw [List.getElem?_set_self (by rw [List.length_set]; exact hj)] at hplace
  exact Option.some.inj hplace

theorem tiesEqual_of_drop_eq (h : InOrder key xs)
    (hsame : ∀ ys, InOrder key ys → ys.Perm xs → (ys.map f).drop 1 = (xs.map f).drop 1) :
    TiesEqual key f xs := by
  intro a ha b hb htie
  obtain ⟨i, hi⟩ := List.mem_iff_getElem?.mp ha
  obtain ⟨j, hj⟩ := List.mem_iff_getElem?.mp hb
  by_cases hjpos : 1 ≤ j
  · exact h.agree_of_drop_eq hsame hi hj htie hjpos
  by_cases hipos : 1 ≤ i
  · exact (h.agree_of_drop_eq hsame hj hi htie.symm hipos).symm
  · obtain rfl : i = j := by omega
    rw [hi] at hj
    cases hj
    rfl

/-- More than two items not after the first two: a third one ties with them. -/
theorem InOrder.exists_tie_behind (h : InOrder key xs) {i : Nat} {a b : α} (hi : i ≤ 1)
    (ha : xs[i]? = some a) (hb : xs[1]? = some b) (htie : key a = key b)
    (hcount : xs.countP (fun c => key c ≤ key a) ≠ 2) :
    ∃ m c, 2 ≤ m ∧ xs[m]? = some c ∧ key a = key c := by
  by_contra hnone
  push Not at hnone
  have hafter : (xs.drop 2).countP (fun c => key c ≤ key a) = 0 := by
    apply List.countP_eq_zero.mpr
    intro c hc hle
    obtain ⟨m, hm⟩ := List.mem_iff_getElem?.mp hc
    rw [List.getElem?_drop] at hm
    have hbelow := h.key_le (by omega : i ≤ 2 + m) ha hm
    exact hnone (2 + m) c (by omega) hm (le_antisymm hbelow (of_decide_eq_true hle))
  have hfirst : (xs.take 2).countP (fun c => key c ≤ key a) ≤ 2 := by
    have hle := List.countP_le_length (p := fun c => decide (key c ≤ key a)) (l := xs.take 2)
    rw [List.length_take] at hle
    omega
  have hsplit : xs.countP (fun c => key c ≤ key a) =
      (xs.take 2).countP (fun c => key c ≤ key a) +
        (xs.drop 2).countP (fun c => key c ≤ key a) := by
    rw [← List.countP_append, List.take_append_drop]
  have htwo := h.lt_countP hb
  rw [← htie] at htwo
  omega

theorem tiesEqualButFirst_of_drop_eq (h : InOrder key xs)
    (hsame : ∀ ys, InOrder key ys → ys.Perm xs → (ys.map f).drop 2 = (xs.map f).drop 2) :
    TiesEqualButFirst key f xs := by
  intro a ha b hb htie
  obtain ⟨i, hi⟩ := List.mem_iff_getElem?.mp ha
  obtain ⟨j, hj⟩ := List.mem_iff_getElem?.mp hb
  by_cases hjlate : 2 ≤ j
  · exact .inl (h.agree_of_drop_eq hsame hi hj htie hjlate)
  by_cases hilate : 2 ≤ i
  · exact .inl (h.agree_of_drop_eq hsame hj hi htie.symm hilate).symm
  by_cases hcount : xs.countP (fun c => key c ≤ key a) = 2
  · exact .inr hcount
  · -- both are among the first two, and a third one ties with them
    apply Or.inl
    have hthird : i = j ∨ ∃ m c, 2 ≤ m ∧ xs[m]? = some c ∧ key a = key c := by
      by_cases hij : i = j
      · exact .inl hij
      · by_cases hjone : j = 1
        · subst hjone
          exact .inr (h.exists_tie_behind (by omega) hi hj htie hcount)
        · obtain rfl : i = 1 := by omega
          exact .inr (h.exists_tie_behind le_rfl hi hi rfl hcount)
    rcases hthird with rfl | ⟨m, c, hm, hc, hac⟩
    · rw [hi] at hj
      cases hj
      rfl
    · have hafirst := h.agree_of_drop_eq hsame hi hc hac hm
      have hbfirst := h.agree_of_drop_eq hsame hj hc (htie.symm.trans hac) hm
      exact hafirst.trans hbfirst.symm

end

end NetForge.Calculus
