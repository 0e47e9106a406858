import NetForge.Python.Error

/-! # Indices and slices from the end

`xs[i]` and `xs[i:j]` at any integer: a negative index counts from the end, and
the bounds of a slice are moved into the sequence where they lie outside it.
-/

namespace NetForge.Python

variable {α : Type}

def getItem (xs : List α) (i : Int) : Except PyError α :=
  if 0 ≤ i then index xs i.toNat
  else if 0 ≤ i + xs.length then index xs (i + xs.length).toNat
  else .error .indexError

/-- The position in a sequence of `length` elements that a slice bound stands for. -/
def sliceBound (length : Nat) (i : Int) : Nat :=
  if 0 ≤ i then min i.toNat length else (i + length).toNat

def getSlice (xs : List α) (start stop : Int) : List α :=
  (xs.take (sliceBound xs.length stop)).drop (sliceBound xs.length start)

theorem sliceBound_le (length : Nat) (i : Int) : sliceBound length i ≤ length := by
  unfold sliceBound
  by_cases hi : 0 ≤ i
  · rw [if_pos hi]
    exact Nat.min_le_right _ _
  · rw [if_neg hi]
    omega

theorem getSlice_length (xs : List α) (start stop : Int) :
    (getSlice xs start stop).length = sliceBound xs.length stop - sliceBound xs.length start := by
  have hstop := sliceBound_le xs.length stop
  rw [getSlice, List.length_drop, List.length_take]
  omega

theorem getSlice_eq_nil {xs : List α} {start stop : Int}
    (h : sliceBound xs.length stop ≤ sliceBound xs.length start) : getSlice xs start stop = [] := by
  apply List.eq_nil_of_length_eq_zero
  rw [getSlice_length]
  omega

/-! ## Positions inside -/

theorem getItem_natCast (xs : List α) (i : Nat) : getItem xs i = index xs i := by
  unfold getItem
  rw [if_pos (Int.natCast_nonneg i), Int.toNat_natCast]

theorem neg_length_le_of_getItem {xs : List α} {i : Int} {x : α} (h : getItem xs i = .ok x) :
    -(xs.length : Int) ≤ i := by
  unfold getItem at h
  by_cases hi : 0 ≤ i
  · omega
  · rw [if_neg hi] at h
    by_cases hend : 0 ≤ i + xs.length
    · omega
    · rw [if_neg hend] at h
      cases h

theorem getSlice_natCast (xs : List α) (start count : Nat) :
    getSlice xs start (start + count : Nat) = slice xs start count := by
  have hstop : sliceBound xs.length (start + count : Nat) = min (start + count) xs.length := by
    unfold sliceBound
    rw [if_pos (Int.natCast_nonneg _), Int.toNat_natCast]
  have hstart : sliceBound xs.length start = min start xs.length := by
    unfold sliceBound
    rw [if_pos (Int.natCast_nonneg _), Int.toNat_natCast]
  have htake : xs.take (min (start + count) xs.length) = xs.take (start + count) := by
    apply List.take_eq_take_iff.mpr
    omega
  rw [getSlice, hstop, hstart, slice, List.take_drop, htake]
  by_cases hlong : start ≤ xs.length
  · rw [Nat.min_eq_left hlong]
  · have hshort := List.length_take_le' (start + count) xs
    rw [List.drop_eq_nil_of_le (by omega), List.drop_eq_nil_of_le (by omega)]

/-- Where `stop` lies in the sequence, a slice up to it is what stands in as many places right
before `stop`, also where the slice reaches over the end to the front. -/
theorem getSlice_back (xs : List α) (start stop : Int) (hin : -(xs.length : Int) ≤ start)
    (hle : start ≤ stop) (hstop : stop ≤ xs.length) :
    getSlice xs (stop - (getSlice xs start stop).length) stop = getSlice xs start stop := by
  by_cases hempty : sliceBound xs.length stop ≤ sliceBound xs.length start
  · rw [getSlice_eq_nil hempty, List.length_nil]
    exact getSlice_eq_nil (by simp)
  · have hback : sliceBound xs.length (stop - (getSlice xs start stop).length) =
        sliceBound xs.length start := by
      rw [getSlice_length]
      unfold sliceBound at *
      by_cases hneg : 0 ≤ start
      · rw [if_pos hneg, if_pos (by omega : 0 ≤ stop)] at *
        rw [if_pos (by omega)]
        omega
      · rw [if_neg hneg] at *
        by_cases hstop' : 0 ≤ stop
        · rw [if_pos hstop'] at *
          rw [if_pos (by omega)]
          omega
        · rw [if_neg hstop'] at *
          rw [if_neg (by omega)]
          omega
    show (xs.take _).drop _ = (xs.take _).drop _
    rw [hback]

end NetForge.Python
