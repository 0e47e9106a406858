import Mathlib.Data.List.Sort
import Mathlib.Data.List.Nodup

/-! # Tables with a primary key

Rows stand in insertion order, at most one per key. The only write besides
deletion is the upsert `INSERT ... ON CONFLICT(key) DO UPDATE`, whose update
clause is part of the schema. Ordered queries are stable: rows that compare
equal keep their insertion order.
-/

namespace NetForge.Calculus

/-- A row type with its key and the update clause of its upsert. -/
structure Schema (ρ κ : Type) where
  key : ρ → κ
  onConflict : ρ → ρ → ρ
  key_onConflict : ∀ old new, key old = key new → key (onConflict old new) = key old

structure Table {ρ κ : Type} (S : Schema ρ κ) where
  rows : List ρ
  nodup : (rows.map S.key).Nodup

def orderByDesc {ρ τ : Type} [LinearOrder τ] (f : ρ → τ) (rows : List ρ) : List ρ :=
  rows.insertionSort (fun a b => f b ≤ f a)

def orderBy {ρ τ : Type} [LinearOrder τ] (f : ρ → τ) (rows : List ρ) : List ρ :=
  rows.insertionSort (fun a b => f a ≤ f b)

@[simp] theorem mem_orderByDesc {ρ τ : Type} [LinearOrder τ] {f : ρ → τ} {rows : List ρ} {r : ρ} :
    r ∈ orderByDesc f rows ↔ r ∈ rows := List.mem_insertionSort _

@[simp] theorem length_orderByDesc {ρ τ : Type} [LinearOrder τ] (f : ρ → τ) (rows : List ρ) :
    (orderByDesc f rows).length = rows.length := List.length_insertionSort _ _

theorem orderByDesc_perm {ρ τ : Type} [LinearOrder τ] (f : ρ → τ) (rows : List ρ) :
    (orderByDesc f rows).Perm rows := List.perm_insertionSort _ _

@[simp] theorem mem_orderBy {ρ τ : Type} [LinearOrder τ] {f : ρ → τ} {rows : List ρ} {r : ρ} :
    r ∈ orderBy f rows ↔ r ∈ rows := List.mem_insertionSort _

/-- The schema of a table whose upsert replaces the whole row. -/
def Schema.replacing {ρ κ : Type} (key : ρ → κ) : Schema ρ κ where
  key := key
  onConflict := fun _ new => new
  key_onConflict := fun _ _ h => h.symm

namespace Table

variable {ρ κ : Type} {S : Schema ρ κ}

def empty : Table S := ⟨[], List.nodup_nil⟩

@[simp] theorem empty_rows : (empty : Table S).rows = [] := rfl

theorem eq_of_key {t : Table S} {a b : ρ} (ha : a ∈ t.rows) (hb : b ∈ t.rows)
    (h : S.key a = S.key b) : a = b :=
  List.inj_on_of_nodup_map t.nodup ha hb h

variable [DecidableEq κ]

/-- `SELECT ... WHERE key = k`. -/
def find? (t : Table S) (k : κ) : Option ρ := t.rows.find? (fun r => S.key r = k)

theorem find?_eq_some {t : Table S} {k : κ} {r : ρ} :
    t.find? k = some r ↔ r ∈ t.rows ∧ S.key r = k := by
  constructor
  · intro h
    exact ⟨List.mem_of_find?_eq_some h, by simpa using List.find?_some h⟩
  · rintro ⟨hr, rfl⟩
    cases h : t.find? (S.key r) with
    | none =>
        have := List.find?_eq_none.mp h r hr
        simp at this
    | some q =>
        have hq : S.key q = S.key r := by simpa using List.find?_some h
        rw [t.eq_of_key (List.mem_of_find?_eq_some h) hr hq]

theorem find?_eq_none {t : Table S} {k : κ} : t.find? k = none ↔ ∀ r ∈ t.rows, S.key r ≠ k := by
  simp [find?, List.find?_eq_none]

/-- The row an upsert of `row` leaves under `row`'s key. -/
def stored (t : Table S) (row : ρ) : ρ :=
  match t.find? (S.key row) with
  | some old => S.onConflict old row
  | none => row

theorem key_stored (t : Table S) (row : ρ) : S.key (t.stored row) = S.key row := by
  unfold stored
  cases h : t.find? (S.key row) with
  | none => rfl
  | some old =>
      have hk := (find?_eq_some.mp h).2
      exact (S.key_onConflict old row hk).trans hk

/-- The rows after an upsert: an existing row is updated in place, a new one is
appended. -/
def upsertRows (t : Table S) (row : ρ) : List ρ :=
  match t.find? (S.key row) with
  | some _ => t.rows.map (fun r => if S.key r = S.key row then S.onConflict r row else r)
  | none => t.rows ++ [row]

theorem upsertRows_nodup (t : Table S) (row : ρ) : ((t.upsertRows row).map S.key).Nodup := by
  unfold upsertRows
  cases h : t.find? (S.key row) with
  | some old =>
      have same : (t.rows.map fun r => if S.key r = S.key row then S.onConflict r row else r).map
          S.key = t.rows.map S.key := by
        rw [List.map_map]
        refine List.map_congr_left fun r _ => ?_
        simp only [Function.comp]
        split
        case isTrue hk => exact S.key_onConflict r row hk
        case isFalse => rfl
      simpa only [same] using t.nodup
  | none =>
      have fresh := find?_eq_none.mp h
      simp only [List.map_append, List.map_cons, List.map_nil]
      refine List.nodup_append.mpr ⟨t.nodup, by simp, ?_⟩
      intro k hk k' hk'
      obtain ⟨r, hr, rfl⟩ := List.mem_map.mp hk
      rw [List.mem_singleton.mp hk']
      exact fresh r hr

def upsert (t : Table S) (row : ρ) : Table S := ⟨t.upsertRows row, t.upsertRows_nodup row⟩

theorem mem_upsert {t : Table S} {row r : ρ} :
    r ∈ (t.upsert row).rows ↔ (r ∈ t.rows ∧ S.key r ≠ S.key row) ∨ r = t.stored row := by
  simp only [upsert, upsertRows, stored]
  cases h : t.find? (S.key row) with
  | none =>
      have fresh := find?_eq_none.mp h
      simp only [List.mem_append, List.mem_singleton]
      constructor
      · rintro (hr | hr)
        · exact .inl ⟨hr, fresh r hr⟩
        · exact .inr hr
      · rintro (hr | hr)
        · exact .inl hr.1
        · exact .inr hr
  | some old =>
      obtain ⟨hold, hkey⟩ := find?_eq_some.mp h
      simp only [List.mem_map]
      constructor
      · rintro ⟨q, hq, rfl⟩
        by_cases hk : S.key q = S.key row
        · have : q = old := t.eq_of_key hq hold (hk.trans hkey.symm)
          exact .inr (by rw [if_pos hk, this])
        · exact .inl (by rw [if_neg hk]; exact ⟨hq, hk⟩)
      · rintro (⟨hr, hk⟩ | rfl)
        · exact ⟨r, hr, if_neg hk⟩
        · exact ⟨old, hold, if_pos hkey⟩

theorem find?_upsert_self (t : Table S) (row : ρ) :
    (t.upsert row).find? (S.key row) = some (t.stored row) :=
  find?_eq_some.mpr ⟨mem_upsert.mpr (.inr rfl), t.key_stored row⟩

theorem find?_upsert_of_ne {t : Table S} {row : ρ} {k : κ} (hk : k ≠ S.key row) :
    (t.upsert row).find? k = t.find? k := by
  cases h : t.find? k with
  | none =>
      refine find?_eq_none.mpr fun r hr => ?_
      rcases mem_upsert.mp hr with ⟨hr, _⟩ | rfl
      · exact find?_eq_none.mp h r hr
      · rw [t.key_stored row]
        exact fun e => hk e.symm
  | some r =>
      obtain ⟨hr, rfl⟩ := find?_eq_some.mp h
      exact find?_eq_some.mpr ⟨mem_upsert.mpr (.inl ⟨hr, hk⟩), rfl⟩

/-- `DELETE ... WHERE key = k`. -/
def delete (t : Table S) (k : κ) : Table S where
  rows := t.rows.filter (fun r => S.key r ≠ k)
  nodup := t.nodup.sublist (List.filter_sublist.map S.key)

theorem mem_delete {t : Table S} {k : κ} {r : ρ} :
    r ∈ (t.delete k).rows ↔ r ∈ t.rows ∧ S.key r ≠ k := by
  simp [delete]

theorem find?_delete_self (t : Table S) (k : κ) : (t.delete k).find? k = none :=
  find?_eq_none.mpr fun _ hr => (mem_delete.mp hr).2

theorem find?_delete_of_ne {t : Table S} {k k' : κ} (hk : k ≠ k') :
    (t.delete k').find? k = t.find? k := by
  cases h : t.find? k with
  | none => exact find?_eq_none.mpr fun r hr => find?_eq_none.mp h r (mem_delete.mp hr).1
  | some r =>
      obtain ⟨hr, rfl⟩ := find?_eq_some.mp h
      exact find?_eq_some.mpr ⟨mem_delete.mpr ⟨hr, hk⟩, rfl⟩

/-- `DELETE ... WHERE p`. -/
def deleteWhere (t : Table S) (p : ρ → Bool) : Table S where
  rows := t.rows.filter (fun r => !p r)
  nodup := t.nodup.sublist (List.filter_sublist.map S.key)

omit [DecidableEq κ] in
theorem mem_deleteWhere {t : Table S} {p : ρ → Bool} {r : ρ} :
    r ∈ (t.deleteWhere p).rows ↔ r ∈ t.rows ∧ p r = false := by
  simp [deleteWhere]

/-! ## Several upserts -/

def upsertAll (t : Table S) (rows : List ρ) : Table S := rows.foldl upsert t

@[simp] theorem upsertAll_nil (t : Table S) : t.upsertAll [] = t := rfl

@[simp] theorem upsertAll_cons (t : Table S) (row : ρ) (rows : List ρ) :
    t.upsertAll (row :: rows) = (t.upsert row).upsertAll rows := rfl

theorem upsert_rows_of_fresh {t : Table S} {row : ρ} (h : S.key row ∉ t.rows.map S.key) :
    (t.upsert row).rows = t.rows ++ [row] := by
  have hnone : t.find? (S.key row) = none :=
    find?_eq_none.mpr fun r hr hkey => h (List.mem_map.mpr ⟨r, hr, hkey⟩)
  simp only [upsert, upsertRows, hnone]

theorem upsertAll_rows_of_nodup {t : Table S} {rows : List ρ}
    (h : ((t.rows ++ rows).map S.key).Nodup) : (t.upsertAll rows).rows = t.rows ++ rows := by
  induction rows generalizing t with
  | nil => simp
  | cons row rows ih =>
      have hfresh : S.key row ∉ t.rows.map S.key := by
        rw [List.map_append, List.nodup_append] at h
        intro hmem
        exact h.2.2 _ hmem _ (by simp) rfl
      have happ := upsert_rows_of_fresh hfresh
      have hnext : (((t.upsert row).rows ++ rows).map S.key).Nodup := by
        rw [happ, List.append_assoc, List.singleton_append]
        exact h
      rw [upsertAll_cons, ih hnext, happ, List.append_assoc, List.singleton_append]

section

variable {p : ρ → Bool} (hp : ∀ old new, p (S.onConflict old new) = p old)
include hp

/-- An upsert that meets its key in the table adds no row. -/
theorem countP_upsert_of_mem {t : Table S} {row : ρ} (h : S.key row ∈ t.rows.map S.key) :
    (t.upsert row).rows.countP p = t.rows.countP p := by
  obtain ⟨r, hr, hkey⟩ := List.mem_map.mp h
  have hsome : t.find? (S.key row) = some r := find?_eq_some.mpr ⟨hr, hkey⟩
  have hrows : (t.upsert row).rows =
      t.rows.map fun q => if S.key q = S.key row then S.onConflict q row else q := by
    simp only [upsert, upsertRows, hsome]
  rw [hrows, List.countP_map]
  apply List.countP_congr
  intro q _
  simp only [Function.comp]
  split
  · rw [hp]
  · rfl

theorem countP_upsert_le (t : Table S) (row : ρ) :
    (t.upsert row).rows.countP p ≤ t.rows.countP p + 1 := by
  by_cases h : S.key row ∈ t.rows.map S.key
  · rw [countP_upsert_of_mem hp h]
    omega
  · rw [upsert_rows_of_fresh h, List.countP_append]
    have hone : [row].countP p ≤ 1 := List.countP_le_length
    omega

theorem countP_upsertAll_le (t : Table S) (rows : List ρ) :
    (t.upsertAll rows).rows.countP p ≤ t.rows.countP p + rows.length := by
  induction rows generalizing t with
  | nil => simp
  | cons row rows ih =>
      have hstep := countP_upsert_le hp t row
      have hrest := ih (t.upsert row)
      rw [upsertAll_cons, List.length_cons]
      omega

/-- If every upsert adds its row, then all keys are new. -/
theorem nodup_of_countP_upsertAll {t : Table S} {rows : List ρ}
    (h : t.rows.countP p + rows.length ≤ (t.upsertAll rows).rows.countP p) :
    ((t.rows ++ rows).map S.key).Nodup := by
  induction rows generalizing t with
  | nil => simpa using t.nodup
  | cons row rows ih =>
      have hrest := countP_upsertAll_le hp (t.upsert row) rows
      rw [upsertAll_cons, List.length_cons] at h
      have hfresh : S.key row ∉ t.rows.map S.key := by
        intro hmem
        have hkept := countP_upsert_of_mem hp hmem
        omega
      have happ := upsert_rows_of_fresh hfresh
      have hstep := countP_upsert_le hp t row
      have hnext := ih (t := t.upsert row) (by omega)
      rw [happ, List.append_assoc, List.singleton_append] at hnext
      exact hnext

end

theorem find?_upsert_replacing {key : ρ → κ} (t : Table (Schema.replacing key)) (row : ρ) :
    (t.upsert row).find? (key row) = some row := by
  have stored_eq : t.stored row = row := by
    unfold stored
    split <;> rfl
  have found := t.find?_upsert_self row
  rwa [stored_eq] at found

theorem find?_upsertAll_of_ne {t : Table S} {rows : List ρ} {k : κ}
    (h : ∀ row ∈ rows, S.key row ≠ k) : (t.upsertAll rows).find? k = t.find? k := by
  induction rows generalizing t with
  | nil => rfl
  | cons row rows ih =>
      have hrow : k ≠ S.key row := fun heq => h row List.mem_cons_self heq.symm
      rw [upsertAll_cons, ih fun r hr => h r (List.mem_cons_of_mem _ hr),
        find?_upsert_of_ne hrow]

theorem find?_upsertAll_replacing {key : ρ → κ} {t : Table (Schema.replacing key)} {rows : List ρ}
    (hnodup : (rows.map key).Nodup) {row : ρ} (hrow : row ∈ rows) :
    (t.upsertAll rows).find? (key row) = some row := by
  induction rows generalizing t with
  | nil => exact absurd hrow List.not_mem_nil
  | cons r rows ih =>
      obtain ⟨hfresh, hrest⟩ := List.nodup_cons.mp hnodup
      rw [upsertAll_cons]
      rcases List.mem_cons.mp hrow with rfl | hrow
      · rw [find?_upsertAll_of_ne, find?_upsert_replacing]
        intro r hr hkey
        exact hfresh (List.mem_map.mpr ⟨r, hr, hkey⟩)
      · exact ih hrest hrow

end Table

end NetForge.Calculus
