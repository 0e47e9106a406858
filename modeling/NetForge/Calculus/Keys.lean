import NetForge.Calculus.Documents

/-! # Keys of tables

Which keys a table holds, and where a row comes from. An upsert only adds keys, so
that a reference to a key of a table without deletions is never broken.
-/

namespace NetForge.Calculus.Table

variable {ρ κ δ φ μ : Type}

def Has {S : Schema ρ κ} (t : Table S) (k : κ) : Prop := ∃ r ∈ t.rows, S.key r = k

/-- Every key of the one table is a key of the other. -/
def Extends {S : Schema ρ κ} (t u : Table S) : Prop := ∀ k, t.Has k → u.Has k

section

variable {S : Schema ρ κ}

theorem Extends.refl (t : Table S) : t.Extends t := fun _ h => h

theorem Extends.trans {t u v : Table S} (h : t.Extends u) (h' : u.Extends v) : t.Extends v :=
  fun k hk => h' k (h k hk)

variable [DecidableEq κ]

theorem has_of_find? {t : Table S} {k : κ} {r : ρ} (h : t.find? k = some r) : t.Has k :=
  ⟨r, find?_eq_some.mp h⟩

theorem Has.find? {t : Table S} {k : κ} (h : t.Has k) : ∃ r, t.find? k = some r := by
  obtain ⟨r, hr, hkey⟩ := h
  exact ⟨r, find?_eq_some.mpr ⟨hr, hkey⟩⟩

theorem has_upsert {t : Table S} {row : ρ} {k : κ} :
    (t.upsert row).Has k ↔ t.Has k ∨ k = S.key row := by
  constructor
  · rintro ⟨r, hr, rfl⟩
    rcases mem_upsert.mp hr with ⟨hr, -⟩ | rfl
    · exact .inl ⟨r, hr, rfl⟩
    · exact .inr (t.key_stored row)
  · rintro (⟨r, hr, rfl⟩ | rfl)
    · by_cases hkey : S.key r = S.key row
      · exact ⟨_, mem_upsert.mpr (.inr rfl), (t.key_stored row).trans hkey.symm⟩
      · exact ⟨r, mem_upsert.mpr (.inl ⟨hr, hkey⟩), rfl⟩
    · exact ⟨_, mem_upsert.mpr (.inr rfl), t.key_stored row⟩

theorem extends_upsert (t : Table S) (row : ρ) : t.Extends (t.upsert row) :=
  fun _ h => has_upsert.mpr (.inl h)

/-- No upsert takes a row away that is counted by a column it leaves alone. -/
theorem countP_le_upsert {p : ρ → Bool} (hp : ∀ old new, p (S.onConflict old new) = p old)
    (t : Table S) (row : ρ) : t.rows.countP p ≤ (t.upsert row).rows.countP p := by
  by_cases h : S.key row ∈ t.rows.map S.key
  · rw [countP_upsert_of_mem hp h]
  · rw [upsert_rows_of_fresh h, List.countP_append]
    exact Nat.le_add_right _ _

theorem mem_upsert_replacing {key : ρ → κ} {t : Table (Schema.replacing key)} {row r : ρ}
    (h : r ∈ (t.upsert row).rows) : r ∈ t.rows ∨ r = row := by
  have hstored : t.stored row = row := by
    unfold stored
    split <;> rfl
  rcases mem_upsert.mp h with ⟨hr, -⟩ | hr
  · exact .inl hr
  · exact .inr (hr.trans hstored)

/-- A row that upserts leave behind has a column of a row before them, where no update
changes the column, or is one of theirs. -/
theorem mem_upsertAll_of_keeps {τ : Type} (column : ρ → τ)
    (keep : ∀ old new, column (S.onConflict old new) = column old) {t : Table S} {rows : List ρ}
    {r : ρ} (h : r ∈ (t.upsertAll rows).rows) :
    (∃ q ∈ t.rows, column q = column r) ∨ ∃ row ∈ rows, column row = column r := by
  induction rows generalizing t with
  | nil => exact .inl ⟨r, h, rfl⟩
  | cons row rows ih =>
      rcases ih h with ⟨q, hq, hcolumn⟩ | ⟨q, hq, hcolumn⟩
      · rcases mem_upsert.mp hq with ⟨hq, -⟩ | rfl
        · exact .inl ⟨q, hq, hcolumn⟩
        · unfold stored at hcolumn
          cases hfind : t.find? (S.key row) with
          | none =>
              rw [hfind] at hcolumn
              exact .inr ⟨row, List.mem_cons_self, hcolumn⟩
          | some old =>
              rw [hfind] at hcolumn
              exact .inl ⟨old, (find?_eq_some.mp hfind).1, (keep old row).symm.trans hcolumn⟩
      · exact .inr ⟨q, List.mem_cons_of_mem _ hq, hcolumn⟩

end

/-! ## Documents -/

variable {L : Layout δ κ φ μ}

/-- The documents of a page, and the first one of a query, are stored. -/
theorem mem_documents_of_query {τ : Type} [LinearOrder τ] {f : Row δ κ φ μ → τ}
    {p : Row δ κ φ μ → Bool} {t : Table L.schema} {d : δ}
    (h : d ∈ (orderByDesc f (t.rows.filter p)).map Row.document) : d ∈ t.documents := by
  obtain ⟨r, hr, rfl⟩ := List.mem_map.mp h
  exact List.mem_map_of_mem (List.mem_filter.mp (mem_orderByDesc.mp hr)).1

theorem mem_documents_of_first {τ : Type} [LinearOrder τ] {f : Row δ κ φ μ → τ}
    {p : Row δ κ φ μ → Bool} {t : Table L.schema} {d : δ}
    (h : ((orderByDesc f (t.rows.filter p)).head?).map Row.document = some d) :
    d ∈ t.documents := by
  obtain ⟨r, hr, rfl⟩ := Option.map_eq_some_iff.mp h
  exact mem_documents_of_query (List.mem_map_of_mem (List.mem_of_mem_head? hr))

variable [DecidableEq κ]

theorem mem_documents_put {t : Table L.schema} {d e : δ} (h : e ∈ (t.put d).documents) :
    e ∈ t.documents ∨ e = d := by
  obtain ⟨r, hr, rfl⟩ := List.mem_map.mp h
  rcases mem_upsert.mp hr with ⟨hr, -⟩ | rfl
  · exact .inl (List.mem_map_of_mem hr)
  · unfold stored
    split <;> exact .inr rfl

theorem mem_documents_of_document? {t : Table L.schema} {k : κ} {d : δ}
    (h : t.document? k = some d) : d ∈ t.documents := by
  obtain ⟨r, hr, rfl⟩ := Option.map_eq_some_iff.mp h
  exact List.mem_map_of_mem (find?_eq_some.mp hr).1

def Filed (t : Table L.schema) : Prop := ∀ r ∈ t.rows, r.key = L.key r.document

omit [DecidableEq κ] in
theorem Filed.has {t : Table L.schema} (h : t.Filed) {d : δ} (hd : d ∈ t.documents) :
    t.Has (L.key d) := by
  obtain ⟨r, hr, rfl⟩ := List.mem_map.mp hd
  exact ⟨r, hr, h r hr⟩

theorem Filed.put {t : Table L.schema} (h : t.Filed) (d : δ) : (t.put d).Filed := by
  intro r hr
  rcases mem_upsert.mp hr with ⟨hr, -⟩ | rfl
  · exact h r hr
  · have hkey := t.key_stored (L.row d)
    unfold stored at hkey ⊢
    cases hfind : t.find? (L.schema.key (L.row d)) with
    | none => rfl
    | some old =>
        rw [hfind] at hkey
        exact hkey

end NetForge.Calculus.Table
