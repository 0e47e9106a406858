import NetForge.Calculus.Table

/-! # Documents with extracted columns

A table may store a document next to columns extracted from it. Some columns are
written with every upsert, others only when the row is inserted; queries read the
columns, clients get the document. As long as no upsert changes what the fixed
columns extract, columns and documents agree, and the table is a map from keys to
documents.
-/

namespace NetForge.Calculus

/-- How the columns of a row are extracted from its document. -/
structure Layout (δ κ φ μ : Type) where
  key : δ → κ
  fixed : δ → φ
  mutable : δ → μ

structure Row (δ κ φ μ : Type) where
  key : κ
  fixed : φ
  mutable : μ
  document : δ

variable {δ κ φ μ : Type}

namespace Layout

def row (L : Layout δ κ φ μ) (d : δ) : Row δ κ φ μ := ⟨L.key d, L.fixed d, L.mutable d, d⟩

/-- The update clause leaves the key and the fixed columns as they were inserted. -/
def schema (_ : Layout δ κ φ μ) : Schema (Row δ κ φ μ) κ where
  key := Row.key
  onConflict := fun old new => { old with mutable := new.mutable, document := new.document }
  key_onConflict := fun _ _ _ => rfl

end Layout

namespace Table

variable {L : Layout δ κ φ μ}

def Agrees (t : Table L.schema) : Prop := ∀ r ∈ t.rows, r = L.row r.document

def Stores (t : Table L.schema) (d : δ) : Prop := L.row d ∈ t.rows

def documents (t : Table L.schema) : List δ := t.rows.map Row.document

theorem agrees_empty : (empty : Table L.schema).Agrees := by simp [Agrees]

theorem not_stores_empty (d : δ) : ¬ (empty : Table L.schema).Stores d := by simp [Stores]

theorem Stores.eq_of_key {t : Table L.schema} {d e : δ} (hd : t.Stores d) (he : t.Stores e)
    (h : L.key d = L.key e) : d = e := by
  have hrow : L.row d = L.row e := Table.eq_of_key hd he h
  exact congrArg Row.document hrow

theorem Agrees.stores {t : Table L.schema} (h : t.Agrees) {r : Row δ κ φ μ} (hr : r ∈ t.rows) :
    t.Stores r.document := by
  unfold Stores
  rw [← h r hr]
  exact hr

/-- Storing `d` keeps the columns truthful: no stored document of the same key
has other fixed columns. -/
def Settles (t : Table L.schema) (d : δ) : Prop :=
  ∀ e, t.Stores e → L.key e = L.key d → L.fixed e = L.fixed d

theorem settles_of_fresh {t : Table L.schema} {d : δ}
    (h : ∀ e, t.Stores e → L.key e ≠ L.key d) : t.Settles d :=
  fun e he hk => absurd hk (h e he)

theorem settles_of_update {t : Table L.schema} {d old : δ} (hold : t.Stores old)
    (hkey : L.key old = L.key d) (hfix : L.fixed old = L.fixed d) : t.Settles d := by
  intro e he hk
  rw [he.eq_of_key hold (hk.trans hkey.symm), hfix]

theorem Agrees.mem_documents {t : Table L.schema} (h : t.Agrees) {d : δ} :
    d ∈ t.documents ↔ t.Stores d := by
  constructor
  · intro hd
    obtain ⟨r, hr, rfl⟩ := List.mem_map.mp hd
    exact h.stores hr
  · intro hd
    exact List.mem_map.mpr ⟨L.row d, hd, rfl⟩

/-! ## Ordered queries -/

section Queries

variable {τ : Type} [LinearOrder τ] {f : Row δ κ φ μ → τ} {p : Row δ κ φ μ → Bool}

theorem Agrees.of_mem_query {t : Table L.schema} (h : t.Agrees) {rows : List (Row δ κ φ μ)}
    (hrows : ∀ r ∈ rows, r ∈ orderByDesc f (t.rows.filter p)) {d : δ}
    (hd : d ∈ rows.map Row.document) : t.Stores d ∧ p (L.row d) = true ∧ L.row d ∈ rows := by
  obtain ⟨r, hr, rfl⟩ := List.mem_map.mp hd
  obtain ⟨hmem, hp⟩ := List.mem_filter.mp (mem_orderByDesc.mp (hrows r hr))
  have hrow := h r hmem
  refine ⟨h.stores hmem, ?_, ?_⟩
  · rw [← hrow]
    exact hp
  · rw [← hrow]
    exact hr

/-- A query with `LIMIT 1` finds a stored document that satisfies its clause. -/
theorem Agrees.of_first {t : Table L.schema} (h : t.Agrees) {d : δ}
    (hd : ((orderByDesc f (t.rows.filter p)).head?).map Row.document = some d) :
    t.Stores d ∧ p (L.row d) = true := by
  obtain ⟨r, hr, rfl⟩ := Option.map_eq_some_iff.mp hd
  have hmem := List.mem_of_mem_head? hr
  obtain ⟨hs, hp, _⟩ := h.of_mem_query (f := f) (p := p) (fun _ hq => hq)
    (List.mem_map_of_mem hmem)
  exact ⟨hs, hp⟩

theorem Agrees.first_eq_none {t : Table L.schema} (h : t.Agrees) :
    ((orderByDesc f (t.rows.filter p)).head?).map Row.document = none ↔
      ∀ d, t.Stores d → p (L.row d) = false := by
  rw [Option.map_eq_none_iff, List.head?_eq_none_iff]
  constructor
  · intro he d hd
    by_contra hp
    have hmem : L.row d ∈ orderByDesc f (t.rows.filter p) :=
      mem_orderByDesc.mpr (List.mem_filter.mpr ⟨hd, by simpa using hp⟩)
    rw [he] at hmem
    exact List.not_mem_nil hmem
  · intro hall
    refine List.eq_nil_iff_forall_not_mem.mpr fun r hr => ?_
    obtain ⟨hmem, hp⟩ := List.mem_filter.mp (mem_orderByDesc.mp hr)
    have hnot := hall r.document (h.stores hmem)
    rw [← h r hmem, hp] at hnot
    contradiction

theorem Agrees.page_nodup {t : Table L.schema} (h : t.Agrees) (n : Nat) :
    ((((orderByDesc f (t.rows.filter p)).take n).map Row.document).map L.key).Nodup := by
  have keys : (((orderByDesc f (t.rows.filter p)).take n).map Row.key).Nodup := by
    have sorted : ((orderByDesc f (t.rows.filter p)).map Row.key).Nodup :=
      ((orderByDesc_perm f _).map Row.key).nodup_iff.mpr
        (t.nodup.sublist (List.filter_sublist.map Row.key))
    exact sorted.sublist ((List.take_sublist n _).map Row.key)
  have same : ∀ r ∈ (orderByDesc f (t.rows.filter p)).take n,
      (L.key ∘ Row.document) r = r.key := by
    intro r hr
    have hmem := (List.mem_filter.mp (mem_orderByDesc.mp (List.mem_of_mem_take hr))).1
    exact (congrArg Row.key (h r hmem)).symm
  rw [List.map_map, List.map_congr_left same]
  exact keys

/-- A page holds every matching document exactly when they are no more than the
page's rows. -/
theorem Agrees.page_complete {t : Table L.schema} (h : t.Agrees) (n : Nat) :
    (∀ d, t.Stores d → p (L.row d) → d ∈ ((orderByDesc f (t.rows.filter p)).take n).map
      Row.document) ↔ (t.documents.filter fun d => p (L.row d)).length ≤ n := by
  have count : (t.documents.filter fun d => p (L.row d)).length =
      (orderByDesc f (t.rows.filter p)).length := by
    rw [length_orderByDesc, documents, List.filter_map, List.length_map]
    refine congrArg List.length (List.filter_congr fun r hr => ?_)
    exact congrArg p (h r hr).symm
  rw [count]
  constructor
  · intro complete
    have nodup : (orderByDesc f (t.rows.filter p)).Nodup :=
      (orderByDesc_perm f _).nodup_iff.mpr ((List.Nodup.of_map _ t.nodup).filter p)
    have covered : orderByDesc f (t.rows.filter p) ⊆ (orderByDesc f (t.rows.filter p)).take n := by
      intro r hr
      obtain ⟨hmem, hp⟩ := List.mem_filter.mp (mem_orderByDesc.mp hr)
      have hrow := h r hmem
      have hpage := complete r.document (h.stores hmem) (hrow ▸ hp)
      obtain ⟨_, _, hrow'⟩ := h.of_mem_query (fun _ hq => List.mem_of_mem_take hq) hpage
      exact hrow ▸ hrow'
    exact (List.subperm_of_subset nodup covered).length_le.trans (List.length_take_le _ _)
  · intro hle d hd hp
    rw [List.take_of_length_le hle]
    exact List.mem_map.mpr ⟨L.row d, mem_orderByDesc.mpr (List.mem_filter.mpr ⟨hd, hp⟩), rfl⟩

end Queries

variable [DecidableEq κ]

def document? (t : Table L.schema) (k : κ) : Option δ := (t.find? k).map Row.document

theorem Agrees.document?_eq_some {t : Table L.schema} (h : t.Agrees) {k : κ} {d : δ} :
    t.document? k = some d ↔ t.Stores d ∧ L.key d = k := by
  constructor
  · intro hd
    obtain ⟨r, hr, rfl⟩ := Option.map_eq_some_iff.mp hd
    obtain ⟨hmem, hkey⟩ := find?_eq_some.mp hr
    refine ⟨h.stores hmem, ?_⟩
    rw [h r hmem] at hkey
    exact hkey
  · rintro ⟨hd, rfl⟩
    have hf : t.find? (L.key d) = some (L.row d) := find?_eq_some.mpr ⟨hd, rfl⟩
    simp [document?, hf, Layout.row]

def put (t : Table L.schema) (d : δ) : Table L.schema := t.upsert (L.row d)

theorem Agrees.stored_row {t : Table L.schema} (h : t.Agrees) {d : δ} (hd : t.Settles d) :
    t.stored (L.row d) = L.row d := by
  unfold stored
  cases hf : t.find? (L.schema.key (L.row d)) with
  | none => rfl
  | some old =>
      obtain ⟨hmem, hkey⟩ := find?_eq_some.mp hf
      have hrow := h old hmem
      have hk : L.key old.document = L.key d := by
        rw [hrow] at hkey
        exact hkey
      have hfix := hd old.document (h.stores hmem) hk
      rw [hrow]
      simp only [Layout.schema, Layout.row, hk, hfix]

theorem Agrees.put {t : Table L.schema} (h : t.Agrees) {d : δ} (hd : t.Settles d) :
    (t.put d).Agrees := by
  intro r hr
  rcases mem_upsert.mp hr with ⟨hr, _⟩ | rfl
  · exact h r hr
  · rw [h.stored_row hd]
    rfl

theorem Agrees.stores_put {t : Table L.schema} (h : t.Agrees) {d e : δ} (hd : t.Settles d) :
    (t.put d).Stores e ↔ e = d ∨ (t.Stores e ∧ L.key e ≠ L.key d) := by
  unfold Stores Table.put
  rw [mem_upsert, h.stored_row hd]
  constructor
  · rintro (hr | hr)
    · exact .inr hr
    · exact .inl (congrArg Row.document hr)
  · rintro (rfl | hr)
    · exact .inr rfl
    · exact .inl hr

/-! ## Updating a list of documents -/

/-- Documents `d` of `ds` replaced by `u d`, one after the other. -/
def putAll (u : δ → δ) (t : Table L.schema) (ds : List δ) : Table L.schema :=
  ds.foldl (fun t d => t.put (u d)) t

theorem Agrees.putAll {u : δ → δ} (hkey : ∀ d, L.key (u d) = L.key d)
    (hfix : ∀ d, L.fixed (u d) = L.fixed d) {ds : List δ} {t : Table L.schema} (h : t.Agrees)
    (hds : ∀ d ∈ ds, t.Stores d) (hnodup : (ds.map L.key).Nodup) :
    (t.putAll u ds).Agrees ∧ ∀ e, (t.putAll u ds).Stores e ↔
      (∃ d ∈ ds, e = u d) ∨ (t.Stores e ∧ ∀ d ∈ ds, L.key e ≠ L.key d) := by
  induction ds generalizing t with
  | nil => simpa [Table.putAll] using h
  | cons d ds ih =>
      obtain ⟨hnot, htail⟩ := List.nodup_cons.mp hnodup
      have hsettles : t.Settles (u d) :=
        settles_of_update (hds d (by simp)) (hkey d).symm (hfix d).symm
      have hput := h.put hsettles
      have hstores : ∀ e, (t.put (u d)).Stores e ↔ e = u d ∨ (t.Stores e ∧ L.key e ≠ L.key d) := by
        intro e
        rw [h.stores_put hsettles, hkey d]
      have apart : ∀ d' ∈ ds, L.key d' ≠ L.key d := by
        intro d' hd' he
        exact hnot (he ▸ List.mem_map_of_mem hd')
      have hrest : ∀ d' ∈ ds, (t.put (u d)).Stores d' := fun d' hd' =>
        (hstores d').mpr (.inr ⟨hds d' (by simp [hd']), apart d' hd'⟩)
      obtain ⟨hagrees, hall⟩ := ih hput hrest htail
      refine ⟨hagrees, fun e => ?_⟩
      rw [Table.putAll, List.foldl_cons]
      refine (hall e).trans ?_
      rw [hstores e]
      constructor
      · rintro (⟨d', hd', rfl⟩ | ⟨rfl | ⟨he, hk⟩, hne⟩)
        · exact .inl ⟨d', by simp [hd'], rfl⟩
        · exact .inl ⟨d, by simp, rfl⟩
        · exact .inr ⟨he, by simpa using ⟨hk, hne⟩⟩
      · rintro (⟨d', hd', rfl⟩ | ⟨he, hne⟩)
        · rcases List.mem_cons.mp hd' with rfl | hd'
          · refine .inr ⟨.inl rfl, fun d'' hd'' => ?_⟩
            rw [hkey]
            exact fun heq => apart d'' hd'' heq.symm
          · exact .inl ⟨d', hd', rfl⟩
        · exact .inr ⟨.inr ⟨he, hne d (by simp)⟩, fun d' hd' => hne d' (by simp [hd'])⟩

/-- Retiring the listed documents retires exactly the live documents of an owner
when the live documents listed are exactly the owner's. -/
theorem Agrees.retire_iff {u : δ → δ} (live mine : δ → Prop)
    (hkey : ∀ d, L.key (u d) = L.key d) (hfix : ∀ d, L.fixed (u d) = L.fixed d)
    (hdead : ∀ d, ¬ live (u d)) (howner : ∀ d, mine (u d) ↔ mine d) {ds : List δ}
    {t : Table L.schema} (h : t.Agrees)
    (hds : ∀ d ∈ ds, t.Stores d ∧ live d) (hnodup : (ds.map L.key).Nodup) :
    ((∀ e, (t.putAll u ds).Stores e → mine e → ¬ live e) ∧
        ∀ e, ¬ mine e → ((t.putAll u ds).Stores e ↔ t.Stores e)) ↔
      ∀ e, t.Stores e → live e → (e ∈ ds ↔ mine e) := by
  have after := (h.putAll hkey hfix (fun d hd => (hds d hd).1) hnodup).2
  -- A stored document is listed when its key is.
  have listed : ∀ e, t.Stores e → ∀ d ∈ ds, L.key e = L.key d → e ∈ ds := by
    intro e he d hd hk
    rw [he.eq_of_key (hds d hd).1 hk]
    exact hd
  constructor
  · rintro ⟨retired, frame⟩ e he hlive
    constructor
    · intro hlisted
      by_contra hother
      rcases (after e).mp ((frame e hother).mpr he) with ⟨d, _, rfl⟩ | ⟨_, hne⟩
      · exact hdead d hlive
      · exact hne e hlisted rfl
    · intro hmine
      by_contra hunlisted
      refine retired e ((after e).mpr (.inr ⟨he, fun d hd hk => ?_⟩)) hmine hlive
      exact hunlisted (listed e he d hd hk)
  · intro exact_
    constructor
    · intro e he hmine hlive
      rcases (after e).mp he with ⟨d, _, rfl⟩ | ⟨he, hne⟩
      · exact hdead d hlive
      · exact hne e ((exact_ e he hlive).mpr hmine) rfl
    · intro e hother
      constructor
      · intro he
        rcases (after e).mp he with ⟨d, hd, rfl⟩ | ⟨he, _⟩
        · obtain ⟨hst, hlive⟩ := hds d hd
          exact absurd ((howner d).mpr ((exact_ d hst hlive).mp hd)) hother
        · exact he
      · intro he
        refine (after e).mpr (.inr ⟨he, fun d hd hk => hother ?_⟩)
        have hmem := listed e he d hd hk
        exact (exact_ e he (hds e hmem).2).mp hmem

end Table

end NetForge.Calculus
