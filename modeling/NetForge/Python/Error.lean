/-! # Python exceptions

The exceptions the modelled code raises, and the indexing that raises them.
Messages written by the program are kept; those of built-in operations are the
interpreter's own.
-/

namespace NetForge.Python

inductive PyError
  /-- `ingest.snmp_engine.SnmpError`, a `RuntimeError`. -/
  | snmpError (message : String)
  /-- `ingest.asn1.BERError`, a `ValueError`. -/
  | berError (message : String)
  | valueError (message : String)
  | indexError
  | overflowError
  | typeError
  | attributeError
  /-- The computation does not end, so nothing is ever raised or returned. -/
  | diverges
  deriving DecidableEq, Repr

def PyError.isValueError : PyError → Bool
  | .valueError _ => true
  | .berError _ => true
  | _ => false

/-- `xs[i]` for an index that is not negative. -/
def index {α : Type} (xs : List α) (i : Nat) : Except PyError α :=
  match xs[i]? with
  | some x => .ok x
  | none => .error .indexError

theorem index_eq_ok_iff {α : Type} {xs : List α} {i : Nat} {x : α} :
    index xs i = .ok x ↔ xs[i]? = some x := by
  cases h : xs[i]? with
  | none => simp [index, h]
  | some y => simp [index, h]

/-- `xs[start : start + count]`. -/
def slice {α : Type} (xs : List α) (start count : Nat) : List α := (xs.drop start).take count

theorem slice_length {α : Type} (xs : List α) (start count : Nat) :
    (slice xs start count).length = min count (xs.length - start) := by
  simp [slice]

/-! ## Sequencing -/

theorem ok_of_bind {α β : Type} {first : Except PyError α} {rest : α → Except PyError β}
    {result : β} :
    (first >>= rest) = .ok result ↔ ∃ value, first = .ok value ∧ rest value = .ok result := by
  rcases first with e | value <;> simp [bind, Except.bind]

theorem ok_of_isOk {α : Type} {x : Except PyError α} (h : x.isOk = true) :
    ∃ value, x = .ok value := by
  cases x with
  | ok value => exact ⟨value, rfl⟩
  | error e => cases h

theorem ok_bind {α β : Type} (value : α) (rest : α → Except PyError β) :
    (Except.ok value >>= rest) = rest value := rfl

/-- A sequence raises an exception only where one of its two parts does. -/
theorem bind_ne_error {α β : Type} {first : Except PyError α} {rest : α → Except PyError β}
    {e : PyError} (hfirst : first ≠ .error e)
    (hrest : ∀ value, first = .ok value → rest value ≠ .error e) :
    (first >>= rest) ≠ .error e := by
  cases first with
  | error e' =>
      intro h
      cases h
      exact hfirst rfl
  | ok value => exact hrest value rfl

theorem mapM_ok {α β : Type} {f : α → Except PyError β} {g : α → β} {xs : List α}
    (h : ∀ x ∈ xs, f x = .ok (g x)) : xs.mapM f = .ok (xs.map g) := by
  induction xs with
  | nil => rfl
  | cons x xs ih =>
      have hx := h x List.mem_cons_self
      have hxs := ih fun y hy => h y (List.mem_cons_of_mem _ hy)
      rw [List.mapM_cons, hx, hxs]
      rfl

theorem ok_of_mapM {α β : Type} {f : α → Except PyError β} {g : α → β} {xs : List α}
    (h : xs.mapM f = .ok (xs.map g)) : ∀ x ∈ xs, f x = .ok (g x) := by
  induction xs with
  | nil => simp
  | cons x xs ih =>
      rw [List.mapM_cons] at h
      obtain ⟨y, hy, h⟩ := ok_of_bind.mp h
      obtain ⟨ys, hys, h⟩ := ok_of_bind.mp h
      have hcons : y :: ys = g x :: xs.map g := Except.ok.inj h
      obtain ⟨rfl, rfl⟩ := List.cons.inj hcons
      exact List.forall_mem_cons.mpr ⟨hy, ih hys⟩

/-- What holds of every single result holds of the results of a traversal. -/
theorem mapM_ok_forall {α β : Type} {f : α → Except PyError β} {P : β → Prop} {xs : List α}
    (h : ∀ x ∈ xs, ∃ y, f x = .ok y ∧ P y) : ∃ ys, xs.mapM f = .ok ys ∧ ∀ y ∈ ys, P y := by
  induction xs with
  | nil => exact ⟨[], rfl, by simp⟩
  | cons x xs ih =>
      obtain ⟨y, hy, hP⟩ := h x List.mem_cons_self
      obtain ⟨ys, hys, hPs⟩ := ih fun z hz => h z (List.mem_cons_of_mem _ hz)
      refine ⟨y :: ys, ?_, List.forall_mem_cons.mpr ⟨hP, hPs⟩⟩
      rw [List.mapM_cons, hy, hys]
      rfl

theorem mapM_isOk_iff {α β : Type} {f : α → Except PyError β} {xs : List α} :
    (∃ ys, xs.mapM f = .ok ys) ↔ ∀ x ∈ xs, ∃ y, f x = .ok y := by
  constructor
  · intro h
    induction xs with
    | nil => simp
    | cons x xs ih =>
        obtain ⟨ys, hys⟩ := h
        rw [List.mapM_cons] at hys
        obtain ⟨y, hy, hys⟩ := ok_of_bind.mp hys
        obtain ⟨rest, hrest, -⟩ := ok_of_bind.mp hys
        exact List.forall_mem_cons.mpr ⟨⟨y, hy⟩, ih ⟨rest, hrest⟩⟩
  · intro h
    obtain ⟨ys, hys, -⟩ := mapM_ok_forall (P := fun _ => True) fun x hx => by
      obtain ⟨y, hy⟩ := h x hx
      exact ⟨y, hy, trivial⟩
    exact ⟨ys, hys⟩

/-- Every result of a traversal is the result of one of its computations. -/
theorem exists_of_mem_mapM {α β : Type} {f : α → Except PyError β} {xs : List α} {ys : List β}
    (h : xs.mapM f = .ok ys) {y : β} (hy : y ∈ ys) : ∃ x ∈ xs, f x = .ok y := by
  induction xs generalizing ys with
  | nil =>
      obtain rfl : [] = ys := Except.ok.inj h
      simp at hy
  | cons x xs ih =>
      rw [List.mapM_cons] at h
      obtain ⟨y', hy', h⟩ := ok_of_bind.mp h
      obtain ⟨rest, hrest, h⟩ := ok_of_bind.mp h
      obtain rfl : y' :: rest = ys := Except.ok.inj h
      rcases List.mem_cons.mp hy with rfl | hmem
      · exact ⟨x, List.mem_cons_self, hy'⟩
      · obtain ⟨x', hx', hf⟩ := ih hrest hmem
        exact ⟨x', List.mem_cons_of_mem _ hx', hf⟩

theorem mem_mapM_of_mem {α β : Type} {f : α → Except PyError β} {xs : List α} {ys : List β}
    (h : xs.mapM f = .ok ys) {x : α} (hx : x ∈ xs) : ∃ y ∈ ys, f x = .ok y := by
  induction xs generalizing ys with
  | nil => cases hx
  | cons first xs ih =>
      rw [List.mapM_cons] at h
      obtain ⟨y, hy, h⟩ := ok_of_bind.mp h
      obtain ⟨rest, hrest, h⟩ := ok_of_bind.mp h
      obtain rfl : y :: rest = ys := Except.ok.inj h
      rcases List.mem_cons.mp hx with rfl | hmem
      · exact ⟨y, List.mem_cons_self, hy⟩
      · obtain ⟨y', hy', hf⟩ := ih hrest hmem
        exact ⟨y', List.mem_cons_of_mem _ hy', hf⟩

/-- A traversal in another order returns the same results in that order. -/
theorem mapM_perm {α β : Type} {f : α → Except PyError β} {xs xs' : List α} {ys : List β}
    (hperm : xs.Perm xs') (h : xs.mapM f = .ok ys) :
    ∃ ys', xs'.mapM f = .ok ys' ∧ ys.Perm ys' := by
  induction hperm generalizing ys with
  | nil => exact ⟨ys, h, .refl ys⟩
  | cons x _ ih =>
      rw [List.mapM_cons] at h
      obtain ⟨y, hy, h⟩ := ok_of_bind.mp h
      obtain ⟨rest, hrest, h⟩ := ok_of_bind.mp h
      obtain rfl : y :: rest = ys := Except.ok.inj h
      obtain ⟨rest', hrest', hperm⟩ := ih hrest
      refine ⟨y :: rest', ?_, hperm.cons y⟩
      rw [List.mapM_cons, hy, hrest']
      rfl
  | swap x x' xs =>
      rw [List.mapM_cons, List.mapM_cons] at h
      obtain ⟨y', hy', h⟩ := ok_of_bind.mp h
      obtain ⟨tail, htail, h⟩ := ok_of_bind.mp h
      obtain ⟨y, hy, htail⟩ := ok_of_bind.mp htail
      obtain ⟨rest, hrest, htail⟩ := ok_of_bind.mp htail
      obtain rfl : y :: rest = tail := Except.ok.inj htail
      obtain rfl : y' :: y :: rest = ys := Except.ok.inj h
      refine ⟨y :: y' :: rest, ?_, .swap y y' rest⟩
      rw [List.mapM_cons, List.mapM_cons, hy, hy', hrest]
      rfl
  | trans _ _ ih₁ ih₂ =>
      obtain ⟨ys₁, h₁, hperm₁⟩ := ih₁ h
      obtain ⟨ys₂, h₂, hperm₂⟩ := ih₂ h₁
      exact ⟨ys₂, h₂, hperm₁.trans hperm₂⟩

end NetForge.Python
