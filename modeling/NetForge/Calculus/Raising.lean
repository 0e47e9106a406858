/-! # What a computation raises

Bounds on the exceptions of a computation, without and with a state. A sequence
raises what its first part raises, or what the rest raises on a result of the
first part, and nothing else: the rules below are equivalences, so a bound is
computed from the outside in and nothing is lost.
-/

namespace NetForge.Calculus

universe u

variable {ε σ : Type u} {α β : Type u} {E : ε → Prop}

/-! ## Without a state -/

def Raises (E : ε → Prop) (x : Except ε α) : Prop := ∀ e, x = .error e → E e

@[simp] theorem raises_ok (a : α) : Raises E (.ok a : Except ε α) := by
  intro e he
  cases he

@[simp] theorem raises_pure (a : α) : Raises E (pure a : Except ε α) := raises_ok a

@[simp] theorem raises_error (e : ε) : Raises E (.error e : Except ε α) ↔ E e := by
  constructor
  · intro h
    exact h e rfl
  · intro h e' he
    cases he
    exact h

theorem raises_bind {x : Except ε α} {f : α → Except ε β} :
    Raises E (x >>= f) ↔ Raises E x ∧ ∀ a, x = .ok a → Raises E (f a) := by
  cases x with
  | ok a =>
      constructor
      · intro h
        refine ⟨raises_ok a, fun b hb => ?_⟩
        cases hb
        exact h
      · rintro ⟨-, h⟩
        exact h a rfl
  | error e =>
      have hseq : (Except.error e >>= f) = .error e := rfl
      rw [hseq, raises_error, raises_error]
      constructor
      · intro h
        refine ⟨h, fun b hb => ?_⟩
        cases hb
      · rintro ⟨h, -⟩
        exact h

theorem Raises.mono {F : ε → Prop} {x : Except ε α} (h : Raises E x) (imp : ∀ e, E e → F e) :
    Raises F x := fun e he => imp e (h e he)

/-- When none of its exceptions is allowed, a computation has to return. -/
theorem raises_iff_ok {F : ε → Prop} {x : Except ε α} (h : Raises F x)
    (disjoint : ∀ e, F e → ¬ E e) : Raises E x ↔ ∃ a, x = .ok a := by
  cases x with
  | ok a => simp
  | error e =>
      have hF : F e := (raises_error e).mp h
      simp [disjoint e hF]

theorem raises_mapM {γ : Type u} {f : γ → Except ε α} {xs : List γ}
    (h : ∀ x ∈ xs, Raises E (f x)) : Raises E (xs.mapM f) := by
  induction xs with
  | nil => exact raises_ok []
  | cons x xs ih =>
      rw [List.mapM_cons]
      refine raises_bind.mpr ⟨h x List.mem_cons_self, fun a _ => ?_⟩
      refine raises_bind.mpr ⟨ih fun y hy => h y (List.mem_cons_of_mem _ hy), fun as _ => ?_⟩
      exact raises_ok _

/-- A traversal that returns has one result for each item. -/
theorem length_of_mapM_ok.{v, w, x} {γ : Type v} {δ : Type w} {η : Type x} {f : γ → Except η δ}
    {xs : List γ} {ys : List δ} (h : xs.mapM f = .ok ys) : ys.length = xs.length := by
  induction xs generalizing ys with
  | nil =>
      rw [List.mapM_nil] at h
      cases h
      rfl
  | cons c xs ih =>
      rw [List.mapM_cons] at h
      cases hc : f c with
      | error e =>
          rw [hc] at h
          cases h
      | ok d =>
          cases hxs : xs.mapM f with
          | error e =>
              rw [hc, hxs] at h
              cases h
          | ok ds =>
              rw [hc, hxs] at h
              cases h
              rw [List.length_cons, List.length_cons, ih hxs]

/-! ## With a state -/

def Ends (x : EStateM ε σ α) (s : σ) (Q : α → σ → Prop) (E : ε → σ → Prop) : Prop :=
  match x s with
  | .ok a s' => Q a s'
  | .error e s' => E e s'

def final (x : EStateM ε σ α) (s : σ) : σ :=
  match x s with
  | .ok _ s' => s'
  | .error _ s' => s'

section

variable {x : EStateM ε σ α} {s : σ} {Q : α → σ → Prop} {R : ε → σ → Prop}

theorem final_of_ok {a : α} {s' : σ} (h : x s = .ok a s') : final x s = s' := by
  unfold final
  rw [h]

theorem final_of_error {e : ε} {s' : σ} (h : x s = .error e s') : final x s = s' := by
  unfold final
  rw [h]

/-- The rest of a sequence runs in the state its first part returned in. -/
theorem bind_run_ok {f : α → EStateM ε σ β} {a : α} {s' : σ} (h : x s = .ok a s') :
    (x >>= f) s = f a s' := by
  show EStateM.bind x f s = _
  simp only [EStateM.bind, h]

theorem bind_run_error {f : α → EStateM ε σ β} {e : ε} {s' : σ} (h : x s = .error e s') :
    (x >>= f) s = .error e s' := by
  show EStateM.bind x f s = _
  simp only [EStateM.bind, h]

theorem final_bind_ok {f : α → EStateM ε σ β} {a : α} {s' : σ} (h : x s = .ok a s') :
    final (x >>= f) s = final (f a) s' := by
  unfold final
  rw [bind_run_ok h]

theorem final_bind_error {f : α → EStateM ε σ β} {e : ε} {s' : σ} (h : x s = .error e s') :
    final (x >>= f) s = s' := final_of_error (bind_run_error h)

/-- A sequence whose rest never touches the state leaves what its first part does. -/
theorem final_bind_inert {f : α → EStateM ε σ β} (hf : ∀ a s, final (f a) s = s) :
    final (x >>= f) s = final x s := by
  cases h : x s with
  | ok a s' => rw [final_bind_ok h, final_of_ok h, hf a s']
  | error e s' => rw [final_bind_error h, final_of_error h]

theorem ends_of_ok {a : α} {s' : σ} (h : x s = .ok a s') : Ends x s Q R ↔ Q a s' := by
  unfold Ends
  rw [h]

theorem ends_of_error {e : ε} {s' : σ} (h : x s = .error e s') : Ends x s Q R ↔ R e s' := by
  unfold Ends
  rw [h]

theorem ends_bind {f : α → EStateM ε σ β} {Q : β → σ → Prop} :
    Ends (x >>= f) s Q R ↔ Ends x s (fun a s' => Ends (f a) s' Q R) R := by
  cases h : x s with
  | ok a s' =>
      rw [ends_of_ok h]
      unfold Ends
      rw [bind_run_ok h]
  | error e s' => rw [ends_of_error h, ends_of_error (bind_run_error h)]

theorem Ends.mono {Q' : α → σ → Prop} {R' : ε → σ → Prop} (h : Ends x s Q R)
    (hq : ∀ a s', Q a s' → Q' a s') (hr : ∀ e s', R e s' → R' e s') : Ends x s Q' R' := by
  cases hx : x s with
  | ok a s' => exact (ends_of_ok hx).mpr (hq a s' ((ends_of_ok hx).mp h))
  | error e s' => exact (ends_of_error hx).mpr (hr e s' ((ends_of_error hx).mp h))

/-! ### The exceptions -/

def RaisesAt (E : ε → Prop) (x : EStateM ε σ α) (s : σ) : Prop :=
  Ends x s (fun _ _ => True) fun e _ => E e

theorem raisesAt_of_ok {a : α} {s' : σ} (h : x s = .ok a s') : RaisesAt E x s :=
  (ends_of_ok h).mpr trivial

theorem raisesAt_of_error {e : ε} {s' : σ} (h : x s = .error e s') : RaisesAt E x s ↔ E e :=
  ends_of_error h

theorem RaisesAt.mono {F : ε → Prop} (h : RaisesAt E x s) (imp : ∀ e, E e → F e) :
    RaisesAt F x s := Ends.mono h (fun _ _ h => h) fun e _ => imp e

@[simp] theorem raisesAt_pure (a : α) (s : σ) : RaisesAt E (pure a : EStateM ε σ α) s :=
  raisesAt_of_ok rfl

@[simp] theorem raisesAt_throw (e : ε) (s : σ) :
    RaisesAt E (throw e : EStateM ε σ α) s ↔ E e := raisesAt_of_error rfl

theorem raisesAt_bind {f : α → EStateM ε σ β} :
    RaisesAt E (x >>= f) s ↔
      RaisesAt E x s ∧ ∀ a s', x s = .ok a s' → RaisesAt E (f a) s' := by
  unfold RaisesAt
  rw [ends_bind]
  cases h : x s with
  | ok a s' => simp [ends_of_ok h]
  | error e s' => simp [ends_of_error h]

theorem raisesAt_bind_ok {f : α → EStateM ε σ β} {a : α} {s' : σ} (h : x s = .ok a s') :
    RaisesAt E (x >>= f) s ↔ RaisesAt E (f a) s' := by
  unfold RaisesAt
  rw [ends_bind, ends_of_ok h]

end

-- Bounds are computed by these rules, never by running the computation.
attribute [irreducible] RaisesAt

/-! ### The state -/

/-- Whether it returns or raises, the computation keeps the invariant. -/
def Keeps (I : σ → Prop) (x : EStateM ε σ α) : Prop :=
  ∀ s, I s → Ends x s (fun _ => I) fun _ => I

variable {I : σ → Prop} {x : EStateM ε σ α}

theorem Keeps.final (h : Keeps I x) {s : σ} (hs : I s) : I (final x s) := by
  have hends := h s hs
  unfold Ends at hends
  unfold Calculus.final
  cases hx : x s with
  | ok a s' =>
      rw [hx] at hends
      exact hends
  | error e s' =>
      rw [hx] at hends
      exact hends

theorem Keeps.of_ok (h : Keeps I x) {s s' : σ} {a : α} (hs : I s) (hx : x s = .ok a s') : I s' :=
  (ends_of_ok hx).mp (h s hs)

theorem Keeps.of_error (h : Keeps I x) {s s' : σ} {e : ε} (hs : I s) (hx : x s = .error e s') :
    I s' := (ends_of_error hx).mp (h s hs)

theorem keeps_pure (a : α) : Keeps I (pure a : EStateM ε σ α) := fun _ hs => hs

theorem keeps_throw (e : ε) : Keeps I (throw e : EStateM ε σ α) := fun _ hs => hs

theorem keeps_bind {f : α → EStateM ε σ β} (hx : Keeps I x) (hf : ∀ a, Keeps I (f a)) :
    Keeps I (x >>= f) := by
  intro s hs
  exact ends_bind.mpr ((hx s hs).mono (fun a s' hs' => hf a s' hs') fun _ _ hs' => hs')

/-- A sequence whose first part keeps an invariant goes on from it. -/
theorem Keeps.ends_bind (hx : Keeps I x) {s : σ} (hs : I s) {f : α → EStateM ε σ β}
    {Q : β → σ → Prop} {R : ε → σ → Prop} (hf : ∀ a s', I s' → Ends (f a) s' Q R)
    (hr : ∀ e s', I s' → R e s') : Ends (x >>= f) s Q R :=
  Calculus.ends_bind.mpr ((hx s hs).mono hf hr)

end NetForge.Calculus
