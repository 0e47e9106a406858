import NetForge.Calculus.Extension
import NetForge.Calculus.Interleaving

/-! # What a program has read stays true

Clients share a state of which some part only grows: every one of them keeps an
invariant and moves the state along a preorder. What a program knows of a state
holds of all later ones then, so a judgement about a program names only the state
from which its knowledge stems, and is kept by every growth of it.
-/

namespace NetForge.Calculus

variable {σ : Type} {I : Interface σ} {α β ι : Type}

/-- An invariant and the preorder along which the state grows. -/
structure Growth (σ : Type) where
  Inv : σ → Prop
  Ext : σ → σ → Prop
  refl : ∀ s, Ext s s
  trans : ∀ s t u, Ext s t → Ext t u → Ext s u

/-- A call that keeps the invariant and lets the state grow. -/
def Growth.Keeps (G : Growth σ) (I : Interface σ) (c : I.Call) (s : σ) : Prop :=
  G.Inv (I.perform c s).2 ∧ G.Ext s (I.perform c s).2

namespace Program

/-- In whatever states that have grown from `s` its calls are made, they keep the
invariant, and the result satisfies `Q`. -/
def Grown (G : Growth σ) (Q : α → σ → Prop) : Program I α → σ → Prop
  | done a, s => ∀ t, G.Inv t → G.Ext s t → Q a t
  | call c next, s => ∀ t, G.Inv t → G.Ext s t →
      G.Keeps I c t ∧ (next (I.perform c t).1).Grown G Q (I.perform c t).2

variable {G : Growth σ} {Q : α → σ → Prop} {R : β → σ → Prop} {s : σ}

theorem Grown.of_ext {p : Program I α} {t : σ} (h : p.Grown G Q s) (hst : G.Ext s t) :
    p.Grown G Q t := by
  cases p with
  | done a => exact fun u hu htu => h u hu (G.trans _ _ _ hst htu)
  | call c next => exact fun u hu htu => h u hu (G.trans _ _ _ hst htu)

theorem Grown.of_inv {p : Program I α} (h : ∀ t, G.Inv t → G.Ext s t → p.Grown G Q t) :
    p.Grown G Q s := by
  cases p with
  | done a => exact fun t ht hst => h t ht hst t ht (G.refl t)
  | call c next => exact fun t ht hst => h t ht hst t ht (G.refl t)

/-- A call that keeps the invariant, followed by the rest of the program. -/
theorem Grown.request {c : I.Call} {f : I.Reply c → Program I α}
    (keep : ∀ t, G.Inv t → G.Ext s t → G.Keeps I c t)
    (h : ∀ t, G.Inv t → G.Ext s t → (f (I.perform c t).1).Grown G Q (I.perform c t).2) :
    (Program.request c >>= f).Grown G Q s := fun t ht hst => ⟨keep t ht hst, h t ht hst⟩

theorem Grown.bind {p : Program I β} {f : β → Program I α} (hp : p.Grown G R s)
    (hf : ∀ b t, G.Inv t → G.Ext s t → R b t → (f b).Grown G Q t) : (p >>= f).Grown G Q s := by
  induction p generalizing s with
  | done b => exact .of_inv fun t ht hst => hf b t ht hst (hp t ht hst)
  | call c next ih =>
      intro t ht hst
      obtain ⟨hkeep, hrest⟩ := hp t ht hst
      refine ⟨hkeep, ih _ hrest ?_⟩
      intro b u hu htu
      exact hf b u hu (G.trans _ _ _ hst (G.trans _ _ _ hkeep.2 htu))

theorem Grown.mono {Q' : α → σ → Prop} {p : Program I α} (h : p.Grown G Q s)
    (imp : ∀ a t, G.Inv t → G.Ext s t → Q a t → Q' a t) : p.Grown G Q' s := by
  induction p generalizing s with
  | done a => exact fun t ht hst => imp a t ht hst (h t ht hst)
  | call c next ih =>
      intro t ht hst
      obtain ⟨hkeep, hrest⟩ := h t ht hst
      refine ⟨hkeep, ih _ hrest ?_⟩
      intro a u hu htu
      exact imp a u hu (G.trans _ _ _ hst (G.trans _ _ _ hkeep.2 htu))

/-- Loop rule: `J` is kept by the body, and by every growth of the state. -/
theorem Grown.fold {body : β → α → Program I β} {J : β → σ → Prop} {xs : List α} {acc : β}
    (step : ∀ acc, ∀ x ∈ xs, ∀ t, G.Inv t → G.Ext s t → J acc t → (body acc x).Grown G J t)
    (grow : ∀ acc t u, G.Ext t u → J acc t → J acc u) (hacc : J acc s) :
    (Program.fold body acc xs).Grown G J s := by
  induction xs generalizing acc s with
  | nil => exact fun t _ hst => grow acc s t hst hacc
  | cons x xs ih =>
      have hfirst : (body acc x).Grown G J s := .of_inv fun t ht hst =>
        step acc x List.mem_cons_self t ht hst (grow _ _ _ hst hacc)
      apply hfirst.bind
      intro acc' t ht hst hacc'
      apply ih _ hacc'
      intro acc'' y hy u hu htu
      exact step acc'' y (List.mem_cons_of_mem _ hy) u hu (G.trans _ _ _ hst htu)

theorem Calls.grown {P : I.Call → Prop} {p : Program I α} (h : p.Calls P)
    (keep : ∀ c s, P c → G.Inv s → G.Keeps I c s) : p.Grown G (fun _ _ => True) s := by
  induction p generalizing s with
  | done a => exact fun _ _ _ => trivial
  | call c next ih => exact fun t ht _ => ⟨keep c t h.1 ht, ih _ (h.2 _)⟩

theorem Grown.inl {J : Interface σ} {p : Program I α} (h : p.Grown G Q s) :
    (p.inl (J := J)).Grown G Q s := by
  induction p generalizing s with
  | done a => exact h
  | call c next ih =>
      intro t ht hst
      obtain ⟨hkeep, hrest⟩ := h t ht hst
      exact ⟨hkeep, ih _ hrest⟩

end Program

namespace Config

variable [DecidableEq ι] {G : Growth σ} {Q : ι → α → σ → Prop}

structure AllGrown (G : Growth σ) (Q : ι → α → σ → Prop) (cfg : Config ι I α) : Prop where
  inv : G.Inv cfg.state
  threads : ∀ i, (cfg.thread i).Grown G (Q i) cfg.state

theorem AllGrown.step {cfg : Config ι I α} (h : AllGrown G Q cfg) (i : ι) :
    AllGrown G Q (cfg.step i) ∧ G.Ext cfg.state (cfg.step i).state := by
  cases hi : cfg.thread i with
  | done a =>
      rw [step_of_done hi]
      exact ⟨h, G.refl _⟩
  | call c next =>
      have mine := h.threads i
      rw [hi] at mine
      obtain ⟨hkeep, hrest⟩ := mine cfg.state h.inv (G.refl _)
      rw [step_of_call hi]
      refine ⟨⟨hkeep.1, ?_⟩, hkeep.2⟩
      intro j
      by_cases hj : j = i
      · subst hj
        simpa only [Function.update_self] using hrest
      · simpa only [Function.update_of_ne hj] using (h.threads j).of_ext hkeep.2

/-- Run rule: every interleaving keeps the invariant and lets the state grow. -/
theorem AllGrown.run {cfg : Config ι I α} (h : AllGrown G Q cfg) (is : List ι) :
    AllGrown G Q (cfg.run is) ∧ G.Ext cfg.state (cfg.run is).state := by
  induction is generalizing cfg with
  | nil => exact ⟨h, G.refl _⟩
  | cons i is ih =>
      obtain ⟨hstep, hext⟩ := h.step i
      obtain ⟨hend, hrest⟩ := ih hstep
      exact ⟨hend, G.trans _ _ _ hext hrest⟩

omit [DecidableEq ι] in
theorem AllGrown.post {cfg : Config ι I α} (h : AllGrown G Q cfg) {i : ι} {a : α}
    (hi : cfg.thread i = .done a) : Q i a cfg.state := by
  have mine := h.threads i
  rw [hi] at mine
  exact mine cfg.state h.inv (G.refl _)

end Config

end NetForge.Calculus
