import NetForge.Calculus.Program
import Mathlib.Logic.Relation

/-! # Contracts of programs

A contract says what the other clients may do between two calls of a program
(`rely`), what each call of the program does (`guarantee`), and which calls are
considered at all (`admits`, a condition on the client's own log and on the
state the call is about to read). `Safe` is the contract read over a program
tree: it is the rule set for pre- and postconditions, with interference.
-/

namespace NetForge.Calculus

variable {σ : Type} {I : Interface σ} {α β : Type}

structure Contract (I : Interface σ) where
  rely : σ → σ → Prop
  guarantee : σ → σ → Prop
  admits : List (Event I) → I.Call → σ → Prop
  rely_refl : ∀ s, rely s s
  rely_trans : ∀ {s t u}, rely s t → rely t u → rely s u

namespace Program

/-- From `s`, whatever the environment does within `rely`, every admitted call
meets the guarantee and a result `a` is returned in a state that satisfies `Q`. -/
def Safe (K : Contract I) (Q : List (Event I) → α → σ → Prop) :
    Program I α → List (Event I) → σ → Prop
  | done a, log, s => ∀ t, K.rely s t → Q log a t
  | call c next, log, s => ∀ t, K.rely s t → K.admits log c t →
      K.guarantee t (I.perform c t).2 ∧
        (next (I.perform c t).1).Safe K Q (⟨c, (I.perform c t).1⟩ :: log) (I.perform c t).2

variable {K : Contract I}

theorem Safe.mono {Q Q' : List (Event I) → α → σ → Prop} {p : Program I α}
    {log : List (Event I)} {s : σ} (h : p.Safe K Q log s)
    (imp : ∀ log a t, Q log a t → Q' log a t) : p.Safe K Q' log s := by
  induction p generalizing log s with
  | done a => exact fun t ht => imp _ _ _ (h t ht)
  | call c next ih =>
      intro t ht hc
      obtain ⟨hg, hn⟩ := h t ht hc
      exact ⟨hg, ih _ hn⟩

theorem Safe.stable {Q : List (Event I) → α → σ → Prop} {p : Program I α}
    {log : List (Event I)} {s t : σ} (h : p.Safe K Q log s) (hst : K.rely s t) :
    p.Safe K Q log t := by
  cases p with
  | done a => exact fun u hu => h u (K.rely_trans hst hu)
  | call c next => exact fun u hu => h u (K.rely_trans hst hu)

theorem Safe.bind {Q : List (Event I) → β → σ → Prop} {p : Program I α}
    {f : α → Program I β} {log : List (Event I)} {s : σ}
    (h : p.Safe K (fun log' a t => (f a).Safe K Q log' t) log s) :
    (p >>= f).Safe K Q log s := by
  induction p generalizing log s with
  | done a => exact h s (K.rely_refl s)
  | call c next ih =>
      intro t ht hc
      obtain ⟨hg, hn⟩ := h t ht hc
      exact ⟨hg, ih _ hn⟩

/-- Loop rule: `J` holds before each iteration, of the accumulator and of what
is left to do. -/
theorem Safe.fold {body : β → α → Program I β} {Q : List (Event I) → β → σ → Prop}
    (J : List (Event I) → β → List α → σ → Prop)
    (step : ∀ log acc x xs s, J log acc (x :: xs) s →
      (body acc x).Safe K (fun log' acc' t => J log' acc' xs t) log s)
    (last : ∀ log acc s, J log acc [] s → (done acc : Program I β).Safe K Q log s)
    {xs : List α} {acc : β} {log : List (Event I)} {s : σ} (h : J log acc xs s) :
    (Program.fold body acc xs).Safe K Q log s := by
  induction xs generalizing acc log s with
  | nil => exact last log acc s h
  | cons x xs ih => exact Safe.bind ((step log acc x xs s h).mono fun _ _ _ hj => ih hj)

theorem Calls.safe {P : I.Call → Prop} {J : σ → Prop}
    (stable : ∀ s t, K.rely s t → J s → J t)
    (keep : ∀ c s, P c → J s → K.guarantee s (I.perform c s).2 ∧ J (I.perform c s).2)
    {p : Program I α} (h : p.Calls P) {log : List (Event I)} {s : σ} (hs : J s) :
    p.Safe K (fun _ _ t => J t) log s := by
  induction p generalizing log s with
  | done a => exact fun t ht => stable s t ht hs
  | call c next ih =>
      intro t ht _
      obtain ⟨hg, hj⟩ := keep c t h.1 (stable s t ht hs)
      exact ⟨hg, ih _ (h.2 _) hj⟩

/-- A solo run of a program whose contract admits every call. -/
theorem Safe.run {Q : List (Event I) → α → σ → Prop} {p : Program I α}
    {log : List (Event I)} {s : σ} (h : p.Safe K Q log s)
    (all : ∀ log c t, K.admits log c t) :
    (∃ log', Q log' (p.run s).1 (p.run s).2) ∧
      Relation.ReflTransGen K.guarantee s (p.run s).2 := by
  induction p generalizing log s with
  | done a => exact ⟨⟨log, h s (K.rely_refl s)⟩, .refl⟩
  | call c next ih =>
      obtain ⟨hg, hn⟩ := h s (K.rely_refl s) (all _ _ _)
      obtain ⟨hq, hr⟩ := ih _ hn
      exact ⟨hq, .head hg hr⟩

end Program

/-! ## Programs that run alone -/

/-- The contract of a program that runs alone: nothing interferes. -/
def Contract.solo (I : Interface σ) (G : σ → σ → Prop) : Contract I where
  rely := Eq
  guarantee := G
  admits := fun _ _ _ => True
  rely_refl := fun _ => rfl
  rely_trans := Eq.trans

namespace Program

variable {G : σ → σ → Prop} {Q : List (Event I) → α → σ → Prop}

theorem Safe.solo_done {a : α} {log : List (Event I)} {s : σ} (h : Q log a s) :
    (done a : Program I α).Safe (.solo I G) Q log s := by
  rintro t rfl
  exact h

theorem Safe.solo_call {c : I.Call} {next : I.Reply c → Program I α} {log : List (Event I)}
    {s : σ} (hg : G s (I.perform c s).2)
    (hn : (next (I.perform c s).1).Safe (.solo I G) Q (⟨c, (I.perform c s).1⟩ :: log)
      (I.perform c s).2) :
    (call c next).Safe (.solo I G) Q log s := by
  rintro t rfl _
  exact ⟨hg, hn⟩

theorem Safe.solo_request {c : I.Call} {f : I.Reply c → Program I α} {log : List (Event I)}
    {s : σ} (hg : G s (I.perform c s).2)
    (hn : (f (I.perform c s).1).Safe (.solo I G) Q (⟨c, (I.perform c s).1⟩ :: log)
      (I.perform c s).2) :
    (request c >>= f).Safe (.solo I G) Q log s := .solo_call hg hn

end Program

/-! ## An invariant and a progress relation -/

/-- Every client keeps the invariant and moves the state along a preorder. -/
def Contract.invariant (I : Interface σ) (Inv : σ → Prop) (Ext : σ → σ → Prop)
    (admits : List (Event I) → I.Call → σ → Prop) (refl : ∀ s, Ext s s)
    (trans : ∀ s t u, Ext s t → Ext t u → Ext s u) : Contract I where
  rely := fun s t => Inv s → Inv t ∧ Ext s t
  guarantee := fun s t => Inv s → Inv t ∧ Ext s t
  admits := admits
  rely_refl := fun s h => ⟨h, refl s⟩
  rely_trans := fun h h' hs => ⟨(h' (h hs).1).1, trans _ _ _ (h hs).2 (h' (h hs).1).2⟩

namespace Program

variable {Inv : σ → Prop} {Ext : σ → σ → Prop} {admits : List (Event I) → I.Call → σ → Prop}
  {refl : ∀ s, Ext s s} {trans : ∀ s t u, Ext s t → Ext t u → Ext s u}
  {Q : List (Event I) → α → σ → Prop}

theorem Safe.inv_done {a : α} {log : List (Event I)} {s : σ} (hs : Inv s)
    (h : ∀ t, Inv t → Ext s t → Q log a t) :
    (done a : Program I α).Safe (.invariant I Inv Ext admits refl trans) Q log s :=
  fun t ht => h t (ht hs).1 (ht hs).2

theorem Safe.inv_call {c : I.Call} {next : I.Reply c → Program I α} {log : List (Event I)}
    {s : σ} (hs : Inv s)
    (h : ∀ t, Inv t → Ext s t → admits log c t →
      Inv (I.perform c t).2 ∧ Ext t (I.perform c t).2 ∧
        (next (I.perform c t).1).Safe (.invariant I Inv Ext admits refl trans) Q
          (⟨c, (I.perform c t).1⟩ :: log) (I.perform c t).2) :
    (call c next).Safe (.invariant I Inv Ext admits refl trans) Q log s := by
  intro t ht hc
  obtain ⟨hinv, hext, hn⟩ := h t (ht hs).1 (ht hs).2 hc
  exact ⟨fun _ => ⟨hinv, hext⟩, hn⟩

theorem Safe.inv_request {c : I.Call} {f : I.Reply c → Program I α} {log : List (Event I)}
    {s : σ} (hs : Inv s)
    (h : ∀ t, Inv t → Ext s t → admits log c t →
      Inv (I.perform c t).2 ∧ Ext t (I.perform c t).2 ∧
        (f (I.perform c t).1).Safe (.invariant I Inv Ext admits refl trans) Q
          (⟨c, (I.perform c t).1⟩ :: log) (I.perform c t).2) :
    (request c >>= f).Safe (.invariant I Inv Ext admits refl trans) Q log s := .inv_call hs h

end Program

end NetForge.Calculus
