import NetForge.Calculus.Contract

/-! # Extending a set of calls

Two sets of calls on one state form one. A program over the first is a program
over both, runs the same way, and keeps whatever contract it had: nothing about it
is proved a second time.
-/

namespace NetForge.Calculus

variable {σ : Type} {I : Interface σ} {α β : Type}

def Interface.sum (I J : Interface σ) : Interface σ where
  Call := I.Call ⊕ J.Call
  Reply
    | .inl c => I.Reply c
    | .inr c => J.Reply c
  perform
    | .inl c => I.perform c
    | .inr c => J.perform c

namespace Program

/-- A program over the first set of calls, among both. -/
def inl {J : Interface σ} : Program I α → Program (I.sum J) α
  | done a => done a
  | call c next => Program.call (I := I.sum J) (.inl c) fun r => (next r).inl

variable {J : Interface σ}

@[simp] theorem inl_done (a : α) : (done a : Program I α).inl (J := J) = done a := rfl

@[simp] theorem inl_call (c : I.Call) (next : I.Reply c → Program I α) :
    (call c next).inl (J := J) =
      Program.call (I := I.sum J) (.inl c) fun r => (next r).inl := rfl

@[simp] theorem run_inl (p : Program I α) (s : σ) : (p.inl (J := J)).run s = p.run s := by
  induction p generalizing s with
  | done a => rfl
  | call c next ih => exact ih _ _

theorem calls_inl {P : (I.sum J).Call → Prop} {p : Program I α} :
    p.inl.Calls P ↔ p.Calls fun c => P (.inl c) := by
  induction p with
  | done a => exact Iff.rfl
  | call c next ih => exact and_congr Iff.rfl (forall_congr' ih)

end Program

def Event.inl (J : Interface σ) (ev : Event I) : Event (I.sum J) where
  call := .inl ev.call
  reply := ev.reply

namespace Program

variable {J : Interface σ}

/-- A contract over both sets of calls that says of the calls of the first what a
contract over the first alone says. -/
theorem Safe.inl {K : Contract I} {K' : Contract (I.sum J)} {Q : List (Event I) → α → σ → Prop}
    (rely : ∀ s t, K'.rely s t → K.rely s t) (guarantee : ∀ s t, K.guarantee s t → K'.guarantee s t)
    (admits : ∀ log c s, K.admits log c s) {p : Program I α} {log : List (Event I)} {s : σ}
    (h : p.Safe K Q log s) {Q' : List (Event (I.sum J)) → α → σ → Prop}
    (post : ∀ log a t, Q log a t → Q' (log.map (Event.inl J)) a t) :
    p.inl.Safe K' Q' (log.map (Event.inl J)) s := by
  induction p generalizing log s with
  | done a =>
      intro t ht
      exact post log a t (h t (rely s t ht))
  | call c next ih =>
      intro t ht _
      obtain ⟨hg, hn⟩ := h t (rely s t ht) (admits log c t)
      exact ⟨guarantee _ _ hg, ih _ hn⟩

end Program

end NetForge.Calculus
