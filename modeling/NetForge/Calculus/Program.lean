/-! # Programs over atomic calls

A component offers a state type and a set of calls, each of which reads and
writes that state in one indivisible step and returns a reply. A program is the
tree of calls a client makes, branching on the replies. Run alone, a program is
a function of the state; run beside others, its calls are the points at which
the others may be scheduled. Both readings use the same tree.
-/

namespace NetForge.Calculus

/-- The atomic calls offered on a state `σ`, with the reply each one returns. -/
structure Interface (σ : Type) where
  Call : Type
  Reply : Call → Type
  perform : (c : Call) → σ → Reply c × σ

variable {σ : Type} {I : Interface σ} {α β γ : Type}

inductive Program (I : Interface σ) (α : Type) : Type
  | done (a : α)
  | call (c : I.Call) (next : I.Reply c → Program I α)

structure Event (I : Interface σ) where
  call : I.Call
  reply : I.Reply call

namespace Program

def bind : Program I α → (α → Program I β) → Program I β
  | done a, f => f a
  | call c next, f => call c (fun r => (next r).bind f)

def request (c : I.Call) : Program I (I.Reply c) := call c done

instance : Monad (Program I) where
  pure := done
  bind := bind

@[simp] theorem pure_eq_done (a : α) : (pure a : Program I α) = done a := rfl

@[simp] theorem done_bind (a : α) (f : α → Program I β) : (done a >>= f) = f a := rfl

@[simp] theorem call_bind (c : I.Call) (next : I.Reply c → Program I α) (f : α → Program I β) :
    (call c next >>= f) = call c (fun r => next r >>= f) := rfl

@[simp] theorem request_bind (c : I.Call) (f : I.Reply c → Program I β) :
    (request c >>= f) = call c f := rfl

theorem bind_assoc (p : Program I α) (f : α → Program I β) (g : β → Program I γ) :
    ((p >>= f) >>= g) = (p >>= fun a => f a >>= g) := by
  induction p with
  | done a => rfl
  | call c next ih =>
      simp only [call_bind]
      congr 1
      funext r
      exact ih r

/-- The solo run: every call is performed on the state its predecessor left. -/
def run : Program I α → σ → α × σ
  | done a, s => (a, s)
  | call c next, s => (next (I.perform c s).1).run (I.perform c s).2

@[simp] theorem run_done (a : α) (s : σ) : (done a : Program I α).run s = (a, s) := rfl

@[simp] theorem run_call (c : I.Call) (next : I.Reply c → Program I α) (s : σ) :
    (call c next).run s = (next (I.perform c s).1).run (I.perform c s).2 := rfl

@[simp] theorem run_request (c : I.Call) (s : σ) : (request c).run s = I.perform c s := rfl

theorem run_bind (p : Program I α) (f : α → Program I β) (s : σ) :
    (p >>= f).run s = (f (p.run s).1).run (p.run s).2 := by
  induction p generalizing s with
  | done a => rfl
  | call c next ih =>
      simp only [call_bind, run_call]
      exact ih _ _

/-- The calls of a solo run, in order, with the replies they got. -/
def trace : Program I α → σ → List (Event I)
  | done _, _ => []
  | call c next, s => ⟨c, (I.perform c s).1⟩ :: (next (I.perform c s).1).trace (I.perform c s).2

@[simp] theorem trace_done (a : α) (s : σ) : (done a : Program I α).trace s = [] := rfl

@[simp] theorem trace_call (c : I.Call) (next : I.Reply c → Program I α) (s : σ) :
    (call c next).trace s =
      ⟨c, (I.perform c s).1⟩ :: (next (I.perform c s).1).trace (I.perform c s).2 := rfl

@[simp] theorem trace_request (c : I.Call) (s : σ) :
    (request c).trace s = [⟨c, (I.perform c s).1⟩] := rfl

theorem trace_bind (p : Program I α) (f : α → Program I β) (s : σ) :
    (p >>= f).trace s = p.trace s ++ (f (p.run s).1).trace (p.run s).2 := by
  induction p generalizing s with
  | done a => rfl
  | call c next ih =>
      simp only [call_bind, trace_call, run_call, List.cons_append]
      rw [ih]

def next? : Program I α → Option I.Call
  | done _ => none
  | call c _ => some c

/-- A loop over a list that threads an accumulator through its body. -/
def fold (body : β → α → Program I β) : β → List α → Program I β
  | acc, [] => done acc
  | acc, x :: xs => body acc x >>= fun acc' => fold body acc' xs

@[simp] theorem fold_nil (body : β → α → Program I β) (acc : β) :
    fold body acc [] = done acc := rfl

@[simp] theorem fold_cons (body : β → α → Program I β) (acc : β) (x : α) (xs : List α) :
    fold body acc (x :: xs) = (body acc x >>= fun acc' => fold body acc' xs) := rfl

/-- What the body keeps of the accumulator holds of the result of the loop. -/
theorem fold_keeps {P : β → Prop} {body : β → α → Program I β}
    (h : ∀ acc x s, P acc → P ((body acc x).run s).1) {acc : β} (hacc : P acc) (xs : List α)
    (s : σ) : P ((fold body acc xs).run s).1 := by
  induction xs generalizing acc s with
  | nil => exact hacc
  | cons x xs ih =>
      rw [fold_cons, run_bind]
      exact ih (h acc x s hacc) _

/-- Every call the program can make, whatever it is answered, satisfies `P`. -/
def Calls (P : I.Call → Prop) : Program I α → Prop
  | done _ => True
  | call c next => P c ∧ ∀ r, (next r).Calls P

variable {P : I.Call → Prop}

@[simp] theorem calls_done (a : α) : (done a : Program I α).Calls P := trivial

@[simp] theorem calls_call (c : I.Call) (next : I.Reply c → Program I α) :
    (call c next).Calls P ↔ P c ∧ ∀ r, (next r).Calls P := Iff.rfl

@[simp] theorem calls_request (c : I.Call) : (request c).Calls P ↔ P c := by
  simp [request]

theorem calls_request_bind {c : I.Call} {f : I.Reply c → Program I α} :
    (request c >>= f).Calls P ↔ P c ∧ ∀ r, (f r).Calls P := Iff.rfl

theorem Calls.mono {Q : I.Call → Prop} {p : Program I α} (h : p.Calls P) (imp : ∀ c, P c → Q c) :
    p.Calls Q := by
  induction p with
  | done a => trivial
  | call c next ih => exact ⟨imp c h.1, fun r => ih r (h.2 r)⟩

theorem Calls.bind {p : Program I α} {f : α → Program I β} (h : p.Calls P)
    (hf : ∀ a, (f a).Calls P) : (p >>= f).Calls P := by
  induction p with
  | done a => exact hf a
  | call c next ih => exact ⟨h.1, fun r => ih r (h.2 r)⟩

theorem Calls.trace {p : Program I α} (h : p.Calls P) (s : σ) : ∀ ev ∈ p.trace s, P ev.call := by
  induction p generalizing s with
  | done a => simp
  | call c next ih =>
      intro ev hev
      rcases List.mem_cons.mp hev with rfl | hev
      · exact h.1
      · exact ih _ (h.2 _) _ ev hev

/-- What none of its calls changes is unchanged after a solo run. -/
theorem Calls.run_keeps {τ : Type} {f : σ → τ} (keep : ∀ c s, P c → f (I.perform c s).2 = f s)
    {p : Program I α} (h : p.Calls P) (s : σ) : f (p.run s).2 = f s := by
  induction p generalizing s with
  | done a => rfl
  | call c next ih => exact (ih _ (h.2 _) _).trans (keep c s h.1)

theorem Calls.filterMap_trace {τ : Type} {g : I.Call → Option τ} (none_of : ∀ c, P c → g c = none)
    {p : Program I α} (h : p.Calls P) (s : σ) :
    (p.trace s).filterMap (fun ev => g ev.call) = [] := by
  rw [List.filterMap_eq_nil_iff]
  intro ev hev
  exact none_of _ (h.trace s ev hev)

theorem Calls.fold {body : β → α → Program I β} (h : ∀ acc x, (body acc x).Calls P)
    (acc : β) (xs : List α) : (fold body acc xs).Calls P := by
  induction xs generalizing acc with
  | nil => trivial
  | cons x xs ih => exact (h acc x).bind fun acc' => ih acc'

end Program

end NetForge.Calculus
