import NetForge.Calculus.Extension
import NetForge.Calculus.Interleaving

/-! # Programs that fail before they write

A program fails quietly when every call it makes before a failure leaves what a
projection of the state reads as it was: a call that changes it is made only where
the program can no longer fail. In an interleaving no step of such a program, once
it has failed, is one of those that changed anything.
-/

namespace NetForge.Calculus

variable {σ τ : Type} {I : Interface σ} {α β ι : Type}

/-- A call that leaves what `f` reads of the state. -/
def Interface.Quiet (I : Interface σ) (f : σ → τ) (c : I.Call) : Prop :=
  ∀ s, f (I.perform c s).2 = f s

namespace Program

/-- Every result of the program satisfies `R`, in whatever states its calls are made. -/
def Returns (R : α → Prop) : Program I α → Prop
  | done a => R a
  | call c next => ∀ s, (next (I.perform c s).1).Returns R

/-- A call that is not quiet commits the program to a success. -/
def FailsQuietly (f : σ → τ) (fails : α → Prop) : Program I α → Prop
  | done _ => True
  | call c next => ∀ s,
      (f (I.perform c s).2 = f s ∧ (next (I.perform c s).1).FailsQuietly f fails) ∨
        (next (I.perform c s).1).Returns fun a => ¬ fails a

/-! ## Results -/

variable {R : α → Prop} {Q : β → Prop}

theorem Returns.bind {p : Program I α} {g : α → Program I β} (h : p.Returns R)
    (hg : ∀ a, R a → (g a).Returns Q) : (p >>= g).Returns Q := by
  induction p with
  | done a => exact hg a h
  | call c next ih => exact fun s => ih _ (h s)

theorem Returns.mono {R' : α → Prop} {p : Program I α} (h : p.Returns R)
    (imp : ∀ a, R a → R' a) : p.Returns R' := by
  induction p with
  | done a => exact imp a h
  | call c next ih => exact fun s => ih _ (h s)

theorem Returns.request {c : I.Call} {g : I.Reply c → Program I β} (hg : ∀ r, (g r).Returns Q) :
    (Program.request c >>= g).Returns Q := fun _ => hg _

theorem returns_trivial (p : Program I α) : p.Returns fun _ => True := by
  induction p with
  | done a => trivial
  | call c next ih => exact fun s => ih _

theorem Returns.inl {J : Interface σ} {p : Program I α} (h : p.Returns R) :
    (p.inl (J := J)).Returns R := by
  induction p with
  | done a => exact h
  | call c next ih => exact fun s => ih _ (h s)

/-! ## Failures -/

variable {f : σ → τ} {fails : α → Prop} {fails' : β → Prop}

theorem Returns.failsQuietly {p : Program I α} (h : p.Returns fun a => ¬ fails a) :
    p.FailsQuietly f fails := by
  cases p with
  | done a => trivial
  | call c next => exact fun s => .inr (h s)

theorem Calls.failsQuietly {p : Program I α} (h : p.Calls (I.Quiet f)) :
    p.FailsQuietly f fails := by
  induction p with
  | done a => trivial
  | call c next ih => exact fun s => .inl ⟨h.1 s, ih _ (h.2 _)⟩

theorem FailsQuietly.request {c : I.Call} {g : I.Reply c → Program I β}
    (h : ∀ s, (f (I.perform c s).2 = f s ∧ (g (I.perform c s).1).FailsQuietly f fails') ∨
      (g (I.perform c s).1).Returns fun b => ¬ fails' b) :
    (Program.request c >>= g).FailsQuietly f fails' := h

theorem FailsQuietly.read {c : I.Call} {g : I.Reply c → Program I β} (hc : I.Quiet f c)
    (hg : ∀ r, (g r).FailsQuietly f fails') : (Program.request c >>= g).FailsQuietly f fails' :=
  fun s => .inl ⟨hc s, hg _⟩

/-- A quiet program followed by one that fails quietly on each of its results. -/
theorem FailsQuietly.after {p : Program I α} {g : α → Program I β} (hp : p.Calls (I.Quiet f))
    (hr : p.Returns R) (hg : ∀ a, R a → (g a).FailsQuietly f fails') :
    (p >>= g).FailsQuietly f fails' := by
  induction p with
  | done a => exact hg a hr
  | call c next ih => exact fun s => .inl ⟨hp.1 s, ih _ (hp.2 _) (hr s)⟩

/-- A program that does not fail where its first part has succeeded. -/
theorem FailsQuietly.bind {p : Program I α} {g : α → Program I β} (h : p.FailsQuietly f fails)
    (hg : ∀ a, (g a).FailsQuietly f fails')
    (hok : ∀ a, ¬ fails a → (g a).Returns fun b => ¬ fails' b) :
    (p >>= g).FailsQuietly f fails' := by
  induction p with
  | done a => exact hg a
  | call c next ih =>
      intro s
      rcases h s with ⟨hquiet, hrest⟩ | hreturns
      · exact .inl ⟨hquiet, ih _ hrest⟩
      · exact .inr (hreturns.bind hok)

theorem FailsQuietly.inl {J : Interface σ} {p : Program I α} (h : p.FailsQuietly f fails) :
    (p.inl (J := J)).FailsQuietly f fails := by
  induction p with
  | done a => trivial
  | call c next ih =>
      intro s
      rcases h s with ⟨hquiet, hrest⟩ | hreturns
      · exact .inl ⟨hquiet, ih _ hrest⟩
      · exact .inr hreturns.inl

end Program

/-! ## Interleavings -/

namespace Config

variable [DecidableEq ι] {f : σ → τ} {R fails : α → Prop} {cfg : Config ι I α} {i : ι}

theorem returns_step (h : (cfg.thread i).Returns R) (j : ι) :
    ((cfg.step j).thread i).Returns R := by
  cases hj : cfg.thread j with
  | done a => rwa [step_of_done hj]
  | call c next =>
      rw [step_of_call hj]
      by_cases hij : i = j
      · subst hij
        rw [hj] at h
        simpa only [Function.update_self] using h cfg.state
      · simpa only [Function.update_of_ne hij] using h

theorem returns_run (h : (cfg.thread i).Returns R) (is : List ι) :
    ((cfg.run is).thread i).Returns R := by
  induction is generalizing cfg with
  | nil => exact h
  | cons j is ih => exact ih (returns_step h j)

theorem failsQuietly_step (h : (cfg.thread i).FailsQuietly f fails) (j : ι) :
    ((cfg.step j).thread i).FailsQuietly f fails := by
  cases hj : cfg.thread j with
  | done a => rwa [step_of_done hj]
  | call c next =>
      rw [step_of_call hj]
      by_cases hij : i = j
      · subst hij
        rw [hj] at h
        simp only [Function.update_self]
        rcases h cfg.state with ⟨-, hrest⟩ | hreturns
        · exact hrest
        · exact hreturns.failsQuietly
      · simpa only [Function.update_of_ne hij] using h

theorem failsQuietly_run (h : (cfg.thread i).FailsQuietly f fails) (is : List ι) :
    ((cfg.run is).thread i).FailsQuietly f fails := by
  induction is generalizing cfg with
  | nil => exact h
  | cons j is ih => exact ih (failsQuietly_step h j)

/-- No step of a thread that fails in the end changes what `f` reads. -/
theorem step_of_failure (h : (cfg.thread i).FailsQuietly f fails) {a : α} {after : List ι}
    (hdone : ((cfg.step i).run after).thread i = .done a) (ha : fails a) :
    f (cfg.step i).state = f cfg.state := by
  cases hi : cfg.thread i with
  | done b => rw [step_of_done hi]
  | call c next =>
      rw [hi] at h
      rcases h cfg.state with ⟨hquiet, -⟩ | hreturns
      · rw [step_of_call hi]
        exact hquiet
      · have hnext : ((cfg.step i).thread i).Returns fun b => ¬ fails b := by
          rw [step_of_call hi]
          simpa only [Function.update_self] using hreturns
        have hend := returns_run hnext after
        rw [hdone] at hend
        exact absurd ha hend

end Config

end NetForge.Calculus
