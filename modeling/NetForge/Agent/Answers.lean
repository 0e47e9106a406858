import NetForge.Agent.Service

/-! # What an agent answers

The run of a request that an agent serves alone, from the results of its diagnostics:
every result is sent back, in order, in an envelope of the agent that ran it.
-/

namespace NetForge.Agent

open Calculus Controller NetForge.Core Python

/-! ## The configuration of a process -/

theorem fromEnv_named {name : String} {environ : List (String × String)} {config : AgentConfig}
    (h : AgentConfig.fromEnv name environ = .ok config) :
    config.agentId ≠ "" ∧ config.bearerToken ≠ "" ∧ config.hostname = name := by
  unfold AgentConfig.fromEnv at h
  simp only at h
  split at h
  · cases h
  · next hgiven =>
    rw [not_or] at hgiven
    obtain rfl := Except.ok.inj h
    exact ⟨hgiven.1, hgiven.2, rfl⟩

/-! ## The clock of a host -/

/-- A host goes on answering as it did, to later calls. -/
theorem run_host {α : Type} (p : Program host α) (h : Host) :
    (p.run h).2.answer = h.answer ∧ h.answered ≤ (p.run h).2.answered := by
  induction p generalizing h with
  | done a => exact ⟨rfl, le_refl _⟩
  | call c next ih =>
      obtain ⟨hanswer, hlater⟩ := ih _ (host.perform c h).2
      exact ⟨hanswer, Nat.le_of_succ_le hlater⟩

/-- The host once it has been asked for the time. -/
def Host.timed (h : Host) : Host := { h with answered := h.answered + 1 }

theorem duration_nonneg {α : Type} (p : Program host α) (h : Host) :
    let later := (p.run h.timed).2
    0 ≤ roundTo 2 ((later.answer later.answered .perfCounter -
      h.answer h.answered .perfCounter) * 1000) := by
  intro later
  obtain ⟨hsame, hlater⟩ := run_host p h.timed
  have hanswer : later.answer = h.answer := hsame
  have hle : h.answer h.answered .perfCounter ≤ later.answer later.answered .perfCounter := by
    rw [hanswer]
    exact h.monotonic _ _ (Nat.le_of_succ_le hlater)
  apply roundTo_nonneg
  exact mul_nonneg (sub_nonneg.mpr hle) (by norm_num)

/-! ## Envelopes -/

/-- The envelope that the agent puts around a result of the request. -/
structure Stamped (config : AgentConfig) (r : ProbeRequest) (o : AgentObservation) : Prop where
  agentId : o.context.agentId = config.agentId
  hostname : o.context.hostname = config.hostname
  topologyTags : o.context.topologyTags = config.topologyTags
  probeType : o.context.probeType = r.probeType
  target : o.context.target = (nonEmpty r.target).or o.result.target
  sourceInterface : o.context.sourceInterface = r.sourceInterface
  sampleCount : o.context.sampleCount = sampleCount r
  rawOutput : o.context.rawOutput = o.result.rawOutput
  evidenceQuality : o.context.evidenceQuality =
    if o.result.rawOutput.isSome then .parsedExternal else .singleSource

section

variable {config : AgentConfig} (lib : Pydantic) (r : ProbeRequest)

theorem run_toObservation {durationMs : Rat} (hvalid : contextErrors config durationMs = [])
    (result : HostResult) (h : Host) :
    ∃ o, ((toObservation config lib r durationMs result).run h).1 = .ok o ∧ o.result = result ∧
      Stamped config r o := by
  unfold toObservation
  rw [Program.run_bind, Program.run_bind]
  rw [dif_pos hvalid]
  exact ⟨_, rfl, rfl, ⟨rfl, rfl, rfl, rfl, rfl, rfl, rfl, rfl, rfl⟩⟩

theorem run_toObservations {durationMs : Rat} (hvalid : contextErrors config durationMs = [])
    (results : List HostResult) (h : Host) :
    ∃ observations, ((toObservations config lib r durationMs results).run h).1 = .ok observations ∧
      observations.map (·.result) = results ∧ ∀ o ∈ observations, Stamped config r o := by
  induction results generalizing h with
  | nil => exact ⟨[], rfl, rfl, by simp⟩
  | cons result rest ih =>
      obtain ⟨o, hrun, hresult, hstamped⟩ := run_toObservation lib r hvalid result h
      obtain ⟨others, hothers, hresults, hall⟩ :=
        ih ((toObservation config lib r durationMs result).run h).2
      refine ⟨o :: others, ?_, ?_, ?_⟩
      · rw [toObservations, Program.run_bind, hrun]
        simp only
        rw [Program.run_bind, hothers]
        rfl
      · rw [List.map_cons, hresult, hresults]
      · intro other hother
        rcases List.mem_cons.mp hother with rfl | hother
        · exact hstamped
        · exact hall other hother

/-- A probe that is allowed sends back what the diagnostics gave, or raises with them. -/
theorem run_probe (hallowed : targetError? config r = none) (hagent : config.agentId ≠ "")
    (hhost : config.hostname ≠ "") (h : Host) :
    match ((runProbe r).run h.timed).1 with
    | none => ((probe config lib r).run h).1 = .error .raised
    | some results =>
        ∃ observations, ((probe config lib r).run h).1 = .ok observations ∧
          observations.map (·.result) = results ∧ ∀ o ∈ observations, Stamped config r o := by
  have hprobe : (probe config lib r).run h = (runProbe r >>= fun
      | none => pure (.error .raised)
      | some results => do
          let finished ← ask .perfCounter
          toObservations config lib r
            (roundTo 2 ((finished - h.answer h.answered .perfCounter) * 1000)) results).run
        h.timed := by
    unfold probe
    rw [hallowed]
    rfl
  rw [hprobe, Program.run_bind]
  cases hfound : ((runProbe r).run h.timed).1 with
  | none => rfl
  | some results =>
      apply run_toObservations
      rw [contextErrors_eq_nil]
      exact ⟨hagent, hhost, duration_nonneg (runProbe r) h⟩

end

end NetForge.Agent
