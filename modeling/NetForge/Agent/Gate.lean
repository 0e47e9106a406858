import NetForge.Agent.Service
import NetForge.Calculus.Budget

/-! # What an agent probes

A request makes an agent run a diagnostic only if it carries the token, is valid and
names a target the agent may probe. The diagnostics of such a request are known from the
request alone: they are the budget of the thread that serves it.
-/

namespace NetForge.Agent

open Calculus Controller NetForge.Core Python

/-! ## Requests that are carried out -/

def ProbeRequest.calls (r : ProbeRequest) : List HostCall :=
  match r.probeType with
  | .icmp => [.pingHost (r.target.getD "") r.count]
  | .tcp => [.testTcp (r.target.getD "") (r.port.getD 0) r.timeoutSeconds]
  | .dns => [.resolveHostname (r.target.getD ""), .getDnsServers]
  | .traceroute => [.tracerouteToResult (r.target.getD "") r.maxHops]
  | .interfaces => [.inspectInterfaces]
  | .route => [.inspectRoutingTable]
  | .gateway => [.checkGatewayReachability r.count]

def AgentServer.accepts (server : AgentServer) (request : HttpRequest) : Option ProbeRequest :=
  if request.command = .post ∧ request.target = probePath then
    match authorize server.config request.authorization,
        (readJsonBody server.loads maxBodyBytes request).result with
    | .ok true, .ok body =>
        match ProbeRequest.modelValidate server.lib body with
        | .ok r => if targetError? server.config r = none then some r else none
        | .error _ => none
    | _, _ => none
  else none

/-- Clocks, identifiers and the list of interfaces are not diagnostics. -/
def HostCall.isDiagnostic : HostCall → Bool
  | .perfCounter | .uuid4 | .now | .netIfStats => false
  | _ => true

def HostCall.target? : HostCall → Option String
  | .pingHost host _ | .testTcp host _ _ | .resolveHostname host | .tracerouteToResult host _ =>
      some host
  | _ => none

/-- The bounds of the request, on the arguments of a diagnostic. -/
def HostCall.Bounded : HostCall → Prop
  | .pingHost _ count | .checkGatewayReachability count => 1 ≤ count ∧ count ≤ 20
  | .testTcp _ port timeout => (1 ≤ port ∧ port ≤ 65535) ∧ 0 < timeout ∧ timeout ≤ 30
  | .tracerouteToResult _ maxHops => 1 ≤ maxHops ∧ maxHops ≤ 64
  | _ => True

theorem authorize_eq_true {config : AgentConfig} {authorization : Option String}
    (h : authorize config authorization = .ok true) :
    authorization = some (bearer config.bearerToken) := by
  unfold authorize at h
  cases hgiven : nonEmpty authorization with
  | none =>
      rw [hgiven] at h
      cases h
  | some text =>
      rw [hgiven] at h
      obtain ⟨hsome, -⟩ := Option.filter_eq_some_iff.mp hgiven
      simp only [compareDigest] at h
      split at h
      · rw [hsome, of_decide_eq_true (Except.ok.inj h)]
      · cases h

theorem targetError?_eq_none {config : AgentConfig} {r : ProbeRequest}
    (h : targetError? config r = none) (htargeted : r.probeType ∈ targetedProbes) :
    ∃ target ∈ config.allowedTargets, r.target = some target := by
  unfold targetError? at h
  rw [if_neg (not_not_intro htargeted)] at h
  by_cases hnone : config.allowedTargets = []
  · rw [if_pos hnone] at h
    cases h
  · rw [if_neg hnone] at h
    cases htarget : r.target with
    | none => simp [htarget] at h
    | some target =>
        by_cases hmem : target ∈ config.allowedTargets
        · exact ⟨target, hmem, rfl⟩
        · simp [htarget, hmem] at h

/-- What was checked about a request that is carried out. -/
structure Accepted (server : AgentServer) (request : HttpRequest) (r : ProbeRequest) : Prop where
  command : request.command = .post
  target : request.target = probePath
  authorized : authorize server.config request.authorization = .ok true
  body : ∃ body, (readJsonBody server.loads maxBodyBytes request).result = .ok body ∧
    ProbeRequest.modelValidate server.lib body = .ok r
  allowed : targetError? server.config r = none

theorem accepts_iff {server : AgentServer} {request : HttpRequest} {r : ProbeRequest} :
    server.accepts request = some r ↔ Accepted server request r := by
  constructor
  · intro h
    unfold AgentServer.accepts at h
    by_cases hroute : request.command = .post ∧ request.target = probePath
    · rw [if_pos hroute] at h
      split at h
      · next body hauthorized hbody =>
        split at h
        · next valid hvalid =>
          by_cases hallowed : targetError? server.config valid = none
          · rw [if_pos hallowed, Option.some.injEq] at h
            subst h
            exact ⟨hroute.1, hroute.2, hauthorized, ⟨body, hbody, hvalid⟩, hallowed⟩
          · rw [if_neg hallowed] at h
            cases h
        · cases h
      · cases h
    · rw [if_neg hroute] at h
      cases h
  · intro h
    obtain ⟨body, hbody, hvalid⟩ := h.body
    unfold AgentServer.accepts
    rw [if_pos ⟨h.command, h.target⟩, h.authorized, hbody]
    simp only [hvalid, if_pos h.allowed]

theorem Accepted.token {server : AgentServer} {request : HttpRequest} {r : ProbeRequest}
    (h : Accepted server request r) :
    request.authorization = some (bearer server.config.bearerToken) :=
  authorize_eq_true h.authorized

theorem bounded_of_mem_calls {r : ProbeRequest} {c : HostCall} (h : c ∈ r.calls) : c.Bounded := by
  obtain ⟨hport, hcount, hhops, htimeout⟩ := r.bounded
  unfold ProbeRequest.calls at h
  cases htype : r.probeType with
  | tcp =>
      obtain ⟨port, hsome, hmem⟩ := r.port_of_tcp htype
      simp only [htype, hsome, Option.getD_some, List.mem_singleton] at h
      subst h
      exact ⟨hmem, htimeout⟩
  | icmp | gateway =>
      simp only [htype, List.mem_singleton] at h
      subst h
      exact hcount
  | traceroute =>
      simp only [htype, List.mem_singleton] at h
      subst h
      exact hhops
  | dns =>
      simp only [htype, List.mem_cons, List.not_mem_nil, or_false] at h
      rcases h with rfl | rfl <;> trivial
  | interfaces | route =>
      simp only [htype, List.mem_singleton] at h
      subst h
      trivial

theorem target_of_mem_calls {r : ProbeRequest} {c : HostCall} (h : c ∈ r.calls)
    {target : String} (htarget : c.target? = some target) :
    r.probeType ∈ targetedProbes ∧ r.target.getD "" = target := by
  unfold ProbeRequest.calls at h
  cases htype : r.probeType with
  | icmp | tcp | traceroute =>
      simp only [htype, List.mem_singleton] at h
      subst h
      exact ⟨by decide, Option.some.inj htarget⟩
  | dns =>
      simp only [htype, List.mem_cons, List.not_mem_nil, or_false] at h
      rcases h with rfl | rfl
      · exact ⟨by decide, Option.some.inj htarget⟩
      · cases htarget
  | interfaces | route | gateway =>
      simp only [htype, List.mem_singleton] at h
      subst h
      cases htarget

/-! ## The diagnostics of a thread -/

/-- A probe that raised has left diagnostics undone, no other has. -/
theorem runProbe_draws (r : ProbeRequest) :
    (runProbe r).Draws HostCall.isDiagnostic (fun found rest => found ≠ none → rest = [])
      r.calls := by
  unfold runProbe ProbeRequest.calls
  cases r.probeType with
  | icmp | tcp | traceroute | route | gateway =>
      apply Program.Draws.draw rfl
      intro result
      cases result <;> exact fun _ => rfl
  | dns =>
      apply Program.Draws.draw rfl
      intro result
      cases result with
      | none => exact fun h => absurd rfl h
      | some result =>
          apply Program.Draws.draw rfl
          intro servers
          cases servers <;> exact fun _ => rfl
  | interfaces => exact .inr ⟨rfl, [], rfl, fun _ _ => rfl⟩

section

variable (config : AgentConfig) (lib : Pydantic) (r : ProbeRequest)

theorem toObservation_calls (durationMs : Rat) (result : HostResult) :
    (toObservation config lib r durationMs result).Calls fun c : HostCall =>
      c.isDiagnostic = false := by
  refine ⟨rfl, fun _ => ⟨rfl, fun _ => ?_⟩⟩
  split <;> trivial

theorem toObservations_calls (durationMs : Rat) (results : List HostResult) :
    (toObservations config lib r durationMs results).Calls fun c : HostCall =>
      c.isDiagnostic = false := by
  induction results with
  | nil => trivial
  | cons result rest ih =>
      apply (toObservation_calls config lib r durationMs result).bind
      intro observed
      cases observed with
      | error e => trivial
      | ok observation =>
          apply ih.bind
          intro others
          cases others <;> trivial

/-- A probe that does not raise has run all the diagnostics of its request. -/
theorem probe_draws (h : targetError? config r = none) :
    (probe config lib r).Draws HostCall.isDiagnostic
      (fun result rest => (∃ observations, result = .ok observations) → rest = []) r.calls := by
  unfold probe
  rw [h]
  apply Program.Draws.free rfl
  intro started
  apply Program.Draws.bind
  apply (runProbe_draws r).mono
  intro found rest hrest
  cases found with
  | none => exact fun h => nomatch h
  | some results =>
      apply Program.Draws.free rfl
      intro finished
      apply Program.Draws.of_calls (toObservations_calls config lib r _ results)
      exact fun _ _ => hrest (by simp)

end

section

variable (server : AgentServer) (request : HttpRequest)

/-- The diagnostics that a request may make the agent run. -/
def AgentServer.budget : List HostCall := (server.accepts request).elim [] (·.calls)

/-- A reply with results comes after the last diagnostic of the request. -/
def Spent : Option AgentReply → List HostCall → Prop
  | some (.results _), rest => rest = []
  | _, _ => True

theorem dispatch_draws {body : Dict} (hbody : request.command = .post →
      (readJsonBody server.loads maxBodyBytes request).result = .ok body) :
    (server.dispatch request body).Draws HostCall.isDiagnostic Spent (server.budget request) := by
  unfold AgentServer.dispatch
  cases hauthorized : authorize server.config request.authorization with
  | error e => trivial
  | ok passed =>
      cases passed with
      | false => trivial
      | true =>
          simp only
          split
          · trivial
          · split
            · apply Program.Draws.free rfl
              exact fun stats => trivial
            · split
              · next hprobe =>
                split
                · trivial
                · next r hvalid =>
                  by_cases hallowed : targetError? server.config r = none
                  · have haccepts : server.accepts request = some r :=
                      accepts_iff.mpr ⟨hprobe.1, hprobe.2, hauthorized,
                        ⟨body, hbody hprobe.1, hvalid⟩, hallowed⟩
                    unfold AgentServer.budget
                    rw [haccepts]
                    apply Program.Draws.bind
                    apply (probe_draws server.config server.lib r hallowed).mono
                    intro result rest hrest
                    cases result with
                    | error e => cases e <;> trivial
                    | ok observations => exact hrest ⟨observations, rfl⟩
                  · obtain ⟨message, hrefused⟩ := Option.ne_none_iff_exists'.mp hallowed
                    unfold probe
                    rw [hrefused]
                    trivial
              · trivial

theorem serve_draws :
    (server.serve request).Draws HostCall.isDiagnostic Spent (server.budget request) := by
  unfold AgentServer.serve
  cases hcommand : request.command with
  | get => exact dispatch_draws server request fun h => nomatch hcommand.symm.trans h
  | delete => trivial
  | post =>
      cases hbody : (readJsonBody server.loads maxBodyBytes request).result with
      | error e => cases e <;> trivial
      | ok body => exact dispatch_draws server request fun _ => hbody

end

section

variable {ι : Type} [DecidableEq ι]

def AgentServer.threads (server : AgentServer) (requests : ι → HttpRequest) (h : Host) :
    Config ι host (Option AgentReply) :=
  .start (fun i => server.serve (requests i)) h

/-- However requests are interleaved, the diagnostics that a thread has run are, in order
and each once, the first ones of its request, and all of them when it replies with
results. There are none unless the request carries the token and names a target that the
agent may probe; and every argument is within the bounds of the request model. -/
theorem agent_probes_as_permitted (server : AgentServer) (requests : ι → HttpRequest) (h : Host)
    (is : List ι) (i : ι) :
    let cfg := (server.threads requests h).run is
    let ran := Config.drawn HostCall.isDiagnostic (cfg.log i)
    ran <+: server.budget (requests i) ∧
      (∀ observations, cfg.thread i = .done (some (.results observations)) →
        ran = server.budget (requests i)) ∧
      ∀ c ∈ ran, c.Bounded ∧
        ((requests i).command = .post ∧ (requests i).target = probePath ∧
          (requests i).authorization = some (bearer server.config.bearerToken)) ∧
        ∀ target, c.target? = some target → target ∈ server.config.allowedTargets := by
  intro cfg ran
  have hdraw : Config.AllDraw HostCall.isDiagnostic (fun _ => Spent)
      (fun i => server.budget (requests i)) cfg :=
    (Config.AllDraw.start fun i => serve_draws server (requests i)).run is
  refine ⟨hdraw.drawn_prefix i, ?_, ?_⟩
  · intro observations hdone
    obtain ⟨rest, hbudget, hspent⟩ := hdraw.at_done hdone
    rw [← hbudget, show rest = [] from hspent, List.append_nil]
  · intro c hc
    have hmem := (hdraw.drawn_prefix i).subset hc
    unfold AgentServer.budget at hmem
    cases haccepts : server.accepts (requests i) with
    | none => rw [haccepts] at hmem; cases hmem
    | some r =>
        rw [haccepts] at hmem
        have haccepted := accepts_iff.mp haccepts
        refine ⟨bounded_of_mem_calls hmem, ⟨haccepted.command, haccepted.target,
          haccepted.token⟩, ?_⟩
        intro target htarget
        obtain ⟨htargeted, hname⟩ := target_of_mem_calls hmem htarget
        obtain ⟨allowed, hallowed, hsome⟩ := targetError?_eq_none haccepted.allowed htargeted
        rw [hsome, Option.getD_some] at hname
        exact hname ▸ hallowed

end

end NetForge.Agent
