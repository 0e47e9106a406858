import NetForge.Agent.Answers
import NetForge.Agent.Gate
import NetForge.Controller.Dispatch

/-! # Jobs over agent processes

`AgentDispatcher.probe` of `controller/dispatch.py` against the agents it reaches: the
request is built, sent to what listens at the URL of the agent and served there, and the
reply is read back. What a job records of an agent is told by the token, the allowed
targets and the diagnostics of its process.
-/

namespace NetForge.Controller

open Calculus NetForge.Core Python
open Agent (AgentServer AgentReply Host HostResult ProbeFields HostCall)

/-! ## The request -/

/-- The fields of a probe; what a job does not set keeps its default. -/
def ProbeRequest.fields (probe : ProbeRequest) : ProbeFields where
  probeType := probe.probeType
  target := some probe.target
  port := probe.port.map fun port => (port : Int)
  count := probe.count
  maxHops := 20
  timeoutSeconds := 5
  sourceInterface := none

/-- `f"{str(agent.url).rstrip('/')}/v1/probe"`. -/
def probeUrl (agent : RegisteredAgent) : List Char :=
  (agent.url.toList.reverse.dropWhile (· = '/')).reverse ++ Agent.probePath

def isHostChar (c : Char) : Bool := c ≠ '/' && c ≠ '?' && c ≠ '#'

/-- Host and selector of `Request(url)`. -/
def splitUrl (url : List Char) : List Char × List Char :=
  let rest := ((selector url).dropWhile (· ≠ ':')).drop 3
  let path := rest.dropWhile isHostChar
  (rest.takeWhile isHostChar, if path.head? = some '/' then path else '/' :: path)

/-- The token that all agents are sent, and `json.dumps` with its encoding. -/
structure AgentDispatcher where
  agentBearerToken : String
  dumps : Dict → Bytes

def AgentDispatcher.request? (d : AgentDispatcher) (target : List Char) (probe : ProbeRequest) :
    Option HttpRequest :=
  let body := d.dumps probe.fields.modelDump
  if h : IsOrigin target ∧ target.all isPrintable = true then
    some
      { command := .post
        target
        authorization := some (bearer d.agentBearerToken)
        contentLength := some (Nat.repr body.length)
        body
        origin := h.1 }
  else none

/-! ## The agents -/

structure AgentProcess where
  server : AgentServer
  host : Host

/-- What listens at a host, and what becomes of an exchange: the text of its failure,
if it fails on the way. -/
structure Fleet where
  process? : List Char → Option AgentProcess
  failure? : RegisteredAgent → ProbeRequest → Option String
  invalid : List Char → String
  refused : String

def Status.phrase : Status → String
  | .ok => "OK"
  | .created => "Created"
  | .badRequest => "Bad Request"
  | .unauthorized => "Unauthorized"
  | .notFound => "Not Found"
  | .conflict => "Conflict"
  | .entityTooLarge => "Request Entity Too Large"

/-- `str(HTTPError)`. -/
def httpError (status : Status) : String := s!"HTTP Error {status.code}: {status.phrase}"

/-- `str(RemoteDisconnected)`, where a handler ends without a reply. -/
def disconnected : String := "Remote end closed connection without response"

/-- `AgentObservation.model_validate` of what an agent sends. -/
def received (o : Agent.AgentObservation) : AgentObservation where
  target := o.context.target
  probeType := o.context.probeType.value
  evidenceQuality := o.context.evidenceQuality
  confidence := some o.context.evidenceQuality.confidence
  status := o.result.status
  summary := o.result.summary
  evidence := o.result.evidence
  confidence_mem := fun _ h => Option.some.inj h ▸ o.context.evidenceQuality.confidence_mem

/-- What the reply of a process comes to; a payload without results has none. -/
def outcomeOf : Option AgentReply → Outcome
  | none => .error disconnected
  | some (.results observations) => .ok (observations.map received)
  | some (.failure status _) => .error (httpError status)
  | some .unsupportedMethod => .error "HTTP Error 501: Unsupported method"
  | some (.health _) => .ok []
  | some (.inventory _ _ _ _ _) => .ok []

namespace Fleet

variable (fleet : Fleet) (d : AgentDispatcher)

def probe (agent : RegisteredAgent) (probe : ProbeRequest) : Outcome :=
  let (netloc, target) := splitUrl (probeUrl agent)
  match d.request? target probe with
  | none => .error (fleet.invalid target)
  | some request =>
      match fleet.process? netloc with
      | none => .error fleet.refused
      | some process =>
          match fleet.failure? agent probe with
          | some text => .error text
          | none => outcomeOf ((process.server.serve request).run process.host).1

/-- The agents as the dispatcher sees them, with an order of completion. -/
def network (completion : List RegisteredAgent → List RegisteredAgent)
    (completion_perm : ∀ agents, (completion agents).Perm agents) : AgentNetwork where
  probe := fleet.probe d
  completion
  completion_perm

theorem network_probe {completion : List RegisteredAgent → List RegisteredAgent}
    {completion_perm : ∀ agents, (completion agents).Perm agents} :
    (fleet.network d completion completion_perm).probe = fleet.probe d := by
  simp only [network]

end Fleet

/-! ## What a probe comes to -/

/-- What a result is turned into on its way to the controller. -/
def reported (r : Agent.ProbeRequest) (result : HostResult) : AgentObservation :=
  let evidenceQuality : EvidenceQuality :=
    if result.rawOutput.isSome then .parsedExternal else .singleSource
  { target := (nonEmpty r.target).or result.target
    probeType := r.probeType.value
    evidenceQuality
    confidence := some evidenceQuality.confidence
    status := result.status
    summary := result.summary
    evidence := result.evidence
    confidence_mem := fun _ h => Option.some.inj h ▸ evidenceQuality.confidence_mem }

/-- A probe of a process, without the transport: the token is compared, the request
checked and held against the allowed targets, and the diagnostics run. -/
def AgentProcess.outcome (process : AgentProcess) (token : String) (probe : ProbeRequest) :
    Outcome :=
  let config := process.server.config
  if config.bearerToken.toList.all isAscii = false then .error disconnected
  else if token ≠ config.bearerToken then .error (httpError .unauthorized)
  else
    match Agent.ProbeRequest.check probe.fields with
    | .error _ => .error (httpError .badRequest)
    | .ok r =>
        if Agent.targetError? config r ≠ none then .error (httpError .badRequest)
        else
          match ((Agent.runProbe r).run process.host.timed).1 with
          | none => .error disconnected
          | some results => .ok (results.map (reported r))

/-! ## URLs of agents -/

structure PlainUrl (url netloc : List Char) : Prop where
  parts : ∃ scheme slashes, url = scheme ++ "://".toList ++ netloc ++ slashes ∧
    (∀ c ∈ scheme, c ≠ ':' ∧ isHostChar c = true ∧ isPrintable c = true) ∧ ∀ c ∈ slashes, c = '/'
  netloc_ne : netloc ≠ []
  netloc_chars : ∀ c ∈ netloc, isHostChar c = true ∧ isPrintable c = true

theorem probePath_chars : (∀ c ∈ Agent.probePath, isPrintable c = true ∧ c ≠ '#') ∧
    IsOrigin Agent.probePath := by
  have hchars : (Agent.probePath.all fun c => isPrintable c && c != '#') = true := by
    decide +kernel
  refine ⟨fun c hc => ?_, by decide +kernel⟩
  simpa using List.all_eq_true.mp hchars c hc

theorem ne_hash_of_isHostChar {c : Char} (h : isHostChar c = true) : c ≠ '#' := by
  rintro rfl
  exact absurd h (by decide)

theorem splitUrl_plain {agent : RegisteredAgent} {netloc : List Char}
    (h : PlainUrl agent.url.toList netloc) :
    splitUrl (probeUrl agent) = (netloc, Agent.probePath) := by
  obtain ⟨⟨scheme, slashes, hurl, hscheme, hslashes⟩, hne, hnetloc⟩ := h
  -- The last character of the host is where stripping stops.
  have hstrip : (agent.url.toList.reverse.dropWhile (· = '/')).reverse =
      scheme ++ "://".toList ++ netloc := by
    have hrev : ∀ c ∈ slashes.reverse, decide (c = '/') = true :=
      fun c hc => decide_eq_true (hslashes c (List.mem_reverse.mp hc))
    rw [hurl, List.reverse_append, List.dropWhile_append_of_pos hrev]
    obtain ⟨first, last, rfl⟩ := List.eq_nil_or_concat netloc |>.resolve_left hne
    have hlast : last ≠ '/' := by
      have hchar := (hnetloc last (by simp)).1
      rintro rfl
      exact absurd hchar (by decide)
    rw [List.concat_eq_append, ← List.append_assoc, List.reverse_append, List.reverse_singleton,
      List.singleton_append, List.dropWhile_cons_of_neg (by simpa using hlast)]
    simp
  have hparts : probeUrl agent = scheme ++ ':' :: '/' :: '/' :: (netloc ++ Agent.probePath) := by
    unfold probeUrl
    rw [hstrip, show "://".toList = [':', '/', '/'] from rfl]
    simp
  have hchars : ∀ c ∈ probeUrl agent, isPrintable c = true ∧ c ≠ '#' := by
    rw [hparts]
    intro c hc
    simp only [List.mem_append, List.mem_cons] at hc
    rcases hc with hc | rfl | rfl | rfl | hc | hc
    · exact ⟨(hscheme c hc).2.2, ne_hash_of_isHostChar (hscheme c hc).2.1⟩
    · decide
    · decide
    · decide
    · exact ⟨(hnetloc c hc).2, ne_hash_of_isHostChar (hnetloc c hc).1⟩
    · exact probePath_chars.1 c hc
  have hselector : selector (probeUrl agent) = probeUrl agent :=
    selector_eq_self (fun c hc => (hchars c hc).1) fun hmem => (hchars '#' hmem).2 rfl
  have hscheme : ∀ c ∈ scheme, decide (c ≠ ':') = true :=
    fun c hc => decide_eq_true (hscheme c hc).1
  have hhost : ∀ c ∈ netloc, isHostChar c = true := fun c hc => (hnetloc c hc).1
  have hrest : ((selector (probeUrl agent)).dropWhile (· ≠ ':')).drop 3 =
      netloc ++ Agent.probePath := by
    rw [hselector, hparts, List.dropWhile_append_of_pos hscheme]
    rfl
  have hpath : (netloc ++ Agent.probePath).dropWhile isHostChar = Agent.probePath := by
    rw [List.dropWhile_append_of_pos hhost]
    rfl
  have hnetloc : (netloc ++ Agent.probePath).takeWhile isHostChar = netloc := by
    rw [List.takeWhile_append_of_pos hhost]
    exact List.append_nil netloc
  unfold splitUrl
  simp only [hrest, hpath, hnetloc]
  rfl

/-! ## Serving the request -/

/-- What is relied on of JSON and pydantic: the body of the probe is read back, and its
values are of the types of the fields. -/
structure Speaks (d : AgentDispatcher) (process : AgentProcess) (probe : ProbeRequest) : Prop where
  loads : process.server.loads (d.dumps probe.fields.modelDump) =
    some (.dict probe.fields.modelDump)
  dumps_ne : d.dumps probe.fields.modelDump ≠ []
  fits : (d.dumps probe.fields.modelDump).length ≤ maxBodyBytes
  convert : process.server.lib.convert probe.fields.modelDump = some probe.fields

/-- A process that was set up from its environment, on a machine with a name. -/
def AgentProcess.FromEnv (process : AgentProcess) : Prop :=
  ∃ name environ, name ≠ "" ∧ Agent.AgentConfig.fromEnv name environ = .ok process.server.config

theorem authorize_bearer (config : Agent.AgentConfig) (token : String) :
    Agent.authorize config (some (bearer token)) =
      compareDigest (bearer token) (bearer config.bearerToken) := by
  have hne : bearer token ≠ "" := by
    intro h
    have hchars := congrArg String.toList h
    rw [show (bearer token).toList = "Bearer ".toList ++ token.toList from
      String.toList_append] at hchars
    cases hchars
  have hgiven : nonEmpty (some (bearer token)) = some (bearer token) := by
    simp [nonEmpty, Option.filter, hne]
  unfold Agent.authorize
  rw [hgiven]

theorem modelValidate_fields {lib : Agent.Pydantic} {probe : ProbeRequest}
    (h : lib.convert probe.fields.modelDump = some probe.fields) :
    Agent.ProbeRequest.modelValidate lib probe.fields.modelDump =
      (Agent.ProbeRequest.check probe.fields).mapError lib.explain := by
  unfold Agent.ProbeRequest.modelValidate
  rw [Agent.withDefaults_modelDump, h]

/-- What the agent makes of a result is what the controller keeps of it. -/
theorem received_stamped {config : Agent.AgentConfig} {r : Agent.ProbeRequest}
    {o : Agent.AgentObservation} (h : Agent.Stamped config r o) :
    received o = reported r o.result := by
  unfold received reported
  simp only [h.target, h.probeType, h.evidenceQuality]

section

variable {d : AgentDispatcher} {process : AgentProcess} {probe : ProbeRequest}

theorem request?_eq_some {target : List Char} {request : HttpRequest}
    (h : d.request? target probe = some request) :
    request.command = .post ∧ request.target = target ∧
      request.authorization = some (bearer d.agentBearerToken) ∧
      request.contentLength = some (Nat.repr (d.dumps probe.fields.modelDump).length) ∧
      request.body = d.dumps probe.fields.modelDump := by
  unfold AgentDispatcher.request? at h
  simp only at h
  split at h
  · obtain rfl := Option.some.inj h
    exact ⟨rfl, rfl, rfl, rfl, rfl⟩
  · cases h

/-- The dispatch of a sent probe: the token, the request, the probe itself. -/
theorem serve_sent (htoken : d.agentBearerToken.toList.all isPrintable = true)
    (hspeaks : Speaks d process probe) {request : HttpRequest}
    (hrequest : d.request? Agent.probePath probe = some request) :
    process.server.serve request =
      if process.server.config.bearerToken.toList.all isAscii = false then pure none
      else if d.agentBearerToken ≠ process.server.config.bearerToken then
        pure (some (.failure .unauthorized "valid bearer token required"))
      else
        match Agent.ProbeRequest.check probe.fields with
        | .error refusal =>
            pure (some (.failure .badRequest (process.server.lib.explain refusal)))
        | .ok r =>
            Agent.probe process.server.config process.server.lib r >>= fun
              | .error (.refused message) => pure (some (.failure .badRequest message))
              | .error .raised => pure none
              | .ok observations => pure (some (.results observations)) := by
  obtain ⟨hcommand, htarget, hauthorization, hlength, hsent⟩ := request?_eq_some hrequest
  have hbody := (readJsonBody_sent hspeaks.loads hspeaks.dumps_ne hlength hsent).mpr hspeaks.fits
  have hserve : process.server.serve request =
      process.server.dispatch request probe.fields.modelDump := by
    unfold AgentServer.serve
    rw [hcommand, hbody]
  have hdigest : Agent.authorize process.server.config request.authorization =
      if process.server.config.bearerToken.toList.all isAscii = false then .error .typeError
      else .ok (d.agentBearerToken = process.server.config.bearerToken) := by
    rw [hauthorization, authorize_bearer]
    unfold compareDigest
    rw [isAscii_bearer, isAscii_bearer, all_isAscii htoken, Bool.true_and]
    cases process.server.config.bearerToken.toList.all isAscii <;> simp [bearer_inj]
  rw [hserve]
  unfold AgentServer.dispatch
  rw [hdigest]
  by_cases hascii : process.server.config.bearerToken.toList.all isAscii = false
  · rw [if_pos hascii, if_pos hascii]
  · rw [if_neg hascii, if_neg hascii]
    by_cases hequal : d.agentBearerToken = process.server.config.bearerToken
    · rw [decide_eq_true hequal, if_neg (not_not_intro hequal), hcommand, htarget,
        modelValidate_fields hspeaks.convert]
      cases Agent.ProbeRequest.check probe.fields with
      | error refusal => rfl
      | ok r => rfl
    · rw [decide_eq_false hequal, if_pos hequal]

theorem outcome_of_serve (htoken : d.agentBearerToken.toList.all isPrintable = true)
    (hspeaks : Speaks d process probe) (henv : process.FromEnv) {request : HttpRequest}
    (hrequest : d.request? Agent.probePath probe = some request) :
    outcomeOf ((process.server.serve request).run process.host).1 =
      process.outcome d.agentBearerToken probe := by
  obtain ⟨name, environ, hname, hconfig⟩ := henv
  obtain ⟨hagent, -, hhost⟩ := Agent.fromEnv_named hconfig
  rw [serve_sent htoken hspeaks hrequest]
  unfold AgentProcess.outcome
  simp only
  by_cases hascii : process.server.config.bearerToken.toList.all isAscii = false
  · rw [if_pos hascii, if_pos hascii]
    rfl
  · rw [if_neg hascii, if_neg hascii]
    by_cases hequal : d.agentBearerToken = process.server.config.bearerToken
    · rw [if_neg (not_not_intro hequal), if_neg (not_not_intro hequal)]
      cases Agent.ProbeRequest.check probe.fields with
      | error refusal => rfl
      | ok r =>
          simp only
          rw [Program.run_bind]
          cases hallowed : Agent.targetError? process.server.config r with
          | some message =>
              rw [if_pos (by simp)]
              unfold Agent.probe
              rw [hallowed]
              rfl
          | none =>
              rw [if_neg (by simp)]
              have hrun := Agent.run_probe process.server.lib r hallowed hagent (hhost ▸ hname)
                process.host
              cases hfound : ((Agent.runProbe r).run process.host.timed).1 with
              | none =>
                  rw [hfound] at hrun
                  rw [hrun]
                  rfl
              | some results =>
                  rw [hfound] at hrun
                  obtain ⟨observations, hok, hresults, hstamped⟩ := hrun
                  rw [hok]
                  show Except.ok (observations.map received) = Except.ok (results.map (reported r))
                  rw [← hresults, List.map_map]
                  apply congrArg Except.ok
                  apply List.map_congr_left
                  intro o ho
                  exact received_stamped (hstamped o ho)
    · rw [if_pos hequal, if_pos hequal]
      rfl

end

/-! ## What a job records -/

/-- A process answers at the URL of the agent, and the exchange does not fail. -/
structure Fleet.Serves (fleet : Fleet) (d : AgentDispatcher) (probe : ProbeRequest)
    (agent : RegisteredAgent) (process : AgentProcess) : Prop where
  listens : ∃ netloc, PlainUrl agent.url.toList netloc ∧ fleet.process? netloc = some process
  delivered : fleet.failure? agent probe = none
  speaks : Speaks d process probe
  fromEnv : process.FromEnv

section

variable {fleet : Fleet} {d : AgentDispatcher}
  (htoken : d.agentBearerToken.toList.all isPrintable = true)
include htoken

theorem probe_served {probe : ProbeRequest} {agent : RegisteredAgent} {process : AgentProcess}
    (h : fleet.Serves d probe agent process) :
    fleet.probe d agent probe = process.outcome d.agentBearerToken probe := by
  obtain ⟨⟨netloc, hurl, hprocess⟩, hdelivered, hspeaks, henv⟩ := h
  have hprint : Agent.probePath.all isPrintable = true :=
    List.all_eq_true.mpr fun c hc => (probePath_chars.1 c hc).1
  have hsend : (d.request? Agent.probePath probe).isSome = true := by
    unfold AgentDispatcher.request?
    simp only
    rw [dif_pos ⟨probePath_chars.2, hprint⟩]
    rfl
  obtain ⟨request, hrequest⟩ := Option.isSome_iff_exists.mp hsend
  unfold Fleet.probe
  rw [splitUrl_plain hurl]
  simp only [hrequest, hprocess, hdelivered]
  exact outcome_of_serve htoken hspeaks henv hrequest

/-- A job over available agents records, for every agent that a process serves, what the
probe of that process comes to: its observations, or the text of its error, and nothing
for an agent that was not asked. -/
theorem job_records_agent_outcomes (completion : List RegisteredAgent → List RegisteredAgent)
    (completion_perm : ∀ agents, (completion agents).Perm agents) (w : World)
    (request : FanoutJobRequest) (havailable : ∀ agentId ∈ request.agentIds, w.Available agentId) :
    let network := fleet.network d completion completion_perm
    ∃ job, ((dispatchJob request).run (w.over network)).1 = .ok job ∧
      ((dispatchJob request).run (w.over network)).2.store.jobs.find? job.jobId = some job ∧
      (∀ agentId agent process, agentId ∈ request.agentIds →
        w.store.agents.find? agentId = some agent →
        fleet.Serves d request.probe agent process →
          Entries.value? job.observations agentId =
              (process.outcome d.agentBearerToken request.probe).toOption ∧
            Entries.value? job.errors agentId =
              (process.outcome d.agentBearerToken request.probe).error?) ∧
      ∀ agentId, agentId ∉ request.agentIds →
        Entries.value? job.observations agentId = none ∧
          Entries.value? job.errors agentId = none := by
  intro network
  have hnetwork : network.probe = fleet.probe d := fleet.network_probe d
  clear_value network
  obtain ⟨agents, job, -, hrun, hstored, -, -, haccount⟩ :=
    @dispatchJob_served w network request havailable
  refine ⟨job, hrun, hstored, ?_, ?_⟩
  · intro agentId agent process hasked hfind hserves
    have hprobe : network.probe agent request.probe = _ :=
      (congrFun₂ hnetwork agent request.probe).trans (probe_served htoken hserves)
    constructor
    · ext observations
      rw [haccount.observed, toOption_eq_some, ← hprobe]
      simp [hasked, hfind]
    · ext text
      rw [haccount.raised, Outcome.error?_eq_some, ← hprobe]
      simp [hasked, hfind]
  · intro agentId hasked
    constructor
    · rw [Option.eq_none_iff_forall_ne_some]
      exact fun observations hvalue => hasked ((haccount.observed _ _).mp hvalue).1
    · rw [Option.eq_none_iff_forall_ne_some]
      exact fun text hvalue => hasked ((haccount.raised _ _).mp hvalue).1

end

namespace Sample

def environ : List (String × String) :=
  [("NETFORGE_AGENT_ID", "edge-2"), ("NETFORGE_AGENT_TOKEN", "secret"),
    ("NETFORGE_ALLOWED_TARGETS", "10.0.0.5, 10.0.0.6")]

def edgeConfig : Agent.AgentConfig where
  agentId := "edge-2"
  bearerToken := "secret"
  hostname := "edge"
  allowedTargets := ["10.0.0.5", "10.0.0.6"]
  topologyTags := []

theorem edgeConfig_fromEnv : Agent.AgentConfig.fromEnv "edge" environ = .ok edgeConfig := by
  rfl

def ping : ProbeRequest where
  probeType := .icmp
  target := "10.0.0.5"
  port := none
  count := 3

def pong : HostResult where
  module := .packetLoss
  status := .healthy
  summary := "0% packet loss"
  target := some "10.0.0.5"
  metrics := []
  errors := []
  evidence := ["3 packets transmitted, 3 received"]
  rawOutput := none

def edgeHost : Host where
  answer := fun _ c =>
    match c with
    | .perfCounter => (0 : Rat)
    | .uuid4 => "o1"
    | .now => (0 : Rat)
    | .netIfStats => []
    | .pingHost _ _ => some pong
    | .testTcp _ _ _ => none
    | .resolveHostname _ => none
    | .getDnsServers => none
    | .tracerouteToResult _ _ => none
    | .inspectInterfaces => none
    | .inspectRoutingTable => none
    | .checkGatewayReachability _ => none
  answered := 0
  monotonic := fun _ _ _ => le_refl _

def edge : AgentProcess where
  server :=
    { config := edgeConfig
      lib :=
        { convert := fun _ => some ping.fields
          explain := fun _ => "1 validation error" }
      loads := fun _ => some (.dict ping.fields.modelDump) }
  host := edgeHost

def dispatcher : AgentDispatcher where
  agentBearerToken := "secret"
  dumps := fun _ => encodeUtf8 ("\x7b\"probe_type\":\"icmp\",\"target\":\"10.0.0.5\"," ++
    "\"port\":null,\"count\":3,\"max_hops\":20,\"timeout_seconds\":5.0," ++
    "\"source_interface\":null\x7d")

def fleet : Fleet where
  process? := fun netloc => if netloc = "10.0.0.9:8081".toList then some edge else none
  failure? := fun _ _ => none
  invalid := fun _ => "URL can't contain control characters"
  refused := "<urlopen error [Errno 111] Connection refused>"

def edgeAgent : RegisteredAgent where
  agentId := "edge-2"
  url := "http://10.0.0.9:8081/"
  topologyTags := []
  enabled := true
  lastSeenAt := none

def pingJob : FanoutJobRequest where
  agentIds := ["edge-2"]
  probe := ping
  agentIds_length := by decide

def edgeWorld : World := (perform (.upsertAgent edgeAgent) world).2

theorem edge_listens : fleet.Serves dispatcher ping edgeAgent edge where
  listens := by
    have hchars : ∀ c ∈ "10.0.0.9:8081".toList, isHostChar c = true ∧ isPrintable c = true := by
      have hall : ("10.0.0.9:8081".toList.all fun c => isHostChar c && isPrintable c) = true := by
        decide +kernel
      intro c hc
      simpa using List.all_eq_true.mp hall c hc
    have hscheme : ∀ c ∈ "http".toList,
        c ≠ ':' ∧ isHostChar c = true ∧ isPrintable c = true := by
      have hall : ("http".toList.all fun c =>
          c != ':' && isHostChar c && isPrintable c) = true := by decide +kernel
      intro c hc
      simpa [and_assoc] using List.all_eq_true.mp hall c hc
    refine ⟨"10.0.0.9:8081".toList, ⟨⟨"http".toList, ['/'], rfl, hscheme, by simp⟩, ?_, hchars⟩, ?_⟩
    · decide +kernel
    · simp only [fleet, if_true]
  delivered := rfl
  speaks := ⟨rfl, by decide +kernel, by decide +kernel, rfl⟩
  fromEnv := ⟨"edge", environ, by decide, edgeConfig_fromEnv⟩

end Sample

/-- The agent of a job is asked for a ping and its answer recorded. -/
theorem edge_job_recorded : ∃ job : FanoutJob,
    Entries.value? job.observations "edge-2" =
      some [reported ⟨Sample.ping.fields, by decide, by decide⟩ Sample.pong] := by
  have havailable : ∀ agentId ∈ Sample.pingJob.agentIds, Sample.edgeWorld.Available agentId := by
    intro agentId hid
    rw [List.mem_singleton.mp hid]
    exact ⟨Sample.edgeAgent, rfl, rfl⟩
  obtain ⟨job, -, -, hrecorded, -⟩ :=
    @job_records_agent_outcomes Sample.fleet Sample.dispatcher (by decide +kernel) id
      (fun _ => .refl _) Sample.edgeWorld Sample.pingJob havailable
  have houtcome := (hrecorded "edge-2" Sample.edgeAgent Sample.edge (by decide) rfl
    Sample.edge_listens).1
  exact ⟨job, houtcome.trans rfl⟩

end NetForge.Controller
