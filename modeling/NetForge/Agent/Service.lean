import NetForge.Agent.Request
import NetForge.Calculus.Entries
import NetForge.Calculus.Program
import NetForge.Controller.Http

/-! # The remote agent

`agent/service.py` and the handler of `agent/http_server.py`: a request is authorised,
validated and held against the targets the agent may probe before a diagnostic of the
host is run; each result is sent back in an envelope that says where it comes from. The
diagnostics themselves are calls of the host.
-/

namespace NetForge.Agent

open Calculus Controller NetForge.Core Python

/-! ## Configuration -/

structure AgentConfig where
  agentId : String
  bearerToken : String
  hostname : String
  allowedTargets : List String
  topologyTags : List (String × String)

def tagPrefix : List Char := "NETFORGE_TAG_".toList

def tagOf (entry : String × String) : Option (String × String) :=
  if tagPrefix.isPrefixOf entry.1.toList ∧ entry.2 ≠ "" then
    some (lower (String.ofList (entry.1.toList.drop tagPrefix.length)), entry.2)
  else none

/-- `from_env`, with the environment and the host name of the machine. -/
def AgentConfig.fromEnv (gethostname : String) (environ : List (String × String)) :
    Except PyError AgentConfig :=
  let agentId := strip ((environ.lookup "NETFORGE_AGENT_ID").getD "")
  let token := (environ.lookup "NETFORGE_AGENT_TOKEN").getD ""
  if agentId = "" ∨ token = "" then
    .error (.valueError "NETFORGE_AGENT_ID and NETFORGE_AGENT_TOKEN are required")
  else
    let targets := (environ.lookup "NETFORGE_ALLOWED_TARGETS").getD ""
    .ok
      { agentId
        bearerToken := token
        hostname := gethostname
        allowedTargets := ((splitChar ',' targets).map strip).filter (· ≠ "")
        topologyTags := Entries.overwrite [] (environ.filterMap tagOf) }

/-! ## The host -/

/-- A result of a diagnostic, with the parts that only the envelope reads. -/
structure HostResult extends DiagnosticResult where
  evidence : List String
  rawOutput : Option String

structure NetworkInterface where
  name : String
  isUp : Bool
  speedMbps : Int
  mtu : Int

inductive HostCall
  | perfCounter
  | uuid4
  | now
  | netIfStats
  | pingHost (host : String) (count : Int)
  | testTcp (host : String) (port : Int) (timeout : Rat)
  | resolveHostname (hostname : String)
  | getDnsServers
  | tracerouteToResult (target : String) (maxHops : Int)
  | inspectInterfaces
  | inspectRoutingTable
  | checkGatewayReachability (count : Int)
  deriving DecidableEq

abbrev HostCall.Reply : HostCall → Type
  | .perfCounter => Rat
  | .uuid4 => String
  | .now => Rat
  | .netIfStats => List NetworkInterface
  | .getDnsServers => Option (List String)
  | .inspectInterfaces => Option (List HostResult)
  | _ => Option HostResult

/-- A host: what it answers to the call after so many calls. -/
structure Host where
  answer : Nat → (c : HostCall) → c.Reply
  answered : Nat
  monotonic : ∀ i j, i ≤ j → answer i .perfCounter ≤ answer j .perfCounter

abbrev host : Interface Host where
  Call := HostCall
  Reply := HostCall.Reply
  perform := fun c h => (h.answer h.answered c, { h with answered := h.answered + 1 })

def ask (c : HostCall) : Program host c.Reply := Program.request (I := host) c

/-! ## Observations -/

/-- The provenance of a result, with the checks of its model. Its confidence is the one
of its evidence quality. -/
structure RemoteObservationContext where
  observationId : String
  timestamp : Rat
  agentId : String
  hostname : String
  probeType : ProbeType
  target : Option String
  sourceInterface : Option String
  sampleCount : Int
  durationMs : Rat
  topologyTags : List (String × String)
  rawOutput : Option String
  evidenceQuality : EvidenceQuality
  agentId_ne : agentId ≠ ""
  hostname_ne : hostname ≠ ""
  sampleCount_nonneg : 0 ≤ sampleCount
  durationMs_nonneg : 0 ≤ durationMs

structure AgentObservation where
  context : RemoteObservationContext
  result : HostResult

/-! ## The service -/

/-- What leaves a method: a refusal that is answered, or another exception. -/
inductive AgentError
  | refused (message : String)
  | raised

section

variable (config : AgentConfig) (lib : Pydantic)

/-- `authorize`: whether the request may go on. -/
def authorize (authorization : Option String) : Except PyError Bool :=
  match nonEmpty authorization with
  | none => .ok false
  | some text => compareDigest text (bearer config.bearerToken)

def targetError? (r : ProbeRequest) : Option String :=
  if r.probeType ∉ targetedProbes then none
  else if config.allowedTargets = [] then some "agent has no allowed targets configured"
  else if r.target.any (· ∈ config.allowedTargets) then none
  else
    let target := r.target.getD "None"
    some s!"target is not allowed: {target}"

def single (p : Program host (Option HostResult)) : Program host (Option (List HostResult)) := do
  match ← p with
  | none => pure none
  | some result => pure (some [result])

def runProbe (r : ProbeRequest) : Program host (Option (List HostResult)) :=
  match r.probeType with
  | .icmp => single (ask (.pingHost (r.target.getD "") r.count))
  | .tcp => single (ask (.testTcp (r.target.getD "") (r.port.getD 0) r.timeoutSeconds))
  | .dns => do
      match ← ask (.resolveHostname (r.target.getD "")) with
      | none => pure none
      | some result =>
          match ← ask .getDnsServers with
          | none => pure none
          | some servers =>
              let metrics := Entries.alter result.metrics "dns_servers"
                fun _ => .list (servers.map .str)
              pure (some [{ result with metrics }])
  | .traceroute => single (ask (.tracerouteToResult (r.target.getD "") r.maxHops))
  | .interfaces => ask .inspectInterfaces
  | .route => single (ask .inspectRoutingTable)
  | .gateway => single (ask (.checkGatewayReachability r.count))

def contextErrors (durationMs : Rat) : List String :=
  [("agent_id", decide (config.agentId ≠ "")), ("hostname", decide (config.hostname ≠ "")),
    ("duration_ms", decide (0 ≤ durationMs))].filterMap
      fun check => if check.2 then none else some check.1

theorem contextErrors_eq_nil {durationMs : Rat} :
    contextErrors config durationMs = [] ↔
      config.agentId ≠ "" ∧ config.hostname ≠ "" ∧ 0 ≤ durationMs := by
  unfold contextErrors
  simp only [List.filterMap_eq_nil_iff, List.mem_cons, List.not_mem_nil, or_false,
    forall_eq_or_imp, forall_eq, ite_eq_left_iff, reduceCtorEq, imp_false, not_not,
    decide_eq_true_eq]

def sampleCount (r : ProbeRequest) : Int :=
  if r.probeType = .icmp ∨ r.probeType = .traceroute then r.count else 1

theorem sampleCount_nonneg (r : ProbeRequest) : 0 ≤ sampleCount r := by
  have hcount := r.bounded.2.1.1
  unfold sampleCount
  split <;> omega

def toObservation (r : ProbeRequest) (durationMs : Rat) (result : HostResult) :
    Program host (Except AgentError AgentObservation) := do
  let observationId ← ask .uuid4
  let timestamp ← ask .now
  if h : contextErrors config durationMs = [] then
    let context : RemoteObservationContext :=
      { observationId
        timestamp
        agentId := config.agentId
        hostname := config.hostname
        probeType := r.probeType
        target := (nonEmpty r.target).or result.target
        sourceInterface := r.sourceInterface
        sampleCount := sampleCount r
        durationMs
        topologyTags := config.topologyTags
        rawOutput := result.rawOutput
        evidenceQuality := if result.rawOutput.isSome then .parsedExternal else .singleSource
        agentId_ne := ((contextErrors_eq_nil config).mp h).1
        hostname_ne := ((contextErrors_eq_nil config).mp h).2.1
        sampleCount_nonneg := sampleCount_nonneg r
        durationMs_nonneg := ((contextErrors_eq_nil config).mp h).2.2 }
    pure (.ok ⟨context, result⟩)
  else pure (.error (.refused (lib.explain (.context (contextErrors config durationMs)))))

def toObservations (r : ProbeRequest) (durationMs : Rat) :
    List HostResult → Program host (Except AgentError (List AgentObservation))
  | [] => pure (.ok [])
  | result :: rest => do
      match ← toObservation config lib r durationMs result with
      | .error e => pure (.error e)
      | .ok observation =>
          match ← toObservations r durationMs rest with
          | .error e => pure (.error e)
          | .ok observations => pure (.ok (observation :: observations))

def probe (r : ProbeRequest) : Program host (Except AgentError (List AgentObservation)) :=
  match targetError? config r with
  | some message => pure (.error (.refused message))
  | none => do
      let started ← ask .perfCounter
      match ← runProbe r with
      | none => pure (.error .raised)
      | some results =>
          let finished ← ask .perfCounter
          toObservations config lib r (roundTo 2 ((finished - started) * 1000)) results

end

/-! ## Serving a request -/

inductive AgentReply
  | failure (status : Status) (message : String)
  /-- The reply of the base class to a command without a handler. -/
  | unsupportedMethod
  | health (agentId : String)
  | inventory (agentId hostname : String) (topologyTags : List (String × String))
      (interfaces : List NetworkInterface) (capabilities : List String)
  | results (observations : List AgentObservation)

structure AgentServer where
  config : AgentConfig
  lib : Pydantic
  loads : Bytes → Option PyVal

/-- `[probe.value for probe in ProbeType]`. -/
def capabilities : List String :=
  [ProbeType.icmp, .tcp, .dns, .traceroute, .interfaces, .route, .gateway].map (·.value)

def probePath : List Char := "/v1/probe".toList

namespace AgentServer

variable (server : AgentServer)

/-- `_dispatch`; no reply where an exception leaves the handler. -/
def dispatch (request : HttpRequest) (body : Dict) : Program host (Option AgentReply) :=
  match authorize server.config request.authorization with
  | .error _ => pure none
  | .ok false => pure (some (.failure .unauthorized "valid bearer token required"))
  | .ok true =>
      if request.command = .get ∧ request.target = "/v1/health".toList then
        pure (some (.health server.config.agentId))
      else if request.command = .get ∧ request.target = "/v1/inventory".toList then do
        let stats ← ask .netIfStats
        pure (some (.inventory server.config.agentId server.config.hostname
          server.config.topologyTags stats capabilities))
      else if request.command = .post ∧ request.target = probePath then
        match ProbeRequest.modelValidate server.lib body with
        | .error message => pure (some (.failure .badRequest message))
        | .ok r => do
            match ← probe server.config server.lib r with
            | .error (.refused message) => pure (some (.failure .badRequest message))
            | .error .raised => pure none
            | .ok observations => pure (some (.results observations))
      else pure (some (.failure .notFound "unknown endpoint"))

def serve (request : HttpRequest) : Program host (Option AgentReply) :=
  match request.command with
  | .post =>
      match (readJsonBody server.loads maxBodyBytes request).result with
      | .error (.tooLarge message) => pure (some (.failure .entityTooLarge message))
      | .error (.malformed message) => pure (some (.failure .badRequest message))
      | .ok body => server.dispatch request body
  | .get => server.dispatch request []
  | .delete => pure (some .unsupportedMethod)

end AgentServer

end NetForge.Agent
