import NetForge.Controller.Vantage
import NetForge.Controller.Monitoring
import NetForge.Python.Value

/-! # Probe requests

The request of `agent/models.py`: its fields with their defaults, the bounds they are
declared with, and the rules that tie target and port to the type of the probe. A
request is a value that keeps all of them. How pydantic converts JSON to the types of
the fields, and how it words a refusal, are parameters.
-/

namespace NetForge.Controller

def ProbeType.value : ProbeType → String
  | .icmp => "icmp"
  | .tcp => "tcp"
  | .dns => "dns"
  | .traceroute => "traceroute"
  | .interfaces => "interfaces"
  | .route => "route"
  | .gateway => "gateway"

end NetForge.Controller

namespace NetForge.Agent

open Controller Python

def targetedProbes : List ProbeType := [.icmp, .tcp, .dns, .traceroute]

structure ProbeFields where
  probeType : ProbeType
  target : Option String
  port : Option Int
  count : Int
  maxHops : Int
  timeoutSeconds : Rat
  sourceInterface : Option String
  deriving DecidableEq

namespace ProbeFields

/-- The fields whose value is beyond the bounds they are declared with. -/
def outOfBounds (f : ProbeFields) : List String :=
  [("port", f.port.all fun port => decide (1 ≤ port ∧ port ≤ 65535)),
    ("count", decide (1 ≤ f.count ∧ f.count ≤ 20)),
    ("max_hops", decide (1 ≤ f.maxHops ∧ f.maxHops ≤ 64)),
    ("timeout_seconds", decide (0 < f.timeoutSeconds ∧ f.timeoutSeconds ≤ 30))].filterMap
      fun bound => if bound.2 then none else some bound.1

def scopeError? (f : ProbeFields) : Option String :=
  if f.probeType ∈ targetedProbes ∧ nonEmpty f.target = none then
    some s!"target is required for {f.probeType.value}"
  else if f.probeType = .tcp ∧ f.port = none then some "port is required for tcp probes"
  else if f.probeType ≠ .tcp ∧ f.port ≠ none then some "port is only valid for tcp probes"
  else none

def modelDump (f : ProbeFields) : Dict :=
  [("probe_type", .str f.probeType.value),
    ("target", (f.target.map PyVal.str).getD .none),
    ("port", (f.port.map fun port => PyVal.num port).getD .none),
    ("count", .num f.count),
    ("max_hops", .num f.maxHops),
    ("timeout_seconds", .num f.timeoutSeconds),
    ("source_interface", (f.sourceInterface.map PyVal.str).getD .none)]

end ProbeFields

def probeDefaults : Dict :=
  [("target", .none), ("port", .none), ("count", .num 3), ("max_hops", .num 20),
    ("timeout_seconds", .num 5), ("source_interface", .none)]

def withDefaults (body : Dict) : Dict :=
  body ++ probeDefaults.filter fun item => (body.lookup item.1).isNone

structure ProbeRequest extends ProbeFields where
  inBounds : toProbeFields.outOfBounds = []
  inScope : toProbeFields.scopeError? = none

inductive Refusal
  | types (body : Dict)
  | bounds (fields : List String)
  | scope (message : String)
  | context (fields : List String)

/-- The two parts of pydantic that the agent relies on. -/
structure Pydantic where
  convert : Dict → Option ProbeFields
  explain : Refusal → String

def ProbeRequest.check (f : ProbeFields) : Except Refusal ProbeRequest :=
  if inBounds : f.outOfBounds = [] then
    match inScope : f.scopeError? with
    | none => .ok ⟨f, inBounds, inScope⟩
    | some message => .error (.scope message)
  else .error (.bounds f.outOfBounds)

/-- `ProbeRequest.model_validate(body)`; the error is the text of the validation error. -/
def ProbeRequest.modelValidate (lib : Pydantic) (body : Dict) : Except String ProbeRequest :=
  match lib.convert (withDefaults body) with
  | none => .error (lib.explain (.types body))
  | some f => (ProbeRequest.check f).mapError lib.explain

/-! ## What validation leaves -/

section

variable {f : ProbeFields}

theorem outOfBounds_eq_nil : f.outOfBounds = [] ↔
    (∀ port ∈ f.port, 1 ≤ port ∧ port ≤ 65535) ∧ (1 ≤ f.count ∧ f.count ≤ 20) ∧
      (1 ≤ f.maxHops ∧ f.maxHops ≤ 64) ∧ 0 < f.timeoutSeconds ∧ f.timeoutSeconds ≤ 30 := by
  have hport : (f.port.all fun port => decide (1 ≤ port ∧ port ≤ 65535)) = true ↔
      ∀ port ∈ f.port, 1 ≤ port ∧ port ≤ 65535 := by
    cases f.port <;> simp
  rw [← hport]
  unfold ProbeFields.outOfBounds
  simp only [List.filterMap_eq_nil_iff, List.mem_cons, List.not_mem_nil, or_false,
    forall_eq_or_imp, forall_eq, ite_eq_left_iff, reduceCtorEq, imp_false, not_not,
    decide_eq_true_eq]

theorem scopeError?_eq_none : f.scopeError? = none ↔
    (f.probeType ∈ targetedProbes → nonEmpty f.target ≠ none) ∧
      (f.probeType = .tcp ↔ f.port ≠ none) := by
  unfold ProbeFields.scopeError?
  by_cases htarget : f.probeType ∈ targetedProbes ∧ nonEmpty f.target = none
  · rw [if_pos htarget]
    exact iff_of_false (by simp) fun h => h.1 htarget.1 htarget.2
  · have hgiven : f.probeType ∈ targetedProbes → nonEmpty f.target ≠ none := not_and.mp htarget
    rw [if_neg htarget, and_iff_right hgiven]
    by_cases htcp : f.probeType = .tcp
    · by_cases hport : f.port = none <;> simp [htcp, hport]
    · by_cases hport : f.port = none <;> simp [htcp, hport]

/-- A body that gives every field is validated as it stands. -/
theorem withDefaults_modelDump (f : ProbeFields) : withDefaults f.modelDump = f.modelDump := by
  have hgiven : (probeDefaults.filter fun item => (f.modelDump.lookup item.1).isNone) = [] := rfl
  unfold withDefaults
  rw [hgiven, List.append_nil]

end

namespace ProbeRequest

variable (r : ProbeRequest)

theorem bounded : (∀ port ∈ r.port, 1 ≤ port ∧ port ≤ 65535) ∧ (1 ≤ r.count ∧ r.count ≤ 20) ∧
    (1 ≤ r.maxHops ∧ r.maxHops ≤ 64) ∧ 0 < r.timeoutSeconds ∧ r.timeoutSeconds ≤ 30 :=
  outOfBounds_eq_nil.mp r.inBounds

theorem port_of_tcp (h : r.probeType = .tcp) : ∃ port, r.port = some port ∧ 1 ≤ port ∧
    port ≤ 65535 := by
  have hport := (scopeError?_eq_none.mp r.inScope).2.mp h
  obtain ⟨port, hsome⟩ := Option.ne_none_iff_exists'.mp hport
  exact ⟨port, hsome, r.bounded.1 port hsome⟩

end ProbeRequest

end NetForge.Agent
