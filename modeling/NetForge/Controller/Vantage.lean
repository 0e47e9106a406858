import NetForge.Calculus.Entries
import NetForge.Controller.Topology
import NetForge.Analysis.Multivantage

/-! # Vantage-point selection

`controller/vantage.py`: which registered, topology-bound agents probe a target
service, and in which role.
-/

namespace NetForge.Controller

open Analysis Calculus

/-- One row of the agent correlation of a topology: an agent-bound node and what
the registry knows about its agent. -/
structure CorrelatedNode where
  nodeId : String
  agentId : Option String
  registered : Bool
  enabled : Bool
  deriving DecidableEq

structure VantageAssignment where
  role : VantageRole
  nodeId : String
  agentId : String
  deriving DecidableEq

structure VantagePlan where
  target : String
  serviceId : Option String
  topology : Option String
  assignments : List VantageAssignment
  deriving DecidableEq

/-- `eligible[key] = value` on an insertion-ordered dict. -/
def setEntry (dict : List (String × String)) (key value : String) : List (String × String) :=
  if dict.any (·.1 = key) then dict.map (fun e => if e.1 = key then (key, value) else e)
  else dict ++ [(key, value)]

def getEntry (dict : List (String × String)) (key : String) : Option String :=
  (dict.find? (·.1 = key)).map (·.2)

theorem setEntry_eq (dict : List (String × String)) (key value : String) :
    setEntry dict key value = Entries.alter dict key fun _ => value := by
  have hany : (dict.any (·.1 = key) = true) = (key ∈ Entries.keys dict) := by
    simp [Entries.keys]
  unfold setEntry Entries.alter
  simp only [hany]

/-- Node id to agent id for registered, enabled, agent-bound nodes. -/
def eligibleNodes (correlation : List CorrelatedNode) : List (String × String) :=
  correlation.foldl
    (fun eligible node =>
      match node.agentId with
      | some agentId =>
          if node.registered && node.enabled && agentId ≠ "" then
            setEntry eligible node.nodeId agentId
          else eligible
      | none => eligible)
    []

/-- The assignment of a node in a role, when the node is eligible. -/
def assign (eligible : List (String × String)) (role : VantageRole) (nodeId : String) :
    List VantageAssignment :=
  ((getEntry eligible nodeId).map fun agentId => ⟨role, nodeId, agentId⟩).toList

def nonEmpty (value : Option String) : Option String := value.filter (· ≠ "")

def selectVantages (topology : NetworkTopology) (service : ServiceEndpoint)
    (correlation : List CorrelatedNode) (sourceNodeId : Option String) : VantagePlan :=
  let eligible := eligibleNodes correlation
  let isEligible := fun nodeId => (getEntry eligible nodeId).isSome
  let dest := (nonEmpty service.nodeId).filter isEligible
  let candidates :=
    ((eligible.map (·.1)).filter fun nodeId => dest ≠ some nodeId).insertionSort (· ≤ ·)
  let source := nonEmpty
    (match (nonEmpty sourceNodeId).filter (fun n => isEligible n && dest ≠ some n) with
    | some requested => some requested
    | none => candidates.head?)
  let remaining := candidates.filter fun nodeId => source ≠ some nodeId
  -- A vantage that is not adjacent to the destination is preferred.
  let distant :=
    match nonEmpty service.nodeId with
    | some destNode => remaining.find? fun nodeId => nodeId ∉ topology.neighbors destNode
    | none => none
  let third :=
    match distant with
    | some nodeId => some nodeId
    | none => remaining.head?
  { target := service.host
    serviceId := some service.serviceId
    topology := some topology.name
    assignments :=
      (dest.map (assign eligible .destination)).getD [] ++
        (source.map (assign eligible .source)).getD [] ++
        (nonEmpty third |>.map (assign eligible .third)).getD [] }

end NetForge.Controller
