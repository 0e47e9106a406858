import Mathlib.Data.Rat.Defs
import Mathlib.Algebra.Order.Ring.Rat
import Mathlib.Data.List.Sort

/-! # Network topology and service inventory

The validated models of `controller/topology.py`: each validator of the source
is a field of the structure, so an invalid node, edge, graph or service cannot
be built. The tags of services, which no modelled function reads, are left out.
-/

namespace NetForge.Controller

inductive NodeRole
  | agent | gateway | switch | host | target | service
  deriving DecidableEq, Repr

inductive EdgeKind
  | lan | wan | link
  deriving DecidableEq, Repr

inductive ServiceProtocol
  | tcp | udp
  deriving DecidableEq, Repr

structure TopologyNode where
  nodeId : String
  label : Option String := none
  role : NodeRole
  agentId : Option String
  address : Option String := none
  tags : List (String × String)
  nodeId_ne : nodeId ≠ ""
  deriving DecidableEq

structure TopologyEdge where
  src : String
  dst : String
  kind : EdgeKind
  capacityMbps : Option Rat
  tags : List (String × String)
  src_ne : src ≠ ""
  dst_ne : dst ≠ ""
  capacity_pos : ∀ c ∈ capacityMbps, 0 < c
  loopless : src ≠ dst
  deriving DecidableEq

/-- A referentially intact graph: node ids are unique and every edge endpoint is
a declared node. -/
structure NetworkTopology where
  schemaVersion : String := "1.0"
  name : String
  nodes : List TopologyNode
  edges : List TopologyEdge
  name_ne : name ≠ ""
  nodes_nodup : (nodes.map (·.nodeId)).Nodup
  src_known : ∀ e ∈ edges, e.src ∈ nodes.map (·.nodeId)
  dst_known : ∀ e ∈ edges, e.dst ∈ nodes.map (·.nodeId)

structure ServiceEndpoint where
  serviceId : String
  name : String
  nodeId : Option String
  host : String
  port : Nat
  protocol : ServiceProtocol
  serviceId_ne : serviceId ≠ ""
  name_ne : name ≠ ""
  host_ne : host ≠ ""
  port_mem : 1 ≤ port ∧ port ≤ 65535

namespace NetworkTopology

def hasNode (t : NetworkTopology) (nodeId : String) : Bool :=
  t.nodes.any (·.nodeId = nodeId)

/-- Undirected adjacency: nodes reachable from `nodeId` in one hop. -/
def neighbors (t : NetworkTopology) (nodeId : String) : List String :=
  t.edges.foldl
    (fun result edge =>
      if edge.src = nodeId ∧ edge.dst ∉ result then result ++ [edge.dst]
      else if edge.dst = nodeId ∧ edge.src ∉ result then result ++ [edge.src]
      else result)
    []

/-- Nodes bound to an agent: an explicit non-empty agent id, or the agent role. -/
def agentNodes (t : NetworkTopology) : List TopologyNode :=
  t.nodes.filter fun n => (n.agentId.any (· ≠ "")) || n.role = .agent

end NetworkTopology

end NetForge.Controller
