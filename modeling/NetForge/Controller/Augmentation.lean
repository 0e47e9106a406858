import NetForge.Controller.Exactness
import NetForge.Python.Error
import Mathlib.Data.List.Dedup

/-! # Access edges from bindings

`augment_topology_with_bindings` of `controller/correlation.py`. The constructors of the
graph models validate what they are given: a value that fails a validator raises its
message. Augmenting a graph with its own correlation passes every validator but one: a
switch that was correlated with itself is refused as a loop.
-/

namespace NetForge.Controller

open NetForge.Core NetForge.Python Calculus

/-! ## Validated constructors -/

def tooShort : PyError := .valueError "String should have at least 1 character"

def TopologyNode.create (nodeId : String) (role : NodeRole) (label : Option String) :
    Except PyError TopologyNode :=
  if hid : nodeId = "" then .error tooShort
  else .ok { nodeId, label, role, agentId := none, tags := [], nodeId_ne := hid }

def TopologyEdge.create (src dst : String) (kind : EdgeKind) (capacityMbps : Option Rat)
    (tags : List (String × String)) : Except PyError TopologyEdge :=
  if hsrc : src = "" then .error tooShort
  else if hdst : dst = "" then .error tooShort
  else if hcapacity : ∀ c ∈ capacityMbps, 0 < c then
    if hloop : src = dst then
      .error (.valueError "edge src and dst must reference different nodes")
    else
      .ok {
        src, dst, kind, capacityMbps, tags
        src_ne := hsrc
        dst_ne := hdst
        capacity_pos := hcapacity
        loopless := hloop }
  else .error (.valueError "Input should be greater than 0")

def duplicates (ids : List String) : List String :=
  (ids.filter fun id => 1 < ids.count id).dedup.insertionSort (· ≤ ·)

def unknownEndpoint? (known : List String) (edge : TopologyEdge) : Option String :=
  if edge.src ∉ known then some s!"edge references unknown src node: {edge.src}"
  else if edge.dst ∉ known then some s!"edge references unknown dst node: {edge.dst}"
  else none

theorem duplicates_eq_nil {ids : List String} : duplicates ids = [] ↔ ids.Nodup := by
  unfold duplicates
  rw [← List.length_eq_zero_iff, List.length_insertionSort, List.length_eq_zero_iff,
    List.dedup_eq_nil, List.filter_eq_nil_iff, List.nodup_iff_count_le_one]
  constructor
  · intro h id
    by_cases hid : id ∈ ids
    · have hle := h id hid
      simpa using hle
    · rw [List.count_eq_zero_of_not_mem hid]
      omega
  · intro h id _
    have hle := h id
    simpa using hle

theorem unknownEndpoint?_eq_none {known : List String} {edge : TopologyEdge} :
    unknownEndpoint? known edge = none ↔ edge.src ∈ known ∧ edge.dst ∈ known := by
  unfold unknownEndpoint?
  by_cases hsrc : edge.src ∈ known
  · by_cases hdst : edge.dst ∈ known <;> simp [hsrc, hdst]
  · simp [hsrc]

theorem endpoints_known {known : List String} {edges : List TopologyEdge} :
    edges.findSome? (unknownEndpoint? known) = none ↔
      ∀ e ∈ edges, e.src ∈ known ∧ e.dst ∈ known := by
  rw [List.findSome?_eq_none_iff]
  simp only [unknownEndpoint?_eq_none]

/-- `validate_graph`, after the check of the name. -/
def NetworkTopology.create (schemaVersion name : String) (nodes : List TopologyNode)
    (edges : List TopologyEdge) : Except PyError NetworkTopology :=
  let ids := nodes.map (·.nodeId)
  if hname : name = "" then .error tooShort
  else if hids : duplicates ids = [] then
    match hedges : edges.findSome? (unknownEndpoint? ids) with
    | some message => .error (.valueError message)
    | none =>
        .ok {
          schemaVersion, name, nodes, edges
          name_ne := hname
          nodes_nodup := duplicates_eq_nil.mp hids
          src_known := fun e he => (endpoints_known.mp hedges e he).1
          dst_known := fun e he => (endpoints_known.mp hedges e he).2 }
  else
    let names := ", ".intercalate (duplicates ids)
    .error (.valueError s!"duplicate node_id(s): {names}")

/-! ## Augmentation -/

def bindingTags (b : HostPortBinding) : List (String × String) :=
  [("switch_port", b.switchPort), ("correlation", b.method.value),
    ("confidence", fixed2 b.confidence)] ++
    (b.ifIndex.map fun ifIndex => ("if_index", toString ifIndex)).toList

/-- `edge_tags`: of several bindings of one pair, the last one counts. -/
def edgeTags (bindings : List HostPortBinding) (key : String × String) :
    Option (List (String × String)) :=
  (bindings.filter (·.key = key)).getLast?.map bindingTags

/-- `merged.update(tags)`. -/
def updateTags (merged tags : List (String × String)) : List (String × String) :=
  tags.foldl (fun merged tag => setEntry merged tag.1 tag.2) merged

def addSwitch (nodes : List TopologyNode) (binding : HostPortBinding) :
    Except PyError (List TopologyNode) :=
  if binding.switchNodeId ∈ nodes.map (·.nodeId) then .ok nodes
  else do
    let node ← TopologyNode.create binding.switchNodeId .switch (some binding.switchNodeId)
    return nodes ++ [node]

/-- An existing edge of a bound pair is tagged with its port and method. -/
def refreshEdge (bindings : List HostPortBinding) (edge : TopologyEdge) :
    Except PyError TopologyEdge :=
  match edgeTags bindings (edge.src, edge.dst) with
  | some tags =>
      TopologyEdge.create edge.src edge.dst edge.kind edge.capacityMbps (updateTags edge.tags tags)
  | none => .ok edge

def accessEdge (bindings : List HostPortBinding) (binding : HostPortBinding) :
    Except PyError TopologyEdge :=
  TopologyEdge.create binding.hostNodeId binding.switchNodeId .lan none
    ((edgeTags bindings binding.key).getD [])

/-- The bindings whose pair has no edge in this direction. -/
def unseen (topology : NetworkTopology) (bindings : List HostPortBinding) : List HostPortBinding :=
  bindings.filter fun b => b.key ∉ topology.edges.map fun e => (e.src, e.dst)

/-- Add an access edge for each binding, and the switches the bindings name. -/
def augmentTopologyWithBindings (topology : NetworkTopology) (bindings : List HostPortBinding) :
    Except PyError NetworkTopology := do
  let nodes ← bindings.foldlM addSwitch topology.nodes
  let refreshed ← topology.edges.mapM (refreshEdge bindings)
  let added ← (unseen topology bindings).mapM (accessEdge bindings)
  NetworkTopology.create topology.schemaVersion topology.name nodes (refreshed ++ added)

/-! ## What the constructors accept -/

theorem TopologyNode.create_ok {nodeId : String} (h : nodeId ≠ "") (role : NodeRole)
    (label : Option String) :
    ∃ node, TopologyNode.create nodeId role label = .ok node ∧ node.nodeId = nodeId := by
  unfold TopologyNode.create
  rw [dif_neg h]
  exact ⟨_, rfl, rfl⟩

/-- With named ends and no capacity or a positive one, an edge is refused as a loop only. -/
theorem TopologyEdge.create_isOk_iff {src dst : String} {kind : EdgeKind}
    {capacityMbps : Option Rat} {tags : List (String × String)} (hsrc : src ≠ "") (hdst : dst ≠ "")
    (hcapacity : ∀ c ∈ capacityMbps, 0 < c) :
    (∃ edge, TopologyEdge.create src dst kind capacityMbps tags = .ok edge) ↔ src ≠ dst := by
  unfold TopologyEdge.create
  rw [dif_neg hsrc, dif_neg hdst, dif_pos hcapacity]
  by_cases hloop : src = dst <;> simp [hloop]

theorem TopologyEdge.ends_of_create {src dst : String} {kind : EdgeKind}
    {capacityMbps : Option Rat} {tags : List (String × String)} {edge : TopologyEdge}
    (h : TopologyEdge.create src dst kind capacityMbps tags = .ok edge) :
    edge.src = src ∧ edge.dst = dst := by
  unfold TopologyEdge.create at h
  split_ifs at h
  cases h
  exact ⟨rfl, rfl⟩

theorem NetworkTopology.create_ok {schemaVersion name : String} {nodes : List TopologyNode}
    {edges : List TopologyEdge} (hname : name ≠ "") (hnodes : (nodes.map (·.nodeId)).Nodup)
    (hedges : ∀ e ∈ edges, e.src ∈ nodes.map (·.nodeId) ∧ e.dst ∈ nodes.map (·.nodeId)) :
    ∃ topology, NetworkTopology.create schemaVersion name nodes edges = .ok topology ∧
      topology.nodes = nodes ∧ topology.edges = edges := by
  have hids : duplicates (nodes.map (·.nodeId)) = [] := duplicates_eq_nil.mpr hnodes
  have hknown := endpoints_known.mpr hedges
  unfold NetworkTopology.create
  simp only
  rw [dif_neg hname, dif_pos hids]
  split
  · rename_i message hmessage
    rw [hknown] at hmessage
    cases hmessage
  · exact ⟨_, rfl, rfl, rfl⟩

/-! ## What augmentation makes -/

section

variable {topology : NetworkTopology} {bindings : List HostPortBinding}

/-- The switch of a binding is added, unless it is there. -/
theorem addSwitch_ok {b : HostPortBinding} (hb : b.switchNodeId ≠ "") {nodes : List TopologyNode}
    (hnodup : (nodes.map (·.nodeId)).Nodup) :
    ∃ next, addSwitch nodes b = .ok next ∧ (next.map (·.nodeId)).Nodup ∧ nodes ⊆ next ∧
      b.switchNodeId ∈ next.map (·.nodeId) := by
  unfold addSwitch
  by_cases hknown : b.switchNodeId ∈ nodes.map (·.nodeId)
  · rw [if_pos hknown]
    exact ⟨nodes, rfl, hnodup, List.Subset.refl _, hknown⟩
  · obtain ⟨node, hnode, hid⟩ := TopologyNode.create_ok hb .switch (some b.switchNodeId)
    rw [if_neg hknown, hnode]
    have hids : (nodes ++ [node]).map (·.nodeId) =
        (nodes.map (·.nodeId)).concat b.switchNodeId := by simp [hid]
    refine ⟨nodes ++ [node], rfl, ?_, List.subset_append_left _ _, ?_⟩
    · rw [hids]
      exact hnodup.concat hknown
    · rw [hids, List.concat_eq_append]
      exact List.mem_append_right _ (List.mem_singleton_self _)

theorem addSwitches_ok (hbindings : ∀ b ∈ bindings, b.switchNodeId ≠ "") {nodes : List TopologyNode}
    (hnodup : (nodes.map (·.nodeId)).Nodup) :
    ∃ all, bindings.foldlM addSwitch nodes = .ok all ∧ (all.map (·.nodeId)).Nodup ∧
      nodes ⊆ all ∧ ∀ b ∈ bindings, b.switchNodeId ∈ all.map (·.nodeId) := by
  induction bindings generalizing nodes with
  | nil => exact ⟨nodes, rfl, hnodup, List.Subset.refl _, by simp⟩
  | cons b rest ih =>
      have hrest : ∀ b ∈ rest, b.switchNodeId ≠ "" :=
        fun b hb => hbindings b (List.mem_cons_of_mem _ hb)
      obtain ⟨next, hnext, hnextNodup, hsub, hmem⟩ :=
        addSwitch_ok (hbindings b List.mem_cons_self) hnodup
      obtain ⟨all, hall, hallNodup, hsub', hmem'⟩ := ih hrest hnextNodup
      refine ⟨all, ?_, hallNodup, List.Subset.trans hsub hsub', ?_⟩
      · rw [List.foldlM_cons, hnext]
        exact hall
      · intro b' hb'
        rcases List.mem_cons.mp hb' with rfl | hb'
        · exact List.map_subset _ hsub' hmem
        · exact hmem' b' hb'

theorem refreshEdge_ok (bindings : List HostPortBinding) (edge : TopologyEdge) :
    ∃ refreshed, refreshEdge bindings edge = .ok refreshed ∧ refreshed.src = edge.src ∧
      refreshed.dst = edge.dst := by
  unfold refreshEdge
  cases edgeTags bindings (edge.src, edge.dst) with
  | none => exact ⟨edge, rfl, rfl, rfl⟩
  | some tags =>
      obtain ⟨refreshed, hrefreshed⟩ :=
        (@TopologyEdge.create_isOk_iff edge.src edge.dst edge.kind edge.capacityMbps
          (updateTags edge.tags tags) edge.src_ne edge.dst_ne edge.capacity_pos).mpr edge.loopless
      exact ⟨refreshed, hrefreshed, TopologyEdge.ends_of_create hrefreshed⟩

theorem loopless_of_seen {b : HostPortBinding} (hb : b ∈ bindings)
    (hseen : b ∉ unseen topology bindings) : b.hostNodeId ≠ b.switchNodeId := by
  have hkey : b.key ∈ topology.edges.map fun e => (e.src, e.dst) := by
    by_contra hnot
    exact hseen (List.mem_filter.mpr ⟨hb, by simpa using hnot⟩)
  obtain ⟨edge, -, hedge⟩ := List.mem_map.mp hkey
  obtain ⟨hsrc, hdst⟩ := Prod.mk.inj hedge
  intro hloop
  exact edge.loopless (hsrc.trans (hloop.trans hdst.symm))

theorem refreshEdge_known {ids : List String} (hids : topology.nodes.map (·.nodeId) ⊆ ids)
    {e : TopologyEdge} (he : e ∈ topology.edges) :
    ∃ refreshed, refreshEdge bindings e = .ok refreshed ∧ refreshed.src ∈ ids ∧
      refreshed.dst ∈ ids := by
  obtain ⟨refreshed, hok, hsrc, hdst⟩ := refreshEdge_ok bindings e
  refine ⟨refreshed, hok, ?_, ?_⟩
  · rw [hsrc]
    exact hids (topology.src_known e he)
  · rw [hdst]
    exact hids (topology.dst_known e he)

theorem accessEdge_known {ids : List String} {b : HostPortBinding}
    (h : ∃ edge, accessEdge bindings b = .ok edge) (hhost : b.hostNodeId ∈ ids)
    (hswitch : b.switchNodeId ∈ ids) :
    ∃ edge, accessEdge bindings b = .ok edge ∧ edge.src ∈ ids ∧ edge.dst ∈ ids := by
  obtain ⟨edge, hedge⟩ := h
  obtain ⟨hsrc, hdst⟩ := TopologyEdge.ends_of_create hedge
  refine ⟨edge, hedge, ?_, ?_⟩
  · rw [hsrc]
    exact hhost
  · rw [hdst]
    exact hswitch

/-- Bindings of hosts of the graph to switches are turned into a graph exactly when none of
them binds a host to itself. -/
theorem augment_isOk_iff
    (hhosts : ∀ b ∈ bindings, b.hostNodeId ∈ topology.nodes.map (·.nodeId))
    (hswitches : ∀ b ∈ bindings, b.switchNodeId ≠ "") :
    (∃ augmented, augmentTopologyWithBindings topology bindings = .ok augmented) ↔
      ∀ b ∈ bindings, b.hostNodeId ≠ b.switchNodeId := by
  have hhost_ne : ∀ b ∈ bindings, b.hostNodeId ≠ "" := by
    intro b hb
    obtain ⟨node, -, hid⟩ := List.mem_map.mp (hhosts b hb)
    rw [← hid]
    exact node.nodeId_ne
  have haccess : ∀ b ∈ bindings, (∃ edge, accessEdge bindings b = .ok edge) ↔
      b.hostNodeId ≠ b.switchNodeId := by
    intro b hb
    exact TopologyEdge.create_isOk_iff (hhost_ne b hb) (hswitches b hb) (by simp)
  have hunseen : unseen topology bindings ⊆ bindings :=
    fun b hb => (List.mem_filter.mp hb).1
  obtain ⟨nodes, hnodes, hnodup, hsub, hknown⟩ := addSwitches_ok hswitches topology.nodes_nodup
  constructor
  · rintro ⟨augmented, h⟩ b hb
    unfold augmentTopologyWithBindings at h
    obtain ⟨_, -, h⟩ := ok_of_bind.mp h
    obtain ⟨_, -, h⟩ := ok_of_bind.mp h
    obtain ⟨added, hadded, -⟩ := ok_of_bind.mp h
    by_cases hseen : b ∈ unseen topology bindings
    · exact (haccess b hb).mp (mapM_isOk_iff.mp ⟨added, hadded⟩ b hseen)
    · exact loopless_of_seen hb hseen
  · intro hloopless
    have hids : topology.nodes.map (·.nodeId) ⊆ nodes.map (·.nodeId) := List.map_subset _ hsub
    have hedges := fun e he => @refreshEdge_known topology bindings _ hids e he
    have hadds : ∀ b ∈ unseen topology bindings, ∃ edge, accessEdge bindings b = .ok edge ∧
        edge.src ∈ nodes.map (·.nodeId) ∧ edge.dst ∈ nodes.map (·.nodeId) := by
      intro b hb
      have hedge := (haccess b (hunseen hb)).mpr (hloopless b (hunseen hb))
      exact accessEdge_known hedge (hids (hhosts b (hunseen hb))) (hknown b (hunseen hb))
    obtain ⟨refreshed, hrefreshed, hrefreshedKnown⟩ := mapM_ok_forall hedges
    obtain ⟨added, hadded, haddedKnown⟩ := mapM_ok_forall hadds
    have hall : ∀ e ∈ refreshed ++ added,
        e.src ∈ nodes.map (·.nodeId) ∧ e.dst ∈ nodes.map (·.nodeId) := by
      intro e he
      rcases List.mem_append.mp he with he | he
      · exact hrefreshedKnown e he
      · exact haddedKnown e he
    obtain ⟨augmented, haugmented, -, -⟩ :=
      @NetworkTopology.create_ok topology.schemaVersion topology.name nodes (refreshed ++ added)
        topology.name_ne hnodup hall
    refine ⟨augmented, ?_⟩
    unfold augmentTopologyWithBindings
    rw [hnodes, ok_bind, hrefreshed, ok_bind, hadded, ok_bind]
    exact haugmented

end

structure ValidGraph (nodes : List TopologyNode) (edges : List TopologyEdge) : Prop where
  ids : (nodes.map (·.nodeId)).Nodup
  endpoints : ∀ e ∈ edges, e.src ∈ nodes.map (·.nodeId) ∧ e.dst ∈ nodes.map (·.nodeId)
  loopless : ∀ e ∈ edges, e.src ≠ e.dst

theorem NetworkTopology.validGraph (t : NetworkTopology) : ValidGraph t.nodes t.edges where
  ids := t.nodes_nodup
  endpoints := fun e he => ⟨t.src_known e he, t.dst_known e he⟩
  loopless := fun e _ => e.loopless

/-- A graph is augmented by its own correlation, to a valid graph, exactly when no host is
seen by the telemetry that bears its own id. -/
theorem augment_correlated_iff (lowercase : String → String) (topology : NetworkTopology)
    (switches : List SwitchTelemetry) :
    (∃ augmented, augmentTopologyWithBindings topology
        (correlateHostPorts lowercase topology switches) = .ok augmented ∧
          ValidGraph augmented.nodes augmented.edges) ↔
      ∀ node ∈ hostNodes topology, ¬ (SeenByLldp lowercase node node.nodeId switches ∨
        SeenByMac lowercase node node.nodeId switches) := by
  have hvalid : (∃ augmented, augmentTopologyWithBindings topology
      (correlateHostPorts lowercase topology switches) = .ok augmented ∧
        ValidGraph augmented.nodes augmented.edges) ↔
      ∃ augmented, augmentTopologyWithBindings topology
        (correlateHostPorts lowercase topology switches) = .ok augmented :=
    exists_congr fun augmented => and_iff_left augmented.validGraph
  have hbound : ∀ b ∈ correlateHostPorts lowercase topology switches,
      ∃ node ∈ hostNodes topology, node.nodeId = b.hostNodeId ∧
        (SeenByLldp lowercase node b.switchNodeId switches ∨
          SeenByMac lowercase node b.switchNodeId switches) :=
    fun b hb => bound_iff.mp ⟨b, hb, rfl⟩
  have hhosts : ∀ b ∈ correlateHostPorts lowercase topology switches,
      b.hostNodeId ∈ topology.nodes.map (·.nodeId) := by
    intro b hb
    obtain ⟨node, hnode, hid, -⟩ := hbound b hb
    exact List.mem_map.mpr ⟨node, (mem_hostNodes.mp hnode).1, hid⟩
  have hswitches : ∀ b ∈ correlateHostPorts lowercase topology switches,
      b.switchNodeId ≠ "" := by
    intro b hb
    obtain ⟨node, -, -, ⟨switch, -, hs, -⟩ | ⟨switch, -, hs, -⟩⟩ := hbound b hb
    · rw [← hs]
      exact switch.nodeId_ne
    · rw [← hs]
      exact switch.nodeId_ne
  rw [hvalid, augment_isOk_iff hhosts hswitches]
  constructor
  · intro hloopless node hnode hseen
    obtain ⟨b, hb, hkey⟩ := bound_iff.mpr ⟨node, hnode, rfl, hseen⟩
    obtain ⟨hhost, hswitch⟩ := Prod.mk.inj hkey
    exact hloopless b hb (hhost.trans hswitch.symm)
  · intro hself b hb hloop
    obtain ⟨node, hnode, hid, hseen⟩ := hbound b hb
    apply hself node hnode
    rw [hid, hloop]
    exact hseen

namespace Sample

def leaf : NetworkTopology where
  name := "fabric"
  nodes :=
    [{ nodeId := "leaf-1", role := .switch, agentId := some "agent-leaf-1",
        tags := [("mac", "00:11:22:33:44:01")], nodeId_ne := by decide }]
  edges := []
  name_ne := by decide
  nodes_nodup := by decide
  src_known := by simp
  dst_known := by simp

def leafTable : SwitchTelemetry where
  nodeId := "leaf-1"
  lldp := []
  macTable := [⟨"00:11:22:33:44:01", 0, none⟩]
  nodeId_ne := by decide

end Sample

/-- A switch that has learned its own address is bound to itself, and the graph is refused. -/
theorem self_entry_refused :
    (¬ ∀ (lowercase : String → String) (topology : NetworkTopology)
        (switches : List SwitchTelemetry),
        ∃ augmented, augmentTopologyWithBindings topology
          (correlateHostPorts lowercase topology switches) = .ok augmented ∧
            ValidGraph augmented.nodes augmented.edges) ∧
      (augmentTopologyWithBindings Sample.leaf
          (correlateHostPorts lower Sample.leaf [Sample.leafTable])).map (fun _ => ()) =
        .error (.valueError "edge src and dst must reference different nodes") := by
  have hrefused : (augmentTopologyWithBindings Sample.leaf
      (correlateHostPorts lower Sample.leaf [Sample.leafTable])).map (fun _ => ()) =
        .error (.valueError "edge src and dst must reference different nodes") := by
    decide +kernel
  refine ⟨fun hclaim => ?_, hrefused⟩
  obtain ⟨augmented, hok, -⟩ := hclaim lower Sample.leaf [Sample.leafTable]
  rw [hok] at hrefused
  cases hrefused

end NetForge.Controller
