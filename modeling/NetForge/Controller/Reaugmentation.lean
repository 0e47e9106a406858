import NetForge.Controller.Augmentation

/-! # Augmenting again

What `augment_topology_with_bindings` leaves of the graph it is given. A second application
finds every pair joined and every tag written, so it changes nothing. An access edge that
was drawn from the switch to the host is not found: `key in edge_tags` compares one
orientation, while adjacency has none.
-/

namespace NetForge.Controller

open NetForge.Python Calculus

/-! ## Tags -/

def correlationTags : List String := ["switch_port", "correlation", "confidence", "if_index"]

def otherTags (tags : List (String × String)) : List (String × String) :=
  tags.filter fun tag => tag.1 ∉ correlationTags

theorem getEntry_eq (dict : List (String × String)) (key : String) :
    getEntry dict key = Entries.value? dict key := rfl

theorem updateTags_eq (merged tags : List (String × String)) :
    updateTags merged tags = Entries.overwrite merged tags := by
  unfold updateTags Entries.overwrite Entries.fill
  simp only [setEntry_eq]

theorem keys_bindingTags (b : HostPortBinding) :
    Entries.keys (bindingTags b) =
      ["switch_port", "correlation", "confidence"] ++
        (b.ifIndex.map fun _ => "if_index").toList := by
  unfold bindingTags Entries.keys
  cases b.ifIndex <;> rfl

theorem bindingTags_nodup (b : HostPortBinding) : (Entries.keys (bindingTags b)).Nodup := by
  rw [keys_bindingTags]
  cases b.ifIndex with
  | none => simp
  | some i => simp

theorem bindingTags_written {b : HostPortBinding} {key : String}
    (h : key ∈ Entries.keys (bindingTags b)) : key ∈ correlationTags := by
  rw [keys_bindingTags] at h
  unfold correlationTags
  cases hi : b.ifIndex with
  | none =>
      rw [hi] at h
      simp only [Option.map_none, Option.toList_none, List.append_nil] at h
      exact List.mem_append_left ["if_index"] h
  | some i =>
      rw [hi] at h
      exact h

theorem otherTags_updateTags (merged : List (String × String)) (b : HostPortBinding) :
    otherTags (updateTags merged (bindingTags b)) = otherTags merged := by
  rw [updateTags_eq]
  apply Entries.filter_overwrite (p := fun key => decide (key ∉ correlationTags))
  intro key hkey
  have hwritten := bindingTags_written hkey
  simpa using hwritten

section

variable {topology augmented : NetworkTopology} {bindings : List HostPortBinding}

/-! ## Edges -/

theorem edgeTags_eq_none {key : String × String} :
    edgeTags bindings key = none ↔ ∀ b ∈ bindings, b.key ≠ key := by
  unfold edgeTags
  rw [Option.map_eq_none_iff, List.getLast?_eq_none_iff, List.filter_eq_nil_iff]
  simp only [decide_eq_true_eq, ne_eq]

/-- The tags of a pair are those of one of its bindings. -/
theorem edgeTags_eq_some {key : String × String} {tags : List (String × String)}
    (h : edgeTags bindings key = some tags) :
    ∃ b ∈ bindings, b.key = key ∧ tags = bindingTags b := by
  obtain ⟨b, hlast, rfl⟩ := Option.map_eq_some_iff.mp h
  have hmem := List.mem_of_getLast? hlast
  obtain ⟨hb, hkey⟩ := List.mem_filter.mp hmem
  exact ⟨b, hb, by simpa using hkey, rfl⟩

/-- Of bindings with distinct pairs, each has the tags of its pair. -/
theorem edgeTags_of_nodup (hkeys : (bindings.map HostPortBinding.key).Nodup) {b : HostPortBinding}
    (hb : b ∈ bindings) : edgeTags bindings b.key = some (bindingTags b) := by
  cases h : edgeTags bindings b.key with
  | none => exact absurd rfl (edgeTags_eq_none.mp h b hb)
  | some tags =>
      obtain ⟨b', hb', hkey, rfl⟩ := edgeTags_eq_some h
      rw [List.inj_on_of_nodup_map hkeys hb' hb hkey]

def refreshed (bindings : List HostPortBinding) (edge : TopologyEdge) : TopologyEdge :=
  { edge with
    tags := ((edgeTags bindings (edge.src, edge.dst)).map (updateTags edge.tags)).getD edge.tags }

theorem refreshEdge_eq (bindings : List HostPortBinding) (edge : TopologyEdge) :
    refreshEdge bindings edge = .ok (refreshed bindings edge) := by
  unfold refreshEdge refreshed
  cases edgeTags bindings (edge.src, edge.dst) with
  | none => rfl
  | some tags =>
      show TopologyEdge.create _ _ _ _ _ = _
      unfold TopologyEdge.create
      rw [dif_neg edge.src_ne, dif_neg edge.dst_ne, dif_pos edge.capacity_pos,
        dif_neg edge.loopless]
      rfl

theorem otherTags_refreshed (edge : TopologyEdge) :
    otherTags (refreshed bindings edge).tags = otherTags edge.tags := by
  unfold refreshed
  cases h : edgeTags bindings (edge.src, edge.dst) with
  | none => rfl
  | some tags =>
      obtain ⟨b, -, -, rfl⟩ := edgeTags_eq_some h
      exact otherTags_updateTags edge.tags b

theorem refreshed_refreshed (edge : TopologyEdge) :
    refreshed bindings (refreshed bindings edge) = refreshed bindings edge := by
  cases h : edgeTags bindings (edge.src, edge.dst) with
  | none =>
      have hsame : refreshed bindings edge = edge := by simp [refreshed, h]
      rw [hsame, hsame]
  | some tags =>
      obtain ⟨b, -, -, rfl⟩ := edgeTags_eq_some h
      have htwice : updateTags (updateTags edge.tags (bindingTags b)) (bindingTags b) =
          updateTags edge.tags (bindingTags b) := by
        rw [updateTags_eq, updateTags_eq]
        exact Entries.overwrite_overwrite (bindingTags_nodup b) edge.tags
      simp [refreshed, h, htwice]

theorem accessEdge_ok {b : HostPortBinding} {edge : TopologyEdge}
    (h : accessEdge bindings b = .ok edge) :
    (edge.src, edge.dst) = b.key ∧ edge.tags = (edgeTags bindings b.key).getD [] := by
  unfold accessEdge TopologyEdge.create at h
  split_ifs at h
  cases h
  exact ⟨rfl, rfl⟩

theorem refreshed_accessEdge {b : HostPortBinding} {edge : TopologyEdge}
    (h : accessEdge bindings b = .ok edge) : refreshed bindings edge = edge := by
  obtain ⟨hkey, htags⟩ := accessEdge_ok h
  unfold refreshed
  rw [hkey]
  cases ht : edgeTags bindings b.key with
  | none => rfl
  | some tags =>
      obtain ⟨b', -, -, rfl⟩ := edgeTags_eq_some ht
      rw [ht] at htags
      have hself : updateTags edge.tags (bindingTags b') = edge.tags := by
        rw [htags, updateTags_eq]
        exact Entries.overwrite_self (bindingTags_nodup b')
      simp [hself]

/-! ## Nodes -/

theorem addSwitch_eq_ok {nodes next : List TopologyNode} {b : HostPortBinding}
    (h : addSwitch nodes b = .ok next) :
    b.switchNodeId ∈ next.map (·.nodeId) ∧
      ∃ added, next = nodes ++ added ∧
        ∀ node ∈ added, node.role = .switch ∧ node.nodeId = b.switchNodeId := by
  unfold addSwitch at h
  by_cases hknown : b.switchNodeId ∈ nodes.map (·.nodeId)
  · rw [if_pos hknown] at h
    cases h
    exact ⟨hknown, [], by simp, by simp⟩
  · rw [if_neg hknown] at h
    obtain ⟨node, hnode, hnext⟩ := ok_of_bind.mp h
    cases hnext
    unfold TopologyNode.create at hnode
    split_ifs at hnode
    cases hnode
    exact ⟨by simp, _, rfl, by simp⟩

theorem addSwitches_eq_ok {nodes all : List TopologyNode}
    (h : bindings.foldlM addSwitch nodes = .ok all) :
    (∀ b ∈ bindings, b.switchNodeId ∈ all.map (·.nodeId)) ∧
      ∃ added, all = nodes ++ added ∧
        ∀ node ∈ added, node.role = .switch ∧ ∃ b ∈ bindings, node.nodeId = b.switchNodeId := by
  induction bindings generalizing nodes with
  | nil =>
      cases h
      exact ⟨by simp, [], by simp, by simp⟩
  | cons b rest ih =>
      rw [List.foldlM_cons] at h
      obtain ⟨next, hnext, hrest⟩ := ok_of_bind.mp h
      obtain ⟨hb, first, rfl, hfirst⟩ := addSwitch_eq_ok hnext
      obtain ⟨hknown, last, rfl, hlast⟩ := ih hrest
      constructor
      · intro b' hb'
        rcases List.mem_cons.mp hb' with rfl | hb'
        · rw [List.map_append]
          exact List.mem_append_left _ hb
        · exact hknown b' hb'
      · refine ⟨first ++ last, List.append_assoc _ _ _, ?_⟩
        intro node hnode
        rcases List.mem_append.mp hnode with hnode | hnode
        · obtain ⟨hrole, hid⟩ := hfirst node hnode
          exact ⟨hrole, b, List.mem_cons_self, hid⟩
        · obtain ⟨hrole, b', hb', hid⟩ := hlast node hnode
          exact ⟨hrole, b', List.mem_cons_of_mem _ hb', hid⟩

theorem addSwitches_known {nodes : List TopologyNode}
    (h : ∀ b ∈ bindings, b.switchNodeId ∈ nodes.map (·.nodeId)) :
    bindings.foldlM addSwitch nodes = .ok nodes := by
  induction bindings with
  | nil => rfl
  | cons b rest ih =>
      have hb : addSwitch nodes b = .ok nodes := by
        unfold addSwitch
        rw [if_pos (h b List.mem_cons_self)]
      rw [List.foldlM_cons, hb]
      exact ih fun b' hb' => h b' (List.mem_cons_of_mem _ hb')

/-! ## The whole graph -/

theorem NetworkTopology.create_eq_ok {schemaVersion name : String} {nodes : List TopologyNode}
    {edges : List TopologyEdge}
    (h : NetworkTopology.create schemaVersion name nodes edges = .ok topology) :
    topology.schemaVersion = schemaVersion ∧ topology.name = name ∧ topology.nodes = nodes ∧
      topology.edges = edges := by
  unfold NetworkTopology.create at h
  simp only at h
  split_ifs at h
  split at h
  · cases h
  · cases h
    exact ⟨rfl, rfl, rfl, rfl⟩

theorem NetworkTopology.create_self (t : NetworkTopology) :
    NetworkTopology.create t.schemaVersion t.name t.nodes t.edges = .ok t := by
  have hids := duplicates_eq_nil.mpr t.nodes_nodup
  have hknown := endpoints_known.mpr fun e he => ⟨t.src_known e he, t.dst_known e he⟩
  unfold NetworkTopology.create
  simp only
  rw [dif_neg t.name_ne, dif_pos hids]
  split
  · rename_i message hmessage
    rw [hknown] at hmessage
    cases hmessage
  · rfl

structure Augmented (topology : NetworkTopology) (bindings : List HostPortBinding)
    (added : List TopologyEdge) (augmented : NetworkTopology) : Prop where
  schemaVersion : augmented.schemaVersion = topology.schemaVersion
  name : augmented.name = topology.name
  nodes : bindings.foldlM addSwitch topology.nodes = .ok augmented.nodes
  access : (unseen topology bindings).mapM (accessEdge bindings) = .ok added
  edges : augmented.edges = topology.edges.map (refreshed bindings) ++ added

theorem augment_eq_ok (h : augmentTopologyWithBindings topology bindings = .ok augmented) :
    ∃ added, Augmented topology bindings added augmented := by
  unfold augmentTopologyWithBindings at h
  obtain ⟨nodes, hnodes, h⟩ := ok_of_bind.mp h
  obtain ⟨kept, hkept, h⟩ := ok_of_bind.mp h
  obtain ⟨added, hadded, h⟩ := ok_of_bind.mp h
  have hmap : topology.edges.mapM (refreshEdge bindings) =
      .ok (topology.edges.map (refreshed bindings)) :=
    mapM_ok fun edge _ => refreshEdge_eq bindings edge
  rw [hmap] at hkept
  cases hkept
  obtain ⟨hversion, hname, hall, hedges⟩ := NetworkTopology.create_eq_ok h
  rw [← hall] at hnodes
  exact ⟨added, hversion, hname, hnodes, hadded, hedges⟩

/-- Every bound pair has an edge from the host to the switch afterwards. -/
theorem Augmented.unseen_eq_nil {added : List TopologyEdge}
    (h : Augmented topology bindings added augmented) : unseen augmented bindings = [] := by
  apply List.filter_eq_nil_iff.mpr
  intro b hb
  have hseen : b.key ∈ augmented.edges.map fun e => (e.src, e.dst) := by
    rw [h.edges, List.map_append, List.mem_append]
    by_cases hold : b.key ∈ topology.edges.map fun e => (e.src, e.dst)
    · left
      obtain ⟨edge, hedge, hkey⟩ := List.mem_map.mp hold
      exact List.mem_map.mpr ⟨refreshed bindings edge, List.mem_map_of_mem hedge, hkey⟩
    · right
      have hunseen : b ∈ unseen topology bindings :=
        List.mem_filter.mpr ⟨hb, by simpa using hold⟩
      obtain ⟨edge, hedge, hok⟩ := mem_mapM_of_mem h.access hunseen
      exact List.mem_map.mpr ⟨edge, hedge, (accessEdge_ok hok).1⟩
  simpa using hseen

theorem Augmented.refreshed_edges {added : List TopologyEdge}
    (h : Augmented topology bindings added augmented) :
    augmented.edges.map (refreshed bindings) = augmented.edges := by
  have hadded : added.map (refreshed bindings) = added := by
    calc added.map (refreshed bindings) = added.map id := by
          apply List.map_congr_left
          intro edge hedge
          obtain ⟨b, -, hok⟩ := exists_of_mem_mapM h.access hedge
          exact refreshed_accessEdge hok
      _ = added := List.map_id added
  rw [h.edges, List.map_append, hadded, List.map_map]
  congr 1
  apply List.map_congr_left
  intro edge _
  exact refreshed_refreshed edge

/-- The bindings that made a graph leave it as it is. -/
theorem Augmented.again {added : List TopologyEdge}
    (h : Augmented topology bindings added augmented) :
    augmentTopologyWithBindings augmented bindings = .ok augmented := by
  have hnodes := addSwitches_known (addSwitches_eq_ok h.nodes).1
  have hedges : augmented.edges.mapM (refreshEdge bindings) = .ok augmented.edges := by
    rw [mapM_ok fun edge _ => refreshEdge_eq bindings edge, h.refreshed_edges]
  unfold augmentTopologyWithBindings
  rw [hnodes, ok_bind, hedges, ok_bind, h.unseen_eq_nil]
  show NetworkTopology.create _ _ _ (augmented.edges ++ []) = _
  rw [List.append_nil]
  exact augmented.create_self

/-- The edge with its tags of a correlation replaced, and nothing else. -/
structure Retagged (edge edge' : TopologyEdge) : Prop where
  src : edge'.src = edge.src
  dst : edge'.dst = edge.dst
  kind : edge'.kind = edge.kind
  capacity : edge'.capacityMbps = edge.capacityMbps
  tags : otherTags edge'.tags = otherTags edge.tags

/-- The nodes and edges of the first graph are kept, in order, and the new nodes are switches
of the bindings. -/
structure Conservative (topology : NetworkTopology) (bindings : List HostPortBinding)
    (augmented : NetworkTopology) : Prop where
  schemaVersion : augmented.schemaVersion = topology.schemaVersion
  name : augmented.name = topology.name
  nodes : ∃ added, augmented.nodes = topology.nodes ++ added ∧
    ∀ node ∈ added, node.role = .switch ∧ ∃ b ∈ bindings, node.nodeId = b.switchNodeId
  edges : ∃ kept added, augmented.edges = kept ++ added ∧
    List.Forall₂ Retagged topology.edges kept

/-! ## Either direction -/

/-- An edge joins two nodes whichever way it is drawn, as for `neighbors`. -/
def TopologyEdge.Joins (edge : TopologyEdge) (a b : String) : Prop :=
  (edge.src = a ∧ edge.dst = b) ∨ (edge.src = b ∧ edge.dst = a)

/-- The tags say the port and the method of a binding. -/
def TopologyEdge.Bears (edge : TopologyEdge) (b : HostPortBinding) : Prop :=
  getEntry edge.tags "switch_port" = some b.switchPort ∧
    getEntry edge.tags "correlation" = some b.method.value

/-- An edge is added for a bound pair that no edge joins, and an edge that joins a bound pair
is tagged in its place. -/
def JoinedOnce (topology : NetworkTopology) (bindings : List HostPortBinding)
    (augmented : NetworkTopology) : Prop :=
  ∃ kept added, augmented.edges = kept ++ added ∧
    (∀ e ∈ added, (∃ b ∈ bindings, (e.src, e.dst) = b.key) ∧
      ∀ e' ∈ topology.edges, ¬ e'.Joins e.src e.dst) ∧
    List.Forall₂ (fun e e' => e'.src = e.src ∧ e'.dst = e.dst ∧
      ∀ b ∈ bindings, e.Joins b.hostNodeId b.switchNodeId → e'.Bears b) topology.edges kept

/-- An edge from the switch of a binding to its host is no obstacle: another edge leads from
the host to the switch, and the tags that the edge ends up with, from the binding of its own
direction or else its old ones, say what this binding says. -/
def ReversedAgree (topology : NetworkTopology) (bindings : List HostPortBinding) : Prop :=
  ∀ e ∈ topology.edges, ∀ b ∈ bindings, e.src = b.switchNodeId → e.dst = b.hostNodeId →
    (∃ e' ∈ topology.edges, (e'.src, e'.dst) = b.key) ∧
      (∀ b' ∈ bindings, b'.key = (e.src, e.dst) →
        b'.switchPort = b.switchPort ∧ b'.method = b.method) ∧
      ((∀ b' ∈ bindings, b'.key ≠ (e.src, e.dst)) → e.Bears b)

theorem CorrelationMethod.value_injective : Function.Injective CorrelationMethod.value := by
  intro m m' h
  cases m <;> cases m' <;> first | rfl | exact absurd h (by decide)

/-- An edge in the direction of a binding is tagged with its port and method. -/
theorem bears_refreshed (hkeys : (bindings.map HostPortBinding.key).Nodup) {edge : TopologyEdge}
    {b : HostPortBinding} (hb : b ∈ bindings) (hkey : b.key = (edge.src, edge.dst)) :
    (refreshed bindings edge).Bears b := by
  have htags : (refreshed bindings edge).tags = Entries.overwrite edge.tags (bindingTags b) := by
    unfold refreshed
    rw [← hkey, edgeTags_of_nodup hkeys hb, ← updateTags_eq]
    rfl
  have hholds := Entries.holds_overwrite (bindingTags_nodup b) edge.tags
  unfold TopologyEdge.Bears
  rw [getEntry_eq, getEntry_eq, htags]
  constructor
  · exact Entries.value?_of_holds (hholds ("switch_port", b.switchPort) (by simp [bindingTags]))
  · exact Entries.value?_of_holds
      (hholds ("correlation", b.method.value) (by simp [bindingTags]))

/-- Two bindings that one edge bears name the same port and method. -/
theorem TopologyEdge.Bears.agree {edge : TopologyEdge} {b b' : HostPortBinding}
    (h : edge.Bears b) (h' : edge.Bears b') :
    b'.switchPort = b.switchPort ∧ b'.method = b.method := by
  have hport := h'.1.symm.trans h.1
  have hmethod := h'.2.symm.trans h.2
  exact ⟨Option.some.inj hport, CorrelationMethod.value_injective (Option.some.inj hmethod)⟩

theorem TopologyEdge.Bears.congr {edge : TopologyEdge} {b b' : HostPortBinding}
    (h : edge.Bears b') (hport : b'.switchPort = b.switchPort) (hmethod : b'.method = b.method) :
    edge.Bears b := by
  unfold TopologyEdge.Bears at h ⊢
  rw [← hport, ← hmethod]
  exact h

theorem refreshed_of_unbound {edge : TopologyEdge}
    (h : ∀ b ∈ bindings, b.key ≠ (edge.src, edge.dst)) : refreshed bindings edge = edge := by
  simp [refreshed, edgeTags_eq_none.mpr h]

variable {added : List TopologyEdge}

/-- The two parts of the edges are determined by their lengths. -/
theorem Augmented.joinedOnce_iff (h : Augmented topology bindings added augmented) :
    JoinedOnce topology bindings augmented ↔
      (∀ e ∈ added, ∀ e' ∈ topology.edges, ¬ e'.Joins e.src e.dst) ∧
        ∀ e ∈ topology.edges, ∀ b ∈ bindings, e.Joins b.hostNodeId b.switchNodeId →
          (refreshed bindings e).Bears b := by
  constructor
  · intro ⟨kept, new, hedges, hnew, hkept⟩
    have hlength : kept.length = (topology.edges.map (refreshed bindings)).length := by
      rw [List.length_map, hkept.length_eq]
    obtain ⟨rfl, rfl⟩ := List.append_inj (hedges.symm.trans h.edges) hlength
    refine ⟨fun e he => (hnew e he).2, ?_⟩
    have hsame := List.forall₂_same.mp (List.forall₂_map_right_iff.mp hkept)
    exact fun e he => (hsame e he).2.2
  · intro ⟨hadded, hbears⟩
    refine ⟨_, added, h.edges, ?_, ?_⟩
    · intro e he
      obtain ⟨b, hb, hok⟩ := exists_of_mem_mapM h.access he
      exact ⟨⟨b, (List.mem_filter.mp hb).1, (accessEdge_ok hok).1⟩, hadded e he⟩
    · apply List.forall₂_map_right_iff.mpr
      apply List.forall₂_same.mpr
      exact fun e he => ⟨rfl, rfl, hbears e he⟩

theorem Augmented.reversedAgree (h : Augmented topology bindings added augmented)
    (hkeys : (bindings.map HostPortBinding.key).Nodup)
    (honce : JoinedOnce topology bindings augmented) : ReversedAgree topology bindings := by
  obtain ⟨hadded, hbears⟩ := h.joinedOnce_iff.mp honce
  intro e he b hb hsrc hdst
  have hbearsB : (refreshed bindings e).Bears b := hbears e he b hb (.inr ⟨hsrc, hdst⟩)
  refine ⟨?_, ?_, ?_⟩
  · by_contra hnone
    have hunseen : b ∈ unseen topology bindings := by
      apply List.mem_filter.mpr
      refine ⟨hb, decide_eq_true ?_⟩
      intro hseen
      exact hnone (List.mem_map.mp hseen)
    obtain ⟨edge, hedge, hok⟩ := mem_mapM_of_mem h.access hunseen
    obtain ⟨hhost, hswitch⟩ := Prod.mk.inj (accessEdge_ok hok).1
    apply hadded edge hedge e he
    exact .inr ⟨hsrc.trans hswitch.symm, hdst.trans hhost.symm⟩
  · intro b' hb' hkey
    exact hbearsB.agree (bears_refreshed hkeys hb' hkey)
  · intro hunbound
    rw [refreshed_of_unbound hunbound] at hbearsB
    exact hbearsB

theorem Augmented.joinedOnce (h : Augmented topology bindings added augmented)
    (hkeys : (bindings.map HostPortBinding.key).Nodup)
    (hagree : ReversedAgree topology bindings) : JoinedOnce topology bindings augmented := by
  apply h.joinedOnce_iff.mpr
  constructor
  · intro e he e' he' hjoins
    obtain ⟨b, hb, hok⟩ := exists_of_mem_mapM h.access he
    obtain ⟨hbmem, hfresh⟩ := List.mem_filter.mp hb
    have hunseen : b.key ∉ topology.edges.map fun e => (e.src, e.dst) := of_decide_eq_true hfresh
    obtain ⟨hsrc, hdst⟩ := Prod.mk.inj (accessEdge_ok hok).1
    rcases hjoins with ⟨hsrc', hdst'⟩ | ⟨hsrc', hdst'⟩
    · apply hunseen
      apply List.mem_map.mpr
      exact ⟨e', he', Prod.ext (hsrc'.trans hsrc) (hdst'.trans hdst)⟩
    · obtain ⟨hseen, -, -⟩ :=
        hagree e' he' b hbmem (hsrc'.trans hdst) (hdst'.trans hsrc)
      exact hunseen (List.mem_map.mpr hseen)
  · intro e he b hb hjoins
    rcases hjoins with ⟨hsrc, hdst⟩ | ⟨hsrc, hdst⟩
    · exact bears_refreshed hkeys hb (Prod.ext hsrc.symm hdst.symm)
    · obtain ⟨-, hbound, hunbound⟩ := hagree e he b hb hsrc hdst
      by_cases hown : ∃ b' ∈ bindings, b'.key = (e.src, e.dst)
      · obtain ⟨b', hb', hkey⟩ := hown
        obtain ⟨hport, hmethod⟩ := hbound b' hb' hkey
        exact (bears_refreshed hkeys hb' hkey).congr hport hmethod
      · have hnone : ∀ b' ∈ bindings, b'.key ≠ (e.src, e.dst) :=
          fun b' hb' hkey => hown ⟨b', hb', hkey⟩
        rw [refreshed_of_unbound hnone]
        exact hunbound hnone

end

namespace Sample

def lab (edges : List TopologyEdge)
    (h : ∀ e ∈ edges, e.src ∈ ["access-sw", "probe-1"] ∧ e.dst ∈ ["access-sw", "probe-1"]) :
    NetworkTopology where
  name := "bench"
  nodes :=
    [{ nodeId := "access-sw", role := .switch, agentId := none, tags := [],
        nodeId_ne := by decide },
      { nodeId := "probe-1", role := .agent, agentId := none, tags := [], nodeId_ne := by decide }]
  edges := edges
  name_ne := by decide
  nodes_nodup := by decide
  src_known := fun e he => (h e he).1
  dst_known := fun e he => (h e he).2

def labEdge (src dst : String) (hsrc : src ≠ "") (hdst : dst ≠ "") (h : src ≠ dst) :
    TopologyEdge where
  src := src
  dst := dst
  kind := .lan
  capacityMbps := some 1000
  tags := []
  src_ne := hsrc
  dst_ne := hdst
  capacity_pos := by
    intro c hc
    cases hc
    decide
  loopless := h

def uplink : NetworkTopology :=
  lab [labEdge "probe-1" "access-sw" (by decide) (by decide) (by decide)]
    (by
      intro e he
      rw [List.mem_singleton.mp he]
      decide)

def downlink : NetworkTopology :=
  lab [labEdge "access-sw" "probe-1" (by decide) (by decide) (by decide)]
    (by
      intro e he
      rw [List.mem_singleton.mp he]
      decide)

def labBinding : HostPortBinding where
  hostNodeId := "probe-1"
  hostIdentity := "probe-1"
  switchNodeId := "access-sw"
  switchPort := "Gi1/0/1"
  ifIndex := none
  method := .lldp
  confidence := 82 / 100
  evidenceQuality := .singleSource
  evidence := []
  confidence_mem := by decide +kernel

theorem lab_augmented (topology : NetworkTopology)
    (h : topology.nodes.map (·.nodeId) = ["access-sw", "probe-1"]) :
    ∃ augmented, augmentTopologyWithBindings topology [labBinding] = .ok augmented := by
  apply (augment_isOk_iff ?_ ?_).mpr
  · intro b hb
    rw [List.mem_singleton.mp hb]
    decide
  · intro b hb
    rw [List.mem_singleton.mp hb, h]
    decide
  · intro b hb
    rw [List.mem_singleton.mp hb]
    decide

end Sample

/-! ## Runs on a graph -/

variable {topology augmented : NetworkTopology} {bindings : List HostPortBinding}

/-- The same bindings change nothing a second time, and the first time they only add switches
and edges and rewrite the tags of the correlation. -/
theorem augment_idempotent (h : augmentTopologyWithBindings topology bindings = .ok augmented) :
    augmentTopologyWithBindings augmented bindings = .ok augmented ∧
      Conservative topology bindings augmented := by
  obtain ⟨added, hparts⟩ := augment_eq_ok h
  refine ⟨hparts.again, hparts.schemaVersion, hparts.name, (addSwitches_eq_ok hparts.nodes).2,
    topology.edges.map (refreshed bindings), added, hparts.edges, ?_⟩
  apply List.forall₂_map_right_iff.mpr
  apply List.forall₂_same.mpr
  intro edge _
  exact ⟨rfl, rfl, rfl, rfl, otherTags_refreshed edge⟩

theorem augment_idempotent_uplink :
    ∃ augmented, augmentTopologyWithBindings Sample.uplink [Sample.labBinding] = .ok augmented ∧
      augmentTopologyWithBindings augmented [Sample.labBinding] = .ok augmented ∧
        Conservative Sample.uplink [Sample.labBinding] augmented := by
  obtain ⟨augmented, hok⟩ := Sample.lab_augmented Sample.uplink rfl
  exact ⟨augmented, hok, augment_idempotent hok⟩

/-- Bindings join each pair once exactly when the edges drawn from a switch to its host agree
with them. -/
theorem augment_joinedOnce_iff (hkeys : (bindings.map HostPortBinding.key).Nodup)
    (h : augmentTopologyWithBindings topology bindings = .ok augmented) :
    JoinedOnce topology bindings augmented ↔ ReversedAgree topology bindings := by
  obtain ⟨added, hparts⟩ := augment_eq_ok h
  exact ⟨hparts.reversedAgree hkeys, hparts.joinedOnce hkeys⟩

theorem augment_joinedOnce_uplink :
    ∃ augmented, augmentTopologyWithBindings Sample.uplink [Sample.labBinding] = .ok augmented ∧
      JoinedOnce Sample.uplink [Sample.labBinding] augmented := by
  obtain ⟨augmented, hok⟩ := Sample.lab_augmented Sample.uplink rfl
  refine ⟨augmented, hok, (augment_joinedOnce_iff (by decide) hok).mpr ?_⟩
  intro e he b hb hsrc
  rw [List.mem_singleton.mp he, List.mem_singleton.mp hb] at hsrc
  exact absurd hsrc (by decide)

/-- A link drawn from the switch to the host is duplicated, and does not say the port. -/
theorem reversed_edge_duplicated :
    (¬ ∀ (topology augmented : NetworkTopology) (bindings : List HostPortBinding),
        (bindings.map HostPortBinding.key).Nodup →
          augmentTopologyWithBindings topology bindings = .ok augmented →
            JoinedOnce topology bindings augmented) ∧
      (augmentTopologyWithBindings Sample.downlink [Sample.labBinding]).map
          (fun augmented => augmented.edges.map fun e => (e.src, e.dst, e.tags.length)) =
        .ok [("access-sw", "probe-1", 0), ("probe-1", "access-sw", 3)] := by
  constructor
  · intro hclaim
    obtain ⟨augmented, hok⟩ := Sample.lab_augmented Sample.downlink rfl
    have honce := hclaim Sample.downlink augmented [Sample.labBinding] (by decide) hok
    obtain ⟨added, hparts⟩ := augment_eq_ok hok
    obtain ⟨⟨e', he', hkey⟩, -, -⟩ := hparts.reversedAgree (by decide) honce _
      (List.mem_singleton_self _) Sample.labBinding (List.mem_singleton_self _) rfl rfl
    rw [List.mem_singleton.mp he'] at hkey
    exact absurd hkey (by decide)
  · decide +kernel

end NetForge.Controller
