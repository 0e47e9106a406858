import NetForge.Controller.Correlation
import Mathlib.Data.String.Basic

/-! # The evidence behind a binding

The nested loops of the correlation fill one dict of slots. Under a pair of a host and
a switch they leave the last LLDP match and the last MAC match among the telemetry of
that switch, so a binding is read off the two lists of matches of its pair.
-/

namespace NetForge.Controller

open NetForge.Core NetForge.Python Calculus

abbrev Evidence := LldpEvidence ⊕ MacEvidence

def record : Evidence → Option Slot → Slot := Sum.elim recordLldp recordMac

/-! ## The slot of a pair -/

def slotOf (lldp : List LldpEvidence) (mac : List MacEvidence) : Option Slot :=
  match lldp.getLast?, mac.getLast? with
  | some e, some m => some (.both e m)
  | some e, none => some (.lldp e)
  | none, some m => some (.mac m)
  | none, none => none

theorem getLast?_append_cons' {α : Type} (xs ys : List α) (y : α) :
    (xs ++ y :: ys).getLast? = (y :: ys).getLast? := by
  rw [List.getLast?_append]
  cases h : (y :: ys).getLast? with
  | none => simp at h
  | some z => rfl

theorem slotOf_toList (slot : Option Slot) :
    slotOf (slot.bind Slot.lldp?).toList (slot.bind Slot.mac?).toList = slot := by
  cases slot with
  | none => rfl
  | some slot => cases slot <;> rfl

/-- A run of records leaves the last evidence of either source. -/
theorem foldl_record (events : List Evidence) (slot : Option Slot) :
    events.foldl (fun v c => some (record c v)) slot =
      slotOf ((slot.bind Slot.lldp?).toList ++ events.filterMap Sum.getLeft?)
        ((slot.bind Slot.mac?).toList ++ events.filterMap Sum.getRight?) := by
  induction events generalizing slot with
  | nil =>
      show slot = _
      simp only [List.filterMap_nil, List.append_nil]
      exact (slotOf_toList slot).symm
  | cons c rest ih =>
      rw [List.foldl_cons, ih]
      unfold slotOf
      cases c with
      | inl e =>
          have hmac : (some (record (.inl e) slot)).bind Slot.mac? = slot.bind Slot.mac? := by
            show (recordLldp e slot).mac? = _
            unfold recordLldp
            cases slot.bind Slot.mac? <;> rfl
          have hlldp : (some (record (.inl e) slot)).bind Slot.lldp? = some e := by
            show (recordLldp e slot).lldp? = _
            unfold recordLldp
            cases slot.bind Slot.mac? <;> rfl
          rw [hmac, hlldp]
          have hleft : (Sum.inl e :: rest : List Evidence).filterMap Sum.getLeft? =
              e :: rest.filterMap Sum.getLeft? := rfl
          have hright : (Sum.inl e :: rest : List Evidence).filterMap Sum.getRight? =
              rest.filterMap Sum.getRight? := rfl
          rw [hleft, hright, getLast?_append_cons']
          rfl
      | inr m =>
          have hmac : (some (record (.inr m) slot)).bind Slot.mac? = some m := by
            show (recordMac m slot).mac? = _
            unfold recordMac
            cases slot.bind Slot.lldp? <;> rfl
          have hlldp : (some (record (.inr m) slot)).bind Slot.lldp? = slot.bind Slot.lldp? := by
            show (recordMac m slot).lldp? = _
            unfold recordMac
            cases slot.bind Slot.lldp? <;> rfl
          rw [hmac, hlldp]
          have hleft : (Sum.inr m :: rest : List Evidence).filterMap Sum.getLeft? =
              rest.filterMap Sum.getLeft? := rfl
          have hright : (Sum.inr m :: rest : List Evidence).filterMap Sum.getRight? =
              m :: rest.filterMap Sum.getRight? := rfl
          rw [hleft, hright, getLast?_append_cons']
          rfl

/-! ## The loops as one run of events -/

section

variable (lowercase : String → String)

def hostEvent (switch : SwitchTelemetry) (found : TopologyNode → Option Evidence)
    (node : TopologyNode) : Option ((String × String) × Evidence) :=
  (found node).map fun e => ((node.nodeId, switch.nodeId), e)

def neighborEvents (hosts : List TopologyNode) (switch : SwitchTelemetry) (nb : LldpNeighbor) :
    List ((String × String) × Evidence) :=
  hosts.filterMap (hostEvent switch fun node => (matchNeighbor lowercase switch nb node).map .inl)

def entryEvents (hosts : List TopologyNode) (switch : SwitchTelemetry) (entry : MacTableEntry) :
    List ((String × String) × Evidence) :=
  hosts.filterMap (hostEvent switch fun node => (matchMac lowercase switch entry node).map .inr)

def switchEvents (hosts : List TopologyNode) (switch : SwitchTelemetry) :
    List ((String × String) × Evidence) :=
  switch.lldp.flatMap (neighborEvents lowercase hosts switch) ++
    switch.macTable.flatMap (entryEvents lowercase hosts switch)

variable {lowercase}

theorem fill_flatMap {α : Type} {f : α → List ((String × String) × Evidence)}
    {body : Slots → α → Slots} (h : ∀ slots x, body slots x = Entries.fill record slots (f x))
    (slots : Slots) (xs : List α) :
    xs.foldl body slots = Entries.fill record slots (xs.flatMap f) := by
  induction xs generalizing slots with
  | nil => rfl
  | cons x xs ih =>
      rw [List.foldl_cons, ih, h]
      unfold Entries.fill
      rw [List.flatMap_cons, List.foldl_append]

/-- A pass over the hosts that records what it finds of each of them. -/
theorem fill_hostEvents {switch : SwitchTelemetry} {found : TopologyNode → Option Evidence}
    {body : Slots → TopologyNode → Slots}
    (h : ∀ slots node, body slots node =
      Entries.fill record slots (hostEvent switch found node).toList)
    (slots : Slots) (hosts : List TopologyNode) :
    hosts.foldl body slots =
      Entries.fill record slots (hosts.filterMap (hostEvent switch found)) := by
  rw [fill_flatMap h, List.filterMap_eq_flatMap_toList]

theorem recordNeighbor_eq (hosts : List TopologyNode) (switch : SwitchTelemetry) (slots : Slots)
    (nb : LldpNeighbor) :
    recordNeighbor lowercase hosts switch slots nb =
      Entries.fill record slots (neighborEvents lowercase hosts switch nb) := by
  apply fill_hostEvents
  intro slots node
  unfold hostEvent
  simp only
  cases matchNeighbor lowercase switch nb node <;> rfl

theorem recordEntry_eq (hosts : List TopologyNode) (switch : SwitchTelemetry) (slots : Slots)
    (entry : MacTableEntry) :
    recordEntry lowercase hosts switch slots entry =
      Entries.fill record slots (entryEvents lowercase hosts switch entry) := by
  apply fill_hostEvents
  intro slots node
  unfold hostEvent
  simp only
  cases matchMac lowercase switch entry node <;> rfl

theorem recordSwitch_eq (hosts : List TopologyNode) (slots : Slots) (switch : SwitchTelemetry) :
    recordSwitch lowercase hosts slots switch =
      Entries.fill record slots (switchEvents lowercase hosts switch) := by
  unfold recordSwitch switchEvents
  rw [fill_flatMap (recordNeighbor_eq hosts switch), fill_flatMap (recordEntry_eq hosts switch)]
  unfold Entries.fill
  rw [List.foldl_append]

theorem correlationSlots_eq (topology : NetworkTopology) (switches : List SwitchTelemetry) :
    correlationSlots lowercase topology switches =
      Entries.fill record [] (switches.flatMap (switchEvents lowercase (hostNodes topology))) :=
  fill_flatMap (recordSwitch_eq (hostNodes topology)) [] switches

end

/-! ## The matches of a pair -/

section

variable (lowercase : String → String)

def lldpMatches (node : TopologyNode) (s : String) (switches : List SwitchTelemetry) :
    List LldpEvidence :=
  switches.flatMap fun switch =>
    if switch.nodeId = s then
      switch.lldp.filterMap fun nb => matchNeighbor lowercase switch nb node
    else []

def macMatches (node : TopologyNode) (s : String) (switches : List SwitchTelemetry) :
    List MacEvidence :=
  switches.flatMap fun switch =>
    if switch.nodeId = s then
      switch.macTable.filterMap fun entry => matchMac lowercase switch entry node
    else []

variable {lowercase}

theorem filterMap_cons_toList {α β : Type} (f : α → Option β) (x : α) (xs : List α) :
    (x :: xs).filterMap f = (f x).toList ++ xs.filterMap f := by
  cases h : f x <;> simp [h]

theorem flatMap_toList_map {α β γ : Type} (f : α → Option β) (g : β → γ) (xs : List α) :
    (xs.flatMap fun x => ((f x).map g).toList) = (xs.filterMap f).map g := by
  rw [← List.filterMap_eq_flatMap_toList, List.map_filterMap]

/-- A pass over other hosts has no event of the pair. -/
theorem filter_hostEvents_of_absent {hosts : List TopologyNode} {h s : String}
    (habsent : ∀ node ∈ hosts, node.nodeId ≠ h) (switch : SwitchTelemetry)
    (found : TopologyNode → Option Evidence) :
    (hosts.filterMap (hostEvent switch found)).filter (·.1 = (h, s)) = [] := by
  apply List.filter_eq_nil_iff.mpr
  intro e he
  obtain ⟨node, hnode, hevent⟩ := List.mem_filterMap.mp he
  unfold hostEvent at hevent
  obtain ⟨found, -, rfl⟩ := Option.map_eq_some_iff.mp hevent
  simp [habsent node hnode]

/-- Of a pass over distinct hosts, the events of one pair are those of its host. -/
theorem filter_hostEvents {hosts : List TopologyNode} (hnodup : (hosts.map (·.nodeId)).Nodup)
    {node : TopologyNode} (hnode : node ∈ hosts) (switch : SwitchTelemetry)
    (found : TopologyNode → Option Evidence) (s : String) :
    ((hosts.filterMap (hostEvent switch found)).filter (·.1 = (node.nodeId, s))).map (·.2) =
      if switch.nodeId = s then (found node).toList else [] := by
  have hother : ∀ other : TopologyNode, other.nodeId ≠ node.nodeId →
      ∀ rest : List ((String × String) × Evidence),
        (((hostEvent switch found other).toList ++ rest).filter
          (·.1 = (node.nodeId, s))) = rest.filter (·.1 = (node.nodeId, s)) := by
    intro other hne rest
    unfold hostEvent
    cases found other <;> simp [hne]
  induction hosts with
  | nil => cases hnode
  | cons first rest ih =>
      obtain ⟨hfresh, hrest⟩ := List.nodup_cons.mp hnodup
      rw [filterMap_cons_toList]
      rcases List.mem_cons.mp hnode with rfl | hmem
      · have hdistinct : ∀ other ∈ rest, other.nodeId ≠ node.nodeId := by
          intro other ho heq
          exact hfresh (List.mem_map.mpr ⟨other, ho, heq⟩)
        rw [List.filter_append, filter_hostEvents_of_absent hdistinct, List.append_nil]
        unfold hostEvent
        by_cases hs : switch.nodeId = s
        · cases found node <;> simp [hs]
        · cases found node <;> simp [hs]
      · have hne : first.nodeId ≠ node.nodeId := by
          intro heq
          exact hfresh (List.mem_map.mpr ⟨node, hmem, heq.symm⟩)
        rw [hother first hne]
        exact ih hrest hmem

theorem hostNodes_nodup (topology : NetworkTopology) :
    ((hostNodes topology).map (·.nodeId)).Nodup :=
  (List.filter_sublist.map _).nodup topology.nodes_nodup

def pairEvents (lowercase : String → String) (node : TopologyNode) (s : String)
    (switch : SwitchTelemetry) : List Evidence :=
  if switch.nodeId = s then
    (switch.lldp.filterMap fun nb => matchNeighbor lowercase switch nb node).map .inl ++
      (switch.macTable.filterMap fun entry => matchMac lowercase switch entry node).map .inr
  else []

theorem filter_switchEvents (topology : NetworkTopology) {node : TopologyNode}
    (hnode : node ∈ hostNodes topology) (s : String) (switch : SwitchTelemetry) :
    ((switchEvents lowercase (hostNodes topology) switch).filter
        (·.1 = (node.nodeId, s))).map (·.2) = pairEvents lowercase node s switch := by
  have hone := filter_hostEvents (hostNodes_nodup topology) hnode switch
  unfold switchEvents neighborEvents entryEvents pairEvents
  rw [List.filter_append, List.map_append, List.filter_flatMap, List.filter_flatMap,
    List.map_flatMap, List.map_flatMap]
  simp only [hone]
  by_cases hs : switch.nodeId = s
  · simp only [if_pos hs]
    rw [flatMap_toList_map, flatMap_toList_map]
  · simp [hs]

/-- One source of the events of a pair, over all the telemetry. -/
theorem filterMap_pairEvents {β : Type} {side : Evidence → Option β}
    {found : SwitchTelemetry → List β} (node : TopologyNode) (s : String)
    (h : ∀ switch, switch.nodeId = s →
      (pairEvents lowercase node s switch).filterMap side = found switch)
    (switches : List SwitchTelemetry) :
    (switches.flatMap (pairEvents lowercase node s)).filterMap side =
      switches.flatMap fun switch => if switch.nodeId = s then found switch else [] := by
  rw [List.filterMap_flatMap]
  apply List.flatMap_congr
  intro switch _
  by_cases hs : switch.nodeId = s
  · rw [if_pos hs]
    exact h switch hs
  · rw [if_neg hs]
    unfold pairEvents
    rw [if_neg hs]
    rfl

/-- Under a pair, the correlation leaves the last of its matches from either source. -/
theorem value?_correlationSlots (topology : NetworkTopology) (switches : List SwitchTelemetry)
    {node : TopologyNode} (hnode : node ∈ hostNodes topology) (s : String) :
    Entries.value? (correlationSlots lowercase topology switches) (node.nodeId, s) =
      slotOf (lldpMatches lowercase node s switches) (macMatches lowercase node s switches) := by
  have hevents : ((switches.flatMap (switchEvents lowercase (hostNodes topology))).filter
      (·.1 = (node.nodeId, s))).map (·.2) = switches.flatMap (pairEvents lowercase node s) := by
    rw [List.filter_flatMap, List.map_flatMap]
    apply List.flatMap_congr
    intro switch _
    exact filter_switchEvents topology hnode s switch
  have hlldp : (switches.flatMap (pairEvents lowercase node s)).filterMap Sum.getLeft? =
      lldpMatches lowercase node s switches := by
    apply filterMap_pairEvents node s
    intro switch hs
    unfold pairEvents
    simp [hs, List.filterMap_append, List.filterMap_map, Function.comp_def]
  have hmac : (switches.flatMap (pairEvents lowercase node s)).filterMap Sum.getRight? =
      macMatches lowercase node s switches := by
    apply filterMap_pairEvents node s
    intro switch hs
    unfold pairEvents
    simp [hs, List.filterMap_append, List.filterMap_map, Function.comp_def]
  rw [correlationSlots_eq, Entries.value?_fill, hevents, foldl_record, hlldp, hmac]
  rfl

/-- A pair whose first component is no host has no slot. -/
theorem value?_correlationSlots_of_absent (topology : NetworkTopology)
    (switches : List SwitchTelemetry) {h : String}
    (habsent : ∀ node ∈ hostNodes topology, node.nodeId ≠ h) (s : String) :
    Entries.value? (correlationSlots lowercase topology switches) (h, s) = none := by
  have hevents : (switches.flatMap (switchEvents lowercase (hostNodes topology))).filter
      (·.1 = (h, s)) = [] := by
    have hpass := @filter_hostEvents_of_absent _ h s habsent
    rw [List.filter_flatMap]
    apply List.flatMap_eq_nil_iff.mpr
    intro switch _
    unfold switchEvents neighborEvents entryEvents
    rw [List.filter_append, List.filter_flatMap, List.filter_flatMap]
    simp only [hpass]
    simp
  rw [correlationSlots_eq, Entries.value?_fill, hevents]
  rfl

theorem correlationSlots_nodup (topology : NetworkTopology) (switches : List SwitchTelemetry) :
    (Entries.keys (correlationSlots lowercase topology switches)).Nodup := by
  rw [correlationSlots_eq]
  exact Entries.nodup_fill record _ List.nodup_nil

/-! ## The bindings -/

theorem bindingOf_key (key : String × String) (slot : Slot) : (bindingOf key slot).key = key := by
  cases slot <;> rfl

/-- The bindings of a correlation, by the matches of their pairs. -/
theorem mem_correlateHostPorts {topology : NetworkTopology} {switches : List SwitchTelemetry}
    {b : HostPortBinding} :
    b ∈ correlateHostPorts lowercase topology switches ↔
      ∃ node ∈ hostNodes topology, ∃ s slot,
        slotOf (lldpMatches lowercase node s switches) (macMatches lowercase node s switches) =
          some slot ∧ b = bindingOf (node.nodeId, s) slot := by
  have hvalue : ∀ {key : String × String} {slot : Slot},
      (key, slot) ∈ correlationSlots lowercase topology switches ↔
        Entries.value? (correlationSlots lowercase topology switches) key = some slot :=
    Entries.mem_iff_value? (correlationSlots_nodup topology switches)
  unfold correlateHostPorts
  rw [List.mem_insertionSort, List.mem_map]
  constructor
  · rintro ⟨⟨⟨h, s⟩, slot⟩, hmem, rfl⟩
    have hslot := hvalue.mp hmem
    by_cases hhost : ∃ node ∈ hostNodes topology, node.nodeId = h
    · obtain ⟨node, hnode, rfl⟩ := hhost
      rw [value?_correlationSlots topology switches hnode s] at hslot
      exact ⟨node, hnode, s, slot, hslot, rfl⟩
    · have habsent : ∀ node ∈ hostNodes topology, node.nodeId ≠ h :=
        fun node hnode heq => hhost ⟨node, hnode, heq⟩
      rw [value?_correlationSlots_of_absent topology switches habsent s] at hslot
      cases hslot
  · rintro ⟨node, hnode, s, slot, hslot, rfl⟩
    refine ⟨((node.nodeId, s), slot), hvalue.mpr ?_, rfl⟩
    rw [value?_correlationSlots topology switches hnode s]
    exact hslot

/-- The first binding is for an earlier host, or for the same host and an earlier switch. -/
def KeyBefore (a b : HostPortBinding) : Prop :=
  a.hostNodeId < b.hostNodeId ∨
    (a.hostNodeId = b.hostNodeId ∧ a.switchNodeId < b.switchNodeId)

instance : Std.Total BindingPrecedes where
  total := by
    intro a b
    unfold BindingPrecedes
    rcases lt_trichotomy a.hostNodeId b.hostNodeId with h | h | h
    · exact .inl (.inl h)
    · rcases le_total a.switchNodeId b.switchNodeId with hs | hs
      · exact .inl (.inr ⟨h, hs⟩)
      · exact .inr (.inr ⟨h.symm, hs⟩)
    · exact .inr (.inl h)

instance : IsTrans HostPortBinding BindingPrecedes where
  trans := by
    intro a b c hab hbc
    rcases hab with hab | ⟨hab, hab'⟩
    · rcases hbc with hbc | ⟨hbc, -⟩
      · exact .inl (hab.trans hbc)
      · exact .inl (hbc ▸ hab)
    · rcases hbc with hbc | ⟨hbc, hbc'⟩
      · exact .inl (hab ▸ hbc)
      · exact .inr ⟨hab.trans hbc, hab'.trans hbc'⟩

theorem correlateHostPorts_ordered (topology : NetworkTopology) (switches : List SwitchTelemetry) :
    (correlateHostPorts lowercase topology switches).Pairwise KeyBefore := by
  have hkeys : ((correlationSlots lowercase topology switches).map fun entry =>
      bindingOf entry.1 entry.2).map HostPortBinding.key =
        Entries.keys (correlationSlots lowercase topology switches) := by
    rw [List.map_map]
    apply List.map_congr_left
    intro entry _
    exact bindingOf_key entry.1 entry.2
  have hperm := List.perm_insertionSort BindingPrecedes
    ((correlationSlots lowercase topology switches).map fun entry => bindingOf entry.1 entry.2)
  have hnodup :
      ((correlateHostPorts lowercase topology switches).map HostPortBinding.key).Nodup := by
    apply (hperm.map _).nodup_iff.mpr
    rw [hkeys]
    exact correlationSlots_nodup topology switches
  have hdistinct : (correlateHostPorts lowercase topology switches).Pairwise
      fun a b => a.key ≠ b.key := List.pairwise_map.mp hnodup
  have hsorted : (correlateHostPorts lowercase topology switches).Pairwise BindingPrecedes :=
    List.pairwise_insertionSort BindingPrecedes _
  apply (hsorted.and hdistinct).imp
  rintro a b ⟨hle, hne⟩
  rcases hle with hlt | ⟨heq, hle⟩
  · exact .inl hlt
  · refine .inr ⟨heq, lt_of_le_of_ne hle fun hswitch => hne ?_⟩
    exact Prod.ext heq hswitch

end

end NetForge.Controller
