import NetForge.Controller.BindingEvidence

/-! # Which pairs are bound

A pair of a host and a switch is bound when the telemetry of the switch names the host
in one of two ways: a neighbour shares a name or an address with it, or its address was
learned on a port. Both ways together corroborate the binding, and more telemetry takes
neither away.
-/

namespace NetForge.Controller

open NetForge.Core NetForge.Python Calculus

section

variable (lowercase : String → String)

def SharesIdentity (node : TopologyNode) (nb : LldpNeighbor) : Prop :=
  (∃ mac ∈ (hostIdentities lowercase node).macs, mac ∈ (neighborIdentities lowercase nb).macs) ∨
    ∃ name ∈ (hostIdentities lowercase node).names, name ∈ (neighborIdentities lowercase nb).names

def LearnedFrom (node : TopologyNode) (entry : MacTableEntry) : Prop :=
  ∃ mac ∈ (hostIdentities lowercase node).macs, normalizeMac (some entry.mac) = some mac

def SeenByLldp (node : TopologyNode) (s : String) (switches : List SwitchTelemetry) : Prop :=
  ∃ switch ∈ switches, switch.nodeId = s ∧ ∃ nb ∈ switch.lldp, SharesIdentity lowercase node nb

def SeenByMac (node : TopologyNode) (s : String) (switches : List SwitchTelemetry) : Prop :=
  ∃ switch ∈ switches, switch.nodeId = s ∧
    ∃ entry ∈ switch.macTable, LearnedFrom lowercase node entry

variable {lowercase}

/-! ## Matches -/

theorem firstCommon_isSome {a b : List String} : (firstCommon a b).isSome ↔ ∃ x ∈ a, x ∈ b := by
  unfold firstCommon
  rw [List.isSome_head?, ne_eq, ← List.length_eq_zero_iff, List.length_insertionSort,
    List.length_eq_zero_iff, List.filter_eq_nil_iff]
  push Not
  simp only [decide_eq_true_iff]

theorem matchNeighbor_isSome {switch : SwitchTelemetry} {nb : LldpNeighbor} {node : TopologyNode} :
    (matchNeighbor lowercase switch nb node).isSome ↔ SharesIdentity lowercase node nb := by
  unfold matchNeighbor SharesIdentity
  rw [← firstCommon_isSome, ← firstCommon_isSome]
  simp only
  cases firstCommon (hostIdentities lowercase node).macs (neighborIdentities lowercase nb).macs with
  | some identity => simp
  | none => simp

theorem matchMac_isSome {switch : SwitchTelemetry} {entry : MacTableEntry} {node : TopologyNode} :
    (matchMac lowercase switch entry node).isSome ↔ LearnedFrom lowercase node entry := by
  unfold matchMac LearnedFrom
  rw [Option.isSome_map]
  cases normalizeMac (some entry.mac) with
  | none => simp
  | some mac => simp [Option.filter_some]

theorem mem_matches {α β : Type} {switches : List SwitchTelemetry} {s : String}
    {items : SwitchTelemetry → List α} {found : SwitchTelemetry → α → Option β} {y : β} :
    (y ∈ switches.flatMap fun switch =>
        if switch.nodeId = s then (items switch).filterMap (found switch) else []) ↔
      ∃ switch ∈ switches, switch.nodeId = s ∧ ∃ x ∈ items switch, found switch x = some y := by
  rw [List.mem_flatMap]
  apply exists_congr
  intro switch
  apply and_congr_right
  intro _
  by_cases hs : switch.nodeId = s
  · simp [hs, List.mem_filterMap]
  · simp [hs]

theorem matches_ne_nil {α β : Type} {switches : List SwitchTelemetry} {s : String}
    {items : SwitchTelemetry → List α} {found : SwitchTelemetry → α → Option β} :
    (switches.flatMap fun switch =>
        if switch.nodeId = s then (items switch).filterMap (found switch) else []) ≠ [] ↔
      ∃ switch ∈ switches, switch.nodeId = s ∧ ∃ x ∈ items switch, (found switch x).isSome := by
  constructor
  · intro hne
    obtain ⟨y, hy⟩ := List.exists_mem_of_ne_nil _ hne
    obtain ⟨switch, hswitch, hs, x, hx, hfound⟩ := mem_matches.mp hy
    exact ⟨switch, hswitch, hs, x, hx, by rw [hfound]; rfl⟩
  · rintro ⟨switch, hswitch, hs, x, hx, hsome⟩
    obtain ⟨y, hfound⟩ := Option.isSome_iff_exists.mp hsome
    exact List.ne_nil_of_mem (mem_matches.mpr ⟨switch, hswitch, hs, x, hx, hfound⟩)

theorem lldpMatches_ne_nil {node : TopologyNode} {s : String} {switches : List SwitchTelemetry} :
    lldpMatches lowercase node s switches ≠ [] ↔ SeenByLldp lowercase node s switches := by
  unfold lldpMatches SeenByLldp
  rw [matches_ne_nil]
  simp only [matchNeighbor_isSome]

theorem macMatches_ne_nil {node : TopologyNode} {s : String} {switches : List SwitchTelemetry} :
    macMatches lowercase node s switches ≠ [] ↔ SeenByMac lowercase node s switches := by
  unfold macMatches SeenByMac
  rw [matches_ne_nil]
  simp only [matchMac_isSome]

theorem matchNeighbor_confidence {switch : SwitchTelemetry} {nb : LldpNeighbor}
    {node : TopologyNode} {e : LldpEvidence} (h : matchNeighbor lowercase switch nb node = some e) :
    e.confidence = CONF_LLD_MAC ∨ e.confidence = CONF_LLD_NAME := by
  unfold matchNeighbor at h
  simp only at h
  cases hmac : firstCommon (hostIdentities lowercase node).macs
      (neighborIdentities lowercase nb).macs with
  | some identity =>
      rw [hmac] at h
      cases h
      exact .inl rfl
  | none =>
      rw [hmac] at h
      obtain ⟨identity, -, rfl⟩ := Option.map_eq_some_iff.mp h
      exact .inr rfl

theorem mem_lldpMatches {node : TopologyNode} {s : String} {switches : List SwitchTelemetry}
    {e : LldpEvidence} :
    e ∈ lldpMatches lowercase node s switches ↔
      ∃ switch ∈ switches, switch.nodeId = s ∧
        ∃ nb ∈ switch.lldp, matchNeighbor lowercase switch nb node = some e := mem_matches

theorem mem_macMatches {node : TopologyNode} {s : String} {switches : List SwitchTelemetry}
    {m : MacEvidence} :
    m ∈ macMatches lowercase node s switches ↔
      ∃ switch ∈ switches, switch.nodeId = s ∧
        ∃ entry ∈ switch.macTable, matchMac lowercase switch entry node = some m := mem_matches

theorem lldpMatches_confidence {node : TopologyNode} {s : String}
    {switches : List SwitchTelemetry} {e : LldpEvidence}
    (h : e ∈ lldpMatches lowercase node s switches) :
    e.confidence = CONF_LLD_MAC ∨ e.confidence = CONF_LLD_NAME := by
  obtain ⟨switch, -, -, nb, -, he⟩ := mem_lldpMatches.mp h
  exact matchNeighbor_confidence he

/-! ## The slot of a pair -/

theorem slotOf_isSome {lldp : List LldpEvidence} {mac : List MacEvidence} :
    (slotOf lldp mac).isSome ↔ lldp ≠ [] ∨ mac ≠ [] := by
  unfold slotOf
  rw [← List.getLast?_isSome, ← List.getLast?_isSome]
  cases lldp.getLast? <;> cases mac.getLast? <;> simp

/-- The evidence of a slot is the last of either source. -/
theorem slotOf_eq_some {lldp : List LldpEvidence} {mac : List MacEvidence} {slot : Slot} :
    slotOf lldp mac = some slot ↔ slot.lldp? = lldp.getLast? ∧ slot.mac? = mac.getLast? := by
  unfold slotOf
  cases lldp.getLast? <;> cases mac.getLast? <;> cases slot <;>
    simp [Slot.lldp?, Slot.mac?, eq_comm]

theorem roundTo_confidences :
    roundTo 2 CONF_LLD_NAME = 82 / 100 ∧ roundTo 2 CONF_LLD_MAC = 90 / 100 ∧
      roundTo 2 CONF_MAC_TABLE = 75 / 100 ∧ roundTo 2 CONF_CORROBORATED = 95 / 100 := by
  decide +kernel

/-- Every neighbour and entry of the capture is still reported for its switch. -/
def Covered (switch : SwitchTelemetry) (more : List SwitchTelemetry) : Prop :=
  (∀ nb ∈ switch.lldp, ∃ other ∈ more, other.nodeId = switch.nodeId ∧ nb ∈ other.lldp) ∧
    ∀ entry ∈ switch.macTable,
      ∃ other ∈ more, other.nodeId = switch.nodeId ∧ entry ∈ other.macTable

theorem SeenByLldp.mono {node : TopologyNode} {s : String} {switches more : List SwitchTelemetry}
    (h : SeenByLldp lowercase node s switches) (hmore : ∀ switch ∈ switches, Covered switch more) :
    SeenByLldp lowercase node s more := by
  obtain ⟨switch, hswitch, hs, nb, hnb, hshares⟩ := h
  obtain ⟨other, hother, hid, hnb'⟩ := (hmore switch hswitch).1 nb hnb
  exact ⟨other, hother, hid.trans hs, nb, hnb', hshares⟩

theorem SeenByMac.mono {node : TopologyNode} {s : String} {switches more : List SwitchTelemetry}
    (h : SeenByMac lowercase node s switches) (hmore : ∀ switch ∈ switches, Covered switch more) :
    SeenByMac lowercase node s more := by
  obtain ⟨switch, hswitch, hs, entry, hentry, hlearned⟩ := h
  obtain ⟨other, hother, hid, hentry'⟩ := (hmore switch hswitch).2 entry hentry
  exact ⟨other, hother, hid.trans hs, entry, hentry', hlearned⟩

variable {topology : NetworkTopology} {switches : List SwitchTelemetry}

theorem mem_hostNodes {node : TopologyNode} :
    node ∈ hostNodes topology ↔ node ∈ topology.nodes ∧ isHostLike node = true := List.mem_filter

/-- The hosts of a topology are told apart by their ids. -/
theorem host_unique {node node' : TopologyNode} (h : node ∈ hostNodes topology)
    (h' : node' ∈ hostNodes topology) (hid : node.nodeId = node'.nodeId) : node = node' :=
  List.inj_on_of_nodup_map (hostNodes_nodup topology) h h' hid

/-- A pair is bound exactly when it was seen in one of the two ways. -/
theorem bound_iff {h s : String} :
    (∃ b ∈ correlateHostPorts lowercase topology switches, b.key = (h, s)) ↔
      ∃ node ∈ hostNodes topology, node.nodeId = h ∧
        (SeenByLldp lowercase node s switches ∨ SeenByMac lowercase node s switches) := by
  constructor
  · rintro ⟨b, hb, hkey⟩
    obtain ⟨node, hnode, s', slot, hslot, rfl⟩ := mem_correlateHostPorts.mp hb
    rw [bindingOf_key, Prod.mk.injEq] at hkey
    obtain ⟨rfl, rfl⟩ := hkey
    have hsome := slotOf_isSome.mp (by rw [hslot]; rfl)
    rw [lldpMatches_ne_nil, macMatches_ne_nil] at hsome
    exact ⟨node, hnode, rfl, hsome⟩
  · rintro ⟨node, hnode, rfl, hseen⟩
    rw [← lldpMatches_ne_nil, ← macMatches_ne_nil, ← slotOf_isSome] at hseen
    obtain ⟨slot, hslot⟩ := Option.isSome_iff_exists.mp hseen
    exact ⟨_, mem_correlateHostPorts.mpr ⟨node, hnode, s, slot, hslot, rfl⟩, bindingOf_key _ _⟩

end

end NetForge.Controller
