import NetForge.Calculus.Entries
import NetForge.Controller.Vantage
import NetForge.Python.Text

/-! # Host-to-switch-port correlation

`controller/correlation.py`: LLDP neighbours and MAC-table entries that switches
report are fused into host-port bindings, and the bindings into a topology. The
lowercase mapping of texts is Unicode's, of which nothing is assumed. What the
correlation does not read of a neighbour, its description and its time to live, is left
out.
-/

namespace NetForge.Controller

open NetForge.Core NetForge.Python Calculus

def CONF_LLD_NAME : Rat := 82 / 100

def CONF_LLD_MAC : Rat := 90 / 100

def CONF_MAC_TABLE : Rat := 75 / 100

def CONF_CORROBORATED : Rat := 95 / 100

def MAC_TAGS : List String := ["mac", "mac_address", "chassis_id", "hardware", "hwaddr"]

inductive CorrelationMethod
  | lldp | macTable | lldpAndMac
  deriving DecidableEq, Repr

def CorrelationMethod.value : CorrelationMethod → String
  | .lldp => "lldp"
  | .macTable => "mac_table"
  | .lldpAndMac => "lldp_and_mac"

@[ext] structure HostPortBinding where
  hostNodeId : String
  hostIdentity : String
  switchNodeId : String
  switchPort : String
  ifIndex : Option Int
  method : CorrelationMethod
  confidence : Rat
  evidenceQuality : EvidenceQuality
  evidence : List String
  confidence_mem : 0 ≤ confidence ∧ confidence ≤ 1

instance : DecidableEq HostPortBinding := fun _ _ => decidable_of_iff _ HostPortBinding.ext_iff.symm

/-- A directly connected neighbour as seen on one local switch port. -/
structure LldpNeighbor where
  localPort : String
  neighborChassisId : Option String
  neighborPortId : Option String
  neighborSysName : Option String
  neighborMgmtAddr : Option String
  deriving DecidableEq

/-- A learned MAC address and the port it was learned on. -/
structure MacTableEntry where
  mac : String
  bridgePort : Int
  ifIndex : Option Int
  deriving DecidableEq

structure SwitchTelemetry where
  nodeId : String
  lldp : List LldpNeighbor
  macTable : List MacTableEntry
  nodeId_ne : nodeId ≠ ""

/-! ## Identities -/

def isHexDigit (c : Char) : Bool :=
  ('0' ≤ c && c ≤ '9') || ('a' ≤ c && c ≤ 'f') || ('A' ≤ c && c ≤ 'F')

/-- Twelve hexadecimal digits in lowercase, or `none` if the text has another number of
them. -/
def normalizeMac (value : Option String) : Option String :=
  (nonEmpty value).bind fun text =>
    let hexchars := text.toList.filter isHexDigit
    if hexchars.length = 12 then some (String.ofList (hexchars.map Char.toLower)) else none

/-- Two sets: the names and the hardware addresses something is known by. -/
structure Identities where
  names : List String
  macs : List String
  deriving DecidableEq

section

variable (lowercase : String → String)

/-- `str(value).strip().lower()`. -/
def canonical (value : String) : String := lowercase (strip value)

/-- `_host_identities`. A tag is an address wherever it has the form of one. -/
def hostIdentities (node : TopologyNode) : Identities where
  names :=
    (([some node.nodeId, node.label, node.address, node.agentId].filterMap nonEmpty).map
      (canonical lowercase)) ++
    (node.tags.filter (·.2 ≠ "")).map fun tag => canonical lowercase tag.2
  macs :=
    (node.tags.filter (·.2 ≠ "")).filterMap fun tag =>
      (normalizeMac (some (canonical lowercase tag.2))).filter fun mac =>
        mac ≠ "" && (lowercase tag.1 ∈ MAC_TAGS || mac ≠ "")

def neighborIdentities (nb : LldpNeighbor) : Identities where
  names :=
    ([nb.neighborSysName, nb.neighborMgmtAddr, nb.neighborPortId,
      nb.neighborChassisId].filterMap nonEmpty).map (canonical lowercase)
  macs := (normalizeMac nb.neighborChassisId).toList

/-- `sorted(a & b)[0]`, if there is one. -/
def firstCommon (a b : List String) : Option String :=
  ((a.filter (· ∈ b)).insertionSort (· ≤ ·)).head?

/-! ## Evidence -/

/-- What the last matching neighbour says about a host and a switch. -/
structure LldpEvidence where
  hostIdentity : String
  switchPort : String
  confidence : Rat
  evidence : String
  confidence_mem : 0 ≤ confidence ∧ confidence ≤ 1

/-- What the last matching MAC-table entry says about a host and a switch. -/
structure MacEvidence where
  hostIdentity : String
  switchPort : String
  ifIndex : Option Int
  evidence : String

/-- The partial evidence of a pair: from either source, or from both. -/
inductive Slot
  | lldp (lldp : LldpEvidence)
  | mac (mac : MacEvidence)
  | both (lldp : LldpEvidence) (mac : MacEvidence)

def Slot.lldp? : Slot → Option LldpEvidence
  | .lldp e => some e
  | .mac _ => none
  | .both e _ => some e

def Slot.mac? : Slot → Option MacEvidence
  | .lldp _ => none
  | .mac m => some m
  | .both _ m => some m

/-- `slot["lldp"] = …`. -/
def recordLldp (e : LldpEvidence) (slot : Option Slot) : Slot :=
  match slot.bind Slot.mac? with
  | some m => .both e m
  | none => .lldp e

/-- `slot["mac"] = …`. -/
def recordMac (m : MacEvidence) (slot : Option Slot) : Slot :=
  match slot.bind Slot.lldp? with
  | some e => .both e m
  | none => .mac m

/-- Pairs of a host and a switch, with their evidence so far. -/
abbrev Slots := List ((String × String) × Slot)

def lldpEvidence (switch : SwitchTelemetry) (nb : LldpNeighbor) (node : TopologyNode)
    (identity : String) (confidence : Rat) (h : 0 ≤ confidence ∧ confidence ≤ 1) :
    LldpEvidence where
  hostIdentity := identity
  switchPort := nb.localPort
  confidence := confidence
  evidence :=
    s!"LLDP on switch {switch.nodeId} port {nb.localPort} reports neighbor " ++
      s!"'{identity}' matching node {node.nodeId}"
  confidence_mem := h

theorem confLldMac_mem : 0 ≤ CONF_LLD_MAC ∧ CONF_LLD_MAC ≤ 1 := by decide +kernel

theorem confLldName_mem : 0 ≤ CONF_LLD_NAME ∧ CONF_LLD_NAME ≤ 1 := by decide +kernel

/-- A neighbour that shares an address with the node, or else a name. -/
def matchNeighbor (switch : SwitchTelemetry) (nb : LldpNeighbor) (node : TopologyNode) :
    Option LldpEvidence :=
  let host := hostIdentities lowercase node
  let neighbor := neighborIdentities lowercase nb
  match firstCommon host.macs neighbor.macs with
  | some identity => some (lldpEvidence switch nb node identity CONF_LLD_MAC confLldMac_mem)
  | none =>
      (firstCommon host.names neighbor.names).map fun identity =>
        lldpEvidence switch nb node identity CONF_LLD_NAME confLldName_mem

def macPort (entry : MacTableEntry) : String :=
  match entry.ifIndex with
  | some ifIndex => s!"ifIndex {ifIndex}"
  | none => s!"bridge-port {entry.bridgePort}"

def matchMac (switch : SwitchTelemetry) (entry : MacTableEntry) (node : TopologyNode) :
    Option MacEvidence :=
  ((normalizeMac (some entry.mac)).filter (· ∈ (hostIdentities lowercase node).macs)).map
    fun mac =>
      let port := macPort entry
      { hostIdentity := mac
        switchPort := port
        ifIndex := entry.ifIndex
        evidence := s!"MAC table on {switch.nodeId}: {mac} learned on {port}" }

def recordNeighbor (hosts : List TopologyNode) (switch : SwitchTelemetry) (slots : Slots)
    (nb : LldpNeighbor) : Slots :=
  hosts.foldl
    (fun slots node =>
      match matchNeighbor lowercase switch nb node with
      | some e => Entries.alter slots (node.nodeId, switch.nodeId) (recordLldp e)
      | none => slots)
    slots

def recordEntry (hosts : List TopologyNode) (switch : SwitchTelemetry) (slots : Slots)
    (entry : MacTableEntry) : Slots :=
  hosts.foldl
    (fun slots node =>
      match matchMac lowercase switch entry node with
      | some m => Entries.alter slots (node.nodeId, switch.nodeId) (recordMac m)
      | none => slots)
    slots

def recordSwitch (hosts : List TopologyNode) (slots : Slots) (switch : SwitchTelemetry) : Slots :=
  switch.macTable.foldl (recordEntry lowercase hosts switch)
    (switch.lldp.foldl (recordNeighbor lowercase hosts switch) slots)

def isHostLike (node : TopologyNode) : Bool :=
  node.role = .host || node.role = .agent || node.role = .service ||
    (nonEmpty node.agentId).isSome

def hostNodes (topology : NetworkTopology) : List TopologyNode := topology.nodes.filter isHostLike

def correlationSlots (topology : NetworkTopology) (switches : List SwitchTelemetry) : Slots :=
  switches.foldl (recordSwitch lowercase (hostNodes topology)) []

end

/-! ## Bindings -/

theorem roundTo_unit {q : Rat} (h : 0 ≤ q ∧ q ≤ 1) : 0 ≤ roundTo 2 q ∧ roundTo 2 q ≤ 1 := by
  have hzero : roundTo 2 0 = 0 := by decide +kernel
  have hone : roundTo 2 1 = 1 := by decide +kernel
  constructor
  · rw [← hzero]
    exact roundTo_mono 2 h.1
  · calc roundTo 2 q ≤ roundTo 2 1 := roundTo_mono 2 h.2
      _ = 1 := hone

def bindingOf (key : String × String) : Slot → HostPortBinding
  | .both lldp mac =>
      { hostNodeId := key.1
        hostIdentity := lldp.hostIdentity
        switchNodeId := key.2
        switchPort := lldp.switchPort
        ifIndex := mac.ifIndex
        method := .lldpAndMac
        confidence := roundTo 2 CONF_CORROBORATED
        evidenceQuality := .corroborated
        evidence := [lldp.evidence, mac.evidence, "Corroborated by LLDP and MAC table"]
        confidence_mem := roundTo_unit (by decide +kernel) }
  | .lldp lldp =>
      { hostNodeId := key.1
        hostIdentity := lldp.hostIdentity
        switchNodeId := key.2
        switchPort := lldp.switchPort
        ifIndex := none
        method := .lldp
        confidence := roundTo 2 lldp.confidence
        evidenceQuality := .singleSource
        evidence := [lldp.evidence]
        confidence_mem := roundTo_unit lldp.confidence_mem }
  | .mac mac =>
      { hostNodeId := key.1
        hostIdentity := mac.hostIdentity
        switchNodeId := key.2
        switchPort := mac.switchPort
        ifIndex := mac.ifIndex
        method := .macTable
        confidence := roundTo 2 CONF_MAC_TABLE
        evidenceQuality := .singleSource
        evidence := [mac.evidence]
        confidence_mem := roundTo_unit (by decide +kernel) }

def HostPortBinding.key (b : HostPortBinding) : String × String := (b.hostNodeId, b.switchNodeId)

def BindingPrecedes (a b : HostPortBinding) : Prop :=
  a.hostNodeId < b.hostNodeId ∨
    (a.hostNodeId = b.hostNodeId ∧ a.switchNodeId ≤ b.switchNodeId)

instance : DecidableRel BindingPrecedes := fun _ _ =>
  inferInstanceAs (Decidable (_ ∨ (_ ∧ _)))

def correlateHostPorts (lowercase : String → String) (topology : NetworkTopology)
    (switches : List SwitchTelemetry) : List HostPortBinding :=
  ((correlationSlots lowercase topology switches).map fun entry =>
    bindingOf entry.1 entry.2).insertionSort BindingPrecedes

end NetForge.Controller
