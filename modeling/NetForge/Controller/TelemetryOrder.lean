import NetForge.Controller.Exactness

/-! # The order of the telemetry

A slot keeps the last match of either source, so the order in which switches report
their neighbours and entries decides a binding wherever the matches of its pair differ.
Where they agree the order has no part in it, and the binding has the highest confidence
that its matches support.
-/

namespace NetForge.Controller

open NetForge.Core NetForge.Python Calculus

/-- The same capture, with its neighbours and entries in another order. -/
structure SameCapture (a b : SwitchTelemetry) : Prop where
  nodeId : b.nodeId = a.nodeId
  lldp : b.lldp.Perm a.lldp
  macTable : b.macTable.Perm a.macTable

/-- The same telemetry: captures in another order, each with its contents in another
order. -/
def Reordered (switches shuffled : List SwitchTelemetry) : Prop :=
  ∃ captures, List.Forall₂ SameCapture switches captures ∧ captures.Perm shuffled

def HostPortBinding.withoutEvidence (b : HostPortBinding) : HostPortBinding :=
  { b with evidence := [] }

def SameBindings (a b : List HostPortBinding) : Prop :=
  a.map HostPortBinding.withoutEvidence = b.map HostPortBinding.withoutEvidence

/-- The matches of a pair agree on what its binding says. A MAC match gives the interface
index alone where there is an LLDP match as well. -/
structure Agreed (lldp : List LldpEvidence) (mac : List MacEvidence) : Prop where
  port : ∀ e ∈ lldp, ∀ e' ∈ lldp, e.hostIdentity = e'.hostIdentity ∧ e.switchPort = e'.switchPort
  confidence : mac = [] → ∀ e ∈ lldp, ∀ e' ∈ lldp, e.confidence = e'.confidence
  ifIndex : ∀ m ∈ mac, ∀ m' ∈ mac, m.ifIndex = m'.ifIndex
  entry : lldp = [] →
    ∀ m ∈ mac, ∀ m' ∈ mac, m.hostIdentity = m'.hostIdentity ∧ m.switchPort = m'.switchPort

inductive SupportedConfidence (lldp : List LldpEvidence) (mac : List MacEvidence) : Rat → Prop
  | lldp {e : LldpEvidence} : e ∈ lldp → SupportedConfidence lldp mac e.confidence
  | mac : mac ≠ [] → SupportedConfidence lldp mac CONF_MAC_TABLE
  | both : lldp ≠ [] → mac ≠ [] → SupportedConfidence lldp mac CONF_CORROBORATED

section

variable {lowercase : String → String}

/-! ## Matches of reordered telemetry -/

theorem matchNeighbor_congr {a b : SwitchTelemetry} (h : b.nodeId = a.nodeId) (nb : LldpNeighbor)
    (node : TopologyNode) :
    matchNeighbor lowercase b nb node = matchNeighbor lowercase a nb node := by
  unfold matchNeighbor lldpEvidence
  rw [h]

theorem matchMac_congr {a b : SwitchTelemetry} (h : b.nodeId = a.nodeId) (entry : MacTableEntry)
    (node : TopologyNode) : matchMac lowercase b entry node = matchMac lowercase a entry node := by
  unfold matchMac
  rw [h]

/-- What the captures of one switch hold, found in another order. -/
theorem Reordered.flatMap {β : Type} {switches shuffled : List SwitchTelemetry}
    (h : Reordered switches shuffled) (s : String) {found : SwitchTelemetry → List β}
    (hfound : ∀ a b, SameCapture a b → (found b).Perm (found a)) :
    (shuffled.flatMap fun switch => if switch.nodeId = s then found switch else []).Perm
      (switches.flatMap fun switch => if switch.nodeId = s then found switch else []) := by
  obtain ⟨captures, hsame, hperm⟩ := h
  have hcaptures :
      (captures.flatMap fun switch => if switch.nodeId = s then found switch else []).Perm
        (switches.flatMap fun switch => if switch.nodeId = s then found switch else []) := by
    clear hperm
    induction hsame with
    | nil => exact .nil
    | @cons a b as bs hab hrest ih =>
        rw [List.flatMap_cons, List.flatMap_cons, hab.nodeId]
        apply List.Perm.append _ ih
        by_cases hs : a.nodeId = s
        · rw [if_pos hs, if_pos hs]
          exact hfound a b hab
        · rw [if_neg hs, if_neg hs]
  exact (hperm.symm.flatMap_right _).trans hcaptures

theorem Reordered.lldpMatches {switches shuffled : List SwitchTelemetry}
    (h : Reordered switches shuffled) (node : TopologyNode) (s : String) :
    (lldpMatches lowercase node s shuffled).Perm (lldpMatches lowercase node s switches) := by
  apply h.flatMap s
  intro a b hab
  simp only [matchNeighbor_congr hab.nodeId]
  exact hab.lldp.filterMap _

theorem Reordered.macMatches {switches shuffled : List SwitchTelemetry}
    (h : Reordered switches shuffled) (node : TopologyNode) (s : String) :
    (macMatches lowercase node s shuffled).Perm (macMatches lowercase node s switches) := by
  apply h.flatMap s
  intro a b hab
  simp only [matchMac_congr hab.nodeId]
  exact hab.macTable.filterMap _

theorem perm_moved_last {α : Type} (before after : List α) (x : α) :
    (before ++ after ++ [x]).Perm (before ++ x :: after) := by
  rw [List.append_assoc]
  exact (List.perm_append_singleton x after).append_left before

/-- Some order of the telemetry puts a given item of a given capture last. -/
theorem exists_reordered {switches : List SwitchTelemetry} {switch capture : SwitchTelemetry}
    (hswitch : switch ∈ switches) (hsame : SameCapture switch capture) :
    ∃ others, Reordered switches (others ++ [capture]) := by
  obtain ⟨before, after, rfl⟩ := List.append_of_mem hswitch
  have hrefl : ∀ xs : List SwitchTelemetry, List.Forall₂ SameCapture xs xs := by
    intro xs
    induction xs with
    | nil => exact .nil
    | cons x xs ih => exact .cons ⟨rfl, .refl _, .refl _⟩ ih
  have hcaptures : List.Forall₂ SameCapture (before ++ switch :: after)
      (before ++ capture :: after) :=
    List.rel_append (hrefl before) (.cons hsame (hrefl after))
  exact ⟨before ++ after, _, hcaptures, (perm_moved_last before after capture).symm⟩

/-- The last capture of a switch gives the last thing found. -/
theorem getLast?_flatMap_last {α β : Type} {s : String} {items : SwitchTelemetry → List α}
    {found : SwitchTelemetry → α → Option β} (others : List SwitchTelemetry)
    {capture : SwitchTelemetry} (hs : capture.nodeId = s) {xs : List α} {x : α} {e : β}
    (hitems : items capture = xs ++ [x]) (hlast : found capture x = some e) :
    ((others ++ [capture]).flatMap fun switch =>
      if switch.nodeId = s then (items switch).filterMap (found switch) else []).getLast? =
        some e := by
  rw [List.flatMap_append, List.flatMap_singleton, if_pos hs, hitems, List.filterMap_append,
    filterMap_cons_toList, hlast, List.filterMap_nil, ← List.append_assoc]
  exact List.getLast?_concat

/-- Any LLDP match of a pair is the last one in some order of the telemetry. -/
theorem exists_last_lldp {node : TopologyNode} {s : String} {switches : List SwitchTelemetry}
    {e : LldpEvidence} (h : e ∈ lldpMatches lowercase node s switches) :
    ∃ shuffled, Reordered switches shuffled ∧
      (lldpMatches lowercase node s shuffled).getLast? = some e := by
  obtain ⟨switch, hswitch, hs, nb, hnb, he⟩ := mem_lldpMatches.mp h
  obtain ⟨before, after, hlldp⟩ := List.append_of_mem hnb
  have hsame : SameCapture switch { switch with lldp := before ++ after ++ [nb] } :=
    ⟨rfl, hlldp ▸ perm_moved_last before after nb, .refl _⟩
  obtain ⟨others, hreordered⟩ := exists_reordered hswitch hsame
  have hlast : matchNeighbor lowercase { switch with lldp := before ++ after ++ [nb] } nb node =
      some e := (matchNeighbor_congr rfl nb node).trans he
  refine ⟨_, hreordered, ?_⟩
  apply getLast?_flatMap_last others _ rfl hlast
  exact hs

/-- Any MAC match of a pair is the last one in some order of the telemetry. -/
theorem exists_last_mac {node : TopologyNode} {s : String} {switches : List SwitchTelemetry}
    {m : MacEvidence} (h : m ∈ macMatches lowercase node s switches) :
    ∃ shuffled, Reordered switches shuffled ∧
      (macMatches lowercase node s shuffled).getLast? = some m := by
  obtain ⟨switch, hswitch, hs, entry, hentry, hm⟩ := mem_macMatches.mp h
  obtain ⟨before, after, htable⟩ := List.append_of_mem hentry
  have hsame : SameCapture switch { switch with macTable := before ++ after ++ [entry] } :=
    ⟨rfl, .refl _, htable ▸ perm_moved_last before after entry⟩
  obtain ⟨others, hreordered⟩ := exists_reordered hswitch hsame
  have hlast : matchMac lowercase { switch with macTable := before ++ after ++ [entry] } entry
      node = some m := (matchMac_congr rfl entry node).trans hm
  refine ⟨_, hreordered, ?_⟩
  apply getLast?_flatMap_last others _ rfl hlast
  exact hs

end

/-! ## The binding of a pair -/

def pairBinding (key : String × String) (lldp : List LldpEvidence) (mac : List MacEvidence) :
    Option HostPortBinding :=
  (slotOf lldp mac).map fun slot => (bindingOf key slot).withoutEvidence

theorem pairBinding_key {key : String × String} {lldp : List LldpEvidence}
    {mac : List MacEvidence} {b : HostPortBinding} (h : pairBinding key lldp mac = some b) :
    b.key = key := by
  obtain ⟨slot, -, rfl⟩ := Option.map_eq_some_iff.mp h
  exact bindingOf_key key slot

section

variable {key : String × String} {lldp lldp' : List LldpEvidence} {mac mac' : List MacEvidence}

/-- The last LLDP match gives the identity and the port, and alone the confidence. -/
theorem pairBinding_lldp {e : LldpEvidence} (h : lldp.getLast? = some e) :
    ∃ b, pairBinding key lldp mac = some b ∧ b.hostIdentity = e.hostIdentity ∧
      b.switchPort = e.switchPort ∧ (mac = [] → b.confidence = roundTo 2 e.confidence) := by
  unfold pairBinding slotOf
  rw [h]
  cases hm : mac.getLast? with
  | none => exact ⟨_, rfl, rfl, rfl, fun _ => rfl⟩
  | some m =>
      refine ⟨_, rfl, rfl, rfl, fun hnil => ?_⟩
      rw [hnil] at hm
      cases hm

/-- The last MAC match gives the interface index, and alone the identity and the port. -/
theorem pairBinding_mac {m : MacEvidence} (h : mac.getLast? = some m) :
    ∃ b, pairBinding key lldp mac = some b ∧ b.ifIndex = m.ifIndex ∧
      (lldp = [] → b.hostIdentity = m.hostIdentity ∧ b.switchPort = m.switchPort) := by
  unfold pairBinding slotOf
  rw [h]
  cases he : lldp.getLast? with
  | none => exact ⟨_, rfl, rfl, fun _ => ⟨rfl, rfl⟩⟩
  | some e =>
      refine ⟨_, rfl, rfl, fun hnil => ?_⟩
      rw [hnil] at he
      cases he

theorem getLast?_perm {α : Type} {xs ys : List α} (h : xs.Perm ys) :
    (xs.getLast? = none ∧ ys.getLast? = none) ∨
      ∃ x ∈ ys, ∃ y ∈ ys, xs.getLast? = some x ∧ ys.getLast? = some y := by
  cases hy : ys.getLast? with
  | none =>
      have hnil : ys = [] := List.getLast?_eq_none_iff.mp hy
      subst hnil
      rw [h.eq_nil]
      exact .inl ⟨rfl, rfl⟩
  | some y =>
      cases hx : xs.getLast? with
      | none =>
          have hnil : xs = [] := List.getLast?_eq_none_iff.mp hx
          subst hnil
          rw [h.symm.eq_nil] at hy
          cases hy
      | some x =>
          exact .inr ⟨x, h.mem_iff.mp (List.mem_of_getLast? hx), y, List.mem_of_getLast? hy, rfl,
            rfl⟩

/-- Where the matches agree, the binding does not depend on their order. -/
theorem Agreed.pairBinding (h : Agreed lldp mac) (hlldp : lldp'.Perm lldp) (hmac : mac'.Perm mac) :
    pairBinding key lldp' mac' = pairBinding key lldp mac := by
  unfold NetForge.Controller.pairBinding slotOf
  rcases getLast?_perm hlldp with ⟨he', he⟩ | ⟨e', hmem', e, hmem, he', he⟩
  · rcases getLast?_perm hmac with ⟨hm', hm⟩ | ⟨m', hin', m, hin, hm', hm⟩
    · rw [he', he, hm', hm]
    · have hnil : lldp = [] := List.getLast?_eq_none_iff.mp he
      obtain ⟨hidentity, hport⟩ := h.entry hnil m' hin' m hin
      rw [he', he, hm', hm]
      simp only [Option.map_some, bindingOf, HostPortBinding.withoutEvidence, hidentity, hport,
        h.ifIndex m' hin' m hin]
  · obtain ⟨hidentity, hport⟩ := h.port e' hmem' e hmem
    rcases getLast?_perm hmac with ⟨hm', hm⟩ | ⟨m', hin', m, hin, hm', hm⟩
    · have hnil : mac = [] := List.getLast?_eq_none_iff.mp hm
      rw [he', he, hm', hm]
      simp only [Option.map_some, bindingOf, HostPortBinding.withoutEvidence, hidentity, hport,
        h.confidence hnil e' hmem' e hmem]
    · rw [he', he, hm', hm]
      simp only [Option.map_some, bindingOf, HostPortBinding.withoutEvidence, hidentity, hport,
        h.ifIndex m' hin' m hin]

/-- Where the matches agree, the binding has the highest confidence they support. -/
theorem Agreed.highest (h : Agreed lldp mac)
    (hgrades : ∀ e ∈ lldp, e.confidence = CONF_LLD_MAC ∨ e.confidence = CONF_LLD_NAME)
    {slot : Slot} (hslot : slotOf lldp mac = some slot) {c : Rat}
    (hc : SupportedConfidence lldp mac c) : c ≤ (bindingOf key slot).confidence := by
  obtain ⟨hname, haddress, htable, hboth⟩ := roundTo_confidences
  obtain ⟨he, hm⟩ := slotOf_eq_some.mp hslot
  cases slot with
  | both e m =>
      show c ≤ roundTo 2 CONF_CORROBORATED
      rw [hboth]
      cases hc with
      | lldp hmem =>
          rcases hgrades _ hmem with hgrade | hgrade
          · rw [hgrade, CONF_LLD_MAC]
            norm_num
          · rw [hgrade, CONF_LLD_NAME]
            norm_num
      | mac =>
          rw [CONF_MAC_TABLE]
          norm_num
      | both => exact le_rfl
  | lldp e =>
      have hnil : mac = [] := List.getLast?_eq_none_iff.mp hm.symm
      have hmem : e ∈ lldp := List.mem_of_getLast? he.symm
      show c ≤ roundTo 2 e.confidence
      cases hc with
      | @lldp e' hmem' =>
          rw [h.confidence hnil e' hmem' e hmem]
          rcases hgrades e hmem with hgrade | hgrade
          · rw [hgrade, haddress]
            exact le_rfl
          · rw [hgrade, hname]
            exact le_rfl
      | mac hne => exact absurd hnil hne
      | both _ hne => exact absurd hnil hne
  | mac m =>
      have hnil : lldp = [] := List.getLast?_eq_none_iff.mp he.symm
      show c ≤ roundTo 2 CONF_MAC_TABLE
      rw [htable]
      cases hc with
      | lldp hmem =>
          rw [hnil] at hmem
          cases hmem
      | mac => exact le_rfl
      | both hne => exact absurd hnil hne

end

/-! ## The result -/

section

variable {lowercase : String → String} {topology : NetworkTopology}
  {switches shuffled : List SwitchTelemetry}

theorem mem_withoutEvidence {b : HostPortBinding} :
    b ∈ (correlateHostPorts lowercase topology switches).map HostPortBinding.withoutEvidence ↔
      ∃ node ∈ hostNodes topology, ∃ s,
        pairBinding (node.nodeId, s) (lldpMatches lowercase node s switches)
          (macMatches lowercase node s switches) = some b := by
  unfold pairBinding
  rw [List.mem_map]
  constructor
  · rintro ⟨found, hfound, rfl⟩
    obtain ⟨node, hnode, s, slot, hslot, rfl⟩ := mem_correlateHostPorts.mp hfound
    exact ⟨node, hnode, s, by rw [hslot]; rfl⟩
  · rintro ⟨node, hnode, s, hb⟩
    obtain ⟨slot, hslot, rfl⟩ := Option.map_eq_some_iff.mp hb
    exact ⟨_, mem_correlateHostPorts.mpr ⟨node, hnode, s, slot, hslot, rfl⟩, rfl⟩

instance : Std.Irrefl KeyBefore where
  irrefl := by
    rintro a (hlt | ⟨-, hlt⟩)
    · exact lt_irrefl _ hlt
    · exact lt_irrefl _ hlt

instance : Std.Antisymm KeyBefore where
  antisymm := by
    rintro a b (hab | ⟨hab, hab'⟩) (hba | ⟨hba, hba'⟩)
    · exact absurd hba hab.asymm
    · exact absurd hab (hba ▸ lt_irrefl _)
    · exact absurd hba (hab ▸ lt_irrefl _)
    · exact absurd hba' hab'.asymm

/-- Two results are the same up to evidence exactly when they agree on every pair. -/
theorem sameBindings_iff :
    SameBindings (correlateHostPorts lowercase topology shuffled)
        (correlateHostPorts lowercase topology switches) ↔
      ∀ node ∈ hostNodes topology, ∀ s,
        pairBinding (node.nodeId, s) (lldpMatches lowercase node s shuffled)
            (macMatches lowercase node s shuffled) =
          pairBinding (node.nodeId, s) (lldpMatches lowercase node s switches)
            (macMatches lowercase node s switches) := by
  have hordered : ∀ telemetry, ((correlateHostPorts lowercase topology telemetry).map
      HostPortBinding.withoutEvidence).Pairwise KeyBefore := by
    intro telemetry
    exact List.pairwise_map.mpr (correlateHostPorts_ordered topology telemetry)
  have hfound : ∀ {a b : List SwitchTelemetry}, SameBindings
      (correlateHostPorts lowercase topology a) (correlateHostPorts lowercase topology b) →
        ∀ node ∈ hostNodes topology, ∀ s binding,
          pairBinding (node.nodeId, s) (lldpMatches lowercase node s a)
            (macMatches lowercase node s a) = some binding →
          pairBinding (node.nodeId, s) (lldpMatches lowercase node s b)
            (macMatches lowercase node s b) = some binding := by
    intro a b hsame node hnode s binding hbinding
    have hmem := mem_withoutEvidence.mpr ⟨node, hnode, s, hbinding⟩
    rw [hsame] at hmem
    obtain ⟨node', hnode', s', hbinding'⟩ := mem_withoutEvidence.mp hmem
    have hkey := (pairBinding_key hbinding').symm.trans (pairBinding_key hbinding)
    obtain ⟨hid, rfl⟩ := Prod.mk.inj hkey
    obtain rfl := host_unique hnode' hnode hid
    exact hbinding'
  constructor
  · intro hsame node hnode s
    apply Option.ext
    intro binding
    exact ⟨hfound hsame node hnode s binding, hfound hsame.symm node hnode s binding⟩
  · intro hpairs
    apply List.Pairwise.eq_of_mem_iff (hordered shuffled) (hordered switches)
    intro binding
    rw [mem_withoutEvidence, mem_withoutEvidence]
    constructor
    · rintro ⟨node, hnode, s, hbinding⟩
      exact ⟨node, hnode, s, (hpairs node hnode s).symm.trans hbinding⟩
    · rintro ⟨node, hnode, s, hbinding⟩
      exact ⟨node, hnode, s, (hpairs node hnode s).trans hbinding⟩

theorem grade_of_roundTo {p q : Rat} (hp : p = CONF_LLD_MAC ∨ p = CONF_LLD_NAME)
    (hq : q = CONF_LLD_MAC ∨ q = CONF_LLD_NAME) (h : roundTo 2 p = roundTo 2 q) : p = q := by
  obtain ⟨hname, haddress, -, -⟩ := roundTo_confidences
  rcases hp with rfl | rfl
  · rcases hq with rfl | rfl
    · rfl
    · rw [hname, haddress] at h
      norm_num at h
  · rcases hq with rfl | rfl
    · rw [hname, haddress] at h
      norm_num at h
    · rfl

/-- No order of the telemetry changes what the pair of a host and a switch is bound as. -/
def PairOrderFree (lowercase : String → String) (node : TopologyNode) (s : String)
    (switches : List SwitchTelemetry) : Prop :=
  ∀ shuffled, Reordered switches shuffled →
    pairBinding (node.nodeId, s) (lldpMatches lowercase node s shuffled)
        (macMatches lowercase node s shuffled) =
      pairBinding (node.nodeId, s) (lldpMatches lowercase node s switches)
        (macMatches lowercase node s switches)

/-- The one binding of the pair says what each of its LLDP matches says. -/
theorem PairOrderFree.of_lldp {node : TopologyNode} {s : String}
    (h : PairOrderFree lowercase node s switches) {e : LldpEvidence}
    (he : e ∈ lldpMatches lowercase node s switches) :
    ∃ b, pairBinding (node.nodeId, s) (lldpMatches lowercase node s switches)
        (macMatches lowercase node s switches) = some b ∧ b.hostIdentity = e.hostIdentity ∧
      b.switchPort = e.switchPort ∧
      (macMatches lowercase node s switches = [] → b.confidence = roundTo 2 e.confidence) := by
  obtain ⟨shuffled, hreordered, hlast⟩ := exists_last_lldp he
  obtain ⟨b, hb, hidentity, hport, hconfidence⟩ :=
    @pairBinding_lldp (node.nodeId, s) _ (macMatches lowercase node s shuffled) e hlast
  rw [h shuffled hreordered] at hb
  refine ⟨b, hb, hidentity, hport, fun hnil => hconfidence ?_⟩
  exact (hnil ▸ hreordered.macMatches node s).eq_nil

/-- The one binding of the pair says what each of its MAC matches says. -/
theorem PairOrderFree.of_mac {node : TopologyNode} {s : String}
    (h : PairOrderFree lowercase node s switches) {m : MacEvidence}
    (hm : m ∈ macMatches lowercase node s switches) :
    ∃ b, pairBinding (node.nodeId, s) (lldpMatches lowercase node s switches)
        (macMatches lowercase node s switches) = some b ∧ b.ifIndex = m.ifIndex ∧
      (lldpMatches lowercase node s switches = [] →
        b.hostIdentity = m.hostIdentity ∧ b.switchPort = m.switchPort) := by
  obtain ⟨shuffled, hreordered, hlast⟩ := exists_last_mac hm
  obtain ⟨b, hb, hindex, halone⟩ :=
    @pairBinding_mac (node.nodeId, s) (lldpMatches lowercase node s shuffled) _ m hlast
  rw [h shuffled hreordered] at hb
  refine ⟨b, hb, hindex, fun hnil => halone ?_⟩
  exact (hnil ▸ hreordered.lldpMatches node s).eq_nil

/-- A pair that no order of the telemetry changes has matches that agree. -/
theorem PairOrderFree.agreed {node : TopologyNode} {s : String}
    (h : PairOrderFree lowercase node s switches) :
    Agreed (lldpMatches lowercase node s switches) (macMatches lowercase node s switches) := by
  constructor
  · intro e he e' he'
    obtain ⟨b, hb, hidentity, hport, -⟩ := h.of_lldp he
    obtain ⟨b', hb', hidentity', hport', -⟩ := h.of_lldp he'
    cases hb.symm.trans hb'
    exact ⟨hidentity.symm.trans hidentity', hport.symm.trans hport'⟩
  · intro hnil e he e' he'
    obtain ⟨b, hb, -, -, hconfidence⟩ := h.of_lldp he
    obtain ⟨b', hb', -, -, hconfidence'⟩ := h.of_lldp he'
    cases hb.symm.trans hb'
    exact grade_of_roundTo (lldpMatches_confidence he) (lldpMatches_confidence he')
      ((hconfidence hnil).symm.trans (hconfidence' hnil))
  · intro m hm m' hm'
    obtain ⟨b, hb, hindex, -⟩ := h.of_mac hm
    obtain ⟨b', hb', hindex', -⟩ := h.of_mac hm'
    cases hb.symm.trans hb'
    exact hindex.symm.trans hindex'
  · intro hnil m hm m' hm'
    obtain ⟨b, hb, -, halone⟩ := h.of_mac hm
    obtain ⟨b', hb', -, halone'⟩ := h.of_mac hm'
    cases hb.symm.trans hb'
    have hidentity := (halone hnil).1.symm.trans (halone' hnil).1
    have hport := (halone hnil).2.symm.trans (halone' hnil).2
    exact ⟨hidentity, hport⟩

end

/-- No order of the telemetry changes the bindings, and each of them has the highest
confidence that the telemetry supports for its pair. -/
def OrderFree (lowercase : String → String) (topology : NetworkTopology)
    (switches : List SwitchTelemetry) : Prop :=
  (∀ shuffled, Reordered switches shuffled →
    SameBindings (correlateHostPorts lowercase topology shuffled)
      (correlateHostPorts lowercase topology switches)) ∧
    ∀ node ∈ hostNodes topology, ∀ b ∈ correlateHostPorts lowercase topology switches,
      b.hostNodeId = node.nodeId →
        ∀ c, SupportedConfidence (lldpMatches lowercase node b.switchNodeId switches)
          (macMatches lowercase node b.switchNodeId switches) c → c ≤ b.confidence

/-- The correlation is free of the order of its telemetry exactly when the matches of every
pair agree. -/
theorem correlateHostPorts_orderFree_iff (lowercase : String → String)
    (topology : NetworkTopology) (switches : List SwitchTelemetry) :
    OrderFree lowercase topology switches ↔
      ∀ node ∈ hostNodes topology, ∀ s,
        Agreed (lldpMatches lowercase node s switches) (macMatches lowercase node s switches) := by
  constructor
  · intro h node hnode s
    have hpair : PairOrderFree lowercase node s switches := by
      intro shuffled hreordered
      exact sameBindings_iff.mp (h.1 shuffled hreordered) node hnode s
    exact hpair.agreed
  · intro hagreed
    constructor
    · intro shuffled hreordered
      apply sameBindings_iff.mpr
      intro node hnode s
      exact (hagreed node hnode s).pairBinding (hreordered.lldpMatches node s)
        (hreordered.macMatches node s)
    · intro node hnode b hb hid c hc
      obtain ⟨node', hnode', s, slot, hslot, rfl⟩ := mem_correlateHostPorts.mp hb
      have hkey := bindingOf_key (node'.nodeId, s) slot
      have hswitch : (bindingOf (node'.nodeId, s) slot).switchNodeId = s := congrArg Prod.snd hkey
      obtain rfl := host_unique hnode' hnode ((congrArg Prod.fst hkey).symm.trans hid)
      rw [hswitch] at hc
      exact (hagreed node' hnode' s).highest (fun e he => lldpMatches_confidence he) hslot hc

namespace Sample

def rack : NetworkTopology where
  name := "rack"
  nodes :=
    [{ nodeId := "core-sw", role := .switch, agentId := none, tags := [],
        nodeId_ne := by decide },
      { nodeId := "app-1", role := .agent, agentId := some "agent-app-1",
        address := some "10.0.0.11", tags := [("mac", "00:11:22:33:44:55")],
        nodeId_ne := by decide }]
  edges := []
  name_ne := by decide
  nodes_nodup := by decide
  src_known := by simp
  dst_known := by simp

def byAddress : LldpNeighbor where
  localPort := "Gi1/0/1"
  neighborChassisId := some "00:11:22:33:44:55"
  neighborPortId := none
  neighborSysName := none
  neighborMgmtAddr := none

def byName : LldpNeighbor where
  localPort := "Gi1/0/2"
  neighborChassisId := none
  neighborPortId := none
  neighborSysName := some "app-1"
  neighborMgmtAddr := none

def reports (lldp : List LldpNeighbor) : SwitchTelemetry where
  nodeId := "core-sw"
  lldp := lldp
  macTable := []
  nodeId_ne := by decide

end Sample

/-- A name match that is reported after an address match takes its place. -/
theorem name_displaces_address :
    (¬ ∀ (lowercase : String → String) (topology : NetworkTopology)
        (switches : List SwitchTelemetry), OrderFree lowercase topology switches) ∧
      (correlateHostPorts lower Sample.rack
        [Sample.reports [Sample.byAddress, Sample.byName]]).map (·.confidence) = [82 / 100] := by
  constructor
  · intro hclaim
    have hreordered : Reordered [Sample.reports [Sample.byAddress, Sample.byName]]
        [Sample.reports [Sample.byName, Sample.byAddress]] :=
      ⟨[Sample.reports [Sample.byName, Sample.byAddress]],
        .cons ⟨rfl, .swap _ _ _, .refl _⟩ .nil, .refl _⟩
    have hsame := (hclaim lower Sample.rack _).1 _ hreordered
    have hdiffer : ¬ SameBindings
        (correlateHostPorts lower Sample.rack [Sample.reports [Sample.byName, Sample.byAddress]])
        (correlateHostPorts lower Sample.rack
          [Sample.reports [Sample.byAddress, Sample.byName]]) := by
      unfold SameBindings
      decide +kernel
    exact hdiffer hsame
  · decide +kernel

end NetForge.Controller
