import NetForge.Controller.Store

/-! # The stored bindings

`replace_bindings` and `list_bindings` of `controller/store.py`. A row is keyed by the
names of its topology, host and switch joined by a colon, and a conflict leaves the
columns of the old row. What is stored for a topology is what was given, and nothing
changes for another one, exactly when the joined names do not clash.
-/

namespace NetForge.Controller

open Calculus ControllerStore

/-! ## Joined names -/

theorem append_cons_inj {α : Type} {a : α} {xs xs' ys ys' : List α} (h : a ∉ xs) (h' : a ∉ xs')
    (heq : xs ++ a :: ys = xs' ++ a :: ys') : xs = xs' ∧ ys = ys' := by
  induction xs generalizing xs' with
  | nil =>
      cases xs' with
      | nil => exact ⟨rfl, (List.cons.inj heq).2⟩
      | cons x' xs' => exact absurd (List.cons.inj heq).1 fun hx => h' (hx ▸ List.mem_cons_self)
  | cons x xs ih =>
      cases xs' with
      | nil => exact absurd (List.cons.inj heq).1 fun hx => h (hx ▸ List.mem_cons_self)
      | cons x' xs' =>
          obtain ⟨hx, hrest⟩ := List.cons.inj heq
          have htail : a ∉ xs := fun hmem => h (List.mem_cons_of_mem _ hmem)
          have htail' : a ∉ xs' := fun hmem => h' (List.mem_cons_of_mem _ hmem)
          obtain ⟨hxs, hys⟩ := ih htail htail' hrest
          exact ⟨by rw [hx, hxs], hys⟩

def Plain (name : String) : Prop := ':' ∉ name.toList

theorem toList_bindingId (topology host switch : String) :
    (bindingId topology host switch).toList =
      topology.toList ++ ':' :: (host.toList ++ ':' :: switch.toList) := by
  simp [bindingId, String.toList_append, toString]

/-- Plain topologies and hosts are recovered from a key, whatever the switch is called. -/
theorem bindingId_inj {topology topology' host host' switch switch' : String}
    (ht : Plain topology) (ht' : Plain topology') (hh : Plain host) (hh' : Plain host')
    (h : bindingId topology host switch = bindingId topology' host' switch') :
    topology = topology' ∧ host = host' ∧ switch = switch' := by
  have hlist := congrArg String.toList h
  rw [toList_bindingId, toList_bindingId] at hlist
  obtain ⟨htopology, hrest⟩ := append_cons_inj ht ht' hlist
  obtain ⟨hhost, hswitch⟩ := append_cons_inj hh hh' hrest
  exact ⟨String.toList_injective htopology, String.toList_injective hhost,
    String.toList_injective hswitch⟩

/-! ## What a replacement leaves -/

section

variable (s : ControllerStore) (topology : String) (bindings : List HostPortBinding)

def orderBindings (bindings : List HostPortBinding) : List HostPortBinding :=
  orderBy (fun b => toLex b.key) bindings

/-- The topology lists what it was given, and every other one what it listed before. -/
structure Replaced (after : ControllerStore) : Prop where
  given : after.listBindings (some topology) = orderBindings bindings
  others : ∀ other, other ≠ topology →
    after.listBindings (some other) = s.listBindings (some other)

/-- No two of the bindings, and no binding and a row of another topology, share a key. -/
structure KeysApart : Prop where
  given : (bindings.map fun b => bindingId topology b.hostNodeId b.switchNodeId).Nodup
  others : ∀ row ∈ s.bindings.rows, row.topology ≠ topology → ∀ b ∈ bindings,
    row.bindingId ≠ bindingId topology b.hostNodeId b.switchNodeId

variable {s topology bindings}

def keptRows (s : ControllerStore) (topology : String) : Table bindingSchema :=
  s.bindings.deleteWhere (·.topology = topology)

theorem mem_keptRows {row : BindingRow} :
    row ∈ (keptRows s topology).rows ↔ row ∈ s.bindings.rows ∧ row.topology ≠ topology := by
  simp [keptRows, Table.mem_deleteWhere]

theorem replaceBindings_rows (s : ControllerStore) (topology : String)
    (bindings : List HostPortBinding) :
    (s.replaceBindings topology bindings).bindings =
      (keptRows s topology).upsertAll (bindings.map (bindingRow topology)) := rfl

theorem keysApart_iff :
    KeysApart s topology bindings ↔
      (((keptRows s topology).rows ++ bindings.map (bindingRow topology)).map
        bindingSchema.key).Nodup := by
  have hkeys : (bindings.map (bindingRow topology)).map bindingSchema.key =
      bindings.map fun b => bindingId topology b.hostNodeId b.switchNodeId := by
    rw [List.map_map]
    rfl
  rw [List.map_append, List.nodup_append, hkeys]
  constructor
  · intro h
    refine ⟨(keptRows s topology).nodup, h.given, ?_⟩
    intro key hkey key' hkey'
    obtain ⟨row, hrow, rfl⟩ := List.mem_map.mp hkey
    obtain ⟨b, hb, rfl⟩ := List.mem_map.mp hkey'
    obtain ⟨hmem, hother⟩ := mem_keptRows.mp hrow
    exact h.others row hmem hother b hb
  · rintro ⟨-, hgiven, hothers⟩
    refine ⟨hgiven, ?_⟩
    intro row hrow hother b hb
    apply hothers
    · exact List.mem_map.mpr ⟨row, mem_keptRows.mpr ⟨hrow, hother⟩, rfl⟩
    · exact List.mem_map.mpr ⟨b, hb, rfl⟩

theorem listBindings_some (s : ControllerStore) (topology : String) :
    s.listBindings (some topology) =
      (orderBy BindingRow.pair (s.bindings.rows.filter (·.topology = topology))).map
        (·.payload) := by
  simp [listBindings]

theorem length_listBindings (s : ControllerStore) (topology : String) :
    (s.listBindings (some topology)).length =
      s.bindings.rows.countP (·.topology = topology) := by
  rw [listBindings_some, List.length_map, orderBy, List.length_insertionSort,
    List.countP_eq_length_filter]

theorem orderBy_bindingRows (topology : String) (bindings : List HostPortBinding) :
    (orderBy BindingRow.pair (bindings.map (bindingRow topology))).map (·.payload) =
      orderBindings bindings := by
  have hrows : orderBy BindingRow.pair (bindings.map (bindingRow topology)) =
      (orderBindings bindings).map (bindingRow topology) := by
    unfold orderBindings orderBy
    symm
    apply List.map_insertionSort
    intro a _ b _
    rfl
  rw [hrows, List.map_map]
  exact List.map_id _

theorem replaced_of_keysApart (h : KeysApart s topology bindings) :
    Replaced s topology bindings (s.replaceBindings topology bindings) := by
  have hrows : (s.replaceBindings topology bindings).bindings.rows =
      (keptRows s topology).rows ++ bindings.map (bindingRow topology) := by
    rw [replaceBindings_rows]
    exact Table.upsertAll_rows_of_nodup (keysApart_iff.mp h)
  constructor
  · have hkept : (keptRows s topology).rows.filter (·.topology = topology) = [] := by
      apply List.filter_eq_nil_iff.mpr
      intro row hrow
      simpa using (mem_keptRows.mp hrow).2
    have hnew : (bindings.map (bindingRow topology)).filter (·.topology = topology) =
        bindings.map (bindingRow topology) := by
      apply List.filter_eq_self.mpr
      intro row hrow
      obtain ⟨b, -, rfl⟩ := List.mem_map.mp hrow
      simp [bindingRow]
    rw [listBindings_some, hrows, List.filter_append, hkept, hnew, List.nil_append,
      orderBy_bindingRows]
  · intro other hother
    have hkept : (keptRows s topology).rows.filter (·.topology = other) =
        s.bindings.rows.filter (·.topology = other) := by
      show (s.bindings.rows.filter _).filter _ = _
      rw [List.filter_filter]
      apply List.filter_congr
      intro row _
      by_cases hrow : row.topology = other
      · simp [hrow, hother]
      · simp [hrow]
    have hnew : (bindings.map (bindingRow topology)).filter (·.topology = other) = [] := by
      apply List.filter_eq_nil_iff.mpr
      intro row hrow
      obtain ⟨b, -, rfl⟩ := List.mem_map.mp hrow
      have hne : ¬ topology = other := fun heq => hother heq.symm
      simp [bindingRow, hne]
    rw [listBindings_some, listBindings_some, hrows, List.filter_append, hkept, hnew,
      List.append_nil]

/-- A replacement that lists every binding has stored each under a key of its own. -/
theorem keysApart_of_length
    (h : ((s.replaceBindings topology bindings).listBindings (some topology)).length =
      bindings.length) : KeysApart s topology bindings := by
  have hnone : (keptRows s topology).rows.countP (·.topology = topology) = 0 := by
    rw [List.countP_eq_zero]
    intro row hrow
    simpa using (mem_keptRows.mp hrow).2
  rw [length_listBindings, replaceBindings_rows] at h
  apply keysApart_iff.mpr
  apply Table.nodup_of_countP_upsertAll (p := fun row => decide (row.topology = topology))
    (fun _ _ => rfl)
  rw [hnone, h, List.length_map, Nat.zero_add]

/-- The stored bindings are those given, and the other topologies keep theirs, exactly
when the joined names do not clash. -/
theorem replaceBindings_replaced_iff (s : ControllerStore) (topology : String)
    (bindings : List HostPortBinding) :
    Replaced s topology bindings (s.replaceBindings topology bindings) ↔
      KeysApart s topology bindings := by
  constructor
  · intro h
    apply keysApart_of_length
    rw [h.given, orderBindings, orderBy, List.length_insertionSort]
  · exact replaced_of_keysApart

end

namespace Sample

def binding (host switch : String) : HostPortBinding where
  hostNodeId := host
  hostIdentity := host
  switchNodeId := switch
  switchPort := "Gi1/0/1"
  ifIndex := none
  method := .lldp
  confidence := CONF_LLD_NAME
  evidenceQuality := .singleSource
  evidence := []
  confidence_mem := confLldName_mem

/-- Host `1` of the topology `lab:h` is bound to a switch. -/
def bound : ControllerStore := empty.replaceBindings "lab:h" [binding "1" "s"]

end Sample

/-- Host `h:1` of `lab` has the key of host `1` of `lab:h`: its binding is stored as the
other topology's. -/
theorem joined_names_clash :
    (¬ ∀ (s : ControllerStore) (topology : String) (bindings : List HostPortBinding),
        (bindings.map HostPortBinding.key).Nodup →
          Replaced s topology bindings (s.replaceBindings topology bindings)) ∧
      Sample.bound.listBindings (some "lab:h") = [Sample.binding "1" "s"] ∧
      (Sample.bound.replaceBindings "lab" [Sample.binding "h:1" "s"]).listBindings
        (some "lab") = [] ∧
      (Sample.bound.replaceBindings "lab" [Sample.binding "h:1" "s"]).listBindings
        (some "lab:h") = [Sample.binding "h:1" "s"] := by
  have hlost : (Sample.bound.replaceBindings "lab" [Sample.binding "h:1" "s"]).listBindings
      (some "lab") = [] := by decide +kernel
  refine ⟨fun hclaim => ?_, by decide +kernel, hlost, by decide +kernel⟩
  have hreplaced := hclaim Sample.bound "lab" [Sample.binding "h:1" "s"] (by simp)
  rw [hreplaced.given] at hlost
  cases hlost

/-! ## Plain names -/

/-- A replacement whose topology and hosts have plain names, each pair bound once. -/
structure PlainReplacement where
  topology : String
  bindings : List HostPortBinding
  topology_plain : Plain topology
  hosts_plain : ∀ b ∈ bindings, Plain b.hostNodeId
  pairs_nodup : (bindings.map HostPortBinding.key).Nodup

def PlainReplacement.apply (r : PlainReplacement) (s : ControllerStore) : ControllerStore :=
  s.replaceBindings r.topology r.bindings

/-- Every row is keyed by its own columns, whose names are plain. -/
def PlainRows (s : ControllerStore) : Prop :=
  ∀ row ∈ s.bindings.rows,
    row.bindingId = bindingId row.topology row.hostNodeId row.switchNodeId ∧
      Plain row.topology ∧ Plain row.hostNodeId

theorem keysApart_of_plain {s : ControllerStore} (hs : PlainRows s) (r : PlainReplacement) :
    KeysApart s r.topology r.bindings where
  given := by
    apply List.Nodup.map_on ?_ (List.Nodup.of_map _ r.pairs_nodup)
    intro a ha b hb heq
    obtain ⟨-, hhost, hswitch⟩ := bindingId_inj r.topology_plain r.topology_plain
      (r.hosts_plain a ha) (r.hosts_plain b hb) heq
    exact List.inj_on_of_nodup_map r.pairs_nodup ha hb (Prod.ext hhost hswitch)
  others := by
    intro row hrow hother b hb heq
    obtain ⟨hkey, htopology, hhost⟩ := hs row hrow
    rw [hkey] at heq
    exact hother (bindingId_inj htopology r.topology_plain hhost (r.hosts_plain b hb) heq).1

theorem PlainRows.apply {s : ControllerStore} (hs : PlainRows s) (r : PlainReplacement) :
    PlainRows (r.apply s) := by
  have hrows : (r.apply s).bindings.rows =
      (keptRows s r.topology).rows ++ r.bindings.map (bindingRow r.topology) :=
    Table.upsertAll_rows_of_nodup (keysApart_iff.mp (keysApart_of_plain hs r))
  intro row hrow
  rw [hrows] at hrow
  rcases List.mem_append.mp hrow with hkept | hnew
  · exact hs row (mem_keptRows.mp hkept).1
  · obtain ⟨b, hb, rfl⟩ := List.mem_map.mp hnew
    exact ⟨rfl, r.topology_plain, r.hosts_plain b hb⟩

/-- Stores that only plain replacements have written list what they were given. -/
theorem plain_replacements_replaced (earlier : List PlainReplacement) (r : PlainReplacement) :
    Replaced (earlier.foldl (fun s e => e.apply s) empty) r.topology r.bindings
      (r.apply (earlier.foldl (fun s e => e.apply s) empty)) := by
  have hplain : PlainRows (earlier.foldl (fun s e => e.apply s) empty) := by
    induction earlier using List.reverseRecOn with
    | nil =>
        intro row hrow
        exact absurd hrow List.not_mem_nil
    | append_singleton earlier e ih =>
        rw [List.foldl_append]
        exact ih.apply e
  exact replaced_of_keysApart (keysApart_of_plain hplain r)

end NetForge.Controller
