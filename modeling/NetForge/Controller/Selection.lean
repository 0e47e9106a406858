import NetForge.Calculus.Entries
import NetForge.Controller.Independence
import Mathlib.Data.Set.Card

/-! # What a vantage plan selects

The assignments of a plan, by role: the destination when an agent runs there, the
source and the third from the other eligible nodes. Roles, nodes and agents are read
off the data of the inquiry, so the order of the nodes and edges of the topology has
no part in them.
-/

namespace NetForge.Controller

open Calculus NetForge.Core Analysis

/-! ## Adjacency -/

namespace NetworkTopology

/-- An edge joins the two nodes, in one direction or the other. -/
def Adjacent (t : NetworkTopology) (m n : String) : Prop :=
  ∃ edge ∈ t.edges, (edge.src = m ∧ edge.dst = n) ∨ (edge.dst = m ∧ edge.src = n)

theorem mem_pushed {result : List String} {name n : String} :
    n ∈ (if name ∉ result then result ++ [name] else result) ↔ n ∈ result ∨ name = n := by
  by_cases hknown : name ∈ result
  · rw [if_neg (not_not.mpr hknown)]
    constructor
    · exact .inl
    · rintro (hn | rfl)
      · exact hn
      · exact hknown
  · rw [if_pos hknown, List.mem_append, List.mem_singleton, eq_comm (a := n)]

theorem mem_foldl_neighbors (nodeId n : String) (edges : List TopologyEdge)
    (result : List String) :
    n ∈ edges.foldl
        (fun result edge =>
          if edge.src = nodeId ∧ edge.dst ∉ result then result ++ [edge.dst]
          else if edge.dst = nodeId ∧ edge.src ∉ result then result ++ [edge.src]
          else result)
        result ↔
      n ∈ result ∨
        ∃ edge ∈ edges,
          (edge.src = nodeId ∧ edge.dst = n) ∨ (edge.dst = nodeId ∧ edge.src = n) := by
  induction edges generalizing result with
  | nil => simp
  | cons edge rest ih =>
      have hloop := edge.loopless
      rw [List.foldl_cons, ih]
      simp only [List.exists_mem_cons_iff]
      rw [← or_assoc]
      apply or_congr_left
      by_cases hsrc : edge.src = nodeId
      · have hdst : edge.dst ≠ nodeId := fun h => hloop (hsrc.trans h.symm)
        simp only [hsrc, hdst, true_and, false_and, if_false, or_false]
        exact mem_pushed
      · by_cases hdst : edge.dst = nodeId
        · simp only [hsrc, hdst, true_and, false_and, if_false, false_or]
          exact mem_pushed
        · simp [hsrc, hdst]

/-- The neighbours of a node are the nodes adjacent to it. -/
theorem mem_neighbors {t : NetworkTopology} {nodeId n : String} :
    n ∈ t.neighbors nodeId ↔ t.Adjacent nodeId n := by
  unfold neighbors Adjacent
  rw [mem_foldl_neighbors]
  simp

end NetworkTopology

namespace Inquiry

variable {q : Inquiry}

/-! ## The assignments -/

theorem assign_eq {n a : String} (role : VantageRole) (h : q.Hosts n a) :
    assign q.eligible role n = [⟨role, n, a⟩] := by
  unfold assign
  rw [hosts_iff.mpr h]
  rfl

theorem Eligible.assign_eq {n : String} (role : VantageRole) (h : q.Eligible n) :
    ∃ a, q.Hosts n a ∧ assign q.eligible role n = [⟨role, n, a⟩] := by
  obtain ⟨a, ha⟩ := h
  exact ⟨a, ha, Inquiry.assign_eq role ha⟩

theorem mem_assign {role : VantageRole} {n : String} {a : VantageAssignment} :
    a ∈ assign q.eligible role n ↔ a.role = role ∧ a.nodeId = n ∧ q.Hosts n a.agentId := by
  unfold assign
  cases h : getEntry q.eligible n with
  | none =>
      have hnone : ∀ b, ¬ q.Hosts n b := by
        intro b hb
        have hsome := hosts_iff.mpr hb
        rw [h] at hsome
        exact absurd hsome (by simp)
      simp [hnone]
  | some b =>
      have hb : q.Hosts n b := hosts_iff.mp h
      have honly : ∀ c, q.Hosts n c → c = b := by
        intro c hc
        have hsome := hosts_iff.mpr hc
        rw [h] at hsome
        exact (Option.some.inj hsome).symm
      constructor
      · intro ha
        have heq : a = ⟨role, n, b⟩ := by simpa using ha
        subst heq
        exact ⟨rfl, rfl, hb⟩
      · rintro ⟨hrole, hn, ha⟩
        have hagent := honly _ ha
        obtain ⟨r, m, c⟩ := a
        cases hrole
        cases hn
        cases hagent
        simp

/-- The assignments of a part of the plan are those of its node. -/
theorem mem_part {role : VantageRole} {o : Option String} {a : VantageAssignment} :
    a ∈ (o.map (assign q.eligible role)).getD [] ↔
      a.role = role ∧ o = some a.nodeId ∧ q.Hosts a.nodeId a.agentId := by
  cases o with
  | none => simp
  | some n =>
      rw [Option.map_some, Option.getD_some, mem_assign]
      constructor
      · rintro ⟨hrole, rfl, ha⟩
        exact ⟨hrole, rfl, ha⟩
      · rintro ⟨hrole, hn, ha⟩
        cases Option.some.inj hn
        exact ⟨hrole, rfl, ha⟩

theorem mem_assignments {a : VantageAssignment} :
    a ∈ q.plan.assignments ↔
      q.Hosts a.nodeId a.agentId ∧
        ((a.role = .destination ∧ q.IsDestination a.nodeId) ∨
          (a.role = .source ∧ q.IsSource a.nodeId) ∨ (a.role = .third ∧ q.IsThird a.nodeId)) := by
  rw [plan_assignments, List.mem_append, List.mem_append, mem_part, mem_part, mem_part,
    destination?_eq_some, source?_eq_some, third?_eq_some]
  tauto

theorem IsDestination.eligible {n : String} (h : q.IsDestination n) : q.Eligible n := h.2

theorem IsSource.eligible {n : String} (h : q.IsSource n) : q.Eligible n := h.1.1

theorem IsThird.eligible {n : String} (h : q.IsThird n) : q.Eligible n := h.1.1.1

theorem part_nodes {role : VantageRole} {o : Option String} (h : ∀ n, o = some n → q.Eligible n) :
    ((o.map (assign q.eligible role)).getD []).map (·.nodeId) = o.toList ∧
      ∀ a ∈ (o.map (assign q.eligible role)).getD [], a.role = role := by
  refine ⟨?_, fun a ha => (mem_part.mp ha).1⟩
  cases o with
  | none => rfl
  | some n =>
      obtain ⟨a, -, ha⟩ := (h n rfl).assign_eq role
      rw [Option.map_some, Option.getD_some, ha]
      rfl

theorem destination_part :
    ∀ n, q.destination? = some n → q.Eligible n := fun _ h => (destination?_eq_some.mp h).eligible

theorem source_part : ∀ n, q.source? = some n → q.Eligible n :=
  fun _ h => (source?_eq_some.mp h).eligible

theorem third_part : ∀ n, q.third? = some n → q.Eligible n :=
  fun _ h => (third?_eq_some.mp h).eligible

theorem plan_nodes (q : Inquiry) : q.plan.assignments.map (·.nodeId) = q.chosen := by
  rw [plan_assignments, List.map_append, List.map_append, (part_nodes destination_part).1,
    (part_nodes source_part).1, (part_nodes third_part).1, chosen, List.append_assoc]

/-! ## How many vantages there are -/

def external (assignments : List VantageAssignment) : List VantageAssignment :=
  assignments.filter (·.role ≠ .destination)

theorem length_external (q : Inquiry) :
    (external q.plan.assignments).length = q.source?.toList.length + q.third?.toList.length := by
  have hnone : external ((q.destination?.map (assign q.eligible .destination)).getD []) = [] := by
    apply List.filter_eq_nil_iff.mpr
    intro a ha
    simp [(part_nodes destination_part).2 a ha]
  have hall : ∀ (role : VantageRole) (o : Option String), role ≠ .destination →
      (∀ n, o = some n → q.Eligible n) →
      (external ((o.map (assign q.eligible role)).getD [])).length = o.toList.length := by
    intro role o hrole ho
    have hself : external ((o.map (assign q.eligible role)).getD []) =
        (o.map (assign q.eligible role)).getD [] := by
      apply List.filter_eq_self.mpr
      intro a ha
      simp [(part_nodes ho).2 a ha, hrole]
    rw [hself, ← (@part_nodes q role o ho).1, List.length_map]
  have hsource := hall .source q.source? (by simp) source_part
  have hthird := hall .third q.third? (by simp) third_part
  unfold external at hnone hsource hthird ⊢
  rw [plan_assignments, List.filter_append, List.filter_append, List.length_append,
    List.length_append, hnone, hsource, hthird, List.length_nil, Nat.zero_add]

theorem mem_candidates {n : String} : n ∈ q.candidates ↔ q.External n := by
  rw [external_iff, ← eligible_iff, getEntry_isSome, candidates, List.mem_insertionSort,
    List.mem_filter, decide_eq_true_iff]

theorem eligible_nodup (q : Inquiry) : (q.eligible.map (·.1)).Nodup := by
  unfold eligible
  rw [eligibleNodes_eq]
  have hfold : ∀ (rows : List CorrelatedNode) (dict : List (String × String)),
      (dict.map (·.1)).Nodup →
        ((rows.foldl
          (fun eligible node => (node.probing.map (setEntry eligible node.nodeId)).getD eligible)
          dict).map (·.1)).Nodup := by
    intro rows
    induction rows with
    | nil => exact fun dict hdict => hdict
    | cons node rest ih =>
        intro dict hdict
        apply ih
        show (((node.probing.map (setEntry dict node.nodeId)).getD dict).map (·.1)).Nodup
        cases node.probing with
        | none => exact hdict
        | some a =>
            show ((setEntry dict node.nodeId a).map (·.1)).Nodup
            rw [setEntry_eq]
            exact Entries.nodup_alter hdict _ _
  exact hfold _ _ List.nodup_nil

theorem candidates_nodup (q : Inquiry) : q.candidates.Nodup := by
  unfold candidates
  exact (List.perm_insertionSort _ _).nodup_iff.mpr (q.eligible_nodup.filter _)

theorem ncard_external (q : Inquiry) : {n | q.External n}.ncard = q.candidates.length := by
  have hset : {n | q.External n} = (q.candidates.toFinset : Set String) := by
    ext n
    rw [List.coe_toFinset]
    exact mem_candidates.symm
  rw [hset, Set.ncard_coe_finset, List.toFinset_card_of_nodup q.candidates_nodup]

theorem exists_source {m : String} (h : q.External m) : ∃ n, q.IsSource n := by
  by_cases hrequested : ∃ n, q.sourceNodeId = some n ∧ q.External n
  · obtain ⟨n, hn, hx⟩ := hrequested
    exact ⟨n, hx, .inl hn⟩
  · have hsome : (q.candidates.find? fun _ => true).isSome :=
      List.find?_isSome.mpr ⟨m, mem_candidates.mpr h, rfl⟩
    obtain ⟨n, hn⟩ := Option.isSome_iff_exists.mp hsome
    obtain ⟨hx, -, hleast⟩ := first_candidate.mp hn
    refine ⟨n, hx, .inr ⟨?_, fun k hk => hleast k hk rfl⟩⟩
    intro k hk hxk
    exact hrequested ⟨k, hk, hxk⟩

theorem mem_remaining {n : String} : n ∈ q.remaining ↔ q.Remaining n := by
  rw [remaining, List.mem_filter, mem_candidates, decide_eq_true_iff, ne_eq, source?_eq_some]
  rfl

theorem exists_third {m : String} (h : q.Remaining m) : ∃ n, q.IsThird n := by
  by_cases hdistant : ∃ n, q.Remaining n ∧ q.Distant n
  · obtain ⟨n, hr, hd⟩ := hdistant
    obtain ⟨l, hl⟩ := exists_distant? hr hd
    obtain ⟨hrl, hdl, hleast⟩ := distant?_eq_some.mp hl
    exact ⟨l, hrl, .inl ⟨hdl, hleast⟩⟩
  · have hsome : (q.remaining.find? fun _ => true).isSome :=
      List.find?_isSome.mpr ⟨m, mem_remaining.mpr h, rfl⟩
    obtain ⟨n, hn⟩ := Option.isSome_iff_exists.mp hsome
    obtain ⟨hr, -, hleast⟩ := first_remaining.mp hn
    refine ⟨n, hr, .inr ⟨?_, fun k hk => hleast k hk rfl⟩⟩
    intro k hk hdk
    exact hdistant ⟨k, hk, hdk⟩

theorem length_remaining {s : String} (h : q.source? = some s) :
    q.remaining.length + 1 = q.candidates.length := by
  have hs : s ∈ q.candidates := mem_candidates.mpr (source?_eq_some.mp h).1
  have herase : q.remaining = q.candidates.erase s := by
    rw [q.candidates_nodup.erase_eq_filter, remaining]
    apply List.filter_congr
    intro n _
    rw [h]
    by_cases hn : n = s
    · simp [hn]
    · have hne : ¬ s = n := fun heq => hn heq.symm
      simp [hn, hne]
  have hpos : 0 < q.candidates.length := List.length_pos_of_mem hs
  rw [herase, List.length_erase_of_mem hs]
  omega

/-- Two external roles, or as many as there are external nodes. -/
theorem length_external_eq (q : Inquiry) :
    (external q.plan.assignments).length = min 2 {n | q.External n}.ncard := by
  rw [length_external, ncard_external]
  cases hs : q.source? with
  | none =>
      have hempty : q.candidates = [] := by
        apply List.eq_nil_iff_forall_not_mem.mpr
        intro m hm
        obtain ⟨n, hn⟩ := exists_source (mem_candidates.mp hm)
        rw [source?_eq_some.mpr hn] at hs
        cases hs
      have hnone : q.third? = none := by
        cases ht : q.third? with
        | none => rfl
        | some n =>
            have hmem := mem_candidates.mpr (third?_eq_some.mp ht).1.1
            rw [hempty] at hmem
            cases hmem
      simp [hempty, hnone]
  | some s =>
      have hlen := length_remaining hs
      cases ht : q.third? with
      | none =>
          have hempty : q.remaining = [] := by
            apply List.eq_nil_iff_forall_not_mem.mpr
            intro m hm
            obtain ⟨n, hn⟩ := exists_third (mem_remaining.mp hm)
            rw [third?_eq_some.mpr hn] at ht
            cases ht
          rw [hempty, List.length_nil] at hlen
          rw [← hlen]
          rfl
      | some n =>
          have hpos : 0 < q.remaining.length :=
            List.length_pos_of_mem (mem_remaining.mpr (third?_eq_some.mp ht).1)
          show 2 = _
          omega

/-! ## Shuffled topologies -/

/-- The same inquiry over a topology whose nodes and edges come in another order. -/
structure Shuffled (q r : Inquiry) : Prop where
  name : r.topology.name = q.topology.name
  nodes : r.topology.nodes.Perm q.topology.nodes
  edges : r.topology.edges.Perm q.topology.edges
  registry : r.registry = q.registry
  service : r.service = q.service
  sourceNodeId : r.sourceNodeId = q.sourceNodeId

section

variable {r : Inquiry} (h : Shuffled q r)

include h

theorem Shuffled.hosts {n a : String} : r.Hosts n a ↔ q.Hosts n a := by
  unfold Hosts
  rw [h.registry]
  simp only [h.nodes.mem_iff]

theorem Shuffled.eligible {n : String} : r.Eligible n ↔ q.Eligible n :=
  exists_congr fun _ => h.hosts

theorem Shuffled.external {n : String} : r.External n ↔ q.External n := by
  unfold External
  rw [h.eligible, h.service]

theorem Shuffled.isSource {n : String} : r.IsSource n ↔ q.IsSource n := by
  unfold IsSource
  simp only [h.external, h.sourceNodeId]

theorem Shuffled.distant {n : String} : r.Distant n ↔ q.Distant n := by
  unfold Distant
  simp only [NetworkTopology.mem_neighbors, NetworkTopology.Adjacent, h.edges.mem_iff, h.service]

theorem Shuffled.isThird {n : String} : r.IsThird n ↔ q.IsThird n := by
  unfold IsThird Remaining
  simp only [h.external, h.isSource, h.distant]

theorem Shuffled.plan : r.plan = q.plan := by
  have hentry : getEntry r.eligible = getEntry q.eligible := by
    funext n
    apply Option.ext
    intro a
    rw [hosts_iff, hosts_iff, h.hosts]
  have hassign : ∀ role, assign r.eligible role = assign q.eligible role := by
    intro role
    funext n
    unfold assign
    rw [hentry]
  have hdestination : r.destination? = q.destination? := by
    apply Option.ext
    intro n
    rw [destination?_eq_some, destination?_eq_some]
    unfold IsDestination
    rw [h.service, h.eligible]
  have hsource : r.source? = q.source? := by
    apply Option.ext
    intro n
    rw [source?_eq_some, source?_eq_some, h.isSource]
  have hthird : r.third? = q.third? := by
    apply Option.ext
    intro n
    rw [third?_eq_some, third?_eq_some, h.isThird]
  have hassignments : r.plan.assignments = q.plan.assignments := by
    rw [plan_assignments, plan_assignments, hdestination, hsource, hthird, hassign, hassign,
      hassign]
  have htarget : r.plan.target = q.plan.target := congrArg ServiceEndpoint.host h.service
  have hservice : r.plan.serviceId = q.plan.serviceId :=
    congrArg (fun s => some (ServiceEndpoint.serviceId s)) h.service
  have htopology : r.plan.topology = q.plan.topology := congrArg some h.name
  cases hr : r.plan
  cases hq : q.plan
  rw [hr, hq] at hassignments htarget hservice htopology
  cases hassignments
  cases htarget
  cases hservice
  cases htopology
  rfl

end

end Inquiry

structure Selects (q : Inquiry) (assignments : List VantageAssignment) : Prop where
  hosts : ∀ a ∈ assignments, q.Hosts a.nodeId a.agentId
  roles : ∀ a ∈ assignments, a.role = .destination ∨ a.role = .source ∨ a.role = .third
  nodes_nodup : (assignments.map (·.nodeId)).Nodup
  roles_nodup : (assignments.map (·.role)).Nodup
  destination : ∀ n, (∃ a ∈ assignments, a.role = .destination ∧ a.nodeId = n) ↔
    q.service.nodeId = some n ∧ q.Eligible n
  requested : ∀ n, q.sourceNodeId = some n → q.External n →
    ∃ a ∈ assignments, a.role = .source ∧ a.nodeId = n
  external : (Inquiry.external assignments).length = min 2 {n | q.External n}.ncard
  distant : ∀ d m, q.service.nodeId = some d → q.External m →
    (∀ a ∈ assignments, a.role = .source → a.nodeId ≠ m) → ¬ q.topology.Adjacent d m →
      ∃ a ∈ assignments, a.role = .third ∧ ¬ q.topology.Adjacent d a.nodeId

namespace Inquiry

variable {q : Inquiry}

theorem exists_assignment {role : VantageRole} {n : String} (h : q.Eligible n)
    (hrole : (role = .destination ∧ q.IsDestination n) ∨ (role = .source ∧ q.IsSource n) ∨
      (role = .third ∧ q.IsThird n)) :
    ∃ a ∈ q.plan.assignments, a.role = role ∧ a.nodeId = n := by
  obtain ⟨agentId, hhosts⟩ := h
  exact ⟨⟨role, n, agentId⟩, mem_assignments.mpr ⟨hhosts, hrole⟩, rfl, rfl⟩

/-- A third that is not the neighbour of the service's node is preferred. -/
theorem IsThird.not_adjacent {d m n : String} (hd : q.service.nodeId = some d)
    (hm : q.Remaining m) (hfar : ¬ q.topology.Adjacent d m) (h : q.IsThird n) :
    ¬ q.topology.Adjacent d n := by
  by_cases hempty : d = ""
  · rintro ⟨edge, -, ⟨hsrc, -⟩ | ⟨hdst, -⟩⟩
    · exact edge.src_ne (hsrc.trans hempty)
    · exact edge.dst_ne (hdst.trans hempty)
  · have hdistant : q.Distant m :=
      ⟨d, hd, hempty, fun hmem => hfar (NetworkTopology.mem_neighbors.mp hmem)⟩
    rcases h.2 with ⟨⟨d', hd', -, hnot⟩, -⟩ | ⟨hnone, -⟩
    · cases Option.some.inj (hd.symm.trans hd')
      exact fun hadj => hnot (NetworkTopology.mem_neighbors.mpr hadj)
    · exact absurd hdistant (hnone m hm)

theorem roles_nodup (q : Inquiry) : (q.plan.assignments.map (·.role)).Nodup := by
  have hroles : ∀ {role : VantageRole} {o : Option String}, (∀ n, o = some n → q.Eligible n) →
      ((o.map (assign q.eligible role)).getD []).map (·.role) = o.toList.map fun _ => role := by
    intro role o ho
    cases o with
    | none => rfl
    | some n =>
        obtain ⟨a, -, ha⟩ := (ho n rfl).assign_eq role
        rw [Option.map_some, Option.getD_some, ha]
        rfl
  rw [plan_assignments, List.map_append, List.map_append, hroles destination_part,
    hroles source_part, hroles third_part]
  cases q.destination? <;> cases q.source? <;> cases q.third? <;> simp

theorem plan_selects (q : Inquiry) : Selects q q.plan.assignments where
  hosts := fun a ha => (mem_assignments.mp ha).1
  roles := fun a ha => by
    rcases (mem_assignments.mp ha).2 with ⟨hrole, -⟩ | ⟨hrole, -⟩ | ⟨hrole, -⟩
    · exact .inl hrole
    · exact .inr (.inl hrole)
    · exact .inr (.inr hrole)
  nodes_nodup := by
    rw [plan_nodes]
    exact q.chosen_nodup
  roles_nodup := q.roles_nodup
  destination := fun n => by
    constructor
    · rintro ⟨a, ha, hrole, rfl⟩
      rcases (mem_assignments.mp ha).2 with ⟨-, hdest⟩ | ⟨hother, -⟩ | ⟨hother, -⟩
      · exact hdest
      · rw [hrole] at hother
        cases hother
      · rw [hrole] at hother
        cases hother
    · intro hdest
      exact exists_assignment hdest.2 (.inl ⟨rfl, hdest⟩)
  requested := fun n hn hx => exists_assignment hx.1 (.inr (.inl ⟨rfl, hx, .inl hn⟩))
  external := q.length_external_eq
  distant := fun d m hd hx hnot hfar => by
    have hremaining : q.Remaining m := by
      refine ⟨hx, fun hsource => ?_⟩
      obtain ⟨a, ha, hrole, hn⟩ := exists_assignment hx.1 (.inr (.inl ⟨rfl, hsource⟩))
      exact hnot a ha hrole hn
    obtain ⟨n, hthird⟩ := exists_third hremaining
    obtain ⟨a, ha, hrole, hn⟩ := exists_assignment hthird.eligible (.inr (.inr ⟨rfl, hthird⟩))
    refine ⟨a, ha, hrole, ?_⟩
    rw [hn]
    exact hthird.not_adjacent hd hremaining hfar

end Inquiry

/-- The plan for a service selects its vantages as promised, in whatever order the topology
lists its nodes and edges. -/
theorem selectVantages_selects (topology : NetworkTopology) (registry : List RegisteredAgent)
    (service : ServiceEndpoint) (sourceNodeId : Option String) :
    Selects ⟨topology, registry, service, sourceNodeId⟩
        (selectVantages topology service (correlation topology registry)
          sourceNodeId).assignments ∧
      ∀ shuffled : NetworkTopology, shuffled.name = topology.name →
        shuffled.nodes.Perm topology.nodes → shuffled.edges.Perm topology.edges →
          selectVantages shuffled service (correlation shuffled registry) sourceNodeId =
            selectVantages topology service (correlation topology registry) sourceNodeId := by
  constructor
  · exact Inquiry.plan_selects ⟨topology, registry, service, sourceNodeId⟩
  · intro shuffled hname hnodes hedges
    have h : Inquiry.Shuffled ⟨topology, registry, service, sourceNodeId⟩
        ⟨shuffled, registry, service, sourceNodeId⟩ := ⟨hname, hnodes, hedges, rfl, rfl, rfl⟩
    exact h.plan

end NetForge.Controller
