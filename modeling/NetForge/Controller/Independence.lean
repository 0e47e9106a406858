import NetForge.Controller.Operations
import NetForge.Calculus.StableSort
import Mathlib.Data.List.Pairwise

/-! # Independence of the vantages

`select_vantages` keeps the nodes of a plan distinct, while what probes is the
agent a node is bound to. Which nodes it chooses is determined by the topology,
the registry, the service and the requested source; the agents of a plan are
distinct exactly when no agent is bound to two of the chosen nodes.
-/

namespace NetForge.Controller

open Calculus NetForge.Core Analysis

/-! ## Insertion-ordered dicts -/

@[simp] theorem getEntry_nil (key : String) : getEntry [] key = none := rfl

theorem getEntry_cons (e : String × String) (dict : List (String × String)) (key : String) :
    getEntry (e :: dict) key = if e.1 = key then some e.2 else getEntry dict key := by
  by_cases h : e.1 = key <;> simp [getEntry, h]

theorem getEntry_append (dict rest : List (String × String)) (key : String) :
    getEntry (dict ++ rest) key = (getEntry dict key).or (getEntry rest key) := by
  induction dict with
  | nil => simp
  | cons e dict ih =>
      rw [List.cons_append, getEntry_cons, getEntry_cons, ih]
      by_cases h : e.1 = key <;> simp [h]

theorem getEntry_isSome {dict : List (String × String)} {key : String} :
    (getEntry dict key).isSome ↔ key ∈ dict.map (·.1) := by
  induction dict with
  | nil => simp
  | cons e dict ih =>
      rw [getEntry_cons]
      by_cases h : e.1 = key
      · simp [h]
      · rw [if_neg h, ih, List.map_cons, List.mem_cons]
        have hne : key ≠ e.1 := fun heq => h heq.symm
        simp only [hne, false_or]

theorem getEntry_replace (dict : List (String × String)) (key value other : String) :
    getEntry (dict.map fun e => if e.1 = key then (key, value) else e) other =
      if other = key ∧ dict.any (·.1 = key) then some value else getEntry dict other := by
  induction dict with
  | nil => simp
  | cons e dict ih =>
      rw [List.map_cons, getEntry_cons, getEntry_cons, ih]
      by_cases he : e.1 = key
      · by_cases ho : other = key
        · simp [he, ho]
        · have hne : ¬ key = other := fun heq => ho heq.symm
          simp [he, ho, hne]
      · have hany : (e :: dict).any (·.1 = key) = dict.any (·.1 = key) := by
          rw [List.any_cons, decide_eq_false he, Bool.false_or]
        rw [if_neg he, hany]
        by_cases ho : other = key
        · have hne : ¬ e.1 = other := fun heq => he (heq.trans ho)
          simp only [hne, if_false]
        · simp only [ho, false_and, if_false]

theorem getEntry_setEntry (dict : List (String × String)) (key value other : String) :
    getEntry (setEntry dict key value) other =
      if other = key then some value else getEntry dict other := by
  unfold setEntry
  by_cases hany : dict.any (·.1 = key)
  · rw [if_pos hany, getEntry_replace]
    simp [hany]
  · rw [if_neg hany, getEntry_append, getEntry_cons, getEntry_nil]
    by_cases ho : other = key
    · have hnone : getEntry dict key = none := by
        have hmem : ¬ key ∈ dict.map (·.1) := by
          intro hmem
          obtain ⟨e, he, hkey⟩ := List.mem_map.mp hmem
          exact hany (List.any_eq_true.mpr ⟨e, he, by simpa using hkey⟩)
        have hsome := (not_congr getEntry_isSome).mpr hmem
        simpa using hsome
      simp [ho, hnone]
    · have hne : ¬ key = other := fun heq => ho heq.symm
      simp [ho, hne]

/-! ## The eligible nodes -/

def CorrelatedNode.probing (node : CorrelatedNode) : Option String :=
  node.agentId.filter fun a => node.registered && node.enabled && a ≠ ""

theorem eligibleNodes_eq (correlation : List CorrelatedNode) :
    eligibleNodes correlation =
      correlation.foldl
        (fun eligible node => (node.probing.map (setEntry eligible node.nodeId)).getD eligible)
        [] := by
  unfold eligibleNodes
  congr 1
  funext eligible node
  unfold CorrelatedNode.probing
  cases node.agentId with
  | none => rfl
  | some agentId =>
      by_cases h : (node.registered && node.enabled && decide (agentId ≠ "")) = true
      · simp only [h, if_true, Option.filter_some, Option.map_some, Option.getD_some]
      · simp only [h, Option.filter_some, Bool.false_eq_true, if_false, Option.map_none,
          Option.getD_none]

theorem getEntry_foldl {correlation : List CorrelatedNode}
    (hnodup : (correlation.map (·.nodeId)).Nodup) (dict : List (String × String)) (n a : String) :
    getEntry
        (correlation.foldl
          (fun eligible node => (node.probing.map (setEntry eligible node.nodeId)).getD eligible)
          dict) n = some a ↔
      (∃ node ∈ correlation, node.nodeId = n ∧ node.probing = some a) ∨
        ((∀ node ∈ correlation, node.nodeId = n → node.probing = none) ∧
          getEntry dict n = some a) := by
  induction correlation generalizing dict with
  | nil => simp
  | cons node rest ih =>
      obtain ⟨hfresh, hrest⟩ := List.nodup_cons.mp hnodup
      rw [List.foldl_cons, ih hrest]
      have hother : node.nodeId = n → ∀ later ∈ rest, later.nodeId ≠ n := by
        intro hn later hlater heq
        exact hfresh (List.mem_map.mpr ⟨later, hlater, heq.trans hn.symm⟩)
      by_cases hn : node.nodeId = n
      · have hnone : ¬ ∃ later ∈ rest, later.nodeId = n ∧ later.probing = some a := by
          rintro ⟨later, hlater, heq, -⟩
          exact hother hn later hlater heq
        cases hp : node.probing with
        | none => simp [hn, hp]
        | some b =>
            have hset : getEntry (setEntry dict node.nodeId b) n = some b := by
              rw [getEntry_setEntry, if_pos hn.symm]
            have hvacuous : ∀ later ∈ rest, later.nodeId = n → later.probing = none :=
              fun later hlater heq => absurd heq (hother hn later hlater)
            simp only [Option.map_some, Option.getD_some, hset, hnone, false_or]
            constructor
            · rintro ⟨-, hba⟩
              exact .inl ⟨node, List.mem_cons_self, hn, hp.trans hba⟩
            · rintro (⟨later, hlater, heq, hpl⟩ | ⟨hall, -⟩)
              · rcases List.mem_cons.mp hlater with rfl | hlater
                · exact ⟨hvacuous, hp.symm.trans hpl⟩
                · exact absurd heq (hother hn later hlater)
              · have hcontra := hall node List.mem_cons_self hn
                rw [hp] at hcontra
                exact absurd hcontra (by simp)
      · have hkeep : getEntry ((node.probing.map (setEntry dict node.nodeId)).getD dict) n =
            getEntry dict n := by
          cases node.probing with
          | none => rfl
          | some b =>
              have hne : ¬ n = node.nodeId := fun heq => hn heq.symm
              rw [Option.map_some, Option.getD_some, getEntry_setEntry, if_neg hne]
        simp [hkeep, hn]

theorem getEntry_eligibleNodes {correlation : List CorrelatedNode}
    (hnodup : (correlation.map (·.nodeId)).Nodup) (n a : String) :
    getEntry (eligibleNodes correlation) n = some a ↔
      ∃ node ∈ correlation, node.nodeId = n ∧ node.probing = some a := by
  rw [eligibleNodes_eq, getEntry_foldl hnodup]
  simp

/-! ## The nodes a plan stands on -/

def correlate (registry : List RegisteredAgent) (node : TopologyNode) : CorrelatedNode :=
  let agent := (nonEmpty node.agentId).bind fun id => registry.find? (·.agentId = id)
  { nodeId := node.nodeId
    agentId := node.agentId
    registered := agent.isSome
    enabled := agent.any (·.enabled) }

def correlation (topology : NetworkTopology) (registry : List RegisteredAgent) :
    List CorrelatedNode := topology.agentNodes.map (correlate registry)

theorem correlation_nodup (topology : NetworkTopology) (registry : List RegisteredAgent) :
    ((correlation topology registry).map (·.nodeId)).Nodup := by
  have hsub : (topology.agentNodes.map (·.nodeId)).Sublist (topology.nodes.map (·.nodeId)) :=
    List.filter_sublist.map _
  have hmap : (correlation topology registry).map (·.nodeId) =
      topology.agentNodes.map (·.nodeId) := by
    rw [correlation, List.map_map]
    rfl
  rw [hmap]
  exact hsub.nodup topology.nodes_nodup

/-- A row makes its agent eligible when the agent is registered and enabled. -/
theorem probing_correlate (registry : List RegisteredAgent) (node : TopologyNode) (a : String) :
    (correlate registry node).probing = some a ↔
      node.agentId = some a ∧ a ≠ "" ∧ (registry.find? (·.agentId = a)).any (·.enabled) := by
  unfold CorrelatedNode.probing correlate
  cases hid : node.agentId with
  | none => simp
  | some b =>
      by_cases hb : b = ""
      · simp only [hb, Option.filter_some]
        constructor
        · simp
        · rintro ⟨heq, hne, -⟩
          exact absurd (Option.some.inj heq).symm hne
      · have hbound : nonEmpty (some b) = some b := by simp [nonEmpty, hb]
        rw [hbound, Option.bind_some]
        cases hfind : registry.find? (·.agentId = b) with
        | none =>
            simp only [Option.isSome_none, Bool.false_and, Option.filter_some,
              Bool.false_eq_true, if_false, reduceCtorEq, false_iff]
            rintro ⟨heq, -, hon⟩
            rw [← Option.some.inj heq, hfind] at hon
            exact absurd hon (by simp)
        | some agent =>
            constructor
            · intro h
              obtain ⟨heq, hall⟩ := Option.filter_eq_some_iff.mp h
              have hba : b = a := Option.some.inj heq
              rw [hba] at hfind
              rw [hfind]
              have hboth : agent.enabled = true ∧ ¬ a = "" := by simpa using hall
              exact ⟨heq, hboth.2, by simpa using hboth.1⟩
            · rintro ⟨heq, hne, hon⟩
              have hba : b = a := Option.some.inj heq
              rw [← hba, hfind] at hon
              have hen : agent.enabled = true := by simpa using hon
              simp [hen, hba, hne]

structure Inquiry where
  topology : NetworkTopology
  registry : List RegisteredAgent
  service : ServiceEndpoint
  sourceNodeId : Option String

namespace Inquiry

def plan (q : Inquiry) : VantagePlan :=
  selectVantages q.topology q.service (correlation q.topology q.registry) q.sourceNodeId

/-- The node `n` is bound to the agent `a`, which is registered and enabled. -/
def Hosts (q : Inquiry) (n a : String) : Prop :=
  a ≠ "" ∧ (∃ node ∈ q.topology.nodes, node.nodeId = n ∧ node.agentId = some a) ∧
    (q.registry.find? (·.agentId = a)).any (·.enabled)

def Eligible (q : Inquiry) (n : String) : Prop := ∃ a, q.Hosts n a

/-- The service's own node, when an agent can probe from it. -/
def IsDestination (q : Inquiry) (n : String) : Prop :=
  q.service.nodeId = some n ∧ q.Eligible n

/-- A node other than the service's own that an agent can probe from. -/
def External (q : Inquiry) (n : String) : Prop :=
  q.Eligible n ∧ q.service.nodeId ≠ some n

/-- The requested source node, or the first external node where none was
requested that is external. -/
def IsSource (q : Inquiry) (n : String) : Prop :=
  q.External n ∧
    (q.sourceNodeId = some n ∨
      (∀ m, q.sourceNodeId = some m → ¬ q.External m) ∧ ∀ m, q.External m → n ≤ m)

def Remaining (q : Inquiry) (n : String) : Prop := q.External n ∧ ¬ q.IsSource n

/-- The service names its node, and `n` is not adjacent to it. -/
def Distant (q : Inquiry) (n : String) : Prop :=
  ∃ d, q.service.nodeId = some d ∧ d ≠ "" ∧ n ∉ q.topology.neighbors d

/-- The first distant remaining node, or the first remaining one where none is
distant. -/
def IsThird (q : Inquiry) (n : String) : Prop :=
  q.Remaining n ∧
    ((q.Distant n ∧ ∀ m, q.Remaining m → q.Distant m → n ≤ m) ∨
      (∀ m, q.Remaining m → ¬ q.Distant m) ∧ ∀ m, q.Remaining m → n ≤ m)

/-- The nodes a plan stands on, by the data it is made from. -/
def Chosen (q : Inquiry) (n : String) : Prop :=
  q.IsDestination n ∨ q.IsSource n ∨ q.IsThird n

/-- No agent is bound to two of the chosen nodes. -/
def OneNodePerAgent (q : Inquiry) : Prop :=
  ∀ m n a, q.Chosen m → q.Chosen n → q.Hosts m a → q.Hosts n a → m = n

variable (q : Inquiry)

def eligible : List (String × String) := eligibleNodes (correlation q.topology q.registry)

def destination? : Option String :=
  (nonEmpty q.service.nodeId).filter fun n => (getEntry q.eligible n).isSome

def candidates : List String :=
  ((q.eligible.map (·.1)).filter fun n => q.destination? ≠ some n).insertionSort (· ≤ ·)

def source? : Option String :=
  nonEmpty
    (match (nonEmpty q.sourceNodeId).filter fun n =>
        (getEntry q.eligible n).isSome && q.destination? ≠ some n with
    | some requested => some requested
    | none => q.candidates.head?)

def remaining : List String := q.candidates.filter fun n => q.source? ≠ some n

def distant? : Option String :=
  match nonEmpty q.service.nodeId with
  | some d => q.remaining.find? fun n => n ∉ q.topology.neighbors d
  | none => none

def third? : Option String :=
  nonEmpty
    (match q.distant? with
    | some n => some n
    | none => q.remaining.head?)

theorem plan_assignments :
    q.plan.assignments =
      (q.destination?.map (assign q.eligible .destination)).getD [] ++
        (q.source?.map (assign q.eligible .source)).getD [] ++
        (q.third?.map (assign q.eligible .third)).getD [] := rfl

variable {q}

theorem hosts_iff {n a : String} : getEntry q.eligible n = some a ↔ q.Hosts n a := by
  rw [eligible, getEntry_eligibleNodes (correlation_nodup _ _)]
  constructor
  · rintro ⟨row, hrow, hn, hp⟩
    obtain ⟨node, hnode, rfl⟩ := List.mem_map.mp hrow
    obtain ⟨ha, hne, hon⟩ := (probing_correlate _ _ _).mp hp
    exact ⟨hne, ⟨node, (List.mem_filter.mp hnode).1, hn, ha⟩, hon⟩
  · rintro ⟨hne, ⟨node, hnode, hn, ha⟩, hon⟩
    have hbound : node ∈ q.topology.agentNodes := by
      refine List.mem_filter.mpr ⟨hnode, ?_⟩
      simp [ha, hne]
    exact ⟨correlate q.registry node, List.mem_map_of_mem hbound, hn,
      (probing_correlate _ _ _).mpr ⟨ha, hne, hon⟩⟩

theorem eligible_iff {n : String} : (getEntry q.eligible n).isSome ↔ q.Eligible n := by
  rw [Option.isSome_iff_exists]
  exact exists_congr fun a => hosts_iff

theorem Eligible.ne {n : String} (h : q.Eligible n) : n ≠ "" := by
  obtain ⟨a, -, ⟨node, -, hn, -⟩, -⟩ := h
  rw [← hn]
  exact node.nodeId_ne

theorem nonEmpty_eq_some {value : Option String} {n : String} :
    nonEmpty value = some n ↔ value = some n ∧ n ≠ "" := by
  simp [nonEmpty, Option.filter_eq_some_iff]

theorem destination?_eq_some {n : String} : q.destination? = some n ↔ q.IsDestination n := by
  unfold destination? IsDestination
  rw [Option.filter_eq_some_iff, nonEmpty_eq_some, eligible_iff]
  constructor
  · rintro ⟨⟨hn, -⟩, he⟩
    exact ⟨hn, he⟩
  · rintro ⟨hn, he⟩
    exact ⟨⟨hn, he.ne⟩, he⟩

theorem external_iff {n : String} :
    q.External n ↔ q.Eligible n ∧ q.destination? ≠ some n := by
  rw [ne_eq, destination?_eq_some]
  constructor
  · rintro ⟨he, hne⟩
    exact ⟨he, fun hd => hne hd.1⟩
  · rintro ⟨he, hnd⟩
    exact ⟨he, fun hn => hnd ⟨hn, he⟩⟩

theorem head?_eq_find? (names : List String) : names.head? = names.find? fun _ => true := by
  cases names <;> rfl

theorem first_candidate {p : String → Bool} {n : String} :
    q.candidates.find? p = some n ↔
      q.External n ∧ p n = true ∧ ∀ m, q.External m → p m = true → n ≤ m := by
  have hmem : ∀ m, m ∈ (q.eligible.map (·.1)).filter (fun n => q.destination? ≠ some n) ↔
      q.External m := by
    intro m
    rw [List.mem_filter, ← getEntry_isSome, eligible_iff, external_iff, decide_eq_true_iff]
  rw [candidates, find?_insertionSort_eq_some]
  simp only [hmem]

theorem source?_eq_some {n : String} : q.source? = some n ↔ q.IsSource n := by
  have hrequested : ∀ m, (nonEmpty q.sourceNodeId).filter (fun n =>
      (getEntry q.eligible n).isSome && q.destination? ≠ some n) = some m ↔
        q.sourceNodeId = some m ∧ q.External m := by
    intro m
    rw [Option.filter_eq_some_iff, nonEmpty_eq_some, Bool.and_eq_true, eligible_iff,
      decide_eq_true_iff, ← external_iff]
    constructor
    · rintro ⟨⟨hm, -⟩, hx⟩
      exact ⟨hm, hx⟩
    · rintro ⟨hm, hx⟩
      exact ⟨⟨hm, hx.1.ne⟩, hx⟩
  have hfirst : q.candidates.head? = some n ↔ q.External n ∧ ∀ m, q.External m → n ≤ m := by
    rw [head?_eq_find?, first_candidate]
    simp only [true_and, true_imp_iff]
  unfold source? IsSource
  rw [nonEmpty_eq_some]
  cases hreq : (nonEmpty q.sourceNodeId).filter (fun n =>
      (getEntry q.eligible n).isSome && q.destination? ≠ some n) with
  | some m =>
      obtain ⟨hm, hx⟩ := (hrequested m).mp hreq
      constructor
      · rintro ⟨heq, -⟩
        cases Option.some.inj heq
        exact ⟨hx, .inl hm⟩
      · rintro ⟨hxn, hn | ⟨hnot, -⟩⟩
        · exact ⟨hm.symm.trans hn, hxn.1.ne⟩
        · exact absurd hx (hnot m hm)
  | none =>
      have hnot : ∀ m, q.sourceNodeId = some m → ¬ q.External m := by
        intro m hm hx
        have hsome := (hrequested m).mpr ⟨hm, hx⟩
        rw [hreq] at hsome
        exact absurd hsome (by simp)
      simp only [hfirst]
      constructor
      · rintro ⟨⟨hx, hleast⟩, -⟩
        exact ⟨hx, .inr ⟨hnot, hleast⟩⟩
      · rintro ⟨hx, hn | ⟨-, hleast⟩⟩
        · exact absurd hx (hnot n hn)
        · exact ⟨⟨hx, hleast⟩, hx.1.ne⟩

theorem first_remaining {p : String → Bool} {n : String} :
    q.remaining.find? p = some n ↔
      q.Remaining n ∧ p n = true ∧ ∀ m, q.Remaining m → p m = true → n ≤ m := by
  have hpicked : ∀ m, decide (decide (q.source? ≠ some m) = true ∧ p m = true) = true ↔
      ¬ q.IsSource m ∧ p m = true := by
    intro m
    rw [decide_eq_true_iff, decide_eq_true_iff, ne_eq, source?_eq_some]
  rw [remaining, List.find?_filter, first_candidate]
  simp only [hpicked, Remaining]
  constructor
  · rintro ⟨hx, ⟨hns, hp⟩, hleast⟩
    exact ⟨⟨hx, hns⟩, hp, fun m hm hpm => hleast m hm.1 ⟨hm.2, hpm⟩⟩
  · rintro ⟨⟨hx, hns⟩, hp, hleast⟩
    exact ⟨hx, ⟨hns, hp⟩, fun m hm hpm => hleast m ⟨hm, hpm.1⟩ hpm.2⟩

theorem distant?_eq_some {n : String} :
    q.distant? = some n ↔
      q.Remaining n ∧ q.Distant n ∧ ∀ m, q.Remaining m → q.Distant m → n ≤ m := by
  unfold distant?
  cases hd : nonEmpty q.service.nodeId with
  | none =>
      have hnot : ¬ q.Distant n := by
        rintro ⟨d, hnode, hne, -⟩
        have hsome := nonEmpty_eq_some.mpr ⟨hnode, hne⟩
        rw [hd] at hsome
        exact absurd hsome (by simp)
      simp [hnot]
  | some d =>
      have hdistant : ∀ m, decide (m ∉ q.topology.neighbors d) = true ↔ q.Distant m := by
        intro m
        obtain ⟨hnode, hne⟩ := nonEmpty_eq_some.mp hd
        rw [decide_eq_true_iff]
        constructor
        · intro hm
          exact ⟨d, hnode, hne, hm⟩
        · rintro ⟨d', hnode', -, hm⟩
          cases Option.some.inj (hnode.symm.trans hnode')
          exact hm
      simp only [first_remaining, hdistant]

theorem exists_distant? {m : String} (hr : q.Remaining m) (hdist : q.Distant m) :
    ∃ l, q.distant? = some l := by
  obtain ⟨d, hnode, hne, hm⟩ := hdist
  have hmem : m ∈ q.remaining := by
    have hcand : m ∈ q.candidates := by
      obtain ⟨he, hnd⟩ := external_iff.mp hr.1
      refine (List.mem_insertionSort _).mpr (List.mem_filter.mpr ⟨?_, by simpa using hnd⟩)
      exact getEntry_isSome.mp (eligible_iff.mpr he)
    refine List.mem_filter.mpr ⟨hcand, ?_⟩
    rw [decide_eq_true_iff, ne_eq, source?_eq_some]
    exact hr.2
  have hfind : (q.remaining.find? fun n => n ∉ q.topology.neighbors d).isSome :=
    List.find?_isSome.mpr ⟨m, hmem, by simpa using hm⟩
  have hd : nonEmpty q.service.nodeId = some d := nonEmpty_eq_some.mpr ⟨hnode, hne⟩
  unfold distant?
  rw [hd]
  exact Option.isSome_iff_exists.mp hfind

theorem third?_eq_some {n : String} : q.third? = some n ↔ q.IsThird n := by
  have hfirst : q.remaining.head? = some n ↔ q.Remaining n ∧ ∀ m, q.Remaining m → n ≤ m := by
    rw [head?_eq_find?, first_remaining]
    simp only [true_and, true_imp_iff]
  unfold third? IsThird
  rw [nonEmpty_eq_some]
  cases hd : q.distant? with
  | some m =>
      obtain ⟨hr, hdist, hleast⟩ := distant?_eq_some.mp hd
      constructor
      · rintro ⟨heq, -⟩
        cases Option.some.inj heq
        exact ⟨hr, .inl ⟨hdist, hleast⟩⟩
      · rintro ⟨hrn, ⟨hdn, hln⟩ | ⟨hnot, -⟩⟩
        · have hmn : m = n := le_antisymm (hleast n hrn hdn) (hln m hr hdist)
          exact ⟨congrArg some hmn, hrn.1.1.ne⟩
        · exact absurd hdist (hnot m hr)
  | none =>
      have hnot : ∀ m, q.Remaining m → ¬ q.Distant m := by
        intro m hr hdist
        obtain ⟨l, hl⟩ := exists_distant? hr hdist
        rw [hd] at hl
        exact absurd hl (by simp)
      simp only [hfirst]
      constructor
      · rintro ⟨⟨hr, hleast⟩, -⟩
        exact ⟨hr, .inr ⟨hnot, hleast⟩⟩
      · rintro ⟨hr, ⟨hdn, -⟩ | ⟨-, hleast⟩⟩
        · exact absurd hdn (hnot n hr)
        · exact ⟨⟨hr, hleast⟩, hr.1.1.ne⟩

/-! ## The agents of a plan -/

def chosen (q : Inquiry) : List String :=
  q.destination?.toList ++ (q.source?.toList ++ q.third?.toList)

theorem mem_chosen {n : String} : n ∈ q.chosen ↔ q.Chosen n := by
  unfold chosen Chosen
  rw [List.mem_append, List.mem_append, Option.mem_toList, Option.mem_toList, Option.mem_toList,
    destination?_eq_some, source?_eq_some,
    third?_eq_some]

theorem chosen_nodup (q : Inquiry) : q.chosen.Nodup := by
  have hsingle : ∀ o : Option String, o.toList.Nodup := by
    intro o
    cases o <;> simp
  have hdest : ∀ n, q.IsDestination n → ¬ q.External n := fun n hd hx => hx.2 hd.1
  refine List.nodup_append'.mpr ⟨hsingle _, List.nodup_append'.mpr ⟨hsingle _, hsingle _, ?_⟩, ?_⟩
  · intro n hs ht
    rw [Option.mem_toList, source?_eq_some] at hs
    rw [Option.mem_toList, third?_eq_some] at ht
    exact ht.1.2 hs
  · intro n hd hrest
    rw [Option.mem_toList, destination?_eq_some] at hd
    rcases List.mem_append.mp hrest with hs | ht
    · rw [Option.mem_toList, source?_eq_some] at hs
      exact hdest n hd hs.1
    · rw [Option.mem_toList, third?_eq_some] at ht
      exact hdest n hd ht.1.1

theorem map_assign (eligible : List (String × String)) (role : VantageRole) (o : Option String) :
    ((o.map (assign eligible role)).getD []).map (·.agentId) =
      o.toList.filterMap (getEntry eligible) := by
  cases o with
  | none => rfl
  | some n =>
      simp only [Option.map_some, Option.getD_some, assign, Option.toList_some]
      cases h : getEntry eligible n <;> simp [h]

theorem plan_agents (q : Inquiry) :
    q.plan.assignments.map (·.agentId) = q.chosen.filterMap (getEntry q.eligible) := by
  rw [plan_assignments, List.map_append, List.map_append, map_assign, map_assign, map_assign,
    chosen, List.filterMap_append, List.filterMap_append, List.append_assoc]

def Apart (q : Inquiry) (m n : String) : Prop := ∀ a b, q.Hosts m a → q.Hosts n b → a ≠ b

instance : Std.Symm q.Apart where
  symm := fun _ _ h a b ha hb heq => h b a hb ha heq.symm

theorem plan_agents_nodup_iff (q : Inquiry) :
    (q.plan.assignments.map (·.agentId)).Nodup ↔ q.OneNodePerAgent := by
  have hapart : (q.plan.assignments.map (·.agentId)).Nodup ↔ q.chosen.Pairwise q.Apart := by
    rw [plan_agents, List.Nodup, List.pairwise_filterMap]
    constructor
    · intro h
      exact h.imp fun hmn a b ha hb => hmn a (hosts_iff.mpr ha) b (hosts_iff.mpr hb)
    · intro h
      exact h.imp fun hmn a ha b hb => hmn a b (hosts_iff.mp ha) (hosts_iff.mp hb)
  rw [hapart]
  constructor
  · intro hpair m n a hm hn hma hna
    by_contra hne
    have hmn : q.Apart m n := hpair.forall (mem_chosen.mpr hm) (mem_chosen.mpr hn) hne
    exact hmn a a hma hna rfl
  · intro hone
    refine q.chosen_nodup.pairwise_of_forall_ne fun m hm n hn hne a b ha hb hab => ?_
    have hna : q.Hosts n a := by rwa [hab]
    exact hne (hone m n a (mem_chosen.mp hm) (mem_chosen.mp hn) ha hna)

end Inquiry

/-! ## What a diagnosis does with its plan -/

theorem perform_read {c : StoreCall} (h : c.touches = none) (w : World) : (perform c w).2 = w := by
  cases c <;> first | rfl | exact absurd h (by simp [StoreCall.touches])

section Reading

variable {α β : Type} {p : Method α}

theorem Confined.run_eq (h : Confined [] p) (w : World) : (p.run w).2 = w := by
  induction p generalizing w with
  | done a => rfl
  | call c next ih =>
      have hread : c.touches = none := by
        cases htouches : c.touches with
        | none => rfl
        | some r => exact absurd (h.1 r htouches) List.not_mem_nil
      rw [Program.run_call, ih _ (h.2 _)]
      exact perform_read hread w

theorem Confined.run_bind (h : Confined [] p) (f : α → Method β) (w : World) :
    (p >>= f).run w = (f (p.run w).1).run w := by
  rw [Program.run_bind, h.run_eq]

theorem Confined.probe_bind (h : Confined [] p) (f : α → Method β) (w : World)
    {ev : Event controller} (hev : ev ∈ (p >>= f).trace w)
    (hprobe : ev.call.touches = some .network) : ev ∈ (f (p.run w).1).trace w := by
  rw [Program.trace_bind, h.run_eq] at hev
  rcases List.mem_append.mp hev with hev | hev
  · have hwithin := Program.Calls.trace h w ev hev
    exact absurd (hwithin .network hprobe) List.not_mem_nil
  · exact hev

end Reading

def answers (result : FanoutResult) (agentId : String) : List AgentObservation :=
  ((result.observations.find? (·.1 = agentId)).map (·.2)).getD []

/-- The fan-out over a plan and the report made from its answers. -/
def probePlan (request : DiagnosisRequest) (service : ServiceEndpoint)
    (topology : NetworkTopology) (plan : VantagePlan) :
    Method (Except ServiceError MultiVantageReport) := do
  let probeType := request.probeType.getD (if service.protocol = .tcp then .tcp else .icmp)
  let probe : ProbeRequest :=
    { probeType
      target := service.host
      port := if probeType = .tcp then some service.port else none
      count := request.count }
  let agents ← planAgents plan.assignments
  match ← call (.fanout agents probe) with
  | .error message => pure (.error (.raised "ValueError" message))
  | .ok result =>
      let observations := plan.assignments.flatMap fun a =>
        (answers result a.agentId).map (vantageObservation service a)
      let diagnosisId ← call .uuid4
      let report := localizeFault observations service.host
        (some service.serviceId) (some topology.name) result.errors diagnosisId
      call (.saveDiagnosis report)
      pure (.ok report)

theorem diagnoseService_eq (request : DiagnosisRequest) :
    diagnoseService request = (call (.getService request.serviceId) >>= fun
      | none => pure (.error (.unknownService s!"unknown service: {request.serviceId}"))
      | some service => topologyForService service request.topology >>= fun
        | .error e => pure (.error e)
        | .ok topology => correlateAgents topology.name >>= fun
          | .error e => pure (.error e)
          | .ok correlation =>
              let plan := selectVantages topology service correlation request.sourceNodeId
              if plan.assignments = [] then
                pure (.error (.noVantageAgents
                  (s!"no registered agents available in topology '{topology.name}' " ++
                    s!"to diagnose {service.serviceId}")))
              else probePlan request service topology plan) := rfl

theorem run_getTopology (name : String) (w : World) :
    ((getTopology name).run w).1 =
      match w.store.topologies.find? name with
      | some topology => .ok topology
      | none => .error (.unknownTopology s!"unknown topology: {name}") := by
  unfold getTopology
  rw [Program.request_bind, Program.run_call]
  simp only [perform]
  cases w.store.topologies.find? name <;> rfl

theorem run_correlateAgents {topology : NetworkTopology} {w : World}
    (h : w.store.topologies.find? topology.name = some topology) :
    ((correlateAgents topology.name).run w).1 =
      .ok (correlation topology w.store.listAgents) := by
  unfold correlateAgents
  rw [(getTopology_confined topology.name).run_bind, run_getTopology, h]
  rfl

theorem stored_of_find? {w : World} {name : String} {topology : NetworkTopology}
    (h : w.store.topologies.find? name = some topology) :
    w.store.topologies.find? topology.name = some topology := by
  have hname : topology.name = name := (Table.find?_eq_some.mp h).2
  rw [hname]
  exact h

theorem stored_of_getTopology {w : World} {name : String} {topology : NetworkTopology}
    (h : ((getTopology name).run w).1 = .ok topology) :
    w.store.topologies.find? topology.name = some topology := by
  rw [run_getTopology] at h
  cases hfind : w.store.topologies.find? name with
  | none =>
      rw [hfind] at h
      exact absurd h (by simp)
  | some found =>
      rw [hfind] at h
      cases h
      exact stored_of_find? hfind

theorem stored_of_topologyContaining {w : World} {nodeId : Option String} {names : List String}
    {topology : NetworkTopology}
    (h : ((topologyContaining nodeId names).run w).1 = some topology) :
    w.store.topologies.find? topology.name = some topology := by
  induction names with
  | nil => exact absurd h (by simp [topologyContaining])
  | cons candidate rest ih =>
      unfold topologyContaining at h
      rw [Program.request_bind, Program.run_call] at h
      simp only [perform] at h
      cases hfind : w.store.topologies.find? candidate with
      | none =>
          rw [hfind] at h
          exact ih h
      | some found =>
          rw [hfind] at h
          by_cases hin : (nonEmpty nodeId).any found.hasNode = true
          · simp only [hin, if_true] at h
            cases h
            exact stored_of_find? hfind
          · simp only [hin] at h
            exact ih h

/-- The topology of a diagnosis is the stored one of its name. -/
theorem stored_of_topologyForService {service : ServiceEndpoint} {name : Option String} {w : World}
    {topology : NetworkTopology} (h : ((topologyForService service name).run w).1 = .ok topology) :
    w.store.topologies.find? topology.name = some topology := by
  cases name with
  | some name => exact stored_of_getTopology h
  | none =>
      unfold topologyForService at h
      simp only at h
      rw [Program.request_bind, Program.run_call] at h
      simp only [perform] at h
      rw [(topologyContaining_confined _ _).run_bind] at h
      cases hfound : ((topologyContaining service.nodeId w.store.listTopologyNames).run w).1 with
      | some found =>
          rw [hfound] at h
          cases h
          exact stored_of_topologyContaining hfound
      | none =>
          rw [hfound] at h
          simp only at h
          rw [Program.request_bind, Program.run_call] at h
          simp only [perform] at h
          rcases hnames : w.store.listTopologyNames with _ | ⟨only, _ | ⟨second, rest⟩⟩
          · simp [hnames] at h
          · simp only [hnames] at h
            rw [Program.request_bind, Program.run_call] at h
            simp only [perform] at h
            cases hfind : w.store.topologies.find? only with
            | none => simp [hfind] at h
            | some found =>
                rw [hfind] at h
                cases h
                exact stored_of_find? hfind
          · simp [hnames] at h

structure Inquiry.Asked (q : Inquiry) (request : DiagnosisRequest) (w : World) : Prop where
  service : w.store.services.find? request.serviceId = some q.service
  topology : ((topologyForService q.service request.topology).run w).1 = .ok q.topology
  registry : w.store.listAgents = q.registry
  source : request.sourceNodeId = q.sourceNodeId

/-- Every agent is sent the probe once, and its answers are counted once. -/
structure AskedOnce (request : DiagnosisRequest) (w : World) : Prop where
  fanout : ∀ agents probe reply,
    ⟨.fanout agents probe, reply⟩ ∈ (diagnoseService request).trace w →
      (agents.map (·.agentId)).Nodup
  counted : ∀ agents probe result report,
    ⟨.fanout agents probe, .ok result⟩ ∈ (diagnoseService request).trace w →
      ((diagnoseService request).run w).1 = .ok report →
        ∀ x, (report.observations.filter (·.agentId = x)).length ≤ (answers result x).length

theorem run_planAgents (plan : List VantageAssignment) (w : World) :
    ((planAgents plan).run w).1 =
      plan.flatMap fun a => (w.store.agents.find? a.agentId).toList := by
  induction plan with
  | nil => rfl
  | cons a rest ih =>
      have hget : (controller.perform (.getAgent a.agentId) w).2 = w := rfl
      unfold planAgents
      rw [Program.request_bind, Program.run_call, (planAgents_confined rest).run_bind, hget, ih]
      rfl

/-- The agents of a plan are asked in assignment order, the unregistered ones left out. -/
theorem planAgents_sublist (plan : List VantageAssignment) (w : World) :
    (((planAgents plan).run w).1.map (·.agentId)).Sublist (plan.map (·.agentId)) := by
  rw [run_planAgents]
  induction plan with
  | nil => exact List.Sublist.refl _
  | cons a rest ih =>
      rw [List.flatMap_cons, List.map_append, List.map_cons]
      cases hfind : w.store.agents.find? a.agentId with
      | none => exact ih.cons _
      | some agent =>
          have hid : agent.agentId = a.agentId := (Table.find?_eq_some.mp hfind).2
          simp only [Option.toList_some, List.map_cons, List.map_nil, List.singleton_append, hid]
          exact ih.cons_cons _

@[simp] theorem vantageObservation_agentId (service : ServiceEndpoint) (a : VantageAssignment)
    (obs : AgentObservation) : (vantageObservation service a obs).agentId = a.agentId := by
  unfold vantageObservation VantageObservation.deriveConfidence
  split <;> rfl

theorem length_filter_observations {plan : List VantageAssignment}
    (hnodup : (plan.map (·.agentId)).Nodup) (service : ServiceEndpoint) (result : FanoutResult)
    (x : String) :
    ((plan.flatMap fun a => (answers result a.agentId).map (vantageObservation service a)).filter
        (·.agentId = x)).length ≤ (answers result x).length := by
  induction plan with
  | nil => simp
  | cons a rest ih =>
      obtain ⟨hfresh, hrest⟩ := List.nodup_cons.mp hnodup
      rw [List.flatMap_cons, List.filter_append, List.length_append]
      by_cases ha : a.agentId = x
      · have hothers : (rest.flatMap fun b =>
            (answers result b.agentId).map (vantageObservation service b)).filter
              (·.agentId = x) = [] := by
          rw [List.filter_eq_nil_iff]
          intro o ho
          obtain ⟨b, hb, hob⟩ := List.mem_flatMap.mp ho
          obtain ⟨obs, -, rfl⟩ := List.mem_map.mp hob
          have hne : b.agentId ≠ x := by
            intro hbx
            exact hfresh (List.mem_map.mpr ⟨b, hb, hbx.trans ha.symm⟩)
          simpa using hne
        rw [hothers, List.length_nil, Nat.add_zero, ← ha]
        have hlen := List.length_filter_le
          (fun o : VantageObservation => decide (o.agentId = a.agentId))
          ((answers result a.agentId).map (vantageObservation service a))
        rwa [List.length_map] at hlen
      · have hhead : ((answers result a.agentId).map (vantageObservation service a)).filter
            (·.agentId = x) = [] := by
          rw [List.filter_eq_nil_iff]
          intro o ho
          obtain ⟨obs, -, rfl⟩ := List.mem_map.mp ho
          simpa using ha
        rw [hhead, List.length_nil, Nat.zero_add]
        exact ih hrest

section Planned

variable {q : Inquiry} {request : DiagnosisRequest} {w : World}

/-- A probe sent by a diagnosis is sent by the fan-out over its plan. -/
theorem Inquiry.Asked.probe (h : q.Asked request w) {ev : Event controller}
    (hev : ev ∈ (diagnoseService request).trace w) (hprobe : ev.call.touches = some .network) :
    ev ∈ (probePlan request q.service q.topology q.plan).trace w ∧
      (diagnoseService request).run w = (probePlan request q.service q.topology q.plan).run w := by
  have hread : Confined [] (call (.getService request.serviceId)) :=
    Program.calls_request _ |>.mpr (.of_none rfl)
  have hservice : ((call (.getService request.serviceId)).run w).1 = some q.service := h.service
  have hcorrelation := run_correlateAgents (stored_of_topologyForService h.topology)
  rw [diagnoseService_eq] at hev ⊢
  have hev := hread.probe_bind _ w hev hprobe
  rw [hread.run_bind]
  rw [hservice] at hev ⊢
  have hev := (topologyForService_confined q.service request.topology).probe_bind _ w hev hprobe
  simp only [(topologyForService_confined q.service request.topology).run_bind]
  rw [h.topology] at hev ⊢
  have hev := (correlateAgents_confined q.topology.name).probe_bind _ w hev hprobe
  simp only [(correlateAgents_confined q.topology.name).run_bind]
  rw [hcorrelation, h.registry] at hev ⊢
  simp only [h.source] at hev ⊢
  change ev ∈ (if q.plan.assignments = [] then _ else
    probePlan request q.service q.topology q.plan : Method _).trace w at hev
  change _ ∧ (if q.plan.assignments = [] then _ else
    probePlan request q.service q.topology q.plan : Method _).run w = _
  by_cases hnil : q.plan.assignments = []
  · rw [if_pos hnil] at hev
    exact absurd hev List.not_mem_nil
  · rw [if_neg hnil] at hev ⊢
    exact ⟨hev, rfl⟩

theorem localizeFault_observations (observations : List VantageObservation) (target : String)
    (serviceId topology : Option String) (agentErrors : List (String × String))
    (diagnosisId : String) :
    (localizeFault observations target serviceId topology agentErrors diagnosisId).observations =
      sortObservations observations := by
  unfold localizeFault localizeFaultIn
  by_cases h : (sortObservations observations).length = 0
  · simp only [h, if_true]
    exact (List.length_eq_zero_iff.mp h).symm
  · simp only [h, if_false]

/-- The one probe of a plan: whom it asks, and what is reported of the answers. -/
theorem probe_of_probePlan {service : ServiceEndpoint} {topology : NetworkTopology}
    {plan : VantagePlan} {agents : List RegisteredAgent} {probe : ProbeRequest}
    {reply : Except String FanoutResult}
    (hev : (⟨.fanout agents probe, reply⟩ : Event controller) ∈
      (probePlan request service topology plan).trace w) :
    agents = ((planAgents plan.assignments).run w).1 ∧
      ∀ result report, reply = .ok result →
        ((probePlan request service topology plan).run w).1 = .ok report →
          report.observations = sortObservations (plan.assignments.flatMap fun a =>
            (answers result a.agentId).map (vantageObservation service a)) := by
  unfold probePlan at hev ⊢
  have hev := (planAgents_confined _).probe_bind _ w hev rfl
  simp only [(planAgents_confined _).run_bind]
  generalize ((planAgents plan.assignments).run w).1 = planned at hev ⊢
  rw [Program.request_bind, Program.trace_call] at hev
  rw [Program.request_bind, Program.run_call]
  generalize controller.perform (.fanout planned _) w = sent at hev ⊢
  obtain ⟨outcome, t⟩ := sent
  rcases List.mem_cons.mp hev with hfirst | hlater
  · cases hfirst
    refine ⟨rfl, fun result report hreply hreport => ?_⟩
    cases hreply
    cases hreport
    exact localizeFault_observations _ _ _ _ _ _
  · -- The calls after the fan-out take an identifier and save the report.
    refine absurd rfl (Program.Calls.trace (I := controller)
      (P := fun c => StoreCall.touches c ≠ some Resource.network) ?_ t _ hlater)
    have huuid : StoreCall.touches .uuid4 ≠ some Resource.network := by simp [StoreCall.touches]
    have hsave : ∀ report, StoreCall.touches (.saveDiagnosis report) ≠ some Resource.network := by
      simp [StoreCall.touches]
    cases outcome with
    | error message => trivial
    | ok result => exact ⟨huuid, fun _ => ⟨hsave _, fun _ => trivial⟩⟩

theorem Inquiry.Asked.askedOnce (h : q.Asked request w)
    (hnodup : (q.plan.assignments.map (·.agentId)).Nodup) : AskedOnce request w where
  fanout := by
    intro agents probe reply hev
    obtain ⟨hplan, -⟩ := h.probe hev rfl
    rw [(probe_of_probePlan hplan).1]
    exact (planAgents_sublist _ w).nodup hnodup
  counted := by
    intro agents probe result report hev hreport x
    obtain ⟨hplan, hrun⟩ := h.probe hev rfl
    rw [hrun] at hreport
    rw [(probe_of_probePlan hplan).2 result report rfl hreport]
    have hperm : (sortObservations (q.plan.assignments.flatMap fun a =>
        (answers result a.agentId).map (vantageObservation q.service a))).Perm _ :=
      List.perm_insertionSort _ _
    rw [(hperm.filter _).length_eq]
    exact length_filter_observations hnodup q.service result x

end Planned

/-- The vantages of a plan are independent, and a diagnosis asks and counts every
agent once, exactly when no agent is bound to two of the chosen nodes. -/
theorem selectVantages_independent_iff (q : Inquiry) :
    ((selectVantages q.topology q.service (correlation q.topology q.registry)
          q.sourceNodeId).assignments.map (·.agentId)).Nodup ∧
        (∀ request w, q.Asked request w → AskedOnce request w) ↔
      q.OneNodePerAgent := by
  have hplan : (q.plan.assignments.map (·.agentId)).Nodup ↔ q.OneNodePerAgent :=
    q.plan_agents_nodup_iff
  constructor
  · intro h
    exact hplan.mp h.1
  · intro hone
    have hnodup := hplan.mpr hone
    exact ⟨hnodup, fun request w hasked => hasked.askedOnce hnodup⟩

namespace Sample

def twoHomed : NetworkTopology where
  name := "lab"
  nodes :=
    [{ nodeId := "edge", role := .gateway, agentId := some "a1", tags := [],
        nodeId_ne := by decide },
      { nodeId := "server", role := .host, agentId := some "a1", tags := [],
        nodeId_ne := by decide }]
  edges := []
  name_ne := by decide
  nodes_nodup := by decide
  src_known := by simp
  dst_known := by simp

def orders : ServiceEndpoint where
  serviceId := "orders"
  name := "order database"
  nodeId := some "server"
  host := "10.0.0.2"
  port := 5433
  protocol := .tcp
  serviceId_ne := by decide
  name_ne := by decide
  host_ne := by decide
  port_mem := by decide

def agent : RegisteredAgent := ⟨"a1", "http://a1", [], true, none⟩

def answer : AgentObservation where
  target := none
  probeType := "tcp"
  evidenceQuality := .verified
  confidence := some 1
  status := .failed
  summary := ""
  evidence := []
  confidence_mem := by simp

/-- The agent, the topology and the service are installed; the agent answers a
fan-out with one observation. -/
def twoHomedWorld : World :=
  runOperations { world with network := fun _ _ _ => ⟨[("a1", [answer])], []⟩ }
    [.registerAgent ⟨"a1", "http://a1", [], by decide⟩, .importTopology twoHomed,
      .registerServices ⟨[orders], by decide⟩ none]

end Sample

/-- One agent on the service's node and on another: both vantages are that agent,
and its one answer is counted as two failed vantages. -/
theorem one_agent_two_vantages :
    (¬ ∀ (topology : NetworkTopology) (registry : List RegisteredAgent)
        (service : ServiceEndpoint) (sourceNodeId : Option String),
        ((selectVantages topology service (correlation topology registry)
          sourceNodeId).assignments.map (·.agentId)).Nodup) ∧
      ((diagnoseService ⟨"orders", none, 4, none, none⟩).run
          Sample.twoHomedWorld).1.toOption.map (fun r => (r.vantageCount, r.failedCount)) =
        some (2, 2) := by
  refine ⟨fun hclaim => ?_, by decide +kernel⟩
  have hnodup := hclaim Sample.twoHomed [Sample.agent] Sample.orders none
  have hagents : (selectVantages Sample.twoHomed Sample.orders
      (correlation Sample.twoHomed [Sample.agent]) none).assignments.map (·.agentId) =
        ["a1", "a1"] := by decide +kernel
  rw [hagents] at hnodup
  exact absurd hnodup (by decide)

end NetForge.Controller
