import NetForge.Calculus.Tallies
import NetForge.Core.Result
import Mathlib.Data.List.Sort

/-! # Flow records

`analyze_flows` of `diagnostics/flow/analysis.py`: flow records are added up by conversation,
the ten largest conversations are ranked, and those with a quarter of the bytes are reported
as elephants.
-/

namespace NetForge.Diagnostics

open NetForge.Core NetForge.Python Calculus

/-- Flows larger than this share of total bytes are "elephants". -/
def ELEPHANT_SHARE : Rat := 1 / 4

abbrev Conversation := String × String

structure Flow where
  src : String
  dst : String
  bytes : Rat
  packets : Rat
  deriving DecidableEq

def Flow.pair (f : Flow) : Conversation := (f.src, f.dst)

structure FlowStats where
  bytes : Rat
  packets : Rat
  deriving DecidableEq

structure Talker where
  src : String
  dst : String
  bytes : Rat
  packets : Rat
  share : Rat

def Talker.pair (t : Talker) : Conversation := (t.src, t.dst)

def Talker.row (t : Talker) : PyVal :=
  .dict [("src", .str t.src), ("dst", .str t.dst), ("bytes", .num t.bytes),
    ("packets", .num t.packets), ("share", .num t.share)]

/-- A result with the fields that the rule engine does not read. -/
structure FlowResult extends DiagnosticResult where
  severity : Severity
  evidence : List String
  warnings : List String

/-! ## One record after another -/

/-- What a record says; `text` is `str(..)`. -/
def readFlow (text : PyVal → Except PyError String) (rec : Dict) : Except PyError Flow := do
  let src ← text (((rec.value "src").orElse (rec.value "source")).orElse (.str "unknown"))
  let dst ← text (((rec.value "dst").orElse (rec.value "destination")).orElse (.str "unknown"))
  let bytes ← (((rec.value "bytes").orElse (rec.value "octetDeltaCount")).orElse (.num 0)).float
  let packets ←
    (((rec.value "packets").orElse (rec.value "packetDeltaCount")).orElse (.num 0)).float
  return ⟨src, dst, bytes, packets⟩

def addFlow (f : Flow) (stats : Option FlowStats) : FlowStats :=
  let stats := stats.getD ⟨0, 0⟩
  ⟨stats.bytes + f.bytes, stats.packets + f.packets⟩

section

variable (flows : List Flow)

/-- The flows under their conversations, as the loop meets them. -/
def flowEvents : List (Conversation × Flow) := flows.map fun f => (f.pair, f)

def byPair : List (Conversation × FlowStats) := Entries.fill addFlow [] (flowEvents flows)

def totalBytes : Rat := (flows.map (·.bytes)).sum

/-- The conversations by their bytes; equal ones keep the order they were first seen in. -/
def ranked : List (Conversation × FlowStats) :=
  (byPair flows).insertionSort fun a b => b.2.bytes ≤ a.2.bytes

end

def share (total bytes : Rat) : Rat := if total = 0 then 0 else roundTo 4 (bytes / total)

def talker (total : Rat) (entry : Conversation × FlowStats) : Talker where
  src := entry.1.1
  dst := entry.1.2
  bytes := entry.2.bytes
  packets := entry.2.packets
  share := share total entry.2.bytes

section

variable (flows : List Flow)

def topTalkers : List Talker := ((ranked flows).take 10).map (talker (totalBytes flows))

def elephantFlows : List Talker := (topTalkers flows).filter (ELEPHANT_SHARE ≤ ·.share)

def flowResult : FlowResult :=
  let total := totalBytes flows
  let elephants := elephantFlows flows
  let dominated := elephants ≠ []
  { module := .flowAnalysis
    status := if dominated then .degraded else .healthy
    severity := if dominated then .medium else .info
    summary :=
      if dominated then s!"{elephants.length} elephant flow(s) dominate traffic"
      else s!"Analyzed {flows.length} flow records; no elephant flows"
    target := none
    metrics :=
      [("flow_count", .num flows.length),
        ("total_bytes", .num total),
        ("top_talkers", .list ((topTalkers flows).map (·.row))),
        ("elephant_flows", .list (elephants.map (·.row))),
        ("elephant_count", .num elephants.length)]
    errors := []
    evidence :=
      [s!"Total bytes observed: {truncate total}",
        s!"Unique conversations: {(byPair flows).length}"]
    warnings :=
      elephants.map fun e => s!"Elephant flow {e.src} → {e.dst} ({fixed1 (e.share * 100)}%)" }

end

def emptyResult : FlowResult where
  module := .flowAnalysis
  status := .unknown
  severity := .info
  summary := "No flow records to analyze"
  target := none
  metrics := [("flow_count", .num 0)]
  errors := []
  evidence := []
  warnings := []

def analyzeFlows (text : PyVal → Except PyError String) (records : List Dict) :
    Except PyError FlowResult :=
  if records = [] then .ok emptyResult
  else do
    let flows ← records.mapM (readFlow text)
    return flowResult flows

/-! ## The sums of the conversations -/

section

variable (flows : List Flow)

def bytesOf (pair : Conversation) : Rat := ((flows.filter (·.pair = pair)).map (·.bytes)).sum

theorem weightOf_flowEvents (pair : Conversation) :
    Entries.weightOf Flow.bytes (flowEvents flows) pair = bytesOf flows pair := by
  unfold Entries.weightOf flowEvents bytesOf
  rw [List.filter_map, List.map_map]
  rfl

theorem addFlow_adds : Entries.Adds addFlow FlowStats.bytes Flow.bytes where
  first := fun f => zero_add f.bytes
  next := fun _ _ => rfl

theorem keys_nodup : (Entries.keys (byPair flows)).Nodup :=
  Entries.nodup_fill addFlow _ List.nodup_nil

theorem sum_byPair : ((byPair flows).map (·.2.bytes)).sum = totalBytes flows := by
  have hnone : (Entries.keys ([] : List (Conversation × FlowStats))).Nodup := List.nodup_nil
  have hsum := Entries.sum_fill addFlow_adds (flowEvents flows) hnone
  rw [List.map_nil, List.sum_nil, zero_add] at hsum
  unfold byPair totalBytes
  rw [hsum]
  unfold flowEvents
  rw [List.map_map]
  rfl

theorem mem_keys_flowEvents (pair : Conversation) :
    pair ∈ Entries.keys (flowEvents flows) ↔ pair ∈ flows.map (·.pair) := by
  unfold Entries.keys flowEvents
  rw [List.map_map]
  rfl

/-- A conversation of some record has one entry, with the bytes of its records. -/
theorem exists_mem_byPair (pair : Conversation) (bytes : Rat) :
    (∃ stats, (pair, stats) ∈ byPair flows ∧ stats.bytes = bytes) ↔
      pair ∈ flows.map (·.pair) ∧ bytesOf flows pair = bytes := by
  have hvalue := Entries.measure_value?_fill addFlow_adds (flowEvents flows) pair
  have hmem : (∃ stats, (pair, stats) ∈ byPair flows ∧ stats.bytes = bytes) ↔
      (Entries.value? (byPair flows) pair).map FlowStats.bytes = some bytes := by
    rw [Option.map_eq_some_iff]
    exact exists_congr fun stats => and_congr_left' (Entries.mem_iff_value? (keys_nodup flows))
  rw [hmem]
  unfold byPair
  rw [hvalue, weightOf_flowEvents, ← mem_keys_flowEvents]
  by_cases hpair : pair ∈ Entries.keys (flowEvents flows)
  · rw [if_pos hpair, Option.some_inj]
    exact (and_iff_right hpair).symm
  · rw [if_neg hpair]
    constructor
    · intro h
      cases h
    · intro h
      exact absurd h.1 hpair

end

/-! ## Shares -/

theorem share_mono {total a b : Rat} (htotal : 0 ≤ total) (h : a ≤ b) :
    share total a ≤ share total b := by
  unfold share
  by_cases hzero : total = 0
  · rw [if_pos hzero, if_pos hzero]
  · rw [if_neg hzero, if_neg hzero]
    exact roundTo_mono 4 (div_le_div_of_nonneg_right h htotal)

theorem share_of_quarter {total bytes : Rat} (htotal : 0 < total) (h : 1 / 4 * total ≤ bytes) :
    ELEPHANT_SHARE ≤ share total bytes := by
  have hquarter : (1 / 4 : Rat) ≤ bytes / total := (le_div_iff₀ htotal).mpr h
  have hexact : roundTo 4 (1 / 4) = ELEPHANT_SHARE := by decide +kernel
  unfold share
  rw [if_neg htotal.ne', ← hexact]
  exact roundTo_mono 4 hquarter

/-- Rounding lifts a share to a quarter from no further than half a unit of the last digit. -/
theorem bytes_of_share {total bytes : Rat} (htotal : 0 ≤ total)
    (h : ELEPHANT_SHARE ≤ share total bytes) :
    0 < total ∧ (1 / 4 - 1 / 20000) * total ≤ bytes := by
  unfold share at h
  by_cases hzero : total = 0
  · rw [if_pos hzero] at h
    exact absurd h (by decide +kernel)
  · have hpos : 0 < total := lt_of_le_of_ne htotal (Ne.symm hzero)
    rw [if_neg hzero] at h
    have hclose := (abs_le.mp (roundTo_close 4 (bytes / total))).2
    unfold ELEPHANT_SHARE at h
    have hshare : (1 / 4 - 1 / 20000 : Rat) ≤ bytes / total := by linarith
    exact ⟨hpos, (le_div_iff₀ hpos).mp hshare⟩

/-! ## Elephants -/

section

variable {flows : List Flow}

def IsElephant (total : Rat) (entry : Conversation × FlowStats) : Bool :=
  ELEPHANT_SHARE ≤ share total entry.2.bytes

theorem isElephant_iff {total : Rat} {entry : Conversation × FlowStats} :
    IsElephant total entry = true ↔ ELEPHANT_SHARE ≤ share total entry.2.bytes := decide_eq_true_iff

theorem totalBytes_nonneg (h : ∀ f ∈ flows, 0 ≤ f.bytes) : 0 ≤ totalBytes flows := by
  apply List.sum_nonneg
  intro b hb
  obtain ⟨f, hf, rfl⟩ := List.mem_map.mp hb
  exact h f hf

theorem bytesOf_nonneg (h : ∀ f ∈ flows, 0 ≤ f.bytes) (pair : Conversation) :
    0 ≤ bytesOf flows pair := by
  apply List.sum_nonneg
  intro b hb
  obtain ⟨f, hf, rfl⟩ := List.mem_map.mp hb
  exact h f (List.mem_of_mem_filter hf)

theorem ranked_perm (flows : List Flow) : (ranked flows).Perm (byPair flows) :=
  List.perm_insertionSort _ _

theorem bytes_nonneg (h : ∀ f ∈ flows, 0 ≤ f.bytes) : ∀ e ∈ ranked flows, 0 ≤ e.2.bytes := by
  intro e he
  have hentry : ∃ stats, (e.1, stats) ∈ byPair flows ∧ stats.bytes = e.2.bytes :=
    ⟨e.2, (ranked_perm flows).mem_iff.mp he, rfl⟩
  obtain ⟨-, hbytes⟩ := (exists_mem_byPair flows e.1 e.2.bytes).mp hentry
  rw [← hbytes]
  exact bytesOf_nonneg h e.1

/-- Five conversations cannot have a quarter each, even up to rounding. -/
theorem length_elephants_le (h : ∀ f ∈ flows, 0 ≤ f.bytes) :
    ((ranked flows).filter (IsElephant (totalBytes flows))).length ≤ 4 := by
  have htotal := totalBytes_nonneg h
  have hsum : ((ranked flows).map (·.2.bytes)).sum = totalBytes flows := by
    rw [((ranked_perm flows).map _).sum_eq, sum_byPair]
  have hshares := filter_length_nsmul_le (p := IsElephant (totalBytes flows)) (·.2.bytes)
    (bytes_nonneg h) fun e _ he => (bytes_of_share htotal (isElephant_iff.mp he)).2
  rw [hsum, nsmul_eq_mul] at hshares
  by_contra hmany
  have hfive : (5 : Rat) ≤ ((ranked flows).filter (IsElephant (totalBytes flows))).length := by
    exact_mod_cast not_le.mp hmany
  have hpos : 0 < totalBytes flows := by
    obtain ⟨e, he⟩ := List.exists_mem_of_length_pos (Nat.zero_lt_of_lt (not_le.mp hmany))
    exact (bytes_of_share htotal (isElephant_iff.mp (List.of_mem_filter he))).1
  nlinarith

theorem elephantFlows_eq (h : ∀ f ∈ flows, 0 ≤ f.bytes) :
    elephantFlows flows =
      ((ranked flows).filter (IsElephant (totalBytes flows))).map (talker (totalBytes flows)) := by
  have hranked : (ranked flows).Pairwise fun a b =>
      IsElephant (totalBytes flows) b = true → IsElephant (totalBytes flows) a = true := by
    have hsorted := List.pairwise_insertionSort
      (fun a b : Conversation × FlowStats => b.2.bytes ≤ a.2.bytes) (byPair flows)
    apply hsorted.imp
    intro a b hab hb
    have hmono := share_mono (totalBytes_nonneg h) hab
    exact isElephant_iff.mpr ((isElephant_iff.mp hb).trans hmono)
  have hroom := (length_elephants_le h).trans (by decide : 4 ≤ 10)
  unfold elephantFlows topTalkers
  rw [List.filter_map, ← filter_take_of_ranked hranked hroom]
  rfl

/-- The elephants are the conversations whose rounded share is a quarter, whatever order the
records came in. -/
theorem mem_elephantFlows_iff (h : ∀ f ∈ flows, 0 ≤ f.bytes) (pair : Conversation) :
    pair ∈ (elephantFlows flows).map (·.pair) ↔
      pair ∈ flows.map (·.pair) ∧
        ELEPHANT_SHARE ≤ share (totalBytes flows) (bytesOf flows pair) := by
  rw [elephantFlows_eq h, List.map_map]
  constructor
  · intro hpair
    obtain ⟨e, he, rfl⟩ := List.mem_map.mp hpair
    have hentry : ∃ stats, (e.1, stats) ∈ byPair flows ∧ stats.bytes = e.2.bytes :=
      ⟨e.2, (ranked_perm flows).mem_iff.mp (List.mem_of_mem_filter he), rfl⟩
    obtain ⟨hmem, hbytes⟩ := (exists_mem_byPair flows e.1 e.2.bytes).mp hentry
    have hshare : ELEPHANT_SHARE ≤ share (totalBytes flows) e.2.bytes :=
      isElephant_iff.mp (List.of_mem_filter he)
    exact ⟨hmem, hbytes ▸ hshare⟩
  · intro hpair
    obtain ⟨hmem, hshare⟩ := hpair
    obtain ⟨stats, hstats, hbytes⟩ := (exists_mem_byPair flows pair _).mpr ⟨hmem, rfl⟩
    apply List.mem_map.mpr
    refine ⟨(pair, stats), List.mem_filter.mpr ⟨(ranked_perm flows).mem_iff.mpr hstats, ?_⟩, rfl⟩
    rw [← hbytes] at hshare
    exact isElephant_iff.mpr hshare

theorem mem_elephantFlows_perm {flows' : List Flow} (hperm : flows.Perm flows')
    (h : ∀ f ∈ flows, 0 ≤ f.bytes) (pair : Conversation) :
    pair ∈ (elephantFlows flows').map (·.pair) ↔ pair ∈ (elephantFlows flows).map (·.pair) := by
  have h' : ∀ f ∈ flows', 0 ≤ f.bytes := fun f hf => h f (hperm.mem_iff.mpr hf)
  have hpairs : pair ∈ flows'.map (·.pair) ↔ pair ∈ flows.map (·.pair) :=
    (hperm.map _).symm.mem_iff
  have htotal : totalBytes flows' = totalBytes flows := (hperm.map _).symm.sum_eq
  have hbytes : bytesOf flows' pair = bytesOf flows pair := ((hperm.filter _).map _).symm.sum_eq
  rw [mem_elephantFlows_iff h, mem_elephantFlows_iff h', hpairs, htotal, hbytes]

end

/-! ## The whole report -/

/-- The conversations listed under `metrics["elephant_flows"]`. -/
def elephantPairs (result : FlowResult) : List (PyVal × PyVal) :=
  ((result.metrics.value "elephant_flows").elements.toOption.getD []).filterMap fun row =>
    row.asDict.toOption.map fun row => (row.value "src", row.value "dst")

def Conversation.fields (pair : Conversation) : PyVal × PyVal := (.str pair.1, .str pair.2)

theorem elephantPairs_flowResult (flows : List Flow) :
    elephantPairs (flowResult flows) =
      ((elephantFlows flows).map (·.pair)).map Conversation.fields := by
  have hrows : elephantPairs (flowResult flows) =
      ((elephantFlows flows).map (·.row)).filterMap fun row =>
        row.asDict.toOption.map fun row => (row.value "src", row.value "dst") := rfl
  rw [hrows, List.filterMap_map, List.map_map, ← List.filterMap_eq_map]
  rfl

theorem analyzeFlows_of_read {text : PyVal → Except PyError String} {records : List Dict}
    (hne : records ≠ []) {flows : List Flow} (h : records.mapM (readFlow text) = .ok flows) :
    analyzeFlows text records = .ok (flowResult flows) := by
  unfold analyzeFlows
  rw [if_neg hne, h]
  rfl

theorem mem_elephantPairs {flows : List Flow} {pair : PyVal × PyVal} :
    pair ∈ elephantPairs (flowResult flows) ↔
      ∃ c ∈ (elephantFlows flows).map (·.pair), c.fields = pair := by
  rw [elephantPairs_flowResult]
  exact List.mem_map

theorem elephants_complete (text : PyVal → Except PyError String) {records : List Dict}
    (hne : records ≠ [])
    (hflows : ∀ rec ∈ records, ∃ f, readFlow text rec = .ok f ∧ 0 ≤ f.bytes) :
    ∃ flows result, records.mapM (readFlow text) = .ok flows ∧
      analyzeFlows text records = .ok result ∧
      result.metrics.value "total_bytes" = .num ((byPair flows).map (·.2.bytes)).sum ∧
      (∀ e ∈ byPair flows, e.2.bytes = bytesOf flows e.1) ∧
      (∀ e ∈ byPair flows, 0 < totalBytes flows → 1 / 4 * totalBytes flows ≤ e.2.bytes →
        e.1.fields ∈ elephantPairs result) ∧
      (∃ count : Nat, count ≤ 4 ∧ result.metrics.value "elephant_count" = .num count) ∧
      ∀ records', records'.Perm records → ∃ result', analyzeFlows text records' = .ok result' ∧
        ∀ pair, pair ∈ elephantPairs result' ↔ pair ∈ elephantPairs result := by
  obtain ⟨flows, hread, hnonneg⟩ := mapM_ok_forall hflows
  refine ⟨flows, flowResult flows, hread, analyzeFlows_of_read hne hread, ?_, ?_, ?_, ?_, ?_⟩
  · rw [sum_byPair]
    rfl
  · intro e he
    exact (((exists_mem_byPair flows e.1 e.2.bytes).mp ⟨e.2, he, rfl⟩).2).symm
  · intro e he htotal hquarter
    obtain ⟨hmem, hbytes⟩ := (exists_mem_byPair flows e.1 e.2.bytes).mp ⟨e.2, he, rfl⟩
    have hshare := share_of_quarter htotal hquarter
    rw [← hbytes] at hshare
    exact mem_elephantPairs.mpr
      ⟨e.1, (mem_elephantFlows_iff hnonneg e.1).mpr ⟨hmem, hshare⟩, rfl⟩
  · refine ⟨(elephantFlows flows).length, ?_, rfl⟩
    rw [elephantFlows_eq hnonneg, List.length_map]
    exact length_elephants_le hnonneg
  · intro records' hperm
    obtain ⟨flows', hread', hflowsPerm⟩ := mapM_perm hperm.symm hread
    have hne' : records' ≠ [] := fun hnil => hne (List.perm_nil.mp (hnil ▸ hperm.symm))
    refine ⟨flowResult flows', analyzeFlows_of_read hne' hread', ?_⟩
    intro pair
    rw [mem_elephantPairs, mem_elephantPairs]
    exact exists_congr fun c =>
      and_congr_left' (mem_elephantFlows_perm hflowsPerm hnonneg c)

namespace Sample

def str : PyVal → Except PyError String
  | .str s => .ok s
  | _ => .error .typeError

def flowRecord (src dst : String) (bytes packets : Nat) : Dict :=
  [("src", .str src), ("dst", .str dst), ("bytes", .num bytes), ("packets", .num packets)]

def flowRecords : List Dict :=
  [flowRecord "10.0.0.1" "1.1.1.1" 9000 10, flowRecord "10.0.0.2" "8.8.8.8" 1000 5]

def flows : List Flow :=
  [⟨"10.0.0.1", "1.1.1.1", 9000, 10⟩, ⟨"10.0.0.2", "8.8.8.8", 1000, 5⟩]

theorem flowRecords_read : flowRecords.mapM (readFlow str) = .ok flows := by decide +kernel

end Sample

theorem elephants_complete_two :
    ∃ result, analyzeFlows Sample.str Sample.flowRecords = .ok result ∧
      (.str "10.0.0.1", .str "1.1.1.1") ∈ elephantPairs result := by
  have hread := Sample.flowRecords_read
  have hnonneg : ∀ f ∈ Sample.flows, 0 ≤ f.bytes := by decide +kernel
  obtain ⟨flows, result, hflows, hresult, -, -, hheavy, -⟩ :=
    elephants_complete Sample.str (List.cons_ne_nil _ _) fun rec hrec => by
      obtain ⟨f, hf, hrec⟩ := mem_mapM_of_mem hread hrec
      exact ⟨f, hrec, hnonneg f hf⟩
  obtain rfl := Except.ok.inj (hread.symm.trans hflows)
  have hentry : (("10.0.0.1", "1.1.1.1"), ⟨9000, 10⟩) ∈ byPair Sample.flows := by decide +kernel
  exact ⟨result, hresult, hheavy _ hentry (by decide +kernel) (by decide +kernel)⟩

end NetForge.Diagnostics
