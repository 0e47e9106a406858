import NetForge.Analysis.Verdicts
import NetForge.Python.Lines

/-! # Host interfaces

`inspect_interfaces` of `diagnostics/host/interface.py`, and what the rule engine makes of
its results. The collector takes a name that starts with `lo` for a loopback; the analysis
context only knows names that contain `loopback`.
-/

namespace NetForge.Diagnostics

open NetForge.Core NetForge.Python NetForge.Analysis

inductive AddressFamily
  | inet | inet6 | link | other
  deriving DecidableEq, Repr

structure InterfaceAddress where
  family : AddressFamily
  address : String
  deriving DecidableEq

structure InterfaceStats where
  isUp : Bool
  speed : Nat
  mtu : Nat
  deriving DecidableEq

/-- The collector's test for an interface that can carry traffic. -/
def isLoopback (name : String) : Bool :=
  containsText "loopback" (lower name) || startsWithText "lo" name

def hasActiveInterface (stats : List (String × InterfaceStats)) : Bool :=
  stats.any fun s => s.2.isUp && !isLoopback s.1

def familyAddresses (family : AddressFamily) (addresses : List InterfaceAddress) : List String :=
  (addresses.filter (·.family = family)).map (·.address)

def interfaceResult (active : Bool) (name : String) (addresses : List InterfaceAddress)
    (stats : Option InterfaceStats) : DiagnosticResult :=
  let isUp := stats.any (·.isUp)
  { module := .interface
    status := if isUp then .healthy else if active then .healthy else .failed
    summary :=
      if isUp then s!"Interface {name} is operational"
      else if active then s!"Interface {name} is inactive/disconnected"
      else s!"Interface {name} is down (no active network)"
    target := some name
    metrics :=
      [("is_up", .bool isUp),
        ("speed_mbps", .num ((stats.map (·.speed)).getD 0)),
        ("mtu", ((stats.map fun s => PyVal.num s.mtu)).getD .none),
        ("ipv4", .list ((familyAddresses .inet addresses).map .str)),
        ("ipv6", .list ((familyAddresses .inet6 addresses).map .str)),
        ("mac", (((familyAddresses .link addresses).getLast?).map PyVal.str).getD .none)]
    errors := [] }

def inspectInterfaces (addresses : List (String × List InterfaceAddress))
    (stats : List (String × InterfaceStats)) : List DiagnosticResult :=
  addresses.map fun a => interfaceResult (hasActiveInterface stats) a.1 a.2 (stats.lookup a.1)

/-! ## Tables -/

structure Interface where
  name : String
  addresses : List InterfaceAddress
  stats : InterfaceStats
  deriving DecidableEq

structure InterfaceTable where
  rows : List Interface
  names_nodup : (rows.map (·.name)).Nodup

namespace InterfaceTable

variable (table : InterfaceTable)

def addresses : List (String × List InterfaceAddress) :=
  table.rows.map fun i => (i.name, i.addresses)

def stats : List (String × InterfaceStats) := table.rows.map fun i => (i.name, i.stats)

def inspect : List DiagnosticResult := inspectInterfaces table.addresses table.stats

def NoneActive : Prop :=
  table.rows ≠ [] ∧ ∀ i ∈ table.rows, i.stats.isUp = true → isLoopback i.name = true

theorem lookup_stats {rows : List Interface} (hnodup : (rows.map (·.name)).Nodup) {i : Interface}
    (hi : i ∈ rows) : (rows.map fun i => (i.name, i.stats)).lookup i.name = some i.stats := by
  induction rows with
  | nil => cases hi
  | cons row rows ih =>
      obtain ⟨hfresh, hrest⟩ := List.nodup_cons.mp hnodup
      rw [List.map_cons, List.lookup_cons]
      rcases List.mem_cons.mp hi with rfl | hi
      · rw [beq_self_eq_true]
      · have hne : (i.name == row.name) = false := by
          rw [beq_eq_false_iff_ne]
          intro heq
          exact hfresh (List.mem_map.mpr ⟨i, hi, heq⟩)
        rw [hne]
        exact ih hrest hi

theorem hasActive_eq_false_iff :
    Diagnostics.hasActiveInterface table.stats = false ↔
      ∀ i ∈ table.rows, i.stats.isUp = true → isLoopback i.name = true := by
  unfold Diagnostics.hasActiveInterface stats
  rw [List.any_map, List.any_eq_false]
  simp

theorem inspect_eq :
    table.inspect = table.rows.map fun i =>
      interfaceResult (Diagnostics.hasActiveInterface table.stats) i.name i.addresses
        (some i.stats) := by
  unfold inspect inspectInterfaces addresses
  rw [List.map_map]
  apply List.map_congr_left
  intro i hi
  have hlookup : table.stats.lookup i.name = some i.stats := lookup_stats table.names_nodup hi
  show interfaceResult _ i.name i.addresses (table.stats.lookup i.name) = _
  rw [hlookup]

theorem module_eq {r : DiagnosticResult} (hr : r ∈ table.inspect) : r.module = .interface := by
  rw [inspect_eq] at hr
  obtain ⟨i, -, rfl⟩ := List.mem_map.mp hr
  rfl

theorem failed_iff {i : Interface} (hi : i ∈ table.rows) (hdown : i.stats.isUp = false) :
    (interfaceResult (Diagnostics.hasActiveInterface table.stats) i.name i.addresses
        (some i.stats)).status = .failed ↔ table.NoneActive := by
  have hne : table.rows ≠ [] := List.ne_nil_of_mem hi
  unfold NoneActive
  rw [← hasActive_eq_false_iff, and_iff_right hne]
  show (if i.stats.isUp then DiagnosticStatus.healthy
    else if Diagnostics.hasActiveInterface table.stats then .healthy else .failed) = .failed ↔ _
  rw [hdown]
  cases Diagnostics.hasActiveInterface table.stats <;> simp

end InterfaceTable

/-! ## The report -/

theorem suppresses_allInterfacesDown (id : RuleId) : .allInterfacesDown ∉ id.suppresses := by
  cases id <;> simp [RuleId.suppresses]

/-- The rule is in a report exactly when the context finds every interface down: nothing
suppresses it. -/
theorem allInterfacesDown_reported_iff {results : List DiagnosticResult} {targetHost : String}
    {report : DiagnosisReport} (h : analyze DEFAULT_RULES results targetHost = .ok report) :
    (∃ issue ∈ report.issues, issue.ruleId = .allInterfacesDown) ↔
      AnalysisContext.allInterfacesDown ⟨results⟩ = true := by
  obtain ⟨anomalies, _, hissues, _⟩ := report_of_raw h
  have hmem : (⟨.allInterfacesDown, Rules.allInterfacesDown⟩ : DiagnosticRule) ∈
      DEFAULT_RULES := by
    simp [DEFAULT_RULES]
  rw [hissues]
  constructor
  · intro hreported
    obtain ⟨issue, hissue, hid⟩ := hreported
    have hraw := (mem_activeIssues.mp hissue).1
    have heval : Rules.allInterfacesDown ⟨results⟩ = .ok (some issue) :=
      evaluate_of_raw hmem hraw hid (by simp)
    by_contra hnot
    unfold Rules.allInterfacesDown at heval
    rw [if_pos (by simpa using hnot)] at heval
    cases heval
  · intro hdown
    have heval : ∃ issue, Rules.allInterfacesDown ⟨results⟩ = .ok (some issue) ∧
        issue.ruleId = .allInterfacesDown := by
      unfold Rules.allInterfacesDown
      rw [if_neg (by simp [hdown])]
      exact ⟨_, rfl, rfl⟩
    obtain ⟨issue, heval, hid⟩ := heval
    refine ⟨issue, mem_activeIssues.mpr ⟨mem_rawIssues.mpr (.inr ⟨_, hmem, heval⟩), ?_⟩, hid⟩
    intro other hother hsuppressed
    rw [hid] at hsuppressed
    rcases mem_rawIssues.mp hother with ha | ⟨rule, hrule, hfires⟩
    · rw [(mem_anomalyIssues ha).2] at hsuppressed
      exact List.not_mem_nil hsuppressed
    · rw [(emits_of_mem ⟨results⟩ hrule other hfires).isOf.2] at hsuppressed
      exact suppresses_allInterfacesDown _ hsuppressed

section

open AnalysisContext

variable {results : List DiagnosticResult} (h : ∀ r ∈ results, r.module = .interface)

include h

theorem byModule_of_interfaces {m : Module} (hm : m ≠ .interface) : byModule ⟨results⟩ m = [] := by
  apply List.filter_eq_nil_iff.mpr
  intro r hr hmodule
  exact hm ((of_decide_eq_true hmodule).symm.trans (h r hr))

theorem metricValues_of_interfaces {m : Module} (hm : m ≠ .interface) (key : String) :
    metricValues ⟨results⟩ m key = [] := by
  rw [metricValues, byModule_of_interfaces h hm]
  rfl

/-- The results of the interface collector are analyzed without an error. -/
theorem analyze_of_interfaces (targetHost : String) :
    ∃ report, analyze DEFAULT_RULES results targetHost = .ok report := by
  have hloss : EvidenceCorrelator.packetLoss ⟨results⟩ = .ok 100 := by
    rw [EvidenceCorrelator.packetLoss, metricValues_of_interfaces h (by decide)]
    rfl
  have hhops : EvidenceCorrelator.hopLossAnomaly ⟨results⟩ = .ok [] := by
    have hpath : getPathHops ⟨results⟩ = [] := by
      rw [getPathHops, firstByModule, byModule_of_interfaces h (by decide)]
      rfl
    rw [EvidenceCorrelator.hopLossAnomaly, hloss, hpath]
    rfl
  have hlatency : EvidenceCorrelator.latencyAnomaly ⟨results⟩ = .ok [] := by
    have hnone : results.find? (fun r => r.module = .latency ∨ r.module = .trafficJitter) =
        none := by
      apply List.find?_eq_none.mpr
      intro r hr hmodule
      rw [h r hr] at hmodule
      simp at hmodule
    rw [EvidenceCorrelator.latencyAnomaly, hloss, ok_bind, hnone]
    rfl
  have hcorrelate : ∃ anomalies, EvidenceCorrelator.correlate ⟨results⟩ = .ok anomalies := by
    rw [EvidenceCorrelator.correlate, hhops, hlatency]
    exact ⟨_, rfl⟩
  obtain ⟨anomalies, hcorrelate⟩ := hcorrelate
  have hip : isIpConnectivityWorking ⟨results⟩ = .ok false := by
    rw [isIpConnectivityWorking, byModule_of_interfaces h (by decide),
      metricValues_of_interfaces h (by decide)]
    rfl
  exact analyze_returns DEFAULT_RULES targetHost hcorrelate hip

end

namespace InterfaceTable

variable (table : InterfaceTable)

theorem allInterfacesDown_iff :
    AnalysisContext.allInterfacesDown ⟨table.inspect⟩ = true ↔
      table.rows ≠ [] ∧ ∀ i ∈ table.rows, i.stats.isUp = true →
        containsText "loopback" (lower i.name) = true := by
  have hall : AnalysisContext.byModule ⟨table.inspect⟩ .interface = table.inspect := by
    apply List.filter_eq_self.mpr
    intro r hr
    exact decide_eq_true (table.module_eq hr)
  have hactive : ∀ i ∈ table.rows, AnalysisContext.isActiveInterface
      (interfaceResult (Diagnostics.hasActiveInterface table.stats) i.name i.addresses
        (some i.stats)) = (i.stats.isUp && !containsText "loopback" (lower i.name)) :=
    fun i _ => rfl
  unfold AnalysisContext.allInterfacesDown AnalysisContext.hasActiveInterface
  rw [hall, inspect_eq, List.any_map, Bool.and_eq_true, Bool.not_eq_true', Bool.not_eq_true',
    List.any_eq_false, List.isEmpty_eq_false_iff, ne_eq, List.map_eq_nil_iff]
  apply and_congr_right
  intro _
  constructor
  · intro hnone i hi hup
    have hi' := hnone i hi
    rw [Function.comp_apply, hactive i hi, hup] at hi'
    simpa using hi'
  · intro hloopback i hi
    rw [Function.comp_apply, hactive i hi]
    cases hup : i.stats.isUp with
    | false => simp
    | true => simp [hloopback i hi hup]

/-- The rule engine reports every interface down exactly when none is active, and that is when
the collector marks the down ones failed. -/
structure Agrees (report : DiagnosisReport) : Prop where
  reported : (∃ issue ∈ report.issues, issue.ruleId = .allInterfacesDown) ↔ table.NoneActive
  marked : ∀ r ∈ table.inspect, (r.metrics.value "is_up").truthy = false →
    (r.status = .failed ↔ table.NoneActive)

/-- An interface is up that the collector takes for a loopback and the context does not. -/
def OddLoopbackUp : Prop :=
  ∃ i ∈ table.rows, i.stats.isUp = true ∧ startsWithText "lo" i.name = true ∧
    containsText "loopback" (lower i.name) = false

def SomeActive : Prop := ∃ i ∈ table.rows, i.stats.isUp = true ∧ isLoopback i.name = false

theorem marked_failed :
    ∀ r ∈ table.inspect, (r.metrics.value "is_up").truthy = false →
      (r.status = .failed ↔ table.NoneActive) := by
  intro r hr hdown
  rw [inspect_eq] at hr
  obtain ⟨i, hi, rfl⟩ := List.mem_map.mp hr
  exact table.failed_iff hi hdown

/-- The two tests give one answer unless an odd loopback is all that is up. -/
theorem tests_agree_iff :
    ((table.rows ≠ [] ∧ ∀ i ∈ table.rows, i.stats.isUp = true →
        containsText "loopback" (lower i.name) = true) ↔ table.NoneActive) ↔
      (table.OddLoopbackUp → table.SomeActive) := by
  unfold NoneActive OddLoopbackUp SomeActive isLoopback
  constructor
  · intro hiff ⟨i, hi, hup, hlo, hodd⟩
    by_contra hnone
    have hloopbacks : ∀ i ∈ table.rows, i.stats.isUp = true →
        (containsText "loopback" (lower i.name) || startsWithText "lo" i.name) = true := by
      intro j hj hjup
      by_contra hnot
      exact hnone ⟨j, hj, hjup, Bool.eq_false_iff.mpr hnot⟩
    have hcontains := (hiff.mpr ⟨List.ne_nil_of_mem hi, hloopbacks⟩).2 i hi hup
    rw [hodd] at hcontains
    cases hcontains
  · intro himp
    apply and_congr_right
    intro _
    constructor
    · intro hall i hi hup
      rw [hall i hi hup, Bool.true_or]
    · intro hall i hi hup
      by_contra hnot
      have hodd : containsText "loopback" (lower i.name) = false := Bool.eq_false_iff.mpr hnot
      have hlo : startsWithText "lo" i.name = true := by
        have hor := hall i hi hup
        rwa [hodd, Bool.false_or] at hor
      obtain ⟨j, hj, hjup, hjactive⟩ := himp ⟨i, hi, hup, hlo, hodd⟩
      rw [hall j hj hjup] at hjactive
      cases hjactive

/-- Every table is analyzed, and the collector and the rule engine agree on it exactly when an
odd loopback is not all that is up. -/
theorem analyze_agrees_iff (targetHost : String) :
    ∃ report, analyze DEFAULT_RULES table.inspect targetHost = .ok report ∧
      (table.Agrees report ↔ (table.OddLoopbackUp → table.SomeActive)) := by
  obtain ⟨report, hreport⟩ :=
    analyze_of_interfaces (fun r hr => table.module_eq hr) targetHost
  refine ⟨report, hreport, ?_⟩
  have hreported := (allInterfacesDown_reported_iff hreport).trans table.allInterfacesDown_iff
  rw [← tests_agree_iff, ← hreported]
  constructor
  · intro hagrees
    exact hagrees.reported
  · intro hiff
    exact ⟨hiff, table.marked_failed⟩

end InterfaceTable

namespace Sample

def unpluggedLinux : InterfaceTable where
  rows := [⟨"lo", [⟨.inet, "127.0.0.1"⟩], ⟨true, 0, 65536⟩⟩, ⟨"eth0", [], ⟨false, 0, 1500⟩⟩]
  names_nodup := by decide

end Sample

/-- With `lo` up and the network card down, the card is failed and no rule says so. -/
theorem loopback_hides_outage :
    (¬ ∀ (table : InterfaceTable) (targetHost : String) (report : DiagnosisReport),
        analyze DEFAULT_RULES table.inspect targetHost = .ok report → table.Agrees report) ∧
      Sample.unpluggedLinux.inspect.map (·.status) = [.healthy, .failed] ∧
      (analyze DEFAULT_RULES Sample.unpluggedLinux.inspect "google.com").map
          (fun report => report.issues.map (·.ruleId)) = .ok [.noDefaultGateway] := by
  have hstatus : Sample.unpluggedLinux.inspect.map (·.status) = [.healthy, .failed] := by
    decide +kernel
  have hissues : (analyze DEFAULT_RULES Sample.unpluggedLinux.inspect "google.com").map
      (fun report => report.issues.map (·.ruleId)) = .ok [.noDefaultGateway] := by
    decide +kernel
  refine ⟨?_, hstatus, hissues⟩
  intro hclaim
  obtain ⟨report, hreport⟩ := ok_of_isOk
    (x := analyze DEFAULT_RULES Sample.unpluggedLinux.inspect "google.com") (by decide +kernel)
  have hagrees := hclaim Sample.unpluggedLinux "google.com" report hreport
  have hnone : Sample.unpluggedLinux.NoneActive := by
    constructor
    · simp [Sample.unpluggedLinux]
    · decide
  obtain ⟨issue, hissue, hid⟩ := hagrees.reported.mpr hnone
  rw [hreport] at hissues
  have hids : report.issues.map (·.ruleId) = [.noDefaultGateway] := Except.ok.inj hissues
  have hmem : issue.ruleId ∈ report.issues.map (·.ruleId) := List.mem_map_of_mem hissue
  rw [hids, hid] at hmem
  exact absurd hmem (by decide)

end NetForge.Diagnostics
