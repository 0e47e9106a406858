import NetForge.Analysis.Suppression
import NetForge.Analysis.PathSignals
import NetForge.Calculus.Hiding

/-! # What suppression loses

The engine removes an issue when any raw issue suppresses its rule, also one that
is removed itself. Suppression descends in a depth of the rules, and every issue
that suppresses others is a confirmed failure, so the removal keeps an issue at
the root of every chain, the status of the report, and its verdict on an empty
list.
-/

namespace NetForge.Analysis

open NetForge.Core Python Calculus

/-! ## The raw issues of the default rules -/

def rawIssues (results : List DiagnosticResult) (anomalies : List EvidenceAnomaly) :
    List DiagnosedIssue :=
  anomalyIssues anomalies ++ DEFAULT_RULES.filterMap (·.issue? ⟨results⟩)

def RuleFires (results : List DiagnosticResult) : Prop :=
  ∃ rule ∈ DEFAULT_RULES, ∃ issue, rule.evaluate ⟨results⟩ = .ok (some issue)

def RuleId.depth : RuleId → ℕ
  | .noDefaultGateway | .gatewayUnreachable | .activePacketDrops | .highHopLoss => 1
  | .gatewayHealthyWanOutage | .totalInternetOutage => 2
  | .dnsFailIpHealthy | .dnsTimeout => 3
  | _ => 0

theorem RuleId.depth_lt_of_suppresses {id other : RuleId} (h : other ∈ id.suppresses) :
    id.depth < other.depth := by
  cases id <;> simp only [suppresses, List.mem_cons, List.not_mem_nil, or_false] at h
  all_goals
    rcases h with rfl | rfl | rfl | rfl <;> decide

theorem mem_rawIssues {results : List DiagnosticResult} {anomalies : List EvidenceAnomaly}
    {issue : DiagnosedIssue} :
    issue ∈ rawIssues results anomalies ↔
      issue ∈ anomalyIssues anomalies ∨
        ∃ rule ∈ DEFAULT_RULES, rule.evaluate ⟨results⟩ = .ok (some issue) := by
  simp only [rawIssues, List.mem_append, List.mem_filterMap, DiagnosticRule.issue?_eq_some]

section Raw

variable (results : List DiagnosticResult) (anomalies : List EvidenceAnomaly)

theorem depth_of_raw :
    ∀ a ∈ rawIssues results anomalies, ∀ k ∈ a.suppressedRules, a.ruleId.depth < k.depth := by
  intro a ha k hk
  rcases mem_rawIssues.mp ha with hanomaly | ⟨rule, hrule, heval⟩
  · rw [(mem_anomalyIssues hanomaly).2] at hk
    exact absurd hk List.not_mem_nil
  · obtain ⟨hid, hsuppressed⟩ := (emits_of_mem ⟨results⟩ hrule a heval).isOf
    rw [hsuppressed] at hk
    rw [hid]
    exact RuleId.depth_lt_of_suppresses hk

theorem confirmed_of_raw :
    ∀ a ∈ rawIssues results anomalies, a.suppressedRules ≠ [] → a.isConfirmedFailure = true := by
  intro a ha hne
  rcases mem_rawIssues.mp ha with hanomaly | ⟨rule, hrule, heval⟩
  · exact absurd (mem_anomalyIssues hanomaly).2 hne
  · have hconforms := emits_of_mem ⟨results⟩ hrule a heval
    rw [hconforms.isOf.2] at hne
    exact hconforms.confirmed hne

theorem not_minor_of_raw :
    ∀ a ∈ rawIssues results anomalies, a.suppressedRules ≠ [] → a.isMinor = false := by
  intro a ha hne
  have hconfirmed := confirmed_of_raw results anomalies a ha hne
  cases hminor : a.isMinor with
  | false => rfl
  | true =>
      rw [DiagnosedIssue.not_confirmed_of_minor hminor] at hconfirmed
      cases hconfirmed

theorem mem_activeIssues_iff_visible {raw : List DiagnosedIssue} {issue : DiagnosedIssue} :
    issue ∈ activeIssues raw ↔
      issue ∈ visible DiagnosedIssue.ruleId DiagnosedIssue.suppressedRules raw := by
  rw [mem_activeIssues, mem_visible]

/-- What all suppressing issues have is found in the report if it is found at all. -/
theorem exists_active_iff {P : DiagnosedIssue → Prop}
    (hP : ∀ a ∈ rawIssues results anomalies, a.suppressedRules ≠ [] → P a) :
    (∃ a ∈ activeIssues (rawIssues results anomalies), P a) ↔
      ∃ a ∈ rawIssues results anomalies, P a := by
  simp only [mem_activeIssues_iff_visible]
  exact exists_visible_iff (depth_of_raw results anomalies) hP

theorem exists_major_iff :
    (∃ a ∈ rawIssues results anomalies, a.isMinor = false) ↔ RuleFires results := by
  constructor
  · rintro ⟨a, ha, hmajor⟩
    rcases mem_rawIssues.mp ha with hanomaly | ⟨rule, hrule, heval⟩
    · rw [(mem_anomalyIssues hanomaly).1] at hmajor
      cases hmajor
    · exact ⟨rule, hrule, a, heval⟩
  · rintro ⟨rule, hrule, a, heval⟩
    exact ⟨a, mem_rawIssues.mpr (.inr ⟨rule, hrule, heval⟩),
      (emits_of_mem ⟨results⟩ hrule a heval).not_minor⟩

end Raw

/-! ## Reports -/

section Report

variable {results : List DiagnosticResult} {targetHost : String} {report : DiagnosisReport}
  (h : analyze DEFAULT_RULES results targetHost = .ok report)

include h

theorem report_of_raw :
    ∃ anomalies, EvidenceCorrelator.correlate ⟨results⟩ = .ok anomalies ∧
      report.issues = activeIssues (rawIssues results anomalies) ∧
      report.status = reportStatus results report.issues := analyze_ok h

end Report

abbrev Suppresses (raw : List DiagnosedIssue) : DiagnosedIssue → DiagnosedIssue → Prop :=
  Hides DiagnosedIssue.ruleId DiagnosedIssue.suppressedRules raw

/-- Every dropped issue hangs on a chain of suppressions from an issue of the
report, and the report's status is the one of all raw issues. -/
theorem analyze_suppression_sound {results : List DiagnosticResult} {targetHost : String}
    {report : DiagnosisReport} (h : analyze DEFAULT_RULES results targetHost = .ok report) :
    ∃ anomalies, EvidenceCorrelator.correlate ⟨results⟩ = .ok anomalies ∧
      (∀ issue ∈ report.issues, issue ∈ rawIssues results anomalies) ∧
      (∀ issue ∈ rawIssues results anomalies, issue ∉ report.issues →
        ∃ top ∈ report.issues,
          Relation.TransGen (Suppresses (rawIssues results anomalies)) top issue) ∧
      (RuleFires results → report.issues ≠ []) ∧
      report.status = reportStatus results (rawIssues results anomalies) := by
  obtain ⟨anomalies, hanomalies, hissues, hstatus⟩ := report_of_raw h
  refine ⟨anomalies, hanomalies, ?_, ?_, ?_, ?_⟩
  · intro issue hissue
    rw [hissues] at hissue
    exact (mem_activeIssues.mp hissue).1
  · intro issue hraw hdropped
    simp only [hissues, mem_activeIssues_iff_visible] at hdropped ⊢
    exact reached_from_visible (depth_of_raw results anomalies) hraw hdropped
  · intro hfires hnil
    have hmajor := (exists_major_iff results anomalies).mpr hfires
    obtain ⟨a, ha, _⟩ :=
      (exists_active_iff results anomalies (not_minor_of_raw results anomalies)).mpr hmajor
    rw [← hissues, hnil] at ha
    exact List.not_mem_nil ha
  · rw [hstatus, hissues]
    exact reportStatus_congr
      (exists_active_iff results anomalies (confirmed_of_raw results anomalies))
      (exists_active_iff results anomalies (not_minor_of_raw results anomalies))

namespace Sample

def unplugged : List DiagnosticResult :=
  [probe .interface (some "eth0") [("is_up", .bool false)],
    probe .routing none [("default_gateway", .str "192.168.1.1")],
    { probe .gateway (some "192.168.1.1") [("packet_loss_percent", .num 100)] with
      status := .failed },
    { probe .dns (some "google.com") [] with status := .failed }]

end Sample

theorem analyze_suppression_sound_unplugged :
    ∃ report, analyze DEFAULT_RULES Sample.unplugged "google.com" = .ok report ∧
      ∃ anomalies, EvidenceCorrelator.correlate ⟨Sample.unplugged⟩ = .ok anomalies ∧
        (∀ issue ∈ report.issues, issue ∈ rawIssues Sample.unplugged anomalies) ∧
        (∀ issue ∈ rawIssues Sample.unplugged anomalies, issue ∉ report.issues →
          ∃ top ∈ report.issues,
            Relation.TransGen (Suppresses (rawIssues Sample.unplugged anomalies)) top issue) ∧
        (RuleFires Sample.unplugged → report.issues ≠ []) ∧
        report.status = reportStatus Sample.unplugged (rawIssues Sample.unplugged anomalies) := by
  obtain ⟨report, hreport⟩ := ok_of_isOk (x := analyze DEFAULT_RULES Sample.unplugged "google.com")
    (by decide +kernel)
  exact ⟨report, hreport, analyze_suppression_sound hreport⟩

end NetForge.Analysis
