import NetForge.Analysis.Subsumption

/-! # What a report says of outages

Of the four outage root causes a report names at most one, unless the gateway's
own probe is missing.
-/

namespace NetForge.Analysis

open NetForge.Core Python AnalysisContext

/-! ## Outage root causes -/

def RuleId.isOutageCause : RuleId → Bool
  | .noDefaultGateway | .gatewayUnreachable | .gatewayHealthyWanOutage | .totalInternetOutage =>
      true
  | _ => false

/-- The report names at most one outage root cause, and the one that calls the
gateway reachable only after the gateway's probe succeeded. -/
structure OutageCauseClear (results : List DiagnosticResult) (report : DiagnosisReport) : Prop where
  unique : (report.issues.filter (·.ruleId.isOutageCause)).length ≤ 1
  reachable : ∀ issue ∈ report.issues, issue.ruleId = .gatewayHealthyWanOutage →
    isGatewayReachable ⟨results⟩ = .ok (some true)

/-- No public address answers and all pings of some target are lost. -/
def LostOutside (ctx : AnalysisContext) : Prop :=
  ctx.isIpConnectivityWorking = .ok false ∧
    ∃ loss, ctx.getMaxPacketLoss = .ok loss ∧ loss.isAtLeast 99 = .ok true

/-- A configured gateway without an answer either way, behind interfaces that are
not all down, while everything outside is lost. -/
def UnprobedOutage (ctx : AnalysisContext) : Prop :=
  ctx.allInterfacesDown = false ∧ ctx.hasDefaultGateway = true ∧
    ctx.isGatewayReachable = .ok none ∧ LostOutside ctx

section Fires

variable (ctx : AnalysisContext)

/-- A rule fires behind a query that returns, on what it returned. -/
theorem fires_bind_iff {α : Type} {query : Except PyError α} {rest : α → Finding} :
    (∃ issue, (query >>= rest) = .ok (some issue)) ↔
      ∃ a, query = .ok a ∧ ∃ issue, rest a = .ok (some issue) := by
  cases query with
  | error e => simp [bind, Except.bind]
  | ok a => simp [ok_bind]

theorem noDefaultGateway_fires_iff :
    (∃ issue, Rules.noDefaultGateway ctx = .ok (some issue)) ↔
      ctx.allInterfacesDown = false ∧ ctx.hasDefaultGateway = false := by
  unfold Rules.noDefaultGateway
  cases hdown : ctx.allInterfacesDown <;> cases hgw : ctx.hasDefaultGateway <;> simp

theorem gatewayUnreachable_fires_iff :
    (∃ issue, Rules.gatewayUnreachable ctx = .ok (some issue)) ↔
      ctx.hasDefaultGateway = true ∧ ctx.isGatewayReachable = .ok (some false) := by
  unfold Rules.gatewayUnreachable
  cases hgw : ctx.hasDefaultGateway with
  | false => simp
  | true =>
      simp only [Bool.not_true, Bool.false_eq_true, if_false, fires_bind_iff, true_and]
      constructor
      · rintro ⟨reachable, hr, h⟩
        rcases reachable with - | - | -
        · simp [pure, Except.pure] at h
        · exact hr
        · simp [pure, Except.pure] at h
      · intro hr
        exact ⟨some false, hr, by simp [pure, Except.pure]⟩

/-- The tail of the WAN rule: both queries are asked before either is used. -/
theorem askedOutside_iff {issue : DiagnosedIssue} :
    (∃ found, (do
        let ipWorking ← ctx.isIpConnectivityWorking
        let maxLoss ← ctx.getMaxPacketLoss
        if ipWorking then return none
        else if ← maxLoss.isAtLeast 99 then return some issue
        else return none : Finding) = .ok (some found)) ↔ LostOutside ctx := by
  unfold LostOutside
  rw [fires_bind_iff]
  constructor
  · rintro ⟨ipWorking, hip, h⟩
    obtain ⟨loss, hloss, h⟩ := fires_bind_iff.mp h
    cases ipWorking with
    | true => simp [pure, Except.pure] at h
    | false =>
        obtain ⟨lost, hlost, h⟩ := fires_bind_iff.mp h
        cases lost with
        | true => exact ⟨hip, loss, hloss, hlost⟩
        | false => simp [pure, Except.pure] at h
  · rintro ⟨hip, loss, hloss, hlost⟩
    refine ⟨false, hip, ?_⟩
    simp [hloss, hlost, ok_bind, pure, Except.pure]

theorem gatewayHealthyWanOutage_fires_iff :
    (∃ issue, Rules.gatewayHealthyWanOutage ctx = .ok (some issue)) ↔
      ctx.hasDefaultGateway = true ∧
        (ctx.isGatewayReachable = .ok (some true) ∨
          ctx.isGatewayReachable = .ok none ∧ ctx.allInterfacesDown = false) ∧
        LostOutside ctx := by
  unfold Rules.gatewayHealthyWanOutage
  cases hgw : ctx.hasDefaultGateway with
  | false => simp
  | true =>
      cases hr : ctx.isGatewayReachable with
      | error e => simp [bind, Except.bind]
      | ok reachable =>
          rcases reachable with - | - | -
          · cases hdown : ctx.allInterfacesDown with
            | true => simp [ok_bind, pure, Except.pure]
            | false => simpa [ok_bind] using askedOutside_iff ctx
          · simp [ok_bind, pure, Except.pure]
          · simpa [ok_bind] using askedOutside_iff ctx

theorem isBelow_eq_false_iff (v : PyVal) (bound : Rat) :
    v.isBelow bound = .ok false ↔ v.isAtLeast bound = .ok true := by
  unfold PyVal.isAtLeast PyVal.isBelow
  cases v.toNumber with
  | error e => simp [bind, Except.bind]
  | ok q => simp [bind, Except.bind, pure, Except.pure]

theorem totalInternetOutage_fires_iff :
    (∃ issue, Rules.totalInternetOutage ctx = .ok (some issue)) ↔ UnprobedOutage ctx := by
  unfold Rules.totalInternetOutage
  constructor
  · intro h
    by_cases hskip : ctx.allInterfacesDown = true ∨ (!ctx.hasDefaultGateway) = true
    · rw [if_pos hskip] at h
      simp at h
    · rw [if_neg hskip] at h
      obtain ⟨hup, hgw⟩ := not_or.mp hskip
      obtain ⟨reachable, hr, h⟩ := fires_bind_iff.mp h
      by_cases hlost : reachable = some false
      · simp [hlost, pure, Except.pure] at h
      · rw [if_neg hlost] at h
        obtain ⟨ipWorking, hip, h⟩ := fires_bind_iff.mp h
        cases ipWorking with
        | true => simp [pure, Except.pure] at h
        | false =>
            obtain ⟨loss, hloss, h⟩ := fires_bind_iff.mp h
            obtain ⟨below, hbelow, h⟩ := fires_bind_iff.mp h
            cases below with
            | true => simp [pure, Except.pure] at h
            | false =>
                have hnone : reachable = none := by
                  rcases reachable with - | - | -
                  · rfl
                  · exact absurd rfl hlost
                  · simp [pure, Except.pure] at h
                exact ⟨by simpa using hup, by simpa using hgw, hnone ▸ hr, hip, loss, hloss,
                  (isBelow_eq_false_iff loss 99).mp hbelow⟩
  · rintro ⟨hup, hgw, hr, hip, loss, hloss, hlost⟩
    have hbelow := (isBelow_eq_false_iff loss 99).mpr hlost
    simp [hup, hgw, hr, hip, hloss, hbelow, ok_bind, pure, Except.pure]

end Fires

/-! ## At most one cause -/

theorem evaluate_of_raw {results : List DiagnosticResult} {anomalies : List EvidenceAnomaly}
    {issue : DiagnosedIssue} {r : DiagnosticRule} (hrule : r ∈ DEFAULT_RULES)
    (hissue : issue ∈ rawIssues results anomalies) (hid : issue.ruleId = r.ruleId)
    (hanomaly : ∀ i, r.ruleId ≠ .evidenceAnomaly i) :
    r.evaluate ⟨results⟩ = .ok (some issue) := by
  rcases mem_rawIssues.mp hissue with ha | ⟨rule, hrule', heval⟩
  · obtain ⟨i, hi, rfl⟩ := List.mem_mapIdx.mp ha
    exact absurd hid.symm (hanomaly (i + 1))
  · have hid' := (emits_of_mem ⟨results⟩ hrule' issue heval).isOf.1
    have heq : rule = r := rule_eq_of_ruleId hrule' hrule (hid'.symm.trans hid)
    rw [← heq]
    exact heval

theorem filter_filterMap_eq {α β : Type} {f : α → Option β} {p : β → Bool} {q : α → Bool}
    {xs : List α} (h : ∀ x ∈ xs, ∀ y, f x = some y → p y = q x) :
    (xs.filterMap f).filter p = (xs.filter q).filterMap f := by
  induction xs with
  | nil => rfl
  | cons x xs ih =>
      have hrest := ih fun z hz => h z (List.mem_cons_of_mem _ hz)
      cases hx : f x with
      | none =>
          by_cases hq : q x = true <;> simp [hx, hq, hrest]
      | some y =>
          have hy : p y = q x := h x List.mem_cons_self y hx
          by_cases hq : q x = true <;> simp [hx, hy, hq, hrest]

theorem issue?_eq_none {ctx : AnalysisContext} {rule : DiagnosticRule}
    (hsilent : ¬ ∃ issue, rule.evaluate ctx = .ok (some issue)) : rule.issue? ctx = none := by
  cases hissue : rule.issue? ctx with
  | none => rfl
  | some issue => exact absurd ⟨issue, DiagnosticRule.issue?_eq_some.mp hissue⟩ hsilent

def outageRules : List DiagnosticRule :=
  [⟨.noDefaultGateway, Rules.noDefaultGateway⟩, ⟨.gatewayUnreachable, Rules.gatewayUnreachable⟩,
    ⟨.gatewayHealthyWanOutage, Rules.gatewayHealthyWanOutage⟩,
    ⟨.totalInternetOutage, Rules.totalInternetOutage⟩]

theorem outageIssues_length_le {ctx : AnalysisContext} (hprobed : ¬ UnprobedOutage ctx) :
    (outageRules.filterMap (·.issue? ctx)).length ≤ 1 := by
  have htotal :
      DiagnosticRule.issue? ctx ⟨.totalInternetOutage, Rules.totalInternetOutage⟩ = none :=
    issue?_eq_none fun hfires => hprobed ((totalInternetOutage_fires_iff ctx).mp hfires)
  have hmissing : ctx.hasDefaultGateway = true →
      DiagnosticRule.issue? ctx ⟨.noDefaultGateway, Rules.noDefaultGateway⟩ = none := by
    intro hgw
    refine issue?_eq_none fun hfires => ?_
    have hnone := ((noDefaultGateway_fires_iff ctx).mp hfires).2
    rw [hgw] at hnone
    cases hnone
  have hunreachable : ctx.isGatewayReachable ≠ .ok (some false) ∨ ctx.hasDefaultGateway = false →
      DiagnosticRule.issue? ctx ⟨.gatewayUnreachable, Rules.gatewayUnreachable⟩ = none := by
    intro hor
    refine issue?_eq_none fun hfires => ?_
    obtain ⟨hgw, hlost⟩ := (gatewayUnreachable_fires_iff ctx).mp hfires
    rcases hor with hanswered | hnone
    · exact hanswered hlost
    · rw [hgw] at hnone
      cases hnone
  have hwan : ctx.isGatewayReachable = .ok (some false) ∨ ctx.hasDefaultGateway = false →
      DiagnosticRule.issue? ctx ⟨.gatewayHealthyWanOutage, Rules.gatewayHealthyWanOutage⟩ =
        none := by
    intro hor
    refine issue?_eq_none fun hfires => ?_
    obtain ⟨hgw, hreachable, -⟩ := (gatewayHealthyWanOutage_fires_iff ctx).mp hfires
    rcases hor with hlost | hnone
    · rw [hlost] at hreachable
      simp at hreachable
    · rw [hgw] at hnone
      cases hnone
  unfold outageRules
  by_cases hgw : ctx.hasDefaultGateway = true
  · by_cases hlost : ctx.isGatewayReachable = .ok (some false)
    · simp only [List.filterMap_cons, hmissing hgw, hwan (.inl hlost), htotal, List.filterMap_nil]
      split <;> simp
    · simp only [List.filterMap_cons, hmissing hgw, hunreachable (.inl hlost), htotal,
        List.filterMap_nil]
      split <;> simp
  · have hgw : ctx.hasDefaultGateway = false := by simpa using hgw
    simp only [List.filterMap_cons, hunreachable (.inr hgw), hwan (.inr hgw), htotal,
      List.filterMap_nil]
    split <;> simp

theorem outageIssues_of_raw (results : List DiagnosticResult) (anomalies : List EvidenceAnomaly) :
    (rawIssues results anomalies).filter (·.ruleId.isOutageCause) =
      outageRules.filterMap (·.issue? ⟨results⟩) := by
  have hanomalies : (anomalyIssues anomalies).filter (·.ruleId.isOutageCause) = [] := by
    refine List.filter_eq_nil_iff.mpr fun issue hissue => ?_
    obtain ⟨i, hi, rfl⟩ := List.mem_mapIdx.mp hissue
    exact Bool.false_ne_true
  have hrules : ∀ rule ∈ DEFAULT_RULES, ∀ issue, rule.issue? ⟨results⟩ = some issue →
      issue.ruleId.isOutageCause = rule.ruleId.isOutageCause := by
    intro rule hrule issue hissue
    have heval := DiagnosticRule.issue?_eq_some.mp hissue
    rw [(emits_of_mem ⟨results⟩ hrule issue heval).isOf.1]
  rw [rawIssues, List.filter_append, hanomalies, List.nil_append, filter_filterMap_eq hrules]
  rfl

theorem gatewayUnreachable_of_suppresses {results : List DiagnosticResult}
    {anomalies : List EvidenceAnomaly} {other : DiagnosedIssue}
    (hother : other ∈ rawIssues results anomalies)
    (hsuppressed : .gatewayHealthyWanOutage ∈ other.suppressedRules) :
    isGatewayReachable ⟨results⟩ = .ok (some false) := by
  rcases mem_rawIssues.mp hother with ha | ⟨rule, hrule, heval⟩
  · rw [(mem_anomalyIssues ha).2] at hsuppressed
    exact absurd hsuppressed List.not_mem_nil
  · have hof := (emits_of_mem ⟨results⟩ hrule other heval).isOf
    rw [hof.2] at hsuppressed
    have hid : rule.ruleId = .gatewayUnreachable := by
      cases hr : rule.ruleId <;> rw [hr] at hsuppressed <;> simp [RuleId.suppresses] at hsuppressed
    have hmem : (⟨.gatewayUnreachable, Rules.gatewayUnreachable⟩ : DiagnosticRule) ∈
        DEFAULT_RULES := by
      simp [DEFAULT_RULES]
    have hfires := evaluate_of_raw hmem hother (hof.1.trans hid) (by simp)
    exact ((gatewayUnreachable_fires_iff ⟨results⟩).mp ⟨other, hfires⟩).2

/-- The report is clear exactly when no outage is left to a gateway that nobody
probed. -/
theorem analyze_outageCauseClear_iff {results : List DiagnosticResult} {targetHost : String}
    {report : DiagnosisReport} (h : analyze DEFAULT_RULES results targetHost = .ok report) :
    OutageCauseClear results report ↔ ¬ UnprobedOutage ⟨results⟩ := by
  obtain ⟨anomalies, _, hissues, _⟩ := report_of_raw h
  have hwan := gatewayHealthyWanOutage_fires_iff ⟨results⟩
  have hwanMem : (⟨.gatewayHealthyWanOutage, Rules.gatewayHealthyWanOutage⟩ : DiagnosticRule) ∈
      DEFAULT_RULES := by
    simp [DEFAULT_RULES]
  constructor
  · rintro hclear ⟨hdown, hgw, hreachable, hlost⟩
    obtain ⟨issue, hfires⟩ := hwan.mpr ⟨hgw, .inr ⟨hreachable, hdown⟩, hlost⟩
    have hraw : issue ∈ rawIssues results anomalies := mem_rawIssues.mpr (.inr ⟨_, hwanMem, hfires⟩)
    have hid : issue.ruleId = .gatewayHealthyWanOutage :=
      (Rules.gatewayHealthyWanOutage_emits ⟨results⟩ issue hfires).isOf.1
    have hin : issue ∈ report.issues := by
      rw [hissues, mem_activeIssues]
      refine ⟨hraw, fun other hother hsuppressed => ?_⟩
      rw [hid] at hsuppressed
      have hlost := gatewayUnreachable_of_suppresses hother hsuppressed
      rw [hreachable] at hlost
      cases hlost
    have hprobed := hclear.reachable issue hin hid
    rw [hreachable] at hprobed
    cases hprobed
  · intro hprobed
    constructor
    · have hsorted : (report.issues.filter (·.ruleId.isOutageCause)).length =
          ((unsuppressed (rawIssues results anomalies)).filter
            (·.ruleId.isOutageCause)).length := by
        rw [hissues]
        exact ((List.perm_insertionSort _ _).filter _).length_eq
      have hkept : ((unsuppressed (rawIssues results anomalies)).filter
            (·.ruleId.isOutageCause)).length ≤
          ((rawIssues results anomalies).filter (·.ruleId.isOutageCause)).length :=
        (List.filter_sublist.filter _).length_le
      rw [hsorted]
      refine hkept.trans ?_
      rw [outageIssues_of_raw]
      exact outageIssues_length_le hprobed
    · intro issue hissue hid
      rw [hissues, mem_activeIssues] at hissue
      have hfires := evaluate_of_raw hwanMem hissue.1 hid (by simp)
      obtain ⟨hgw, hreachable | ⟨hnone, hdown⟩, hlost⟩ := hwan.mp ⟨issue, hfires⟩
      · exact hreachable
      · exact absurd ⟨hdown, hgw, hnone, hlost⟩ hprobed

/-- What the rules keep apart by design: local causes exclude all others, the WAN
outage needs a gateway that was not found unreachable, and a report names one
cause unless the gateway was left unprobed. -/
structure OutageCausesSeparate (results : List DiagnosticResult) (report : DiagnosisReport) :
    Prop where
  unique : ¬ UnprobedOutage ⟨results⟩ → (report.issues.filter (·.ruleId.isOutageCause)).length ≤ 1
  excluded : (∃ issue ∈ report.issues,
      issue.ruleId = .noDefaultGateway ∨ issue.ruleId = .gatewayUnreachable) →
    (report.issues.filter (·.ruleId.isOutageCause)).length ≤ 1
  reachable : ∀ issue ∈ report.issues, issue.ruleId = .gatewayHealthyWanOutage →
    isGatewayReachable ⟨results⟩ = .ok (some true) ∨
      isGatewayReachable ⟨results⟩ = .ok none ∧ allInterfacesDown ⟨results⟩ = false

theorem analyze_outageCausesSeparate {results : List DiagnosticResult} {targetHost : String}
    {report : DiagnosisReport} (h : analyze DEFAULT_RULES results targetHost = .ok report) :
    OutageCausesSeparate results report := by
  have hclear := analyze_outageCauseClear_iff h
  obtain ⟨anomalies, _, hissues, _⟩ := report_of_raw h
  have hraw : ∀ issue ∈ report.issues, issue ∈ rawIssues results anomalies := by
    intro issue hissue
    rw [hissues] at hissue
    exact (mem_activeIssues.mp hissue).1
  refine ⟨fun hprobed => (hclear.mpr hprobed).unique, ?_, ?_⟩
  · rintro ⟨issue, hissue, hid⟩
    refine (hclear.mpr fun hunprobed => ?_).unique
    obtain ⟨hdown, hgw, hreachable, -⟩ := hunprobed
    rcases hid with hid | hid
    · have hfires := evaluate_of_raw (r := ⟨.noDefaultGateway, Rules.noDefaultGateway⟩)
        (by simp [DEFAULT_RULES]) (hraw issue hissue) hid (by simp)
      have hmissing := ((noDefaultGateway_fires_iff ⟨results⟩).mp ⟨issue, hfires⟩).2
      rw [hgw] at hmissing
      cases hmissing
    · have hfires := evaluate_of_raw (r := ⟨.gatewayUnreachable, Rules.gatewayUnreachable⟩)
        (by simp [DEFAULT_RULES]) (hraw issue hissue) hid (by simp)
      have hlost := ((gatewayUnreachable_fires_iff ⟨results⟩).mp ⟨issue, hfires⟩).2
      rw [hreachable] at hlost
      cases hlost
  · intro issue hissue hid
    have hfires := evaluate_of_raw
      (r := ⟨.gatewayHealthyWanOutage, Rules.gatewayHealthyWanOutage⟩)
      (by simp [DEFAULT_RULES]) (hraw issue hissue) hid (by simp)
    exact ((gatewayHealthyWanOutage_fires_iff ⟨results⟩).mp ⟨issue, hfires⟩).2.1

namespace Sample

/-- A host with a default route that reaches nothing, with no probe of the gateway. -/
def unreachedInternet : List DiagnosticResult :=
  [probe .interface (some "eth0") [("is_up", .bool true)],
    probe .routing none [("default_gateway", .str "192.168.1.1")],
    { probe .connectivity (some "1.1.1.1") [] with status := .failed },
    { probe .packetLoss (some "1.1.1.1") [("packet_loss_percent", .num 100)] with
      status := .failed }]

def lostGateway : List DiagnosticResult :=
  [probe .interface (some "eth0") [("is_up", .bool true)],
    probe .routing none [("default_gateway", .str "192.168.1.1")],
    { probe .gateway (some "192.168.1.1") [("packet_loss_percent", .num 100)] with
      status := .failed }]

end Sample

/-- The report on a lost gateway names it, and no other outage cause. -/
theorem analyze_outageCausesSeparate_lostGateway :
    ∃ report, analyze DEFAULT_RULES Sample.lostGateway "google.com" = .ok report ∧
      (report.issues.any (·.ruleId = .gatewayUnreachable)) = true ∧
      OutageCausesSeparate Sample.lostGateway report := by
  obtain ⟨report, hreport⟩ := ok_of_isOk
    (x := analyze DEFAULT_RULES Sample.lostGateway "google.com") (by decide +kernel)
  have hnamed : (analyze DEFAULT_RULES Sample.lostGateway "google.com").map
      (fun report => report.issues.any (·.ruleId = .gatewayUnreachable)) = .ok true := by
    decide +kernel
  rw [hreport] at hnamed
  exact ⟨report, hreport, Except.ok.inj hnamed, analyze_outageCausesSeparate hreport⟩

/-- Without a gateway probe the report names two outage causes, one of which calls
the gateway reachable. -/
theorem unprobed_gateway_called_reachable :
    ¬ ∀ (results : List DiagnosticResult) (targetHost : String) (report : DiagnosisReport),
        analyze DEFAULT_RULES results targetHost = .ok report →
          OutageCauseClear results report := by
  intro hclaim
  obtain ⟨report, hreport⟩ :=
    ok_of_isOk (x := analyze DEFAULT_RULES Sample.unreachedInternet "1.1.1.1") (by decide +kernel)
  have hclear := hclaim Sample.unreachedInternet "1.1.1.1" report hreport
  have hcauses : (analyze DEFAULT_RULES Sample.unreachedInternet "1.1.1.1").map
      (fun report => (report.issues.filter (·.ruleId.isOutageCause)).length) = .ok 2 := by
    decide +kernel
  rw [hreport] at hcauses
  have htwo : (report.issues.filter (·.ruleId.isOutageCause)).length = 2 :=
    Except.ok.inj hcauses
  have hunique := hclear.unique
  omega

end NetForge.Analysis
