import NetForge.Analysis.Engine

/-! # Issues of the default rules

Which rule an issue of a run comes from and which rules it suppresses, whatever
the probe results are.
-/

namespace NetForge.Analysis

open NetForge.Core Python

def Finding.Emits (Q : DiagnosedIssue → Prop) (f : Finding) : Prop :=
  ∀ issue, f = .ok (some issue) → Q issue

namespace Finding

variable {Q : DiagnosedIssue → Prop}

theorem emits_none : Emits Q (.ok none) := by
  rintro issue ⟨⟩

theorem emits_issue {issue : DiagnosedIssue} (h : Q issue) : Emits Q (.ok (some issue)) := by
  rintro _ ⟨⟩
  exact h

theorem emits_bind {α : Type} {x : Except PyError α} {f : α → Finding}
    (h : ∀ a, Emits Q (f a)) : Emits Q (x >>= f) := by
  intro issue hb
  obtain ⟨a, _, hf⟩ := ok_of_bind.mp hb
  exact h a issue hf

theorem emits_ite {c : Prop} [Decidable c] {f g : Finding} (hf : Emits Q f) (hg : Emits Q g) :
    Emits Q (if c then f else g) := by
  split
  · exact hf
  · exact hg

end Finding

def RuleId.suppresses : RuleId → List RuleId
  | .allInterfacesDown =>
      [.totalInternetOutage, .noDefaultGateway, .dnsFailIpHealthy, .gatewayUnreachable]
  | .noDefaultGateway => [.totalInternetOutage, .dnsFailIpHealthy]
  | .gatewayUnreachable =>
      [.gatewayHealthyWanOutage, .totalInternetOutage, .dnsFailIpHealthy, .dnsTimeout]
  | .gatewayHealthyWanOutage => [.dnsFailIpHealthy, .dnsTimeout]
  | .totalInternetOutage => [.dnsFailIpHealthy, .dnsTimeout]
  | .interfaceErrors => [.activePacketDrops]
  | .linkCongestionWithPathLoss => [.highHopLoss]
  | _ => []

def DiagnosedIssue.IsOf (id : RuleId) (issue : DiagnosedIssue) : Prop :=
  issue.ruleId = id ∧ issue.suppressedRules = id.suppresses

/-- What a rule's issues owe: they are never minor, and an issue that suppresses
others is a confirmed failure itself. -/
structure DiagnosedIssue.Conforms (id : RuleId) (issue : DiagnosedIssue) : Prop where
  isOf : issue.IsOf id
  not_minor : issue.isMinor = false
  confirmed : id.suppresses ≠ [] → issue.isConfirmedFailure = true

theorem high_or_medium (c : Prop) [Decidable c] :
    (if c then Severity.high else .medium) = .medium ∨
      (if c then Severity.high else .medium) = .high ∨
        (if c then Severity.high else .medium) = .critical := by
  by_cases h : c
  · rw [if_pos h]
    exact .inr (.inl rfl)
  · rw [if_neg h]
    exact .inl rfl

namespace Finding

variable {id : RuleId} {title : Title} {severity : Severity} {confidence : Rat}

/-- An issue that suppresses nothing has to be of some weight. -/
theorem emits_weight (hid : id.suppresses = [])
    (hseverity : severity = .medium ∨ severity = .high ∨ severity = .critical) :
    Emits (·.Conforms id) (.ok (some (buildIssue id title severity confidence []))) := by
  have hminor : (buildIssue id title severity confidence []).isMinor = false := by
    rcases hseverity with rfl | rfl | rfl <;> rfl
  apply emits_issue
  exact ⟨⟨rfl, hid.symm⟩, hminor, fun hne => absurd hid hne⟩

/-- An issue that suppresses others has to be a confirmed failure. -/
theorem emits_failure {suppressed : List RuleId} (hid : id.suppresses = suppressed)
    (hseverity : severity = .critical ∨ severity = .high)
    (hconfidence : 75 / 100 ≤ (buildIssue id title severity confidence suppressed).confidence) :
    Emits (·.Conforms id) (.ok (some (buildIssue id title severity confidence suppressed))) := by
  have hminor : (buildIssue id title severity confidence suppressed).isMinor = false := by
    rcases hseverity with rfl | rfl <;> rfl
  have hfailure : (buildIssue id title severity confidence suppressed).isConfirmedFailure =
      true := by
    unfold DiagnosedIssue.isConfirmedFailure
    rw [decide_eq_true hconfidence]
    rcases hseverity with rfl | rfl <;> rfl
  apply emits_issue
  exact ⟨⟨rfl, hid.symm⟩, hminor, fun _ => hfailure⟩

end Finding

section

open Finding

variable (ctx : AnalysisContext)

namespace Rules

theorem allInterfacesDown_emits : (allInterfacesDown ctx).Emits (·.Conforms .allInterfacesDown) :=
  emits_ite emits_none (emits_failure rfl (by decide) (by decide +kernel))

theorem activePacketDrops_emits : (activePacketDrops ctx).Emits (·.Conforms .activePacketDrops) :=
  emits_bind fun _ => emits_bind fun _ => emits_ite emits_none (emits_weight rfl (by decide))

theorem noDefaultGateway_emits : (noDefaultGateway ctx).Emits (·.Conforms .noDefaultGateway) :=
  emits_ite emits_none (emits_ite emits_none
    (emits_failure rfl (by decide) (by decide +kernel)))

theorem gatewayUnreachable_emits :
    (gatewayUnreachable ctx).Emits (·.Conforms .gatewayUnreachable) :=
  emits_ite emits_none (emits_bind fun _ => emits_ite emits_none
    (emits_failure rfl (by decide) (by decide +kernel)))

theorem gatewayHealthyWanOutage_emits :
    (gatewayHealthyWanOutage ctx).Emits (·.Conforms .gatewayHealthyWanOutage) := by
  refine emits_ite emits_none (emits_bind fun reachable => ?_)
  refine emits_ite emits_none (emits_ite emits_none ?_)
  refine emits_bind fun ipWorking => emits_bind fun maxLoss => emits_ite emits_none ?_
  refine emits_bind fun lost => emits_ite (emits_failure rfl (by decide) ?_) emits_none
  -- the confidence depends on the gateway's own probe
  split <;> decide +kernel

theorem totalInternetOutage_emits :
    (totalInternetOutage ctx).Emits (·.Conforms .totalInternetOutage) := by
  refine emits_ite emits_none (emits_bind fun reachable => emits_ite emits_none ?_)
  refine emits_bind fun ipWorking => emits_ite emits_none ?_
  refine emits_bind fun maxLoss => emits_bind fun below => emits_ite emits_none ?_
  exact emits_ite emits_none (emits_failure rfl (by decide) (by decide +kernel))

theorem dnsFailureWithHealthyIp_emits :
    (dnsFailureWithHealthyIp ctx).Emits (·.Conforms .dnsFailIpHealthy) := by
  unfold dnsFailureWithHealthyIp
  split
  · exact emits_none
  · exact emits_ite emits_none (emits_bind fun _ => emits_ite emits_none
      (emits_bind fun _ => emits_weight rfl (by decide)))

theorem dnsTimeout_emits : (dnsTimeout ctx).Emits (·.Conforms .dnsTimeout) := by
  unfold dnsTimeout
  split
  · exact emits_none
  · exact emits_ite emits_none (emits_bind fun _ => emits_ite emits_none (emits_ite emits_none
      (emits_bind fun _ => emits_weight rfl (by decide))))

theorem slowDnsResolution_emits :
    (slowDnsResolution ctx).Emits (·.Conforms .slowDnsResolution) := by
  unfold slowDnsResolution
  split
  · exact emits_none
  · refine emits_ite emits_none (emits_ite emits_none (emits_bind fun _ => ?_))
    refine emits_ite emits_none (emits_bind fun _ => emits_ite emits_none ?_)
    exact emits_bind fun _ => emits_weight rfl (by decide)

theorem severePacketLoss_emits : (severePacketLoss ctx).Emits (·.Conforms .severePacketLoss) := by
  refine emits_bind fun _ => emits_bind fun _ => emits_ite emits_none (emits_bind fun _ => ?_)
  exact emits_ite emits_none (emits_bind fun _ => emits_weight rfl (high_or_medium _))

theorem highJitterLatency_emits :
    (highJitterLatency ctx).Emits (·.Conforms .highJitterLatency) := by
  refine emits_bind fun _ => emits_bind fun _ => emits_ite emits_none (emits_bind fun _ => ?_)
  exact emits_ite emits_none (emits_bind fun _ => emits_ite emits_none
    (emits_weight rfl (by decide)))

theorem portBlockedByFirewall_emits :
    (portBlockedByFirewall ctx).Emits (·.Conforms .portBlockedFirewall) :=
  emits_bind fun _ => emits_ite emits_none (emits_ite emits_none (emits_weight rfl (by decide)))

theorem targetSpecificFailure_emits :
    (targetSpecificFailure ctx).Emits (·.Conforms .targetSpecificFailure) :=
  emits_ite (emits_bind fun _ => emits_weight rfl (by decide)) emits_none

theorem hostSaturationBufferbloat_emits :
    (hostSaturationBufferbloat ctx).Emits (·.Conforms .hostResourceSaturation) := by
  refine emits_bind fun _ => emits_bind fun _ => emits_ite emits_none ?_
  exact emits_bind fun _ => emits_bind fun _ => emits_weight rfl (high_or_medium _)

theorem pathChange_emits : (pathChange ctx).Emits (·.Conforms .pathChange) :=
  emits_ite emits_none (emits_bind fun _ => emits_ite emits_none (emits_weight rfl (by decide)))

theorem highHopLoss_emits : (highHopLoss ctx).Emits (·.Conforms .highHopLoss) := by
  refine emits_bind fun _ => emits_bind fun _ => emits_ite emits_none ?_
  exact emits_bind fun _ => emits_ite emits_none (emits_weight rfl (by decide))

theorem lastMileVsCore_emits : (lastMileVsCore ctx).Emits (·.Conforms .lastMileVsCore) := by
  refine emits_ite emits_none ?_
  iterate 6 refine emits_bind fun _ => ?_
  refine emits_ite (emits_weight rfl (by decide)) ?_
  exact emits_ite (emits_weight rfl (by decide)) emits_none

theorem linkSaturation_emits : (linkSaturation ctx).Emits (·.Conforms .linkSaturation) :=
  emits_bind fun _ => emits_ite emits_none (emits_bind fun _ =>
    emits_weight rfl (high_or_medium _))

theorem interfaceErrors_emits : (interfaceErrors ctx).Emits (·.Conforms .interfaceErrors) :=
  emits_bind fun _ => emits_bind fun _ => emits_ite emits_none
    (emits_failure rfl (by decide) (by decide +kernel))

theorem elephantFlow_emits : (elephantFlow ctx).Emits (·.Conforms .elephantFlow) := by
  unfold elephantFlow
  split
  · exact emits_none
  · exact emits_ite emits_none (emits_bind fun _ => emits_bind fun _ =>
      emits_weight rfl (by decide))

theorem linkCongestionWithPathLoss_emits :
    (linkCongestionWithPathLoss ctx).Emits (·.Conforms .linkCongestionWithPathLoss) := by
  refine emits_bind fun _ => emits_bind fun _ => emits_ite emits_none ?_
  refine emits_bind fun _ => emits_bind fun _ => emits_bind fun _ => emits_ite emits_none ?_
  exact emits_failure rfl (by decide) (by decide +kernel)

theorem suddenDegradation_emits :
    (suddenDegradation ctx).Emits (·.Conforms .suddenDegradation) := by
  refine emits_bind fun ratios => ?_
  split
  · exact emits_none
  · exact emits_weight rfl (high_or_medium _)

theorem meshPartition_emits : (meshPartition ctx).Emits (·.Conforms .meshPartition) := by
  unfold meshPartition
  split
  · exact emits_none
  · refine emits_bind fun _ => emits_bind fun _ => emits_ite emits_none ?_
    exact emits_ite (emits_weight rfl (by decide)) (emits_weight rfl (by decide))

end Rules

open Rules in
/-- A default rule emits issues of its own id, with its own suppressions and weight. -/
theorem emits_of_mem {rule : DiagnosticRule} (h : rule ∈ DEFAULT_RULES) :
    (rule.evaluate ctx).Emits (·.Conforms rule.ruleId) := by
  apply default_rule_cases h
  case allInterfacesDown => exact allInterfacesDown_emits ctx
  case activePacketDrops => exact activePacketDrops_emits ctx
  case noDefaultGateway => exact noDefaultGateway_emits ctx
  case gatewayUnreachable => exact gatewayUnreachable_emits ctx
  case gatewayHealthyWanOutage => exact gatewayHealthyWanOutage_emits ctx
  case totalInternetOutage => exact totalInternetOutage_emits ctx
  case dnsFailureWithHealthyIp => exact dnsFailureWithHealthyIp_emits ctx
  case dnsTimeout => exact dnsTimeout_emits ctx
  case slowDnsResolution => exact slowDnsResolution_emits ctx
  case severePacketLoss => exact severePacketLoss_emits ctx
  case highJitterLatency => exact highJitterLatency_emits ctx
  case portBlockedByFirewall => exact portBlockedByFirewall_emits ctx
  case targetSpecificFailure => exact targetSpecificFailure_emits ctx
  case hostSaturationBufferbloat => exact hostSaturationBufferbloat_emits ctx
  case pathChange => exact pathChange_emits ctx
  case highHopLoss => exact highHopLoss_emits ctx
  case lastMileVsCore => exact lastMileVsCore_emits ctx
  case linkSaturation => exact linkSaturation_emits ctx
  case interfaceErrors => exact interfaceErrors_emits ctx
  case elephantFlow => exact elephantFlow_emits ctx
  case linkCongestionWithPathLoss => exact linkCongestionWithPathLoss_emits ctx
  case suddenDegradation => exact suddenDegradation_emits ctx
  case meshPartition => exact meshPartition_emits ctx

end

end NetForge.Analysis
