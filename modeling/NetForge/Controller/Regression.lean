import NetForge.Controller.Resolution
import NetForge.Storage.Sensitivity

/-! # Reachability regressions

`process_diagnosis` stores the share of vantages that reach a service and compares it with
the shares stored before. After diagnoses that all vantages reached, a drop to two thirds is
a regression in the outcome and in every alert of it, but only from five samples on:
`record_and_compare` has the guard against a few samples for every direction.
-/

namespace NetForge.Controller

open Calculus NetForge.Core Analysis Storage

/-- The service a diagnosis counts for: the target stands for one that is not named. -/
def baselineKey (report : MultiVantageReport) : String :=
  (nonEmpty report.serviceId).getD report.target

/-! ## What is stored -/

def ratioPayload (report : MultiVantageReport) : List (String × Rat) :=
  [("reachable_ratio", reachableRatio report)]

def servicePayloads (history : List Snapshot) (key : String) : List (List (String × Rat)) :=
  (history.filter fun s => s.domain = "service" ∧ s.key = key).map (·.payload)

/-- The payloads of the diagnoses of a service among those that were handled. -/
def handledPayloads (handled : List MultiVantageReport) (key : String) :
    List (List (String × Rat)) :=
  (handled.filter (baselineKey · = key)).map ratioPayload

theorem handledPayloads_append (handled later : List MultiVantageReport) (key : String) :
    handledPayloads (handled ++ later) key =
      handledPayloads handled key ++ handledPayloads later key := by
  unfold handledPayloads
  rw [List.filter_append, List.map_append]

theorem perform_history {c : StoreCall} (h : c.touches ≠ some .history) (w : World) :
    (perform c w).2.history = w.history := by
  cases c with
  | saveSnapshot domain key payload fingerprint => exact absurd rfl h
  | fanout agents probe => simp only [perform]; split <;> rfl
  | _ => rfl

theorem Confined.run_history {α : Type} {resources : List Resource} {p : Method α}
    (h : Confined resources p) (hr : .history ∉ resources) (w : World) :
    (p.run w).2.history = w.history := by
  have keep : ∀ (c : controller.Call) (s : World), Within resources c →
      (controller.perform c s).2.history = s.history :=
    fun c s hc => perform_history (fun htouches => hr (hc _ htouches)) s
  exact Program.Calls.run_keeps (f := fun w : World => w.history) keep h w

def respond (report : MultiVantageReport) (now : Rat) (regression : Bool) :
    Method DiagnosisOutcome := do
  if isHealthy report then
    let resolved ← resolveService report.serviceId now
    pure ⟨regression, [], [], some resolved⟩
  else
    let rules ← call .listAlertRules
    Program.fold (applyRule report now) ⟨regression, [], [], none⟩ (matchingRules rules report)

theorem processDiagnosis_eq (report : MultiVantageReport) (now : Rat) :
    processDiagnosis report now = recordServiceBaseline report >>= respond report now := rfl

theorem respond_confined (report : MultiVantageReport) (now : Rat) (regression : Bool) :
    Confined [.identifiers, .alerts, .incidents] (respond report now regression) := by
  unfold respond
  split
  · exact (resolveService_confined _ now).bind (by simp) fun _ => .pure _
  · refine .read rfl fun rules => .fold (fun outcome rule => ?_) _ _
    refine (fireRule_confined rule report now _).bind (by simp) fun alert => ?_
    exact (attachToIncident_confined alert report now).bind (by simp) fun _ => .pure _

theorem processDiagnosis_payloads (report : MultiVantageReport) (now : Rat) (key : String)
    (w : World) :
    servicePayloads ((processDiagnosis report now).run w).2.history key =
      servicePayloads w.history key ++ handledPayloads [report] key := by
  have hhistory : ((processDiagnosis report now).run w).2.history =
      w.history ++
        [⟨"service", baselineKey report, none, ratioPayload report, w.clock w.readings⟩] := by
    rw [processDiagnosis_eq, Program.run_bind, (respond_confined _ _ _).run_history (by simp)]
    rfl
  unfold servicePayloads handledPayloads
  rw [hhistory, List.filter_append, List.map_append]
  congr 1
  by_cases hkey : baselineKey report = key
  · simp [hkey]
  · simp [hkey]

/-! ## Runs -/

def Operation.handled (w : World) : Operation → List MultiVantageReport
  | .processDiagnosis report _ => [report]
  | .runDueSchedules now => ((Controller.runDueSchedules now).run w).1
  | _ => []

def handledIn (w : World) : List Operation → List MultiVantageReport
  | [] => []
  | op :: ops => op.handled w ++ handledIn (op.method.run w).2 ops

theorem runSchedule_payloads (now : Rat) (reports : List MultiVantageReport)
    (schedule : ScheduleEntry) (key : String) (w : World) :
    ∃ handled, ((runSchedule now reports schedule).run w).1 = reports ++ handled ∧
      servicePayloads ((runSchedule now reports schedule).run w).2.history key =
        servicePayloads w.history key ++ handledPayloads handled key := by
  have hdiagnose := (diagnoseService_confined (diagnosisRequest schedule)).run_history (by simp) w
  have hadvance : ∀ (error : Option String) (result : List MultiVantageReport) (w : World),
      ((do
        call (.upsertSchedule (advanceSchedule schedule now error))
        pure result : Method (List MultiVantageReport)).run w).2.history = w.history :=
    fun _ _ w => (Confined.write rfl List.mem_cons_self fun _ => .pure _ :
      Confined [.schedules] _).run_history (by simp) w
  unfold runSchedule
  rw [Program.run_bind]
  cases hrun : ((diagnoseService (diagnosisRequest schedule)).run w).1 with
  | error e =>
      refine ⟨[], (List.append_nil _).symm, ?_⟩
      simp only
      rw [hadvance, hdiagnose]
      exact (List.append_nil _).symm
  | ok report =>
      simp only
      rw [Program.run_bind]
      refine ⟨[report], rfl, ?_⟩
      rw [hadvance, processDiagnosis_payloads, hdiagnose]

theorem fold_runSchedule_payloads (now : Rat) (due : List ScheduleEntry)
    (reports : List MultiVantageReport) (key : String) (w : World) :
    ∃ handled, ((Program.fold (runSchedule now) reports due).run w).1 = reports ++ handled ∧
      servicePayloads ((Program.fold (runSchedule now) reports due).run w).2.history key =
        servicePayloads w.history key ++ handledPayloads handled key := by
  induction due generalizing reports w with
  | nil => exact ⟨[], (List.append_nil _).symm, (List.append_nil _).symm⟩
  | cons schedule due ih =>
      obtain ⟨first, hfirst, hpayloads⟩ := runSchedule_payloads now reports schedule key w
      obtain ⟨later, hlater, hrest⟩ := ih ((runSchedule now reports schedule).run w).1
        ((runSchedule now reports schedule).run w).2
      refine ⟨first ++ later, ?_, ?_⟩
      · rw [Program.fold_cons, Program.run_bind, hlater, hfirst, List.append_assoc]
      · rw [Program.fold_cons, Program.run_bind, hrest, hpayloads, handledPayloads_append,
          List.append_assoc]

theorem runDueSchedules_payloads (now : Rat) (key : String) (w : World) :
    servicePayloads ((runDueSchedules now).run w).2.history key =
      servicePayloads w.history key ++ handledPayloads ((runDueSchedules now).run w).1 key := by
  have hlist : (perform (.listSchedules none) w).2.history = w.history :=
    perform_history (by simp [StoreCall.touches]) w
  unfold runDueSchedules
  rw [Program.request_bind, Program.run_call]
  obtain ⟨handled, hreports, hpayloads⟩ := fold_runSchedule_payloads now
    ((perform (.listSchedules none) w).1.filter (isDue · now)) [] key
    (perform (.listSchedules none) w).2
  rw [List.nil_append] at hreports
  rw [hlist, ← hreports] at hpayloads
  exact hpayloads

theorem run_discard {α : Type} (p : Method α) (w : World) :
    ((discard p).run w).2 = (p.run w).2 := by
  unfold discard
  rw [Program.run_bind]
  rfl

theorem updateIncident_confined (update : Incident → Rat → Incident) (incidentId : String)
    (now : Rat) : Confined [.incidents] (updateIncident update incidentId now) := by
  have hget : Confined [] (getIncident incidentId) := by
    refine .read rfl fun found => ?_
    cases found with
    | none => exact .pure _
    | some incident => exact .pure _
  refine hget.bind (by simp) fun found => ?_
  cases found with
  | error e => exact .pure _
  | ok incident =>
      simp only
      split
      · exact .pure _
      · exact .write rfl (by simp) fun _ => .pure _

theorem Operation.handled_of_quiet {op : Operation} (h : op.isQuiet = true) (w : World) :
    op.handled w = [] := by
  cases op with
  | runDueSchedules now => cases h
  | processDiagnosis report now => cases h
  | _ => rfl

/-- An operation stores the shares of the diagnoses it handles, and no others. -/
theorem Operation.payloads (op : Operation) (key : String) (w : World) :
    servicePayloads (op.method.run w).2.history key =
      servicePayloads w.history key ++ handledPayloads (op.handled w) key := by
  have unstored : ∀ {α : Type} {resources : List Resource} {p : Method α},
      Confined resources p → .history ∉ resources →
      servicePayloads ((discard p).run w).2.history key =
        servicePayloads w.history key ++ handledPayloads [] key := by
    intro α resources p hp hr
    rw [run_discard, hp.run_history hr]
    exact (List.append_nil _).symm
  have quiet : op.isQuiet = true → servicePayloads (op.method.run w).2.history key =
      servicePayloads w.history key ++ handledPayloads (op.handled w) key := by
    intro hquiet
    obtain ⟨α, p, hmethod, hp⟩ := Operation.quiet_confined hquiet
    rw [hmethod, Operation.handled_of_quiet hquiet]
    exact unstored hp (by decide)
  cases op with
  | runDueSchedules now =>
      show servicePayloads ((discard (Controller.runDueSchedules now)).run w).2.history key = _
      rw [run_discard]
      exact runDueSchedules_payloads now key w
  | processDiagnosis report now =>
      show servicePayloads ((discard (Controller.processDiagnosis report now)).run w).2.history
        key = _
      rw [run_discard]
      exact processDiagnosis_payloads report now key w
  | acknowledgeIncident incidentId now =>
      exact unstored (updateIncident_confined acknowledge incidentId now) (by decide)
  | resolveIncident incidentId now =>
      exact unstored (updateIncident_confined closeIncident incidentId now) (by decide)
  | _ => exact quiet rfl

theorem runOperations_payloads (ops : List Operation) (key : String) (w : World) :
    servicePayloads (runOperations w ops).history key =
      servicePayloads w.history key ++ handledPayloads (handledIn w ops) key := by
  induction ops generalizing w with
  | nil => exact (List.append_nil _).symm
  | cons op ops ih =>
      show servicePayloads (runOperations (op.method.run w).2 ops).history key = _
      rw [ih, op.payloads, List.append_assoc, ← handledPayloads_append]
      rfl

/-! ## The comparison with a constant history -/

theorem windowSamples_of_constant {history : List Snapshot} {key : String} {q : Rat}
    (h : ∀ payload ∈ servicePayloads history key, payload = [("reachable_ratio", q)]) :
    windowSamples history "service" key "reachable_ratio" =
      List.replicate (min 20 (servicePayloads history key).length) q := by
  have hlength : (recentSnapshots history "service" key 20).length =
      min 20 (servicePayloads history key).length := by
    unfold recentSnapshots servicePayloads
    rw [List.length_take, List.length_insertionSort, List.length_map]
  have hsample : ∀ s ∈ recentSnapshots history "service" key 20,
      (s.payload.find? (·.1 = "reachable_ratio")).map (·.2) = some q := by
    intro s hs
    have hmem := (List.mem_insertionSort _).mp (List.mem_of_mem_take hs)
    rw [h s.payload (List.mem_map_of_mem hmem)]
    rfl
  unfold windowSamples sampleValues
  rw [List.filterMap_congr hsample, ← hlength]
  rw [List.filterMap_eq_map', List.map_const']

theorem median_replicate {n : Nat} (h : n ≠ 0) (q : Rat) : median (List.replicate n q) = q := by
  have hsorted : (List.replicate n q).insertionSort (· ≤ ·) = List.replicate n q :=
    List.perm_replicate.mp (List.perm_insertionSort _ _)
  have hget : ∀ i < n, (List.replicate n q).getD i 0 = q := by
    intro i hi
    rw [List.getD_eq_getElem _ _ (by rwa [List.length_replicate]), List.getElem_replicate]
  unfold median
  simp only [hsorted, List.length_replicate]
  rw [hget (n / 2) (by omega), hget (n / 2 - 1) (by omega)]
  split
  · rfl
  · exact add_self_div_two q

/-- Where low values are the worse ones, enough samples and a low ratio deviate. -/
theorem compareToBaseline_low {st : RollingStats} (hmedian : st.median ≠ 0) (metric : String)
    (metricIsPercent : Bool) (current warnRatio failRatio : Rat) :
    (compareToBaseline (some st) metric metricIsPercent current false warnRatio
        failRatio).deviated = true ↔
      5 ≤ st.sampleCount ∧ warnRatio ≠ 0 ∧ current / st.median ≤ 1 / warnRatio := by
  unfold compareToBaseline
  rw [Option.filter_some, if_pos (decide_eq_true hmedian)]
  simp only [Bool.and_eq_true, decide_eq_true_iff, Bool.false_eq_true, if_false]

/-- After shares of one, a drop to two thirds counts from five samples on. -/
theorem recordServiceBaseline_iff {w : World} {report : MultiVantageReport}
    (h : ∀ payload ∈ servicePayloads w.history (baselineKey report),
      payload = [("reachable_ratio", 1)]) (hdrop : reachableRatio report ≤ 2 / 3) :
    ((recordServiceBaseline report).run w).1 = true ↔
      5 ≤ (servicePayloads w.history (baselineKey report)).length := by
  have hwindow := windowSamples_of_constant h
  have hrun : ((recordServiceBaseline report).run w).1 =
      (compareToBaseline (rollingStats w.history "service" (baselineKey report)
        "reachable_ratio" 20) "reachable_ratio" false (reachableRatio report) false (3 / 2)
        (5 / 2)).deviated := rfl
  rw [hrun]
  cases hstats : rollingStats w.history "service" (baselineKey report) "reachable_ratio" 20 with
  | none =>
      have hempty := rollingStats_eq_none.mp hstats
      rw [hwindow] at hempty
      have hzero := congrArg List.length hempty
      rw [List.length_replicate, List.length_nil] at hzero
      constructor
      · intro hfalse
        cases hfalse
      · intro hmany
        omega
  | some st =>
      obtain ⟨hcount, hmedian, -⟩ := rollingStats_eq_some hstats
      rw [hwindow, List.length_replicate] at hcount
      have hpos : min 20 (servicePayloads w.history (baselineKey report)).length ≠ 0 := by
        intro hzero
        rw [hzero] at hwindow
        rw [rollingStats_eq_none.mpr hwindow] at hstats
        cases hstats
      rw [hwindow, median_replicate hpos] at hmedian
      have hmedian' : st.median ≠ 0 := by
        rw [hmedian]
        exact one_ne_zero
      have hratio : reachableRatio report / st.median ≤ 1 / (3 / 2) := by
        rw [hmedian, div_one]
        linarith
      have henough : 5 ≤ st.sampleCount ↔
          5 ≤ (servicePayloads w.history (baselineKey report)).length := by
        omega
      have hnonzero : (3 / 2 : Rat) ≠ 0 := by norm_num
      rw [compareToBaseline_low hmedian', henough]
      exact and_iff_left ⟨hnonzero, hratio⟩

/-! ## The outcome -/

/-- The outcome carries the flag, and a raised flag is in all its alerts. -/
structure Flagged (regression : Bool) (outcome : DiagnosisOutcome) : Prop where
  flag : outcome.regression = regression
  alerts : regression = true → ∀ a ∈ outcome.alerts, a.regression = true

theorem fireRule_regression (rule : AlertRule) (report : MultiVantageReport) (now : Rat)
    (w : World) : ((fireRule rule report now true).run w).1.regression = true := by
  unfold fireRule
  rw [Program.request_bind, Program.run_call]
  cases hfound : (perform (.findFiringAlert rule.ruleId report.serviceId) w).1 with
  | some found => exact Bool.or_true found.regression
  | none => rfl

theorem applyRule_flagged {regression : Bool} (report : MultiVantageReport) (now : Rat)
    (outcome : DiagnosisOutcome) (rule : AlertRule) (w : World)
    (h : Flagged regression outcome) :
    Flagged regression ((applyRule report now outcome rule).run w).1 := by
  unfold applyRule
  rw [Program.run_bind, Program.run_bind]
  constructor
  · exact h.flag
  · intro hraised a ha
    rcases List.mem_append.mp ha with ha | ha
    · exact h.alerts hraised a ha
    · rw [List.mem_singleton.mp ha, h.flag, hraised]
      exact fireRule_regression rule report now w

theorem respond_flagged (report : MultiVantageReport) (now : Rat) (regression : Bool)
    (w : World) : Flagged regression ((respond report now regression).run w).1 := by
  have hnone : ∀ resolved, Flagged regression ⟨regression, [], [], resolved⟩ := fun _ =>
    ⟨rfl, fun _ a ha => absurd ha List.not_mem_nil⟩
  unfold respond
  by_cases hhealthy : isHealthy report = true
  · rw [if_pos hhealthy, Program.run_bind]
    exact hnone _
  · rw [if_neg hhealthy, Program.request_bind, Program.run_call]
    exact Program.fold_keeps (fun outcome rule s => applyRule_flagged report now outcome rule s)
      (hnone none) _ _

theorem processDiagnosis_flagged (report : MultiVantageReport) (now : Rat) (w : World) :
    Flagged ((recordServiceBaseline report).run w).1
      ((processDiagnosis report now).run w).1 := by
  rw [processDiagnosis_eq, Program.run_bind]
  exact respond_flagged report now _ _

/-! ## Flagged regressions -/

def AllReached (report : MultiVantageReport) : Prop :=
  report.vantageCount ≠ 0 ∧ report.reachableCount = report.vantageCount

theorem AllReached.ratio {report : MultiVantageReport} (h : AllReached report) :
    reachableRatio report = 1 := by
  have hcount : (report.vantageCount : Rat) ≠ 0 := Nat.cast_ne_zero.mpr h.1
  unfold reachableRatio
  rw [if_neg h.1, h.2, div_self hcount]

/-- Over a history with nothing of the service, after diagnoses that all vantages reached, the
next one with two thirds or less is flagged when there were five of them. -/
theorem regression_flagged_iff {w : World} {key : String}
    (hnew : ∀ s ∈ w.history, ¬ (s.domain = "service" ∧ s.key = key)) {ops : List Operation}
    {k : Nat} (hcount : ((handledIn w ops).filter (baselineKey · = key)).length = k)
    (hreached : ∀ r ∈ handledIn w ops, baselineKey r = key → AllReached r)
    {report : MultiVantageReport} (hkey : baselineKey report = key)
    (hdrop : reachableRatio report ≤ 2 / 3) (now : Rat) :
    (((processDiagnosis report now).run (runOperations w ops)).1.regression = true ∧
      ∀ a ∈ ((processDiagnosis report now).run (runOperations w ops)).1.alerts,
        a.regression = true) ↔ 5 ≤ k := by
  have hflagged := processDiagnosis_flagged report now (runOperations w ops)
  have hpayloads : servicePayloads (runOperations w ops).history (baselineKey report) =
      handledPayloads (handledIn w ops) key := by
    have hnone : servicePayloads w.history key = [] := by
      unfold servicePayloads
      rw [List.map_eq_nil_iff, List.filter_eq_nil_iff]
      intro s hs hmatch
      exact hnew s hs (of_decide_eq_true hmatch)
    rw [hkey, runOperations_payloads, hnone, List.nil_append]
  have hlength : (handledPayloads (handledIn w ops) key).length = k := by
    rw [← hcount]
    exact List.length_map _
  have hconstant : ∀ payload ∈ servicePayloads (runOperations w ops).history (baselineKey report),
      payload = [("reachable_ratio", 1)] := by
    intro payload hpayload
    rw [hpayloads] at hpayload
    obtain ⟨r, hr, rfl⟩ := List.mem_map.mp hpayload
    obtain ⟨hhandled, hrkey⟩ := List.mem_filter.mp hr
    have hratio := (hreached r hhandled (of_decide_eq_true hrkey)).ratio
    unfold ratioPayload
    rw [hratio]
  have hrecord := recordServiceBaseline_iff hconstant hdrop
  rw [hpayloads, hlength] at hrecord
  rw [hflagged.flag, ← hrecord]
  constructor
  · intro h
    exact h.1
  · intro h
    exact ⟨h, hflagged.alerts h⟩

namespace Sample

def steady (count : Nat) : List Operation :=
  .registerAlertRule rule ::
    List.replicate count (.processDiagnosis (report (some "db") .healthy) 1)

def afterSteady (count : Nat) : DiagnosisOutcome :=
  ((processDiagnosis (report (some "db") .failed) 2).run (runOperations world (steady count))).1

theorem handledIn_steady (count : Nat) (w : World) :
    handledIn w (steady count) = List.replicate count (report (some "db") .healthy) := by
  have hreplicate : ∀ v : World, handledIn v (List.replicate count
      (.processDiagnosis (report (some "db") .healthy) 1)) =
        List.replicate count (report (some "db") .healthy) := by
    induction count with
    | zero => exact fun _ => rfl
    | succ count ih => exact fun v => congrArg _ (ih _)
  exact hreplicate _

theorem report_key (status : DiagnosticStatus) :
    baselineKey (report (some "db") status) = "db" := by
  cases status <;> decide +kernel

theorem healthy_allReached : AllReached (report (some "db") .healthy) := by
  unfold AllReached
  decide +kernel

theorem failed_ratio : reachableRatio (report (some "db") .failed) ≤ 2 / 3 := by decide +kernel

theorem steady_count (count : Nat) (w : World) :
    ((handledIn w (steady count)).filter (baselineKey · = "db")).length = count := by
  rw [handledIn_steady, List.filter_replicate, if_pos (decide_eq_true (report_key .healthy)),
    List.length_replicate]

theorem steady_reached (count : Nat) (w : World) :
    ∀ r ∈ handledIn w (steady count), baselineKey r = "db" → AllReached r := by
  rw [handledIn_steady]
  intro r hr _
  rw [List.eq_of_mem_replicate hr]
  exact healthy_allReached

theorem world_new (key : String) :
    ∀ s ∈ world.history, ¬ (s.domain = "service" ∧ s.key = key) :=
  fun _ hs => absurd hs List.not_mem_nil

end Sample

theorem regression_flagged_iff_five :
    (Sample.afterSteady 5).regression = true ∧
      ∀ a ∈ (Sample.afterSteady 5).alerts, a.regression = true :=
  (regression_flagged_iff (Sample.world_new "db") (Sample.steady_count 5 _)
    (Sample.steady_reached 5 _) (Sample.report_key .failed) Sample.failed_ratio 2).mpr le_rfl

theorem three_samples_not_flagged :
    ¬ ∀ (k : Nat), 3 ≤ k → ∀ (w : World) (key : String),
      (∀ s ∈ w.history, ¬ (s.domain = "service" ∧ s.key = key)) → ∀ ops : List Operation,
        ((handledIn w ops).filter (baselineKey · = key)).length = k →
        (∀ r ∈ handledIn w ops, baselineKey r = key → AllReached r) →
        ∀ (report : MultiVantageReport) (now : Rat), baselineKey report = key →
          reachableRatio report ≤ 2 / 3 →
          ((processDiagnosis report now).run (runOperations w ops)).1.regression = true ∧
            ∀ a ∈ ((processDiagnosis report now).run (runOperations w ops)).1.alerts,
              a.regression = true := by
  intro hclaim
  have hflagged := hclaim 3 le_rfl Sample.world "db" (Sample.world_new "db") (Sample.steady 3)
    (Sample.steady_count 3 _) (Sample.steady_reached 3 _) (Sample.report (some "db") .failed) 2
    (Sample.report_key .failed) Sample.failed_ratio
  have hunflagged : (Sample.afterSteady 3).regression = false := by decide +kernel
  exact Bool.noConfusion (hunflagged.symm.trans hflagged.1)

end NetForge.Controller
