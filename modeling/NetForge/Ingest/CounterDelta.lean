import NetForge.Ingest.Counters
import Mathlib.Algebra.Order.Field.Basic
import Mathlib.Tactic.FieldSimp

/-! # Counter arithmetic

`evaluate_interface_delta` against counters that never wrap. A device reports a counter
modulo its width; the program subtracts the reports as they are, so an interval in which a
counter passes its modulus gets a negative rate, or one that another counter makes up for.
-/

namespace NetForge.Ingest.Snmp

open NetForge.Python

/-! ## True counters -/

/-- The counters of an interface that never wrap, or the amounts they advance by. -/
@[ext] structure TrafficCounters where
  inOctets : Nat
  outOctets : Nat
  inErrors : Nat
  outErrors : Nat
  inDiscards : Nat
  outDiscards : Nat

def TrafficCounters.advance (t d : TrafficCounters) : TrafficCounters where
  inOctets := t.inOctets + d.inOctets
  outOctets := t.outOctets + d.outOctets
  inErrors := t.inErrors + d.inErrors
  outErrors := t.outErrors + d.outErrors
  inDiscards := t.inDiscards + d.inDiscards
  outDiscards := t.outDiscards + d.outDiscards

/-- The widths of the counters: octets have 64 bits, errors and discards 32. -/
def octetModulus : Nat := 2 ^ 64

def errorModulus : Nat := 2 ^ 32

structure TrafficCounters.Short (d : TrafficCounters) : Prop where
  inOctets : d.inOctets < octetModulus
  outOctets : d.outOctets < octetModulus
  inErrors : d.inErrors < errorModulus
  outErrors : d.outErrors < errorModulus
  inDiscards : d.inDiscards < errorModulus
  outDiscards : d.outDiscards < errorModulus

structure InterfaceCounters.Reports (c : InterfaceCounters) (t : TrafficCounters) : Prop where
  inOctets : c.inOctets = (t.inOctets % octetModulus : Nat)
  outOctets : c.outOctets = (t.outOctets % octetModulus : Nat)
  inErrors : c.inErrors = (t.inErrors % errorModulus : Nat)
  outErrors : c.outErrors = (t.outErrors % errorModulus : Nat)
  inDiscards : c.inDiscards = (t.inDiscards % errorModulus : Nat)
  outDiscards : c.outDiscards = (t.outDiscards % errorModulus : Nat)

structure NoneWrapped (prev cur : InterfaceCounters) : Prop where
  inOctets : prev.inOctets ≤ cur.inOctets
  outOctets : prev.outOctets ≤ cur.outOctets
  inErrors : prev.inErrors ≤ cur.inErrors
  outErrors : prev.outErrors ≤ cur.outErrors
  inDiscards : prev.inDiscards ≤ cur.inDiscards
  outDiscards : prev.outDiscards ≤ cur.outDiscards

def trueRates (d : TrafficCounters) (interval : Rat) : Rates where
  rxBps := 8 * d.inOctets / interval
  txBps := 8 * d.outOctets / interval
  errRate := (d.inErrors + d.outErrors) / interval
  discRate := (d.inDiscards + d.outDiscards) / interval

/-! ## One counter -/

/-- What the difference of two reports lacks: nothing, or one modulus. -/
theorem reported_delta {modulus t d : Nat} (h : d < modulus) :
    let prev : Int := (t % modulus : Nat)
    let cur : Int := ((t + d) % modulus : Nat)
    (prev ≤ cur ∧ cur - prev = d) ∨ (cur < prev ∧ cur - prev = (d : Int) - modulus) := by
  intro prev cur
  have hlt : t % modulus < modulus := Nat.mod_lt _ (by omega)
  have hsum : (t + d) % modulus = (t % modulus + d) % modulus := by
    rw [Nat.add_mod, Nat.mod_eq_of_lt h]
  by_cases hwrap : t % modulus + d < modulus
  · left
    have hcur : (t + d) % modulus = t % modulus + d := by
      rw [hsum, Nat.mod_eq_of_lt hwrap]
    show ((t % modulus : Nat) : Int) ≤ ((t + d) % modulus : Nat) ∧ _
    omega
  · right
    have hcur : (t + d) % modulus = t % modulus + d - modulus := by
      rw [hsum, Nat.mod_eq_sub_mod (by omega), Nat.mod_eq_of_lt (by omega)]
    show (((t + d) % modulus : Nat) : Int) < (t % modulus : Nat) ∧ _
    omega

/-- The reports of a counter differ by its advance exactly when it has not wrapped. -/
theorem reported_delta_iff {modulus t d : Nat} (h : d < modulus) {prev cur : Int}
    (hprev : prev = (t % modulus : Nat)) (hcur : cur = ((t + d) % modulus : Nat)) :
    (cur - prev = d ↔ prev ≤ cur) ∧ cur - prev ≤ d ∧
      (cur < prev → cur - prev = (d : Int) - modulus) := by
  have hcases := @reported_delta modulus t d h
  rw [hprev, hcur]
  rcases hcases with ⟨hle, heq⟩ | ⟨hlt, heq⟩ <;> omega

/-- Two counters that are added up: their reports differ by the sum of the advances exactly
when neither has wrapped. -/
theorem reported_sum_iff {modulus t d t' d' : Nat} (h : d < modulus) (h' : d' < modulus)
    {prev cur prev' cur' : Int} (hprev : prev = (t % modulus : Nat))
    (hcur : cur = ((t + d) % modulus : Nat)) (hprev' : prev' = (t' % modulus : Nat))
    (hcur' : cur' = ((t' + d') % modulus : Nat)) :
    ((cur - prev) + (cur' - prev') = d + d' ↔ prev ≤ cur ∧ prev' ≤ cur') ∧
      (¬ (prev ≤ cur ∧ prev' ≤ cur') →
        (cur - prev) + (cur' - prev') ≤ (d : Int) + d' - modulus) := by
  obtain ⟨hiff, hle, hwrapped⟩ := reported_delta_iff h hprev hcur
  obtain ⟨hiff', hle', hwrapped'⟩ := reported_delta_iff h' hprev' hcur'
  omega

/-! ## Rates -/

theorem bpsFromByteDelta_eq_iff {interval : Rat} (hinterval : 0 < interval) (delta advance : Int) :
    bpsFromByteDelta delta interval = 8 * advance / interval ↔ delta = advance := by
  unfold bpsFromByteDelta bytesPerSecFromDelta
  rw [if_neg (not_le.mpr hinterval), div_mul_eq_mul_div, div_left_inj' hinterval.ne', mul_comm,
    mul_right_inj' (by norm_num)]
  exact Int.cast_inj

/-- A wrap of 2 ^ 64 octets does not round away within 1000 * 2 ^ 32 seconds. -/
theorem le_of_bps_rounds {t d : Nat} {prev cur : Int} {interval : Rat} (hinterval : 0 < interval)
    (hlong : interval < 1000 * 2 ^ 32) (h : d < octetModulus)
    (hprev : prev = (t % octetModulus : Nat)) (hcur : cur = ((t + d) % octetModulus : Nat))
    (hround : roundTo 1 (bpsFromByteDelta (cur - prev : Int) interval) =
      roundTo 1 (8 * d / interval)) : prev ≤ cur := by
  by_contra hnot
  have hdelta := (reported_delta_iff h hprev hcur).2.2 (by omega)
  have hclose := close_of_roundTo_eq hround
  have hgap : bpsFromByteDelta (cur - prev : Int) interval - 8 * d / interval =
      -(8 * 2 ^ 64 / interval) := by
    unfold bpsFromByteDelta bytesPerSecFromDelta octetModulus at *
    rw [if_neg (not_le.mpr hinterval), hdelta]
    push_cast
    ring
  rw [hgap, abs_neg, abs_of_pos (by positivity), div_le_iff₀ hinterval] at hclose
  norm_num at hclose hlong
  linarith

/-- A wrap of 2 ^ 32 errors does not round away within 1000 * 2 ^ 32 seconds. -/
theorem le_of_rate_rounds {t d t' d' : Nat} {prev cur prev' cur' : Int} {interval : Rat}
    (hinterval : 0 < interval) (hlong : interval < 1000 * 2 ^ 32) (h : d < errorModulus)
    (h' : d' < errorModulus) (hprev : prev = (t % errorModulus : Nat))
    (hcur : cur = ((t + d) % errorModulus : Nat)) (hprev' : prev' = (t' % errorModulus : Nat))
    (hcur' : cur' = ((t' + d') % errorModulus : Nat))
    (hround : roundTo 3 (((cur - prev) + (cur' - prev') : Int) / interval) =
      roundTo 3 (((d : Rat) + d') / interval)) : prev ≤ cur ∧ prev' ≤ cur' := by
  by_contra hnot
  have hdelta := (reported_sum_iff h h' hprev hcur hprev' hcur').2 hnot
  have hclose := close_of_roundTo_eq hround
  have hdeltaRat : (((cur - prev) + (cur' - prev') : Int) : Rat) ≤ (d : Rat) + d' - 2 ^ 32 := by
    have hcast : (((cur - prev) + (cur' - prev') : Int) : Rat) ≤
        ((d : Int) + d' - errorModulus : Int) := Int.cast_le.mpr hdelta
    unfold errorModulus at hcast
    push_cast at hcast ⊢
    exact hcast
  rw [← sub_div, abs_le] at hclose
  have hlow := hclose.1
  rw [le_div_iff₀ hinterval] at hlow
  norm_num at hlow hlong hdeltaRat
  linarith

theorem utilizationPercent_mem {bps : Rat} (h : 0 ≤ bps) (capacity : Option PyFloat) :
    ∀ p ∈ utilizationPercent bps capacity, 0 ≤ p ∧ p ≤ 100 := by
  have hundred : roundTo 2 100 = 100 := by decide +kernel
  have hround : ∀ q : Rat, 0 ≤ q → 0 ≤ roundTo 2 (min 100 q) ∧ roundTo 2 (min 100 q) ≤ 100 := by
    intro q hq
    constructor
    · exact roundTo_nonneg 2 (le_min (by norm_num) hq)
    · rw [← hundred]
      exact roundTo_mono 2 (by rw [hundred]; exact min_le_left 100 q)
  intro p hp
  unfold utilizationPercent at hp
  split at hp
  · cases hp
  · split at hp
    · cases hp
    · rename_i q hq
      cases hp
      apply hround
      have hpos : 0 < q := not_le.mp hq
      positivity
  · split at hp
    · cases hp
    · cases hp
      exact hround 0 le_rfl
  · cases hp
    rw [hundred]
    norm_num

/-- Rates that are the true ones, none of them negative, with a utilization that is a
percentage. -/
structure Faithful (rates : Rates) (cur : InterfaceCounters) (d : TrafficCounters)
    (interval : Rat) : Prop where
  exact_rates : rates = trueRates d interval
  nonneg : 0 ≤ rates.rxBps ∧ 0 ≤ rates.txBps ∧ 0 ≤ rates.errRate ∧ 0 ≤ rates.discRate
  util : ∀ p ∈ utilizationPercent rates.totalBps cur.capacity, 0 ≤ p ∧ p ≤ 100

/-- Metrics that are the rounded true rates, none of them negative, with a utilization that is
a percentage. -/
structure ReportsTrue (u : LinkUtilization) (e : LinkErrors) (d : TrafficCounters)
    (interval : Rat) : Prop where
  rxBps : u.rxBps = roundTo 1 (trueRates d interval).rxBps
  txBps : u.txBps = roundTo 1 (trueRates d interval).txBps
  errors : e.errorsPerSec = roundTo 3 (trueRates d interval).errRate
  discards : e.discardsPerSec = roundTo 3 (trueRates d interval).discRate
  nonneg : 0 ≤ u.rxBps ∧ 0 ≤ u.txBps ∧ 0 ≤ e.errorsPerSec ∧ 0 ≤ e.discardsPerSec
  util : ∀ p ∈ u.utilPercent, 0 ≤ p ∧ p ≤ 100

section

variable {prev cur : InterfaceCounters} {t d : TrafficCounters} {interval : Rat}

theorem trueRates_nonneg (hinterval : 0 < interval) :
    0 ≤ (trueRates d interval).rxBps ∧ 0 ≤ (trueRates d interval).txBps ∧
      0 ≤ (trueRates d interval).errRate ∧ 0 ≤ (trueRates d interval).discRate := by
  unfold trueRates
  refine ⟨?_, ?_, ?_, ?_⟩ <;> positivity

variable (hinterval : 0 < interval) (hbefore : prev.Reports t) (hafter : cur.Reports (t.advance d))
  (hshort : d.Short)

include hinterval hbefore hafter hshort

/-- The measured rates are the true ones exactly when no counter has wrapped. -/
theorem measuredRates_eq_iff :
    measuredRates prev cur interval = trueRates d interval ↔ NoneWrapped prev cur := by
  have hrx := (reported_delta_iff hshort.inOctets hbefore.inOctets hafter.inOctets).1
  have htx := (reported_delta_iff hshort.outOctets hbefore.outOctets hafter.outOctets).1
  have herr := (reported_sum_iff hshort.inErrors hshort.outErrors hbefore.inErrors
    hafter.inErrors hbefore.outErrors hafter.outErrors).1
  have hdisc := (reported_sum_iff hshort.inDiscards hshort.outDiscards hbefore.inDiscards
    hafter.inDiscards hbefore.outDiscards hafter.outDiscards).1
  have hrate : ∀ delta advance : Int,
      ((delta : Rat) / interval = (advance : Rat) / interval ↔ delta = advance) := by
    intro delta advance
    rw [div_left_inj' hinterval.ne']
    exact Int.cast_inj
  have hbps := bpsFromByteDelta_eq_iff hinterval
  have hrates : measuredRates prev cur interval = trueRates d interval ↔
      cur.inOctets - prev.inOctets = d.inOctets ∧ cur.outOctets - prev.outOctets = d.outOctets ∧
        (cur.inErrors - prev.inErrors) + (cur.outErrors - prev.outErrors) =
          d.inErrors + d.outErrors ∧
        (cur.inDiscards - prev.inDiscards) + (cur.outDiscards - prev.outDiscards) =
          d.inDiscards + d.outDiscards := by
    rw [← hbps, ← hbps, ← hrate, ← hrate, Rates.ext_iff]
    unfold measuredRates trueRates
    push_cast
    rfl
  rw [hrates, hrx, htx, herr, hdisc]
  constructor
  · intro ⟨hin, hout, ⟨hinErr, houtErr⟩, hinDisc, houtDisc⟩
    exact ⟨hin, hout, hinErr, houtErr, hinDisc, houtDisc⟩
  · intro h
    exact ⟨h.inOctets, h.outOctets, ⟨h.inErrors, h.outErrors⟩, h.inDiscards, h.outDiscards⟩

theorem faithful_iff :
    Faithful (measuredRates prev cur interval) cur d interval ↔ NoneWrapped prev cur := by
  rw [← measuredRates_eq_iff hinterval hbefore hafter hshort]
  constructor
  · intro h
    exact h.exact_rates
  · intro h
    have hnonneg := @trueRates_nonneg d interval hinterval
    rw [← h] at hnonneg
    exact ⟨h, hnonneg, utilizationPercent_mem (add_nonneg hnonneg.1 hnonneg.2.1) _⟩

theorem reportsTrue_of_noneWrapped (device : String) (h : NoneWrapped prev cur) :
    ReportsTrue (linkUtilization device cur (measuredRates prev cur interval))
      (linkErrors device cur (measuredRates prev cur interval)) d interval := by
  obtain ⟨hrates, ⟨hrx, htx, herr, hdisc⟩, hutil⟩ :=
    (faithful_iff hinterval hbefore hafter hshort).mpr h
  constructor
  · rw [← hrates]
    rfl
  · rw [← hrates]
    rfl
  · rw [← hrates]
    rfl
  · rw [← hrates]
    rfl
  · exact ⟨roundTo_nonneg 1 hrx, roundTo_nonneg 1 htx, roundTo_nonneg 3 herr,
      roundTo_nonneg 3 hdisc⟩
  · exact hutil

/-- A wrapped counter shows in the rounded metrics too, unless the interval is so long that
2 ^ 32 events round away. -/
theorem noneWrapped_of_reportsTrue (device : String) (hlong : interval < 1000 * 2 ^ 32)
    (h : ReportsTrue (linkUtilization device cur (measuredRates prev cur interval))
      (linkErrors device cur (measuredRates prev cur interval)) d interval) :
    NoneWrapped prev cur := by
  obtain ⟨hrx, htx, herr, hdisc, -, -⟩ := h
  obtain ⟨hinErr, houtErr⟩ := le_of_rate_rounds hinterval hlong hshort.inErrors hshort.outErrors
    hbefore.inErrors hafter.inErrors hbefore.outErrors hafter.outErrors herr
  obtain ⟨hinDisc, houtDisc⟩ := le_of_rate_rounds hinterval hlong hshort.inDiscards
    hshort.outDiscards hbefore.inDiscards hafter.inDiscards hbefore.outDiscards
    hafter.outDiscards hdisc
  exact ⟨le_of_bps_rounds hinterval hlong hshort.inOctets hbefore.inOctets hafter.inOctets hrx,
    le_of_bps_rounds hinterval hlong hshort.outOctets hbefore.outOctets hafter.outOctets htx,
    hinErr, houtErr, hinDisc, houtDisc⟩

end

/-! ## The results of two polls -/

theorem evaluate_eq {before after : List InterfaceCounters} {interval : Rat}
    (hinterval : 0 < interval) (device : String) :
    evaluateInterfaceDelta before after interval device =
      .ok (after.flatMap (interfaceResults before interval device)) :=
  if_neg (not_le.mpr hinterval)

/-- An interface that is up and in both polls has its two results in their place. -/
theorem evaluate_split {before : List InterfaceCounters} {prev cur : InterfaceCounters}
    {interval : Rat} (hinterval : 0 < interval)
    (hprev : previousCounters before cur.ifIndex = some prev) (hup : cur.operStatus = "up")
    (device : String) (front back : List InterfaceCounters) :
    ∃ first last, evaluateInterfaceDelta before front interval device = .ok first ∧
      evaluateInterfaceDelta before back interval device = .ok last ∧
      evaluateInterfaceDelta before (front ++ cur :: back) interval device =
        .ok (first ++
          [.utilization (linkUtilization device cur (measuredRates prev cur interval)),
            .errors (linkErrors device cur (measuredRates prev cur interval))] ++ last) := by
  have hresults : interfaceResults before interval device cur =
      [.utilization (linkUtilization device cur (measuredRates prev cur interval)),
        .errors (linkErrors device cur (measuredRates prev cur interval))] := by
    unfold interfaceResults
    rw [hprev]
    show (if cur.operStatus ≠ "up" then [] else _) = _
    rw [if_neg (not_not.mpr hup)]
  refine ⟨_, _, evaluate_eq hinterval device, evaluate_eq hinterval device, ?_⟩
  rw [evaluate_eq hinterval, List.flatMap_append, List.flatMap_cons, hresults, List.append_assoc]

/-- The two results of an interface are made from the true rates exactly when none of its
counters has wrapped; then the metrics are the rounded true rates, and within any interval
below 1000 * 2 ^ 32 seconds they are so only then. -/
theorem evaluateInterfaceDelta_true_iff {before : List InterfaceCounters}
    {prev cur : InterfaceCounters} {t d : TrafficCounters} {interval : Rat}
    (hinterval : 0 < interval) (hprev : previousCounters before cur.ifIndex = some prev)
    (hup : cur.operStatus = "up") (hbefore : prev.Reports t) (hafter : cur.Reports (t.advance d))
    (hshort : d.Short) (device : String) (front back : List InterfaceCounters) :
    let rates := measuredRates prev cur interval
    let u := linkUtilization device cur rates
    let e := linkErrors device cur rates
    (∃ first last, evaluateInterfaceDelta before front interval device = .ok first ∧
      evaluateInterfaceDelta before back interval device = .ok last ∧
      evaluateInterfaceDelta before (front ++ cur :: back) interval device =
        .ok (first ++ [.utilization u, .errors e] ++ last)) ∧
      (Faithful rates cur d interval ↔ NoneWrapped prev cur) ∧
      (NoneWrapped prev cur → ReportsTrue u e d interval) ∧
      (interval < 1000 * 2 ^ 32 → (ReportsTrue u e d interval ↔ NoneWrapped prev cur)) := by
  intro rates u e
  have htrue : NoneWrapped prev cur → ReportsTrue u e d interval :=
    reportsTrue_of_noneWrapped hinterval hbefore hafter hshort device
  refine ⟨evaluate_split hinterval hprev hup device front back,
    faithful_iff hinterval hbefore hafter hshort, htrue, ?_⟩
  intro hlong
  exact ⟨noneWrapped_of_reportsTrue hinterval hbefore hafter hshort device hlong, htrue⟩

namespace Sample

def port (inOctets outOctets inErrors : Int) : InterfaceCounters where
  ifIndex := 1
  name := "Gi1/0/1"
  operStatus := "up"
  speedMbps := some (.finite 1000)
  inOctets := inOctets
  outOctets := outOctets
  inErrors := inErrors
  speed_nonneg := by simp [PyFloat.nonneg]

def advance : TrafficCounters := ⟨1000, 0, 25, 0, 0, 0⟩

theorem advance_short : advance.Short := by
  constructor <;> decide

end Sample

theorem evaluateInterfaceDelta_true_port :
    ReportsTrue (linkUtilization "sw" (Sample.port 1500 0 25)
        (measuredRates (Sample.port 500 0 0) (Sample.port 1500 0 25) 10))
      (linkErrors "sw" (Sample.port 1500 0 25)
        (measuredRates (Sample.port 500 0 0) (Sample.port 1500 0 25) 10)) Sample.advance 10 := by
  have hiff := @evaluateInterfaceDelta_true_iff [Sample.port 500 0 0] (Sample.port 500 0 0)
    (Sample.port 1500 0 25) ⟨500, 0, 0, 0, 0, 0⟩ Sample.advance 10 (by norm_num) rfl rfl
    (by constructor <;> rfl) (by constructor <;> rfl) Sample.advance_short "sw" [] []
  apply hiff.2.2.1
  constructor <;> decide

/-- The receive counter passes 2 ^ 64 and the error counter 2 ^ 32: both rates are negative and
both results healthy. -/
theorem wrapped_counters_negative :
    (¬ ∀ (prev cur : InterfaceCounters) (t d : TrafficCounters) (interval : Rat)
        (device : String), 0 < interval → cur.operStatus = "up" → prev.Reports t →
          cur.Reports (t.advance d) → d.Short →
            ReportsTrue (linkUtilization device cur (measuredRates prev cur interval))
              (linkErrors device cur (measuredRates prev cur interval)) d interval) ∧
      evaluateInterfaceDelta [Sample.port (2 ^ 64 - 500) 0 (2 ^ 32 - 5)] [Sample.port 500 0 20] 10
          "sw" =
        .ok [
          .utilization {
            status := .healthy
            severity := .info
            target := "Gi1/0/1"
            device := "sw"
            ifIndex := 1
            rxBps := -73786976294838202464 / 5
            txBps := 0
            totalBps := -73786976294838202464 / 5
            utilPercent := some (-36893488147419 / 25)
            speedMbps := some (.finite 1000) },
          .errors {
            status := .healthy
            severity := .info
            target := "Gi1/0/1"
            device := "sw"
            ifIndex := 1
            errorsPerSec := -4294967271 / 10
            discardsPerSec := 0
            warnings := [] }] := by
  constructor
  · intro hclaim
    have htrue := hclaim (Sample.port (2 ^ 64 - 500) 0 (2 ^ 32 - 5)) (Sample.port 500 0 20)
      ⟨2 ^ 64 - 500, 0, 2 ^ 32 - 5, 0, 0, 0⟩ Sample.advance 10 "sw" (by norm_num) rfl
      (by constructor <;> decide) (by constructor <;> decide) Sample.advance_short
    exact absurd htrue.nonneg.1 (by decide +kernel)
  · decide +kernel

end NetForge.Ingest.Snmp
