import NetForge.Core.Result
import NetForge.Python.Number
import Mathlib.Data.List.Sort
import Mathlib.Algebra.BigOperators.Group.List.Basic

/-! # Probe history and baselines

The robust statistics of `storage/history.py` over the recent samples of a
metric, and the comparison of `storage/baselines.py` against them, in exact
arithmetic.
-/

namespace NetForge.Storage

open NetForge.Core Python

/-- A stored probe sample. The payload keeps the numeric entries, the only ones
the statistics read. -/
structure Snapshot where
  domain : String
  key : String
  fingerprint : Option String
  payload : List (String × Rat)
  createdAt : Rat
  deriving DecidableEq

def recentSnapshots (history : List Snapshot) (domain key : String) (limit : Nat) :
    List Snapshot :=
  ((history.filter fun s => s.domain = domain ∧ s.key = key).insertionSort
    fun a b => b.createdAt ≤ a.createdAt).take limit

/-- A sample is stored with the reading of the clock. -/
def saveSnapshot (history : List Snapshot) (domain key : String) (payload : List (String × Rat))
    (fingerprint : Option String) (now : Rat) : List Snapshot :=
  history ++ [⟨domain, key, fingerprint, payload, now⟩]

def previousSnapshot (history : List Snapshot) (domain key : String) : Option Snapshot :=
  (recentSnapshots history domain key 2)[1]?

def sampleValues (snapshots : List Snapshot) (metric : String) : List Rat :=
  snapshots.filterMap fun s => (s.payload.find? (·.1 = metric)).map (·.2)

def median (values : List Rat) : Rat :=
  let sorted := values.insertionSort (· ≤ ·)
  let n := sorted.length
  if n % 2 = 1 then sorted.getD (n / 2) 0
  else (sorted.getD (n / 2 - 1) 0 + sorted.getD (n / 2) 0) / 2

/-- The last of `statistics.quantiles(values, n=20, method="inclusive")`, for two
values or more. -/
def lastVigintile (values : List Rat) : Rat :=
  let sorted := values.insertionSort (· ≤ ·)
  let m := sorted.length - 1
  let j := 19 * m / 20
  let delta := 19 * m % 20
  (sorted.getD j 0 * (20 - delta : Nat) + sorted.getD (j + 1) 0 * (delta : Nat)) / 20

structure RollingStats where
  sampleCount : Nat
  median : Rat
  p95 : Rat
  mad : Rat
  deriving DecidableEq

def rollingStats (history : List Snapshot) (domain key metric : String) (limit : Nat) :
    Option RollingStats :=
  match sampleValues (recentSnapshots history domain key limit) metric with
  | [] => none
  | v :: vs =>
      let values := v :: vs
      let med := median values
      some
        { sampleCount := values.length
          median := med
          p95 := if values.length < 2 then (v :: vs).foldl max v else lastVigintile values
          mad := median (values.map fun x => |x - med|) }

/-- The result of a baseline comparison: status, severity and the metrics the
source reports with it. -/
structure BaselineDelta where
  status : DiagnosticStatus
  severity : Severity
  metric : String
  current : Rat
  baseline : Option Rat
  ratio : Option Rat
  deviated : Bool
  sampleCount : Nat
  deriving DecidableEq

/-- The smallest absolute change that counts: 1 for percentages, 5 otherwise. -/
def absGuard (metricIsPercent : Bool) : Rat := if metricIsPercent then 1 else 5

/-- The comparison of `record_and_compare` against the statistics read before
the new sample is stored. -/
def compareToBaseline (stats : Option RollingStats) (metric : String) (metricIsPercent : Bool)
    (current : Rat) (higherIsWorse : Bool) (warnRatio failRatio : Rat) : BaselineDelta :=
  match stats.filter (fun st => st.median ≠ 0) with
  | none =>
      { status := .healthy
        severity := .info
        metric
        current
        baseline := none
        ratio := none
        deviated := false
        sampleCount := (stats.map (·.sampleCount)).getD 0 }
  | some st =>
      let ratio := current / st.median
      let delta := |current - st.median|
      let moved := decide (absGuard metricIsPercent ≤ delta ∨ 10 ≤ current)
      let unusual := decide (st.p95 < current ∨ (0 < st.mad ∧ 3 * st.mad ≤ delta))
      let enough := decide (5 ≤ st.sampleCount)
      let worsened :=
        enough &&
          if higherIsWorse then decide (warnRatio ≤ ratio) && (moved && unusual)
          else decide (warnRatio ≠ 0) && decide (ratio ≤ 1 / warnRatio)
      let failed :=
        higherIsWorse && enough && decide (failRatio ≤ ratio) && moved && unusual
      { status := if failed then .failed else if worsened then .degraded else .healthy
        severity := if failed then .high else if worsened then .medium else .info
        metric
        current
        baseline := some (roundTo 4 st.median)
        ratio := some (roundTo 3 ratio)
        deviated := worsened
        sampleCount := st.sampleCount }

end NetForge.Storage
