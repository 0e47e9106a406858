import NetForge.Python.Text
import NetForge.Storage.Baselines

/-! # Traces and path changes

`diagnostics/path/traceroute.py`: the result made from a trace and the comparison with
the trace before it, over the snapshots of `storage/history.py`. What a run of the trace
program yields is its input. The digest of a path is that of any hash function. Severities,
evidence and raw output are left out: nothing here reads them.
-/

namespace NetForge.Diagnostics

open NetForge.Core NetForge.Python NetForge.Storage

def textVal (value : Option String) : PyVal := (value.map PyVal.str).getD .none

def numVal (value : Option Rat) : PyVal := (value.map PyVal.num).getD .none

structure Hop where
  hop : Nat
  address : Option String
  hostname : Option String
  rttsMs : List Rat
  lossPercent : Option Rat
  timedOut : Bool
  deriving DecidableEq

namespace Hop

def avgRtt (h : Hop) : Option Rat :=
  if h.rttsMs.isEmpty then none else some (roundTo 2 (h.rttsMs.sum / h.rttsMs.length))

/-- `h.address`, where the empty text counts as none. -/
def answering (h : Hop) : Option String := h.address.filter (· ≠ "")

/-- `h.loss_percent or 0`. -/
def loss (h : Hop) : Rat := h.lossPercent.getD 0

def toDict (h : Hop) : Dict :=
  [("hop", .num h.hop), ("address", textVal h.address), ("hostname", textVal h.hostname),
    ("avg_rtt_ms", numVal h.avgRtt), ("loss_percent", numVal h.lossPercent),
    ("timed_out", .bool h.timedOut), ("rtts_ms", .list (h.rttsMs.map PyVal.num))]

end Hop

def pathFingerprint (sha256 : String → String) (hops : List Hop) : String :=
  let parts := hops.map fun h =>
    let addr := h.answering.getD "*"
    s!"{h.hop}:{addr}"
  String.ofList ((sha256 ("|".intercalate parts)).toList.take 16)

/-- What `run_traceroute` returns. -/
structure TraceRun where
  hops : List Hop
  error : Option String
  deriving DecidableEq

def reached (target : String) (hops : List Hop) : Bool :=
  hops.any (fun h => h.answering.any (containsText target)) ||
    hops.getLast?.any fun h => h.answering.isSome && !h.timedOut

def highLossHops (hops : List Hop) : Nat := hops.countP fun h => 50 ≤ h.loss

def traceStatus (target : String) (hops : List Hop) : DiagnosticStatus :=
  if 3 ≤ highLossHops hops ∨ (hops.getLast?.any (·.timedOut) && !reached target hops) then .degraded
  else if 0 < highLossHops hops then .degraded
  else .healthy

def tracerouteToResult (sha256 : String → String) (target : String) (run : TraceRun) :
    DiagnosticResult :=
  match run.error.filter (· ≠ "") with
  | some error =>
      { module := .traceroute
        status := .unknown
        summary := s!"Traceroute to {target} failed"
        target := some target
        metrics := []
        errors := [error] }
  | none =>
      if run.hops = [] then
        { module := .traceroute
          status := .failed
          summary := s!"No hops discovered toward {target}"
          target := some target
          metrics := []
          errors := [] }
      else
        let fingerprint := pathFingerprint sha256 run.hops
        let count := run.hops.length
        { module := .traceroute
          status := traceStatus target run.hops
          summary := s!"Path to {target}: {count} hops (fingerprint {fingerprint})"
          target := some target
          metrics :=
            [("hop_count", .num count), ("hops", .list (run.hops.map fun h => .dict h.toDict)),
              ("path_fingerprint", .str fingerprint),
              ("high_loss_hops", .num (highLossHops run.hops)),
              ("max_hop_loss_percent", .num ((run.hops.map Hop.loss).max?.getD 0))]
          errors := [] }

/-- `current.metrics.get("path_fingerprint")`, as the column stores it. -/
def storedFingerprint (result : DiagnosticResult) : Option String :=
  match result.metrics.value "path_fingerprint" with
  | .str fingerprint => some fingerprint
  | _ => none

def detectPathChange (target : String) (current : DiagnosticResult) (history : List Snapshot)
    (now : Rat) : DiagnosticResult × List Snapshot :=
  let fingerprint := storedFingerprint current
  let stored := saveSnapshot history "path" target [] fingerprint now
  match previousSnapshot stored "path" target with
  | none =>
      ({ module := .pathChange
         status := .healthy
         summary := s!"No prior path baseline for {target}; baseline stored"
         target := some target
         metrics :=
           [("changed", .bool false), ("baseline_created", .bool true),
             ("path_fingerprint", textVal fingerprint)]
         errors := [] }, stored)
  | some previous =>
      if previous.fingerprint ≠ fingerprint then
        ({ module := .pathChange
           status := .degraded
           summary := s!"Forwarding path to {target} changed"
           target := some target
           metrics :=
             [("changed", .bool true),
               ("previous_fingerprint", textVal previous.fingerprint),
               ("path_fingerprint", textVal fingerprint)]
           errors := [] }, stored)
      else
        ({ module := .pathChange
           status := .healthy
           summary := s!"Path to {target} unchanged"
           target := some target
           metrics :=
             [("changed", .bool false), ("path_fingerprint", textVal fingerprint),
               ("previous_fingerprint", textVal previous.fingerprint)]
           errors := [] }, stored)

/-- The results of one collection, without the hop metrics of further traces. -/
def collectPathDiagnostics (sha256 : String → String) (target : String) (run : TraceRun)
    (history : List Snapshot) (now : Rat) : List DiagnosticResult × List Snapshot :=
  let trace := tracerouteToResult sha256 target run
  let compared := detectPathChange target trace history now
  ([trace, compared.1], compared.2)

end NetForge.Diagnostics
