import NetForge.Core.Result
import NetForge.Python.Float
import Mathlib.Data.List.Dedup
import Mathlib.Data.List.Sort

/-! # Interface counters

`ingest/snmp_counters.py`: the join of the walked IF-MIB columns into one row for each
interface, and the rates between two polls, with `core/metrics/throughput.py`. A walk is an
ordered dict from index suffixes to the cells of a JSON document.
-/

namespace NetForge.Ingest.Snmp

open NetForge.Core NetForge.Python

/-! ## Cells -/

/-- A value of a JSON document. `json.loads` reads no integer of more than 4300 digits. -/
inductive Cell
  | null
  | bool (b : Bool)
  | int (v : Int) (short : v.natAbs < 10 ^ maxStrDigits)
  | float (x : PyFloat)
  | str (s : String)
  | list (items : List Cell)
  | dict (items : List (String × Cell))

namespace Cell

def toPyInt : Cell → Except PyError Int
  | .bool b => .ok (if b then 1 else 0)
  | .int v _ => .ok v
  | .float (.finite q) => .ok (truncate q)
  | .float (.infinite _) => .error .overflowError
  | .float .nan => .error (.valueError "cannot convert float NaN to integer")
  | .str s => Python.int s
  | _ => .error .typeError

def toPyFloat : Cell → Except PyError PyFloat
  | .bool b => .ok (.finite (if b then 1 else 0))
  | .int v _ => PyFloat.ofInt v
  | .float x => .ok x
  | .str s => PyFloat.ofText s
  | _ => .error .typeError

/-- `cell in (None, "")`. -/
def isBlank : Cell → Bool
  | .null => true
  | .str s => s = ""
  | _ => false

/-- `str(cell)`; `repr` is the text of a float, and of a list or a dict what is between its
brackets. -/
def text (repr : Cell → String) : Cell → String
  | .null => "None"
  | .bool b => if b then "True" else "False"
  | .int v _ => toString v
  | .float x => repr (.float x)
  | .str s => s
  | .list items => "[" ++ repr (.list items) ++ "]"
  | .dict items => "\x7b" ++ repr (.dict items) ++ "\x7d"

end Cell

/-- What `walk` returns for a column. -/
abbrev Column := List (String × Cell)

def Column.cell (column : Column) (key : String) : Cell := (column.lookup key).getD .null

/-- `_to_int`: type and value errors count as zero. -/
def toInt (cell : Cell) : Except PyError Int :=
  match cell.toPyInt with
  | .ok v => .ok v
  | .error e => if e = .typeError ∨ e.isValueError then .ok 0 else .error e

/-! ## Rows -/

structure InterfaceCounters where
  ifIndex : Int
  name : String
  ifAlias : Option String := none
  operStatus : String := "unknown"
  speedMbps : Option PyFloat := none
  inOctets : Int := 0
  outOctets : Int := 0
  inErrors : Int := 0
  outErrors : Int := 0
  inDiscards : Int := 0
  outDiscards : Int := 0
  collectedAt : Rat := 0
  speed_nonneg : ∀ s ∈ speedMbps, s.nonneg = true

/-- `OPER_STATUS_NAMES.get(code, "unknown")`. -/
def operStatusName (code : Int) : String :=
  if code = 1 then "up"
  else if code = 2 then "down"
  else if code = 3 then "testing"
  else if code = 4 then "unknown"
  else if code = 5 then "dormant"
  else if code = 6 then "notPresent"
  else if code = 7 then "lowerLayerDown"
  else "unknown"

/-- `float(speed_raw) if speed_raw not in (None, "") else None`. -/
def readSpeed (cell : Cell) : Except PyError (Option PyFloat) :=
  if cell.isBlank then pure none else some <$> cell.toPyFloat

def checkedSpeed (speed : Option PyFloat) :
    Except PyError { speed : Option PyFloat // ∀ s ∈ speed, s.nonneg = true } :=
  if h : ∀ s ∈ speed, s.nonneg = true then .ok ⟨speed, h⟩
  else .error (.valueError "Input should be greater than or equal to 0")

structure Columns where
  descr : Column
  ifAlias : Column
  oper : Column
  speed : Column
  hcIn : Column
  hcOut : Column
  inErr : Column
  outErr : Column
  inDisc : Column
  outDisc : Column

/-- The keys of the description column that are taken for an index. -/
def isIndexText (key : String) : Bool := isDigitText (lstripChar '-' key)

def interfaceIndices (descr : Column) : Except PyError (List Int) := do
  let indices ← ((descr.map (·.1)).filter isIndexText).mapM Python.int
  return indices.dedup.insertionSort (· ≤ ·)

def interfaceName (repr : Cell → String) (descr : Column) (key : String) : String :=
  ((descr.lookup key).map (·.text repr)).getD s!"if{key}"

/-- `str(alias[key]) if key in alias and alias[key] not in (None, "") else None`. -/
def interfaceAlias (repr : Cell → String) (ifAlias : Column) (key : String) : Option String :=
  ((ifAlias.lookup key).filter (!·.isBlank)).map (·.text repr)

/-- The row of one interface: its cells are those under the text of its index. -/
def interfaceRow (repr : Cell → String) (columns : Columns) (collectedAt : Rat) (idx : Int) :
    Except PyError InterfaceCounters := do
  let key ← Python.str idx
  let operRaw ← toInt (columns.oper.cell key)
  let speed ← readSpeed (columns.speed.cell key)
  let inOctets ← toInt (columns.hcIn.cell key)
  let outOctets ← toInt (columns.hcOut.cell key)
  let inErrors ← toInt (columns.inErr.cell key)
  let outErrors ← toInt (columns.outErr.cell key)
  let inDiscards ← toInt (columns.inDisc.cell key)
  let outDiscards ← toInt (columns.outDisc.cell key)
  let checked ← checkedSpeed speed
  return {
    ifIndex := idx
    name := interfaceName repr columns.descr key
    ifAlias := interfaceAlias repr columns.ifAlias key
    operStatus := operStatusName operRaw
    speedMbps := checked.val
    inOctets, outOctets, inErrors, outErrors, inDiscards, outDiscards, collectedAt
    speed_nonneg := checked.property }

def pollInterfaceCounters (repr : Cell → String) (columns : Columns) (collectedAt : Rat) :
    Except PyError (List InterfaceCounters) := do
  let indices ← interfaceIndices columns.descr
  indices.mapM (interfaceRow repr columns collectedAt)

/-! ## Rates between two polls -/

def bytesPerSecFromDelta (byteDelta seconds : Rat) : Rat :=
  if seconds ≤ 0 then 0 else byteDelta / seconds

def bpsFromByteDelta (byteDelta seconds : Rat) : Rat := bytesPerSecFromDelta byteDelta seconds * 8

def utilizationPercent (bps : Rat) (linkSpeedBps : Option PyFloat) : Option Rat :=
  match linkSpeedBps with
  | none => none
  | some (.finite q) => if q ≤ 0 then none else some (roundTo 2 (min 100 (bps / q * 100)))
  | some (.infinite negative) => if negative then none else some (roundTo 2 (min 100 0))
  | some .nan => some (roundTo 2 100)

/-- `cur.speed_mbps * 1_000_000 if cur.speed_mbps else None`. -/
def InterfaceCounters.capacity (c : InterfaceCounters) : Option PyFloat :=
  (c.speedMbps.filter (·.truthy)).map (·.scale 1000000)

/-- The rates of an interface between two polls, before they are rounded for the report. -/
@[ext] structure Rates where
  rxBps : Rat
  txBps : Rat
  errRate : Rat
  discRate : Rat

def Rates.totalBps (r : Rates) : Rat := r.rxBps + r.txBps

def measuredRates (prev cur : InterfaceCounters) (interval : Rat) : Rates where
  rxBps := bpsFromByteDelta (cur.inOctets - prev.inOctets : Int) interval
  txBps := bpsFromByteDelta (cur.outOctets - prev.outOctets : Int) interval
  errRate :=
    ((cur.inErrors - prev.inErrors) + (cur.outErrors - prev.outErrors) : Int) / interval
  discRate :=
    ((cur.inDiscards - prev.inDiscards) + (cur.outDiscards - prev.outDiscards) : Int) / interval

structure LinkUtilization where
  status : DiagnosticStatus
  severity : Severity
  target : String
  device : String
  ifIndex : Int
  rxBps : Rat
  txBps : Rat
  totalBps : Rat
  utilPercent : Option Rat
  speedMbps : Option PyFloat
  deriving DecidableEq

structure LinkErrors where
  status : DiagnosticStatus
  severity : Severity
  target : String
  device : String
  ifIndex : Int
  errorsPerSec : Rat
  discardsPerSec : Rat
  warnings : List String
  deriving DecidableEq

inductive LinkResult
  | utilization (u : LinkUtilization)
  | errors (e : LinkErrors)
  deriving DecidableEq

/-- `cur.alias or cur.name`. -/
def InterfaceCounters.label (c : InterfaceCounters) : String :=
  (c.ifAlias.filter (· ≠ "")).getD c.name

def linkUtilization (device : String) (cur : InterfaceCounters) (rates : Rates) :
    LinkUtilization :=
  let util := utilizationPercent rates.totalBps cur.capacity
  { status := if util.any (90 ≤ ·) ∨ util.any (75 ≤ ·) then .degraded else .healthy
    severity := if util.any (90 ≤ ·) then .high else if util.any (75 ≤ ·) then .medium else .info
    target := cur.label
    device
    ifIndex := cur.ifIndex
    rxBps := roundTo 1 rates.rxBps
    txBps := roundTo 1 rates.txBps
    totalBps := roundTo 1 rates.totalBps
    utilPercent := util
    speedMbps := cur.speedMbps }

def linkErrors (device : String) (cur : InterfaceCounters) (rates : Rates) : LinkErrors :=
  let failing := 5 ≤ rates.errRate ∨ 5 ≤ rates.discRate
  let rising := 1 / 2 ≤ rates.errRate ∨ 1 / 2 ≤ rates.discRate
  { status := if failing then .failed else if rising then .degraded else .healthy
    severity := if failing then .high else if rising then .medium else .info
    target := cur.label
    device
    ifIndex := cur.ifIndex
    errorsPerSec := roundTo 3 rates.errRate
    discardsPerSec := roundTo 3 rates.discRate
    warnings := if rising then ["Device-level interface errors/discards rising"] else [] }

/-- `before_by_index.get(if_index)`: of several rows of one index, the last one counts. -/
def previousCounters (before : List InterfaceCounters) (ifIndex : Int) :
    Option InterfaceCounters :=
  (before.filter (·.ifIndex = ifIndex)).getLast?

def interfaceResults (before : List InterfaceCounters) (interval : Rat) (device : String)
    (cur : InterfaceCounters) : List LinkResult :=
  match previousCounters before cur.ifIndex with
  | none => []
  | some prev =>
      if cur.operStatus ≠ "up" then []
      else
        let rates := measuredRates prev cur interval
        [.utilization (linkUtilization device cur rates), .errors (linkErrors device cur rates)]

def evaluateInterfaceDelta (before after : List InterfaceCounters) (interval : Rat)
    (device : String) : Except PyError (List LinkResult) :=
  if interval ≤ 0 then .error (.valueError "interval must be positive")
  else .ok (after.flatMap (interfaceResults before interval device))

end NetForge.Ingest.Snmp
