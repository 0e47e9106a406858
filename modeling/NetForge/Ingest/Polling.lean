import NetForge.Ingest.Counters
import NetForge.Python.Digits

/-! # Polling with bad cells

`poll_interface_counters` against the rows that a tolerant poll would give. The poll looks a
cell up under the decimal text of an index only, and takes whatever `int`, `float` and `str`
make of it for the value: a minus, a truth value or a null can stay in a row. `_to_int`
catches what a bad cell raises, except for an infinite float; the speed and the index keys are
converted without a net, so one of them loses the whole device.
-/

namespace NetForge.Ingest.Snmp

open NetForge.Python

variable {α β : Type}

/-! ## A tolerant poll -/

/-- The index that a key denotes: decimal digits, with a minus or without. -/
def indexOfKey? (key : String) : Option Int := signedDecimal? key.toList

/-- The cell of an index: the one under its decimal text or, without one, the first whose key
denotes the index. -/
def Column.cellOf (column : Column) (idx : Int) : Option Cell :=
  (column.lookup (toString idx)).or
    ((column.find? fun entry => indexOfKey? entry.1 = some idx).map (·.2))

/-- What the cell of an index holds where that is usable, or the neutral value. -/
def Column.field (column : Column) (usable : Cell → Option α) (neutral : α) (idx : Int) : α :=
  ((column.cellOf idx).bind usable).getD neutral

/-- A count: a finite number that is not negative, less its fraction, or a text of an integer
that is not. -/
def Cell.count? : Cell → Option Int
  | .int v _ => if 0 ≤ v then some v else none
  | .float (.finite q) => if 0 ≤ q then some (truncate q) else none
  | .str s => (Python.int s).toOption.filter (0 ≤ ·)
  | _ => none

def Cell.status? (cell : Cell) : Option String := cell.count?.map operStatusName

/-- A speed: a finite number that is not negative, or a text of one. -/
def Cell.speed? : Cell → Option PyFloat
  | .int v _ => if 0 ≤ v ∧ v.natAbs < PyFloat.overflowBound then some (.finite v) else none
  | .float (.finite q) => if 0 ≤ q then some (.finite q) else none
  | .str s =>
      match PyFloat.ofText s with
      | .ok (.finite q) => if 0 ≤ q then some (.finite q) else none
      | _ => none
  | _ => none

/-- A label: a text that is not empty, or the text of a number. -/
def Cell.label? (repr : Cell → String) : Cell → Option String
  | .int v _ => some (toString v)
  | .float x => some (repr (.float x))
  | .str s => if s = "" then none else some s
  | _ => none

def portName (idx : Int) : String := s!"if{toString idx}"

/-- The distinct indices of the description column, in increasing order. -/
def expectedIndices (descr : Column) : List Int :=
  ((descr.map (·.1)).filterMap indexOfKey?).dedup.insertionSort (· ≤ ·)

theorem speed?_nonneg {cell : Cell} {s : PyFloat} (h : cell.speed? = some s) :
    s.nonneg = true := by
  have hfinite : ∀ {q : Rat} {p : Prop} [Decidable p], (p → 0 ≤ q) →
      (if p then some (PyFloat.finite q) else none) = some s → s.nonneg = true := by
    intro q p _ hp hs
    by_cases hcond : p
    · rw [if_pos hcond] at hs
      obtain rfl := Option.some.inj hs
      simpa [PyFloat.nonneg] using hp hcond
    · rw [if_neg hcond] at hs
      cases hs
  cases cell with
  | int v short => exact hfinite (fun hv => by exact_mod_cast hv.1) h
  | float x =>
      cases x with
      | finite q => exact hfinite id h
      | infinite negative => cases h
      | nan => cases h
  | str text =>
      unfold Cell.speed? at h
      simp only at h
      split at h
      · exact hfinite id h
      · cases h
  | null => cases h
  | bool b => cases h
  | list items => cases h
  | dict items => cases h

/-- The row of an index, each unusable cell replaced by the neutral value of its field. -/
def expectedRow (repr : Cell → String) (columns : Columns) (collectedAt : Rat) (idx : Int) :
    InterfaceCounters where
  ifIndex := idx
  name := columns.descr.field (·.label? repr) (portName idx) idx
  ifAlias := (columns.ifAlias.cellOf idx).bind (·.label? repr)
  operStatus := columns.oper.field (·.status?) "unknown" idx
  speedMbps := (columns.speed.cellOf idx).bind (·.speed?)
  inOctets := columns.hcIn.field (·.count?) 0 idx
  outOctets := columns.hcOut.field (·.count?) 0 idx
  inErrors := columns.inErr.field (·.count?) 0 idx
  outErrors := columns.outErr.field (·.count?) 0 idx
  inDiscards := columns.inDisc.field (·.count?) 0 idx
  outDiscards := columns.outDisc.field (·.count?) 0 idx
  collectedAt := collectedAt
  speed_nonneg := by
    intro s hs
    obtain ⟨cell, -, hcell⟩ := Option.bind_eq_some_iff.mp hs
    exact speed?_nonneg hcell

def expectedRows (repr : Cell → String) (columns : Columns) (collectedAt : Rat) :
    List InterfaceCounters :=
  (expectedIndices columns.descr).map (expectedRow repr columns collectedAt)

/-! ## Cells and keys that a poll reads for what they are -/

/-- Digits behind minus signs denote an integer, with no more digits than `int` takes. -/
def ReadableKey (key : String) : Prop :=
  isIndexText key = true →
    (indexOfKey? key).isSome ∧ (key.toList.dropWhile (· = '-')).length ≤ maxStrDigits

/-- No truth value but `False`, nothing negative that is not cut to zero, nothing infinite. -/
def Cell.CountOk : Cell → Prop
  | .bool b => b = false
  | .int v _ => 0 ≤ v
  | .float (.finite q) => -1 < q
  | .float (.infinite _) => False
  | .str s => ∀ v, Python.int s = .ok v → 0 ≤ v
  | _ => True

/-- No truth value but `False`, nothing infinite. -/
def Cell.StatusOk : Cell → Prop
  | .bool b => b = false
  | .float (.infinite _) => False
  | _ => True

def Cell.SpeedOk (cell : Cell) : Prop := cell.isBlank = true ∨ cell.speed?.isSome

def Cell.NameOk : Cell → Prop
  | .int _ _ => True
  | .float _ => True
  | .str s => s ≠ ""
  | _ => False

def Cell.AliasOk (cell : Cell) : Prop := cell.isBlank = true ∨ cell.NameOk

/-- The cell under the decimal text of an index is of a kind; where there is none, neither is
a cell with a value under another text of the index. -/
def Column.Reads (column : Column) (ok : Cell → Prop) (usable : Cell → Option α) (neutral : α)
    (idx : Int) : Prop :=
  match column.lookup (toString idx) with
  | some cell => ok cell
  | none => column.field usable neutral idx = neutral

def Columns.counts (columns : Columns) : List Column :=
  [columns.hcIn, columns.hcOut, columns.inErr, columns.outErr, columns.inDisc, columns.outDisc]

structure Columns.RowReads (repr : Cell → String) (columns : Columns) (idx : Int) : Prop where
  name : columns.descr.Reads Cell.NameOk (·.label? repr) (portName idx) idx
  ifAlias : columns.ifAlias.Reads Cell.AliasOk (fun c => (c.label? repr).map some) none idx
  oper : columns.oper.Reads Cell.StatusOk (·.status?) "unknown" idx
  speed : columns.speed.Reads Cell.SpeedOk (fun c => c.speed?.map some) none idx
  counts : ∀ column ∈ columns.counts, column.Reads Cell.CountOk (·.count?) 0 idx

/-- Every key and every cell is read for what it is. -/
structure Legible (repr : Cell → String) (columns : Columns) : Prop where
  keys : ∀ key ∈ columns.descr.map (·.1), ReadableKey key
  rows : ∀ idx ∈ expectedIndices columns.descr, columns.RowReads repr idx

/-! ## One cell -/

/-- A field is read right exactly when the cell that is read gives it, or none does. -/
theorem Column.reads_iff {column : Column} {ok : Cell → Prop} {usable : Cell → Option α}
    {neutral : α} {idx : Int} (read : Option Cell → β) (result : α → β)
    (hsome : ∀ cell, read (some cell) = result ((usable cell).getD neutral) ↔ ok cell)
    (hnone : ∀ value, read none = result value ↔ value = neutral) :
    read (column.lookup (toString idx)) = result (column.field usable neutral idx) ↔
      column.Reads ok usable neutral idx := by
  unfold Column.Reads
  cases hcell : column.lookup (toString idx) with
  | none => exact hnone _
  | some cell =>
      have hfield : column.field usable neutral idx = (usable cell).getD neutral := by
        unfold Column.field Column.cellOf
        rw [hcell]
        rfl
      rw [hfield]
      exact hsome cell

theorem truncate_lt_one {q : Rat} (h : q < 0) : truncate q < 1 := by
  have hnum : 0 ≤ -q.num := Int.neg_nonneg.mpr (Rat.num_neg.mpr h).le
  have hcut : 0 ≤ (-q.num).tdiv q.den := Int.tdiv_nonneg hnum (Int.natCast_nonneg _)
  rw [Int.neg_tdiv] at hcut
  unfold truncate
  omega

theorem truncate_eq_zero_iff {q : Rat} (h : q < 0) : truncate q = 0 ↔ -1 < q := by
  have hden : (0 : Rat) < q.den := by exact_mod_cast q.den_pos
  have hquot : q = q.num / q.den := (Rat.num_div_den q).symm
  have hlt : -1 < q ↔ -(q.den : Int) < q.num := by
    conv_lhs => rw [hquot, lt_div_iff₀ hden, neg_one_mul]
    exact_mod_cast Iff.rfl
  have hnum : q.num < 0 := Rat.num_neg.mpr h
  have hzero : truncate q = 0 ↔ q.num.natAbs < q.den := by
    unfold truncate
    rw [← Int.natAbs_eq_zero, Int.natAbs_tdiv, Int.natAbs_natCast]
    exact Nat.div_eq_zero_iff_lt q.den_pos
  rw [hlt, hzero]
  omega

theorem toInt_infinite (negative : Bool) :
    toInt (.float (.infinite negative)) = .error .overflowError := by
  cases negative <;> rfl

theorem int_error {s : String} {e : PyError} (h : Python.int s = .error e) :
    e.isValueError = true := by
  unfold Python.int at h
  simp only at h
  split at h
  · cases h
    rfl
  · split at h
    · cases h
      rfl
    · cases h

theorem toInt_str (s : String) : toInt (.str s) = .ok ((Python.int s).toOption.getD 0) := by
  have hint : (Cell.str s).toPyInt = Python.int s := rfl
  unfold toInt
  rw [hint]
  cases hs : Python.int s with
  | ok v => rfl
  | error e => exact if_pos (.inr (int_error hs))

/-- `_to_int` gives the count of a cell that is none but a text of a number or a number. -/
theorem toInt_eq_iff (cell : Cell) :
    toInt cell = .ok (cell.count?.getD 0) ↔ cell.CountOk := by
  cases cell with
  | null => exact ⟨fun _ => trivial, fun _ => rfl⟩
  | list items => exact ⟨fun _ => trivial, fun _ => rfl⟩
  | dict items => exact ⟨fun _ => trivial, fun _ => rfl⟩
  | bool b =>
      have hread : toInt (.bool b) = .ok (if b then 1 else 0) := rfl
      have hcount : (Cell.bool b).count? = none := rfl
      have hok : (Cell.bool b).CountOk ↔ b = false := Iff.rfl
      rw [hread, hcount, hok]
      cases b <;> simp
  | int v short =>
      have hread : toInt (.int v short) = .ok v := rfl
      have hcount : (Cell.int v short).count? = if 0 ≤ v then some v else none := rfl
      have hok : (Cell.int v short).CountOk ↔ 0 ≤ v := Iff.rfl
      rw [hread, hcount, hok]
      by_cases hv : 0 ≤ v
      · simp [hv]
      · simp only [hv, if_false, Option.getD_none, Except.ok.injEq, iff_false]
        omega
  | float x =>
      cases x with
      | nan => exact ⟨fun _ => trivial, fun _ => rfl⟩
      | infinite negative =>
          have hok : (Cell.float (.infinite negative)).CountOk ↔ False := Iff.rfl
          rw [toInt_infinite, hok]
          simp
      | finite q =>
          have hread : toInt (.float (.finite q)) = .ok (truncate q) := rfl
          have hcount : (Cell.float (.finite q)).count? =
              if 0 ≤ q then some (truncate q) else none := rfl
          have hok : (Cell.float (.finite q)).CountOk ↔ -1 < q := Iff.rfl
          rw [hread, hcount, hok]
          by_cases hq : 0 ≤ q
          · simp only [hq, if_true, Option.getD_some, true_iff]
            linarith
          · simp only [hq, if_false, Option.getD_none, Except.ok.injEq]
            exact truncate_eq_zero_iff (not_le.mp hq)
  | str s =>
      rw [toInt_str]
      have hcount : (Cell.str s).count? = (Python.int s).toOption.filter (0 ≤ ·) := rfl
      have hok : (Cell.str s).CountOk ↔ ∀ v, Python.int s = .ok v → 0 ≤ v := Iff.rfl
      rw [hcount, hok]
      cases Python.int s with
      | error e => simp [Except.toOption]
      | ok v =>
          by_cases hv : 0 ≤ v
          · simp [Except.toOption, Option.filter, hv]
          · simp only [Except.toOption, Option.filter, hv, decide_false, Bool.false_eq_true,
              if_false, Option.getD_some, Option.getD_none, Except.ok.injEq, forall_eq', iff_false]
            omega

theorem operStatusName_of_lt {v : Int} (h : v < 1) : operStatusName v = "unknown" := by
  unfold operStatusName
  split_ifs <;> first | omega | rfl

/-- The status of a cell, where nothing but a number or a text of one is read as a code. -/
theorem status_read_iff (cell : Cell) :
    (toInt cell).map operStatusName = .ok (cell.status?.getD "unknown") ↔ cell.StatusOk := by
  have hread : ∀ {cell : Cell} {v : Int}, toInt cell = .ok v → cell.count? = some v ∨
      (cell.count? = none ∧ v < 1) →
      (toInt cell).map operStatusName = .ok (cell.status?.getD "unknown") := by
    intro cell v hv hcount
    rw [hv]
    rcases hcount with hcount | ⟨hcount, hlow⟩
    · rw [Cell.status?, hcount]
      rfl
    · rw [Cell.status?, hcount, Except.map, operStatusName_of_lt hlow]
      rfl
  cases cell with
  | null => exact ⟨fun _ => trivial, fun _ => rfl⟩
  | list items => exact ⟨fun _ => trivial, fun _ => rfl⟩
  | dict items => exact ⟨fun _ => trivial, fun _ => rfl⟩
  | bool b =>
      have hok : (Cell.bool b).StatusOk ↔ b = false := Iff.rfl
      have hmap : (toInt (.bool b)).map operStatusName =
          .ok (operStatusName (if b then 1 else 0)) := rfl
      have hstatus : (Cell.bool b).status? = none := rfl
      rw [hok, hmap, hstatus]
      cases b <;> decide
  | int v short =>
      refine ⟨fun _ => trivial, fun _ => hread rfl ?_⟩
      have hcount : (Cell.int v short).count? = if 0 ≤ v then some v else none := rfl
      rw [hcount]
      by_cases hv : 0 ≤ v
      · exact .inl (if_pos hv)
      · exact .inr ⟨if_neg hv, by omega⟩
  | float x =>
      cases x with
      | nan => exact ⟨fun _ => trivial, fun _ => rfl⟩
      | infinite negative =>
          have hok : (Cell.float (.infinite negative)).StatusOk ↔ False := Iff.rfl
          rw [toInt_infinite, hok, Except.map]
          simp
      | finite q =>
          refine ⟨fun _ => trivial, fun _ => hread rfl ?_⟩
          have hcount : (Cell.float (.finite q)).count? =
              if 0 ≤ q then some (truncate q) else none := rfl
          rw [hcount]
          by_cases hq : 0 ≤ q
          · exact .inl (if_pos hq)
          · exact .inr ⟨if_neg hq, truncate_lt_one (not_le.mp hq)⟩
  | str s =>
      refine ⟨fun _ => trivial, fun _ => hread (toInt_str s) ?_⟩
      have hcount : (Cell.str s).count? = (Python.int s).toOption.filter (0 ≤ ·) := rfl
      rw [hcount]
      cases Python.int s with
      | error e => exact .inr ⟨rfl, Int.zero_lt_one⟩
      | ok v =>
          by_cases hv : 0 ≤ v
          · exact .inl (by simp [Except.toOption, Option.filter, hv])
          · refine .inr ⟨by simp [Except.toOption, Option.filter, hv], ?_⟩
            have hlow : v < 1 := by omega
            exact hlow

theorem speed?_blank {cell : Cell} (h : cell.isBlank = true) : cell.speed? = none := by
  cases cell with
  | null => rfl
  | str s =>
      have hs : s = "" := by simpa [Cell.isBlank] using h
      rw [hs]
      decide +kernel
  | bool b => cases h
  | int v short => cases h
  | float x => cases h
  | list items => cases h
  | dict items => cases h

def validSpeed (cell : Cell) : Except PyError (Option PyFloat) := do
  let checked ← checkedSpeed (← readSpeed cell)
  return checked.val

theorem validSpeed_blank {cell : Cell} (h : cell.isBlank = true) : validSpeed cell = .ok none := by
  unfold validSpeed readSpeed
  rw [if_pos h]
  rfl

theorem validSpeed_of_float {cell : Cell} (h : cell.isBlank = false) {x : PyFloat}
    (hx : cell.toPyFloat = .ok x) {value : Option PyFloat} :
    validSpeed cell = .ok value ↔ x.nonneg = true ∧ value = some x := by
  have hread : readSpeed cell = .ok (some x) := by
    unfold readSpeed
    rw [if_neg (by simp [h]), hx]
    rfl
  unfold validSpeed
  rw [hread, ok_bind]
  by_cases hnonneg : x.nonneg = true
  · have hall : ∀ s ∈ some x, s.nonneg = true := by
      intro s hs
      rw [← Option.some.inj hs]
      exact hnonneg
    have hchecked : checkedSpeed (some x) = .ok ⟨some x, hall⟩ := dif_pos hall
    rw [hchecked, ok_bind]
    constructor
    · intro heq
      exact ⟨hnonneg, (Except.ok.inj heq).symm⟩
    · rintro ⟨-, rfl⟩
      rfl
  · have hchecked : checkedSpeed (some x) =
        .error (.valueError "Input should be greater than or equal to 0") :=
      dif_neg fun hall => hnonneg (hall x rfl)
    rw [hchecked]
    simp only [hnonneg, false_and, iff_false, Bool.false_eq_true]
    exact (fun heq => nomatch heq)

theorem validSpeed_of_error {cell : Cell} (h : cell.isBlank = false) {e : PyError}
    (he : cell.toPyFloat = .error e) (value : Option PyFloat) :
    validSpeed cell ≠ .ok value := by
  have hread : readSpeed cell = .error e := by
    unfold readSpeed
    rw [if_neg (by simp [h]), he]
    rfl
  unfold validSpeed
  rw [hread]
  exact (fun heq => nomatch heq)

theorem toPyFloat_of_speed? {cell : Cell} {s : PyFloat} (h : cell.speed? = some s) :
    cell.toPyFloat = .ok s := by
  have hfinite : ∀ {q : Rat} {p : Prop} [Decidable p],
      (if p then some (PyFloat.finite q) else none) = some s → p ∧ PyFloat.finite q = s := by
    intro q p _ hs
    by_cases hcond : p
    · rw [if_pos hcond] at hs
      exact ⟨hcond, Option.some.inj hs⟩
    · rw [if_neg hcond] at hs
      cases hs
  cases cell with
  | int v short =>
      obtain ⟨hv, rfl⟩ := hfinite h
      have hread : (Cell.int v short).toPyFloat = PyFloat.ofInt v := rfl
      rw [hread, PyFloat.ofInt, if_neg (Nat.not_le.mpr hv.2)]
  | float x =>
      cases x with
      | finite q =>
          obtain ⟨-, rfl⟩ := hfinite h
          rfl
      | infinite negative => cases h
      | nan => cases h
  | str text =>
      have htext : (Cell.str text).toPyFloat = PyFloat.ofText text := rfl
      unfold Cell.speed? at h
      simp only at h
      split at h
      · rename_i q hq
        obtain ⟨-, rfl⟩ := hfinite h
        rw [htext, hq]
      · cases h
  | null => cases h
  | bool b => cases h
  | list items => cases h
  | dict items => cases h

theorem speed_read_iff (cell : Cell) : validSpeed cell = .ok cell.speed? ↔ cell.SpeedOk := by
  unfold Cell.SpeedOk
  by_cases hblank : cell.isBlank = true
  · rw [validSpeed_blank hblank, speed?_blank hblank]
    simp [hblank]
  have hfilled : cell.isBlank = false := Bool.eq_false_of_not_eq_true hblank
  rw [hfilled]
  simp only [Bool.false_eq_true, false_or]
  cases hspeed : cell.speed? with
  | none =>
      -- What is neither blank nor usable raises, or stays in the row.
      have hread : validSpeed cell ≠ .ok none := by
        cases hfloat : cell.toPyFloat with
        | error e => exact validSpeed_of_error hfilled hfloat none
        | ok x => simp [validSpeed_of_float hfilled hfloat]
      simp [hread]
  | some s =>
      have hfloat := toPyFloat_of_speed? hspeed
      simp [validSpeed_of_float hfilled hfloat, speed?_nonneg hspeed]

theorem name_read_iff (repr : Cell → String) (idx : Int) (cell : Cell) :
    cell.text repr = (cell.label? repr).getD (portName idx) ↔ cell.NameOk := by
  have hhead : (portName idx).toList.head? = some 'i' := by
    have htext : portName idx = "if" ++ toString idx := rfl
    rw [htext, String.toList_append]
    rfl
  have hother : ∀ {text : String}, text.toList.head? ≠ some 'i' → text ≠ portName idx := by
    intro text htext heq
    rw [heq] at htext
    exact htext hhead
  cases cell with
  | int v short => exact ⟨fun _ => trivial, fun _ => rfl⟩
  | float x => exact ⟨fun _ => trivial, fun _ => rfl⟩
  | str s =>
      have hlabel : (Cell.str s).label? repr = if s = "" then none else some s := rfl
      have hok : (Cell.str s).NameOk ↔ s ≠ "" := Iff.rfl
      have htext : (Cell.str s).text repr = s := rfl
      rw [hlabel, hok, htext]
      by_cases hs : s = ""
      · subst hs
        have hblank : "" ≠ portName idx := hother (by decide)
        simp [hblank]
      · simp [hs]
  | null =>
      have hnull : "None" ≠ portName idx := hother (by decide)
      exact ⟨fun h => absurd h hnull, (fun h => nomatch h)⟩
  | bool b =>
      have htrue : "True" ≠ portName idx := hother (by decide)
      have hfalse : "False" ≠ portName idx := hother (by decide)
      cases b with
      | true => exact ⟨fun h => absurd h htrue, (fun h => nomatch h)⟩
      | false => exact ⟨fun h => absurd h hfalse, (fun h => nomatch h)⟩
  | list items =>
      refine ⟨fun h => absurd h (hother ?_), (fun h => nomatch h)⟩
      simp [Cell.text]
  | dict items =>
      refine ⟨fun h => absurd h (hother ?_), (fun h => nomatch h)⟩
      simp [Cell.text]

theorem alias_read_iff (repr : Cell → String) (cell : Cell) :
    ((some cell).filter (!·.isBlank)).map (·.text repr) = cell.label? repr ↔ cell.AliasOk := by
  unfold Cell.AliasOk
  by_cases hblank : cell.isBlank = true
  · have hnone : cell.label? repr = none := by
      cases cell with
      | null => rfl
      | str s =>
          have hs : s = "" := by simpa [Cell.isBlank] using hblank
          exact if_pos hs
      | bool b => cases hblank
      | int v short => cases hblank
      | float x => cases hblank
      | list items => cases hblank
      | dict items => cases hblank
    simp [hnone, hblank, Option.filter]
  · have hread : ((some cell).filter (!·.isBlank)).map (·.text repr) = some (cell.text repr) := by
      simp [hblank, Option.filter]
    rw [hread]
    simp only [hblank, Bool.false_eq_true, false_or]
    cases cell with
    | int v short => exact ⟨fun _ => trivial, fun _ => rfl⟩
    | float x => exact ⟨fun _ => trivial, fun _ => rfl⟩
    | str s =>
        have hs : s ≠ "" := fun heq => hblank (by simp [Cell.isBlank, heq])
        have hlabel : (Cell.str s).label? repr = some s := if_neg hs
        rw [hlabel]
        exact ⟨fun _ => hs, fun _ => rfl⟩
    | null => exact absurd rfl hblank
    | bool b => exact ⟨(fun h => nomatch h), (fun h => nomatch h)⟩
    | list items => exact ⟨(fun h => nomatch h), (fun h => nomatch h)⟩
    | dict items => exact ⟨(fun h => nomatch h), (fun h => nomatch h)⟩

/-! ## One row -/

section

variable (repr : Cell → String) {columns : Columns} (collectedAt : Rat) {idx : Int}

theorem forall_counts {P : Column → Prop} :
    (∀ column ∈ columns.counts, P column) ↔
      P columns.hcIn ∧ P columns.hcOut ∧ P columns.inErr ∧ P columns.outErr ∧
        P columns.inDisc ∧ P columns.outDisc := by
  simp [Columns.counts]

theorem Column.count_iff {column : Column} :
    toInt (column.cell (toString idx)) = .ok (column.field (·.count?) 0 idx) ↔
      column.Reads Cell.CountOk (·.count?) 0 idx := by
  refine reads_iff (fun cell => toInt (cell.getD .null)) .ok toInt_eq_iff fun value => ?_
  have hnull : toInt .null = .ok 0 := rfl
  simp [hnull, eq_comm]

theorem Column.status_iff {column : Column} :
    (toInt (column.cell (toString idx))).map operStatusName =
        .ok (column.field (·.status?) "unknown" idx) ↔
      column.Reads Cell.StatusOk (·.status?) "unknown" idx := by
  refine reads_iff (fun cell => (toInt (cell.getD .null)).map operStatusName) .ok
    status_read_iff fun value => ?_
  have hnull : (toInt .null).map operStatusName = .ok "unknown" := rfl
  simp [hnull, eq_comm]

theorem Column.field_some {column : Column} (usable : Cell → Option α) :
    column.field (fun c => (usable c).map some) none idx = (column.cellOf idx).bind usable := by
  unfold Column.field
  cases column.cellOf idx with
  | none => rfl
  | some cell => cases h : usable cell <;> simp [h]

theorem Column.speed_iff {column : Column} :
    validSpeed (column.cell (toString idx)) = .ok ((column.cellOf idx).bind (·.speed?)) ↔
      column.Reads Cell.SpeedOk (fun c => c.speed?.map some) none idx := by
  rw [← column.field_some]
  refine reads_iff (fun cell => validSpeed (cell.getD .null)) .ok (fun cell => ?_)
    fun value => ?_
  · have hvalue : (cell.speed?.map some).getD none = cell.speed? := by
      cases cell.speed? <;> rfl
    rw [hvalue]
    exact speed_read_iff cell
  · have hnull : validSpeed .null = .ok none := rfl
    simp [hnull, eq_comm]

theorem Column.name_iff {column : Column} :
    interfaceName repr column (toString idx) =
        column.field (·.label? repr) (portName idx) idx ↔
      column.Reads Cell.NameOk (·.label? repr) (portName idx) idx := by
  refine reads_iff (fun cell => (cell.map (Cell.text repr)).getD (portName idx)) id
    (name_read_iff repr idx) fun value => ?_
  simp [eq_comm]

theorem Column.alias_iff {column : Column} :
    interfaceAlias repr column (toString idx) = (column.cellOf idx).bind (·.label? repr) ↔
      column.Reads Cell.AliasOk (fun c => (c.label? repr).map some) none idx := by
  rw [← column.field_some]
  refine reads_iff (fun cell => (cell.filter (!·.isBlank)).map (·.text repr)) id
    (fun cell => ?_) fun value => ?_
  · have hvalue : ((cell.label? repr).map some).getD none = cell.label? repr := by
      cases cell.label? repr <;> rfl
    rw [hvalue]
    exact alias_read_iff repr cell
  · simp [eq_comm]

theorem rowReads_of_ok
    (h : interfaceRow repr columns collectedAt idx =
      .ok (expectedRow repr columns collectedAt idx))
    (hstr : Python.str idx = .ok (toString idx)) : columns.RowReads repr idx := by
  unfold interfaceRow at h
  rw [hstr, ok_bind] at h
  obtain ⟨operRaw, hoper, h⟩ := ok_of_bind.mp h
  obtain ⟨speed, hread, h⟩ := ok_of_bind.mp h
  obtain ⟨inOctets, hin, h⟩ := ok_of_bind.mp h
  obtain ⟨outOctets, hout, h⟩ := ok_of_bind.mp h
  obtain ⟨inErrors, hinErr, h⟩ := ok_of_bind.mp h
  obtain ⟨outErrors, houtErr, h⟩ := ok_of_bind.mp h
  obtain ⟨inDiscards, hinDisc, h⟩ := ok_of_bind.mp h
  obtain ⟨outDiscards, houtDisc, h⟩ := ok_of_bind.mp h
  obtain ⟨checked, hchecked, h⟩ := ok_of_bind.mp h
  have hrow := Except.ok.inj h
  have hvalid : validSpeed (columns.speed.cell (toString idx)) = .ok checked.val := by
    unfold validSpeed
    rw [hread, ok_bind, hchecked]
    rfl
  constructor
  · exact (Column.name_iff repr).mp (congrArg InterfaceCounters.name hrow)
  · exact (Column.alias_iff repr).mp (congrArg InterfaceCounters.ifAlias hrow)
  · apply Column.status_iff.mp
    rw [hoper]
    exact congrArg Except.ok (congrArg InterfaceCounters.operStatus hrow)
  · apply Column.speed_iff.mp
    rw [hvalid]
    exact congrArg Except.ok (congrArg InterfaceCounters.speedMbps hrow)
  · refine forall_counts.mpr ⟨?_, ?_, ?_, ?_, ?_, ?_⟩
    · exact Column.count_iff.mp (hin.trans (congrArg (Except.ok ·.inOctets) hrow))
    · exact Column.count_iff.mp (hout.trans (congrArg (Except.ok ·.outOctets) hrow))
    · exact Column.count_iff.mp (hinErr.trans (congrArg (Except.ok ·.inErrors) hrow))
    · exact Column.count_iff.mp (houtErr.trans (congrArg (Except.ok ·.outErrors) hrow))
    · exact Column.count_iff.mp (hinDisc.trans (congrArg (Except.ok ·.inDiscards) hrow))
    · exact Column.count_iff.mp (houtDisc.trans (congrArg (Except.ok ·.outDiscards) hrow))

theorem interfaceRow_eq (h : columns.RowReads repr idx)
    (hstr : Python.str idx = .ok (toString idx)) :
    interfaceRow repr columns collectedAt idx =
      .ok (expectedRow repr columns collectedAt idx) := by
  have hname := (Column.name_iff repr).mpr h.name
  have halias := (Column.alias_iff repr).mpr h.ifAlias
  obtain ⟨hin, hout, hinErr, houtErr, hinDisc, houtDisc⟩ := forall_counts.mp h.counts
  obtain ⟨operRaw, hoper, hstatus⟩ : ∃ operRaw, toInt (columns.oper.cell (toString idx)) =
      .ok operRaw ∧ operStatusName operRaw = columns.oper.field (·.status?) "unknown" idx := by
    have hmap := Column.status_iff.mpr h.oper
    cases hoper : toInt (columns.oper.cell (toString idx)) with
    | error e =>
        rw [hoper] at hmap
        cases hmap
    | ok operRaw =>
        rw [hoper] at hmap
        exact ⟨operRaw, rfl, Except.ok.inj hmap⟩
  have hvalid := Column.speed_iff.mpr h.speed
  unfold validSpeed at hvalid
  obtain ⟨speed, hread, hvalid⟩ := ok_of_bind.mp hvalid
  obtain ⟨checked, hchecked, hspeed⟩ := ok_of_bind.mp hvalid
  unfold interfaceRow
  rw [hstr, ok_bind, hoper, ok_bind, hread, ok_bind, Column.count_iff.mpr hin, ok_bind,
    Column.count_iff.mpr hout, ok_bind, Column.count_iff.mpr hinErr, ok_bind,
    Column.count_iff.mpr houtErr, ok_bind, Column.count_iff.mpr hinDisc, ok_bind,
    Column.count_iff.mpr houtDisc, ok_bind, hchecked, ok_bind]
  simp only [pure, Except.pure, Except.ok.injEq, expectedRow, InterfaceCounters.mk.injEq,
    true_and, and_true]
  exact ⟨hname, halias, hstatus, Except.ok.inj hspeed⟩

end

/-! ## The whole poll -/

theorem int_of_key {key : String} (h : ReadableKey key) (hindex : isIndexText key = true) :
    ∃ v, Python.int key = .ok v ∧ indexOfKey? key = some v := by
  obtain ⟨hsome, hshort⟩ := h hindex
  obtain ⟨v, hv⟩ := Option.isSome_iff_exists.mp hsome
  refine ⟨v, ?_, hv⟩
  have hsigned : signedDecimal? key.toList = some v := hv
  rw [int_of_signedDigits hindex, hsigned]
  exact if_neg (by omega)

theorem readableKey_iff {key : String} :
    ReadableKey key ↔ (isIndexText key = true → ∃ v, Python.int key = .ok v) := by
  constructor
  · intro h hindex
    obtain ⟨v, hv, -⟩ := int_of_key h hindex
    exact ⟨v, hv⟩
  · intro h hindex
    obtain ⟨v, hv⟩ := h hindex
    rw [int_of_signedDigits hindex] at hv
    unfold indexOfKey?
    cases hsigned : signedDecimal? key.toList with
    | none =>
        rw [hsigned] at hv
        cases hv
    | some index =>
        rw [hsigned, literalResult] at hv
        by_cases hlong : maxStrDigits < (key.toList.dropWhile (· = '-')).length
        · rw [if_pos hlong] at hv
          cases hv
        · exact ⟨rfl, Nat.not_lt.mp hlong⟩

theorem isIndexText_of_indexOfKey? {key : String} {v : Int} (h : indexOfKey? key = some v) :
    isIndexText key = true := isDigitText_of_signedDecimal? h

/-- The keys are converted exactly when all that look like an index are readable. -/
theorem interfaceIndices_ok {descr : Column} (h : ∀ key ∈ descr.map (·.1), ReadableKey key) :
    interfaceIndices descr = .ok (expectedIndices descr) := by
  have hmap : ∀ keys : List String, (∀ key ∈ keys, ReadableKey key) →
      (keys.filter isIndexText).mapM Python.int = .ok (keys.filterMap indexOfKey?) := by
    intro keys
    induction keys with
    | nil =>
        intro _
        rfl
    | cons key keys ih =>
        intro hkeys
        have hrest := ih fun k hk => hkeys k (List.mem_cons_of_mem _ hk)
        by_cases hkey : isIndexText key = true
        · obtain ⟨v, hv, hindex⟩ := int_of_key (hkeys key List.mem_cons_self) hkey
          rw [List.filter_cons_of_pos hkey, List.mapM_cons, hv, hrest,
            List.filterMap_cons_some hindex]
          rfl
        · have hindex : indexOfKey? key = none := by
            cases hindex : indexOfKey? key with
            | none => rfl
            | some v => exact absurd (isIndexText_of_indexOfKey? hindex) hkey
          rw [List.filter_cons_of_neg hkey, hrest, List.filterMap_cons_none hindex]
  unfold interfaceIndices
  rw [hmap _ h]
  rfl

theorem keys_of_interfaceIndices {descr : Column} {indices : List Int}
    (h : interfaceIndices descr = .ok indices) :
    ∀ key ∈ descr.map (·.1), ReadableKey key := by
  unfold interfaceIndices at h
  obtain ⟨values, hvalues, -⟩ := ok_of_bind.mp h
  intro key hkey
  apply readableKey_iff.mpr
  intro hindex
  exact mapM_isOk_iff.mp ⟨values, hvalues⟩ key (List.mem_filter.mpr ⟨hkey, hindex⟩)

/-- The index of a readable key can be written as a text. -/
theorem expectedIndices_str {descr : Column} (h : ∀ key ∈ descr.map (·.1), ReadableKey key)
    {idx : Int} (hidx : idx ∈ expectedIndices descr) :
    Python.str idx = .ok (toString idx) := by
  have hmem := List.mem_dedup.mp ((List.mem_insertionSort _).mp hidx)
  obtain ⟨key, hkey, hindex⟩ := List.mem_filterMap.mp hmem
  obtain ⟨v, hv, hsame⟩ := int_of_key (h key hkey) (isIndexText_of_indexOfKey? hindex)
  obtain rfl : v = idx := Option.some.inj (hsame.symm.trans hindex)
  exact str_of_int hv

/-- A poll gives the rows of a tolerant poll exactly when it reads every key and every cell
for what it is. -/
theorem pollInterfaceCounters_iff (repr : Cell → String) (columns : Columns) (collectedAt : Rat) :
    pollInterfaceCounters repr columns collectedAt =
        .ok (expectedRows repr columns collectedAt) ↔ Legible repr columns := by
  constructor
  · intro h
    unfold pollInterfaceCounters at h
    obtain ⟨indices, hindices, hrows⟩ := ok_of_bind.mp h
    have hkeys := keys_of_interfaceIndices hindices
    rw [interfaceIndices_ok hkeys] at hindices
    cases hindices
    have hrow := ok_of_mapM hrows
    refine ⟨hkeys, fun idx hidx => ?_⟩
    exact rowReads_of_ok repr collectedAt (hrow idx hidx) (expectedIndices_str hkeys hidx)
  · intro h
    have hrows : (expectedIndices columns.descr).mapM (interfaceRow repr columns collectedAt) =
        .ok (expectedRows repr columns collectedAt) := by
      apply mapM_ok
      intro idx hidx
      exact interfaceRow_eq repr collectedAt (h.rows idx hidx) (expectedIndices_str h.keys hidx)
    unfold pollInterfaceCounters
    rw [interfaceIndices_ok h.keys, ok_bind]
    exact hrows

namespace Sample

theorem short_of_lt {v : Int} (h : v.natAbs < 10 ^ 4) : v.natAbs < 10 ^ maxStrDigits :=
  h.trans_le (Nat.pow_le_pow_right (by decide) (by decide))

def badSpeed : Columns where
  descr := [("1", .str "Gi1/0/1"), ("2", .str "Gi1/0/2")]
  ifAlias := []
  oper := [("1", .int 1 (short_of_lt (by decide))), ("2", .int 1 (short_of_lt (by decide)))]
  speed := [("1", .int 1000 (short_of_lt (by decide))), ("2", .str "n/a")]
  hcIn := []
  hcOut := []
  inErr := []
  outErr := []
  inDisc := []
  outDisc := []

end Sample

/-- One bad speed cell loses both interfaces. -/
theorem bad_speed_raises :
    (¬ ∀ (repr : Cell → String) (columns : Columns) (collectedAt : Rat),
        pollInterfaceCounters repr columns collectedAt =
          .ok (expectedRows repr columns collectedAt)) ∧
      (pollInterfaceCounters (fun _ => "") Sample.badSpeed 0).map (fun _ => ()) =
        .error (.valueError "could not convert string to float") := by
  have hraised : (pollInterfaceCounters (fun _ => "") Sample.badSpeed 0).map (fun _ => ()) =
      .error (.valueError "could not convert string to float") := by
    decide +kernel
  refine ⟨?_, hraised⟩
  intro hclaim
  rw [hclaim] at hraised
  cases hraised

end NetForge.Ingest.Snmp
