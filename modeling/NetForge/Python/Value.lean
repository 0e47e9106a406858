import NetForge.Python.Number
import NetForge.Python.Text

/-! # Dynamic values

The values a probe puts into its metrics: JSON data, read with Python's rules
for truth, comparison and conversion. Integers and floats are one kind of
number here, so that text made from a number is not modelled.
-/

namespace NetForge.Python

inductive PyVal
  | none
  | bool (b : Bool)
  | num (q : Rat)
  | str (s : String)
  | list (items : List PyVal)
  | dict (items : List (String × PyVal))

abbrev Dict := List (String × PyVal)

/-- `d.get(key)`. -/
def Dict.value (d : Dict) (key : String) : PyVal := (d.lookup key).getD .none

/-- `d.get(key, default)`. -/
def Dict.valueOr (d : Dict) (key : String) (default : PyVal) : PyVal :=
  (d.lookup key).getD default

namespace PyVal

def truthy : PyVal → Bool
  | .none => false
  | .bool b => b
  | .num q => q ≠ 0
  | .str s => s ≠ ""
  | .list items => !items.isEmpty
  | .dict items => !items.isEmpty

def orElse (a b : PyVal) : PyVal := if a.truthy then a else b

def isNone : PyVal → Bool
  | .none => true
  | _ => false

def isStr (text : String) : PyVal → Bool
  | .str s => s = text
  | _ => false

def number? : PyVal → Option Rat
  | .num q => some q
  | .bool b => some (if b then 1 else 0)
  | _ => Option.none

/-- The operand of an arithmetic operation, or of a comparison with a number. -/
def toNumber (v : PyVal) : Except PyError Rat :=
  match v.number? with
  | some q => .ok q
  | Option.none => .error .typeError

/-! ## Comparison -/

mutual

def eq : PyVal → PyVal → Bool
  | .none, .none => true
  | .str s, .str t => s = t
  | .list xs, .list ys => eqList xs ys
  | .dict xs, .dict ys => xs.length = ys.length && eqItems xs ys
  | .num p, b => b.number? = some p
  | .bool p, b => b.number? = some (if p then 1 else 0)
  | _, _ => false

def eqList : List PyVal → List PyVal → Bool
  | [], [] => true
  | x :: xs, y :: ys => eq x y && eqList xs ys
  | _, _ => false

def eqItems : Dict → Dict → Bool
  | [], _ => true
  | (key, x) :: rest, other =>
      (match other.lookup key with
        | some y => eq x y
        | Option.none => false) && eqItems rest other

end

mutual

/-- `a < b`: numbers, texts and lists compare among themselves. -/
def less : PyVal → PyVal → Except PyError Bool
  | .str s, .str t => .ok (s < t)
  | .list xs, .list ys => lessList xs ys
  | a, b => do
      let p ← a.toNumber
      let q ← b.toNumber
      return decide (p < q)

def lessList : List PyVal → List PyVal → Except PyError Bool
  | _, [] => .ok false
  | [], _ :: _ => .ok true
  | x :: xs, y :: ys => if eq x y then lessList xs ys else less x y

end

def isBelow (v : PyVal) (q : Rat) : Except PyError Bool := do return decide ((← v.toNumber) < q)

def isAtLeast (v : PyVal) (q : Rat) : Except PyError Bool := do return decide (q ≤ (← v.toNumber))

def isAbove (v : PyVal) (q : Rat) : Except PyError Bool := do return decide (q < (← v.toNumber))

/-! ## Aggregates -/

def maxFrom : (best : PyVal) → List PyVal → Except PyError PyVal
  | best, [] => .ok best
  | best, v :: vs => do
      if ← less best v then maxFrom v vs else maxFrom best vs

def max : List PyVal → Except PyError PyVal
  | [] => .error (.valueError "max() arg is an empty sequence")
  | v :: vs => maxFrom v vs

/-- `max(vs) if vs else default`. -/
def maxOr (default : PyVal) (vs : List PyVal) : Except PyError PyVal :=
  if vs.isEmpty then .ok default else max vs

/-- `sum(vs) / len(vs) if vs else 0.0`. -/
def mean (vs : List PyVal) : Except PyError Rat := do
  let qs ← vs.mapM toNumber
  return if qs.isEmpty then 0 else qs.sum / qs.length

/-! ## Numbers among the values -/

theorem num_orElse_zero (q : Rat) : ((num q).orElse (.num 0)).number? = some q := by
  by_cases h : q = 0 <;> simp [orElse, truthy, number?, h]

theorem toNumber_of_number {v : PyVal} {q : Rat} (h : v.number? = some q) :
    v.toNumber = .ok q := by
  simp [toNumber, h]

theorem isBelow_of_number {v : PyVal} {q : Rat} (h : v.number? = some q) (bound : Rat) :
    v.isBelow bound = .ok (decide (q < bound)) := by
  simp [isBelow, toNumber_of_number h, pure, Except.pure, bind, Except.bind]

theorem isAtLeast_of_number {v : PyVal} {q : Rat} (h : v.number? = some q) (bound : Rat) :
    v.isAtLeast bound = .ok (decide (bound ≤ q)) := by
  simp [isAtLeast, toNumber_of_number h, pure, Except.pure, bind, Except.bind]

theorem isAbove_of_number {v : PyVal} {q : Rat} (h : v.number? = some q) (bound : Rat) :
    v.isAbove bound = .ok (decide (bound < q)) := by
  simp [isAbove, toNumber_of_number h, pure, Except.pure, bind, Except.bind]

theorem less_of_number {a b : PyVal} {p q : Rat} (ha : a.number? = some p)
    (hb : b.number? = some q) : less a b = .ok (decide (p < q)) := by
  have hnum : less a b = (do
      let p ← a.toNumber
      let q ← b.toNumber
      return decide (p < q)) := by
    cases a with
    | num _ => rfl
    | bool _ => rfl
    | _ => simp [number?] at ha
  simp [hnum, toNumber_of_number ha, toNumber_of_number hb, pure, Except.pure, bind, Except.bind]

/-- The largest of some numbers is found whatever order they come in. -/
theorem maxFrom_of_numbers {best : PyVal} {b : Rat} {vs : List PyVal} {qs : List Rat}
    (hb : best.number? = some b) (hvs : vs.map number? = qs.map some) :
    ∃ v, maxFrom best vs = .ok v ∧ v.number? = some (qs.foldl Max.max b) := by
  induction vs generalizing best b qs with
  | nil =>
      cases qs with
      | nil => exact ⟨best, rfl, hb⟩
      | cons q qs => simp at hvs
  | cons v vs ih =>
      cases qs with
      | nil => simp at hvs
      | cons q qs =>
          simp only [List.map_cons, List.cons.injEq] at hvs
          obtain ⟨hv, hvs⟩ := hvs
          simp only [maxFrom, less_of_number hb hv, bind, Except.bind, List.foldl_cons]
          by_cases hlt : b < q
          · rw [if_pos (by simpa using hlt), max_eq_right hlt.le]
            exact ih hv hvs
          · rw [if_neg (by simpa using hlt), max_eq_left (not_lt.mp hlt)]
            exact ih hb hvs

/-! ## Conversion -/

def float : PyVal → Except PyError Rat
  | .str s => floatOfText s
  | v => v.toNumber

def int : PyVal → Except PyError Int
  | .str s => Python.int s
  | v => do return truncate (← v.toNumber)

/-- What a `for` loop over the value visits. -/
def iterate : PyVal → Except PyError (List PyVal)
  | .list items => .ok items
  | .str s => .ok (s.toList.map fun c => .str (String.singleton c))
  | .dict items => .ok (items.map fun item => .str item.1)
  | _ => .error .typeError

def elements : PyVal → Except PyError (List PyVal)
  | .list items => .ok items
  | .str s => .ok (s.toList.map fun c => .str (String.singleton c))
  | _ => .error .typeError

/-- The receiver of `.get(..)`. -/
def asDict : PyVal → Except PyError Dict
  | .dict items => .ok items
  | _ => .error .attributeError

/-- `sep.join(v)`, as far as it raises. -/
def joined (v : PyVal) : Except PyError Unit := do
  let items ← v.iterate
  if items.all (fun | .str _ => true | _ => false) then .ok () else .error .typeError

end PyVal

/-- `a and b`: the second operand is evaluated only where the first holds. -/
def both (a b : Except PyError Bool) : Except PyError Bool := do
  if ← a then b else return false

theorem both_ok (a b : Bool) : both (.ok a) (.ok b) = .ok (a && b) := by
  cases a <;> rfl

theorem both_pure (a b : Bool) : both (pure a) (.ok b) = .ok (a && b) := both_ok a b

end NetForge.Python
