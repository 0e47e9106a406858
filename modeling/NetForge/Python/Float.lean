import NetForge.Python.Number
import NetForge.Python.Text

/-! # Floats with their special values

What `float` makes of integers and texts, where infinities and not-a-number matter. Finite
floats are rationals.
-/

namespace NetForge.Python

inductive PyFloat
  | finite (q : Rat)
  | infinite (negative : Bool)
  | nan
  deriving DecidableEq

namespace PyFloat

def overflowBound : Nat := 2 ^ 1024 - 2 ^ 970

def ofRat (q : Rat) : PyFloat :=
  if (overflowBound : Rat) ≤ |q| then .infinite (q < 0) else .finite q

def ofInt (v : Int) : Except PyError PyFloat :=
  if overflowBound ≤ v.natAbs then .error .overflowError else .ok (.finite v)

/-- The special value that an unsigned text names, in any case. -/
def special? (negative : Bool) (cs : List Char) : Option PyFloat :=
  let name := String.ofList (cs.map Char.toLower)
  if name = "inf" ∨ name = "infinity" then some (.infinite negative)
  else if name = "nan" then some .nan
  else none

def ofText (s : String) : Except PyError PyFloat :=
  let body := ((s.toList.dropWhile isIntSpace).reverse.dropWhile isIntSpace).reverse
  let special :=
    match body with
    | '-' :: cs => special? true cs
    | '+' :: cs => special? false cs
    | cs => special? false cs
  match special with
  | some x => .ok x
  | none => (floatOfText s).map ofRat

def nonneg : PyFloat → Bool
  | .finite q => 0 ≤ q
  | .infinite negative => !negative
  | .nan => false

/-- `bool(x)`. -/
def truthy : PyFloat → Bool
  | .finite q => q ≠ 0
  | _ => true

/-- `x * q` for a positive finite number `q`. -/
def scale (x : PyFloat) (q : Rat) : PyFloat :=
  match x with
  | .finite p => ofRat (p * q)
  | x => x

end PyFloat

example : PyFloat.ofText " -Infinity" = .ok (.infinite true) ∧
    PyFloat.ofText "1e2" = .ok (.finite 100) ∧ PyFloat.ofText "1e400" = .ok (.infinite false) := by
  decide +kernel

end NetForge.Python
