import NetForge.Python.Number
import Mathlib.Data.List.Permutation

/-! # Arithmetic on Python floats

Floats are exact rationals with a rounding after each operation. The value of a sum
depends on the order of its terms, and from three terms on also on the interpreter:
up to 3.11 it adds from left to right, later it carries the rounding errors along.
An arithmetic is therefore a parameter of what is computed with floats.
-/

namespace NetForge.Python

structure Arithmetic where
  round : Rat → Rat
  sum : List Rat → Rat
  /-- The two terms that are added first can change places. -/
  sum_swap : ∀ a b rest, sum (a :: b :: rest) = sum (b :: a :: rest)

namespace Arithmetic

def exact : Arithmetic where
  round := id
  sum := List.sum
  sum_swap a b rest := by
    rw [List.sum_cons, List.sum_cons, List.sum_cons, List.sum_cons, add_left_comm]

def leadingExponent (q : Rat) : Int :=
  let e : Int := Nat.log2 q.num.natAbs - Nat.log2 q.den
  if 2 ^ e ≤ |q| then e else e - 1

/-- The nearest binary64 number, ties to the even one. There is no largest number. -/
def nearestDouble (q : Rat) : Rat :=
  if q = 0 then 0
  else
    let ulp : Rat := 2 ^ max (leadingExponent q - 52) (-1074)
    roundHalfEven (q / ulp) * ulp

/-- `sum` from left to right. -/
def addUp (round : Rat → Rat) : List Rat → Rat
  | [] => 0
  | x :: xs => xs.foldl (fun acc y => round (acc + y)) x

theorem addUp_swap (round : Rat → Rat) (a b : Rat) (rest : List Rat) :
    addUp round (a :: b :: rest) = addUp round (b :: a :: rest) := by
  simp only [addUp, List.foldl_cons, add_comm b a]

def double : Arithmetic where
  round := nearestDouble
  sum := addUp nearestDouble
  sum_swap := addUp_swap nearestDouble

example : double.round (1 / 10) = 3602879701896397 / 36028797018963968 := by decide +kernel

example : double.sum [double.round (1 / 10), double.round (2 / 10)] ≠ double.round (3 / 10) := by
  decide +kernel

/-- A shuffle that moves none but the first two terms leaves the sum alone. -/
theorem sum_eq_of_perm (A : Arithmetic) {xs ys : List Rat} (hperm : xs.Perm ys)
    (hdrop : xs.drop 2 = ys.drop 2) : A.sum xs = A.sum ys := by
  have hlen := hperm.length_eq
  match xs, ys with
  | [], _ => rw [hperm.symm.eq_nil]
  | [x], _ => rw [List.singleton_perm.mp hperm]
  | _ :: _ :: _, [] => simp at hlen
  | _ :: _ :: _, [_] => simp at hlen
  | x :: x' :: xs, y :: y' :: ys =>
      obtain rfl : xs = ys := hdrop
      have hpair : [x, x'].Perm [y, y'] := (List.perm_append_right_iff xs).mp hperm
      rcases List.pair_perm.mp hpair with h | h
      · cases h
        rfl
      · cases h
        exact A.sum_swap x x' xs

/-! ## What all arithmetics agree on -/

def blank : Arithmetic where
  round := id
  sum _ := 0
  sum_swap _ _ _ := rfl

/-- Every term counts for 1, but in the list itself, where all count for nothing. -/
def telling (xs : List Rat) : Arithmetic where
  round := id
  sum ys := if ys.Perm xs ∧ ys.drop 2 = xs.drop 2 then 0 else ys.length
  sum_swap a b rest := by
    have hswap : (a :: b :: rest).Perm xs ↔ (b :: a :: rest).Perm xs :=
      ⟨(List.Perm.swap a b rest).trans, (List.Perm.swap b a rest).trans⟩
    simp only [hswap, List.drop_succ_cons, List.drop_zero, List.length_cons]

theorem telling_sum_of_ne {xs ys : List Rat} (h : ¬ (ys.Perm xs ∧ ys.drop 2 = xs.drop 2)) :
    (telling xs).sum ys = ys.length := if_neg h

end Arithmetic

end NetForge.Python
