import Mathlib.Algebra.Order.Field.Rat
import Mathlib.Data.Rat.Floor
import Mathlib.Tactic.Linarith
import Mathlib.Tactic.Positivity

/-! # Python numbers, in exact arithmetic

Floats are rationals here. `round` rounds half to even, `int` truncates.
-/

namespace NetForge.Python

/-- `round(q)`: nearest integer, ties to the even one. -/
def roundHalfEven (q : Rat) : Int :=
  let f := q.floor
  let d := q - f
  if d < 1 / 2 then f
  else if 1 / 2 < d then f + 1
  else if f % 2 = 0 then f
  else f + 1

def roundTo (digits : Nat) (q : Rat) : Rat := roundHalfEven (q * 10 ^ digits) / 10 ^ digits

/-- `f"{q:.2f}"`. -/
def fixed2 (q : Rat) : String :=
  let hundredths := (roundHalfEven (|q| * 100)).toNat
  let sign := if q < 0 then "-" else ""
  let digits := toString (hundredths / 10 % 10) ++ toString (hundredths % 10)
  s!"{sign}{hundredths / 100}.{digits}"

/-- `f"{q:.1f}"`. -/
def fixed1 (q : Rat) : String :=
  let tenths := (roundHalfEven (|q| * 10)).toNat
  let sign := if q < 0 then "-" else ""
  s!"{sign}{tenths / 10}.{tenths % 10}"

/-- `int(q)`. -/
def truncate (q : Rat) : Int := q.num.tdiv q.den

example : roundTo 2 (665 / 1000) = 66 / 100 := by decide +kernel

example : fixed2 (82 / 100) = "0.82" := by decide +kernel

example : truncate (-7 / 2) = -3 := by decide +kernel

theorem roundHalfEven_close (q : Rat) : |(roundHalfEven q : Rat) - q| ≤ 1 / 2 := by
  have hlow : (q.floor : Rat) ≤ q := Int.floor_le q
  have hhigh : q < q.floor + 1 := Int.lt_floor_add_one q
  rw [abs_le]
  unfold roundHalfEven
  simp only
  split_ifs <;> push_cast <;> constructor <;> linarith

theorem roundTo_close (digits : Nat) (q : Rat) : |roundTo digits q - q| ≤ 1 / 2 / 10 ^ digits := by
  have hscale : (0 : Rat) < 10 ^ digits := by positivity
  have hclose := roundHalfEven_close (q * 10 ^ digits)
  have hdiff : roundTo digits q - q =
      (roundHalfEven (q * 10 ^ digits) - q * 10 ^ digits) / 10 ^ digits := by
    unfold roundTo
    rw [sub_div, mul_div_assoc, div_self hscale.ne', mul_one]
  rw [hdiff, abs_div, abs_of_pos hscale]
  exact div_le_div_of_nonneg_right hclose hscale.le

/-- Numbers that round to one value are no more than a unit apart. -/
theorem close_of_roundTo_eq {digits : Nat} {p q : Rat} (h : roundTo digits p = roundTo digits q) :
    |p - q| ≤ 1 / 10 ^ digits := by
  have hscale : (0 : Rat) < 10 ^ digits := by positivity
  unfold roundTo at h
  rw [div_left_inj' hscale.ne'] at h
  have hp := abs_le.mp (roundHalfEven_close (p * 10 ^ digits))
  have hq := abs_le.mp (roundHalfEven_close (q * 10 ^ digits))
  rw [h] at hp
  have hscaled : |(p - q) * 10 ^ digits| ≤ 1 := by
    rw [abs_le, sub_mul]
    constructor <;> linarith
  rw [abs_mul, abs_of_pos hscale] at hscaled
  rw [le_div_iff₀ hscale]
  exact hscaled

theorem roundTo_zero (digits : Nat) : roundTo digits 0 = 0 := by
  have hzero : roundHalfEven 0 = 0 := by decide +kernel
  unfold roundTo
  rw [zero_mul, hzero]
  simp

theorem roundHalfEven_mono {p q : Rat} (h : p ≤ q) : roundHalfEven p ≤ roundHalfEven q := by
  have hfloor : p.floor ≤ q.floor := Int.floor_le_floor h
  have hbounds : ∀ x : Rat, x.floor ≤ roundHalfEven x ∧ roundHalfEven x ≤ x.floor + 1 := by
    intro x
    unfold roundHalfEven
    simp only
    split_ifs <;> omega
  by_cases hsame : p.floor = q.floor
  · have hfrac : p - p.floor ≤ q - q.floor := by
      rw [hsame]
      exact sub_le_sub_right h _
    unfold roundHalfEven
    simp only
    rw [hsame] at hfrac ⊢
    split_ifs <;> first | omega | (exfalso; linarith)
  · have hp := (hbounds p).2
    have hq := (hbounds q).1
    omega

theorem roundTo_mono (digits : Nat) {p q : Rat} (h : p ≤ q) :
    roundTo digits p ≤ roundTo digits q := by
  have hscale : (0 : Rat) ≤ 10 ^ digits := by positivity
  have hround : roundHalfEven (p * 10 ^ digits) ≤ roundHalfEven (q * 10 ^ digits) :=
    roundHalfEven_mono (mul_le_mul_of_nonneg_right h hscale)
  unfold roundTo
  apply div_le_div_of_nonneg_right _ hscale
  exact_mod_cast hround

theorem roundTo_nonneg (digits : Nat) {q : Rat} (h : 0 ≤ q) : 0 ≤ roundTo digits q := by
  rw [← roundTo_zero digits]
  exact roundTo_mono digits h

end NetForge.Python
