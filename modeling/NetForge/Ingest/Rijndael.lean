import NetForge.Calculus.ByteField
import Mathlib.Data.Matrix.Basic

/-! # The AES-128 forward cipher

The cipher as it is defined over the field of bytes. A state is a square of field elements;
the substitution inverts in the field and applies an affine map to the bits, and the columns
are multiplied by a fixed polynomial modulo `x⁴ + 1`.
-/

namespace NetForge.Ingest.Rijndael

open Calculus ByteField Polynomial

abbrev State := Matrix (Fin 4) (Fin 4) Element

/-! ## Substitution -/

noncomputable def coordinates (a : Element) : Fin 8 → ZMod 2 := bits (ofByte.symm a)

def affine (v : Fin 8 → ZMod 2) : Fin 8 → ZMod 2 :=
  fun i => v i + v (i + 4) + v (i + 5) + v (i + 6) + v (i + 7) + bits 0x63 i

noncomputable def substitute (a : Element) : Element := element (affine (coordinates a⁻¹))

noncomputable def subBytes (s : State) : State := s.map substitute

/-! ## Rows and columns -/

/-- Row `r` is rotated by `r` places to the left. -/
def shiftRows (s : State) : State := fun r c => s r (c + r)

noncomputable def columnPolynomial (column : Fin 4 → Element) : Element[X] :=
  ∑ r, C (column r) * X ^ (r : ℕ)

noncomputable def mixPolynomial : Element[X] :=
  columnPolynomial ![ofByte 2, ofByte 1, ofByte 1, ofByte 3]

noncomputable def mixColumn (column : Fin 4 → Element) (r : Fin 4) : Element :=
  (mixPolynomial * columnPolynomial column %ₘ (X ^ 4 + 1)).coeff r

noncomputable def mixColumns (s : State) : State := fun r c => mixColumn (fun r => s r c) r

/-! ## Key schedule -/

/-- The first byte of a word is changed by a power of `x`. -/
noncomputable def rcon (i : ℕ) (j : Fin 4) : Element := if j = 0 then x ^ (i - 1) else 0

/-- The words of the schedule. Every fourth one mixes in its predecessor rotated and
substituted. -/
noncomputable def keyWord (key : Fin 4 → Fin 4 → Element) : ℕ → Fin 4 → Element
  | 0 => key 0
  | 1 => key 1
  | 2 => key 2
  | 3 => key 3
  | i + 4 => fun j =>
      keyWord key i j +
        if (i + 4) % 4 = 0 then substitute (keyWord key (i + 3) (j + 1)) + rcon ((i + 4) / 4) j
        else keyWord key (i + 3) j

noncomputable def roundKey (key : Fin 4 → Fin 4 → Element) (rnd : ℕ) : State :=
  fun r c => keyWord key (4 * rnd + c) r

/-! ## Rounds -/

noncomputable def rounds (key : Fin 4 → Fin 4 → Element) (input : State) : ℕ → State
  | 0 => input + roundKey key 0
  | n + 1 => mixColumns (shiftRows (subBytes (rounds key input n))) + roundKey key (n + 1)

/-- Nine full rounds, and a last one that does not mix the columns. -/
noncomputable def cipher (key : Fin 4 → Fin 4 → Element) (input : State) : State :=
  shiftRows (subBytes (rounds key input 9)) + roundKey key 10

/-- The place of a row and a column in a block. -/
def place (r c : Fin 4) : Fin 16 := ⟨r + 4 * c, by omega⟩

noncomputable def encrypt (key block : Fin 16 → UInt8) : Fin 16 → UInt8 := fun i =>
  ofByte.symm (cipher (fun w j => ofByte (key (place j w)))
    (fun r c => ofByte (block (place r c))) ⟨i % 4, by omega⟩ ⟨i / 4, by omega⟩)

/-! ## Columns, element by element -/

theorem columnPolynomial_eq (column : Fin 4 → Element) :
    columnPolynomial column =
      C (column 0) + C (column 1) * X + C (column 2) * X ^ 2 + C (column 3) * X ^ 3 := by
  unfold columnPolynomial
  rw [Fin.sum_univ_four]
  show C (column 0) * X ^ 0 + C (column 1) * X ^ 1 + C (column 2) * X ^ 2 +
    C (column 3) * X ^ 3 = _
  rw [pow_zero, mul_one, pow_one]

theorem coeff_columnPolynomial (column : Fin 4 → Element) (r : Fin 4) :
    (columnPolynomial column).coeff r = column r := by
  unfold columnPolynomial
  simp [coeff_X_pow, Fin.val_inj]

theorem degree_columnPolynomial (column : Fin 4 → Element) :
    (columnPolynomial column).degree < (X ^ 4 + 1 : Element[X]).degree := by
  have hdegree : (X ^ 4 + 1 : Element[X]).degree = 4 := by compute_degree!
  rw [hdegree]
  exact degree_sum_fin_lt column

theorem ofByte_two : ofByte 2 = x := by
  have hdouble : double 1 = 2 := by decide
  rw [← hdouble, ofByte_double, ofByte_one, mul_one]

theorem ofByte_three : ofByte 3 = x + 1 := by
  have hxor : (2 : UInt8) ^^^ 1 = 3 := by decide
  rw [← hxor, ofByte_xor, ofByte_two, ofByte_one]

/-- Modulo `x⁴ + 1` the powers wrap around, so the product of a column is a product with a
circulant matrix. -/
theorem mixColumn_eq (column : Fin 4 → Element) (r : Fin 4) :
    mixColumn column r =
      x * column r + (x + 1) * column (r + 1) + column (r + 2) + column (r + 3) := by
  obtain ⟨m, hm⟩ : ∃ m : Fin 4 → Element, ∀ r, m r =
      x * column r + (x + 1) * column (r + 1) + column (r + 2) + column (r + 3) :=
    ⟨_, fun _ => rfl⟩
  have hmonic : (X ^ 4 + 1 : Element[X]).Monic := by monicity!
  have htwo : (2 : Element[X]) = 0 := by
    calc (2 : Element[X]) = C (1 + 1) := by
          rw [C_add, C_1]
          exact one_add_one_eq_two.symm
      _ = 0 := by rw [add_self, C_0]
  have hmix : mixPolynomial = C x + X + X ^ 2 + (C x + 1) * X ^ 3 := by
    have heq := columnPolynomial_eq ![ofByte 2, ofByte 1, ofByte 1, ofByte 3]
    unfold mixPolynomial
    rw [heq]
    show C (ofByte 2) + C (ofByte 1) * X + C (ofByte 1) * X ^ 2 + C (ofByte 3) * X ^ 3 = _
    rw [ofByte_two, ofByte_one, ofByte_three, C_add, C_1, one_mul, one_mul]
  have hproduct : columnPolynomial m + (X ^ 4 + 1) *
      (C ((x + 1) * column 1 + column 2 + column 3) + C ((x + 1) * column 2 + column 3) * X +
        C ((x + 1) * column 3) * X ^ 2) = mixPolynomial * columnPolynomial column := by
    have h0 : m 0 = x * column 0 + (x + 1) * column 1 + column 2 + column 3 := hm 0
    have h1 : m 1 = x * column 1 + (x + 1) * column 2 + column 3 + column 0 := hm 1
    have h2 : m 2 = x * column 2 + (x + 1) * column 3 + column 0 + column 1 := hm 2
    have h3 : m 3 = x * column 3 + (x + 1) * column 0 + column 1 + column 2 := hm 3
    rw [hmix, columnPolynomial_eq, columnPolynomial_eq, h0, h1, h2, h3]
    simp only [C_add, C_mul, C_1]
    linear_combination ((C x + 1) * C (column 1) + C (column 2) + C (column 3) +
      ((C x + 1) * C (column 2) + C (column 3)) * X + (C x + 1) * C (column 3) * X ^ 2) * htwo
  have hrest := (div_modByMonic_unique _ _ hmonic ⟨hproduct, degree_columnPolynomial m⟩).2
  unfold mixColumn
  rw [hrest, coeff_columnPolynomial, hm]

end NetForge.Ingest.Rijndael
