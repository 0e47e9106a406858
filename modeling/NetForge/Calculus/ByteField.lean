import Mathlib.RingTheory.AdjoinRoot
import Mathlib.Data.List.GetD
import Mathlib.Data.ZMod.Basic
import Mathlib.Algebra.Field.ZMod
import Mathlib.Tactic.ComputeDegree

/-! # The field of bytes

The polynomials over the bits modulo `x⁸ + x⁴ + x³ + x + 1` form a field of 256 elements, and
each byte writes one of them: bit `i` is the coefficient of `xⁱ`. Addition is the exclusive or
of bytes, and a product is computed by doubling.
-/

namespace NetForge.Calculus.ByteField

open Polynomial

noncomputable def modulus : (ZMod 2)[X] := X ^ 8 + X ^ 4 + X ^ 3 + X + 1

theorem modulus_monic : modulus.Monic := by
  unfold modulus
  monicity!

theorem modulus_natDegree : modulus.natDegree = 8 := by
  unfold modulus
  compute_degree!

theorem modulus_degree : modulus.degree = 8 := by
  rw [degree_eq_natDegree modulus_monic.ne_zero, modulus_natDegree]
  rfl

abbrev Element := AdjoinRoot modulus

/-! ## Coordinates -/

noncomputable def residue (v : Fin 8 → ZMod 2) : (ZMod 2)[X] := ∑ i, C (v i) * X ^ (i : ℕ)

theorem degree_residue (v : Fin 8 → ZMod 2) : (residue v).degree < modulus.degree := by
  rw [modulus_degree]
  exact degree_sum_fin_lt v

theorem coeff_residue (v : Fin 8 → ZMod 2) (i : Fin 8) : (residue v).coeff i = v i := by
  unfold residue
  simp [coeff_X_pow, Fin.val_inj]

noncomputable def element (v : Fin 8 → ZMod 2) : Element := AdjoinRoot.mk modulus (residue v)

theorem element_injective : Function.Injective element := by
  intro v w h
  have hdvd : modulus ∣ residue v - residue w := AdjoinRoot.mk_eq_mk.mp h
  have hdegree : (residue v - residue w).degree < modulus.degree :=
    (degree_sub_le _ _).trans_lt (max_lt (degree_residue v) (degree_residue w))
  have heq : residue v = residue w :=
    sub_eq_zero.mp (eq_zero_of_dvd_of_degree_lt hdvd hdegree)
  funext i
  rw [← coeff_residue v i, ← coeff_residue w i, heq]

theorem element_surjective : Function.Surjective element := by
  intro a
  obtain ⟨p, rfl⟩ := AdjoinRoot.mk_surjective a
  have hdegree : (p %ₘ modulus).natDegree < 8 := by
    rw [← modulus_natDegree]
    apply natDegree_modByMonic_lt p modulus_monic
    intro hone
    have hzero := congrArg natDegree hone
    rw [modulus_natDegree, natDegree_one] at hzero
    cases hzero
  refine ⟨fun i => (p %ₘ modulus).coeff i, ?_⟩
  have hresidue : residue (fun i => (p %ₘ modulus).coeff i) = p %ₘ modulus := by
    unfold residue
    rw [Fin.sum_univ_eq_sum_range fun i => C ((p %ₘ modulus).coeff i) * X ^ i]
    exact (as_sum_range_C_mul_X_pow' _ hdegree).symm
  unfold element
  rw [hresidue]
  apply AdjoinRoot.mk_eq_mk.mpr
  have hdiv := modByMonic_add_div p modulus
  refine ⟨-(p /ₘ modulus), ?_⟩
  rw [mul_neg, eq_neg_iff_add_eq_zero, sub_add_eq_add_sub, hdiv, sub_self]

def bits (b : UInt8) (i : Fin 8) : ZMod 2 := if b.toBitVec.getLsbD i then 1 else 0

/-- The indices of bits are numerals. -/
scoped instance instNeZeroEight : NeZero 8 := ⟨Nat.succ_ne_zero 7⟩

def byteOf (v : Fin 8 → ZMod 2) : UInt8 :=
  ⟨BitVec.ofBoolListLE [v 0 = 1, v 1 = 1, v 2 = 1, v 3 = 1, v 4 = 1, v 5 = 1, v 6 = 1, v 7 = 1]⟩

theorem bit_cases : ∀ a : ZMod 2, (if decide (a = 1) = true then 1 else 0) = a := by decide

theorem bits_byteOf (v : Fin 8 → ZMod 2) : bits (byteOf v) = v := by
  funext i
  unfold bits byteOf
  rw [BitVec.getLsbD_ofBoolListLE]
  fin_cases i <;> exact bit_cases _

theorem bits_injective : Function.Injective bits := by
  intro a b h
  apply UInt8.toBitVec_inj.mp
  apply BitVec.eq_of_getLsbD_eq
  intro i hi
  have hbit := congrFun h ⟨i, hi⟩
  unfold bits at hbit
  cases ha : a.toBitVec.getLsbD i <;> cases hb : b.toBitVec.getLsbD i
  · rfl
  · rw [ha, hb] at hbit
    cases hbit
  · rw [ha, hb] at hbit
    cases hbit
  · rfl

noncomputable def ofByte : UInt8 ≃ Element :=
  Equiv.ofBijective (fun b => element (bits b)) <| by
    constructor
    · exact element_injective.comp bits_injective
    · intro a
      obtain ⟨v, rfl⟩ := element_surjective a
      exact ⟨byteOf v, congrArg element (bits_byteOf v)⟩

theorem ofByte_apply (b : UInt8) : ofByte b = element (bits b) := rfl

/-! ## Addition -/

theorem element_add (v w : Fin 8 → ZMod 2) : element (v + w) = element v + element w := by
  have hresidue : residue (v + w) = residue v + residue w := by
    unfold residue
    rw [← Finset.sum_add_distrib]
    apply Finset.sum_congr rfl
    intro i _
    rw [Pi.add_apply, C_add, add_mul]
  unfold element
  rw [hresidue, map_add]

theorem bits_xor (a b : UInt8) : bits (a ^^^ b) = bits a + bits b := by
  have hsum : ∀ p q : Bool, (if (p ^^ q) = true then (1 : ZMod 2) else 0) =
      (if p = true then 1 else 0) + if q = true then 1 else 0 := by decide
  funext i
  unfold bits
  rw [UInt8.toBitVec_xor, BitVec.getLsbD_xor]
  exact hsum _ _

theorem ofByte_xor (a b : UInt8) : ofByte (a ^^^ b) = ofByte a + ofByte b := by
  rw [ofByte_apply, bits_xor, element_add]
  rfl

theorem ofByte_zero : ofByte 0 = 0 := by
  have hself := ofByte_xor 0 0
  rw [UInt8.xor_self] at hself
  exact left_eq_add.mp hself

theorem add_self (a : Element) : a + a = 0 := by
  obtain ⟨b, rfl⟩ := ofByte.surjective a
  rw [← ofByte_xor, UInt8.xor_self, ofByte_zero]

theorem neg_eq (a : Element) : -a = a := neg_eq_of_add_eq_zero_left (add_self a)

/-! ## Multiplication -/

noncomputable def x : Element := AdjoinRoot.root modulus

theorem x_pow_eight : x ^ 8 = x ^ 4 + x ^ 3 + x + 1 := by
  have hroot : AdjoinRoot.mk modulus (X ^ 8 + X ^ 4 + X ^ 3 + X + 1) = 0 := AdjoinRoot.mk_self
  simp only [map_add, map_pow, map_one, AdjoinRoot.mk_X] at hroot
  rw [← neg_eq (x ^ 4 + x ^ 3 + x + 1)]
  apply eq_neg_of_add_eq_zero_left
  unfold x
  simpa only [add_assoc] using hroot

theorem ofByte_eq_sum (b : UInt8) :
    ofByte b = ∑ i : Fin 8, if b.toBitVec.getLsbD i then x ^ (i : ℕ) else 0 := by
  rw [ofByte_apply]
  unfold element residue
  rw [map_sum]
  apply Finset.sum_congr rfl
  intro i _
  unfold bits x
  by_cases hbit : b.toBitVec.getLsbD i = true
  · rw [if_pos hbit, if_pos hbit, C_1, one_mul, map_pow, AdjoinRoot.mk_X]
  · rw [if_neg hbit, if_neg hbit, C_0, zero_mul, map_zero]

/-- Multiplication by `x`: the bit that leaves the byte selects the reduction. -/
def double (b : UInt8) : UInt8 := if b.toBitVec.msb then (b <<< 1) ^^^ 0x1B else b <<< 1

theorem getLsbD_shift (b : UInt8) (i : Nat) (h : i < 7) :
    (b <<< 1).toBitVec.getLsbD (i + 1) = b.toBitVec.getLsbD i := by
  have hshift : (b <<< 1).toBitVec = b.toBitVec <<< 1 := rfl
  have hfits : i + 1 < 8 := by omega
  rw [hshift, BitVec.getLsbD_shiftLeft]
  simp [hfits]

theorem getLsbD_shift_zero (b : UInt8) : (b <<< 1).toBitVec.getLsbD 0 = false := by
  have hshift : (b <<< 1).toBitVec = b.toBitVec <<< 1 := rfl
  rw [hshift, BitVec.getLsbD_shiftLeft]
  rfl

theorem x_mul_ofByte (b : UInt8) :
    x * ofByte b = ofByte (b <<< 1) + if b.toBitVec.msb then x ^ 8 else 0 := by
  have hmul : ∀ (p : Prop) [Decidable p] (i : ℕ),
      x * (if p then x ^ i else 0) = if p then x ^ (i + 1) else 0 := by
    intro p _ i
    rw [mul_ite, mul_zero, pow_succ']
  have htail : ∀ i : Fin 7,
      (if (b <<< 1).toBitVec.getLsbD i.succ = true then x ^ (i.succ : ℕ) else 0) =
        if b.toBitVec.getLsbD i.castSucc = true then x ^ ((i.castSucc : ℕ) + 1) else 0 := by
    intro i
    rw [Fin.val_succ, getLsbD_shift b i i.isLt]
    rfl
  have hhead : (b <<< 1).toBitVec.getLsbD (0 : Fin 8) = false := getLsbD_shift_zero b
  rw [ofByte_eq_sum, ofByte_eq_sum, Finset.mul_sum]
  simp only [hmul]
  rw [Fin.sum_univ_castSucc, Fin.sum_univ_succ fun i : Fin 8 =>
    if (b <<< 1).toBitVec.getLsbD i = true then x ^ (i : ℕ) else 0]
  simp only [htail]
  rw [hhead, if_neg Bool.false_ne_true, zero_add]
  rfl

theorem ofByte_double (b : UInt8) : ofByte (double b) = x * ofByte b := by
  have hreduce : ofByte 0x1B = x ^ 8 := by
    have hbits : ∀ i : Fin 8, (0x1B : UInt8).toBitVec.getLsbD i =
        [true, true, false, true, true, false, false, false].getD i false := by decide
    rw [ofByte_eq_sum, x_pow_eight]
    simp only [hbits]
    rw [Fin.sum_univ_eight]
    simp
    ring
  rw [x_mul_ofByte]
  unfold double
  by_cases hmsb : b.toBitVec.msb = true
  · rw [if_pos hmsb, if_pos hmsb, ofByte_xor, hreduce]
  · rw [if_neg hmsb, if_neg hmsb, add_zero]

theorem ofByte_one : ofByte 1 = 1 := by
  have hbits : ∀ i : Fin 8, (1 : UInt8).toBitVec.getLsbD i =
      [true, false, false, false, false, false, false, false].getD i false := by decide
  rw [ofByte_eq_sum]
  simp only [hbits]
  rw [Fin.sum_univ_eight]
  simp

/-- The product, from the highest bit of the first factor down. -/
def mul (a b : UInt8) : UInt8 :=
  [7, 6, 5, 4, 3, 2, 1, 0].foldl
    (fun acc i => double acc ^^^ if a.toBitVec.getLsbD i then b else 0) 0

theorem ofByte_mul (a b : UInt8) : ofByte (mul a b) = ofByte a * ofByte b := by
  obtain ⟨c, hc⟩ : ∃ c : ℕ → Element, ∀ i, c i = if a.toBitVec.getLsbD i = true then 1 else 0 :=
    ⟨_, fun _ => rfl⟩
  have hterm : ∀ i : ℕ, ofByte (if a.toBitVec.getLsbD i = true then b else 0) =
      c i * ofByte b := by
    intro i
    rw [hc]
    by_cases hbit : a.toBitVec.getLsbD i = true
    · rw [if_pos hbit, if_pos hbit, one_mul]
    · rw [if_neg hbit, if_neg hbit, zero_mul, ofByte_zero]
  have hpower : ∀ i : Fin 8, (if a.toBitVec.getLsbD i = true then x ^ (i : ℕ) else 0) =
      c i * x ^ (i : ℕ) := by
    intro i
    rw [hc, ite_mul, one_mul, zero_mul]
  unfold mul
  simp only [List.foldl_cons, List.foldl_nil, ofByte_xor, ofByte_double, ofByte_zero, hterm]
  rw [ofByte_eq_sum a]
  simp only [hpower]
  rw [Fin.sum_univ_eight]
  show _ = (c 0 * x ^ 0 + c 1 * x ^ 1 + c 2 * x ^ 2 + c 3 * x ^ 3 + c 4 * x ^ 4 + c 5 * x ^ 5 +
    c 6 * x ^ 6 + c 7 * x ^ 7) * _
  ring

/-! ## Inverses -/

def inverses : List UInt8 :=
  [0x00, 0x01, 0x8D, 0xF6, 0xCB, 0x52, 0x7B, 0xD1, 0xE8, 0x4F, 0x29, 0xC0, 0xB0, 0xE1, 0xE5, 0xC7,
    0x74, 0xB4, 0xAA, 0x4B, 0x99, 0x2B, 0x60, 0x5F, 0x58, 0x3F, 0xFD, 0xCC, 0xFF, 0x40, 0xEE, 0xB2,
    0x3A, 0x6E, 0x5A, 0xF1, 0x55, 0x4D, 0xA8, 0xC9, 0xC1, 0x0A, 0x98, 0x15, 0x30, 0x44, 0xA2, 0xC2,
    0x2C, 0x45, 0x92, 0x6C, 0xF3, 0x39, 0x66, 0x42, 0xF2, 0x35, 0x20, 0x6F, 0x77, 0xBB, 0x59, 0x19,
    0x1D, 0xFE, 0x37, 0x67, 0x2D, 0x31, 0xF5, 0x69, 0xA7, 0x64, 0xAB, 0x13, 0x54, 0x25, 0xE9, 0x09,
    0xED, 0x5C, 0x05, 0xCA, 0x4C, 0x24, 0x87, 0xBF, 0x18, 0x3E, 0x22, 0xF0, 0x51, 0xEC, 0x61, 0x17,
    0x16, 0x5E, 0xAF, 0xD3, 0x49, 0xA6, 0x36, 0x43, 0xF4, 0x47, 0x91, 0xDF, 0x33, 0x93, 0x21, 0x3B,
    0x79, 0xB7, 0x97, 0x85, 0x10, 0xB5, 0xBA, 0x3C, 0xB6, 0x70, 0xD0, 0x06, 0xA1, 0xFA, 0x81, 0x82,
    0x83, 0x7E, 0x7F, 0x80, 0x96, 0x73, 0xBE, 0x56, 0x9B, 0x9E, 0x95, 0xD9, 0xF7, 0x02, 0xB9, 0xA4,
    0xDE, 0x6A, 0x32, 0x6D, 0xD8, 0x8A, 0x84, 0x72, 0x2A, 0x14, 0x9F, 0x88, 0xF9, 0xDC, 0x89, 0x9A,
    0xFB, 0x7C, 0x2E, 0xC3, 0x8F, 0xB8, 0x65, 0x48, 0x26, 0xC8, 0x12, 0x4A, 0xCE, 0xE7, 0xD2, 0x62,
    0x0C, 0xE0, 0x1F, 0xEF, 0x11, 0x75, 0x78, 0x71, 0xA5, 0x8E, 0x76, 0x3D, 0xBD, 0xBC, 0x86, 0x57,
    0x0B, 0x28, 0x2F, 0xA3, 0xDA, 0xD4, 0xE4, 0x0F, 0xA9, 0x27, 0x53, 0x04, 0x1B, 0xFC, 0xAC, 0xE6,
    0x7A, 0x07, 0xAE, 0x63, 0xC5, 0xDB, 0xE2, 0xEA, 0x94, 0x8B, 0xC4, 0xD5, 0x9D, 0xF8, 0x90, 0x6B,
    0xB1, 0x0D, 0xD6, 0xEB, 0xC6, 0x0E, 0xCF, 0xAD, 0x08, 0x4E, 0xD7, 0xE3, 0x5D, 0x50, 0x1E, 0xB3,
    0x5B, 0x23, 0x38, 0x34, 0x68, 0x46, 0x03, 0x8C, 0xDD, 0x9C, 0x7D, 0xA0, 0xCD, 0x1A, 0x41, 0x1C]

/-- The byte that multiplies with this one to 1, and 0 for 0. -/
def inverse (b : UInt8) : UInt8 := inverses.getD b.toNat 0

theorem inverses_length : inverses.length = 256 := by decide +kernel

theorem products :
    List.zipWith mul ((List.range 256).map UInt8.ofNat) inverses = 0 :: List.replicate 255 1 := by
  decide +kernel

theorem mul_inverse {b : UInt8} (h : b ≠ 0) : mul b (inverse b) = 1 := by
  have hindex : b.toNat < inverses.length := by
    rw [inverses_length]
    exact b.toNat_lt
  obtain ⟨n, hn⟩ : ∃ n, b.toNat = n + 1 :=
    Nat.exists_eq_succ_of_ne_zero fun hzero => h (UInt8.toNat_inj.mp hzero)
  have hlength : b.toNat <
      (List.zipWith mul ((List.range 256).map UInt8.ofNat) inverses).length := by
    rw [List.length_zipWith, List.length_map, List.length_range, inverses_length, min_self]
    exact b.toNat_lt
  have hleft : (List.zipWith mul ((List.range 256).map UInt8.ofNat) inverses)[b.toNat]? =
      some (mul b (inverse b)) := by
    unfold inverse
    rw [List.getElem?_eq_getElem hlength, List.getElem_zipWith, List.getElem_map,
      List.getElem_range, UInt8.ofNat_toNat, List.getD_eq_getElem _ _ hindex]
  have hright : (0 :: List.replicate 255 1 : List UInt8)[b.toNat]? = some 1 := by
    have hlt := b.toNat_lt
    rw [hn, List.getElem?_cons_succ, List.getElem?_replicate, if_pos (by omega)]
  rw [products, hright] at hleft
  exact (Option.some.inj hleft).symm

/-- Every element but zero has an inverse, so the modulus is irreducible. -/
theorem exists_inverse {a : Element} (h : a ≠ 0) : ∃ c, a * c = 1 := by
  obtain ⟨b, rfl⟩ := ofByte.surjective a
  have hne : b ≠ 0 := by
    intro hzero
    rw [hzero, ofByte_zero] at h
    exact h rfl
  refine ⟨ofByte (inverse b), ?_⟩
  rw [← ofByte_mul, mul_inverse hne, ofByte_one]

theorem isUnit_of_dvd {p q : (ZMod 2)[X]} (h : modulus = p * q) (hdvd : modulus ∣ p) :
    IsUnit q := by
  obtain ⟨r, hr⟩ := hdvd
  have hcancel : modulus * 1 = modulus * (r * q) := by
    rw [mul_one, ← mul_assoc, ← hr, ← h]
  have hone : 1 = r * q := mul_left_cancel₀ modulus_monic.ne_zero hcancel
  exact IsUnit.of_mul_eq_one_right r hone.symm

theorem modulus_irreducible : Irreducible modulus := by
  have hnotUnit : ¬ IsUnit modulus := by
    intro hunit
    have hdegree := natDegree_eq_zero_of_isUnit hunit
    rw [modulus_natDegree] at hdegree
    cases hdegree
  constructor
  · exact hnotUnit
  · intro p q hpq
    have hprod : AdjoinRoot.mk modulus q * AdjoinRoot.mk modulus p = 0 := by
      rw [← map_mul, mul_comm, ← hpq, AdjoinRoot.mk_self]
    by_cases hp : AdjoinRoot.mk modulus p = 0
    · exact .inr (isUnit_of_dvd hpq (AdjoinRoot.mk_eq_zero.mp hp))
    · obtain ⟨c, hc⟩ := exists_inverse hp
      have hq : AdjoinRoot.mk modulus q = 0 := by
        rw [← mul_one (AdjoinRoot.mk modulus q), ← hc, ← mul_assoc, hprod, zero_mul]
      rw [mul_comm] at hpq
      exact .inl (isUnit_of_dvd hpq (AdjoinRoot.mk_eq_zero.mp hq))

instance : Fact (Irreducible modulus) := ⟨modulus_irreducible⟩

theorem ofByte_inverse (b : UInt8) : ofByte (inverse b) = (ofByte b)⁻¹ := by
  by_cases h : b = 0
  · rw [h, ofByte_zero, inv_zero]
    exact ofByte_zero
  · apply eq_inv_of_mul_eq_one_right
    rw [← ofByte_mul, mul_inverse h, ofByte_one]

end NetForge.Calculus.ByteField
