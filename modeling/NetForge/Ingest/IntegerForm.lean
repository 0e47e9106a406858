import NetForge.Ingest.Wire
import Mathlib.Data.List.Induction
import Mathlib.Tactic.Linarith

/-! # The shortest form of an integer

The content of an INTEGER is shortest exactly when its first nine bits are not all equal.
`_int_body` takes the length of a negative value from the bits of its magnitude, which is one
octet too many where that magnitude is a power of two on an octet boundary.
-/

namespace NetForge.Ingest.Asn1

open Python

/-- BER: of a content of two or more octets, the first nine bits are neither all zero nor all
one. -/
def Shortest : Bytes → Prop
  | first :: second :: _ =>
      ¬ (first.toNat = 0 ∧ second.toNat < 0x80) ∧ ¬ (first.toNat = 0xFF ∧ 0x80 ≤ second.toNat)
  | _ => True

/-! ## Reading two's complement -/

theorem fromBytes_cons (b : UInt8) (bs : Bytes) :
    fromBytes (b :: bs) = b.toNat * 256 ^ bs.length + fromBytes bs := by
  induction bs using List.reverseRecOn with
  | nil => simp [fromBytes]
  | append_singleton bs c ih =>
      have happend := fromBytes_append_singleton (b :: bs) c
      rw [List.cons_append] at happend
      rw [happend, ih, fromBytes_append_singleton, List.length_append, List.length_singleton,
        Nat.pow_succ]
      ring

theorem fromBytes_lt (bs : Bytes) : fromBytes bs < 256 ^ bs.length := by
  induction bs with
  | nil => exact Nat.one_pos
  | cons b bs ih =>
      have hb : b.toNat + 1 ≤ 256 := UInt8.toNat_lt b
      have hmul := Nat.mul_le_mul_right (256 ^ bs.length) hb
      rw [fromBytes_cons, List.length_cons, Nat.pow_succ]
      rw [Nat.add_mul] at hmul
      omega

def signed (b : UInt8) : Int := if 0x80 ≤ b.toNat then (b.toNat : Int) - 256 else b.toNat

theorem parseInt_cons (b : UInt8) (bs : Bytes) :
    parseInt (b :: bs) = signed b * 256 ^ bs.length + fromBytes bs := by
  unfold parseInt signed signBit
  rw [fromBytes_cons, List.length_cons]
  by_cases h : 0x80 ≤ b.toNat
  · rw [if_pos (decide_eq_true h), if_pos h]
    push_cast
    ring
  · rw [if_neg (by simpa using h), if_neg h]
    push_cast
    ring

/-- A content of so many octets holds the values of that many octets. -/
theorem parseInt_bounds {content : Bytes} (hne : content ≠ []) :
    -(256 ^ content.length : Int) ≤ 2 * parseInt content ∧
      2 * parseInt content < 256 ^ content.length := by
  obtain ⟨b, bs, rfl⟩ := List.exists_cons_of_ne_nil hne
  have hlow : (0 : Int) ≤ fromBytes bs := Int.natCast_nonneg _
  have hhigh : (fromBytes bs : Int) < 256 ^ bs.length := by exact_mod_cast fromBytes_lt bs
  have hb := UInt8.toNat_lt b
  have hsigned : -128 ≤ signed b ∧ signed b ≤ 127 := by
    unfold signed
    split <;> omega
  have hpos : (0 : Int) < 256 ^ bs.length := by positivity
  rw [parseInt_cons, List.length_cons, pow_succ]
  constructor
  · nlinarith [hsigned.1]
  · nlinarith [hsigned.2]

/-- The value `s * 256 + t` at the top of a number, with `s` signed, decides whether the number
fits without `s`: it does not unless `s` is the sign of `t`. -/
theorem top_iff {s t r p : Int} (hp : 0 < p) (hr : 0 ≤ r ∧ r < p) (ht : 0 ≤ t ∧ t < 256) :
    ¬ (s = 0 ∧ t < 128) ∧ ¬ (s = -1 ∧ 128 ≤ t) ↔
      2 * (s * (p * 256) + (t * p + r)) < -(p * 256) ∨
        p * 256 ≤ 2 * (s * (p * 256) + (t * p + r)) := by
  obtain ⟨hlow, hhigh⟩ := hr
  have hcases : s ≤ -2 ∨ s = -1 ∨ s = 0 ∨ 1 ≤ s := by omega
  rcases hcases with hs2 | rfl | rfl | hs1
  · constructor
    · intro _
      left
      nlinarith
    · intro _
      omega
  · constructor
    · rintro ⟨-, hsmall⟩
      left
      have hlt : t ≤ 127 := by omega
      nlinarith
    · intro h
      refine ⟨by omega, ?_⟩
      rintro ⟨-, hlarge⟩
      rcases h with h | h
      · nlinarith
      · nlinarith
  · constructor
    · rintro ⟨hlarge, -⟩
      right
      have hge : 128 ≤ t := by omega
      nlinarith
    · intro h
      refine ⟨?_, by omega⟩
      rintro ⟨-, hsmall⟩
      have hlt : t ≤ 127 := by omega
      rcases h with h | h
      · nlinarith
      · nlinarith
  · constructor
    · intro _
      right
      nlinarith
    · intro _
      omega

/-- A content is shortest when its value does not fit one octet less. -/
theorem shortest_iff_bounds {first : UInt8} {rest : Bytes} (hne : rest ≠ []) :
    Shortest (first :: rest) ↔
      2 * parseInt (first :: rest) < -(256 ^ rest.length : Int) ∨
        256 ^ rest.length ≤ 2 * parseInt (first :: rest) := by
  obtain ⟨second, bs, rfl⟩ := List.exists_cons_of_ne_nil hne
  have hlow : (0 : Int) ≤ fromBytes bs := Int.natCast_nonneg _
  have hhigh : (fromBytes bs : Int) < 256 ^ bs.length := by exact_mod_cast fromBytes_lt bs
  have hfirst := UInt8.toNat_lt first
  have hsecond := UInt8.toNat_lt second
  have hpos : (0 : Int) < 256 ^ bs.length := by positivity
  have hsigned :
      (signed first = 0 ↔ first.toNat = 0) ∧ (signed first = -1 ↔ first.toNat = 0xFF) := by
    unfold signed
    split <;> omega
  have hform : Shortest (first :: second :: bs) ↔
      ¬ (signed first = 0 ∧ (second.toNat : Int) < 128) ∧
        ¬ (signed first = -1 ∧ 128 ≤ (second.toNat : Int)) := by
    unfold Shortest
    rw [hsigned.1, hsigned.2]
    omega
  rw [hform, top_iff hpos ⟨hlow, hhigh⟩ ⟨Int.natCast_nonneg _, by omega⟩, parseInt_cons,
    fromBytes_cons, List.length_cons, pow_succ]
  push_cast
  rfl

theorem shortest_iff_of_length {content : Bytes} {k : Nat} (hlength : content.length = k + 1) :
    Shortest content ↔
      k = 0 ∨ 2 * parseInt content < -(256 ^ k : Int) ∨ 256 ^ k ≤ 2 * parseInt content := by
  cases content with
  | nil => simp at hlength
  | cons first rest =>
      have hrest : rest.length = k := by simpa using hlength
      cases rest with
      | nil =>
          have hk : k = 0 := hrest.symm
          exact ⟨fun _ => .inl hk, fun _ => trivial⟩
      | cons second bs =>
          have hk : k ≠ 0 := by
            intro hzero
            rw [hzero] at hrest
            cases hrest
          have hbounds := @shortest_iff_bounds first _ (List.cons_ne_nil second bs)
          rw [hrest] at hbounds
          rw [hbounds]
          exact (or_iff_right hk).symm

theorem parseInt_tail {first second : UInt8} {bs : Bytes}
    (h : ¬ Shortest (first :: second :: bs)) :
    parseInt (second :: bs) = parseInt (first :: second :: bs) := by
  have hrepeats : (first.toNat = 0 ∧ second.toNat < 0x80) ∨
      (first.toNat = 0xFF ∧ 0x80 ≤ second.toNat) := by
    by_contra hneither
    exact h (not_or.mp hneither)
  rw [parseInt_cons, parseInt_cons, fromBytes_cons, List.length_cons, pow_succ]
  push_cast
  rcases hrepeats with ⟨hfirst, hsecond⟩ | ⟨hfirst, hsecond⟩
  · have hs : signed first = 0 := by
      unfold signed
      rw [hfirst]
      rfl
    have hs' : signed second = second.toNat := if_neg (by omega)
    rw [hs, hs']
    ring
  · have hs : signed first = -1 := by
      unfold signed
      rw [hfirst]
      rfl
    have hs' : signed second = (second.toNat : Int) - 256 := if_pos hsecond
    rw [hs, hs']
    ring

/-- The condition on the first nine bits says that no other content of the value is shorter. -/
theorem shortest_iff {content : Bytes} (hne : content ≠ []) :
    Shortest content ↔
      ∀ other, other ≠ [] → parseInt other = parseInt content → content.length ≤ other.length := by
  constructor
  · intro h other hother hvalue
    by_contra hshorter
    obtain ⟨k, hk⟩ : ∃ k, content.length = k + 1 :=
      Nat.exists_eq_succ_of_ne_zero (List.length_eq_zero_iff.not.mpr hne)
    have hpos : other.length ≠ 0 := List.length_eq_zero_iff.not.mpr hother
    obtain ⟨hlow, hhigh⟩ := parseInt_bounds hother
    have hpow : (256 : Int) ^ other.length ≤ 256 ^ k :=
      pow_le_pow_right₀ (by decide) (by omega)
    rw [hvalue] at hlow hhigh
    rcases (shortest_iff_of_length hk).mp h with hzero | hbelow | habove
    · omega
    · omega
    · omega
  · intro h
    by_contra hnot
    cases content with
    | nil => exact hne rfl
    | cons first rest =>
        cases rest with
        | nil => exact hnot trivial
        | cons second bs =>
            have hle := h (second :: bs) (List.cons_ne_nil _ _) (parseInt_tail hnot)
            simp at hle

/-! ## What the encoder writes -/

theorem two_pow_bitLength_le {n : Nat} (h : n ≠ 0) : 2 ^ bitLength n ≤ 2 * n := by
  unfold bitLength
  have hlog := Nat.log2_self_le h
  rw [if_neg h, Nat.pow_succ]
  omega

theorem bitLength_two_pow (k : Nat) : bitLength (2 ^ k) = k + 1 := by
  unfold bitLength
  rw [if_neg (Nat.two_pow_pos k).ne', Nat.log2_two_pow]

theorem pow_le_of_octetLength {n k : Nat} (h : octetLength n = k + 1) : 256 ^ k ≤ n := by
  by_contra hlt
  have hle := octetLength_le (Nat.lt_of_not_le hlt)
  omega

theorem intOctets_ne_nil (value : Int) : intOctets value ≠ [] := by
  intro hnil
  have hread := parseInt_intOctets value
  rw [hnil] at hread
  rw [← hread] at hnil
  exact absurd hnil (by decide)

/-- A positive value is never written with an octet too many. -/
theorem shortest_of_pos {value : Int} (h : 0 < value) : Shortest (intOctets value) := by
  have hread := parseInt_intOctets value
  have hn : value.toNat ≠ 0 := by omega
  have hcast : ((value.toNat : Nat) : Int) = value := Int.toNat_of_nonneg (by omega)
  obtain ⟨k, hk⟩ : ∃ k, octetLength value.toNat = k + 1 :=
    Nat.exists_eq_succ_of_ne_zero (octetLength_pos hn).ne'
  have hlt := lt_pow_octetLength value.toNat
  have hform : intOctets value =
      if signBit (octets (k + 1) value.toNat) then 0 :: octets (k + 1) value.toNat
      else octets (k + 1) value.toNat := by
    unfold intOctets
    rw [if_neg h.ne', if_pos h, hk]
  rw [hk] at hlt
  by_cases hs : signBit (octets (k + 1) value.toNat) = true
  · rw [if_pos hs] at hform
    rw [signBit_octets hlt, decide_eq_true_eq] at hs
    have hlength : (intOctets value).length = (k + 1) + 1 := by
      rw [hform, List.length_cons, octets_length]
    rw [shortest_iff_of_length hlength, hread]
    right; right
    have hs' : ((256 ^ (k + 1) : Nat) : Int) ≤ ((2 * value.toNat : Nat) : Int) := by
      exact_mod_cast hs
    push_cast at hs'
    omega
  · rw [if_neg hs] at hform
    have hlength : (intOctets value).length = k + 1 := by
      rw [hform, octets_length]
    have hlow : ((256 ^ k : Nat) : Int) ≤ value.toNat := by
      exact_mod_cast pow_le_of_octetLength hk
    push_cast at hlow
    rw [shortest_iff_of_length hlength, hread]
    right; right
    omega

/-- The length of a negative value exceeds what is needed where its magnitude is the power of
two that still fits one octet less. -/
theorem shortest_iff_of_neg {value : Int} (h : value < 0) :
    Shortest (intOctets value) ↔ ∀ k : Nat, value.natAbs ≠ 2 ^ (8 * k + 7) := by
  have hread := parseInt_intOctets value
  have hn : value.natAbs ≠ 0 := by omega
  have hlength : (intOctets value).length = bitLength value.natAbs / 8 + 1 := by
    unfold intOctets
    rw [if_neg h.ne, if_neg (by omega), octets_length]
    omega
  have hlow := two_pow_bitLength_le hn
  rw [shortest_iff_of_length hlength, hread]
  generalize hk : bitLength value.natAbs / 8 = k
  have hcast : ((256 : Int) ^ k) = ((2 ^ (8 * k) : Nat) : Int) := by
    rw [← two_pow_eight]
    push_cast
    rfl
  rw [hcast]
  constructor
  · intro hfits j hpower
    rw [hpower, bitLength_two_pow] at hk
    have hj : k = j + 1 := by omega
    have hdouble : 2 ^ (8 * k) = 2 * 2 ^ (8 * j + 7) := by
      rw [hj, ← Nat.pow_succ']
      congr 1
    omega
  · intro hpower
    by_contra hnot
    obtain ⟨hk0, hbelow⟩ := not_or.mp hnot
    obtain ⟨hbelow, -⟩ := not_or.mp hbelow
    have hbits : 2 ^ (8 * k) ≤ 2 ^ bitLength value.natAbs :=
      Nat.pow_le_pow_right (by decide) (by omega)
    have hdouble : 2 ^ (8 * k) = 2 * 2 ^ (8 * (k - 1) + 7) := by
      rw [← Nat.pow_succ']
      congr 1
      omega
    apply hpower (k - 1)
    omega

theorem shortest_intOctets_iff (value : Int) :
    Shortest (intOctets value) ↔ ∀ k : Nat, value ≠ -(2 ^ (8 * k + 7)) := by
  have hmagnitude : ∀ k : Nat, value = -(2 ^ (8 * k + 7)) ↔
      value < 0 ∧ value.natAbs = 2 ^ (8 * k + 7) := by
    intro k
    have hcast : ((2 : Int) ^ (8 * k + 7)) = ((2 ^ (8 * k + 7) : Nat) : Int) := by push_cast; rfl
    have hpos := Nat.two_pow_pos (8 * k + 7)
    rw [hcast]
    omega
  by_cases hneg : value < 0
  · rw [shortest_iff_of_neg hneg]
    constructor
    · intro h k heq
      exact h k ((hmagnitude k).mp heq).2
    · intro h k heq
      exact h k ((hmagnitude k).mpr ⟨hneg, heq⟩)
  · have hshort : Shortest (intOctets value) := by
      by_cases hz : value = 0
      · rw [hz]
        exact trivial
      · exact shortest_of_pos (by omega)
    constructor
    · intro _ k heq
      exact hneg ((hmagnitude k).mp heq).1
    · intro _
      exact hshort

/-- The encoding of a value is read back and is the shortest one, except on the smallest value
of each number of octets. -/
theorem intBody_exact_iff (value : Int) :
    (∃ body, intBody value = .ok body ∧ parseInt body = value ∧ Shortest body ∧
        ∀ other, other ≠ [] → parseInt other = value → body.length ≤ other.length) ↔
      ∀ k : Nat, value ≠ -(2 ^ (8 * k + 7)) := by
  have hread := parseInt_intOctets value
  rw [← shortest_intOctets_iff]
  constructor
  · rintro ⟨body, hbody, -, hshort, -⟩
    rw [intBody_eq] at hbody
    rw [Except.ok.inj hbody]
    exact hshort
  · intro hshort
    refine ⟨intOctets value, intBody_eq value, hread, hshort, ?_⟩
    intro other hother hvalue
    exact (shortest_iff (intOctets_ne_nil value)).mp hshort other hother (hvalue.trans hread.symm)

/-- -128 takes two octets, although one is enough. -/
theorem intBody_minus_128 :
    intBody (-128) = .ok [0xFF, 0x80] ∧ parseInt [0x80] = -128 ∧
      ¬ ∀ value : Int, ∃ body, intBody value = .ok body ∧ parseInt body = value ∧ Shortest body ∧
        ∀ other, other ≠ [] → parseInt other = value → body.length ≤ other.length := by
  have hbody : intBody (-128) = .ok [0xFF, 0x80] := by decide +kernel
  refine ⟨hbody, by decide, ?_⟩
  intro always
  obtain ⟨body, hok, -, -, hleast⟩ := always (-128)
  have hlength := hleast [0x80] (by decide) (by decide)
  rw [hbody] at hok
  rw [← Except.ok.inj hok] at hlength
  exact absurd hlength (by decide)

end NetForge.Ingest.Asn1
