import NetForge.Ingest.Tlv
import NetForge.Ingest.Oid

/-! # What the encoders write

The encoders raise only where a length no longer fits its own length octets.
Below that limit they write a header with the shortest length and the content,
and what they write is what the decoders read.
-/

namespace NetForge.Ingest.Asn1

open Python

def sizeLimit : Nat := 256 ^ 126

/-! ## Lengths -/

theorem lt_two_pow_bitLength (n : Nat) : n < 2 ^ bitLength n := by
  unfold bitLength
  by_cases h : n = 0
  · simp [h]
  · rw [if_neg h]
    exact Nat.lt_log2_self

theorem two_pow_eight (k : Nat) : 256 ^ k = 2 ^ (8 * k) := by
  rw [Nat.pow_mul]

theorem lt_pow_octetLength (n : Nat) : n < 256 ^ octetLength n := by
  have hbits := lt_two_pow_bitLength n
  have hle : bitLength n ≤ 8 * octetLength n := by
    unfold octetLength
    omega
  rw [two_pow_eight]
  exact Nat.lt_of_lt_of_le hbits (Nat.pow_le_pow_right (by decide) hle)

theorem octetLength_le {n k : Nat} (h : n < 256 ^ k) : octetLength n ≤ k := by
  have hbits : bitLength n ≤ 8 * k := by
    unfold bitLength
    by_cases hz : n = 0
    · simp [hz]
    · rw [if_neg hz]
      rw [two_pow_eight] at h
      exact (Nat.log2_lt hz).mpr h
  unfold octetLength
  omega

theorem octetLength_pos {n : Nat} (h : n ≠ 0) : 0 < octetLength n := by
  unfold octetLength bitLength
  rw [if_neg h]
  omega

def header (tag : UInt8) (length : Nat) : Bytes :=
  if length < 0x80 then [tag, UInt8.ofNat length]
  else tag :: UInt8.ofNat (0x80 + octetLength length) :: octets (octetLength length) length

def wire (tag : UInt8) (body : Bytes) : Bytes := header tag body.length ++ body

theorem wire_length_pos (tag : UInt8) (body : Bytes) : body.length < (wire tag body).length := by
  unfold wire header
  by_cases h : body.length < 0x80
  · rw [if_pos h]
    simp only [List.length_append, List.length_cons, List.length_nil]
    omega
  · rw [if_neg h]
    simp only [List.length_append, List.length_cons]
    omega

theorem header_spec (tag : UInt8) {length : Nat} (h : length < sizeLimit) :
    Header tag length (header tag length) := by
  unfold header
  by_cases hshort : length < 0x80
  · have hbyte : (UInt8.ofNat length).toNat = length := by
      simp only [UInt8.toNat_ofNat']
      omega
    rw [if_pos hshort]
    exact .short _ (by omega) hbyte
  · have hcount : octetLength length ≤ 126 := octetLength_le h
    have hpos : 0 < octetLength length := octetLength_pos (by omega)
    have hbyte : (UInt8.ofNat (0x80 + octetLength length)).toNat = 0x80 + octetLength length := by
      simp only [UInt8.toNat_ofNat']
      omega
    rw [if_neg hshort]
    refine .long _ _ (by omega) ?_ (fromBytes_octets _ _ (lt_pow_octetLength length))
    rw [octets_length, hbyte]
    omega

theorem tlv_eq (tag : UInt8) {body : Bytes} (h : body.length < sizeLimit) :
    tlv tag body = .ok (wire tag body) := by
  have hlength : encodeLength body.length = .ok ((header tag body.length).drop 1) := by
    unfold encodeLength header
    by_cases hshort : body.length < 0x80
    · rw [if_pos hshort, if_pos hshort]
      rfl
    · have hcount : octetLength body.length ≤ 126 := octetLength_le h
      have hor : 0x80 ||| octetLength body.length = 0x80 + octetLength body.length := by
        have hdisjoint := Nat.two_pow_add_eq_or_of_lt (i := 7) (b := octetLength body.length)
          (by omega) 1
        simpa using hdisjoint.symm
      have hbyte : oneByte (0x80 ||| octetLength body.length) =
          .ok [UInt8.ofNat (0x80 + octetLength body.length)] := by
        unfold oneByte
        rw [hor, if_pos (by omega)]
      rw [if_neg hshort, if_neg hshort]
      simp only [octets_length, hbyte, ok_bind]
      rfl
  have htag : [tag] ++ (header tag body.length).drop 1 = header tag body.length := by
    unfold header
    by_cases hshort : body.length < 0x80
    · rw [if_pos hshort]
      rfl
    · rw [if_neg hshort]
      rfl
  unfold tlv
  rw [hlength, ok_bind, htag]
  rfl

def wires (items : List (UInt8 × Bytes)) : Bytes := items.flatMap fun item => wire item.1 item.2

theorem encodes_wires {items : List (UInt8 × Bytes)}
    (h : ∀ item ∈ items, item.2.length < sizeLimit) : Encodes items (wires items) := by
  induction items with
  | nil => exact .nil
  | cons item items ih =>
      obtain ⟨tag, val⟩ := item
      have hrest := ih fun x hx => h x (List.mem_cons_of_mem _ hx)
      have hhead := header_spec tag (h (tag, val) List.mem_cons_self)
      rw [wires, List.flatMap_cons, wire, List.append_assoc]
      exact .cons hhead hrest

theorem wire_le_wires {items : List (UInt8 × Bytes)} {item : UInt8 × Bytes} (h : item ∈ items) :
    (wire item.1 item.2).length ≤ (wires items).length := by
  obtain ⟨before, after, rfl⟩ := List.append_of_mem h
  simp only [wires, List.flatMap_append, List.flatMap_cons, List.length_append]
  omega

theorem length_le_wires {items : List (UInt8 × Bytes)} {item : UInt8 × Bytes} (h : item ∈ items) :
    item.2.length ≤ (wires items).length := by
  have hwire := wire_length_pos item.1 item.2
  have hle := wire_le_wires h
  omega

/-- What was written is read, as long as the whole is below the limit. -/
theorem decodeChildren_wires {items : List (UInt8 × Bytes)} (h : (wires items).length < sizeLimit) :
    decodeChildren (wires items) = .ok items :=
  decodeChildren_eq_ok_iff.mpr (encodes_wires fun item hitem => by
    have hle := length_le_wires hitem
    omega)

theorem lt_of_wire {tag : UInt8} {body : Bytes} (h : (wire tag body).length < sizeLimit) :
    body.length < sizeLimit := by
  have hpos := wire_length_pos tag body
  omega

theorem lt_of_wires {items : List (UInt8 × Bytes)} (h : (wires items).length < sizeLimit)
    (tag : UInt8) (body : Bytes) (hi : (tag, body) ∈ items) : body.length < sizeLimit := by
  have hle : body.length ≤ (wires items).length := length_le_wires hi
  omega

theorem encSeq_eq {items : List (UInt8 × Bytes)} (h : (wires items).length < sizeLimit) :
    encSeq (items.map fun item => wire item.1 item.2) = .ok (wire SEQUENCE (wires items)) := by
  unfold encSeq
  rw [← List.flatMap_def]
  exact tlv_eq SEQUENCE h

/-! ## Integers -/

def intOctets (value : Int) : Bytes :=
  if value = 0 then [0]
  else if 0 < value then
    let body := octets (octetLength value.toNat) value.toNat
    if signBit body then 0 :: body else body
  else
    let length := (bitLength value.natAbs + 8) / 8
    octets length (value % 256 ^ length).toNat

theorem octets_succ (length n : Nat) :
    octets (length + 1) n = UInt8.ofNat (n / 256 ^ length) :: octets length n := by
  induction length generalizing n with
  | zero =>
      have hmod : UInt8.ofNat (n % 256) = UInt8.ofNat n := by
        apply UInt8.toNat_inj.mp
        simp only [UInt8.toNat_ofNat']
        omega
      simp only [octets, List.nil_append, Nat.pow_zero, Nat.div_one, hmod]
  | succ length ih =>
      have hdiv : n / 256 / 256 ^ length = n / 256 ^ (length + 1) := by
        rw [Nat.div_div_eq_div_mul, Nat.pow_succ, Nat.mul_comm]
      rw [octets, ih, hdiv, List.cons_append]
      rfl

theorem signBit_octets {length n : Nat} (hn : n < 256 ^ (length + 1)) :
    signBit (octets (length + 1) n) = decide (256 ^ (length + 1) ≤ 2 * n) := by
  have hpow : 256 ^ (length + 1) = 256 ^ length * 256 := Nat.pow_succ 256 length
  have hpos : 0 < 256 ^ length := Nat.pow_pos (by decide)
  have hlt : n / 256 ^ length < 256 := by
    rw [Nat.div_lt_iff_lt_mul hpos]
    omega
  have hbyte : (UInt8.ofNat (n / 256 ^ length)).toNat = n / 256 ^ length := by
    rw [UInt8.toNat_ofNat']
    exact Nat.mod_eq_of_lt hlt
  rw [octets_succ, signBit, hbyte]
  refine decide_eq_decide.mpr ?_
  rw [Nat.le_div_iff_mul_le hpos]
  omega

/-- Two's complement of a negative value in the length `_int_body` gives it. -/
theorem negative_residue {value : Int} (h : value < 0) :
    2 * value.natAbs ≤ 256 ^ ((bitLength value.natAbs + 8) / 8) ∧
      (value % (256 : Int) ^ ((bitLength value.natAbs + 8) / 8)).toNat =
        256 ^ ((bitLength value.natAbs + 8) / 8) - value.natAbs := by
  generalize hlength : (bitLength value.natAbs + 8) / 8 = length
  have hfits : 2 * value.natAbs ≤ 256 ^ length := by
    have hbits := lt_two_pow_bitLength value.natAbs
    have hle : bitLength value.natAbs + 1 ≤ 8 * length := by omega
    have hpow := Nat.pow_le_pow_right (n := 2) (by decide) hle
    rw [two_pow_eight]
    rw [Nat.pow_succ] at hpow
    omega
  have hcast : ((256 : Int) ^ length) = ((256 ^ length : Nat) : Int) := by push_cast; rfl
  have hmod : value % (256 : Int) ^ length = value + ((256 ^ length : Nat) : Int) := by
    rw [hcast, ← Int.add_emod_right]
    exact Int.emod_eq_of_lt (by omega) (by omega)
  refine ⟨hfits, ?_⟩
  rw [hmod]
  omega

theorem intBody_eq (value : Int) : intBody value = .ok (intOctets value) := by
  unfold intBody intOctets
  by_cases hz : value = 0
  · rw [if_pos hz, if_pos hz]
  · by_cases hpos : 0 < value
    · rw [if_neg hz, if_neg hz, if_pos hpos, if_pos hpos]
    · obtain ⟨hfits, -⟩ := @negative_residue value (by omega)
      rw [if_neg hz, if_neg hz, if_neg hpos, if_neg hpos]
      unfold toBytesSigned
      generalize (bitLength value.natAbs + 8) / 8 = length at hfits ⊢
      have hcast : ((256 : Int) ^ length) = ((256 ^ length : Nat) : Int) := by push_cast; rfl
      rw [hcast, if_pos (by omega), ← hcast]

theorem parseInt_intOctets (value : Int) : parseInt (intOctets value) = value := by
  unfold intOctets
  by_cases hz : value = 0
  · rw [if_pos hz, hz]
    rfl
  · by_cases hpos : 0 < value
    · have hread := fromBytes_octets _ _ (lt_pow_octetLength value.toNat)
      have hcast : ((value.toNat : Nat) : Int) = value := Int.toNat_of_nonneg (by omega)
      rw [if_neg hz, if_pos hpos]
      by_cases hs : signBit (octets (octetLength value.toNat) value.toNat) = true
      · have hplain : signBit (0 :: octets (octetLength value.toNat) value.toNat) = false := rfl
        have hzero : fromBytes (0 :: octets (octetLength value.toNat) value.toNat) =
            fromBytes (octets (octetLength value.toNat) value.toNat) := by
          simp [fromBytes]
        simp only [hs, if_true, parseInt, hplain, Bool.false_eq_true, if_false, hzero, hread, hcast]
      · simp only [hs, parseInt, Bool.false_eq_true, if_false, hread, hcast]
    · obtain ⟨hfits, hresidue⟩ := @negative_residue value (by omega)
      have hk : (bitLength value.natAbs + 8) / 8 = bitLength value.natAbs / 8 + 1 := by omega
      generalize bitLength value.natAbs / 8 = k at hk
      rw [hk] at hfits hresidue
      rw [if_neg hz, if_neg hpos]
      simp only [hk, hresidue]
      have hlt : 256 ^ (k + 1) - value.natAbs < 256 ^ (k + 1) := by omega
      have hsign : signBit (octets (k + 1) (256 ^ (k + 1) - value.natAbs)) = true := by
        rw [signBit_octets hlt]
        exact decide_eq_true (by omega)
      have hcast : ((256 : Int) ^ (k + 1)) = ((256 ^ (k + 1) : Nat) : Int) := by push_cast; rfl
      rw [parseInt, if_pos hsign, fromBytes_octets _ _ hlt, octets_length, hcast]
      omega

theorem encInt_eq {value : Int} (h : (intOctets value).length < sizeLimit) :
    encInt value = .ok (wire INTEGER (intOctets value)) := by
  unfold encInt
  rw [intBody_eq, ok_bind, tlv_eq _ h]

end NetForge.Ingest.Asn1
