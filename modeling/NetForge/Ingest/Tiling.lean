import NetForge.Calculus.Tiling
import NetForge.Python.Sequence
import NetForge.Ingest.Readable

/-! # TLVs tile their input

`decode` at any offset, a negative one included, stays inside its buffer and moves
forward. The loop of `decode_children` therefore ends, and what it returns lies end
to end in its input. `auth_params_offset` adds up starts found as
`next_offset - len(value)`; inside a tiling these are where the values stand.
-/

namespace NetForge.Ingest.Asn1

open Python Calculus

/-! ## Any offset -/

/-- The value of `length` octets from `start` on, and its end. -/
def bodyAt (buf : Bytes) (tag : UInt8) (start : Int) (length : Nat) :
    Except PyError (UInt8 × Bytes × Int) :=
  let stop := start + length
  if (buf.length : Int) < stop then .error (.berError "truncated TLV value")
  else .ok (tag, getSlice buf start stop, stop)

/-- `decode` as the source has it, at any integer: Python counts a negative
offset from the end of the buffer. -/
def decodeAt (buf : Bytes) (offset : Int) : Except PyError (UInt8 × Bytes × Int) :=
  if (buf.length : Int) ≤ offset then .error (.berError "unexpected end of buffer")
  else do
    let tag ← getItem buf offset
    let length ← getItem buf (offset + 1)
    if length.toNat < 0x80 then bodyAt buf tag (offset + 2) length.toNat
    else
      let n := length.toNat - 0x80
      let digits := getSlice buf (offset + 2) (offset + 2 + n)
      if n = 0 then .error (.berError "indefinite length not supported")
      else bodyAt buf tag (offset + 2 + n) (fromBytes digits)

-- The value from -1 to 0 is cut out empty, whatever its length says.
example : decodeAt [0x04, 0x01, 0xAA] (-3) = .ok (0x04, [], 0) := by decide +kernel

theorem bodyAt_natCast (buf : Bytes) (tag : UInt8) (start length : Nat) :
    bodyAt buf tag start length =
      (decodeBody buf tag start length).map fun t => (t.1, t.2.1, (t.2.2 : Int)) := by
  have hstop : (start : Int) + length = ((start + length : Nat) : Int) := by omega
  unfold bodyAt decodeBody
  dsimp only
  rw [hstop, getSlice_natCast]
  by_cases hshort : buf.length < start + length
  · rw [if_pos hshort, if_pos (Int.ofNat_lt.mpr hshort)]
    rfl
  · rw [if_neg hshort, if_neg (fun h => hshort (Int.ofNat_lt.mp h))]
    rfl

/-- From the start of the buffer on this is the decoder of the callers. -/
theorem decodeAt_natCast (buf : Bytes) (offset : Nat) :
    decodeAt buf offset =
      (decode buf offset).map fun t => (t.1, t.2.1, (t.2.2 : Int)) := by
  have hone : (offset : Int) + 1 = ((offset + 1 : Nat) : Int) := by omega
  have htwo : (offset : Int) + 2 = ((offset + 2 : Nat) : Int) := by omega
  unfold decodeAt decode
  by_cases hend : buf.length ≤ offset
  · rw [if_pos hend, if_pos (Int.ofNat_le.mpr hend)]
    rfl
  · rw [if_neg hend, if_neg (fun h => hend (Int.ofNat_le.mp h)), hone, htwo, getItem_natCast,
      getItem_natCast]
    cases index buf offset with
    | error e => rfl
    | ok tag =>
        cases index buf (offset + 1) with
        | error e => rfl
        | ok length =>
            rw [ok_bind, ok_bind, ok_bind, ok_bind]
            by_cases hform : length.toNat < 0x80
            · rw [if_pos hform, if_pos hform]
              exact bodyAt_natCast buf tag (offset + 2) length.toNat
            · rw [if_neg hform, if_neg hform]
              by_cases hzero : length.toNat - 0x80 = 0
              · simp only [hzero, if_true]
                rfl
              · have hdigits : ((offset + 2 : Nat) : Int) + ((length.toNat - 0x80 : Nat) : Int) =
                    ((offset + 2 + (length.toNat - 0x80) : Nat) : Int) := by omega
                simp only [hzero, if_false]
                rw [hdigits, getSlice_natCast]
                exact bodyAt_natCast buf tag _ _

/-- A decoded TLV was cut out by `bodyAt` behind its tag and length. -/
theorem decodeAt_ok {buf : Bytes} {offset : Int} {tlv : UInt8 × Bytes × Int}
    (h : decodeAt buf offset = .ok tlv) :
    -(buf.length : Int) ≤ offset ∧
      ∃ tag start length, offset + 2 ≤ start ∧ bodyAt buf tag start length = .ok tlv := by
  unfold decodeAt at h
  by_cases hend : (buf.length : Int) ≤ offset
  · rw [if_pos hend] at h
    cases h
  · rw [if_neg hend] at h
    obtain ⟨tag, htag, h⟩ := ok_of_bind.mp h
    obtain ⟨length, -, h⟩ := ok_of_bind.mp h
    have hin := neg_length_le_of_getItem htag
    by_cases hform : length.toNat < 0x80
    · rw [if_pos hform] at h
      exact ⟨hin, tag, _, _, le_rfl, h⟩
    · rw [if_neg hform] at h
      by_cases hzero : length.toNat - 0x80 = 0
      · simp only [hzero, if_true] at h
        cases h
      · simp only [hzero, if_false] at h
        exact ⟨hin, tag, _, _, by omega, h⟩

/-- The next offset is two octets further or more, inside the buffer, and the value
stands right before it. -/
theorem decodeAt_spec {buf : Bytes} {offset next : Int} {tag : UInt8} {val : Bytes}
    (h : decodeAt buf offset = .ok (tag, val, next)) :
    offset + 2 ≤ next ∧ next ≤ buf.length ∧ val = getSlice buf (next - val.length) next := by
  obtain ⟨hin, t, start, length, hstart, hbody⟩ := decodeAt_ok h
  unfold bodyAt at hbody
  dsimp only at hbody
  by_cases hshort : (buf.length : Int) < start + length
  · rw [if_pos hshort] at hbody
    cases hbody
  · rw [if_neg hshort] at hbody
    cases hbody
    have hback := getSlice_back buf start (start + length) (by omega) (by omega) (by omega)
    exact ⟨by omega, by omega, hback.symm⟩

/-! ## Children -/

/-- More fuel than there are octets left changes nothing: the loop has ended. -/
theorem decodeChildrenFrom_fuel (fuel more : Nat) (value : Bytes) (offset : Nat)
    (h : value.length < fuel + offset) (hfuel : 0 < fuel) :
    decodeChildrenFrom (fuel + more) value offset = decodeChildrenFrom fuel value offset := by
  induction fuel generalizing offset with
  | zero => omega
  | succ fuel ih =>
      have hsucc : fuel + 1 + more = fuel + more + 1 := by omega
      rw [hsucc]
      unfold decodeChildrenFrom
      by_cases hlt : offset < value.length
      · rw [if_pos hlt, if_pos hlt]
        cases hd : decode value offset with
        | error e => rfl
        | ok t =>
            obtain ⟨tag, val, next⟩ := t
            have hnext := decode_spec hd
            have hrest := ih next (by omega) (by omega)
            rw [ok_bind, ok_bind]
            dsimp only
            rw [hrest]
      · rw [if_neg hlt, if_neg hlt]

/-- `item` is what `decode` reads at the start of `span`, and it reads up to its stop. -/
def StandsOn (value : Bytes) (item : UInt8 × Bytes) (span : Nat × Nat) : Prop :=
  decode value span.1 = .ok (item.1, item.2, span.2)

theorem tiles_of_decodeChildrenFrom {fuel : Nat} {value : Bytes} {offset : Nat}
    {items : List (UInt8 × Bytes)} (h : decodeChildrenFrom fuel value offset = .ok items)
    (hin : offset ≤ value.length) :
    ∃ spans, List.Forall₂ (StandsOn value) items spans ∧ Tiles offset spans value.length := by
  induction fuel generalizing offset items with
  | zero => cases h
  | succ fuel ih =>
      unfold decodeChildrenFrom at h
      by_cases hlt : offset < value.length
      · rw [if_pos hlt] at h
        obtain ⟨⟨tag, val, next⟩, hd, h⟩ := ok_of_bind.mp h
        obtain ⟨rest, hr, h⟩ := ok_of_bind.mp h
        cases h
        have hnext := decode_spec hd
        obtain ⟨spans, hstand, htiles⟩ := ih hr (by omega)
        exact ⟨(offset, next) :: spans, .cons hd hstand, .cons (by omega) htiles⟩
      · rw [if_neg hlt] at h
        cases h
        have hend : offset = value.length := by omega
        exact ⟨[], .nil, hend ▸ .nil⟩

end NetForge.Ingest.Asn1

namespace NetForge.Ingest.Snmp

open Python Asn1 Calculus

/-! ## Value starts -/

theorem slice_slice {α : Type} (xs : List α) (start count start' count' : Nat)
    (h : start' + count' ≤ count) :
    slice (slice xs start count) start' count' = slice xs (start + start') count' := by
  unfold slice
  rw [List.drop_take, List.drop_drop, List.take_take, Nat.min_eq_left (by omega)]

/-- The fifth security parameter of a message, by the nested walk that leads to it. -/
inductive AuthParams (data : Bytes) : (params : Bytes) → Prop
  | intro {msgBody secValue seqBody params : Bytes} {tag secTag seqTag paramsTag : UInt8}
      {version globalData engineId boots engineTime username : UInt8 × Bytes}
      {bodyEnd secStart secEnd seqEnd paramsStart paramsEnd : Nat} :
      decode data 0 = .ok (tag, msgBody, bodyEnd) →
      Walks data (bodyEnd - msgBody.length) [version, globalData] secStart →
      decode data secStart = .ok (secTag, secValue, secEnd) →
      decode secValue 0 = .ok (seqTag, seqBody, seqEnd) →
      Walks seqBody 0 [engineId, boots, engineTime, username] paramsStart →
      decode seqBody paramsStart = .ok (paramsTag, params, paramsEnd) →
      AuthParams data params

/-- The offset that the walk adds up is where the fifth parameter stands. -/
theorem authParamsOffset_spec {data : Bytes} {position : Nat}
    (h : authParamsOffset data = .ok position) :
    ∃ params, AuthParams data params ∧ position + params.length ≤ data.length ∧
      slice data position params.length = params := by
  unfold authParamsOffset at h
  obtain ⟨⟨tag, msgBody, bodyEnd⟩, hmsg, h⟩ := ok_of_bind.mp h
  obtain ⟨⟨t0, v0, o0⟩, hversion, h⟩ := ok_of_bind.mp h
  obtain ⟨⟨t1, v1, secStart⟩, hglobal, h⟩ := ok_of_bind.mp h
  obtain ⟨⟨secTag, secValue, secEnd⟩, hsec, h⟩ := ok_of_bind.mp h
  obtain ⟨⟨seqTag, seqBody, seqEnd⟩, hseq, h⟩ := ok_of_bind.mp h
  obtain ⟨⟨t2, v2, o2⟩, hengine, h⟩ := ok_of_bind.mp h
  obtain ⟨⟨t3, v3, o3⟩, hboots, h⟩ := ok_of_bind.mp h
  obtain ⟨⟨t4, v4, o4⟩, htime, h⟩ := ok_of_bind.mp h
  obtain ⟨⟨t5, v5, paramsStart⟩, huser, h⟩ := ok_of_bind.mp h
  obtain ⟨⟨paramsTag, params, paramsEnd⟩, hparams, h⟩ := ok_of_bind.mp h
  cases h
  obtain ⟨hsecLow, hsecHigh, hsecValue⟩ := decode_spec hsec
  obtain ⟨hseqLow, hseqHigh, hseqBody⟩ := decode_spec hseq
  obtain ⟨hparamsLow, hparamsHigh, hvalue⟩ := decode_spec hparams
  have houter : Walks data (bodyEnd - msgBody.length) [(t0, v0), (t1, v1)] secStart :=
    .cons hversion (.cons hglobal .nil)
  have hinner : Walks seqBody 0 [(t2, v2), (t3, v3), (t4, v4), (t5, v5)] paramsStart :=
    .cons hengine (.cons hboots (.cons htime (.cons huser .nil)))
  refine ⟨params, .intro hmsg houter hsec hseq hinner hparams, by omega, ?_⟩
  have hseqAt : slice data (secEnd - secValue.length + (seqEnd - seqBody.length)) seqBody.length =
      seqBody := by
    rw [← slice_slice data _ secValue.length _ _ (by omega), ← hsecValue, ← hseqBody]
  have hparamsAt := slice_slice data (secEnd - secValue.length + (seqEnd - seqBody.length))
    seqBody.length (paramsEnd - params.length) params.length (by omega)
  rw [hseqAt, ← hvalue] at hparamsAt
  exact hparamsAt.symm

theorem raises_authParamsOffset (data : Bytes) :
    Raises IsBufferError (authParamsOffset data) := by
  unfold authParamsOffset
  refine raises_bind.mpr ⟨raises_decode _ _, fun msg _ => ?_⟩
  refine raises_bind.mpr ⟨raises_decode _ _, fun version _ => ?_⟩
  refine raises_bind.mpr ⟨raises_decode _ _, fun globalData _ => ?_⟩
  refine raises_bind.mpr ⟨raises_decode _ _, fun security _ => ?_⟩
  refine raises_bind.mpr ⟨raises_decode _ _, fun sequence _ => ?_⟩
  refine raises_bind.mpr ⟨raises_decode _ _, fun engineId _ => ?_⟩
  refine raises_bind.mpr ⟨raises_decode _ _, fun boots _ => ?_⟩
  refine raises_bind.mpr ⟨raises_decode _ _, fun engineTime _ => ?_⟩
  refine raises_bind.mpr ⟨raises_decode _ _, fun username _ => ?_⟩
  exact raises_bind.mpr ⟨raises_decode _ _, fun params _ => raises_pure _⟩

theorem raises_getItem {α : Type} (xs : List α) (i : Int) :
    Raises IsBufferError (getItem xs i) := by
  unfold getItem
  by_cases hi : 0 ≤ i
  · rw [if_pos hi]
    exact raises_index _ _
  · rw [if_neg hi]
    by_cases hend : 0 ≤ i + xs.length
    · rw [if_pos hend]
      exact raises_index _ _
    · rw [if_neg hend]
      simp [IsBufferError]

theorem raises_bodyAt (buf : Bytes) (tag : UInt8) (start : Int) (length : Nat) :
    Raises IsBufferError (bodyAt buf tag start length) := by
  unfold bodyAt
  by_cases hshort : (buf.length : Int) < start + length
  · simp [hshort, IsBufferError]
  · simp [hshort]

theorem raises_decodeAt (buf : Bytes) (offset : Int) :
    Raises IsBufferError (decodeAt buf offset) := by
  unfold decodeAt
  by_cases hend : (buf.length : Int) ≤ offset
  · rw [if_pos hend]
    simp [IsBufferError]
  · rw [if_neg hend]
    apply raises_tlv (raises_getItem _ _) (raises_getItem _ _)
    · intro tag l
      exact raises_bodyAt _ _ _ _
    · intro tag l
      exact raises_bodyAt _ _ _ _

theorem raised_or_returned {α : Type} {x : Except PyError α} {Q : α → Prop}
    (hraises : Raises IsBufferError x) (hreturns : ∀ a, x = .ok a → Q a) :
    (∃ e, x = .error e ∧ IsBufferError e) ∨ ∃ a, x = .ok a ∧ Q a := by
  cases x with
  | error e => exact .inl ⟨e, rfl, hraises e rfl⟩
  | ok a => exact .inr ⟨a, rfl, hreturns a rfl⟩

/-- Decoding is bounded and moves forward at every offset of every buffer; the loop over
children ends, and its TLVs tile the input; the offset that adds up value starts is where
the value stands. -/
theorem decoded_tlvs_tile :
    (∀ (buf : Bytes) (offset : Int),
      (∃ e, decodeAt buf offset = .error e ∧ IsBufferError e) ∨
        ∃ t : UInt8 × Bytes × Int, decodeAt buf offset = .ok t ∧ offset + 2 ≤ t.2.2 ∧
          t.2.2 ≤ buf.length ∧ t.2.1 = getSlice buf (t.2.2 - t.2.1.length) t.2.2) ∧
    (∀ (buf : Bytes) (offset : Nat),
      decodeAt buf offset = (decode buf offset).map fun t => (t.1, t.2.1, (t.2.2 : Int))) ∧
    (∀ (value : Bytes) (more : Nat),
      decodeChildrenFrom (value.length + 1 + more) value 0 = decodeChildren value) ∧
    (∀ value : Bytes,
      (∃ e, decodeChildren value = .error e ∧ IsBufferError e) ∨
        ∃ items, decodeChildren value = .ok items ∧
          ∃ spans, List.Forall₂ (StandsOn value) items spans ∧
            (∀ p, p < value.length ↔ ∃ span ∈ spans, span.1 ≤ p ∧ p < span.2) ∧
            spans.Pairwise fun s t => s.2 ≤ t.1) ∧
    (∀ data : Bytes,
      (∃ e, authParamsOffset data = .error e ∧ IsBufferError e) ∨
        ∃ position, authParamsOffset data = .ok position ∧
          ∃ params, AuthParams data params ∧ position + params.length ≤ data.length ∧
            slice data position params.length = params) := by
  refine ⟨?_, decodeAt_natCast, ?_, ?_, ?_⟩
  · intro buf offset
    apply raised_or_returned (raises_decodeAt buf offset)
    intro t h
    exact decodeAt_spec h
  · intro value more
    exact decodeChildrenFrom_fuel _ more value 0 (by omega) (by omega)
  · intro value
    apply raised_or_returned (raises_decodeChildren value)
    intro items h
    obtain ⟨spans, hstand, htiles⟩ := tiles_of_decodeChildrenFrom h (Nat.zero_le _)
    refine ⟨spans, hstand, fun p => ?_, htiles.pairwise⟩
    have hmem := htiles.mem_iff p
    simpa using hmem
  · intro data
    apply raised_or_returned (raises_authParamsOffset data)
    intro position h
    exact authParamsOffset_spec h

end NetForge.Ingest.Snmp
