import NetForge.Ingest.Asn1

/-! # The grammar of TLVs

Which octets `decode` and `decode_children` accept, as a grammar: a header is a
tag with a length in its short or in any long form, and a content is a run of
headers, each before its value. The decoders accept exactly these, wherever they
stand in a buffer.
-/

namespace NetForge.Ingest.Asn1

open Python

/-- `head` is the tag and the definite length of a value of `length` octets. The
long form may spend more octets than the length needs. -/
inductive Header (tag : UInt8) (length : Nat) : Bytes → Prop
  | short (l : UInt8) : l.toNat < 0x80 → l.toNat = length → Header tag length [tag, l]
  | long (l : UInt8) (digits : Bytes) : 0x80 < l.toNat → digits.length = l.toNat - 0x80 →
      fromBytes digits = length → Header tag length (tag :: l :: digits)

/-- `content` is the run of the TLVs `items`. -/
inductive Encodes : List (UInt8 × Bytes) → Bytes → Prop
  | nil : Encodes [] []
  | cons {tag : UInt8} {val head rest : Bytes} {items : List (UInt8 × Bytes)} :
      Header tag val.length head → Encodes items rest →
        Encodes ((tag, val) :: items) (head ++ (val ++ rest))

theorem Header.two_le {tag : UInt8} {length : Nat} {head : Bytes} (h : Header tag length head) :
    2 ≤ head.length := by
  cases h with
  | short l _ _ => exact le_rfl
  | long l digits _ _ _ => simp

/-! ## Reading at an offset -/

theorem index_append {α : Type} (before xs : List α) (i : Nat) :
    index (before ++ xs) (before.length + i) = index xs i := by
  unfold index
  rw [List.getElem?_append_right (Nat.le_add_right _ _), Nat.add_sub_cancel_left]

theorem slice_append {α : Type} (before xs after : List α) :
    slice (before ++ (xs ++ after)) before.length xs.length = xs := by
  simp [slice]

theorem decode_eq {buf : Bytes} {offset : Nat} {tag l : UInt8} (htag : index buf offset = .ok tag)
    (hl : index buf (offset + 1) = .ok l) :
    decode buf offset =
      if l.toNat < 0x80 then decodeBody buf tag (offset + 2) l.toNat
      else if l.toNat - 0x80 = 0 then .error (.berError "indefinite length not supported")
      else decodeBody buf tag (offset + 2 + (l.toNat - 0x80))
        (fromBytes (slice buf (offset + 2) (l.toNat - 0x80))) := by
  have hlt : offset < buf.length := by
    obtain ⟨hlt, -⟩ := List.getElem?_eq_some_iff.mp (index_eq_ok_iff.mp htag)
    exact hlt
  unfold decode
  rw [if_neg (by omega), htag, ok_bind, hl, ok_bind]

/-- A header followed by its value is decoded wherever it stands. -/
theorem decode_at {tag : UInt8} {head val : Bytes} (h : Header tag val.length head)
    (before after : Bytes) :
    decode (before ++ (head ++ (val ++ after))) before.length =
      .ok (tag, val, before.length + head.length + val.length) := by
  have hbody : decodeBody (before ++ (head ++ (val ++ after))) tag
      (before.length + head.length) val.length =
        .ok (tag, val, before.length + head.length + val.length) := by
    unfold decodeBody
    have hfits : ¬ (before ++ (head ++ (val ++ after))).length <
        before.length + head.length + val.length := by
      simp only [List.length_append]
      omega
    rw [if_neg hfits]
    have hslice := slice_append (before ++ head) val after
    rw [List.length_append, List.append_assoc] at hslice
    rw [hslice]
  have hfirst := index_append before (head ++ (val ++ after)) 0
  have hsecond := index_append before (head ++ (val ++ after)) 1
  rw [Nat.add_zero] at hfirst
  cases h with
  | short l hl hlen =>
      rw [decode_eq hfirst hsecond, if_pos hl, hlen]
      exact hbody
  | long l digits hl hcount hlen =>
      have hnot : ¬ l.toNat < 0x80 := by omega
      have hne : ¬ l.toNat - 0x80 = 0 := by omega
      have hdigits : slice (before ++ (tag :: l :: digits ++ (val ++ after)))
          (before.length + 2) (l.toNat - 0x80) = digits := by
        have hslice := slice_append (before ++ [tag, l]) digits (val ++ after)
        rw [hcount] at hslice
        simpa using hslice
      have hstart : before.length + 2 + (l.toNat - 0x80) =
          before.length + (tag :: l :: digits).length := by
        simp only [List.length_cons]
        omega
      rw [decode_eq hfirst hsecond, if_neg hnot, if_neg hne, hdigits, hlen, hstart]
      exact hbody

theorem drop_of_decodeBody {buf : Bytes} {t tag : UInt8} {start length next : Nat} {val : Bytes}
    (h : decodeBody buf t start length = .ok (tag, val, next)) :
    buf.drop start = val ++ buf.drop next := by
  obtain ⟨-, hval, -, hnext, -⟩ := decodeBody_spec h
  rw [hval, ← hnext, slice, ← List.drop_drop, List.take_append_drop]

/-- What `decode` accepts at an offset is a header followed by its value. -/
theorem header_of_decode {buf : Bytes} {offset : Nat} {tag : UInt8} {val : Bytes} {next : Nat}
    (h : decode buf offset = .ok (tag, val, next)) :
    ∃ head, Header tag val.length head ∧ offset + head.length + val.length = next ∧
      buf.drop offset = head ++ (val ++ buf.drop next) := by
  have hdecode := h
  unfold decode at h
  by_cases hout : buf.length ≤ offset
  · rw [if_pos hout] at h
    cases h
  · rw [if_neg hout] at h
    obtain ⟨t, ht, h'⟩ := ok_of_bind.mp h
    obtain ⟨l, hl, -⟩ := ok_of_bind.mp h'
    have hsplit : buf.drop offset = t :: l :: buf.drop (offset + 2) := by
      have hoff := List.getElem?_eq_some_iff.mp (index_eq_ok_iff.mp ht)
      have hoff' := List.getElem?_eq_some_iff.mp (index_eq_ok_iff.mp hl)
      obtain ⟨hlt, hget⟩ := hoff
      obtain ⟨hlt', hget'⟩ := hoff'
      rw [List.drop_eq_getElem_cons hlt, List.drop_eq_getElem_cons hlt', hget, hget']
    rw [decode_eq ht hl] at hdecode
    clear h h'
    by_cases hform : l.toNat < 0x80
    · rw [if_pos hform] at hdecode
      have hdrop := drop_of_decodeBody hdecode
      obtain ⟨rfl, -, hlen, hnext, -⟩ := decodeBody_spec hdecode
      refine ⟨[t, l], .short l hform hlen.symm, ?_, ?_⟩
      · simp only [List.length_cons, List.length_nil]
        omega
      · rw [hsplit, hdrop]
        rfl
    · rw [if_neg hform] at hdecode
      by_cases hzero : l.toNat - 0x80 = 0
      · rw [if_pos hzero] at hdecode
        cases hdecode
      · rw [if_neg hzero] at hdecode
        have hdrop := drop_of_decodeBody hdecode
        obtain ⟨rfl, -, hlen, hnext, hle⟩ := decodeBody_spec hdecode
        have hdigits : (slice buf (offset + 2) (l.toNat - 0x80)).length = l.toNat - 0x80 := by
          rw [slice_length]
          omega
        refine ⟨t :: l :: slice buf (offset + 2) (l.toNat - 0x80),
          .long l _ (by omega) hdigits hlen.symm, ?_, ?_⟩
        · simp only [List.length_cons, hdigits]
          omega
        · have hjoin : slice buf (offset + 2) (l.toNat - 0x80) ++
              buf.drop (offset + 2 + (l.toNat - 0x80)) = buf.drop (offset + 2) := by
            rw [slice, ← List.drop_drop (i := l.toNat - 0x80), List.take_append_drop]
          rw [hsplit, List.cons_append, List.cons_append, ← hdrop, hjoin]

theorem decode_zero {tag : UInt8} {head val after : Bytes} (h : Header tag val.length head) :
    decode (head ++ (val ++ after)) 0 = .ok (tag, val, head.length + val.length) := by
  have hat := decode_at h [] after
  simpa using hat

theorem decode_of_split {tag : UInt8} {buf before head val after : Bytes} {offset next : Nat}
    (h : Header tag val.length head) (hbuf : buf = before ++ (head ++ (val ++ after)))
    (ho : offset = before.length) (hn : next = offset + head.length + val.length) :
    decode buf offset = .ok (tag, val, next) := by
  rw [hbuf, hn, ho]
  exact decode_at h before after

/-! ## Runs of TLVs -/

theorem encodes_of_decodeChildrenFrom {fuel : Nat} {value : Bytes} {offset : Nat}
    {items : List (UInt8 × Bytes)} (h : decodeChildrenFrom fuel value offset = .ok items) :
    Encodes items (value.drop offset) := by
  induction fuel generalizing offset items with
  | zero => cases h
  | succ fuel ih =>
      unfold decodeChildrenFrom at h
      by_cases hlt : offset < value.length
      · rw [if_pos hlt] at h
        obtain ⟨⟨tag, val, next⟩, hd, h⟩ := ok_of_bind.mp h
        obtain ⟨rest, hr, h⟩ := ok_of_bind.mp h
        cases h
        obtain ⟨head, hhead, -, hdrop⟩ := header_of_decode hd
        rw [hdrop]
        exact .cons hhead (ih hr)
      · rw [if_neg hlt] at h
        cases h
        rw [List.drop_eq_nil_of_le (by omega)]
        exact .nil

theorem decodeChildrenFrom_of_encodes {items : List (UInt8 × Bytes)} {content : Bytes}
    (h : Encodes items content) (before : Bytes) (fuel : Nat) (hf : content.length < fuel) :
    decodeChildrenFrom fuel (before ++ content) before.length = .ok items := by
  induction h generalizing before fuel with
  | nil =>
      cases fuel with
      | zero => omega
      | succ fuel =>
          unfold decodeChildrenFrom
          have hnot : ¬ before.length < (before ++ ([] : Bytes)).length := by simp
          rw [if_neg hnot]
  | @cons tag val head rest items hhead hrest ih =>
      have htwo := hhead.two_le
      simp only [List.length_append] at hf
      cases fuel with
      | zero => omega
      | succ fuel =>
          unfold decodeChildrenFrom
          have hlt : before.length < (before ++ (head ++ (val ++ rest))).length := by
            simp only [List.length_append]
            omega
          have hnext := ih (before ++ (head ++ val)) fuel (by omega)
          rw [if_pos hlt, decode_at hhead, ok_bind]
          simp only [List.length_append, List.append_assoc, ← Nat.add_assoc] at hnext
          simp only [hnext, ok_bind]
          rfl

theorem decodeChildren_eq_ok_iff {value : Bytes} {items : List (UInt8 × Bytes)} :
    decodeChildren value = .ok items ↔ Encodes items value := by
  constructor
  · intro h
    have hdrop := encodes_of_decodeChildrenFrom h
    rwa [List.drop_zero] at hdrop
  · intro h
    exact decodeChildrenFrom_of_encodes h [] _ (Nat.lt_succ_self _)

theorem Encodes.split {items : List (UInt8 × Bytes)} {content : Bytes} (h : Encodes items content)
    {i : Nat} {tag : UInt8} {val : Bytes} (hi : items[i]? = some (tag, val)) :
    ∃ before head after, Encodes (items.take i) before ∧ Header tag val.length head ∧
      content = before ++ (head ++ (val ++ after)) := by
  induction h generalizing i with
  | nil => simp at hi
  | @cons t v head rest items hhead hrest ih =>
      cases i with
      | zero =>
          simp only [List.getElem?_cons_zero, Option.some.injEq, Prod.mk.injEq] at hi
          obtain ⟨rfl, rfl⟩ := hi
          exact ⟨[], head, rest, .nil, hhead, rfl⟩
      | succ i =>
          obtain ⟨before, head', after, hbefore, hhead', rfl⟩ := ih hi
          refine ⟨head ++ (v ++ before), head', after, .cons hhead hbefore, hhead', ?_⟩
          simp only [List.append_assoc]

theorem Encodes.append {xs ys : List (UInt8 × Bytes)} {a b : Bytes} (ha : Encodes xs a)
    (hb : Encodes ys b) : Encodes (xs ++ ys) (a ++ b) := by
  induction ha with
  | nil => exact hb
  | cons hhead hrest ih =>
      simp only [List.append_assoc]
      exact .cons hhead ih

/-- Decoding at `offset`, then at the next offset and so on, reads `items` and
ends at `next`. -/
inductive Walks (buf : Bytes) : (offset : Nat) → List (UInt8 × Bytes) → (next : Nat) → Prop
  | nil {offset : Nat} : Walks buf offset [] offset
  | cons {offset middle next : Nat} {tag : UInt8} {val : Bytes} {items : List (UInt8 × Bytes)} :
      decode buf offset = .ok (tag, val, middle) → Walks buf middle items next →
        Walks buf offset ((tag, val) :: items) next

/-- A run is walked from its first octet to its last, wherever it stands. -/
theorem Encodes.walks {items : List (UInt8 × Bytes)} {run : Bytes} (h : Encodes items run)
    (before after : Bytes) :
    Walks (before ++ (run ++ after)) before.length items (before.length + run.length) := by
  induction h generalizing before with
  | nil => exact .nil
  | @cons tag val head rest items hhead hrest ih =>
      have hnext := ih (before ++ (head ++ val))
      simp only [List.append_assoc, List.length_append] at hnext ⊢
      have hstart : before.length + (head.length + (val.length + rest.length)) =
          before.length + head.length + val.length + rest.length := by omega
      rw [hstart]
      refine .cons (decode_at hhead before (rest ++ after)) ?_
      rwa [← Nat.add_assoc] at hnext

end NetForge.Ingest.Asn1
