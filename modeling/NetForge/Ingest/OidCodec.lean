import NetForge.Ingest.Readable
import Mathlib.Data.Nat.Digits.Lemmas

/-! # The identifier codec

Contents and dotted texts of identifiers stand for each other, one to one, up to the
interpreter's limit on decimal texts. The encoder also takes arcs that no identifier has: a
negative sub-identifier keeps its loop running for ever.
-/

namespace NetForge.Ingest.Asn1

open Python Snmp Calculus

/-! ## Contents and sub-identifiers -/

/-- A content is made of whole sub-identifiers, none of which starts with a zero group. -/
structure Canonical (content : Bytes) : Prop where
  ne_nil : content ≠ []
  ends : ∀ b ∈ content.getLast?, b.toNat < 0x80
  starts : ∀ before after, content = before ++ 0x80 :: after →
    ∃ b ∈ before.getLast?, 0x80 ≤ b.toNat

/-- The first sub-identifier's octets: all but the last have the top bit set. -/
theorem exists_split {content : Bytes} (hne : content ≠ [])
    (hends : ∀ b ∈ content.getLast?, b.toNat < 0x80) :
    ∃ high last rest, content = high ++ last :: rest ∧ (∀ b ∈ high, 0x80 ≤ b.toNat) ∧
      last.toNat < 0x80 := by
  induction content with
  | nil => exact absurd rfl hne
  | cons b bs ih =>
      by_cases hb : b.toNat < 0x80
      · exact ⟨[], b, bs, rfl, by simp, hb⟩
      · have hbs : bs ≠ [] := by
          intro hnil
          rw [hnil] at hends
          exact hb (hends b (by simp))
        have hlast : (b :: bs).getLast? = bs.getLast? := by
          obtain ⟨c, cs, rfl⟩ := List.exists_cons_of_ne_nil hbs
          exact List.getLast?_cons_cons
        rw [hlast] at hends
        obtain ⟨high, last, rest, rfl, hhigh, hlow⟩ := ih hbs hends
        refine ⟨b :: high, last, rest, rfl, ?_, hlow⟩
        exact List.forall_mem_cons.mpr ⟨Nat.le_of_not_lt hb, hhigh⟩

def groupsOf (high : Bytes) (last : UInt8) : List Nat :=
  high.map (fun b => b.toNat % 128) ++ [last.toNat]

theorem continued_groupsOf {high : Bytes} {last : UInt8} (hhigh : ∀ b ∈ high, 0x80 ≤ b.toNat) :
    continued (groupsOf high last) = high ++ [last] := by
  induction high with
  | nil => simp [groupsOf, continued]
  | cons b high ih =>
      have hb := hhigh b List.mem_cons_self
      have hlt := UInt8.toNat_lt b
      have hrest := ih fun c hc => hhigh c (List.mem_cons_of_mem _ hc)
      have hor : b.toNat % 128 ||| 0x80 = b.toNat := by
        have hmod : b.toNat % 128 < 2 ^ 7 := Nat.mod_lt _ (by decide)
        have hdisjoint : 128 + b.toNat % 128 = 128 ||| b.toNat % 128 :=
          Nat.two_pow_add_eq_or_of_lt hmod 1
        rw [Nat.or_comm, ← hdisjoint]
        omega
      have hbyte : UInt8.ofNat (b.toNat % 128 ||| 0x80) = b := by
        rw [hor, UInt8.ofNat_toNat]
      have hcons : groupsOf (b :: high) last = b.toNat % 128 :: groupsOf high last := rfl
      obtain ⟨g, gs, hgroups⟩ : ∃ g gs, groupsOf high last = g :: gs :=
        List.exists_cons_of_ne_nil (by simp [groupsOf])
      rw [hcons, hgroups, continued, ← hgroups, hbyte, hrest, List.cons_append]
      intro hnil
      cases hnil

/-- Groups without a leading zero are those of the number they denote. -/
theorem base128Groups_foldl {groups : List Nat} (hne : groups ≠ [])
    (hlt : ∀ g ∈ groups, g < 128) (hhead : groups.head? = some 0 → groups = [0]) :
    base128Groups (groups.foldl (fun acc g => acc * 128 + g) 0) = groups := by
  by_cases hzero : groups = [0]
  · rw [hzero]
    rfl
  · have hlast : ∀ h : groups.reverse ≠ [], groups.reverse.getLast h ≠ 0 := by
      intro h hz
      rw [List.getLast_reverse] at hz
      apply hzero
      apply hhead
      rw [List.head?_eq_some_head hne, hz]
    have hdigits := Nat.digits_ofDigits 128 (by decide) groups.reverse
      (fun g hg => hlt g (List.mem_reverse.mp hg)) hlast
    have hvalue : groups.foldl (fun acc g => acc * 128 + g) 0 =
        Nat.ofDigits 128 groups.reverse := by
      rw [Nat.ofDigits_eq_foldr, List.foldr_reverse]
      congr 1
      funext acc g
      simp only [Nat.cast_id]
      omega
    have hpos : Nat.ofDigits 128 groups.reverse ≠ 0 := by
      intro hz
      rw [hz, Nat.digits_zero] at hdigits
      exact hne (List.reverse_eq_nil_iff.mp hdigits.symm)
    rw [hvalue, base128Groups, if_neg hpos, hdigits, List.reverse_reverse]

theorem groupsOf_head {high rest : Bytes} {last : UInt8} (hhigh : ∀ b ∈ high, 0x80 ≤ b.toNat)
    (hstarts : ∀ after, high ++ last :: rest ≠ 0x80 :: after)
    (hzero : (groupsOf high last).head? = some 0) : groupsOf high last = [0] := by
  cases high with
  | nil =>
      have hlast : last.toNat = 0 := by simpa [groupsOf] using hzero
      simp [groupsOf, hlast]
  | cons b high =>
      have hmod : b.toNat % 128 = 0 := by simpa [groupsOf] using hzero
      have hb := hhigh b List.mem_cons_self
      have hlt := UInt8.toNat_lt b
      have hbyte : b = 0x80 := by
        apply UInt8.toNat_inj.mp
        show b.toNat = 0x80
        omega
      exact absurd (by rw [hbyte, List.cons_append]) (hstarts (high ++ last :: rest))

theorem ends_behind {high rest : Bytes} {last : UInt8}
    (hends : ∀ b ∈ (high ++ last :: rest).getLast?, b.toNat < 0x80) :
    ∀ b ∈ rest.getLast?, b.toNat < 0x80 := by
  intro b hb
  cases rest with
  | nil => simp at hb
  | cons c rest =>
      apply hends
      rw [List.getLast?_append, List.getLast?_cons_cons, hb]
      rfl

/-- Behind a sub-identifier, a zero group that begins another one would do so in the whole. -/
theorem starts_behind {high rest : Bytes} {last : UInt8} (hlast : last.toNat < 0x80)
    (hstarts : ∀ before after, high ++ last :: rest = before ++ 0x80 :: after →
      ∃ b ∈ before.getLast?, 0x80 ≤ b.toNat) :
    ∀ before after, rest = before ++ 0x80 :: after → ∃ b ∈ before.getLast?, 0x80 ≤ b.toNat := by
  intro before after hsplit
  have hwhole : high ++ last :: rest = (high ++ last :: before) ++ 0x80 :: after := by
    rw [hsplit, List.append_assoc, List.cons_append]
  obtain ⟨b, hb, hlarge⟩ := hstarts _ _ hwhole
  cases before with
  | nil =>
      have hb' : last = b := by simpa using hb
      rw [hb'] at hlast
      omega
  | cons c before =>
      refine ⟨b, ?_, hlarge⟩
      rw [List.getLast?_append, List.getLast?_cons_cons] at hb
      cases htail : (c :: before).getLast? with
      | none => simp at htail
      | some d =>
          rw [htail] at hb
          exact hb

theorem groupsOf_lt {high : Bytes} {last : UInt8} (hlast : last.toNat < 0x80) :
    ∀ g ∈ groupsOf high last, g < 128 := by
  intro g hg
  rcases List.mem_append.mp hg with hg | hg
  · obtain ⟨b, -, rfl⟩ := List.mem_map.mp hg
    exact Nat.mod_lt _ (by decide)
  · rw [List.mem_singleton.mp hg]
    exact hlast

theorem flatMap_subIdentifiers (size : Nat) (content : Bytes) (hsize : content.length ≤ size)
    (hends : ∀ b ∈ content.getLast?, b.toNat < 0x80)
    (hstarts : ∀ before after, content = before ++ 0x80 :: after →
      ∃ b ∈ before.getLast?, 0x80 ≤ b.toNat) :
    (subIdentifiers 0 content).flatMap (fun n => continued (base128Groups n)) = content := by
  induction size generalizing content with
  | zero =>
      rw [List.length_eq_zero_iff.mp (Nat.le_zero.mp hsize)]
      rfl
  | succ size ih =>
      by_cases hne : content = []
      · rw [hne]
        rfl
      · obtain ⟨high, last, rest, rfl, hhigh, hlast⟩ := exists_split hne hends
        have hclean : ∀ after, high ++ last :: rest ≠ 0x80 :: after := by
          intro after heq
          obtain ⟨b, hb, -⟩ := hstarts [] after heq
          simp at hb
        have hlt := @groupsOf_lt high last hlast
        have hgroups : groupsOf high last ≠ [] := by simp [groupsOf]
        have hread := subIdentifiers_continued hgroups hlt 0 rest
        rw [continued_groupsOf hhigh, List.append_assoc, List.singleton_append] at hread
        have hrest : (subIdentifiers 0 rest).flatMap (fun n => continued (base128Groups n)) =
            rest := by
          apply ih rest
          · simp only [List.length_append, List.length_cons] at hsize
            omega
          · exact ends_behind hends
          · exact starts_behind hlast hstarts
        rw [hread, List.flatMap_cons, hrest,
          base128Groups_foldl hgroups hlt (groupsOf_head hhigh hclean), continued_groupsOf hhigh,
          List.append_assoc, List.singleton_append]

namespace Canonical

variable {content : Bytes} (h : Canonical content)

include h

theorem flatMap_eq :
    (subIdentifiers 0 content).flatMap (fun n => continued (base128Groups n)) = content :=
  flatMap_subIdentifiers _ content le_rfl h.ends h.starts

theorem subIdentifiers_ne_nil : subIdentifiers 0 content ≠ [] := by
  intro hnil
  have heq := h.flatMap_eq
  rw [hnil] at heq
  exact h.ne_nil heq.symm

/-- What is read from a content is encoded as that content, as far as it can be printed. -/
theorem encOid_parseOid_iff :
    (∃ text, parseOid content = .ok text ∧ encOid text = tlv OBJECT_IDENTIFIER content) ↔
      Printable content := by
  constructor
  · rintro ⟨text, htext, -⟩
    exact parseOid_isOk_iff.mp ⟨text, htext⟩
  · intro hprints
    obtain ⟨first, rest, hsub⟩ := List.exists_cons_of_ne_nil h.subIdentifiers_ne_nil
    obtain ⟨o, hids, htext⟩ := exists_oid_of_printable hsub hprints
    have hcontent : o.content = content := by
      rw [Oid.content, hids, ← hsub]
      exact h.flatMap_eq
    refine ⟨o.text, htext, ?_⟩
    rw [o.encOid_text, hcontent]

end Canonical

/-! ## Arcs -/

/-- The arcs of an identifier: the encoding merges the first two. -/
def Mergeable : List Nat → Prop
  | first :: second :: _ => (first < 2 ∧ second < 40) ∨ first = 2
  | _ => False

theorem Mergeable.ne_nil {arcs : List Nat} (h : Mergeable arcs) : arcs ≠ [] := by
  rintro rfl
  exact h

theorem dottedText_ne_empty {arcs : List Nat} (hne : arcs ≠ []) : dottedText arcs ≠ "" := by
  intro hempty
  have hread := arcs_dottedText hne
  have hnone : Asn1.arcs "" = .ok [] := by decide +kernel
  rw [hempty, hnone] at hread
  have hlength := length_of_mapM_ok hread.symm
  exact hne (List.length_eq_zero_iff.mp hlength.symm)

/-- What the encoder writes for an identifier is read as the identifier, as far as it can be
printed. -/
theorem Mergeable.parseOid_encOid_iff {arcs : List Nat} (h : Mergeable arcs) :
    (∃ content, encOid (dottedText arcs) = tlv OBJECT_IDENTIFIER content ∧
        parseOid content = .ok (dottedText arcs)) ↔
      ∀ a ∈ arcs, a < 10 ^ maxStrDigits := by
  constructor
  · rintro ⟨content, -, htext⟩ a ha
    obtain ⟨o, ho⟩ := exists_oid_of_parseOid htext (dottedText_ne_empty h.ne_nil)
    have hread := arcs_dottedText h.ne_nil
    rw [ho, o.arcs_text] at hread
    obtain ⟨v, hv⟩ := mapM_isOk_iff.mp ⟨_, hread.symm⟩ a ha
    by_contra hlarge
    rw [int_repr_eq, if_neg hlarge] at hv
    cases hv
  · intro hsmall
    match arcs, h with
    | first :: second :: rest, h =>
        let o : Oid := {
          first := first
          second := second
          rest := rest
          first_le := by
            rcases h with h | h <;> omega
          second_lt := by
            intro hlt
            rcases h with h | h <;> omega
          arcs_lt := hsmall }
        exact ⟨o.content, o.encOid_text, o.parseOid_content⟩

/-- The two directions of the codec undo each other, on the identifiers whose arcs the
interpreter converts to text and back. -/
theorem oid_codec_bijective :
    (∀ arcs, Mergeable arcs →
        ((∃ content, encOid (dottedText arcs) = tlv OBJECT_IDENTIFIER content ∧
            parseOid content = .ok (dottedText arcs)) ↔
          ∀ a ∈ arcs, a < 10 ^ maxStrDigits)) ∧
      ∀ content, Canonical content →
        ((∃ text, parseOid content = .ok text ∧ encOid text = tlv OBJECT_IDENTIFIER content) ↔
          Printable content) :=
  ⟨fun _ h => h.parseOid_encOid_iff, fun _ h => h.encOid_parseOid_iff⟩

/-- A first arc of 2 takes any second arc. -/
theorem oid_codec_bijective_joint :
    (∃ content, encOid (dottedText [2, 999, 3]) = tlv OBJECT_IDENTIFIER content ∧
        parseOid content = .ok (dottedText [2, 999, 3])) ∧
      ∃ text, parseOid [0x88, 0x37, 0x03] = .ok text ∧
        encOid text = tlv OBJECT_IDENTIFIER [0x88, 0x37, 0x03] := by
  have hten : 10 ^ 3 ≤ 10 ^ maxStrDigits := Nat.pow_le_pow_right (by decide) (by decide)
  have hcanonical : Canonical [0x88, 0x37, 0x03] := by
    have hends : ∀ b ∈ ([0x88, 0x37, 0x03] : Bytes).getLast?, b.toNat < 0x80 := by
      intro b hb
      obtain rfl : 0x03 = b := Option.some.inj hb
      decide
    refine ⟨List.cons_ne_nil _ _, hends, ?_⟩
    intro before after heq
    have hmem : (0x80 : UInt8) ∈ ([0x88, 0x37, 0x03] : Bytes) := by
      rw [heq]
      simp
    exact absurd hmem (by decide)
  obtain ⟨hforth, hback⟩ := oid_codec_bijective
  constructor
  · apply (hforth [2, 999, 3] (.inr rfl)).mpr
    intro a ha
    have hsmall : ∀ a ∈ [2, 999, 3], a < 10 ^ 3 := by decide
    exact Nat.lt_of_lt_of_le (hsmall a ha) hten
  · apply (hback [0x88, 0x37, 0x03] hcanonical).mpr
    have hids : subIdentifiers 0 [0x88, 0x37, 0x03] = [1079, 3] := by decide
    unfold Printable
    rw [hids]
    have hsmall : 1079 - 40 * min (1079 / 40) 2 < 10 ^ 3 ∧ ∀ n ∈ [3], n < 10 ^ 3 := by decide
    exact ⟨Nat.lt_of_lt_of_le hsmall.1 hten, fun n hn =>
      Nat.lt_of_lt_of_le (hsmall.2 n hn) hten⟩

/-- An arc with more digits than the interpreter converts is refused. -/
theorem not_every_identifier_encoded :
    ¬ ∀ arcs, Mergeable arcs →
      ∃ content, encOid (dottedText arcs) = tlv OBJECT_IDENTIFIER content ∧
        parseOid content = .ok (dottedText arcs) := by
  intro always
  have hmergeable : Mergeable [1, 3, 10 ^ maxStrDigits] := .inl ⟨by decide, by decide⟩
  have hsmall := hmergeable.parseOid_encOid_iff.mp (always _ hmergeable) (10 ^ maxStrDigits)
    (by simp)
  exact absurd hsmall (Nat.lt_irrefl _)

/-! ## Termination of the encoder -/

/-- The values that `_base128` is called on: the first two arcs are merged. -/
def merged : List Int → List Int
  | first :: second :: rest => (40 * first + second) :: rest
  | _ => []

theorem base128_of_neg {value : Int} (h : value < 0) : base128 value = .error .diverges :=
  (base128_eq_diverges_iff value).mpr fun fuel => base128Loop_of_neg fuel value [] h

theorem base128_of_nonneg {value : Int} (h : 0 ≤ value) : ∃ body, base128 value = .ok body := by
  have hcast : ((value.toNat : Nat) : Int) = value := Int.toNat_of_nonneg h
  rw [← hcast]
  exact ⟨_, base128_natCast value.toNat⟩

def IsValueError (e : PyError) : Prop := e.isValueError = true

theorem raises_base128_iff {value : Int} : Raises IsValueError (base128 value) ↔ 0 ≤ value := by
  constructor
  · intro h
    by_contra hneg
    have hvalue := h .diverges (base128_of_neg (Int.not_le.mp hneg))
    cases hvalue
  · intro h
    obtain ⟨body, hbody⟩ := base128_of_nonneg h
    rw [hbody]
    exact raises_ok body

/-- The first negative value of a traversal is the one that does not end. -/
theorem raises_mapM_base128_iff {values : List Int} :
    Raises IsValueError (values.mapM base128) ↔ ∀ value ∈ values, 0 ≤ value := by
  induction values with
  | nil => exact ⟨fun _ => by simp, fun _ => raises_ok []⟩
  | cons value values ih =>
      rw [List.mapM_cons, raises_bind, raises_base128_iff, List.forall_mem_cons]
      refine and_congr_right fun hvalue => ?_
      obtain ⟨body, hbody⟩ := base128_of_nonneg hvalue
      constructor
      · intro h
        exact ih.mp (raises_bind.mp (h body hbody)).1
      · intro h body' _
        exact raises_bind.mpr ⟨ih.mpr h, fun bodies _ => raises_pure _⟩

theorem raises_encOidBody_iff {parts : List Int} {oid : String} :
    Raises IsValueError (encOidBody parts oid) ↔ ∀ value ∈ merged parts, 0 ≤ value := by
  match parts with
  | [] => exact ⟨fun _ => by simp [merged], fun _ => (raises_error _).mpr rfl⟩
  | [_] => exact ⟨fun _ => by simp [merged], fun _ => (raises_error _).mpr rfl⟩
  | first :: second :: rest =>
      unfold encOidBody merged
      rw [raises_bind, raises_base128_iff, List.forall_mem_cons]
      refine and_congr_right fun hvalue => ?_
      obtain ⟨head, hhead⟩ := base128_of_nonneg hvalue
      constructor
      · intro h
        exact raises_mapM_base128_iff.mp (raises_bind.mp (h head hhead)).1
      · intro h head' _
        exact raises_bind.mpr ⟨raises_mapM_base128_iff.mpr h, fun tail _ => raises_pure _⟩

theorem raises_int (s : String) : Raises IsValueError (int s) := by
  unfold int
  simp only
  cases signedLiteral _ with
  | none => exact (raises_error _).mpr rfl
  | some literal =>
      obtain ⟨negative, ds⟩ := literal
      simp only
      by_cases h : maxStrDigits < ds.length
      · rw [if_pos h]
        exact (raises_error _).mpr rfl
      · rw [if_neg h]
        exact raises_ok _

theorem raises_tlv (tag : UInt8) (body : Bytes) : Raises IsValueError (tlv tag body) := by
  have hbyte : ∀ v, Raises IsValueError (oneByte v) := by
    intro v
    unfold oneByte
    by_cases h : v < 256
    · rw [if_pos h]
      exact raises_ok _
    · rw [if_neg h]
      exact (raises_error _).mpr rfl
  have hlength : Raises IsValueError (encodeLength body.length) := by
    unfold encodeLength
    by_cases h : body.length < 0x80
    · rw [if_pos h]
      exact raises_ok _
    · rw [if_neg h]
      exact raises_bind.mpr ⟨hbyte _, fun first _ => raises_pure _⟩
  exact raises_bind.mpr ⟨hlength, fun length _ => raises_pure _⟩

theorem raises_encOid_iff {oid : String} :
    Raises IsValueError (encOid oid) ↔
      ∀ parts, arcs oid = .ok parts → ∀ value ∈ merged parts, 0 ≤ value := by
  have hparts : Raises IsValueError (arcs oid) := raises_mapM fun s _ => raises_int s
  unfold encOid
  rw [raises_bind, and_iff_right hparts]
  refine forall_congr' fun parts => imp_congr_right fun _ => ?_
  rw [raises_bind, raises_encOidBody_iff]
  exact and_iff_left fun body _ => raises_tlv _ body

/-- `enc_oid` comes to an end, with an encoding or a `ValueError`, exactly on the texts whose
merged arcs are all non-negative; on any other one, a loop of `_base128` runs for ever. -/
theorem encOid_ends_iff (oid : String) :
    ((∃ tlv, encOid oid = .ok tlv) ∨ ∃ e, encOid oid = .error e ∧ e.isValueError = true) ↔
      ∀ parts, arcs oid = .ok parts → ∀ value ∈ merged parts, 0 ≤ value := by
  rw [← raises_encOid_iff]
  constructor
  · rintro (⟨tlv, hok⟩ | ⟨e, herror, hvalue⟩)
    · rw [hok]
      exact raises_ok tlv
    · rw [herror]
      exact (raises_error e).mpr hvalue
  · intro h
    cases hrun : encOid oid with
    | ok tlv => exact .inl ⟨tlv, rfl⟩
    | error e => exact .inr ⟨e, rfl, h e hrun⟩

/-- The loop on the last arc of `1.3.-1` is stuck at -1. -/
theorem encOid_minus_one :
    encOid "1.3.-1" = .error .diverges ∧ (∀ fuel out, base128Loop fuel (-1) out = none) ∧
      ¬ ∀ oid, (∃ tlv, encOid oid = .ok tlv) ∨
        ∃ e, encOid oid = .error e ∧ e.isValueError = true := by
  have hrun : encOid "1.3.-1" = .error .diverges := by decide +kernel
  refine ⟨hrun, fun fuel out => base128Loop_of_neg fuel (-1) out (by decide), ?_⟩
  intro always
  rcases always "1.3.-1" with ⟨tlv, hok⟩ | ⟨e, herror, hvalue⟩
  · rw [hrun] at hok
    cases hok
  · rw [hrun] at herror
    cases herror
    cases hvalue

end NetForge.Ingest.Asn1
