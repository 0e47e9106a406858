import NetForge.Ingest.Asn1
import NetForge.Python.Decimal
import Mathlib.Data.Nat.Digits.Defs

/-! # Object identifiers

An object identifier is a list of arcs. The program handles it as a dotted text
and as the content of a TLV; both are faithful: each can be read back.
-/

namespace NetForge.Ingest.Asn1

open Python

/-! ## Sub-identifiers -/

/-- The base-128 groups of `n`, most significant first. -/
def base128Groups (n : Nat) : List Nat := if n = 0 then [0] else (Nat.digits 128 n).reverse

theorem base128Groups_lt {n g : Nat} (h : g ∈ base128Groups n) : g < 128 := by
  unfold base128Groups at h
  by_cases hz : n = 0
  · rw [if_pos hz, List.mem_singleton] at h
    omega
  · rw [if_neg hz, List.mem_reverse] at h
    exact Nat.digits_lt_base (by decide) h

theorem base128Groups_ne_nil (n : Nat) : base128Groups n ≠ [] := by
  unfold base128Groups
  by_cases hz : n = 0
  · simp [hz]
  · have hdigits : Nat.digits 128 n ≠ [] := Nat.digits_ne_nil_iff_ne_zero.mpr hz
    rw [if_neg hz]
    simpa using hdigits

theorem foldl_base128Groups (n : Nat) :
    (base128Groups n).foldl (fun acc g => acc * 128 + g) 0 = n := by
  unfold base128Groups
  by_cases hz : n = 0
  · simp [hz]
  · rw [if_neg hz, List.foldl_reverse]
    have hdigits := Nat.ofDigits_digits 128 n
    rw [Nat.ofDigits_eq_foldr] at hdigits
    calc
      (Nat.digits 128 n).foldr (fun g acc => acc * 128 + g) 0
          = (Nat.digits 128 n).foldr (fun x y => ↑x + 128 * y) 0 := by
            congr 1
            funext g acc
            omega
      _ = n := hdigits

theorem base128Loop_natCast {n fuel : Nat} (h : n < fuel) (out : List Nat) :
    base128Loop fuel n out = some ((Nat.digits 128 n).reverse ++ out) := by
  induction fuel generalizing n out with
  | zero => omega
  | succ fuel ih =>
      by_cases hz : n = 0
      · simp [base128Loop, hz]
      · have hne : (n : Int) ≠ 0 := by omega
        have hquot : (n : Int) / 128 = ((n / 128 : Nat) : Int) := by omega
        have hrem : ((n : Int) % 128).toNat = n % 128 := by omega
        rw [base128Loop, if_neg hne, hquot, hrem, ih (by omega),
          Nat.digits_def' (by decide) (Nat.pos_of_ne_zero hz)]
        simp only [List.reverse_cons, List.append_assoc, List.singleton_append]

theorem base128_natCast (n : Nat) : base128 n = .ok (continued (base128Groups n)) := by
  unfold base128 base128Groups
  by_cases hz : n = 0
  · simp [hz, continued]
  · have hne : (n : Int) ≠ 0 := by omega
    rw [if_neg hne, if_neg hz, Int.natAbs_natCast, base128Loop_natCast (Nat.lt_succ_self n)]
    simp only [List.append_nil]

theorem subIdentifiers_continued {groups : List Nat} (hne : groups ≠ [])
    (hlt : ∀ g ∈ groups, g < 128) (acc : Nat) (rest : Bytes) :
    subIdentifiers acc (continued groups ++ rest) =
      groups.foldl (fun acc g => acc * 128 + g) acc :: subIdentifiers 0 rest := by
  induction groups generalizing acc with
  | nil => exact absurd rfl hne
  | cons g gs ih =>
      have hg := hlt g List.mem_cons_self
      cases gs with
      | nil =>
          have hbyte : (UInt8.ofNat g).toNat = g := by
            simp only [UInt8.toNat_ofNat']
            omega
          simp only [continued, List.singleton_append, subIdentifiers, hbyte,
            Nat.mod_eq_of_lt hg, List.foldl_cons, List.foldl_nil]
          rw [if_pos hg]
      | cons g' gs =>
          have hor : g ||| 0x80 = 128 + g := by
            have hdisjoint := Nat.two_pow_add_eq_or_of_lt (i := 7) (b := g) (by omega) 1
            rw [Nat.or_comm]
            simpa using hdisjoint.symm
          have hbyte : (UInt8.ofNat (g ||| 0x80)).toNat = 128 + g := by
            rw [hor]
            simp only [UInt8.toNat_ofNat']
            omega
          have hlarge : ¬ 128 + g < 0x80 := by omega
          have hmod : (128 + g) % 128 = g := by omega
          have hrest := ih (by simp) (fun x hx => hlt x (List.mem_cons_of_mem _ hx)) (acc * 128 + g)
          rw [continued, List.cons_append, subIdentifiers]
          · simp only [hbyte, hmod]
            rw [if_neg hlarge, hrest]
            rfl
          · intro heq
            cases heq

/-! ## Dotted texts -/

def dottedText (arcs : List Nat) : String := ".".intercalate (arcs.map Nat.repr)

theorem repr_isDigit {n : Nat} {c : Char} (h : c ∈ (Nat.repr n).toList) : c.isDigit = true := by
  rw [Nat.toList_repr] at h
  exact Nat.isDigit_of_mem_toDigits (by decide) (by decide) h

theorem dot_not_mem_repr (n : Nat) : '.' ∉ (Nat.repr n).toList := by
  intro h
  exact absurd (repr_isDigit h) (by decide)

theorem repr_toList_ne_nil (n : Nat) : (Nat.repr n).toList ≠ [] := by
  rw [Nat.toList_repr]
  exact Nat.toDigits_ne_nil

theorem repr_toList_injective : Function.Injective fun n : Nat => (Nat.repr n).toList := by
  intro a b h
  have ha := @Nat.ofDigitChars_ten_toDigits a
  have hb := @Nat.ofDigitChars_ten_toDigits b
  simp only [Nat.toList_repr] at h
  rw [← ha, h, hb]

theorem dottedText_toList (arcs : List Nat) : (dottedText arcs).toList =
    List.intercalate ['.'] ((arcs.map Nat.repr).map String.toList) := String.toList_intercalate

theorem dot_not_mem_pieces {arcs : List Nat} {p : List Char}
    (h : p ∈ (arcs.map Nat.repr).map String.toList) : p ≠ [] ∧ '.' ∉ p := by
  obtain ⟨s, hs, rfl⟩ := List.mem_map.mp h
  obtain ⟨n, -, rfl⟩ := List.mem_map.mp hs
  exact ⟨repr_toList_ne_nil n, dot_not_mem_repr n⟩

section

variable {arcs : List Nat} (hne : arcs ≠ [])

include hne

theorem splitChar_dottedText : splitChar '.' (dottedText arcs) = arcs.map Nat.repr := by
  unfold splitChar
  rw [dottedText_toList, splitList_intercalate (by simpa using hne) fun p hp =>
    (dot_not_mem_pieces hp).2, List.map_map]
  have hid : String.ofList ∘ String.toList = id := by
    funext s
    exact String.ofList_toList
  rw [hid, List.map_id]

theorem stripChar_dottedText : stripChar '.' (dottedText arcs) = dottedText arcs := by
  have hpieces : ∀ p ∈ (arcs.map Nat.repr).map String.toList, p ≠ [] ∧ '.' ∉ p := fun p hp =>
    dot_not_mem_pieces hp
  refine stripChar_eq_self ?_ ?_
  · obtain ⟨first, rest, rfl⟩ := List.exists_cons_of_ne_nil hne
    rw [dottedText_toList]
    simp only [List.map_cons]
    rw [head?_intercalate (repr_toList_ne_nil first)]
    intro hdot
    exact dot_not_mem_repr first (List.mem_of_head? hdot)
  · cases hlast : ((arcs.map Nat.repr).map String.toList).getLast? with
    | none => simp [hne] at hlast
    | some p =>
        rw [dottedText_toList, getLast?_intercalate (fun q hq => (hpieces q hq).1) hlast]
        intro hdot
        exact (hpieces p (List.mem_of_getLast? hlast)).2 (List.mem_of_getLast? hdot)

theorem arcs_dottedText : Asn1.arcs (dottedText arcs) = arcs.mapM fun n => int (Nat.repr n) := by
  have hkeep : (arcs.map Nat.repr).filter (· ≠ "") = arcs.map Nat.repr := by
    rw [List.filter_eq_self]
    intro s hs
    obtain ⟨n, -, rfl⟩ := List.mem_map.mp hs
    have hrepr : Nat.repr n ≠ "" := by
      intro hempty
      exact repr_toList_ne_nil n (by rw [hempty]; rfl)
    exact decide_eq_true hrepr
  unfold Asn1.arcs
  rw [stripChar_dottedText hne, splitChar_dottedText hne, hkeep, List.mapM_map]
  rfl

end

/-! ## Identifiers -/

/-- An object identifier with arcs that both its encoding and the interpreter's
decimal texts can hold. -/
structure Oid where
  first : Nat
  second : Nat
  rest : List Nat
  first_le : first ≤ 2
  second_lt : first < 2 → second < 40
  arcs_lt : ∀ a ∈ first :: second :: rest, a < 10 ^ maxStrDigits

namespace Oid

variable (o : Oid)

def arcs : List Nat := o.first :: o.second :: o.rest

variable {o} in
theorem ext_arcs {o' : Oid} (h : o.arcs = o'.arcs) : o = o' := by
  cases o
  cases o'
  simp only [arcs, List.cons.injEq] at h
  obtain ⟨rfl, rfl, rfl⟩ := h
  rfl

def text : String := ".".intercalate (o.arcs.map Nat.repr)

def subIds : List Nat := (40 * o.first + o.second) :: o.rest

def content : Bytes := o.subIds.flatMap fun n => continued (base128Groups n)

theorem arc_lt {a : Nat} (h : a ∈ o.arcs) : a < 10 ^ maxStrDigits := o.arcs_lt a h

theorem subIdentifiers_flatMap (ns : List Nat) :
    subIdentifiers 0 (ns.flatMap fun n => continued (base128Groups n)) = ns := by
  induction ns with
  | nil => rfl
  | cons n ns ih =>
      rw [List.flatMap_cons,
        subIdentifiers_continued (base128Groups_ne_nil n) (fun g => base128Groups_lt), ih,
        foldl_base128Groups]

theorem dotted_arcs : dotted (o.arcs.map Int.ofNat) = .ok o.text := by
  unfold dotted
  have htexts : (o.arcs.map Int.ofNat).mapM str = .ok (o.arcs.map Nat.repr) := by
    rw [List.mapM_map]
    refine mapM_ok fun a ha => ?_
    rw [Function.comp_apply, Int.ofNat_eq_natCast]
    exact str_natCast (o.arc_lt ha)
  rw [htexts]
  rfl

theorem parseOid_content : parseOid o.content = .ok o.text := by
  have hfirst := o.first_le
  have hsecond := o.second_lt
  have hhead : min ((40 * o.first + o.second) / 40) 2 = o.first := by
    by_cases h : o.first < 2
    · have hlt := hsecond h
      omega
    · omega
  unfold parseOid content
  rw [subIdentifiers_flatMap]
  simp only [subIds, hhead, Nat.add_sub_cancel_left]
  exact o.dotted_arcs

theorem encOidBody_arcs (oid : String) : encOidBody (o.arcs.map Int.ofNat) oid = .ok o.content := by
  have hhead : (40 * Int.ofNat o.first + Int.ofNat o.second) =
      ((40 * o.first + o.second : Nat) : Int) := by
    simp only [Int.ofNat_eq_natCast]
    omega
  have hrest : (o.rest.map Int.ofNat).mapM base128 =
      .ok (o.rest.map fun n => continued (base128Groups n)) := by
    rw [List.mapM_map]
    exact mapM_ok fun n _ => base128_natCast n
  simp only [arcs, List.map_cons, encOidBody, hhead, base128_natCast, hrest, ok_bind]
  rw [content, subIds, List.flatMap_cons, List.flatMap_def]
  rfl

/-! ### The dotted text -/

theorem text_toList : o.text.toList =
    List.intercalate ['.'] ((o.arcs.map Nat.repr).map String.toList) := dottedText_toList o.arcs

theorem arcs_ne_nil : o.arcs ≠ [] := List.cons_ne_nil _ _

theorem arcs_text : Asn1.arcs o.text = .ok (o.arcs.map Int.ofNat) :=
  (arcs_dottedText o.arcs_ne_nil).trans (mapM_ok fun _ ha => int_repr (o.arc_lt ha))

theorem encOid_text : encOid o.text = tlv OBJECT_IDENTIFIER o.content := by
  unfold encOid
  rw [arcs_text, ok_bind, encOidBody_arcs, ok_bind]

/-! ### Extensions -/

variable {o} in
theorem ext_text {o' : Oid} (h : o.text = o'.text) : o = o' := by
  have harcs := o.arcs_text
  rw [h, o'.arcs_text] at harcs
  exact ext_arcs ((List.map_inj_right fun _ _ => Int.ofNat.inj).mp (Except.ok.inj harcs).symm)

theorem text_of_arcs_append {base : Oid} {rest : List Nat} (harcs : o.arcs = base.arcs ++ rest)
    (hne : rest ≠ []) : o.text = base.text ++ "." ++ ".".intercalate (rest.map Nat.repr) := by
  unfold text
  rw [harcs, List.map_append]
  exact String.intercalate_append_of_ne_nil (by simp [arcs]) (by simpa using hne)

/-- The text of an identifier starts with the text of another one and a dot
exactly when its arcs go on where the other's end. -/
theorem text_dot_prefix_iff (base : Oid) :
    (base.text ++ ".").toList <+: o.text.toList ↔ base.arcs <+: o.arcs ∧ o.arcs ≠ base.arcs := by
  have hdot : ".".toList = ['.'] := rfl
  rw [String.toList_append, hdot]
  constructor
  · rintro ⟨t, ht⟩
    have hpieces : (o.arcs.map Nat.repr).map String.toList =
        (base.arcs.map Nat.repr).map String.toList ++ splitList '.' t := by
      have hfree : ∀ b : Oid, ∀ p ∈ (b.arcs.map Nat.repr).map String.toList, '.' ∉ p := by
        intro b p hp
        exact (dot_not_mem_pieces hp).2
      rw [text_toList, text_toList, List.append_assoc, List.singleton_append] at ht
      have hsplit := congrArg (splitList '.') ht
      rw [splitList_intercalate_append (by simp [arcs]) (hfree base),
        splitList_intercalate (by simp [arcs]) (hfree o)] at hsplit
      exact hsplit.symm
    have hlength := congrArg List.length hpieces
    have hrest : 0 < (splitList '.' t).length := List.length_pos_iff.mpr (splitList_ne_nil '.' t)
    have hextends : base.arcs <+: o.arcs := by
      have hlist : base.arcs.map (fun n => (Nat.repr n).toList) <+:
          o.arcs.map fun n => (Nat.repr n).toList := by
        rw [List.map_map, List.map_map] at hpieces
        exact ⟨_, hpieces.symm⟩
      exact List.prefix_map_iff_of_injective repr_toList_injective |>.mp hlist
    refine ⟨hextends, fun heq => ?_⟩
    rw [heq] at hlength
    simp only [List.length_append, List.length_map] at hlength
    omega
  · rintro ⟨⟨rest, hrest⟩, hne⟩
    have hnil : rest ≠ [] := by
      rintro rfl
      exact hne (by rw [← hrest, List.append_nil])
    rw [o.text_of_arcs_append hrest.symm hnil, String.toList_append, String.toList_append, hdot]
    exact List.prefix_append _ _

end Oid

end NetForge.Ingest.Asn1
