import NetForge.Python.Decimal
import Mathlib.Tactic.Ring

/-! # Texts of digits

What `int` makes of a text of digits behind some minus signs, the texts that a test with
`lstrip` and `isdigit` lets through: not every digit is a decimal one, and only one sign is
part of a number.
-/

namespace NetForge.Python

/-! ## Values of digits -/

theorem decimalValue_lt {c : Char} {d : Nat} (h : decimalValue c = some d) : d < 10 := by
  obtain ⟨z, hz, rfl⟩ := Option.map_eq_some_iff.mp h
  have hrange := List.find?_some hz
  rw [decide_eq_true_iff] at hrange
  omega

theorem digitsOf_lt {cs : List Char} {ds : List Nat} (h : digitsOf cs = some ds) :
    ∀ d ∈ ds, d < 10 := by
  induction cs using digitsOf.induct generalizing ds with
  | case1 =>
      cases h
      simp
  | case2 c cs ih =>
      rw [digitsOf] at h
      obtain ⟨d, hd, h⟩ := Option.bind_eq_some_iff.mp h
      obtain ⟨rest, hrest, h⟩ := Option.bind_eq_some_iff.mp h
      cases h
      exact List.forall_mem_cons.mpr ⟨decimalValue_lt hd, ih hrest⟩
  | case3 c cs hcs ih =>
      rw [digitsOf] at h
      · obtain ⟨d, hd, h⟩ := Option.bind_eq_some_iff.mp h
        obtain ⟨rest, hrest, h⟩ := Option.bind_eq_some_iff.mp h
        cases h
        exact List.forall_mem_cons.mpr ⟨decimalValue_lt hd, ih hrest⟩
      · exact hcs

/-- The value of `n` digits is less than `10 ^ n`. -/
theorem ofDigits_lt {ds : List Nat} (h : ∀ d ∈ ds, d < 10) : ofDigits ds < 10 ^ ds.length := by
  have hfold : ∀ (ds : List Nat) (start : Nat), (∀ d ∈ ds, d < 10) →
      ds.foldl (fun n d => n * 10 + d) start < (start + 1) * 10 ^ ds.length := by
    intro ds
    induction ds with
    | nil =>
        intro start _
        simp
    | cons d ds ih =>
        intro start hds
        have hd : d < 10 := hds d List.mem_cons_self
        have hrest := ih (start * 10 + d) fun e he => hds e (List.mem_cons_of_mem _ he)
        calc (d :: ds).foldl (fun n d => n * 10 + d) start
            < (start * 10 + d + 1) * 10 ^ ds.length := hrest
          _ ≤ ((start + 1) * 10) * 10 ^ ds.length := by
              apply Nat.mul_le_mul_right
              omega
          _ = (start + 1) * 10 ^ (d :: ds).length := by
              rw [List.length_cons, Nat.pow_succ']
              ring
  have hbound := hfold ds 0 h
  simpa [ofDigits] using hbound

theorem signedLiteral_lt {cs : List Char} {negative : Bool} {ds : List Nat}
    (h : signedLiteral cs = some (negative, ds)) : ∀ d ∈ ds, d < 10 := by
  have hunsigned : ∀ {cs : List Char} {ds : List Nat}, unsignedLiteral cs = some ds →
      ∀ d ∈ ds, d < 10 := by
    intro cs ds h
    unfold unsignedLiteral at h
    split at h
    · cases h
    · cases h
    · exact digitsOf_lt h
  unfold signedLiteral at h
  split at h <;>
  · obtain ⟨digits, hdigits, heq⟩ := Option.map_eq_some_iff.mp h
    cases heq
    exact hunsigned hdigits

/-- An integer that was read from a text can be written as one. -/
theorem str_of_int {s : String} {v : Int} (h : Python.int s = .ok v) :
    Python.str v = .ok (toString v) := by
  unfold Python.int at h
  simp only at h
  split at h
  · cases h
  · rename_i negative ds hliteral
    split at h
    · cases h
    · rename_i hshort
      have hlt := ofDigits_lt (signedLiteral_lt hliteral)
      have hpow : 10 ^ ds.length ≤ 10 ^ maxStrDigits :=
        Nat.pow_le_pow_right (by omega) (by omega)
      have hv : v.natAbs = ofDigits ds := by
        cases h
        cases negative <;> simp
      unfold Python.str
      rw [if_neg]
      omega

/-! ## Characters -/

/-- `c.isdigit()`. -/
def isDigitChar (c : Char) : Bool :=
  (decimalValue c).isSome || digitRanges.any fun r => r.1 ≤ c.toNat && c.toNat ≤ r.2

theorem isDigitText_eq (s : String) :
    isDigitText s = (s ≠ "" && s.toList.all isDigitChar) := rfl

/-- The code points of what is no digit but may stand around or within a literal. -/
def literalMarks : List Nat :=
  [9, 10, 11, 12, 13, 0x20, 0x2b, 0x2d, 0x5f, 0x85, 0xa0, 0x1680, 0x2000, 0x2001, 0x2002, 0x2003,
    0x2004, 0x2005, 0x2006, 0x2007, 0x2008, 0x2009, 0x200a, 0x2028, 0x2029, 0x202f, 0x205f, 0x3000]

theorem not_digit_of_mark {c : Char} (h : c.toNat ∈ literalMarks) : isDigitChar c = false := by
  have codes : literalMarks.all (fun n =>
      !((decimalZeros.any fun z => z ≤ n && n < z + 10) ||
        digitRanges.any fun r => r.1 ≤ n && n ≤ r.2)) = true := by decide +kernel
  have hcode := List.all_eq_true.mp codes c.toNat h
  simp only [Bool.not_eq_true', Bool.or_eq_false_iff] at hcode
  have hvalue : decimalValue c = none := by
    unfold decimalValue
    rw [Option.map_eq_none_iff, List.find?_eq_none]
    intro z hz
    have hzero := List.any_eq_false.mp hcode.1 z hz
    simpa using hzero
  unfold isDigitChar
  rw [hvalue, hcode.2]
  rfl

theorem isIntSpace_mark {c : Char} (h : isIntSpace c = true) : c.toNat ∈ literalMarks := by
  simp only [isIntSpace, Bool.or_eq_true, Bool.and_eq_true, decide_eq_true_iff, beq_iff_eq] at h
  simp only [literalMarks, List.mem_cons, List.not_mem_nil, or_false]
  omega

theorem isIntSpace_of_digit {c : Char} (h : isDigitChar c = true) : isIntSpace c = false := by
  by_contra hspace
  have hmark := isIntSpace_mark (Bool.eq_true_of_not_eq_false hspace)
  rw [not_digit_of_mark hmark] at h
  cases h

theorem ne_of_digit {c d : Char} (h : isDigitChar c = true) (hd : d.toNat ∈ literalMarks) :
    c ≠ d := by
  rintro rfl
  rw [not_digit_of_mark hd] at h
  cases h

/-! ## Decimal texts -/

def decimal? (cs : List Char) : Option Nat :=
  if cs = [] then none else (cs.mapM decimalValue).map ofDigits

/-- The integer that a text of decimal digits denotes, with a minus or without. -/
def signedDecimal? : List Char → Option Int
  | '-' :: cs => (decimal? cs).map fun n : Nat => -(n : Int)
  | cs => (decimal? cs).map fun n : Nat => (n : Int)

theorem digitsOf_eq_mapM {cs : List Char} (h : '_' ∉ cs) : digitsOf cs = cs.mapM decimalValue := by
  induction cs with
  | nil => rfl
  | cons c cs ih =>
      obtain ⟨hc, hcs⟩ := not_or.mp (mt List.mem_cons.mpr h)
      rw [digitsOf, ih hcs, List.mapM_cons]
      intro _ _ hunderscore
      exact absurd hunderscore.symm hc

theorem isDigitChar_of_decimal {c : Char} {d : Nat} (h : decimalValue c = some d) :
    isDigitChar c = true := by
  unfold isDigitChar
  rw [h]
  rfl

theorem mapM_decimalValue {cs : List Char} {ds : List Nat} (h : cs.mapM decimalValue = some ds) :
    ds.length = cs.length ∧ ∀ c ∈ cs, isDigitChar c = true := by
  induction cs generalizing ds with
  | nil =>
      obtain rfl : [] = ds := Option.some.inj h
      exact ⟨rfl, by simp⟩
  | cons c cs ih =>
      rw [List.mapM_cons] at h
      obtain ⟨d, hd, h⟩ := Option.bind_eq_some_iff.mp h
      obtain ⟨rest, hrest, h⟩ := Option.bind_eq_some_iff.mp h
      obtain rfl : d :: rest = ds := Option.some.inj h
      obtain ⟨hlength, hdigits⟩ := ih hrest
      refine ⟨by rw [List.length_cons, List.length_cons, hlength], ?_⟩
      exact List.forall_mem_cons.mpr ⟨isDigitChar_of_decimal hd, hdigits⟩

theorem unsignedLiteral_eq {cs : List Char} (h : '_' ∉ cs) :
    unsignedLiteral cs = if cs = [] then none else cs.mapM decimalValue := by
  rw [← digitsOf_eq_mapM h]
  cases cs with
  | nil => rfl
  | cons c cs =>
      rw [if_neg (List.cons_ne_nil c cs)]
      unfold unsignedLiteral
      split
      · contradiction
      · rename_i heq
        rw [heq] at h
        exact absurd List.mem_cons_self h
      · rfl

def literalResult (count : Nat) : Option Int → Except PyError Int
  | none => .error (.valueError "invalid literal for int() with base 10")
  | some v =>
      if maxStrDigits < count then
        .error (.valueError "Exceeds the limit (4300 digits) for integer string conversion")
      else .ok v

/-- A text without blanks at its ends is read as it is. -/
theorem int_unstripped {s : String} (h : ∀ c ∈ s.toList, isIntSpace c = false) :
    int s = literalResult (((signedLiteral s.toList).map (·.2.length)).getD 0)
      ((signedLiteral s.toList).map fun l =>
        if l.1 then -(ofDigits l.2 : Int) else ofDigits l.2) := by
  have hbody : ((s.toList.dropWhile isIntSpace).reverse.dropWhile isIntSpace).reverse =
      s.toList := by
    rw [dropWhile_of_head h, dropWhile_of_head fun c hc => h c (List.mem_reverse.mp hc),
      List.reverse_reverse]
  unfold int
  simp only [hbody]
  cases signedLiteral s.toList with
  | none => rfl
  | some literal => rfl

theorem literal_of_digits {cs : List Char} (h : '_' ∉ cs) (negative : Bool) :
    literalResult (((unsignedLiteral cs).map (·.length)).getD 0)
        ((unsignedLiteral cs).map fun ds =>
          if negative then -(ofDigits ds : Int) else ofDigits ds) =
      literalResult cs.length
        ((decimal? cs).map fun n : Nat => if negative then -(n : Int) else (n : Int)) := by
  rw [unsignedLiteral_eq h]
  unfold decimal?
  by_cases hnil : cs = []
  · rw [if_pos hnil, if_pos hnil]
    rfl
  · rw [if_neg hnil, if_neg hnil]
    cases hds : cs.mapM decimalValue with
    | none => rfl
    | some ds =>
        have hlength := (mapM_decimalValue hds).1
        simp only [Option.map_some, Option.getD_some, hlength]

theorem int_of_signedDigits {s : String} (h : isDigitText (lstripChar '-' s) = true) :
    int s = literalResult (s.toList.dropWhile (· = '-')).length (signedDecimal? s.toList) := by
  rw [isDigitText_eq, Bool.and_eq_true, lstripChar, String.toList_ofList, List.all_eq_true] at h
  obtain ⟨hne, hdigits⟩ := h
  have hrest : s.toList.dropWhile (· = '-') ≠ [] := by
    intro hnil
    rw [hnil] at hne
    simp at hne
  have hchars : ∀ c ∈ s.toList, c = '-' ∨ isDigitChar c = true := by
    intro c hc
    rw [← List.takeWhile_append_dropWhile (p := (· = '-')) (l := s.toList)] at hc
    rcases List.mem_append.mp hc with hc | hc
    · exact .inl (by simpa using List.mem_takeWhile_imp hc)
    · exact .inr (hdigits c hc)
  have hspace : ∀ c ∈ s.toList, isIntSpace c = false := by
    intro c hc
    rcases hchars c hc with rfl | hdigit
    · rfl
    · exact isIntSpace_of_digit hdigit
  have hmark : ∀ c ∈ s.toList, c ≠ '_' ∧ c ≠ '+' := by
    intro c hc
    rcases hchars c hc with rfl | hdigit
    · exact ⟨by decide, by decide⟩
    · exact ⟨ne_of_digit hdigit (by decide), ne_of_digit hdigit (by decide)⟩
  rw [int_unstripped hspace]
  generalize s.toList = cs at hrest hdigits hchars hmark
  have hunderscore : '_' ∉ cs := fun hmem => (hmark '_' hmem).1 rfl
  cases cs with
  | nil => exact absurd rfl hrest
  | cons c cs =>
      by_cases hc : c = '-'
      · subst hc
        have hdrop : ('-' :: cs).dropWhile (· = '-') = cs.dropWhile (· = '-') :=
          List.dropWhile_cons_of_pos (by simp)
        rw [hdrop] at hrest hdigits ⊢
        have hliteral : signedLiteral ('-' :: cs) = (unsignedLiteral cs).map (true, ·) := rfl
        have hsigned : signedDecimal? ('-' :: cs) = (decimal? cs).map fun n : Nat => -(n : Int) :=
          rfl
        have literal := literal_of_digits (mt (List.mem_cons_of_mem _) hunderscore) true
        simp only [if_true] at literal
        simp only [hliteral, hsigned, Option.map_map, Function.comp_def, if_true]
        rw [literal]
        by_cases hhead : cs.head? = some '-'
        · -- A second minus is no digit, whatever the length.
          have hnone : decimal? cs = none := by
            obtain ⟨rest, rfl⟩ := List.head?_eq_some_iff.mp hhead
            rfl
          rw [hnone]
          rfl
        · rw [dropWhile_of_head? (p := (· = '-'))]
          intro c hc
          have hne : c ≠ '-' := fun heq => hhead (heq ▸ hc)
          simpa using hne
      · have hplus : c ≠ '+' := (hmark c List.mem_cons_self).2
        have hliteral : signedLiteral (c :: cs) = (unsignedLiteral (c :: cs)).map (false, ·) := by
          unfold signedLiteral
          split <;> simp_all
        have hsigned : signedDecimal? (c :: cs) =
            (decimal? (c :: cs)).map fun n : Nat => (n : Int) := by
          unfold signedDecimal?
          split <;> simp_all
        have literal := literal_of_digits hunderscore false
        simp only [Bool.false_eq_true, if_false] at literal
        simp only [hliteral, hsigned, Option.map_map, Function.comp_def, Bool.false_eq_true,
          if_false]
        rw [literal, List.dropWhile_cons_of_neg (by simpa using hc)]

theorem isDigitText_of_signedDecimal? {s : String} {v : Int}
    (h : signedDecimal? s.toList = some v) : isDigitText (lstripChar '-' s) = true := by
  have hdecimal : ∀ {cs : List Char} {n : Nat}, decimal? cs = some n →
      cs ≠ [] ∧ ∀ c ∈ cs, isDigitChar c = true := by
    intro cs n hn
    unfold decimal? at hn
    split at hn
    · cases hn
    · rename_i hne
      obtain ⟨ds, hds, -⟩ := Option.map_eq_some_iff.mp hn
      exact ⟨hne, (mapM_decimalValue hds).2⟩
  have hdrop : ∀ {cs : List Char}, (∀ c ∈ cs, isDigitChar c = true) →
      cs.dropWhile (· = '-') = cs := by
    intro cs hcs
    apply dropWhile_of_head
    intro c hc
    have hne : c ≠ '-' := ne_of_digit (hcs c hc) (by decide)
    simpa using hne
  have hrest : s.toList.dropWhile (· = '-') ≠ [] ∧
      ∀ c ∈ s.toList.dropWhile (· = '-'), isDigitChar c = true := by
    unfold signedDecimal? at h
    split at h
    · rename_i cs hcs
      obtain ⟨n, hn, -⟩ := Option.map_eq_some_iff.mp h
      obtain ⟨hne, hdigits⟩ := hdecimal hn
      rw [hcs, List.dropWhile_cons_of_pos (by simp), hdrop hdigits]
      exact ⟨hne, hdigits⟩
    · obtain ⟨n, hn, -⟩ := Option.map_eq_some_iff.mp h
      obtain ⟨hne, hdigits⟩ := hdecimal hn
      rw [hdrop hdigits]
      exact ⟨hne, hdigits⟩
  rw [isDigitText_eq, Bool.and_eq_true, lstripChar, String.toList_ofList, List.all_eq_true]
  refine ⟨?_, hrest.2⟩
  rw [decide_eq_true_iff]
  intro hempty
  exact hrest.1 (String.ofList_eq_empty_iff.mp hempty)

end NetForge.Python
