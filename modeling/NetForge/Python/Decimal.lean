import NetForge.Python.Text
import Mathlib.Data.List.TakeWhile

/-! # Decimal text and back

Canonical decimal texts, and texts that join them with a separator: reading one
gives back what was written.
-/

namespace NetForge.Python

/-! ## One integer -/

theorem decimalValue_digit {c : Char} (h : c.isDigit = true) :
    decimalValue c = some (c.toNat - '0'.toNat) := by
  have hrange := Char.isDigit_iff_toNat.mp h
  have hlow : (0x30 : Nat) ≤ c.toNat ∧ c.toNat < 0x30 + 10 := by
    have h0 : '0'.toNat = 0x30 := rfl
    have h9 : '9'.toNat = 0x39 := rfl
    omega
  unfold decimalValue decimalZeros
  rw [List.find?_cons_of_pos (by simpa using hlow)]
  rfl

theorem digitsOf_digits {cs : List Char} (h : ∀ c ∈ cs, c.isDigit = true) :
    digitsOf cs = some (cs.map fun c => c.toNat - '0'.toNat) := by
  induction cs with
  | nil => rfl
  | cons c cs ih =>
      have hc := h c List.mem_cons_self
      have hne : c ≠ '_' := by
        rintro rfl
        exact absurd hc (by decide)
      have hcs := ih fun d hd => h d (List.mem_cons_of_mem _ hd)
      unfold digitsOf
      split
      · contradiction
      · rename_i heq
        cases heq
        exact absurd rfl hne
      · rename_i heq
        cases heq
        rw [decimalValue_digit hc, hcs]
        rfl

theorem ofDigits_map (cs : List Char) :
    ofDigits (cs.map fun c => c.toNat - '0'.toNat) = Nat.ofDigitChars 10 cs 0 := by
  unfold ofDigits
  rw [List.foldl_map, Nat.ofDigitChars_eq_foldl]
  simp only [Nat.mul_comm]

theorem isIntSpace_digit {c : Char} (h : c.isDigit = true) : isIntSpace c = false := by
  have hrange := Char.isDigit_iff_toNat.mp h
  have h0 : '0'.toNat = 48 := rfl
  have h9 : '9'.toNat = 57 := rfl
  simp only [isIntSpace, Bool.or_eq_false_iff, Bool.and_eq_false_iff, beq_eq_false_iff_ne,
    decide_eq_false_iff_not]
  omega

theorem isSpace_digit {c : Char} (h : c.isDigit = true) : isSpace c = false := by
  have hspace := isIntSpace_digit h
  have hrange := Char.isDigit_iff_toNat.mp h
  have h0 : '0'.toNat = 48 := rfl
  have hcontrol : ¬ c.toNat ≤ 0x1f := by omega
  simp [isSpace, hspace, hcontrol]

theorem eq_false_of_any {p : Char → Bool} {cs : List Char} (h : cs.any p = false) {c : Char}
    (hc : c ∈ cs) : p c = false :=
  Bool.eq_false_of_not_eq_true (List.any_eq_false.mp h c hc)

theorem dropWhile_of_head? {p : Char → Bool} {cs : List Char}
    (h : ∀ c ∈ cs.head?, p c = false) : cs.dropWhile p = cs := by
  cases cs with
  | nil => rfl
  | cons c cs => rw [List.dropWhile_cons_of_neg (by simp [h c rfl])]

theorem dropWhile_of_head {p : Char → Bool} {cs : List Char} (h : ∀ c ∈ cs, p c = false) :
    cs.dropWhile p = cs :=
  dropWhile_of_head? fun c hc => h c (List.mem_of_mem_head? hc)

/-- A text with no blank at its ends is not stripped. -/
theorem strip_eq_self {s : String} (hhead : ∀ c ∈ s.toList.head?, isSpace c = false)
    (hlast : ∀ c ∈ s.toList.getLast?, isSpace c = false) : strip s = s := by
  have hreverse : ∀ c ∈ s.toList.reverse.head?, isSpace c = false := by
    rwa [List.head?_reverse]
  unfold strip
  rw [dropWhile_of_head? hhead, dropWhile_of_head? hreverse, List.reverse_reverse,
    String.ofList_toList]

theorem strip_ne_empty {s : String} {c : Char} (h : c ∈ s.toList.head?)
    (hc : isSpace c = false) : strip s ≠ "" := by
  intro hempty
  have hhead : s.toList.dropWhile isSpace = s.toList := by
    apply dropWhile_of_head?
    intro d hd
    obtain rfl : c = d := Option.some.inj (h.symm.trans hd)
    exact hc
  have hnil : ((s.toList.dropWhile isSpace).reverse.dropWhile isSpace).reverse = [] := by
    have hlist := congrArg String.toList hempty
    rwa [strip, String.toList_ofList] at hlist
  rw [hhead, List.reverse_eq_nil_iff, List.dropWhile_eq_nil_iff] at hnil
  have hspace := hnil c (List.mem_reverse.mpr (List.mem_of_mem_head? h))
  rw [hc] at hspace
  cases hspace

theorem unsignedLiteral_digits {cs : List Char} (hne : cs ≠ [])
    (h : ∀ c ∈ cs, c.isDigit = true) :
    unsignedLiteral cs = some (cs.map fun c => c.toNat - '0'.toNat) := by
  rw [← digitsOf_digits h]
  unfold unsignedLiteral
  split
  · contradiction
  · exact absurd (h '_' List.mem_cons_self) (by decide)
  · rfl

theorem signedLiteral_digits {cs : List Char} (hne : cs ≠ []) (h : ∀ c ∈ cs, c.isDigit = true) :
    signedLiteral cs = some (false, cs.map fun c => c.toNat - '0'.toNat) := by
  have hunsigned := unsignedLiteral_digits hne h
  unfold signedLiteral
  split
  · exact absurd (h '-' List.mem_cons_self) (by decide)
  · exact absurd (h '+' List.mem_cons_self) (by decide)
  · rw [hunsigned]
    rfl

theorem int_repr_eq (n : Nat) :
    int (Nat.repr n) =
      if n < 10 ^ maxStrDigits then .ok (n : Int)
      else
        .error (.valueError "Exceeds the limit (4300 digits) for integer string conversion") := by
  have hdigit : ∀ c ∈ Nat.toDigits 10 n, c.isDigit = true := fun c hc =>
    Nat.isDigit_of_mem_toDigits (by decide) (by decide) hc
  have hspace : ∀ c ∈ Nat.toDigits 10 n, isIntSpace c = false := fun c hc =>
    isIntSpace_digit (hdigit c hc)
  have hbody : (((Nat.repr n).toList.dropWhile isIntSpace).reverse.dropWhile isIntSpace).reverse =
      Nat.toDigits 10 n := by
    rw [Nat.toList_repr, dropWhile_of_head hspace,
      dropWhile_of_head fun c hc => hspace c (List.mem_reverse.mp hc), List.reverse_reverse]
  have hlength := Nat.length_toDigits_le_iff (b := 10) (n := n) (by decide) (k := maxStrDigits)
    (by decide)
  unfold int
  simp only [hbody, signedLiteral_digits Nat.toDigits_ne_nil hdigit, List.length_map]
  by_cases h : n < 10 ^ maxStrDigits
  · have hle := hlength.mpr h
    rw [if_pos h, if_neg (by omega)]
    simp only [if_false, ofDigits_map, Nat.ofDigitChars_ten_toDigits, Bool.false_eq_true]
  · have hgt : maxStrDigits < (Nat.toDigits 10 n).length := by
      by_contra hle
      exact h (hlength.mp (Nat.not_lt.mp hle))
    rw [if_neg h, if_pos hgt]

theorem int_repr {n : Nat} (h : n < 10 ^ maxStrDigits) : int (Nat.repr n) = .ok n := by
  rw [int_repr_eq, if_pos h]

theorem str_natCast {n : Nat} (h : n < 10 ^ maxStrDigits) : str n = .ok (Nat.repr n) := by
  unfold str
  have hnot : ¬ 10 ^ maxStrDigits ≤ (n : Int).natAbs := by
    rw [Int.natAbs_natCast]
    exact Nat.not_le.mpr h
  rw [if_neg hnot]
  rfl

/-! ## Joined texts -/

theorem splitList_of_not_mem {sep : Char} {cs : List Char} (h : sep ∉ cs) :
    splitList sep cs = [cs] := by
  induction cs with
  | nil => rfl
  | cons c cs ih =>
      obtain ⟨hc, hcs⟩ := not_or.mp (mt List.mem_cons.mpr h)
      have hne : c ≠ sep := fun heq => hc heq.symm
      rw [splitList, if_neg hne, ih hcs]

theorem splitList_append {sep : Char} {cs : List Char} (h : sep ∉ cs) (rest : List Char) :
    splitList sep (cs ++ sep :: rest) = cs :: splitList sep rest := by
  induction cs with
  | nil => simp [splitList]
  | cons c cs ih =>
      obtain ⟨hc, hcs⟩ := not_or.mp (mt List.mem_cons.mpr h)
      have hne : c ≠ sep := fun heq => hc heq.symm
      rw [List.cons_append, splitList, if_neg hne, ih hcs]

theorem splitList_intercalate {sep : Char} {pieces : List (List Char)} (hne : pieces ≠ [])
    (h : ∀ p ∈ pieces, sep ∉ p) : splitList sep (List.intercalate [sep] pieces) = pieces := by
  induction pieces with
  | nil => exact absurd rfl hne
  | cons p pieces ih =>
      have hp := h p List.mem_cons_self
      cases pieces with
      | nil => rw [List.intercalate_singleton, splitList_of_not_mem hp]
      | cons q qs =>
          have hrest := ih (by simp) fun r hr => h r (List.mem_cons_of_mem _ hr)
          rw [List.intercalate_cons_cons, List.append_assoc, List.singleton_append,
            splitList_append hp, hrest]

theorem splitList_intercalate_append {sep : Char} {pieces : List (List Char)}
    (hne : pieces ≠ []) (h : ∀ p ∈ pieces, sep ∉ p) (rest : List Char) :
    splitList sep (List.intercalate [sep] pieces ++ sep :: rest) =
      pieces ++ splitList sep rest := by
  induction pieces with
  | nil => exact absurd rfl hne
  | cons p pieces ih =>
      have hp := h p List.mem_cons_self
      cases pieces with
      | nil => rw [List.intercalate_singleton, splitList_append hp, List.singleton_append]
      | cons q qs =>
          have hrest := ih (by simp) fun r hr => h r (List.mem_cons_of_mem _ hr)
          rw [List.intercalate_cons_cons, List.append_assoc, List.append_assoc,
            List.singleton_append, splitList_append hp, hrest]
          rfl

theorem splitList_ne_nil (sep : Char) (cs : List Char) : splitList sep cs ≠ [] := by
  cases cs with
  | nil => simp [splitList]
  | cons c cs =>
      unfold splitList
      by_cases hc : c = sep
      · simp [hc]
      · rw [if_neg hc]
        cases splitList sep cs <;> simp

/-- A text that neither starts nor ends with the character is not stripped. -/
theorem stripChar_eq_self {c : Char} {s : String} (hhead : s.toList.head? ≠ some c)
    (hlast : s.toList.getLast? ≠ some c) : stripChar c s = s := by
  have hkeep : ∀ {cs : List Char}, cs.head? ≠ some c → cs.dropWhile (· = c) = cs := by
    intro cs hcs
    cases cs with
    | nil => rfl
    | cons d cs =>
        have hne : d ≠ c := fun heq => hcs (by rw [heq]; rfl)
        exact List.dropWhile_cons_of_neg (by simpa using hne)
  have hreverse : s.toList.reverse.head? ≠ some c := by
    rwa [List.head?_reverse]
  unfold stripChar
  rw [hkeep hhead, hkeep hreverse, List.reverse_reverse, String.ofList_toList]

theorem stripChar_stripChar (c : Char) (s : String) :
    stripChar c (stripChar c s) = stripChar c s := by
  have hdrop : ∀ cs : List Char, (cs.dropWhile (· = c)).head? ≠ some c := by
    intro cs hhead
    have hnot := List.head?_dropWhile_not (· = c) cs
    rw [hhead] at hnot
    simp at hnot
  have hlist : (stripChar c s).toList =
      ((s.toList.dropWhile (· = c)).reverse.dropWhile (· = c)).reverse := String.toList_ofList
  refine stripChar_eq_self ?_ ?_
  · rw [hlist]
    have hextends : ((s.toList.dropWhile (· = c)).reverse.dropWhile (· = c)).reverse <+:
        s.toList.dropWhile (· = c) := by
      rw [← List.reverse_suffix, List.reverse_reverse]
      exact List.dropWhile_suffix _
    intro hhead
    obtain ⟨rest, hrest⟩ := hextends
    cases hstripped : ((s.toList.dropWhile (· = c)).reverse.dropWhile (· = c)).reverse with
    | nil =>
        rw [hstripped] at hhead
        cases hhead
    | cons d ds =>
        rw [hstripped] at hhead hrest
        refine hdrop s.toList ?_
        rw [← hrest]
        exact hhead
  · rw [hlist, List.getLast?_reverse]
    exact hdrop _

theorem head?_intercalate {sep : List Char} {p : List Char} {ps : List (List Char)} (hp : p ≠ []) :
    (List.intercalate sep (p :: ps)).head? = p.head? := by
  cases ps with
  | nil => rw [List.intercalate_singleton]
  | cons q qs =>
      rw [List.intercalate_cons_cons, List.append_assoc, List.head?_append]
      cases p with
      | nil => exact absurd rfl hp
      | cons c cs => rfl

theorem getLast?_intercalate {sep : List Char} {ps : List (List Char)} (hps : ∀ p ∈ ps, p ≠ [])
    {p : List Char} (hlast : ps.getLast? = some p) :
    (List.intercalate sep ps).getLast? = p.getLast? := by
  induction ps with
  | nil => simp at hlast
  | cons q qs ih =>
      cases qs with
      | nil =>
          simp only [List.getLast?_singleton, Option.some.injEq] at hlast
          rw [List.intercalate_singleton, hlast]
      | cons r rs =>
          rw [List.getLast?_cons_cons] at hlast
          have hrest := ih (fun p hp => hps p (List.mem_cons_of_mem _ hp)) hlast
          have hp : p ≠ [] := hps p (List.mem_cons_of_mem _ (List.mem_of_getLast? hlast))
          rw [List.intercalate_cons_cons, List.getLast?_append, hrest]
          cases hp' : p.getLast? with
          | none => exact absurd (List.getLast?_eq_none_iff.mp hp') hp
          | some c => rfl

end NetForge.Python
