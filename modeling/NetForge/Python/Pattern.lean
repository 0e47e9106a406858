import NetForge.Calculus.Regex
import NetForge.Python.Decimal
import Mathlib.Tactic.Ring
import Mathlib.Tactic.FieldSimp
import Mathlib.Data.List.TakeWhile

/-! # Patterns and numerals

What the program uses of `re`: the classes for digits and blanks, words that ignore case, and
`re.search` and `re.findall`. The numerals that tools print in their output are read back by
the pattern for numbers and by `float`.
-/

namespace NetForge.Python

open NetForge.Calculus

abbrev Pattern := Regex Char

namespace Pattern

/-- `\d`. -/
def isDecimal (c : Char) : Bool := (decimalValue c).isSome

/-- A small letter, or a sign, of a pattern that ignores case. -/
def folds (letter c : Char) : Bool :=
  c.toLower == letter || (letter == 's' && c == '\u017F') || (letter == 'k' && c == '\u212A') ||
    (letter == 'i' && (c == '\u0130' || c == '\u0131'))

def ignoringCase (text : String) : Pattern := Regex.word (text.toList.map folds)

/-- `\d+(?:\.\d+)?`. -/
def number : Pattern :=
  .seq (Regex.plus isDecimal) (Regex.opt (.seq (.one (· == '.')) (Regex.plus isDecimal)))

/-- `(\d+(?:\.\d+)?)\s*ms`, ignoring case. -/
def milliseconds : Pattern :=
  .seq (.group number) (.seq (.star isSpace) (ignoringCase "ms"))

/-- The groups of `re.search`. -/
def searchTexts (r : Pattern) (s : String) : Option (List String) :=
  (r.search s.toList).map (·.map String.ofList)

/-- `re.findall` for a pattern with one group. -/
def findTexts (r : Pattern) (s : String) : List String :=
  (r.findAll s.toList).map fun groups => String.ofList (groups.headD [])

theorem isDecimal_digit {c : Char} (h : c.isDigit = true) : isDecimal c = true := by
  rw [isDecimal, decimalValue_digit h]
  rfl

end Pattern

/-- A number as it is printed, with the digits after the point if there are any. -/
structure Numeral where
  whole : Nat
  fraction : List (Fin 10)
  deriving DecidableEq

namespace Numeral

def fractionDigits (n : Numeral) : List Char := n.fraction.map fun d => Nat.digitChar d.val

def text (n : Numeral) : List Char :=
  Nat.toDigits 10 n.whole ++ if n.fraction = [] then [] else '.' :: n.fractionDigits

def fractionValue : List (Fin 10) → Rat
  | [] => 0
  | d :: ds => (d.val + fractionValue ds) / 10

def value (n : Numeral) : Rat := n.whole + fractionValue n.fraction

def ofNat (n : Nat) : Numeral := ⟨n, []⟩

def tenths (whole digit : Nat) : Numeral := ⟨whole, [Fin.ofNat 10 digit]⟩

example : String.ofList (Numeral.mk 12 [0, 5]).text = "12.05" ∧
    (Numeral.mk 12 [0, 5]).value = 241 / 20 := by decide +kernel

/-! ## The characters of a numeral -/

theorem isDigit_whole {n : Nat} {c : Char} (h : c ∈ Nat.toDigits 10 n) : c.isDigit = true :=
  Nat.isDigit_of_mem_toDigits (by decide) (by decide) h

theorem isDigit_fraction {n : Numeral} {c : Char} (h : c ∈ n.fractionDigits) :
    c.isDigit = true := by
  have hall : ∀ d : Fin 10, (Nat.digitChar d.val).isDigit = true := by decide
  obtain ⟨d, -, rfl⟩ := List.mem_map.mp h
  exact hall d

theorem mem_text {n : Numeral} {c : Char} (h : c ∈ n.text) : c.isDigit = true ∨ c = '.' := by
  rcases List.mem_append.mp h with hwhole | hfraction
  · exact .inl (isDigit_whole hwhole)
  · split at hfraction
    · cases hfraction
    · rcases List.mem_cons.mp hfraction with hpoint | hdigit
      · exact .inr hpoint
      · exact .inl (isDigit_fraction hdigit)

theorem text_ne_nil (n : Numeral) : n.text ≠ [] := by
  intro h
  exact Nat.toDigits_ne_nil (List.append_eq_nil_iff.mp h).1

def chars : List Char := "0123456789.".toList

theorem digitChar_sub {c : Char} (h : c.isDigit = true) : Nat.digitChar (c.toNat - 48) = c := by
  have hrange := Char.isDigit_iff_toNat.mp h
  have h0 : '0'.toNat = 48 := rfl
  have h9 : '9'.toNat = 57 := rfl
  apply Char.toNat_inj.mp
  rw [Nat.toNat_digitChar_of_lt_ten (by omega)]
  omega

theorem mem_chars_of_digit {c : Char} (h : c.isDigit = true) : c ∈ chars := by
  have hall : ∀ d : Fin 10, Nat.digitChar d.val ∈ chars := by decide
  have hrange := Char.isDigit_iff_toNat.mp h
  have h9 : '9'.toNat = 57 := rfl
  have hd := hall ⟨c.toNat - 48, by omega⟩
  rwa [digitChar_sub h] at hd

theorem mem_chars {n : Numeral} {c : Char} (h : c ∈ n.text) : c ∈ chars := by
  rcases mem_text h with hdigit | hpoint
  · exact mem_chars_of_digit hdigit
  · rw [hpoint]
    decide

/-- What none of these characters is, no character of a numeral is. -/
theorem forall_mem_text {p : Char → Bool} (h : chars.any p = false) (n : Numeral) :
    ∀ c ∈ n.text, p c = false :=
  fun _ hc => eq_false_of_any h (mem_chars hc)

/-! ## Reading a numeral -/

theorem foldl_digits (ds : List Nat) (n : Nat) :
    ds.foldl (fun n d => n * 10 + d) n = n * 10 ^ ds.length + ofDigits ds := by
  induction ds generalizing n with
  | nil => simp [ofDigits]
  | cons d ds ih =>
      have hn := ih (n * 10 + d)
      have hd : ofDigits (d :: ds) = (0 * 10 + d) * 10 ^ ds.length + ofDigits ds := ih (0 * 10 + d)
      rw [List.foldl_cons, hn, hd, List.length_cons, pow_succ]
      ring

theorem ofDigits_append (ds es : List Nat) :
    ofDigits (ds ++ es) = ofDigits ds * 10 ^ es.length + ofDigits es := by
  rw [ofDigits, List.foldl_append]
  exact foldl_digits es _

theorem fractionValue_eq (ds : List (Fin 10)) :
    fractionValue ds = (ofDigits (ds.map (·.val)) : Rat) / 10 ^ ds.length := by
  induction ds with
  | nil => simp [fractionValue, ofDigits]
  | cons d ds ih =>
      have hcons := ofDigits_append [d.val] (ds.map (·.val))
      have hone : ofDigits [d.val] = d.val := by simp [ofDigits]
      rw [hone, List.length_map, List.singleton_append] at hcons
      rw [fractionValue, ih, List.map_cons, hcons, List.length_cons, pow_succ]
      push_cast
      field_simp

theorem digits_fraction (n : Numeral) :
    n.fractionDigits.map (fun c => c.toNat - '0'.toNat) = n.fraction.map (·.val) := by
  have hall : ∀ d : Fin 10, (Nat.digitChar d.val).toNat - '0'.toNat = d.val := by decide
  unfold fractionDigits
  rw [List.map_map]
  exact List.map_congr_left fun d _ => hall d

theorem optionalDigits_digits (cs : List Char) (h : ∀ c ∈ cs, c.isDigit = true) :
    optionalDigits cs = some (cs.map fun c => c.toNat - '0'.toNat) := by
  unfold optionalDigits
  split
  · rename_i hnil
    rw [hnil]
    rfl
  · rename_i hne
    exact unsignedLiteral_digits hne h

theorem takeWhile_text (n : Numeral) :
    n.text.takeWhile (· ≠ '.') = Nat.toDigits 10 n.whole ∧
      (n.text.dropWhile (· ≠ '.')).drop 1 = n.fractionDigits := by
  have hwhole : ∀ c ∈ Nat.toDigits 10 n.whole, decide (c ≠ '.') = true := by
    intro c hc
    have hdigit := isDigit_whole hc
    have hne : c ≠ '.' := by
      rintro rfl
      exact absurd hdigit (by decide)
    exact decide_eq_true hne
  unfold text
  rw [List.takeWhile_append_of_pos hwhole, List.dropWhile_append_of_pos hwhole]
  by_cases h : n.fraction = []
  · simp [h, fractionDigits]
  · simp [h]

theorem mantissa_text (n : Numeral) :
    mantissa n.text =
      some ((Nat.toDigits 10 n.whole).map (fun c => c.toNat - '0'.toNat) ++
        n.fraction.map (·.val), n.fraction.length) := by
  obtain ⟨hwhole, hfraction⟩ := takeWhile_text n
  have hds := optionalDigits_digits (Nat.toDigits 10 n.whole) fun c hc => isDigit_whole hc
  have hfs := optionalDigits_digits n.fractionDigits fun c hc => isDigit_fraction hc
  have hne : (Nat.toDigits 10 n.whole).map (fun c => c.toNat - '0'.toNat) ≠ [] := by
    simp [Nat.toDigits_ne_nil]
  rw [digits_fraction] at hfs
  unfold mantissa
  rw [hwhole, hfraction]
  simp only [hds, hfs, Option.bind_eq_bind, Option.bind_some]
  rw [if_neg fun hboth => hne hboth.1, List.length_map]

theorem unsignedDecimal_text (n : Numeral) : unsignedDecimal n.text = some n.value := by
  have hmark : ∀ c ∈ n.text, (!(decide (c = 'e') || decide (c = 'E'))) = true := by
    intro c hc
    have hfalse := forall_mem_text (p := fun c => decide (c = 'e') || decide (c = 'E'))
      (by decide) n c hc
    simpa using hfalse
  have htake : n.text.takeWhile (fun c => !(decide (c = 'e') || decide (c = 'E'))) = n.text :=
    List.takeWhile_eq_self_iff.mpr hmark
  have hdrop : n.text.dropWhile (fun c => !(decide (c = 'e') || decide (c = 'E'))) = [] :=
    List.dropWhile_eq_nil_iff.mpr hmark
  have hwhole := @Nat.ofDigitChars_ten_toDigits n.whole
  unfold unsignedDecimal
  simp only [htake, hdrop, mantissa_text, exponentOf, Option.bind_eq_bind, Option.bind_some,
    Option.pure_def]
  rw [ofDigits_append, ofDigits_map, hwhole, List.length_map, value, fractionValue_eq, zero_sub,
    zpow_neg, zpow_natCast]
  push_cast
  congr 1
  field_simp

theorem floatOfText_text (n : Numeral) : floatOfText (String.ofList n.text) = .ok n.value := by
  have hspace := forall_mem_text (p := isIntSpace) (by decide) n
  have hbody : (((String.ofList n.text).toList.dropWhile isIntSpace).reverse.dropWhile
      isIntSpace).reverse = n.text := by
    rw [String.toList_ofList, dropWhile_of_head hspace,
      dropWhile_of_head fun c hc => hspace c (List.mem_reverse.mp hc), List.reverse_reverse]
  have hsign : ∀ sign : Char, sign.isDigit = false → sign ≠ '.' → ∀ cs, n.text ≠ sign :: cs := by
    intro sign hdigit hpoint cs htext
    rcases mem_text (n := n) (c := sign) (by rw [htext]; exact List.mem_cons_self) with hd | hp
    · rw [hdigit] at hd
      cases hd
    · exact hpoint hp
  unfold floatOfText
  simp only [hbody]
  split
  · rename_i q hq
    split at hq
    · rename_i cs htext
      exact absurd htext (hsign '-' (by decide) (by decide) cs)
    · rename_i cs htext
      exact absurd htext (hsign '+' (by decide) (by decide) cs)
    · rw [unsignedDecimal_text] at hq
      rw [Option.some.inj hq]
  · rename_i hnone
    split at hnone
    · rename_i cs htext
      exact absurd htext (hsign '-' (by decide) (by decide) cs)
    · rename_i cs htext
      exact absurd htext (hsign '+' (by decide) (by decide) cs)
    · rw [unsignedDecimal_text] at hnone
      cases hnone

/-! ## Matching a numeral -/

open Pattern

/-- The pattern takes the whole numeral before anything that cannot continue it. -/
theorem number_parse? (n : Numeral) (rest : List Char)
    (hrest : ∀ c ∈ rest.head?, isDecimal c = false ∧ c ≠ '.') :
    number.parse? (n.text ++ rest) = some ⟨[], rest⟩ := by
  have hdecimal : ∀ c ∈ rest.head?, isDecimal c = false := fun c hc => (hrest c hc).1
  have hwhole : ∀ c ∈ Nat.toDigits 10 n.whole, isDecimal c = true := fun c hc =>
    isDecimal_digit (isDigit_whole hc)
  unfold text
  by_cases h : n.fraction = []
  · have hfirst := Regex.parse?_plus rest Nat.toDigits_ne_nil hwhole hdecimal
    have hpoint : (Regex.seq (.one (· == '.')) (Regex.plus isDecimal)).parse? rest = none := by
      cases rest with
      | nil => rfl
      | cons c rest =>
          have hne : (c == '.') = false := beq_false_of_ne (hrest c rfl).2
          have hone := Regex.parses_one_of_not (p := (· == '.')) hne rest
          exact Regex.parse?_eq_none.mpr (Regex.parses_seq_none hone _)
    have hopt := Regex.parse?_alt_right hpoint .nothing
    rw [if_pos h, List.append_nil]
    exact Regex.parse?_seq hfirst hopt
  · have hfraction : ∀ c ∈ n.fractionDigits, isDecimal c = true := fun c hc =>
      isDecimal_digit (isDigit_fraction hc)
    have hne : n.fractionDigits ≠ [] := by
      simpa [fractionDigits] using h
    have hfirst := Regex.parse?_plus ('.' :: (n.fractionDigits ++ rest))
      Nat.toDigits_ne_nil hwhole (Regex.forall_head_cons (by decide) _)
    have hpoint : (Regex.one (· == '.')).parse? ('.' :: (n.fractionDigits ++ rest)) =
        some ⟨[], n.fractionDigits ++ rest⟩ := Regex.parse?_one (by decide) _
    have hdigits := Regex.parse?_plus rest hne hfraction hdecimal
    have hopt := Regex.parse?_alt (Regex.parse?_seq hpoint hdigits) .nothing
    rw [if_neg h, List.append_assoc, List.cons_append]
    exact Regex.parse?_seq hfirst hopt

theorem isSpace_of_blanks {blanks : List Char} (h : ∀ c ∈ blanks, c = ' ') :
    ∀ c ∈ blanks, isSpace c = true := by
  intro c hc
  rw [h c hc]
  decide

theorem milliseconds_parse? (n : Numeral) {blanks : List Char} (hblanks : ∀ c ∈ blanks, c = ' ')
    (rest : List Char) :
    milliseconds.parse? (n.text ++ (blanks ++ ("ms".toList ++ rest))) = some ⟨[n.text], rest⟩ := by
  have hspace := isSpace_of_blanks hblanks
  have hunit : ∀ c ∈ ("ms".toList ++ rest).head?, isSpace c = false :=
    Regex.forall_head_cons (by decide) _
  have hstop : ∀ c ∈ (blanks ++ ("ms".toList ++ rest)).head?, isDecimal c = false ∧ c ≠ '.' := by
    cases blanks with
    | nil => exact Regex.forall_head_cons (by decide) _
    | cons b blanks =>
        apply Regex.forall_head_cons
        rw [hblanks b List.mem_cons_self]
        decide
  have hnumber := Regex.parse?_group (number_parse? n _ hstop)
  have hrun := Regex.parse?_star _ hspace hunit
  have hword : (ignoringCase "ms").parse? ("ms".toList ++ rest) = some ⟨[], rest⟩ := rfl
  exact Regex.parse?_seq hnumber (Regex.parse?_seq hrun hword)

theorem head_toDigits (n : Nat) (rest : List Char) {c : Char}
    (h : c ∈ (Nat.toDigits 10 n ++ rest).head?) : c.isDigit = true := by
  cases hdigits : Nat.toDigits 10 n with
  | nil => exact absurd hdigits Nat.toDigits_ne_nil
  | cons d ds =>
      have hd : d ∈ Nat.toDigits 10 n := by
        rw [hdigits]
        exact List.mem_cons_self
      rw [hdigits] at h
      obtain rfl : d = c := Option.some.inj h
      exact isDigit_whole hd

theorem head_text (n : Numeral) (rest : List Char) {c : Char} (h : c ∈ (n.text ++ rest).head?) :
    c.isDigit = true := by
  rw [text, List.append_assoc] at h
  exact head_toDigits n.whole _ h

/-- Between a numeral-like text and the next number there is no unit. -/
theorem milliseconds_none {cs : List Char} (hcs : ∀ c ∈ cs, c ∈ chars) {d : Char}
    (hd : d.isDigit = true) (more : List Char) :
    milliseconds.parses (cs ++ ' ' :: ([' '] ++ d :: more)) = [] := by
  have hletters : chars.any (fun e => folds 'm' e || folds 's' e) = false := by decide
  have hd' := eq_false_of_any hletters (mem_chars_of_digit hd)
  have hunit : (Regex.seq (.star isSpace) (ignoringCase "ms")).avoids d = true := by
    obtain ⟨hm, hs⟩ := Bool.or_eq_false_iff.mp hd'
    simp [Regex.avoids, ignoringCase, Regex.word, isSpace_digit hd, hm, hs]
  have hneeds : (ignoringCase "ms").Needs (folds 'm') := (Regex.needs_one _).seq_left _
  have hnone : chars.any (folds 'm') = false := by decide
  apply Regex.parses_seq_between (by decide) hunit (hneeds.seq_right _)
  intro x hx
  rcases List.mem_append.mp hx with hleft | hright
  · exact eq_false_of_any hnone (hcs x hleft)
  · have hblanks : [' ', ' '].any (folds 'm') = false := by decide
    exact eq_false_of_any hblanks hright

theorem findAll_milliseconds_skip {cs : List Char} (hcs : ∀ c ∈ cs, c ∈ chars) (n : Numeral)
    (rest : List Char) :
    milliseconds.findAll (cs ++ ' ' :: ' ' :: (n.text ++ rest)) =
      milliseconds.findAll (n.text ++ rest) := by
  have hhead : ∃ d more, n.text ++ rest = d :: more ∧ d.isDigit = true := by
    cases htext : n.text ++ rest with
    | nil => exact absurd (List.append_eq_nil_iff.mp htext).1 n.text_ne_nil
    | cons d more =>
        refine ⟨d, more, rfl, n.head_text rest ?_⟩
        rw [htext]
        rfl
  obtain ⟨d, more, htext, hd⟩ := hhead
  have hskip : milliseconds.findAll (cs ++ ' ' :: ' ' :: d :: more) =
      milliseconds.findAll (' ' :: ' ' :: d :: more) := by
    apply Regex.findAll_skip
    intro ds hds _
    exact milliseconds_none (fun c hc => hcs c (hds.mem hc)) hd more
  rw [htext, hskip, Regex.findAll_cons_none rfl, Regex.findAll_cons_none rfl]

theorem findAll_milliseconds_hit (n : Numeral) (blanks : List Char)
    (hblanks : ∀ c ∈ blanks, c = ' ') (rest : List Char) :
    milliseconds.findAll (n.text ++ (blanks ++ ("ms".toList ++ rest))) =
      [n.text] :: milliseconds.findAll rest := by
  have hparse := n.milliseconds_parse? hblanks rest
  have hne : n.text ++ (blanks ++ "ms".toList) ≠ [] := by
    simp [n.text_ne_nil]
  have hassoc : n.text ++ (blanks ++ ("ms".toList ++ rest)) =
      (n.text ++ (blanks ++ "ms".toList)) ++ rest := by
    simp only [List.append_assoc]
  rw [hassoc] at hparse ⊢
  exact Regex.findAll_hit hne hparse

end Numeral

end NetForge.Python
