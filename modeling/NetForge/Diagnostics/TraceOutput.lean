import NetForge.Calculus.Entries
import NetForge.Diagnostics.Traceroute
import NetForge.Python.Lines
import NetForge.Python.Pattern

/-! # The output of traceroute

`parse_traceroute_output` of `diagnostics/path/traceroute.py`. A line that starts with a star
is taken for a hop that timed out, whatever else stands on it.
-/

namespace NetForge.Diagnostics

open NetForge.Calculus NetForge.Calculus.Entries NetForge.Python NetForge.Python.Pattern

/-- `$`. -/
def lineEnd : Pattern := .look fun cs => cs = [] || cs = ['\n']

/-- `^\s*(\d+)\s+(.*)$`, at the start of a line. -/
def hopPattern : Pattern :=
  .seq (.star isSpace) (.seq (.group (Regex.plus isDecimal)) (.seq (Regex.plus isSpace)
    (.seq (.group (.star (· != '\n'))) lineEnd)))

/-- `\d{1,3}`. -/
def octet : Pattern := .seq (.one isDecimal) (Regex.upTo isDecimal 2)

/-- `(?:\d{1,3}\.){3}\d{1,3}`. -/
def dottedQuad : Pattern :=
  .seq octet (.seq (.one (· == '.')) (.seq octet (.seq (.one (· == '.')) (.seq octet
    (.seq (.one (· == '.')) octet)))))

/-- `([^\s]+)\s+\(([^)]+)\)`. -/
def nameAddressPattern : Pattern :=
  .seq (.group (Regex.plus (! isSpace ·))) (.seq (Regex.plus isSpace) (.seq (.one (· == '('))
    (.seq (.group (Regex.plus (· != ')'))) (.one (· == ')')))))

/-- `[A-Za-z0-9._-]`. -/
def isNameChar (c : Char) : Bool := c.isAlphanum || c == '.' || c == '_' || c == '-'

/-- `[0-9a-fA-F:]`. -/
def isHexColon (c : Char) : Bool :=
  c.isDigit || ('a' ≤ c && c ≤ 'f') || ('A' ≤ c && c ≤ 'F') || c == ':'

/-- `([A-Za-z0-9._-]+)\s+\[([^\]]+)\]`. -/
def bracketPattern : Pattern :=
  .seq (.group (Regex.plus isNameChar)) (.seq (Regex.plus isSpace) (.seq (.one (· == '['))
    (.seq (.group (Regex.plus (· != ']'))) (.one (· == ']')))))

/-- `((?:\d{1,3}\.){3}\d{1,3}|[0-9a-fA-F:]+)\s*$`. -/
def trailingAddressPattern : Pattern :=
  .seq (.group (.alt dottedQuad (Regex.plus isHexColon))) (.seq (.star isSpace) lineEnd)

/-- `(?:<)?` before the milliseconds. -/
def windowsTimePattern : Pattern := .seq (Regex.opt (.one (· == '<'))) milliseconds

/-- `s.replace("*", "")`. -/
def withoutStars (s : String) : String := String.ofList (s.toList.filter (· ≠ '*'))

def newHop (number : Nat) : Hop := ⟨number, none, none, [], none, false⟩

def windowsHop (rest : String) (hop : Hop) : Except PyError Hop :=
  if containsText "Request timed out" rest ∨ strip (withoutStars rest) = "" then
    let stars := rest.toList.count '*'
    .ok (if stars ≠ 0 ∨ containsText "timed out" (lower rest) then { hop with timedOut := true }
      else hop)
  else do
    let rtts ← (findTexts windowsTimePattern rest).mapM floatOfText
    let hop := { hop with rttsMs := hop.rttsMs ++ rtts }
    match searchTexts bracketPattern rest with
    | some groups => return { hop with hostname := groups[0]?, address := groups[1]? }
    | none =>
        match searchTexts trailingAddressPattern rest with
        | some groups => return { hop with address := groups[0]? }
        | none => return hop

/-- What the rest of a line makes of its hop, elsewhere. -/
def unixHop (rest : String) (hop : Hop) : Except PyError Hop :=
  if strip (withoutStars rest) = "" ∨ startsWithText "*" rest then
    .ok { hop with timedOut := true }
  else do
    let rtts ← (findTexts milliseconds rest).mapM floatOfText
    let hop := { hop with rttsMs := hop.rttsMs ++ rtts }
    match searchTexts nameAddressPattern rest with
    | some groups => return { hop with hostname := groups[0]?, address := groups[1]? }
    | none =>
        match searchTexts (.group dottedQuad) rest with
        | some groups => return { hop with address := groups[0]? }
        | none => return hop

/-- The hops by their numbers, in the order of their first lines. -/
abbrev HopTable := List (Nat × Hop)

/-- One line; a line without a hop number is passed over. -/
def traceLine (readHop : String → Hop → Except PyError Hop) (hops : HopTable) (line : String) :
    Except PyError HopTable :=
  match hopPattern.parse? line.toList with
  | none => .ok hops
  | some found => do
      let groups := found.groups.map String.ofList
      let number ← int (← index groups 0)
      let rest := strip (← index groups 1)
      let hop := (value? hops number.toNat).getD (newHop number.toNat)
      let hop' ← readHop rest hop
      return alter hops number.toNat fun _ => hop'

def withLoss (hop : Hop) : Hop :=
  let received := hop.rttsMs.length
  { hop with
    lossPercent :=
      if hop.timedOut ∧ received = 0 then some 100
      else some (roundTo 1 (max 0 ((3 - (received : Rat)) / 3 * 100))) }

def parseTracerouteOutput (output system : String) : Except PyError (List Hop) := do
  let readHop := if system = "windows" then windowsHop else unixHop
  let hops ← (splitLines output).foldlM (traceLine readHop) []
  return (hops.mergeSort fun a b => a.1 ≤ b.1).map fun e => withLoss e.2

/-! ## What traceroute prints -/

structure Ipv4 where
  first : Fin 256
  second : Fin 256
  third : Fin 256
  fourth : Fin 256
  deriving DecidableEq

def Ipv4.text (a : Ipv4) : List Char :=
  Nat.toDigits 10 a.first ++ '.' :: (Nat.toDigits 10 a.second ++ '.' ::
    (Nat.toDigits 10 a.third ++ '.' :: Nat.toDigits 10 a.fourth))

inductive Probe
  | lost
  | reply (address : Ipv4) (rtt : Numeral)
  deriving DecidableEq

namespace Probe

def rtt? : Probe → Option Numeral
  | .lost => none
  | .reply _ rtt => some rtt

def address? : Probe → Option Ipv4
  | .lost => none
  | .reply address _ => some address

theorem eq_lost {p : Probe} (h : p.rtt? = none) : p = .lost := by
  cases p with
  | lost => rfl
  | reply address rtt => cases h

end Probe

def probeText (last : Option Ipv4) : Probe → List Char
  | .lost => [' ', '*']
  | .reply address rtt =>
      (if last = some address then [] else ' ' :: address.text) ++
        (' ' :: ' ' :: (rtt.text ++ ([' '] ++ "ms".toList)))

def probesText : Option Ipv4 → List Probe → List Char
  | _, [] => []
  | last, probe :: probes =>
      probeText last probe ++ probesText (probe.address?.or last) probes

structure TraceHop where
  number : Nat
  first : Probe
  second : Probe
  third : Probe
  deriving DecidableEq

namespace TraceHop

def probes (h : TraceHop) : List Probe := [h.first, h.second, h.third]

def text (h : TraceHop) : List Char :=
  List.replicate (2 - (Nat.toDigits 10 h.number).length) ' ' ++
    (Nat.toDigits 10 h.number ++ ' ' :: probesText none h.probes)

def rtts (h : TraceHop) : List Rat := (h.probes.filterMap Probe.rtt?).map Numeral.value

def addresses (h : TraceHop) : List Ipv4 := h.probes.filterMap Probe.address?

def stars (h : TraceHop) : Nat := h.probes.count .lost

end TraceHop

/-- The line that names the target, where it is printed. -/
structure TraceBanner where
  target : List Char
  unbroken : ∀ c ∈ target, isLineEnd c = false

def TraceBanner.text (b : TraceBanner) : List Char := "traceroute to ".toList ++ b.target

def traceText (banner : Option TraceBanner) (hops : List TraceHop) : List Char :=
  ((banner.map TraceBanner.text).toList ++ hops.map TraceHop.text).flatMap (· ++ ['\n'])

/-! ## The characters of a line -/

def probeChars : List Char := "0123456789. *ms".toList

theorem mem_quad {a : Ipv4} {c : Char} (h : c ∈ a.text) : c ∈ Numeral.chars := by
  have hdigit : ∀ {n : Nat}, c ∈ Nat.toDigits 10 n → c ∈ Numeral.chars := fun hc =>
    Numeral.mem_chars_of_digit (Numeral.isDigit_whole hc)
  have hpoint : c = '.' → c ∈ Numeral.chars := by
    rintro rfl
    decide
  unfold Ipv4.text at h
  simp only [List.mem_append, List.mem_cons] at h
  rcases h with h | h | h | h | h | h | h
  · exact hdigit h
  · exact hpoint h
  · exact hdigit h
  · exact hpoint h
  · exact hdigit h
  · exact hpoint h
  · exact hdigit h

theorem mem_probeText {last : Option Ipv4} {probe : Probe} {c : Char}
    (h : c ∈ probeText last probe) : c ∈ probeChars := by
  have hchars : Numeral.chars ⊆ probeChars := by decide
  have hblank : ' ' ∈ probeChars := by decide
  have hunit : [' '] ++ "ms".toList ⊆ probeChars := by decide
  cases probe with
  | lost =>
      have hlost : [' ', '*'] ⊆ probeChars := by decide
      exact hlost h
  | reply address rtt =>
      rcases List.mem_append.mp h with haddress | htime
      · split at haddress
        · cases haddress
        · rcases List.mem_cons.mp haddress with rfl | haddress
          · exact hblank
          · exact hchars (mem_quad haddress)
      · rcases List.mem_cons.mp htime with rfl | htime
        · exact hblank
        · rcases List.mem_cons.mp htime with rfl | htime
          · exact hblank
          · rcases List.mem_append.mp htime with hrtt | hrest
            · exact hchars (Numeral.mem_chars hrtt)
            · exact hunit hrest

theorem mem_probesText {last : Option Ipv4} {probes : List Probe} {c : Char}
    (h : c ∈ probesText last probes) : c ∈ probeChars := by
  induction probes generalizing last with
  | nil => cases h
  | cons probe probes ih =>
      rcases List.mem_append.mp h with hprobe | hmore
      · exact mem_probeText hprobe
      · exact ih hmore

/-- What none of these characters is, no character of a line's probes is. -/
theorem forall_mem_probesText {p : Char → Bool} (h : probeChars.any p = false)
    (last : Option Ipv4) (probes : List Probe) : ∀ c ∈ probesText last probes, p c = false :=
  fun _ hc => eq_false_of_any h (mem_probesText hc)

theorem probeText_concat (last : Option Ipv4) (probe : Probe) :
    ∃ init c, probeText last probe = init ++ [c] ∧ isSpace c = false := by
  cases probe with
  | lost => exact ⟨[' '], '*', rfl, by decide⟩
  | reply address rtt =>
      refine ⟨(if last = some address then [] else ' ' :: address.text) ++
        (' ' :: ' ' :: (rtt.text ++ [' ', 'm'])), 's', ?_, by decide⟩
      simp [probeText]

theorem probesText_concat (last : Option Ipv4) (probe : Probe) (probes : List Probe) :
    ∃ init c, probesText last (probe :: probes) = init ++ [c] ∧ isSpace c = false := by
  induction probes generalizing last probe with
  | nil =>
      obtain ⟨init, c, htext, hc⟩ := probeText_concat last probe
      refine ⟨init, c, ?_, hc⟩
      rw [probesText, probesText, List.append_nil, htext]
  | cons next probes ih =>
      obtain ⟨init, c, htext, hc⟩ := ih (probe.address?.or last) next
      refine ⟨probeText last probe ++ init, c, ?_, hc⟩
      rw [probesText, htext, List.append_assoc]

namespace TraceHop

def rest (h : TraceHop) : List Char := (probesText none h.probes).drop 1

theorem probesText_eq (h : TraceHop) : probesText none h.probes = ' ' :: h.rest := by
  unfold rest probes
  cases h.first with
  | lost => rfl
  | reply address rtt => rfl

theorem rest_of_lost {h : TraceHop} (hfirst : h.first = .lost) :
    h.rest = '*' :: probesText none [h.second, h.third] := by
  unfold rest probes
  rw [hfirst]
  rfl

theorem rest_of_reply {h : TraceHop} {address : Ipv4} {rtt : Numeral}
    (hfirst : h.first = .reply address rtt) :
    h.rest = address.text ++ (' ' :: ' ' :: (rtt.text ++ ([' '] ++ ("ms".toList ++
      probesText (some address) [h.second, h.third])))) := by
  have htext : probeText none (.reply address rtt) =
      ' ' :: (address.text ++ (' ' :: ' ' :: (rtt.text ++ ([' '] ++ "ms".toList)))) := rfl
  unfold rest probes
  rw [hfirst, probesText, htext, List.cons_append, List.drop_succ_cons, List.drop_zero]
  simp only [List.append_assoc, List.cons_append]
  rfl

theorem head_rest (h : TraceHop) {c : Char} (hc : c ∈ h.rest.head?) : isSpace c = false := by
  cases hfirst : h.first with
  | lost =>
      rw [rest_of_lost hfirst] at hc
      exact Regex.forall_head_cons (P := (isSpace · = false)) (by decide) _ c hc
  | reply address rtt =>
      rw [rest_of_reply hfirst, Ipv4.text, List.append_assoc] at hc
      exact isSpace_digit (Numeral.head_toDigits _ _ hc)

theorem strip_rest (h : TraceHop) : strip (String.ofList h.rest) = String.ofList h.rest := by
  obtain ⟨init, d, htext, hd⟩ := probesText_concat none h.first [h.second, h.third]
  have hlast : h.rest.getLast? = some d := by
    have hall : (' ' :: h.rest).getLast? = some d := by
      rw [← probesText_eq, probes, htext, List.getLast?_concat]
    cases hrest : h.rest with
    | nil =>
        rw [hrest] at hall
        obtain rfl : ' ' = d := Option.some.inj hall
        exact absurd hd (by decide)
    | cons e es =>
        rwa [hrest, List.getLast?_cons_cons] at hall
  apply strip_eq_self
  · rw [String.toList_ofList]
    exact fun c hc => h.head_rest hc
  · rw [String.toList_ofList, hlast]
    intro c hc
    obtain rfl : d = c := Option.some.inj hc
    exact hd

/-- What no character of the probes is, no character of the rest is. -/
theorem forall_mem_rest {p : Char → Bool} (hp : probeChars.any p = false) (h : TraceHop) :
    ∀ c ∈ h.rest, p c = false :=
  fun c hc => forall_mem_probesText hp none h.probes c (List.mem_of_mem_drop hc)

theorem hopPattern_text (h : TraceHop) :
    hopPattern.parse? h.text = some ⟨[Nat.toDigits 10 h.number, h.rest], []⟩ := by
  have hblanks : ∀ c ∈ List.replicate (2 - (Nat.toDigits 10 h.number).length) ' ',
      isSpace c = true := by
    intro c hc
    rw [List.eq_of_mem_replicate hc]
    decide
  have hdigits : ∀ c ∈ Nat.toDigits 10 h.number, c.isDigit = true := fun c hc =>
    Numeral.isDigit_whole hc
  have hnumber : ∀ more : List Char, ∀ c ∈ (Nat.toDigits 10 h.number ++ more).head?,
      isSpace c = false := by
    intro more c hc
    exact isSpace_digit (Numeral.head_toDigits _ more hc)
  have hrest : ∀ c ∈ h.rest, (c != '\n') = true := by
    intro c hc
    have hbreak := forall_mem_rest (p := (· == '\n')) (by decide) h c hc
    simpa using hbreak
  have hlead := Regex.parse?_star _ hblanks (hnumber (' ' :: ' ' :: h.rest))
  have hgroup := Regex.parse?_group (Regex.parse?_plus (' ' :: ' ' :: h.rest)
    Nat.toDigits_ne_nil (fun c hc => isDecimal_digit (hdigits c hc))
    (Regex.forall_head_cons (by decide) _))
  have hspace : ∀ c ∈ [' ', ' '], isSpace c = true :=
    List.all_eq_true.mp (by decide)
  have hgap : (Regex.plus isSpace).parse? ([' ', ' '] ++ h.rest) = some ⟨[], h.rest⟩ :=
    Regex.parse?_plus h.rest (by simp) hspace fun c hc => h.head_rest hc
  have htail := Regex.parse?_group (Regex.parse?_star [] hrest (by simp))
  rw [List.append_nil] at htail
  have hend : lineEnd.parse? [] = some ⟨[], []⟩ := rfl
  rw [text, probesText_eq]
  exact Regex.parse?_seq hlead (Regex.parse?_seq hgroup (Regex.parse?_seq hgap
    (Regex.parse?_seq htail hend)))

end TraceHop

/-! ## The round trip times -/

theorem findAll_probesText (last : Option Ipv4) (probes : List Probe) :
    milliseconds.findAll (probesText last probes) =
      (probes.filterMap Probe.rtt?).map fun rtt => [rtt.text] := by
  induction probes generalizing last with
  | nil => rfl
  | cons probe probes ih =>
      cases probe with
      | lost =>
          have hrest := ih last
          show milliseconds.findAll (' ' :: '*' :: probesText last probes) = _
          rw [Regex.findAll_cons_none rfl, Regex.findAll_cons_none rfl, hrest]
          rfl
      | reply address rtt =>
          have hrest := ih (some address)
          have hhit := Numeral.findAll_milliseconds_hit rtt [' '] (by simp)
            (probesText (some address) probes)
          have htime : ∀ cs : List Char, (∀ c ∈ cs, c ∈ Numeral.chars) →
              milliseconds.findAll (cs ++ ' ' :: ' ' :: (rtt.text ++ ([' '] ++ ("ms".toList ++
                probesText (some address) probes)))) =
                [rtt.text] :: (probes.filterMap Probe.rtt?).map fun rtt => [rtt.text] := by
            intro cs hcs
            rw [Numeral.findAll_milliseconds_skip hcs, hhit, hrest]
          have htext : probesText last (.reply address rtt :: probes) =
              (if last = some address then [] else ' ' :: address.text) ++
                ' ' :: ' ' :: (rtt.text ++ ([' '] ++ ("ms".toList ++
                  probesText (some address) probes))) := by
            simp [probesText, probeText, Probe.address?]
          rw [htext]
          show _ = [rtt.text] :: (probes.filterMap Probe.rtt?).map fun rtt => [rtt.text]
          split
          · exact htime [] (by simp)
          · rw [List.cons_append, Regex.findAll_cons_none rfl]
            exact htime address.text fun c hc => mem_quad hc

namespace TraceHop

theorem findTexts_rest (h : TraceHop) :
    findTexts milliseconds (String.ofList h.rest) =
      (h.probes.filterMap Probe.rtt?).map fun rtt => String.ofList rtt.text := by
  have hblank : milliseconds.findAll (' ' :: h.rest) = milliseconds.findAll h.rest :=
    Regex.findAll_cons_none rfl
  have hall := findAll_probesText none h.probes
  rw [probesText_eq, hblank] at hall
  rw [findTexts, String.toList_ofList, hall, List.map_map]
  rfl

theorem rtts_read (h : TraceHop) :
    (findTexts milliseconds (String.ofList h.rest)).mapM floatOfText = .ok h.rtts := by
  have hread : ∀ rtt ∈ h.probes.filterMap Probe.rtt?,
      (floatOfText ∘ fun rtt : Numeral => String.ofList rtt.text) rtt = .ok rtt.value := by
    intro rtt _
    rw [Function.comp_apply, rtt.floatOfText_text]
  rw [findTexts_rest, List.mapM_map, mapM_ok hread, rtts]

end TraceHop

/-! ## The address -/

theorem octet_parse? (n : Fin 256) {rest : List Char}
    (hrest : ∀ c ∈ rest.head?, isDecimal c = false) :
    octet.parse? (Nat.toDigits 10 n ++ rest) = some ⟨[], rest⟩ := by
  have hlt : n.val < 10 ^ 3 := by omega
  have hlength := (Nat.length_toDigits_le_iff (b := 10) (by decide) (k := 3) (by decide)).mpr hlt
  have hdigits : ∀ c ∈ Nat.toDigits 10 n.val, isDecimal c = true := fun c hc =>
    isDecimal_digit (Numeral.isDigit_whole hc)
  cases htext : Nat.toDigits 10 n.val with
  | nil => exact absurd htext Nat.toDigits_ne_nil
  | cons d ds =>
      rw [htext] at hlength hdigits
      have hfirst := Regex.parse?_one (hdigits d List.mem_cons_self) (ds ++ rest)
      have hmore := Regex.parse?_upTo (n := 2) rest (Nat.le_of_succ_le_succ hlength)
        (fun c hc => hdigits c (List.mem_cons_of_mem _ hc)) hrest
      exact Regex.parse?_seq hfirst hmore

theorem octet_dot_parse? (n : Fin 256) {r : Pattern} {rest : List Char} {m : Regex.Match Char}
    (h : r.parse? rest = some m) :
    (Regex.seq octet (.seq (.one (· == '.')) r)).parse? (Nat.toDigits 10 n ++ '.' :: rest) =
      some m := by
  have hpoint : ∀ c ∈ ('.' :: rest).head?, isDecimal c = false :=
    Regex.forall_head_cons (by decide) rest
  have hdot : (Regex.one (· == '.')).parse? ('.' :: rest) = some ⟨[], rest⟩ :=
    Regex.parse?_one (by decide) rest
  exact Regex.parse?_seq (octet_parse? n hpoint) (Regex.parse?_seq hdot h)

theorem dottedQuad_parse? (a : Ipv4) (rest : List Char)
    (hrest : ∀ c ∈ rest.head?, isDecimal c = false) :
    dottedQuad.parse? (a.text ++ rest) = some ⟨[], rest⟩ := by
  have htext : a.text ++ rest =
      Nat.toDigits 10 a.first ++ '.' :: (Nat.toDigits 10 a.second ++ '.' ::
        (Nat.toDigits 10 a.third ++ '.' :: (Nat.toDigits 10 a.fourth ++ rest))) := by
    simp [Ipv4.text]
  rw [htext]
  exact octet_dot_parse? a.first (octet_dot_parse? a.second (octet_dot_parse? a.third
    (octet_parse? a.fourth hrest)))

theorem nameAddressPattern_needs : nameAddressPattern.Needs (· == '(') :=
  ((Regex.needs_one _).seq_left _).seq_right _ |>.seq_right _

namespace TraceHop

theorem head_of_reply {h : TraceHop} {address : Ipv4} {rtt : Numeral}
    (hfirst : h.first = .reply address rtt) :
    ∃ d more, h.rest = d :: more ∧ d.isDigit = true := by
  have hrest := rest_of_reply hfirst
  rw [Ipv4.text, List.append_assoc] at hrest
  cases htext : h.rest with
  | nil =>
      rw [htext] at hrest
      exact absurd (List.append_eq_nil_iff.mp hrest.symm).1 Nat.toDigits_ne_nil
  | cons d more =>
      refine ⟨d, more, rfl, ?_⟩
      have hhead : d ∈ h.rest.head? := by
        rw [htext]
        rfl
      rw [hrest] at hhead
      exact Numeral.head_toDigits _ _ hhead

theorem address_found {h : TraceHop} {address : Ipv4} {rtt : Numeral}
    (hfirst : h.first = .reply address rtt) :
    searchTexts (.group dottedQuad) (String.ofList h.rest) =
      some [String.ofList address.text] := by
  have hquad := dottedQuad_parse? address (' ' :: ' ' :: (rtt.text ++ ([' '] ++
      ("ms".toList ++ probesText (some address) [h.second, h.third]))))
    (Regex.forall_head_cons (by decide) _)
  rw [searchTexts, String.toList_ofList, rest_of_reply hfirst,
    Regex.search_hit (Regex.parse?_group hquad)]
  rfl

theorem no_name (h : TraceHop) :
    searchTexts nameAddressPattern (String.ofList h.rest) = none := by
  have hchars := forall_mem_rest (p := (· == '(')) (by decide) h
  rw [searchTexts, String.toList_ofList, Regex.search_of_needs nameAddressPattern_needs hchars]
  rfl

/-- What a line that starts with a reply makes of a new hop. -/
theorem unixHop_reply {h : TraceHop} {address : Ipv4} {rtt : Numeral}
    (hfirst : h.first = .reply address rtt) :
    unixHop (String.ofList h.rest) (newHop h.number) =
      .ok ⟨h.number, some (String.ofList address.text), none, h.rtts, none, false⟩ := by
  obtain ⟨d, more, hrest, hd⟩ := head_of_reply hfirst
  have hstar : d ≠ '*' := by
    rintro rfl
    exact absurd hd (by decide)
  have hstart : startsWithText "*" (String.ofList h.rest) = false := by
    have hlist : (String.ofList h.rest).toList = d :: more := by
      rw [String.toList_ofList, hrest]
    rw [startsWithText, hlist]
    simp [List.isPrefixOf, hstar.symm]
  have hblank : strip (withoutStars (String.ofList h.rest)) ≠ "" := by
    have hlist : (withoutStars (String.ofList h.rest)).toList =
        d :: more.filter (· ≠ '*') := by
      rw [withoutStars, String.toList_ofList, String.toList_ofList, hrest,
        List.filter_cons_of_pos (by simpa using hstar)]
    apply strip_ne_empty (c := d)
    · rw [hlist]
      rfl
    · exact isSpace_digit hd
  have hcond : ¬ (strip (withoutStars (String.ofList h.rest)) = "" ∨
      startsWithText "*" (String.ofList h.rest) = true) := by
    rw [hstart]
    simpa using hblank
  rw [unixHop, if_neg hcond, rtts_read, ok_bind, no_name, address_found hfirst]
  rfl

/-- A line that starts with a star makes a hop that timed out. -/
theorem unixHop_lost {h : TraceHop} (hfirst : h.first = .lost) :
    unixHop (String.ofList h.rest) (newHop h.number) =
      .ok ⟨h.number, none, none, [], none, true⟩ := by
  have hlist : (String.ofList h.rest).toList = '*' :: probesText none [h.second, h.third] := by
    rw [String.toList_ofList, rest_of_lost hfirst]
  have hstart : startsWithText "*" (String.ofList h.rest) = true := by
    rw [startsWithText, hlist]
    rfl
  rw [unixHop, if_pos (.inr hstart)]
  rfl

def readAs (h : TraceHop) : Hop :=
  match h.first with
  | .lost => ⟨h.number, none, none, [], none, true⟩
  | .reply address _ => ⟨h.number, some (String.ofList address.text), none, h.rtts, none, false⟩

theorem unixHop_text (h : TraceHop) :
    unixHop (String.ofList h.rest) (newHop h.number) = .ok h.readAs := by
  unfold readAs
  cases hfirst : h.first with
  | lost => exact unixHop_lost hfirst
  | reply address rtt => exact unixHop_reply hfirst

end TraceHop

/-! ## The lines of a trace -/

/-- A new hop is added at the end, unless its number has too many digits. -/
theorem traceLine_text (h : TraceHop) {hops : HopTable} (hfresh : h.number ∉ keys hops) :
    traceLine unixHop hops (String.ofList h.text) =
      (int (Nat.repr h.number)).map fun _ => hops ++ [(h.number, h.readAs)] := by
  have hrepr : String.ofList (Nat.toDigits 10 h.number) = Nat.repr h.number := by
    rw [← Nat.toList_repr, String.ofList_toList]
  have hnone : value? hops h.number = none := value?_eq_none.mpr hfresh
  have hfirst : index ([Nat.toDigits 10 h.number, h.rest].map String.ofList) 0 =
      .ok (Nat.repr h.number) := by
    rw [← hrepr]
    rfl
  have hsecond : index ([Nat.toDigits 10 h.number, h.rest].map String.ofList) 1 =
      .ok (String.ofList h.rest) := rfl
  unfold traceLine
  rw [String.toList_ofList, h.hopPattern_text]
  simp only [hfirst, hsecond, ok_bind]
  cases hnumber : int (Nat.repr h.number) with
  | error e => rfl
  | ok number =>
      rw [int_repr_eq] at hnumber
      split at hnumber
      · obtain rfl : (h.number : Int) = number := Except.ok.inj hnumber
        simp only [ok_bind, Int.toNat_natCast, hnone, Option.getD_none, h.strip_rest,
          h.unixHop_text]
        rw [alter, if_neg hfresh]
        rfl
      · cases hnumber

theorem traceLine_banner (b : TraceBanner) (hops : HopTable) :
    traceLine unixHop hops (String.ofList b.text) = .ok hops := by
  have hnone : hopPattern.parse? b.text = none := rfl
  rw [traceLine, String.toList_ofList, hnone]

/-- The lines of hops with increasing numbers add one hop each, in their order. -/
theorem traceLines_ok_iff {lines : List TraceHop} (h : lines.Pairwise (·.number < ·.number))
    {hops : HopTable} (hfresh : ∀ n ∈ keys hops, ∀ line ∈ lines, n < line.number)
    {result : HopTable} :
    (lines.map fun line => String.ofList line.text).foldlM (traceLine unixHop) hops = .ok result ↔
      (∀ line ∈ lines, line.number < 10 ^ maxStrDigits) ∧
        result = hops ++ lines.map fun line => (line.number, line.readAs) := by
  induction lines generalizing hops with
  | nil =>
      rw [List.map_nil, List.map_nil, List.foldlM_nil, List.append_nil]
      constructor
      · intro hresult
        obtain rfl : hops = result := Except.ok.inj hresult
        exact ⟨by simp, rfl⟩
      · intro hresult
        rw [hresult.2]
        rfl
  | cons line lines ih =>
      obtain ⟨hlater, hlines⟩ := List.pairwise_cons.mp h
      have hnew : line.number ∉ keys hops := by
        intro hmem
        exact absurd (hfresh _ hmem line List.mem_cons_self) (Nat.lt_irrefl _)
      have hnext : ∀ n ∈ keys (hops ++ [(line.number, line.readAs)]), ∀ l ∈ lines,
          n < l.number := by
        intro n hn l hl
        rw [keys, List.map_append, List.mem_append] at hn
        rcases hn with hold | hhere
        · exact hfresh n hold l (List.mem_cons_of_mem _ hl)
        · rw [List.mem_singleton.mp hhere]
          exact hlater l hl
      have hrest := ih hlines hnext
      rw [List.map_cons, List.foldlM_cons, traceLine_text line hnew, int_repr_eq]
      by_cases hlt : line.number < 10 ^ maxStrDigits
      · rw [if_pos hlt]
        show List.foldlM _ (hops ++ [(line.number, line.readAs)]) _ = _ ↔ _
        rw [hrest, List.append_assoc, List.singleton_append, List.map_cons,
          List.forall_mem_cons]
        simp only [hlt, true_and]
      · rw [if_neg hlt]
        constructor
        · intro hresult
          cases hresult
        · intro hall
          exact absurd (hall.1 line List.mem_cons_self) hlt

/-! ## When a trace is recovered -/

namespace TraceHop

theorem text_unbroken (h : TraceHop) : ∀ c ∈ h.text, isLineEnd c = false := by
  intro c hc
  rw [text, List.mem_append, List.mem_append] at hc
  rcases hc with hlead | hnumber | hprobes
  · rw [List.eq_of_mem_replicate hlead]
    decide
  · have hall : Numeral.chars.any isLineEnd = false := by decide
    exact eq_false_of_any hall (Numeral.mem_chars_of_digit (Numeral.isDigit_whole hnumber))
  · rcases List.mem_cons.mp hprobes with rfl | hprobes
    · decide
    · exact forall_mem_probesText (by decide) none h.probes c hprobes

/-- The number can be read, and only lost probes follow a lost first one. -/
def Recoverable (h : TraceHop) : Prop :=
  h.number < 10 ^ maxStrDigits ∧ (h.first = .lost → h.second = .lost ∧ h.third = .lost)

structure Recovered (h : TraceHop) (hop : Hop) : Prop where
  number : hop.hop = h.number
  rtts : hop.rttsMs = h.rtts
  loss : hop.lossPercent = some (roundTo 1 (100 * (h.stars : Rat) / 3))
  address : h.stars < 3 → ∃ a ∈ h.addresses, hop.address = some (String.ofList a.text)
  timedOut : (hop.timedOut = true ∧ hop.address = none) ↔ h.stars = 3

end TraceHop

theorem splitLines_traceText (banner : Option TraceBanner) (lines : List TraceHop) :
    splitLines (String.ofList (traceText banner lines)) =
      (banner.map fun b => String.ofList b.text).toList ++
        lines.map fun line => String.ofList line.text := by
  have hunbroken : ∀ line ∈ (banner.map TraceBanner.text).toList ++ lines.map TraceHop.text,
      ∀ c ∈ line, isLineEnd c = false := by
    intro line hline
    rcases List.mem_append.mp hline with hbanner | hhop
    · obtain ⟨b, -, rfl⟩ := Option.map_eq_some_iff.mp (Option.mem_toList.mp hbanner)
      intro c hc
      rcases List.mem_append.mp hc with hstart | htarget
      · have hall : "traceroute to ".toList.any isLineEnd = false := by decide
        exact eq_false_of_any hall hstart
      · exact b.unbroken c htarget
    · obtain ⟨h, -, rfl⟩ := List.mem_map.mp hhop
      exact h.text_unbroken
  rw [splitLines, String.toList_ofList, traceText, linesOf_flatMap hunbroken, List.map_append,
    List.map_map]
  cases banner <;> rfl

/-- The parser returns one hop for each line, in order, unless a number has too many digits. -/
theorem parseTracerouteOutput_ok_iff {system : String} (hsystem : system ≠ "windows")
    (banner : Option TraceBanner) {lines : List TraceHop}
    (h : lines.Pairwise (·.number < ·.number)) {hops : List Hop} :
    parseTracerouteOutput (String.ofList (traceText banner lines)) system = .ok hops ↔
      (∀ line ∈ lines, line.number < 10 ^ maxStrDigits) ∧
        hops = lines.map fun line => withLoss line.readAs := by
  have hlines := @traceLines_ok_iff lines h [] (by simp [keys])
  have hbanner : ((banner.map fun b => String.ofList b.text).toList ++
      lines.map fun line => String.ofList line.text).foldlM (traceLine unixHop) [] =
        (lines.map fun line => String.ofList line.text).foldlM (traceLine unixHop) [] := by
    cases banner with
    | none => rfl
    | some b =>
        show List.foldlM (traceLine unixHop) [] (String.ofList b.text :: _) = _
        rw [List.foldlM_cons, traceLine_banner, ok_bind]
        rfl
  have hsorted : (lines.map fun line => (line.number, line.readAs)).mergeSort
      (fun a b => a.1 ≤ b.1) = lines.map fun line => (line.number, line.readAs) := by
    apply List.mergeSort_of_pairwise
    rw [List.pairwise_map]
    exact h.imp fun hlt => decide_eq_true (Nat.le_of_lt hlt)
  unfold parseTracerouteOutput
  rw [if_neg hsystem, splitLines_traceText]
  simp only [hbanner]
  constructor
  · intro hparse
    obtain ⟨table, htable, hparse⟩ := ok_of_bind.mp hparse
    obtain ⟨hlt, rfl⟩ := hlines.mp htable
    rw [List.nil_append, hsorted, List.map_map] at hparse
    exact ⟨hlt, (Except.ok.inj hparse).symm⟩
  · intro hall
    have htable := hlines.mpr ⟨hall.1, rfl⟩
    rw [htable, ok_bind, List.nil_append, hsorted, List.map_map, hall.2]
    rfl

namespace TraceHop

theorem rtts_length (h : TraceHop) : h.rtts.length + h.stars = 3 := by
  obtain ⟨number, first, second, third⟩ := h
  cases first <;> cases second <;> cases third <;> rfl

theorem loss_eq (h : TraceHop) :
    max 0 ((3 - (h.rtts.length : Rat)) / 3 * 100) = 100 * (h.stars : Rat) / 3 := by
  have hlength : (h.rtts.length : Rat) + h.stars = 3 := by
    exact_mod_cast h.rtts_length
  have hstars : (0 : Rat) ≤ h.stars := Nat.cast_nonneg _
  have hvalue : (3 - (h.rtts.length : Rat)) / 3 * 100 = 100 * (h.stars : Rat) / 3 := by
    rw [← hlength]
    ring
  rw [hvalue]
  exact max_eq_right (by positivity)

/-- A line that starts with a reply is read as it was printed. -/
theorem recovered_of_reply {h : TraceHop} {address : Ipv4} {rtt : Numeral}
    (hfirst : h.first = .reply address rtt) : h.Recovered (withLoss h.readAs) := by
  have hread : h.readAs =
      ⟨h.number, some (String.ofList address.text), none, h.rtts, none, false⟩ := by
    rw [readAs, hfirst]
  have hmem : address ∈ h.addresses := by
    rw [addresses, probes, hfirst]
    exact List.mem_cons_self
  have hanswered : h.rtts ≠ [] := by
    rw [rtts, probes, hfirst]
    simp [Probe.rtt?]
  have hpos := List.length_pos_iff.mpr hanswered
  have hlength := h.rtts_length
  rw [hread]
  refine ⟨rfl, rfl, ?_, fun _ => ⟨address, hmem, rfl⟩, ?_⟩
  · rw [withLoss, if_neg (by simp), h.loss_eq]
  · constructor
    · intro hnone
      cases hnone.1
    · intro hstars
      omega

/-- A line that starts with a star is read as one without replies. -/
theorem recovered_of_lost_iff {h : TraceHop} (hfirst : h.first = .lost) :
    h.Recovered (withLoss h.readAs) ↔ h.second = .lost ∧ h.third = .lost := by
  have hread : h.readAs = ⟨h.number, none, none, [], none, true⟩ := by
    rw [readAs, hfirst]
  have hlength := h.rtts_length
  rw [hread]
  constructor
  · intro hrecovered
    have hnil : h.rtts = [] := hrecovered.rtts.symm
    have hnone := List.filterMap_eq_nil_iff.mp (List.map_eq_nil_iff.mp hnil)
    exact ⟨Probe.eq_lost (hnone h.second (by simp [probes])),
      Probe.eq_lost (hnone h.third (by simp [probes]))⟩
  · intro hlost
    have hnil : h.rtts = [] := by
      rw [rtts, probes, hfirst, hlost.1, hlost.2]
      rfl
    rw [hnil, List.length_nil, Nat.zero_add] at hlength
    refine ⟨rfl, hnil.symm, ?_, ?_, iff_of_true ⟨rfl, rfl⟩ hlength⟩
    · have hround : roundTo 1 (100 * ((3 : Nat) : Rat) / 3) = 100 := by decide +kernel
      rw [withLoss, if_pos ⟨rfl, rfl⟩, hlength, hround]
    · intro hlt
      omega

/-- What is read is what was printed exactly where no later probe is answered after a lost
first one. -/
theorem recovered_iff (h : TraceHop) :
    h.Recovered (withLoss h.readAs) ↔ (h.first = .lost → h.second = .lost ∧ h.third = .lost) := by
  cases hfirst : h.first with
  | reply address rtt =>
      constructor
      · intro _ hlost
        cases hlost
      · exact fun _ => recovered_of_reply hfirst
  | lost =>
      rw [recovered_of_lost_iff hfirst]
      constructor
      · exact fun hlost _ => hlost
      · exact fun hlost => hlost rfl

end TraceHop

/-- Every hop comes back as printed exactly when no line answers a later probe after a lost
first one, and every number can be read. -/
theorem parseTracerouteOutput_recovers_iff {system : String} (hsystem : system ≠ "windows")
    (banner : Option TraceBanner) {lines : List TraceHop}
    (h : lines.Pairwise (·.number < ·.number)) :
    (∃ hops, parseTracerouteOutput (String.ofList (traceText banner lines)) system = .ok hops ∧
        List.Forall₂ TraceHop.Recovered lines hops) ↔
      ∀ line ∈ lines, line.Recoverable := by
  have hrecovered : List.Forall₂ TraceHop.Recovered lines
      (lines.map fun line => withLoss line.readAs) ↔
        ∀ line ∈ lines, line.first = .lost → line.second = .lost ∧ line.third = .lost := by
    rw [List.forall₂_map_right_iff, List.forall₂_same]
    exact forall₂_congr fun line _ => line.recovered_iff
  constructor
  · intro ⟨hops, hparse, hall⟩
    obtain ⟨hlt, rfl⟩ := (parseTracerouteOutput_ok_iff hsystem banner h).mp hparse
    intro line hline
    exact ⟨hlt line hline, hrecovered.mp hall line hline⟩
  · intro hall
    have hparse := (parseTracerouteOutput_ok_iff hsystem banner h).mpr
      ⟨fun line hline => (hall line hline).1, rfl⟩
    exact ⟨_, hparse, hrecovered.mpr fun line hline => (hall line hline).2⟩

/-- A gateway that answers every probe and a router that answers none. -/
def quietPath : List TraceHop :=
  [⟨1, .reply ⟨192, 168, 1, 1⟩ (.tenths 0 3), .reply ⟨192, 168, 1, 1⟩ (.tenths 0 4), .lost⟩,
    ⟨2, .lost, .lost, .lost⟩]

theorem parseTracerouteOutput_recovers_quietPath :
    ∃ hops, parseTracerouteOutput (String.ofList (traceText none quietPath)) "linux" = .ok hops ∧
      List.Forall₂ TraceHop.Recovered quietPath hops :=
  (parseTracerouteOutput_recovers_iff (by decide) none (by decide)).mpr (by
    intro line hline
    rcases List.mem_cons.mp hline with rfl | hline
    · exact ⟨by decide +kernel, fun hlost => absurd hlost (by decide)⟩
    · obtain rfl := List.mem_singleton.mp hline
      exact ⟨by decide +kernel, fun _ => ⟨rfl, rfl⟩⟩)

def starredHop : TraceHop := ⟨3, .lost, .reply ⟨10, 0, 0, 2⟩ (.tenths 5 5), .lost⟩

/-- The reply after a star is lost with its line. -/
theorem leading_star_hides_reply :
    (¬ ∀ (system : String) (banner : Option TraceBanner) (lines : List TraceHop),
        system ≠ "windows" → lines.Pairwise (·.number < ·.number) →
          ∃ hops, parseTracerouteOutput (String.ofList (traceText banner lines)) system =
              .ok hops ∧ List.Forall₂ TraceHop.Recovered lines hops) ∧
      String.ofList starredHop.text = " 3  * 10.0.0.2  5.5 ms *" ∧
      parseTracerouteOutput (String.ofList (traceText none [starredHop])) "linux" =
        .ok [⟨3, none, none, [], some 100, true⟩] := by
  have hread : withLoss starredHop.readAs = ⟨3, none, none, [], some 100, true⟩ := rfl
  have hparsed : parseTracerouteOutput (String.ofList (traceText none [starredHop])) "linux" =
      .ok [⟨3, none, none, [], some 100, true⟩] := by
    rw [parseTracerouteOutput_ok_iff (by decide) none (List.pairwise_singleton _ _)]
    constructor
    · intro line hline
      obtain rfl := List.mem_singleton.mp hline
      decide +kernel
    · rw [List.map_singleton, hread]
  refine ⟨?_, by decide +kernel, hparsed⟩
  intro hclaim
  obtain ⟨hops, hhops, hall⟩ := hclaim "linux" none [starredHop] (by decide)
    (List.pairwise_singleton _ _)
  obtain rfl := Except.ok.inj (hparsed.symm.trans hhops)
  obtain ⟨hrecovered, -⟩ := List.forall₂_cons.mp hall
  rw [← hread, TraceHop.recovered_iff] at hrecovered
  exact absurd (hrecovered rfl).1 (by decide)

end NetForge.Diagnostics
