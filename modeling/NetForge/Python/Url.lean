import NetForge.Calculus.Percent
import NetForge.Python.Bytes
import NetForge.Python.Decimal
import NetForge.Python.Lines
import Mathlib.Data.List.SplitBy

/-! # Request targets and query strings

The parts of `urllib.parse` that the HTTP client and the HTTP server meet in: the
client writes a query with `urlencode`, the server takes a request target apart
with `urlparse` and reads its query with `parse_qs`.
-/

namespace NetForge.Python

open Calculus.Percent

/-! ## Decoding with replacement -/

/-- Where a UTF-8 decoder stands: between two code points, or with `pending + 1`
octets missing of one, the next of which lies from `low` to `high`. -/
inductive Utf8State
  | ready
  | within (pending code low high : Nat)
  deriving DecidableEq

def utf8Lead (n : Nat) : List Char × Utf8State :=
  if n < 0x80 then ([Char.ofNat n], .ready)
  else if n < 0xC2 then (['\uFFFD'], .ready)
  else if n < 0xE0 then ([], .within 0 (n % 32) 0x80 0xBF)
  else if n < 0xF0 then
    ([], .within 1 (n % 16) (if n = 0xE0 then 0xA0 else 0x80) (if n = 0xED then 0x9F else 0xBF))
  else if n < 0xF5 then
    ([], .within 2 (n % 8) (if n = 0xF0 then 0x90 else 0x80) (if n = 0xF4 then 0x8F else 0xBF))
  else (['\uFFFD'], .ready)

/-- One octet: an octet that cannot continue a code point ends it with a replacement
character and is read again as a first one. -/
def utf8Octet : Utf8State → Nat → List Char × Utf8State
  | .ready, n => utf8Lead n
  | .within pending code low high, n =>
      if low ≤ n ∧ n ≤ high then
        match pending with
        | 0 => ([Char.ofNat (code * 64 + n % 64)], .ready)
        | pending + 1 => ([], .within pending (code * 64 + n % 64) 0x80 0xBF)
      else ('\uFFFD' :: (utf8Lead n).1, (utf8Lead n).2)

def decodeReplacing : Utf8State → Bytes → List Char
  | .ready, [] => []
  | .within _ _ _ _, [] => ['\uFFFD']
  | state, b :: bs =>
      (utf8Octet state b.toNat).1 ++ decodeReplacing (utf8Octet state b.toNat).2 bs

/-- `bs.decode("utf-8", "replace")`. -/
def decodeUtf8Replace (bs : Bytes) : String := String.ofList (decodeReplacing .ready bs)

example : decodeUtf8Replace [0xC3, 0xA9, 0xE2, 0x82, 0x41] = "é\uFFFDA" := by decide +kernel

theorem decodeReplacing_cons (state : Utf8State) (b : UInt8) (bs : Bytes) :
    decodeReplacing state (b :: bs) =
      (utf8Octet state b.toNat).1 ++ decodeReplacing (utf8Octet state b.toNat).2 bs := by
  cases state <;> rfl

theorem toNat_ofNat_of_lt {n : Nat} (h : n < 256) : (UInt8.ofNat n).toNat = n := by
  simp [Nat.mod_eq_of_lt h]

theorem utf8Octet_within {pending code low high n : Nat} (h : low ≤ n ∧ n ≤ high) :
    utf8Octet (.within (pending + 1) code low high) n =
      ([], .within pending (code * 64 + n % 64) 0x80 0xBF) := by
  simp [utf8Octet, h]

theorem utf8Octet_last {code low high n : Nat} (h : low ≤ n ∧ n ≤ high) :
    utf8Octet (.within 0 code low high) n = ([Char.ofNat (code * 64 + n % 64)], .ready) := by
  simp [utf8Octet, h]

theorem utf8Lead_two {v : Nat} (hlow : 0x7f < v) (hhigh : v ≤ 0x7ff) :
    utf8Lead (v / 64 % 32 + 0xc0) = ([], .within 0 (v / 64) 0x80 0xBF) := by
  have hcode : (v / 64 % 32 + 0xc0) % 32 = v / 64 := by omega
  simp only [utf8Lead, if_neg (show ¬ v / 64 % 32 + 0xc0 < 0x80 by omega),
    if_neg (show ¬ v / 64 % 32 + 0xc0 < 0xC2 by omega),
    if_pos (show v / 64 % 32 + 0xc0 < 0xE0 by omega), hcode]

theorem utf8Lead_three {v : Nat} (hhigh : v ≤ 0xffff) :
    utf8Lead (v / 4096 % 16 + 0xe0) = ([], .within 1 (v / 4096)
      (if v / 4096 % 16 + 0xe0 = 0xE0 then 0xA0 else 0x80)
      (if v / 4096 % 16 + 0xe0 = 0xED then 0x9F else 0xBF)) := by
  have hcode : (v / 4096 % 16 + 0xe0) % 16 = v / 4096 := by omega
  simp only [utf8Lead, if_neg (show ¬ v / 4096 % 16 + 0xe0 < 0x80 by omega),
    if_neg (show ¬ v / 4096 % 16 + 0xe0 < 0xC2 by omega),
    if_neg (show ¬ v / 4096 % 16 + 0xe0 < 0xE0 by omega),
    if_pos (show v / 4096 % 16 + 0xe0 < 0xF0 by omega), hcode]

theorem utf8Lead_four {v : Nat} (hhigh : v < 0x110000) :
    utf8Lead (v / 262144 % 8 + 0xf0) = ([], .within 2 (v / 262144)
      (if v / 262144 % 8 + 0xf0 = 0xF0 then 0x90 else 0x80)
      (if v / 262144 % 8 + 0xf0 = 0xF4 then 0x8F else 0xBF)) := by
  have hcode : (v / 262144 % 8 + 0xf0) % 8 = v / 262144 := by omega
  simp only [utf8Lead, if_neg (show ¬ v / 262144 % 8 + 0xf0 < 0x80 by omega),
    if_neg (show ¬ v / 262144 % 8 + 0xf0 < 0xC2 by omega),
    if_neg (show ¬ v / 262144 % 8 + 0xf0 < 0xE0 by omega),
    if_neg (show ¬ v / 262144 % 8 + 0xf0 < 0xF0 by omega),
    if_pos (show v / 262144 % 8 + 0xf0 < 0xF5 by omega), hcode]

/-- The octets of one character are decoded to it, whatever follows. -/
theorem decodeReplacing_encodeChar (c : Char) (bs : Bytes) :
    decodeReplacing .ready (String.utf8EncodeChar c ++ bs) = c :: decodeReplacing .ready bs := by
  have hvalid : c.val.toNat.isValidChar := c.valid
  have hchar : Char.ofNat c.val.toNat = c := Char.ofNat_toNat c
  unfold String.utf8EncodeChar
  generalize hv : c.val.toNat = v at hvalid hchar
  have hbound : v < 0xD800 ∨ (0xDFFF < v ∧ v < 0x110000) := hvalid
  have hlast : v / 64 * 64 + (v % 64 + 0x80) % 64 = v := by omega
  -- The octets of the code point, one, two, three or four of them.
  simp only []
  by_cases h1 : v ≤ 0x7f
  · rw [if_pos h1, List.singleton_append, decodeReplacing_cons, toNat_ofNat_of_lt (by omega)]
    simp only [utf8Octet, utf8Lead, if_pos (show v < 0x80 by omega), hchar, List.singleton_append]
  rw [if_neg h1]
  by_cases h2 : v ≤ 0x7ff
  · rw [if_pos h2]
    simp only [List.cons_append, List.nil_append, decodeReplacing_cons]
    rw [toNat_ofNat_of_lt (by omega), toNat_ofNat_of_lt (by omega), utf8Octet,
      utf8Lead_two (by omega) h2, utf8Octet_last (by omega), hlast, hchar]
    rfl
  rw [if_neg h2]
  have hthird : v / 4096 * 64 + (v / 64 % 64 + 0x80) % 64 = v / 64 := by omega
  by_cases h3 : v ≤ 0xffff
  · have hrange : (if v / 4096 % 16 + 0xe0 = 0xE0 then 0xA0 else 0x80) ≤ v / 64 % 64 + 0x80 ∧
        v / 64 % 64 + 0x80 ≤ (if v / 4096 % 16 + 0xe0 = 0xED then 0x9F else 0xBF) := by
      constructor <;> split <;> omega
    rw [if_pos h3]
    simp only [List.cons_append, List.nil_append, decodeReplacing_cons]
    rw [toNat_ofNat_of_lt (by omega), toNat_ofNat_of_lt (by omega), toNat_ofNat_of_lt (by omega),
      utf8Octet, utf8Lead_three h3, utf8Octet_within hrange, hthird,
      utf8Octet_last (by omega), hlast, hchar]
    rfl
  · have hrange : (if v / 262144 % 8 + 0xf0 = 0xF0 then 0x90 else 0x80) ≤ v / 4096 % 64 + 0x80 ∧
        v / 4096 % 64 + 0x80 ≤ (if v / 262144 % 8 + 0xf0 = 0xF4 then 0x8F else 0xBF) := by
      constructor <;> split <;> omega
    have hsecond : v / 262144 * 64 + (v / 4096 % 64 + 0x80) % 64 = v / 4096 := by omega
    rw [if_neg h3]
    simp only [List.cons_append, List.nil_append, decodeReplacing_cons]
    rw [toNat_ofNat_of_lt (by omega), toNat_ofNat_of_lt (by omega), toNat_ofNat_of_lt (by omega),
      toNat_ofNat_of_lt (by omega), utf8Octet, utf8Lead_four (by omega), utf8Octet_within hrange,
      hsecond, utf8Octet_within (by omega), hthird, utf8Octet_last (by omega), hlast, hchar]
    rfl

theorem decodeUtf8Replace_encodeUtf8 (s : String) : decodeUtf8Replace (encodeUtf8 s) = s := by
  have hchars : ∀ cs : List Char,
      decodeReplacing .ready (cs.flatMap String.utf8EncodeChar) = cs := by
    intro cs
    induction cs with
    | nil => rfl
    | cons c cs ih => rw [List.flatMap_cons, decodeReplacing_encodeChar, ih]
  unfold decodeUtf8Replace encodeUtf8
  rw [hchars, String.ofList_toList]

/-! ## Quoting -/

/-- The octets that `quote` never escapes. -/
def isAlwaysSafe (b : UInt8) : Bool :=
  let n := b.toNat
  (0x30 ≤ n && n ≤ 0x39) || (0x41 ≤ n && n ≤ 0x5a) || (0x61 ≤ n && n ≤ 0x7a) ||
    n == 0x5f || n == 0x2e || n == 0x2d || n == 0x7e

/-- What `quote(s, safe=" ")` leaves as it is. -/
def isPlusSafe (b : UInt8) : Bool := isAlwaysSafe b || b == 0x20

def replaceChar (old new : Char) (cs : List Char) : List Char :=
  cs.map fun c => if c = old then new else c

def quotePlus (s : String) : String :=
  String.ofList (replaceChar ' ' '+' (escape isPlusSafe (encodeUtf8 s)))

def isAscii (c : Char) : Bool := c.toNat < 0x80

/-- `unquote(s)`: the octets of each run of ASCII characters are decoded together. -/
def unquote (cs : List Char) : List Char :=
  if '%' ∈ cs then
    (cs.splitBy fun a b => isAscii a == isAscii b).flatMap fun run =>
      if run.all isAscii then decodeReplacing .ready (unescape run) else run
  else cs

/-- A field of a query string as `parse_qsl` reads it. -/
def unquotePlus (cs : List Char) : String := String.ofList (unquote (replaceChar '+' ' ' cs))

theorem isPlusSafe_marked : Marked isPlusSafe := by
  show isPlusSafe 37 = false
  decide

theorem isPlusSafe_octet {b : UInt8} (h : isPlusSafe b = true) :
    b.toNat < 0x80 ∧ b.toNat ≠ 0x2b ∧ b.toNat ≠ 0x26 ∧ b.toNat ≠ 0x3d ∧ b.toNat ≠ 0x23 := by
  simp only [isPlusSafe, isAlwaysSafe, Bool.or_eq_true, Bool.and_eq_true, decide_eq_true_eq,
    beq_iff_eq] at h
  rcases h with h | rfl
  · omega
  · decide

/-- What an escaped text is made of: no separator of a query string and no plus sign. -/
theorem escaped_char {bs : Bytes} {c : Char} (h : c ∈ escape isPlusSafe bs) :
    isAscii c = true ∧ c ≠ '+' ∧ c ≠ '&' ∧ c ≠ '=' ∧ c ≠ '#' := by
  rcases mem_escape h with ⟨b, hb, rfl⟩ | rfl | ⟨n, hn, rfl⟩
  · obtain ⟨hlt, hplus, hamp, heq, hhash⟩ := isPlusSafe_octet hb
    have hcode := toNat_ofNat_octet b
    have code : ∀ d : Char, d.toNat ≠ b.toNat → Char.ofNat b.toNat ≠ d := by
      intro d hd hc
      rw [hc] at hcode
      exact hd hcode
    refine ⟨?_, code '+' (Ne.symm hplus), code '&' (Ne.symm hamp), code '=' (Ne.symm heq),
      code '#' (Ne.symm hhash)⟩
    simpa [isAscii, hcode] using hlt
  · decide
  · have table : ∀ k : Fin 16, isAscii (hexUpper k.val) = true ∧ hexUpper k.val ≠ '+' ∧
        hexUpper k.val ≠ '&' ∧ hexUpper k.val ≠ '=' ∧ hexUpper k.val ≠ '#' := by decide
    exact table ⟨n, hn⟩

/-- Plus signs are read back as the spaces they were written for. -/
theorem replaceChar_back {cs : List Char} (h : ∀ c ∈ cs, c ≠ '+') :
    replaceChar '+' ' ' (replaceChar ' ' '+' cs) = cs := by
  induction cs with
  | nil => rfl
  | cons c cs ih =>
      have hc := h c List.mem_cons_self
      have hrest := ih fun d hd => h d (List.mem_cons_of_mem _ hd)
      simp only [replaceChar, List.map_cons] at hrest ⊢
      rw [hrest]
      by_cases hspace : c = ' '
      · simp [hspace]
      · simp [hspace, hc]

theorem decodeReplacing_unescape_plain {cs : List Char} (hascii : ∀ c ∈ cs, isAscii c = true)
    (hplain : '%' ∉ cs) : decodeReplacing .ready (unescape cs) = cs := by
  induction cs with
  | nil => rfl
  | cons c cs ih =>
      have hc : c.toNat < 0x80 := by simpa [isAscii] using hascii c List.mem_cons_self
      have hne : c ≠ '%' := fun heq => hplain (heq ▸ List.mem_cons_self)
      have hrest := ih (fun d hd => hascii d (List.mem_cons_of_mem _ hd))
        fun hmem => hplain (List.mem_cons_of_mem _ hmem)
      rw [unescape_cons hne, decodeReplacing_cons, toNat_ofNat_of_lt (by omega), utf8Octet,
        utf8Lead, if_pos hc, hrest, Char.ofNat_toNat]
      rfl

theorem unquote_ascii {cs : List Char} (h : ∀ c ∈ cs, isAscii c = true) :
    unquote cs = decodeReplacing .ready (unescape cs) := by
  unfold unquote
  by_cases hmem : '%' ∈ cs
  · have hne : cs ≠ [] := List.ne_nil_of_mem hmem
    have hrun : (cs.splitBy fun a b => isAscii a == isAscii b) = [cs] := by
      apply List.splitBy_of_isChain hne
      apply List.Pairwise.isChain
      apply List.pairwise_of_forall_mem_list
      intro a ha b hb
      rw [h a ha, h b hb]
      rfl
    rw [if_pos hmem, hrun, List.flatMap_singleton, if_pos (List.all_eq_true.mpr h)]
  · rw [if_neg hmem, decodeReplacing_unescape_plain h hmem]

theorem unquotePlus_quotePlus (s : String) : unquotePlus (quotePlus s).toList = s := by
  have hchars : ∀ c ∈ escape isPlusSafe (encodeUtf8 s), _ := fun c hc => escaped_char hc
  unfold unquotePlus quotePlus
  rw [String.toList_ofList, replaceChar_back fun c hc => (hchars c hc).2.1,
    unquote_ascii fun c hc => (hchars c hc).1, unescape_escape isPlusSafe_marked]
  exact decodeUtf8Replace_encodeUtf8 s

/-! ## Query strings -/

/-- `s.split(sep, 1)`: what stands before the first separator and, if there is one,
what stands after it. -/
def splitOnce (sep : Char) (cs : List Char) : List Char × Option (List Char) :=
  match cs.dropWhile (· ≠ sep) with
  | [] => (cs, none)
  | _ :: after => (cs.takeWhile (· ≠ sep), some after)

def urlencode (params : List (String × String)) : String :=
  String.ofList (List.intercalate ['&'] (params.map fun param =>
    (quotePlus param.1).toList ++ '=' :: (quotePlus param.2).toList))

/-- One field of a query string; a field without a value counts for nothing. -/
def queryField (field : List Char) : Option (String × String) :=
  match splitOnce '=' field with
  | (_, none) => none
  | (name, some value) => if value = [] then none else some (unquotePlus name, unquotePlus value)

/-- `parse_qsl(qs)`: what `parse_qs` groups by name. -/
def parseQsl (qs : String) : List (String × String) :=
  (splitList '&' qs.toList).filterMap queryField

/-- `parse_qs(qs).get(name, [None])[0]`. -/
def queryValue (params : List (String × String)) (name : String) : Option String :=
  params.lookup name

theorem splitOnce_append {sep : Char} {before after : List Char} (h : sep ∉ before) :
    splitOnce sep (before ++ sep :: after) = (before, some after) := by
  have hbefore : ∀ c ∈ before, decide (c ≠ sep) = true := by
    intro c hc
    exact decide_eq_true fun heq => h (heq ▸ hc)
  unfold splitOnce
  rw [List.dropWhile_append_of_pos hbefore, List.takeWhile_append_of_pos hbefore]
  simp

theorem quoted_char {s : String} {c : Char} (h : c ∈ (quotePlus s).toList) :
    c ≠ '&' ∧ c ≠ '=' ∧ c ≠ '#' := by
  unfold quotePlus at h
  rw [String.toList_ofList] at h
  obtain ⟨d, hd, rfl⟩ := List.mem_map.mp h
  obtain ⟨-, -, hamp, heq, hhash⟩ := escaped_char hd
  by_cases hspace : d = ' '
  · rw [if_pos hspace]
    decide
  · rw [if_neg hspace]
    exact ⟨hamp, heq, hhash⟩

theorem quotePlus_eq_nil_iff {s : String} : (quotePlus s).toList = [] ↔ s = "" := by
  constructor
  · intro h
    have hback := unquotePlus_quotePlus s
    rw [h] at hback
    exact hback.symm
  · rintro rfl
    rfl

theorem queryField_quoted (param : String × String) :
    queryField ((quotePlus param.1).toList ++ '=' :: (quotePlus param.2).toList) =
      if param.2 = "" then none else some param := by
  have hsep : '=' ∉ (quotePlus param.1).toList := fun hmem => (quoted_char hmem).2.1 rfl
  unfold queryField
  rw [splitOnce_append hsep]
  by_cases hblank : param.2 = ""
  · rw [if_pos hblank]
    simp only [if_pos (quotePlus_eq_nil_iff.mpr hblank)]
  · rw [if_neg hblank]
    simp only [if_neg (mt quotePlus_eq_nil_iff.mp hblank), unquotePlus_quotePlus]

/-- The query a client writes is read back, but for the parameters whose value is
empty. -/
theorem parseQsl_urlencode (params : List (String × String)) :
    parseQsl (urlencode params) = params.filter fun param => param.2 ≠ "" := by
  unfold parseQsl urlencode
  rw [String.toList_ofList]
  cases params with
  | nil => rfl
  | cons param params =>
      rw [splitList_intercalate (by simp)]
      · rw [List.filterMap_map]
        have hfield : (queryField ∘ fun param : String × String =>
            (quotePlus param.1).toList ++ '=' :: (quotePlus param.2).toList) =
              Option.guard fun param => decide (param.2 ≠ "") := by
          funext p
          rw [Function.comp, queryField_quoted]
          by_cases hblank : p.2 = "" <;> simp [Option.guard, hblank]
        rw [hfield, List.filterMap_eq_filter]
      · intro field hfield hmem
        obtain ⟨p, -, rfl⟩ := List.mem_map.mp hfield
        rcases List.mem_append.mp hmem with h | h
        · exact (quoted_char h).1 rfl
        · rcases List.mem_cons.mp h with h | h
          · exact absurd h (by decide)
          · exact (quoted_char h).1 rfl

/-! ## Request targets -/

def cutParams : List (List Char) → List (List Char)
  | [] => []
  | [last] => [last.takeWhile (· ≠ ';')]
  | segment :: next :: rest => segment :: cutParams (next :: rest)

/-- `urlparse(target)` of a target in origin form, its path and its query. -/
def urlparse (target : List Char) : List Char × List Char :=
  let url := target.takeWhile (· ≠ '#')
  let (path, query) := splitOnce '?' url
  (List.intercalate ['/'] (cutParams (splitList '/' path)), query.getD [])

example : urlparse "/v1/alerts;p?a=1&b=%20#x".toList =
    ("/v1/alerts".toList, "a=1&b=%20".toList) := by decide +kernel

/-! ## What is sent of a URL -/

def isPrintable (c : Char) : Bool := 0x21 ≤ c.toNat && c.toNat ≤ 0x7e

/-- `url.rpartition(sep)[0]`, or the whole text where there is no separator. -/
def beforeLast (sep : Char) (cs : List Char) : List Char :=
  match cs.reverse.dropWhile (· ≠ sep) with
  | [] => cs
  | _ :: rest => rest.reverse

/-- `Request(base + target).selector`: the URL is stripped and its fragment cut off. -/
def selector (target : List Char) : List Char :=
  beforeLast '#' (target.reverse.dropWhile isSpace).reverse

theorem not_isSpace_of_isPrintable {c : Char} (h : isPrintable c = true) : isSpace c = false := by
  simp only [isPrintable, Bool.and_eq_true, decide_eq_true_eq] at h
  by_contra hspace
  simp only [isSpace, isIntSpace, Bool.not_eq_false, Bool.or_eq_true, Bool.and_eq_true,
    decide_eq_true_eq, beq_iff_eq] at hspace
  omega

theorem selector_eq_self {target : List Char} (hprint : ∀ c ∈ target, isPrintable c = true)
    (hfragment : '#' ∉ target) : selector target = target := by
  have hstrip : target.reverse.dropWhile isSpace = target.reverse := by
    apply dropWhile_of_head
    intro c hc
    exact not_isSpace_of_isPrintable (hprint c (List.mem_reverse.mp hc))
  have hcut : target.reverse.dropWhile (· ≠ '#') = [] := by
    rw [List.dropWhile_eq_nil_iff]
    intro c hc
    exact decide_eq_true fun heq => hfragment (heq ▸ List.mem_reverse.mp hc)
  rw [selector, hstrip, List.reverse_reverse, beforeLast, hcut]

theorem quoted_printable {s : String} {c : Char} (h : c ∈ (quotePlus s).toList) :
    isPrintable c = true := by
  unfold quotePlus at h
  rw [String.toList_ofList] at h
  obtain ⟨d, hd, rfl⟩ := List.mem_map.mp h
  by_cases hspace : d = ' '
  · rw [if_pos hspace]
    decide
  · rw [if_neg hspace]
    rcases mem_escape hd with ⟨b, hb, rfl⟩ | rfl | ⟨n, hn, rfl⟩
    · have hcode := toNat_ofNat_octet b
      have hne : b.toNat ≠ 0x20 := by
        intro heq
        exact hspace (by rw [heq])
      have hblank : b ≠ 0x20 := fun heq => hne (by rw [heq]; rfl)
      simp only [isPlusSafe, isAlwaysSafe, Bool.or_eq_true, Bool.and_eq_true, decide_eq_true_eq,
        beq_iff_eq, hblank, or_false] at hb
      simp only [isPrintable, hcode, Bool.and_eq_true, decide_eq_true_eq]
      omega
    · decide
    · have table : ∀ k : Fin 16, isPrintable (hexUpper k.val) = true := by decide
      exact table ⟨n, hn⟩

theorem mem_intercalate {sep : Char} {pieces : List (List Char)} {c : Char}
    (h : c ∈ List.intercalate [sep] pieces) : c = sep ∨ ∃ piece ∈ pieces, c ∈ piece := by
  induction pieces with
  | nil => exact absurd h List.not_mem_nil
  | cons piece pieces ih =>
      cases pieces with
      | nil =>
          rw [List.intercalate_singleton] at h
          exact .inr ⟨piece, List.mem_cons_self, h⟩
      | cons next pieces =>
          rw [List.intercalate_cons_cons, List.mem_append, List.mem_append,
            List.mem_singleton] at h
          rcases h with (h | h) | h
          · exact .inr ⟨piece, List.mem_cons_self, h⟩
          · exact .inl h
          · rcases ih h with h | ⟨q, hq, hc⟩
            · exact .inl h
            · exact .inr ⟨q, List.mem_cons_of_mem _ hq, hc⟩

theorem urlencoded_char {params : List (String × String)} {c : Char}
    (h : c ∈ (urlencode params).toList) : isPrintable c = true ∧ c ≠ '#' := by
  unfold urlencode at h
  rw [String.toList_ofList] at h
  rcases mem_intercalate h with rfl | ⟨field, hfield, hc⟩
  · decide
  · obtain ⟨param, -, rfl⟩ := List.mem_map.mp hfield
    rcases List.mem_append.mp hc with hc | hc
    · exact ⟨quoted_printable hc, (quoted_char hc).2.2⟩
    · rcases List.mem_cons.mp hc with rfl | hc
      · decide
      · exact ⟨quoted_printable hc, (quoted_char hc).2.2⟩

/-! ## The parts of a route -/

theorem mem_piece {sep : Char} {cs piece : List Char} (h : piece ∈ splitList sep cs) :
    ∀ c ∈ piece, c ≠ sep ∧ c ∈ cs := by
  induction cs generalizing piece with
  | nil =>
      rw [splitList, List.mem_singleton] at h
      simp [h]
  | cons d cs ih =>
      have hrest : ∀ piece ∈ splitList sep cs, ∀ c ∈ piece, c ≠ sep ∧ c ∈ d :: cs := by
        intro piece hmem c hc
        exact ⟨(ih hmem c hc).1, List.mem_cons_of_mem _ (ih hmem c hc).2⟩
      rw [splitList] at h
      by_cases hd : d = sep
      · rw [if_pos hd] at h
        rcases List.mem_cons.mp h with rfl | h
        · simp
        · exact hrest piece h
      · rw [if_neg hd] at h
        cases hsplit : splitList sep cs with
        | nil => exact absurd hsplit (splitList_ne_nil sep cs)
        | cons first pieces =>
            rw [hsplit] at h hrest
            rcases List.mem_cons.mp h with rfl | h
            · intro c hc
              rcases List.mem_cons.mp hc with rfl | hc
              · exact ⟨hd, List.mem_cons_self⟩
              · exact hrest first List.mem_cons_self c hc
            · exact hrest piece (List.mem_cons_of_mem _ h)

theorem intercalate_splitList (sep : Char) (cs : List Char) :
    List.intercalate [sep] (splitList sep cs) = cs := by
  induction cs with
  | nil => rfl
  | cons c cs ih =>
      rw [splitList]
      cases hsplit : splitList sep cs with
      | nil => exact absurd hsplit (splitList_ne_nil sep cs)
      | cons piece pieces =>
          rw [hsplit] at ih
          by_cases hc : c = sep
          · rw [if_pos hc, List.intercalate_cons_cons, ih, hc]
            rfl
          · rw [if_neg hc]
            cases pieces with
            | nil => rw [List.intercalate_singleton] at ih ⊢; rw [ih]
            | cons next pieces =>
                rw [List.intercalate_cons_cons] at ih ⊢
                rw [← ih]
                rfl

theorem cutParams_ne_nil {pieces : List (List Char)} (h : pieces ≠ []) : cutParams pieces ≠ [] := by
  match pieces, h with
  | [last], _ => simp [cutParams]
  | piece :: next :: rest, _ => simp [cutParams]

theorem mem_cutParams {pieces : List (List Char)} {piece : List Char}
    (h : piece ∈ cutParams pieces) : ∃ whole ∈ pieces, ∀ c ∈ piece, c ∈ whole := by
  induction pieces using cutParams.induct with
  | case1 => exact absurd h List.not_mem_nil
  | case2 last =>
      rw [cutParams, List.mem_singleton] at h
      refine ⟨last, List.mem_cons_self, fun c hc => ?_⟩
      rw [h] at hc
      exact (List.takeWhile_sublist _).subset hc
  | case3 segment next rest ih =>
      rw [cutParams] at h
      rcases List.mem_cons.mp h with rfl | h
      · exact ⟨piece, List.mem_cons_self, fun _ hc => hc⟩
      · obtain ⟨whole, hwhole, hsub⟩ := ih h
        exact ⟨whole, List.mem_cons_of_mem _ hwhole, hsub⟩

theorem getLast?_cutParams {pieces : List (List Char)} {piece : List Char}
    (h : (cutParams pieces).getLast? = some piece) : ';' ∉ piece := by
  induction pieces using cutParams.induct with
  | case1 => simp [cutParams] at h
  | case2 last =>
      rw [cutParams, List.getLast?_singleton, Option.some.injEq] at h
      intro hmem
      rw [← h] at hmem
      simpa using List.mem_takeWhile_imp hmem
  | case3 segment next rest ih =>
      rw [cutParams] at h
      cases hrest : cutParams (next :: rest) with
      | nil => exact absurd hrest (cutParams_ne_nil (by simp))
      | cons first others =>
          rw [hrest] at ih h
          apply ih
          rwa [List.getLast?_cons_cons] at h

theorem cutParams_eq_self {pieces : List (List Char)}
    (h : ∀ last, pieces.getLast? = some last → ';' ∉ last) : cutParams pieces = pieces := by
  induction pieces using cutParams.induct with
  | case1 => rfl
  | case2 last =>
      have hlast := h last rfl
      have hkeep : last.takeWhile (· ≠ ';') = last :=
        List.takeWhile_eq_self_iff.mpr fun c hc => decide_eq_true fun heq => hlast (heq ▸ hc)
      rw [cutParams, hkeep]
  | case3 segment next rest ih =>
      rw [cutParams, ih]
      intro last hlast
      exact h last (by rwa [List.getLast?_cons_cons])

/-- The pieces of the route that a target is routed by. -/
theorem splitList_route (target : List Char) :
    splitList '/' (urlparse target).1 =
      cutParams (splitList '/' (splitOnce '?' (target.takeWhile (· ≠ '#'))).1) := by
  apply splitList_intercalate (cutParams_ne_nil (splitList_ne_nil _ _))
  intro piece hpiece hmem
  obtain ⟨whole, hwhole, hsub⟩ := mem_cutParams hpiece
  exact (mem_piece hwhole _ (hsub _ hmem)).1 rfl

theorem mem_splitOnce {sep c : Char} {cs : List Char} (h : c ∈ (splitOnce sep cs).1) :
    c ≠ sep ∧ c ∈ cs := by
  unfold splitOnce at h
  split at h
  case h_1 hdrop =>
    refine ⟨fun heq => ?_, h⟩
    have hall := List.dropWhile_eq_nil_iff.mp hdrop c h
    simp [heq] at hall
  case h_2 =>
    have hne := List.mem_takeWhile_imp h
    exact ⟨by simpa using hne, (List.takeWhile_sublist _).subset h⟩

/-- No piece of a route has a separator of targets in it. -/
theorem mem_route_piece {target piece : List Char}
    (h : piece ∈ splitList '/' (urlparse target).1) {c : Char} (hc : c ∈ piece) :
    c ∈ target ∧ c ≠ '/' ∧ c ≠ '?' ∧ c ≠ '#' := by
  rw [splitList_route] at h
  obtain ⟨whole, hwhole, hsub⟩ := mem_cutParams h
  obtain ⟨hslash, hpath⟩ := mem_piece hwhole c (hsub c hc)
  obtain ⟨hquery, hurl⟩ := mem_splitOnce hpath
  have hhash := List.mem_takeWhile_imp hurl
  exact ⟨(List.takeWhile_sublist _).subset hurl, hslash, hquery, by simpa using hhash⟩

theorem last_route_piece {target piece : List Char}
    (h : (splitList '/' (urlparse target).1).getLast? = some piece) : ';' ∉ piece := by
  rw [splitList_route] at h
  exact getLast?_cutParams h

/-- A path without parameters, and its query, if it has one. -/
theorem urlparse_path {path : List Char} (hhash : '#' ∉ path) (hquery : '?' ∉ path)
    (hparams : ∀ last, (splitList '/' path).getLast? = some last → ';' ∉ last) :
    urlparse path = (path, []) := by
  have hurl : path.takeWhile (· ≠ '#') = path :=
    List.takeWhile_eq_self_iff.mpr fun c hc => decide_eq_true fun heq => hhash (heq ▸ hc)
  have hsplit : splitOnce '?' path = (path, none) := by
    have hdrop : path.dropWhile (· ≠ '?') = [] :=
      List.dropWhile_eq_nil_iff.mpr fun c hc => decide_eq_true fun heq => hquery (heq ▸ hc)
    unfold splitOnce
    rw [hdrop]
  simp only [urlparse, hurl, hsplit, cutParams_eq_self hparams, intercalate_splitList,
    Option.getD_none]

theorem urlparse_query {path query : List Char} (hhash : '#' ∉ path) (hquery : '?' ∉ path)
    (hfragment : '#' ∉ query)
    (hparams : ∀ last, (splitList '/' path).getLast? = some last → ';' ∉ last) :
    urlparse (path ++ '?' :: query) = (path, query) := by
  have hurl : (path ++ '?' :: query).takeWhile (· ≠ '#') = path ++ '?' :: query := by
    rw [List.takeWhile_eq_self_iff]
    intro c hc
    apply decide_eq_true
    rintro rfl
    simp [hhash, hfragment] at hc
  simp only [urlparse, hurl, splitOnce_append hquery, cutParams_eq_self hparams,
    intercalate_splitList, Option.getD_some]

end NetForge.Python
