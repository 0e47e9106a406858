import Mathlib.Data.List.Basic
import Mathlib.Tactic.Common

/-! # Regular expressions with backtracking

An expression yields its matches at the start of a text in the order in which a backtracking
matcher tries them. Searching takes the first of them at the first position that has one, and
finding all goes on behind it.
-/

namespace NetForge.Calculus

/-- Expressions over classes of symbols. Only runs of one class are repeated without bound. -/
inductive Regex (α : Type)
  | nothing
  | one (p : α → Bool)
  | seq (first second : Regex α)
  | alt (first second : Regex α)
  | star (p : α → Bool)
  | group (inner : Regex α)
  | look (p : List α → Bool)

namespace Regex

variable {α : Type}

/-- What the groups took and what is left of the text. -/
structure Match (α : Type) where
  groups : List (List α)
  rest : List α

@[grind =] def afterRun (p : α → Bool) : List α → List (List α)
  | [] => [[]]
  | c :: cs => if p c then afterRun p cs ++ [c :: cs] else [c :: cs]

@[grind =] def parses : Regex α → List α → List (Match α)
  | .nothing, cs => [⟨[], cs⟩]
  | .one _, [] => []
  | .one p, c :: cs => if p c then [⟨[], cs⟩] else []
  | .seq r s, cs =>
      (r.parses cs).flatMap fun m =>
        (s.parses m.rest).map fun n => ⟨m.groups ++ n.groups, n.rest⟩
  | .alt r s, cs => r.parses cs ++ s.parses cs
  | .star p, cs => (afterRun p cs).map fun rest => ⟨[], rest⟩
  | .group r, cs =>
      (r.parses cs).map fun m => ⟨cs.take (cs.length - m.rest.length) :: m.groups, m.rest⟩
  | .look p, cs => if p cs then [⟨[], cs⟩] else []

def plus (p : α → Bool) : Regex α := .seq (.one p) (.star p)

def opt (r : Regex α) : Regex α := .alt r .nothing

def upTo (p : α → Bool) : Nat → Regex α
  | 0 => .nothing
  | n + 1 => opt (.seq (.one p) (upTo p n))

def word (ps : List (α → Bool)) : Regex α := ps.foldr (fun p r => .seq (.one p) r) .nothing

def parse? (r : Regex α) (cs : List α) : Option (Match α) := (r.parses cs).head?

def search (r : Regex α) : List α → Option (List (List α))
  | [] => (r.parse? []).map (·.groups)
  | c :: cs => ((r.parse? (c :: cs)).map (·.groups)).or (search r cs)

/-- The groups of all matches after `skip` symbols, none beginning before the last one's end.
For expressions that match no empty text. -/
def findFrom (r : Regex α) : Nat → List α → List (List (List α))
  | _, [] => []
  | skip + 1, _ :: cs => findFrom r skip cs
  | 0, c :: cs =>
      match r.parse? (c :: cs) with
      | some m => m.groups :: findFrom r (cs.length - m.rest.length) cs
      | none => findFrom r 0 cs

def findAll (r : Regex α) (cs : List α) : List (List (List α)) := findFrom r 0 cs

/-! ## Classes -/

theorem afterRun_of_not {p : α → Bool} {c : α} (h : p c = false) (cs : List α) :
    afterRun p (c :: cs) = [c :: cs] := by
  grind

theorem parses_one {p : α → Bool} {c : α} (h : p c = true) (cs : List α) :
    (one p).parses (c :: cs) = [⟨[], cs⟩] := by
  grind

theorem parses_one_of_not {p : α → Bool} {c : α} (h : p c = false) (cs : List α) :
    (one p).parses (c :: cs) = [] := by
  grind

theorem parses_seq_none {r : Regex α} {cs : List α} (h : r.parses cs = []) (s : Regex α) :
    (seq r s).parses cs = [] := by
  rw [parses, h]
  rfl

/-! ## Suffixes -/

theorem suffix_of_mem_afterRun {p : α → Bool} {cs rest : List α} (h : rest ∈ afterRun p cs) :
    rest <:+ cs := by
  induction cs with
  | nil =>
      obtain rfl := List.mem_singleton.mp h
      exact List.suffix_rfl
  | cons c cs ih =>
      rw [afterRun] at h
      split at h
      · rcases List.mem_append.mp h with hlater | hhere
        · exact (ih hlater).trans (List.suffix_cons c cs)
        · obtain rfl := List.mem_singleton.mp hhere
          exact List.suffix_rfl
      · obtain rfl := List.mem_singleton.mp h
        exact List.suffix_rfl

theorem suffix_of_mem {r : Regex α} {cs : List α} {m : Match α} (h : m ∈ r.parses cs) :
    m.rest <:+ cs := by
  induction r generalizing cs m with
  | nothing =>
      obtain rfl := List.mem_singleton.mp h
      exact List.suffix_rfl
  | one p =>
      cases cs with
      | nil => simp [parses] at h
      | cons c cs =>
          rw [parses] at h
          split at h
          · obtain rfl := List.mem_singleton.mp h
            exact List.suffix_cons c cs
          · cases h
  | seq r s ihr ihs =>
      rw [parses, List.mem_flatMap] at h
      obtain ⟨first, hfirst, hsecond⟩ := h
      obtain ⟨second, hmem, rfl⟩ := List.mem_map.mp hsecond
      exact (ihs hmem).trans (ihr hfirst)
  | alt r s ihr ihs =>
      rw [parses, List.mem_append] at h
      rcases h with hr | hs
      · exact ihr hr
      · exact ihs hs
  | star p =>
      rw [parses] at h
      obtain ⟨rest, hmem, rfl⟩ := List.mem_map.mp h
      exact suffix_of_mem_afterRun hmem
  | group r ih =>
      rw [parses] at h
      obtain ⟨inner, hmem, rfl⟩ := List.mem_map.mp h
      have hinner := ih hmem
      exact hinner
  | look p =>
      rw [parses] at h
      split at h
      · obtain rfl := List.mem_singleton.mp h
        exact List.suffix_rfl
      · cases h

/-! ## Barriers -/

/-- No class takes `c` and nothing looks ahead: a match cannot reach beyond a `c`. -/
def avoids (c : α) : Regex α → Bool
  | .nothing => true
  | .one p => !p c
  | .seq r s => r.avoids c && s.avoids c
  | .alt r s => r.avoids c && s.avoids c
  | .star p => !p c
  | .group r => r.avoids c
  | .look _ => false

/-- A match can take `c` only as its first symbol. -/
def avoidsLater (c : α) : Regex α → Bool
  | .nothing => true
  | .one _ => true
  | .seq r s => r.avoidsLater c && s.avoids c
  | .alt r s => r.avoidsLater c && s.avoidsLater c
  | .star p => !p c
  | .group r => r.avoidsLater c
  | .look _ => false

def Match.extend (more : List α) (m : Match α) : Match α := ⟨m.groups, m.rest ++ more⟩

theorem afterRun_append {p : α → Bool} {c : α} (h : p c = false) (as bs : List α) :
    afterRun p (as ++ c :: bs) = (afterRun p as).map (· ++ c :: bs) := by
  induction as with
  | nil =>
      rw [List.nil_append, afterRun_of_not h]
      rfl
  | cons a as ih =>
      rw [List.cons_append, afterRun, afterRun, ih]
      split
      · rw [List.map_append]
        rfl
      · rfl

/-- What two expressions in sequence match, where each is extended alike. -/
theorem parses_seq_extend {r s : Regex α} {as more : List α}
    (hr : r.parses (as ++ more) = (r.parses as).map (Match.extend more))
    (hs : ∀ m ∈ r.parses as, s.parses (m.rest ++ more) =
      (s.parses m.rest).map (Match.extend more)) :
    (seq r s).parses (as ++ more) = ((seq r s).parses as).map (Match.extend more) := by
  rw [parses, parses, hr, List.flatMap_map, List.map_flatMap]
  refine List.flatMap_congr fun m hm => ?_
  have hm' := hs m hm
  rw [show (Match.extend more m).rest = m.rest ++ more from rfl, hm', List.map_map, List.map_map]
  rfl

theorem parses_group_extend {r : Regex α} {as more : List α}
    (hr : r.parses (as ++ more) = (r.parses as).map (Match.extend more)) :
    (group r).parses (as ++ more) = ((group r).parses as).map (Match.extend more) := by
  rw [parses, parses, hr, List.map_map, List.map_map]
  refine List.map_congr_left fun m hm => ?_
  have hle : m.rest.length ≤ as.length := (suffix_of_mem hm).length_le
  have htake : (as ++ more).length - (m.rest ++ more).length = as.length - m.rest.length := by
    simp only [List.length_append]
    omega
  show (⟨(as ++ more).take ((as ++ more).length - (m.rest ++ more).length) :: m.groups,
    m.rest ++ more⟩ : Match α) = ⟨as.take (as.length - m.rest.length) :: m.groups, m.rest ++ more⟩
  rw [htake, List.take_append_of_le_length (Nat.sub_le _ _)]

/-- Before a symbol that no class takes, an expression matches as if the text ended there. -/
theorem parses_append {r : Regex α} {c : α} (h : r.avoids c = true) (as bs : List α) :
    r.parses (as ++ c :: bs) = (r.parses as).map (Match.extend (c :: bs)) := by
  induction r generalizing as with
  | nothing => rfl
  | one p =>
      have hc : p c = false := by simpa [avoids] using h
      cases as with
      | nil =>
          rw [List.nil_append, parses_one_of_not hc]
          rfl
      | cons a as =>
          rw [List.cons_append, parses, parses]
          split <;> rfl
  | seq r s ihr ihs =>
      simp only [avoids, Bool.and_eq_true] at h
      exact parses_seq_extend (ihr h.1 as) fun m _ => ihs h.2 m.rest
  | alt r s ihr ihs =>
      simp only [avoids, Bool.and_eq_true] at h
      rw [parses, parses, ihr h.1, ihs h.2, List.map_append]
  | star p =>
      have hc : p c = false := by simpa [avoids] using h
      rw [parses, parses, afterRun_append hc, List.map_map, List.map_map]
      rfl
  | group r ih => exact parses_group_extend (ih h as)
  | look p => simp [avoids] at h

/-- The same before a symbol that can only be the first of a match, where it is not. -/
theorem parses_append_later {r : Regex α} {c : α} (h : r.avoidsLater c = true) {as : List α}
    (hne : as ≠ []) (bs : List α) :
    r.parses (as ++ c :: bs) = (r.parses as).map (Match.extend (c :: bs)) := by
  induction r with
  | nothing => rfl
  | one p =>
      cases as with
      | nil => exact absurd rfl hne
      | cons a as =>
          rw [List.cons_append, parses, parses]
          split <;> rfl
  | seq r s ihr ihs =>
      simp only [avoidsLater, Bool.and_eq_true] at h
      exact parses_seq_extend (ihr h.1) fun m _ => parses_append h.2 m.rest bs
  | alt r s ihr ihs =>
      simp only [avoidsLater, Bool.and_eq_true] at h
      rw [parses, parses, ihr h.1, ihs h.2, List.map_append]
  | star p => exact parses_append (r := star p) (by simpa [avoids, avoidsLater] using h) as bs
  | group r ih => exact parses_group_extend (ih h)
  | look p => simp [avoidsLater] at h

/-- Every match takes a symbol of `p`. -/
def Needs (p : α → Bool) (r : Regex α) : Prop :=
  ∀ cs : List α, (∀ c ∈ cs, p c = false) → r.parses cs = []

theorem needs_one (p : α → Bool) : (one p).Needs p := by
  intro cs hcs
  cases cs with
  | nil => rfl
  | cons c cs => exact parses_one_of_not (hcs c List.mem_cons_self) cs

theorem Needs.seq_left {p : α → Bool} {r : Regex α} (h : r.Needs p) (s : Regex α) :
    (seq r s).Needs p := by
  intro cs hcs
  exact parses_seq_none (h cs hcs) s

theorem Needs.seq_right {p : α → Bool} {s : Regex α} (h : s.Needs p) (r : Regex α) :
    (seq r s).Needs p := by
  intro cs hcs
  rw [parses, List.flatMap_eq_nil_iff]
  intro m hm
  have hrest : ∀ c ∈ m.rest, p c = false := fun c hc => hcs c ((suffix_of_mem hm).mem hc)
  rw [h m.rest hrest]
  rfl

theorem Needs.group {p : α → Bool} {r : Regex α} (h : r.Needs p) : (group r).Needs p := by
  intro cs hcs
  rw [parses, h cs hcs]
  rfl

/-- The first part ends before `c` and the second before `d`, but the second needs a symbol
that is not there. -/
theorem parses_seq_between {r s : Regex α} {c d : α} {p : α → Bool} (hr : r.avoids c = true)
    (hs : s.avoids d = true) (hneeds : s.Needs p) {as bs : List α}
    (hnone : ∀ x ∈ as ++ c :: bs, p x = false) (more : List α) :
    (seq r s).parses (as ++ c :: (bs ++ d :: more)) = [] := by
  rw [parses, parses_append hr, List.flatMap_map, List.flatMap_eq_nil_iff]
  intro m hm
  have hrest : ∀ x ∈ m.rest ++ c :: bs, p x = false := by
    intro x hx
    rcases List.mem_append.mp hx with hleft | hright
    · exact hnone x (List.mem_append_left _ ((suffix_of_mem hm).mem hleft))
    · exact hnone x (List.mem_append_right _ hright)
  have htail : s.parses (m.rest ++ c :: (bs ++ d :: more)) = [] := by
    have hsplit := parses_append hs (m.rest ++ c :: bs) more
    rw [hneeds _ hrest, List.map_nil, List.append_assoc, List.cons_append] at hsplit
    exact hsplit
  show (s.parses (m.rest ++ c :: (bs ++ d :: more))).map _ = []
  rw [htail, List.map_nil]

/-! ## The first match -/

theorem forall_head_cons {P : α → Prop} {c : α} (h : P c) (cs : List α) :
    ∀ d ∈ (c :: cs).head?, P d := by
  intro d hd
  obtain rfl : c = d := Option.some.inj hd
  exact h

theorem parse?_eq_none {r : Regex α} {cs : List α} : r.parse? cs = none ↔ r.parses cs = [] :=
  List.head?_eq_none_iff

/-- Where the first match of `r` can be continued, it is the one that is. -/
theorem parse?_seq {r s : Regex α} {cs : List α} {m n : Match α} (hr : r.parse? cs = some m)
    (hs : s.parse? m.rest = some n) :
    (seq r s).parse? cs = some ⟨m.groups ++ n.groups, n.rest⟩ := by
  obtain ⟨ms, hms⟩ := List.head?_eq_some_iff.mp hr
  obtain ⟨ns, hns⟩ := List.head?_eq_some_iff.mp hs
  rw [parse?, parses, hms, List.flatMap_cons, hns]
  rfl

theorem parse?_alt {r : Regex α} {cs : List α} {m : Match α} (hr : r.parse? cs = some m)
    (s : Regex α) : (alt r s).parse? cs = some m := by
  obtain ⟨ms, hms⟩ := List.head?_eq_some_iff.mp hr
  rw [parse?, parses, hms]
  rfl

theorem parse?_alt_right {r : Regex α} {cs : List α} (hr : r.parse? cs = none) (s : Regex α) :
    (alt r s).parse? cs = s.parse? cs := by
  rw [parse?, parses, parse?_eq_none.mp hr, List.nil_append]
  rfl

theorem parse?_one {p : α → Bool} {c : α} (h : p c = true) (cs : List α) :
    (one p).parse? (c :: cs) = some ⟨[], cs⟩ := by
  rw [parse?, parses_one h]
  rfl

theorem parse?_group {r : Regex α} {as bs : List α} {groups : List (List α)}
    (h : r.parse? (as ++ bs) = some ⟨groups, bs⟩) :
    (group r).parse? (as ++ bs) = some ⟨as :: groups, bs⟩ := by
  obtain ⟨ms, hms⟩ := List.head?_eq_some_iff.mp h
  have htake : (as ++ bs).take ((as ++ bs).length - bs.length) = as := by
    rw [List.length_append, Nat.add_sub_cancel, List.take_left]
  rw [parse?, parses, hms]
  show some (⟨(as ++ bs).take ((as ++ bs).length - bs.length) :: groups, bs⟩ : Match α) = _
  rw [htake]

theorem parse?_star {p : α → Bool} {as : List α} (bs : List α) (has : ∀ a ∈ as, p a = true)
    (hbs : ∀ b ∈ bs.head?, p b = false) : (star p).parse? (as ++ bs) = some ⟨[], bs⟩ := by
  have hrun : (afterRun p (as ++ bs)).head? = some bs := by
    induction as with
    | nil =>
        cases bs with
        | nil => rfl
        | cons b bs =>
            rw [List.nil_append, afterRun_of_not (hbs b rfl)]
            rfl
    | cons a as ih =>
        rw [List.cons_append, afterRun, if_pos (has a List.mem_cons_self), List.head?_append,
          ih fun d hd => has d (List.mem_cons_of_mem _ hd)]
        rfl
  rw [parse?, parses, List.head?_map, hrun]
  rfl

theorem parse?_plus {p : α → Bool} {as : List α} (bs : List α) (hne : as ≠ [])
    (has : ∀ a ∈ as, p a = true) (hbs : ∀ b ∈ bs.head?, p b = false) :
    (plus p).parse? (as ++ bs) = some ⟨[], bs⟩ := by
  cases as with
  | nil => exact absurd rfl hne
  | cons a as =>
      have hfirst := parse?_one (has a List.mem_cons_self) (as ++ bs)
      have hmore := parse?_star bs (fun d hd => has d (List.mem_cons_of_mem _ hd)) hbs
      exact parse?_seq hfirst hmore

theorem parse?_upTo {p : α → Bool} {n : Nat} {as : List α} (bs : List α) (hlength : as.length ≤ n)
    (has : ∀ a ∈ as, p a = true) (hbs : ∀ b ∈ bs.head?, p b = false) :
    (upTo p n).parse? (as ++ bs) = some ⟨[], bs⟩ := by
  induction n generalizing as with
  | zero =>
      obtain rfl : as = [] := List.length_eq_zero_iff.mp (Nat.le_zero.mp hlength)
      rfl
  | succ n ih =>
      cases as with
      | nil =>
          have hnone : (seq (one p) (upTo p n)).parse? bs = none := by
            apply parse?_eq_none.mpr
            cases bs with
            | nil => rfl
            | cons b bs => exact parses_seq_none (parses_one_of_not (hbs b rfl) bs) _
          exact parse?_alt_right hnone .nothing
      | cons a as =>
          have hfirst := parse?_one (has a List.mem_cons_self) (as ++ bs)
          have hmore := ih (Nat.le_of_succ_le_succ hlength) fun d hd =>
            has d (List.mem_cons_of_mem _ hd)
          exact parse?_alt (parse?_seq hfirst hmore) .nothing

/-! ## Searching -/

theorem search_cons_none {r : Regex α} {c : α} {cs : List α} (h : r.parses (c :: cs) = []) :
    r.search (c :: cs) = r.search cs := by
  rw [search, parse?_eq_none.mpr h]
  rfl

theorem search_hit {r : Regex α} {cs : List α} {m : Match α} (h : r.parse? cs = some m) :
    r.search cs = some m.groups := by
  cases cs with
  | nil => rw [search, h]; rfl
  | cons c cs => rw [search, h]; rfl

theorem search_of_needs {r : Regex α} {p : α → Bool} (h : r.Needs p) {cs : List α}
    (hcs : ∀ c ∈ cs, p c = false) : r.search cs = none := by
  induction cs with
  | nil => rw [search, parse?_eq_none.mpr (h [] hcs)]; rfl
  | cons c cs ih =>
      rw [search_cons_none (h _ hcs), ih fun d hd => hcs d (List.mem_cons_of_mem _ hd)]

/-- A search goes on behind a barrier where nothing is found before it. -/
theorem search_append {r : Regex α} {c : α} (h : r.avoids c = true) (hne : r.parses [] = [])
    (as bs : List α) : r.search (as ++ c :: bs) = (r.search as).or (r.search bs) := by
  have hempty : r.search [] = none := by
    rw [search, parse?_eq_none.mpr hne]
    rfl
  induction as with
  | nil =>
      have hhere : r.parses (c :: bs) = [] := by
        have hsplit := parses_append h [] bs
        rwa [hne, List.nil_append] at hsplit
      rw [List.nil_append, search_cons_none hhere, hempty, Option.none_or]
  | cons a as ih =>
      have hsplit := parses_append h (a :: as) bs
      rw [List.cons_append] at hsplit ⊢
      rw [search, search, ih, parse?, parse?, hsplit, List.head?_map, Option.map_map,
        Option.or_assoc]
      rfl

/-! ## Finding all -/

theorem findFrom_append (r : Regex α) (as bs : List α) :
    r.findFrom as.length (as ++ bs) = r.findAll bs := by
  induction as with
  | nil => rfl
  | cons a as ih => exact ih

theorem findAll_cons_none {r : Regex α} {c : α} {cs : List α} (h : r.parses (c :: cs) = []) :
    r.findAll (c :: cs) = r.findAll cs := by
  rw [findAll, findFrom, parse?_eq_none.mpr h]
  rfl

theorem findAll_hit {r : Regex α} {as bs : List α} {groups : List (List α)} (hne : as ≠ [])
    (h : r.parse? (as ++ bs) = some ⟨groups, bs⟩) :
    r.findAll (as ++ bs) = groups :: r.findAll bs := by
  cases as with
  | nil => exact absurd rfl hne
  | cons a as =>
      have hskip : (as ++ bs).length - bs.length = as.length := by
        rw [List.length_append, Nat.add_sub_cancel]
      rw [List.cons_append] at h ⊢
      rw [findAll, findFrom, h]
      show groups :: r.findFrom ((as ++ bs).length - bs.length) (as ++ bs) = _
      rw [hskip, findFrom_append]

theorem findAll_skip {r : Regex α} {as bs : List α}
    (h : ∀ cs, cs <:+ as → cs ≠ [] → r.parses (cs ++ bs) = []) :
    r.findAll (as ++ bs) = r.findAll bs := by
  induction as with
  | nil => rfl
  | cons a as ih =>
      have hhere := h (a :: as) List.suffix_rfl (List.cons_ne_nil _ _)
      have hrest := ih fun cs hcs => h cs (hcs.trans (List.suffix_cons a as))
      rw [List.cons_append] at hhere ⊢
      rw [findAll_cons_none hhere, hrest]

theorem findAll_of_needs {r : Regex α} {p : α → Bool} (h : r.Needs p) {cs : List α}
    (hcs : ∀ c ∈ cs, p c = false) : r.findAll cs = [] := by
  induction cs with
  | nil => rfl
  | cons c cs ih =>
      rw [findAll_cons_none (h _ hcs), ih fun d hd => hcs d (List.mem_cons_of_mem _ hd)]

/-- Matches that begin before `bs` end before it, so the rest is searched on its own. -/
theorem findFrom_split {r : Regex α} {bs : List α}
    (h : ∀ as, as ≠ [] → r.parses (as ++ bs) = (r.parses as).map (Match.extend bs))
    {skip : Nat} {as : List α} (hskip : skip ≤ as.length) :
    r.findFrom skip (as ++ bs) = r.findFrom skip as ++ r.findAll bs := by
  induction as generalizing skip with
  | nil =>
      obtain rfl : skip = 0 := Nat.le_zero.mp hskip
      rfl
  | cons a as ih =>
      cases skip with
      | succ skip => exact ih (Nat.le_of_succ_le_succ hskip)
      | zero =>
          have hsplit := h (a :: as) (List.cons_ne_nil a as)
          have hparse : r.parse? (a :: (as ++ bs)) =
              (r.parse? (a :: as)).map (Match.extend bs) := by
            rw [List.cons_append] at hsplit
            rw [parse?, parse?, hsplit, List.head?_map]
          rw [List.cons_append, findFrom, findFrom, hparse]
          cases r.parse? (a :: as) with
          | none => exact ih (Nat.zero_le _)
          | some m =>
              have hlength : (as ++ bs).length - (m.rest ++ bs).length =
                  as.length - m.rest.length := by
                simp only [List.length_append]
                omega
              have hrest := ih (Nat.sub_le as.length m.rest.length)
              show m.groups :: r.findFrom ((as ++ bs).length - (m.rest ++ bs).length) (as ++ bs) =
                (m.groups :: r.findFrom (as.length - m.rest.length) as) ++ r.findAll bs
              rw [hlength, hrest, List.cons_append]

/-- On both sides of a barrier the matches are found apart. -/
theorem findAll_append {r : Regex α} {c : α} (h : r.avoids c = true) (hne : r.parses [] = [])
    (as bs : List α) : r.findAll (as ++ c :: bs) = r.findAll as ++ r.findAll bs := by
  have hhere : r.parses (c :: bs) = [] := by
    have hsplit := parses_append h [] bs
    rwa [hne, List.nil_append] at hsplit
  have hfind := findFrom_split (fun cs _ => parses_append h cs bs) (Nat.zero_le as.length)
  rw [findAll_cons_none hhere] at hfind
  exact hfind

/-- The same before a symbol that can only be the first of a match. -/
theorem findAll_append_later {r : Regex α} {c : α} (h : r.avoidsLater c = true)
    (as bs : List α) : r.findAll (as ++ c :: bs) = r.findAll as ++ r.findAll (c :: bs) :=
  findFrom_split (fun _ hcs => parses_append_later h hcs bs) (Nat.zero_le as.length)

end Regex

end NetForge.Calculus
