import NetForge.Calculus.Raising
import Mathlib.Data.List.Lex
import Mathlib.Order.Lattice

/-! # Ranges of a sorted table

Rows sorted by keys that are lists, in lexicographic order. The rows whose key
extends a given prefix stand next to each other, right behind the prefix. A
bounded scan reads rows one by one; it collects a whole range, or says that it
was too long, unless some row makes it stop, skip or fail.
-/

namespace NetForge.Calculus

/-! ## Prefixes in lexicographic order -/

section

variable {κ : Type*} [LinearOrder κ]

theorem lt_of_extends {p x : List κ} (h : p <+: x) (hne : x ≠ p) : p < x := by
  obtain ⟨t, rfl⟩ := h
  cases t with
  | nil => exact absurd (List.append_nil p) hne
  | cons a t =>
      have hlt : p ++ [] < p ++ a :: t := List.append_left_lt (List.nil_lt_cons a t)
      rwa [List.append_nil] at hlt

/-- Between a list and an extension of it there are only extensions of it. -/
theorem prefix_of_between {p x y : List κ} (hpx : p < x) (hxy : x < y) (hpy : p <+: y) :
    p <+: x := by
  induction p generalizing x y with
  | nil => exact List.nil_prefix
  | cons a p ih =>
      cases x with
      | nil => exact absurd hpx (List.not_lt_nil _)
      | cons b x =>
          obtain ⟨t, rfl⟩ := hpy
          rw [List.cons_append] at hxy
          rcases List.cons_lt_cons_iff.mp hpx with hab | ⟨rfl, htail⟩
          · rcases List.cons_lt_cons_iff.mp hxy with hba | ⟨rfl, -⟩
            · exact absurd hab (lt_asymm hba)
            · exact absurd hab (lt_irrefl _)
          · rcases List.cons_lt_cons_iff.mp hxy with haa | ⟨-, hext⟩
            · exact absurd haa (lt_irrefl _)
            · exact List.cons_prefix_cons.mpr ⟨rfl, ih htail hext (List.prefix_append p t)⟩

variable {ρ : Type*} (key : ρ → List κ)

def Increasing (rows : List ρ) : Prop := rows.Pairwise fun a b => key a < key b

def behind (k : List κ) (rows : List ρ) : List ρ := rows.filter fun row => k < key row

def below (p : List κ) (rows : List ρ) : List ρ :=
  rows.filter fun row => p <+: key row ∧ key row ≠ p

variable {key}

theorem Increasing.behind {rows : List ρ} (h : Increasing key rows) (k : List κ) :
    Increasing key (behind key k rows) := List.Pairwise.filter _ h

theorem lt_of_behind_eq_cons {rows rest : List ρ} {row : ρ} {k : List κ}
    (hk : behind key k rows = row :: rest) : k < key row := by
  have hmem : row ∈ behind key k rows := by
    rw [hk]
    exact List.mem_cons_self
  simpa using List.of_mem_filter hmem

/-- Behind the first row that is larger than `k` come the other ones. -/
theorem behind_of_behind {rows rest : List ρ} {row : ρ} {k : List κ} (h : Increasing key rows)
    (hk : behind key k rows = row :: rest) : behind key (key row) rows = rest := by
  have hincreasing := h.behind k
  have hrow := lt_of_behind_eq_cons hk
  have hagain : behind key (key row) rows = behind key (key row) (behind key k rows) := by
    unfold behind
    rw [List.filter_filter]
    refine List.filter_congr fun r _ => ?_
    have himp : key row < key r → k < key r := fun hlt => hrow.trans hlt
    by_cases hlt : key row < key r
    · simp [hlt, himp hlt]
    · simp [hlt]
  rw [hagain, hk]
  rw [hk] at hincreasing
  have hrest : ∀ r ∈ rest, key row < key r := (List.pairwise_cons.mp hincreasing).1
  unfold behind
  rw [List.filter_cons_of_neg (by simp)]
  exact List.filter_eq_self.mpr fun r hr => decide_eq_true (hrest r hr)

/-- Behind a prefix come the rows that extend it, then rows that do not. -/
theorem behind_eq_below_append {rows : List ρ} (h : Increasing key rows) (p : List κ) :
    behind key p rows =
      below key p rows ++ rows.filter fun row => p < key row ∧ ¬ p <+: key row := by
  induction rows with
  | nil => rfl
  | cons row rows ih =>
      obtain ⟨hrow, hrows⟩ := List.pairwise_cons.mp h
      have hrest := ih hrows
      unfold behind below at hrest ⊢
      by_cases hlt : p < key row
      · by_cases hextends : p <+: key row
        · have hne : key row ≠ p := fun heq => lt_irrefl p (heq ▸ hlt)
          simp only [List.filter_cons, hlt, hextends, hne, decide_true, not_true_eq_false,
            and_false, decide_false, ne_eq, not_false_eq_true, and_self, if_true,
            Bool.false_eq_true, if_false]
          rw [hrest, List.cons_append]
        · have hnone : (rows.filter fun r => p <+: key r ∧ key r ≠ p) = [] := by
            rw [List.filter_eq_nil_iff]
            intro r hr hbelow
            have hbelow := of_decide_eq_true hbelow
            exact hextends (prefix_of_between hlt (hrow r hr) hbelow.1)
          simp only [List.filter_cons, hlt, hextends, decide_true, not_false_eq_true, and_self,
            false_and, decide_false, if_true, Bool.false_eq_true, if_false]
          rw [hrest, hnone, List.nil_append, List.nil_append]
      · have hnot : ¬ (p <+: key row ∧ key row ≠ p) := fun hp => hlt (lt_of_extends hp.1 hp.2)
        simp only [List.filter_cons, hlt, hnot, decide_false, false_and, Bool.false_eq_true,
          if_false]
        exact hrest

end

/-! ## Bounded scans -/

section

variable {ρ β ε : Type*}

inductive Reading (β ε : Type*)
  | keep (entry : β)
  | skip
  | stop
  | fail (error : ε)

inductive ScanEnd (β ε : Type*)
  | done (entries : List β)
  | exhausted
  | failed (error : ε)

def scan (read : ρ → Reading β ε) : (limit : Nat) → (rows : List ρ) → (out : List β) → ScanEnd β ε
  | 0, _, _ => .exhausted
  | _ + 1, [], out => .done out
  | limit + 1, row :: rows, out =>
      match read row with
      | .keep entry => scan read limit rows (out ++ [entry])
      | .skip => scan read limit rows out
      | .stop => .done out
      | .fail error => .failed error

def Closed (read : ρ → Reading β ε) (rest : List ρ) : Prop :=
  ∀ row ∈ rest, read row = .stop ∨ ∃ error, read row = .fail error

variable {read : ρ → Reading β ε}

/-- A scan stops short of the range's end exactly when the range is too long and
no row in reach ends the scan. -/
theorem scan_exhausted_iff {range rest : List ρ} (hrest : Closed read rest) (limit : Nat)
    (out : List β) :
    scan read limit (range ++ rest) out = .exhausted ↔
      limit ≤ range.length ∧
        ∀ row ∈ range.take limit, read row ≠ .stop ∧ ∀ error, read row ≠ .fail error := by
  induction range generalizing limit out with
  | nil =>
      cases limit with
      | zero => simp [scan]
      | succ limit =>
          cases rest with
          | nil => simp [scan]
          | cons row rest =>
              rcases hrest row List.mem_cons_self with hstop | ⟨error, hfail⟩
              · simp [scan, hstop]
              · simp [scan, hfail]
  | cons row range ih =>
      cases limit with
      | zero => simp [scan]
      | succ limit =>
          rw [List.cons_append, scan, List.take_succ_cons, List.length_cons,
            Nat.add_le_add_iff_right]
          simp only [List.forall_mem_cons]
          cases hread : read row with
          | keep entry => simpa using ih limit (out ++ [entry])
          | skip => simpa using ih limit out
          | stop => simp
          | fail error => simp

theorem length_le_of_scan_done {range rest : List ρ} (hrest : Closed read rest) {limit : Nat}
    {out entries : List β} (h : scan read limit (range ++ rest) out = .done entries) :
    entries.length ≤ out.length + range.length := by
  induction range generalizing limit out with
  | nil =>
      cases limit with
      | zero => simp [scan] at h
      | succ limit =>
          cases rest with
          | nil =>
              simp only [List.append_nil, scan, ScanEnd.done.injEq] at h
              simp [h]
          | cons row rest =>
              rcases hrest row List.mem_cons_self with hstop | ⟨error, hfail⟩
              · simp only [List.nil_append, scan, hstop, ScanEnd.done.injEq] at h
                simp [h]
              · simp [scan, hfail] at h
  | cons row range ih =>
      cases limit with
      | zero => simp [scan] at h
      | succ limit =>
          rw [List.cons_append, scan] at h
          cases hread : read row with
          | keep entry =>
              have hle := ih (by simpa [hread] using h)
              simp only [List.length_append, List.length_cons, List.length_nil] at hle ⊢
              omega
          | skip =>
              have hle := ih (by simpa [hread] using h)
              simp only [List.length_cons]
              omega
          | stop =>
              simp only [hread, ScanEnd.done.injEq] at h
              simp [h]
          | fail error => simp [hread] at h

theorem exists_of_scan_failed {limit : Nat} {rows : List ρ} {out : List β} {error : ε}
    (h : scan read limit rows out = .failed error) : ∃ row ∈ rows, read row = .fail error := by
  induction rows generalizing limit out with
  | nil => cases limit <;> simp [scan] at h
  | cons row rows ih =>
      cases limit with
      | zero => simp [scan] at h
      | succ limit =>
          rw [scan] at h
          cases hread : read row with
          | fail error' =>
              simp only [hread, ScanEnd.failed.injEq] at h
              exact ⟨row, List.mem_cons_self, by rw [hread, h]⟩
          | stop => simp [hread] at h
          | keep entry =>
              obtain ⟨r, hr, hfail⟩ := ih (by simpa [hread] using h)
              exact ⟨r, List.mem_cons_of_mem _ hr, hfail⟩
          | skip =>
              obtain ⟨r, hr, hfail⟩ := ih (by simpa [hread] using h)
              exact ⟨r, List.mem_cons_of_mem _ hr, hfail⟩

/-- The entries a scan of the range should give: all of them, read by `entry`. -/
def Collects (entry : ρ → Except ε β) (range : List ρ) (out : List β) : ScanEnd β ε → Prop
  | .done entries => ∃ rest, range.mapM entry = .ok rest ∧ entries = out ++ rest
  | .exhausted => True
  | .failed _ => False

/-- A row that is kept is read by `entry`, and `entry` fails where reading
fails. -/
structure Reads (read : ρ → Reading β ε) (entry : ρ → Except ε β) (row : ρ) : Prop where
  keep : ∀ b, read row = .keep b → entry row = .ok b
  fail : ∀ error, read row = .fail error → entry row = .error error

theorem collects_cons_of_keep {entry : ρ → Except ε β} {row : ρ} {b : β} (hrow : entry row = .ok b)
    (range : List ρ) (out : List β) (r : ScanEnd β ε) :
    Collects entry (row :: range) out r ↔ Collects entry range (out ++ [b]) r := by
  cases r with
  | exhausted => exact Iff.rfl
  | failed error => exact Iff.rfl
  | done entries =>
      simp only [Collects, List.mapM_cons, hrow]
      cases hrange : range.mapM entry with
      | error error =>
          constructor
          · rintro ⟨rest, h, -⟩
            cases h
          · rintro ⟨rest, h, -⟩
            cases h
      | ok rest =>
          constructor
          · rintro ⟨_, h, rfl⟩
            obtain rfl := Except.ok.inj h
            exact ⟨rest, rfl, by simp⟩
          · rintro ⟨_, h, rfl⟩
            obtain rfl := Except.ok.inj h
            exact ⟨b :: rest, rfl, by simp⟩

/-- Without the entry of one row, only a range that is too long is told apart. -/
theorem collects_of_skipped {entry : ρ → Except ε β} {row : ρ} {range rest : List ρ}
    (hrest : Closed read rest) {limit : Nat} {out : List β} :
    Collects entry (row :: range) out (scan read limit (range ++ rest) out) ↔
      scan read limit (range ++ rest) out = .exhausted := by
  cases hend : scan read limit (range ++ rest) out with
  | exhausted => simp [Collects]
  | failed error => simp [Collects]
  | done entries =>
      have hle := length_le_of_scan_done hrest hend
      simp only [Collects, reduceCtorEq, iff_false]
      rintro ⟨more, hmore, rfl⟩
      have hlength := length_of_mapM_ok hmore
      simp only [List.length_append, List.length_cons] at hle hlength
      omega

theorem not_collects_of_stopped {entry : ρ → Except ε β} {row : ρ} {range : List ρ}
    {out : List β} : ¬ Collects entry (row :: range) out (.done out) := by
  rintro ⟨more, hmore, heq⟩
  have hlength := length_of_mapM_ok hmore
  have hnil : more = [] := List.self_eq_append_right.mp heq
  rw [hnil] at hlength
  simp at hlength

/-- A range is collected as a whole, or found too long, exactly when no row in
reach fails, none of the range in reach stops the scan, and none of it is
skipped if all of it is in reach. -/
theorem scan_collects_iff {entry : ρ → Except ε β} {range rest : List ρ}
    (hread : ∀ row ∈ range, Reads read entry row) (hrest : Closed read rest) (limit : Nat)
    (out : List β) :
    Collects entry range out (scan read limit (range ++ rest) out) ↔
      (∀ row ∈ (range ++ rest.head?.toList).take limit, ∀ error, read row ≠ .fail error) ∧
      (∀ row ∈ range.take limit, read row ≠ .stop) ∧
      (range.length < limit → ∀ row ∈ range, read row ≠ .skip) := by
  induction range generalizing limit out with
  | nil =>
      cases limit with
      | zero => simp [scan, Collects]
      | succ limit =>
          cases rest with
          | nil => simp [scan, Collects, pure, Except.pure]
          | cons row rest =>
              rcases hrest row List.mem_cons_self with hstop | ⟨error, hfail⟩
              · simp [scan, hstop, Collects, pure, Except.pure]
              · simp [scan, hfail, Collects]
  | cons row range ih =>
      have hrow := hread row List.mem_cons_self
      have hrange := fun r hr => hread r (List.mem_cons_of_mem _ hr)
      cases limit with
      | zero => simp [scan, Collects]
      | succ limit =>
          rw [List.cons_append, scan, List.cons_append, List.take_succ_cons, List.take_succ_cons,
            List.length_cons]
          simp only [List.forall_mem_cons, Nat.add_lt_add_iff_right]
          cases hcase : read row with
          | keep b =>
              rw [collects_cons_of_keep (hrow.keep b hcase)]
              simpa using ih hrange limit (out ++ [b])
          | skip =>
              simp only [collects_of_skipped hrest, scan_exhausted_iff hrest]
              constructor
              · rintro ⟨hle, hreach⟩
                have htake : (range ++ rest.head?.toList).take limit = range.take limit := by
                  rw [List.take_append_of_le_length hle]
                rw [htake]
                exact ⟨⟨by simp, fun r hr => (hreach r hr).2⟩,
                  ⟨by simp, fun r hr => (hreach r hr).1⟩, fun hlt => absurd hlt (by omega)⟩
              · rintro ⟨⟨-, hfail⟩, ⟨-, hstop⟩, hskip⟩
                have hle : limit ≤ range.length := by
                  by_contra hlt
                  exact (hskip (by omega)).1 rfl
                rw [List.take_append_of_le_length hle] at hfail
                exact ⟨hle, fun r hr => ⟨hstop r hr, hfail r hr⟩⟩
          | stop =>
              simp only [ne_eq, not_true_eq_false, false_and, and_false, iff_false]
              exact not_collects_of_stopped
          | fail error => simp [Collects]

end

end NetForge.Calculus
