import Mathlib.Data.List.Nodup

/-! # Dicts filled by events

A list of entries with distinct keys, filled by a loop that changes the entry of one key at a
time. What such a loop leaves under a key is decided by the events of that key, in
their order.
-/

namespace NetForge.Calculus.Entries

variable {κ β γ : Type} [DecidableEq κ]

def keys (entries : List (κ × β)) : List κ := entries.map (·.1)

def value? (entries : List (κ × β)) (key : κ) : Option β :=
  (entries.find? (·.1 = key)).map (·.2)

/-- Replace the value of a key by what `f` makes of it, at the end where there is none. -/
def alter (entries : List (κ × β)) (key : κ) (f : Option β → β) : List (κ × β) :=
  if key ∈ keys entries then
    entries.map fun e => if e.1 = key then (key, f (some e.2)) else e
  else entries ++ [(key, f none)]

/-- One event after another, each on the entry of its key. -/
def fill (step : γ → Option β → β) (entries : List (κ × β)) (events : List (κ × γ)) :
    List (κ × β) :=
  events.foldl (fun entries e => alter entries e.1 (step e.2)) entries

@[simp] theorem value?_nil (key : κ) : value? ([] : List (κ × β)) key = none := rfl

theorem value?_cons (e : κ × β) (entries : List (κ × β)) (key : κ) :
    value? (e :: entries) key = if e.1 = key then some e.2 else value? entries key := by
  unfold value?
  by_cases h : e.1 = key <;> simp [h]

theorem value?_append (entries rest : List (κ × β)) (key : κ) :
    value? (entries ++ rest) key = (value? entries key).or (value? rest key) := by
  induction entries with
  | nil => rfl
  | cons e entries ih =>
      rw [List.cons_append, value?_cons, value?_cons, ih]
      by_cases h : e.1 = key <;> simp [h]

theorem value?_eq_none {entries : List (κ × β)} {key : κ} :
    value? entries key = none ↔ key ∉ keys entries := by
  induction entries with
  | nil => simp [keys]
  | cons e entries ih =>
      rw [value?_cons]
      unfold keys at ih ⊢
      by_cases h : e.1 = key
      · simp [h]
      · have hne : ¬ key = e.1 := fun heq => h heq.symm
        rw [if_neg h, ih, List.map_cons, List.mem_cons, not_or]
        exact (and_iff_right hne).symm

theorem mem_keys_iff {entries : List (κ × β)} {key : κ} :
    key ∈ keys entries ↔ ∃ v, value? entries key = some v := by
  have hnone := @value?_eq_none κ β _ entries key
  cases hv : value? entries key with
  | none => simpa using hnone.mp hv
  | some v =>
      have hmem : key ∈ keys entries := by
        by_contra hnot
        rw [hnone.mpr hnot] at hv
        cases hv
      simp [hmem]

omit [DecidableEq κ] in
theorem ne_nil_of_key {entries : List (κ × β)} {key : κ} (h : key ∈ keys entries) :
    entries ≠ [] := by
  rintro rfl
  exact List.not_mem_nil h

theorem eq_nil_iff {entries : List (κ × β)} :
    entries = [] ↔ ∀ key, value? entries key = none := by
  cases entries with
  | nil => simp
  | cons e entries =>
      constructor
      · intro h
        cases h
      · intro h
        have hkey := h e.1
        rw [value?_cons, if_pos rfl] at hkey
        cases hkey

theorem value?_map_replace (entries : List (κ × β)) (key : κ) (f : Option β → β) (other : κ) :
    value? (entries.map fun e => if e.1 = key then (key, f (some e.2)) else e) other =
      if other = key then (value? entries key).map (fun v => f (some v))
      else value? entries other := by
  induction entries with
  | nil => simp
  | cons e entries ih =>
      rw [List.map_cons, value?_cons, value?_cons, value?_cons, ih]
      by_cases he : e.1 = key
      · by_cases ho : other = key
        · simp [he, ho]
        · have hne : ¬ key = other := fun heq => ho heq.symm
          simp [he, ho, hne]
      · by_cases ho : other = key
        · simp [he, ho]
        · simp [he, ho]

theorem value?_alter (entries : List (κ × β)) (key : κ) (f : Option β → β) (other : κ) :
    value? (alter entries key f) other =
      if other = key then some (f (value? entries key)) else value? entries other := by
  unfold alter
  by_cases hmem : key ∈ keys entries
  · rw [if_pos hmem, value?_map_replace]
    cases hv : value? entries key with
    | none => exact absurd hmem (value?_eq_none.mp hv)
    | some v => rfl
  · have hnone : value? entries key = none := value?_eq_none.mpr hmem
    rw [if_neg hmem, value?_append, value?_cons, value?_nil]
    by_cases ho : other = key
    · simp [ho, hnone]
    · have hne : ¬ key = other := fun heq => ho heq.symm
      simp [ho, hne]

theorem keys_alter (entries : List (κ × β)) (key : κ) (f : Option β → β) :
    keys (alter entries key f) =
      if key ∈ keys entries then keys entries else keys entries ++ [key] := by
  unfold alter
  by_cases hmem : key ∈ keys entries
  · rw [if_pos hmem, if_pos hmem]
    unfold keys
    rw [List.map_map]
    apply List.map_congr_left
    intro e _
    show (if e.1 = key then (key, f (some e.2)) else e).1 = e.1
    by_cases he : e.1 = key
    · rw [if_pos he, he]
    · rw [if_neg he]
  · rw [if_neg hmem, if_neg hmem]
    simp [keys]

theorem nodup_alter {entries : List (κ × β)} (h : (keys entries).Nodup) (key : κ)
    (f : Option β → β) : (keys (alter entries key f)).Nodup := by
  rw [keys_alter]
  by_cases hmem : key ∈ keys entries
  · rw [if_pos hmem]
    exact h
  · rw [if_neg hmem, ← List.concat_eq_append]
    exact h.concat hmem

theorem mem_iff_value? {entries : List (κ × β)} (h : (keys entries).Nodup) {key : κ} {v : β} :
    (key, v) ∈ entries ↔ value? entries key = some v := by
  induction entries with
  | nil => simp
  | cons e entries ih =>
      obtain ⟨hfresh, hrest⟩ := List.nodup_cons.mp h
      rw [value?_cons, List.mem_cons, ih hrest]
      by_cases he : e.1 = key
      · have hnone : value? entries key = none := by
          rw [← he]
          exact value?_eq_none.mpr hfresh
        rw [if_pos he, hnone]
        constructor
        · rintro (rfl | hv)
          · rfl
          · cases hv
        · intro hv
          cases hv
          exact .inl (Prod.ext he.symm rfl)
      · have hne : ¬ (key, v) = e := fun heq => he (congrArg Prod.fst heq).symm
        rw [if_neg he]
        exact or_iff_right hne

/-! ## A whole loop -/

variable (step : γ → Option β → β)

theorem nodup_fill (events : List (κ × γ)) {entries : List (κ × β)} (h : (keys entries).Nodup) :
    (keys (fill step entries events)).Nodup := by
  induction events generalizing entries with
  | nil => exact h
  | cons e events ih => exact ih (nodup_alter h _ _)

/-- Under a key, the loop has folded the events of that key. -/
theorem value?_fill (events : List (κ × γ)) (entries : List (κ × β)) (key : κ) :
    value? (fill step entries events) key =
      ((events.filter (·.1 = key)).map (·.2)).foldl (fun v c => some (step c v))
        (value? entries key) := by
  induction events generalizing entries with
  | nil => rfl
  | cons e events ih =>
      show value? (fill step (alter entries e.1 (step e.2)) events) key = _
      rw [ih, value?_alter]
      by_cases he : e.1 = key
      · have hkept : (e :: events).filter (·.1 = key) = e :: events.filter (·.1 = key) :=
          List.filter_cons_of_pos (by simpa using he)
        rw [if_pos he.symm, hkept, he]
        rfl
      · have hdropped : (e :: events).filter (·.1 = key) = events.filter (·.1 = key) :=
          List.filter_cons_of_neg (by simpa using he)
        have hne : ¬ key = e.1 := fun heq => he heq.symm
        rw [if_neg hne, hdropped]

theorem value?_fill_of_notMem {events : List (κ × γ)} {key : κ} (h : key ∉ keys events)
    (entries : List (κ × β)) : value? (fill step entries events) key = value? entries key := by
  have hnone : events.filter (·.1 = key) = [] := by
    apply List.filter_eq_nil_iff.mpr
    intro e he hkey
    exact h (List.mem_map.mpr ⟨e, he, by simpa using hkey⟩)
  rw [value?_fill, hnone]
  rfl

/-- Where no key occurs twice, each event makes an entry of its own. -/
theorem value?_fill_of_nodup {events : List (κ × γ)} (h : (keys events).Nodup)
    {entries : List (κ × β)} {key : κ} (hfresh : value? entries key = none) :
    value? (fill step entries events) key = (value? events key).map fun c => step c none := by
  induction events generalizing entries with
  | nil => exact hfresh
  | cons e events ih =>
      obtain ⟨hnew, hrest⟩ := List.nodup_cons.mp h
      show value? (fill step (alter entries e.1 (step e.2)) events) key = _
      rw [value?_cons]
      by_cases he : e.1 = key
      · rw [value?_fill_of_notMem step (he ▸ hnew), value?_alter, if_pos he, if_pos he.symm, he,
          hfresh]
        rfl
      · have hne : ¬ key = e.1 := fun heq => he heq.symm
        rw [if_neg he]
        apply ih hrest
        rw [value?_alter, if_neg hne, hfresh]

theorem value?_overwritten {events : List (κ × β)} (h : (keys events).Nodup) {key : κ} {v : β} :
    value? (fill (fun v _ => v) [] events) key = some v ↔ (key, v) ∈ events := by
  rw [value?_fill_of_nodup _ h (value?_nil key), mem_iff_value? h, Option.map_id']

/-! ## Overwriting -/

/-- The key is there, and every entry of it has this value. -/
def Holds (entries : List (κ × β)) (key : κ) (v : β) : Prop :=
  key ∈ keys entries ∧ ∀ e ∈ entries, e.1 = key → e.2 = v

def overwrite (entries events : List (κ × β)) : List (κ × β) :=
  fill (fun v _ => v) entries events

theorem value?_of_holds {entries : List (κ × β)} {key : κ} {v : β} (h : Holds entries key v) :
    value? entries key = some v := by
  obtain ⟨w, hw⟩ := mem_keys_iff.mp h.1
  obtain ⟨e, he, hv⟩ := Option.map_eq_some_iff.mp hw
  have hkey : e.1 = key := by simpa using List.find?_some he
  rw [hw, ← hv, h.2 e (List.mem_of_find?_eq_some he) hkey]

theorem alter_of_holds {entries : List (κ × β)} {key : κ} {v : β} (h : Holds entries key v) :
    alter entries key (fun _ => v) = entries := by
  unfold alter
  rw [if_pos h.1]
  calc entries.map (fun e => if e.1 = key then (key, v) else e) = entries.map id := by
        apply List.map_congr_left
        intro e he
        by_cases hkey : e.1 = key
        · rw [if_pos hkey]
          exact Prod.ext hkey.symm (h.2 e he hkey).symm
        · rw [if_neg hkey]
          rfl
    _ = entries := List.map_id entries

theorem mem_keys_alter {entries : List (κ × β)} {key : κ} {f : Option β → β} :
    key ∈ keys (alter entries key f) := by
  rw [keys_alter]
  by_cases h : key ∈ keys entries
  · rwa [if_pos h]
  · rw [if_neg h]
    exact List.mem_append_right _ (List.mem_singleton_self _)

theorem holds_alter (entries : List (κ × β)) (key : κ) (v : β) :
    Holds (alter entries key fun _ => v) key v := by
  refine ⟨mem_keys_alter, ?_⟩
  intro e he hkey
  unfold alter at he
  by_cases hmem : key ∈ keys entries
  · rw [if_pos hmem] at he
    obtain ⟨e', -, rfl⟩ := List.mem_map.mp he
    by_cases hkey' : e'.1 = key
    · rw [if_pos hkey']
    · rw [if_neg hkey'] at hkey
      exact absurd hkey hkey'
  · rw [if_neg hmem] at he
    rcases List.mem_append.mp he with he | he
    · exact absurd (List.mem_map.mpr ⟨e, he, hkey⟩) hmem
    · rw [List.mem_singleton.mp he]

theorem holds_alter_of_ne {entries : List (κ × β)} {key other : κ} {v : β}
    (h : Holds entries key v) (hne : key ≠ other) (f : Option β → β) :
    Holds (alter entries other f) key v := by
  constructor
  · rw [keys_alter]
    by_cases hmem : other ∈ keys entries
    · rw [if_pos hmem]
      exact h.1
    · rw [if_neg hmem]
      exact List.mem_append_left _ h.1
  · intro e he hkey
    unfold alter at he
    by_cases hmem : other ∈ keys entries
    · rw [if_pos hmem] at he
      obtain ⟨e', he', rfl⟩ := List.mem_map.mp he
      by_cases hother : e'.1 = other
      · rw [if_pos hother] at hkey
        exact absurd hkey.symm hne
      · rw [if_neg hother] at hkey ⊢
        exact h.2 e' he' hkey
    · rw [if_neg hmem] at he
      rcases List.mem_append.mp he with he | he
      · exact h.2 e he hkey
      · rw [List.mem_singleton.mp he] at hkey
        exact absurd hkey.symm hne

theorem holds_overwrite_of_notMem {entries : List (κ × β)} {key : κ} {v : β}
    (h : Holds entries key v) {events : List (κ × β)} (hfresh : key ∉ keys events) :
    Holds (overwrite entries events) key v := by
  induction events generalizing entries with
  | nil => exact h
  | cons e events ih =>
      obtain ⟨hne, hrest⟩ := List.ne_and_not_mem_of_not_mem_cons hfresh
      exact ih (holds_alter_of_ne h hne _) hrest

/-- Every event whose key is not written again is found after the loop. -/
theorem holds_overwrite {events : List (κ × β)} (h : (keys events).Nodup)
    (entries : List (κ × β)) : ∀ e ∈ events, Holds (overwrite entries events) e.1 e.2 := by
  induction events generalizing entries with
  | nil =>
      intro e he
      cases he
  | cons first events ih =>
      obtain ⟨hfresh, hrest⟩ := List.nodup_cons.mp h
      intro e he
      rcases List.mem_cons.mp he with rfl | he
      · exact holds_overwrite_of_notMem (holds_alter entries e.1 e.2) hfresh
      · exact ih hrest _ e he

theorem overwrite_of_holds {entries events : List (κ × β)}
    (h : ∀ e ∈ events, Holds entries e.1 e.2) : overwrite entries events = entries := by
  induction events with
  | nil => rfl
  | cons first events ih =>
      have hfirst := alter_of_holds (h first List.mem_cons_self)
      have hrest := ih fun e he => h e (List.mem_cons_of_mem _ he)
      show overwrite (alter entries first.1 fun _ => first.2) events = entries
      rw [hfirst, hrest]

theorem overwrite_overwrite {events : List (κ × β)} (h : (keys events).Nodup)
    (entries : List (κ × β)) :
    overwrite (overwrite entries events) events = overwrite entries events :=
  overwrite_of_holds (holds_overwrite h entries)

theorem overwrite_self {events : List (κ × β)} (h : (keys events).Nodup) :
    overwrite events events = events := by
  apply overwrite_of_holds
  intro e he
  refine ⟨List.mem_map.mpr ⟨e, he, rfl⟩, ?_⟩
  intro e' he' hkey
  have hvalue := (mem_iff_value? h).mp he
  have hvalue' : value? events e.1 = some e'.2 := by
    rw [← hkey]
    exact (mem_iff_value? h).mp he'
  rw [hvalue] at hvalue'
  exact (Option.some.inj hvalue').symm

theorem filter_alter {p : κ → Bool} {key : κ} (hp : p key = false) (entries : List (κ × β))
    (f : Option β → β) :
    (alter entries key f).filter (fun e => p e.1) = entries.filter fun e => p e.1 := by
  unfold alter
  by_cases hmem : key ∈ keys entries
  · rw [if_pos hmem]
    clear hmem
    induction entries with
    | nil => rfl
    | cons e entries ih =>
        rw [List.map_cons, List.filter_cons, List.filter_cons, ih]
        by_cases hkey : e.1 = key
        · rw [if_pos hkey, hkey, hp]
          rfl
        · rw [if_neg hkey]
  · rw [if_neg hmem, List.filter_append]
    simp [hp]

theorem filter_overwrite {p : κ → Bool} {events : List (κ × β)}
    (hp : ∀ key ∈ keys events, p key = false) (entries : List (κ × β)) :
    (overwrite entries events).filter (fun e => p e.1) = entries.filter fun e => p e.1 := by
  induction events generalizing entries with
  | nil => rfl
  | cons e events ih =>
      have hrest := ih (fun key hkey => hp key (List.mem_cons_of_mem _ hkey))
        (alter entries e.1 fun _ => e.2)
      show (overwrite (alter entries e.1 fun _ => e.2) events).filter _ = _
      rw [hrest, filter_alter (hp e.1 List.mem_cons_self)]

/-! ## Part of the events -/

def filterValues (f : γ → Option β) (events : List (κ × γ)) : List (κ × β) :=
  events.filterMap fun e => (f e.2).map fun v => (e.1, v)

omit [DecidableEq κ] in
theorem mem_filterValues {f : γ → Option β} {events : List (κ × γ)} {key : κ} {v : β} :
    (key, v) ∈ filterValues f events ↔ ∃ c, (key, c) ∈ events ∧ f c = some v := by
  unfold filterValues
  rw [List.mem_filterMap]
  constructor
  · rintro ⟨⟨k, c⟩, hmem, heq⟩
    obtain ⟨w, hw, hkey⟩ := Option.map_eq_some_iff.mp heq
    cases hkey
    exact ⟨c, hmem, hw⟩
  · rintro ⟨c, hmem, hv⟩
    exact ⟨(key, c), hmem, by simp [hv]⟩

omit [DecidableEq κ] in
theorem keys_filterValues_sublist (f : γ → Option β) (events : List (κ × γ)) :
    (keys (filterValues f events)).Sublist (keys events) := by
  induction events with
  | nil => exact List.Sublist.refl _
  | cons e events ih =>
      unfold filterValues
      cases h : f e.2 with
      | none =>
          rw [List.filterMap_cons_none (by rw [h]; rfl)]
          exact ih.cons _
      | some v =>
          rw [List.filterMap_cons_some (by rw [h]; rfl)]
          exact ih.cons_cons _

end NetForge.Calculus.Entries
