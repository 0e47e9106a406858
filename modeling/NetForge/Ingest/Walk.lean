import NetForge.Calculus.Ranges
import NetForge.Ingest.Calls

/-! # Walks over a table

An agent serves a finite table of instances in the order of their identifiers.
A walk on the wire is a bounded scan of the rows behind its base. Which tables
it returns as a whole is said in terms of their rows: it is not all of them,
since the end of the table is recognized by a text that a row can hold as well.
-/

namespace NetForge.Ingest.Snmp

open Python Asn1 EngineM Calculus

/-! ## Tables -/

structure Row where
  oid : Oid
  tag : UInt8
  content : Bytes

def Row.arcs (row : Row) : List Nat := row.oid.arcs

def Row.Under (base : Oid) (row : Row) : Prop := base.arcs <+: row.arcs ∧ row.arcs ≠ base.arcs

instance (base : Oid) (row : Row) : Decidable (row.Under base) :=
  inferInstanceAs (Decidable (_ ∧ _))

/-- What an agent stores: one value for each of finitely many identifiers. -/
structure Mib where
  rows : List Row
  increasing : Increasing Row.arcs rows

namespace Mib

variable (mib : Mib)

def next (c : Oid) : Option Row := mib.rows.find? fun row => c.arcs < row.arcs

def under (base : Oid) : List Row := mib.rows.filter fun row => row.Under base

def after (base : Oid) : Option Row :=
  mib.rows.find? fun row => base.arcs < row.arcs ∧ ¬ base.arcs <+: row.arcs

end Mib

/-- The arcs of a row behind those of the base. -/
def Row.suffix (base : Oid) (row : Row) : String :=
  ".".intercalate ((row.arcs.drop base.arcs.length).map Nat.repr)

def Row.entry (base : Oid) (row : Row) : Except PyError (String × SnmpValue) := do
  let value ← decodeValue row.tag row.content
  return (row.suffix base, value)

def Mib.table (mib : Mib) (base : Oid) : Except PyError (List (String × SnmpValue)) :=
  (mib.under base).mapM (Row.entry base)

/-! ## The agent -/

section

variable (P : Primitives) (net : Network) (e : SnmpV3Engine)

def Timely (s : Session) (boots engineTime : Int) : Prop :=
  e.useAuth = true → s.state.boots ≤ boots ∧
    (boots = s.state.boots → (engineTime - estimate net s).natAbs ≤ TIME_WINDOW_SECONDS)

/-- The reply answers request `reqId` with this one varbind. -/
inductive Carries (s : Session) (reqId : Nat) (reply : Bytes) (name : Oid) (tag : UInt8)
    (content : Bytes) : Prop
  | intro {h : MessageHeader} {scopedBody : Bytes}
      {contextEngineId contextName pdu requestId errorStatus errorIndex list varbind :
        UInt8 × Bytes}
      {more rest : List (UInt8 × Bytes)} :
      Framed reply h → ¬ Refused P reply h s.state.localizedAuth e.authHash e.useAuth →
      h.engineId = [] ∨ h.engineId = s.state.engineId → Timely net e s h.boots h.engineTime →
      Opens P h s.state.localizedPriv scopedBody →
      Encodes (contextEngineId :: contextName :: pdu :: more) scopedBody →
      Encodes (requestId :: errorStatus :: errorIndex :: list :: rest) pdu.2 →
      parseInt requestId.2 = reqId → parseInt errorStatus.2 = 0 → Encodes [varbind] list.2 →
      Encodes [(OBJECT_IDENTIFIER, name.content), (tag, content)] varbind.2 →
      Carries s reqId reply name tag content

/-- The reply to the GETNEXT request for `c`: the next row, or behind the last
one the name of the request with `endOfMibView`. -/
def Truthful (mib : Mib) (c : Oid) (s : Session) : Prop :=
  ∃ reqId reply s', requestReply P net e GET_NEXT_REQUEST [c.text] s = .ok (reqId, reply) s' ∧
    match mib.next c with
    | some row => Carries P net e s' reqId reply row.oid row.tag row.content
    | none => Carries P net e s' reqId reply c END_OF_MIB_VIEW []

/-- From session `s` on, the walk's requests behind `c` are answered truthfully,
`answered` of them; what comes then, if it comes to that, is an `SnmpError`. -/
def Serves (mib : Mib) (base : Oid) : (left answered : Nat) → (c : Oid) → Session → Prop
  | 0, _, _, _ => True
  | _ + 1, 0, c, s => ∃ message s', getnext P net e c.text s = .error (.snmpError message) s'
  | left + 1, answered + 1, c, s =>
      Truthful P net e mib c s ∧
        ∀ (o : Oid) value s', getnext P net e c.text s = .ok (o.text, value) s' →
          ¬ Stops (base.text ++ ".") c.text o.text value → Serves mib base left answered o s'

/-! ### One answer -/

variable {P net e}

theorem checkTimeWindow_of_timely {m : ParsedMessage} {s : Session}
    (h : Timely net e s m.boots m.engineTime) : ∃ s', checkTimeWindow net e m s = .ok () s' := by
  unfold checkTimeWindow
  by_cases hauth : e.useAuth = true
  · obtain ⟨hboots, htime⟩ := h hauth
    obtain ⟨reads, hnow⟩ := currentTime_run net s
    have hstale : raiseIf (m.boots < s.state.boots)
        (.snmpError "response is outside the time window (stale engine boots)") s = .ok () s :=
      EngineM.raiseIf_ok.mpr ⟨by omega, rfl⟩
    simp only [EngineM.onlyIf_ok, EngineM.bind_ok, EngineM.state_ok]
    by_cases hsame : m.boots = s.state.boots
    · exact ⟨_, .inl ⟨hauth, _, s, ⟨rfl, rfl⟩, (), s, hstale, .inl ⟨hsame, _, _, hnow,
        EngineM.raiseIf_ok.mpr ⟨Int.not_lt.mpr (htime hsame), rfl⟩⟩⟩⟩
    · exact ⟨s, .inl ⟨hauth, _, s, ⟨rfl, rfl⟩, (), s, hstale, .inr ⟨hsame, rfl⟩⟩⟩
  · exact ⟨s, EngineM.onlyIf_ok.mpr (.inr ⟨hauth, rfl⟩)⟩

theorem parseVarbind_carried {varbind : UInt8 × Bytes} {name : Oid} {tag : UInt8} {content : Bytes}
    (h : Encodes [(OBJECT_IDENTIFIER, name.content), (tag, content)] varbind.2) :
    parseVarbind varbind = (do
      let value ← decodeValue tag content
      return (name.text, value)) := by
  unfold parseVarbind
  rw [decodeChildren_eq_ok_iff.mpr h, ok_bind]
  simp only [index, List.getElem?_cons_zero, List.getElem?_cons_succ, ok_bind]
  rw [name.parseOid_content, ok_bind]

/-- A truthful reply is parsed to its varbind, unless its value cannot be
decoded. -/
theorem decodeReply_carried {s : Session} {reqId : Nat} {reply : Bytes} {name : Oid} {tag : UInt8}
    {content : Bytes} (h : Carries P net e s reqId reply name tag content) :
    (∀ err, decodeValue tag content = .error err → decodeReply P e s.state reply = .error err) ∧
      ∀ value, decodeValue tag content = .ok value →
        ∃ m, decodeReply P e s.state reply = .ok m ∧ m.varbinds = [(name.text, value)] ∧
          Admits net e s reqId m := by
  obtain ⟨hframed, hdigest, hengine, htimely, hopens, hscoped, hpdu, hid, hstatus, hlist,
    hvarbind⟩ := h
  rename_i h scopedBody _ _ _ _ _ _ list varbind _ _
  have hverify : verifyMessage P reply h s.state.localizedAuth e.authHash e.useAuth = .ok () := by
    cases hv : verifyMessage P reply h s.state.localizedAuth e.authHash e.useAuth with
    | ok u => rfl
    | error err => exact absurd ((verifyMessage_error_iff hframed).mp ⟨err, hv⟩) hdigest
  unfold decodeReply decodeMessage
  rw [parseHeader_ok_iff.mpr hframed, ok_bind, hverify, ok_bind, openScopedPdu_ok_iff.mpr hopens,
    ok_bind]
  unfold parseScopedPdu
  rw [decodeChildren_eq_ok_iff.mpr hscoped, ok_bind]
  simp only [index, List.getElem?_cons_zero, List.getElem?_cons_succ, ok_bind]
  rw [decodeChildren_eq_ok_iff.mpr hpdu, ok_bind]
  simp only [List.getElem?_cons_zero, List.getElem?_cons_succ, ok_bind]
  rw [decodeChildren_eq_ok_iff.mpr hlist, ok_bind, List.mapM_cons, List.mapM_nil,
    parseVarbind_carried hvarbind]
  constructor
  · intro err herr
    rw [herr]
    rfl
  · intro value hvalue
    rw [hvalue]
    refine ⟨_, rfl, rfl, hid, hengine, ?_, hstatus⟩
    exact checkTimeWindow_of_timely htimely

theorem getnext_carried {text : String} {s s₁ : Session} {reqId : Nat} {reply : Bytes} {name : Oid}
    {tag : UInt8} {content : Bytes}
    (hrequest : requestReply P net e GET_NEXT_REQUEST [text] s = .ok (reqId, reply) s₁)
    (h : Carries P net e s₁ reqId reply name tag content) :
    (∀ err, decodeValue tag content = .error err →
      ∃ s', getnext P net e text s = .error err s') ∧
      ∀ value, decodeValue tag content = .ok value →
        ∃ s', getnext P net e text s = .ok (name.text, value) s' := by
  obtain ⟨hfail, hdecoded⟩ := decodeReply_carried h
  constructor
  · intro err herr
    have hparse : of (decodeReply P e s₁.state reply) s₁ = .error err s₁ := by
      rw [hfail err herr]
      rfl
    have haccept : acceptReply P net e reqId reply s₁ = .error err s₁ :=
      EngineM.bind_error.mpr (.inr ⟨_, s₁, state_run s₁, EngineM.bind_error.mpr (.inl hparse)⟩)
    have hexchange : exchange P net e GET_NEXT_REQUEST [text] s = .error err s₁ :=
      EngineM.bind_error.mpr (.inr ⟨_, s₁, hrequest, haccept⟩)
    exact ⟨s₁, EngineM.bind_error.mpr (.inl hexchange)⟩
  · intro value hvalue
    obtain ⟨m, hm, hvarbinds, hadmits⟩ := hdecoded value hvalue
    obtain ⟨s', hexchange⟩ := (exchange_ok_iff P net e hrequest).mpr ⟨hm, hadmits⟩
    refine ⟨s', EngineM.bind_ok.mpr ⟨m, s', hexchange, ?_⟩⟩
    rw [hvarbinds]
    rfl

/-! ## A walk is a scan -/

/-- What the loop of `walk` does with a row. -/
def Row.reading (base : Oid) (row : Row) : Reading (String × SnmpValue) PyError :=
  match decodeValue row.tag row.content with
  | .error err => .fail err
  | .ok value =>
      if value = .str "endOfMibView" ∨ ¬ row.Under base then .stop
      else if value = .str "noSuchObject" ∨ value = .str "noSuchInstance" then .skip
      else .keep (row.suffix base, value)

/-- The loop ends as the scan does; it may also have been cut off by an
`SnmpError`. -/
def EndsAs (r : EStateM.Result PyError Session (Option (List (String × SnmpValue)))) :
    ScanEnd (String × SnmpValue) PyError → Prop
  | .done entries => ∃ s', r = .ok (some entries) s'
  | .exhausted => (∃ s', r = .ok none s') ∨ ∃ message s', r = .error (.snmpError message) s'
  | .failed err => ∃ s', r = .error err s'

theorem Row.under_iff_prefix {base : Oid} {row : Row} :
    (base.text ++ ".").toList.isPrefixOf row.oid.text.toList = true ↔ row.Under base := by
  rw [List.isPrefixOf_iff_prefix]
  exact row.oid.text_dot_prefix_iff base

theorem Row.text_of_under {base : Oid} {row : Row} (h : row.Under base) :
    row.oid.text = base.text ++ "." ++ row.suffix base := by
  obtain ⟨⟨rest, hrest⟩, hne⟩ := h
  have hnil : rest ≠ [] := by
    rintro rfl
    exact hne (by rw [← hrest, List.append_nil])
  have hdrop : row.arcs.drop base.arcs.length = rest := by
    rw [← hrest, List.drop_left]
  rw [row.oid.text_of_arcs_append hrest.symm hnil, Row.suffix, hdrop]

/-- The key of the row is what stands behind the prefix in its name. -/
theorem Row.key_eq_suffix {base : Oid} {row : Row} (h : row.Under base) :
    String.ofList (row.oid.text.toList.drop (base.text ++ ".").length) = row.suffix base := by
  rw [Row.text_of_under h, String.toList_append, ← String.length_toList, List.drop_left,
    String.ofList_toList]

theorem Row.arcs_eq_of_suffix {base : Oid} {row row' : Row} (h : row.Under base)
    (h' : row'.Under base) (hsuffix : row.suffix base = row'.suffix base) :
    row.arcs = row'.arcs := by
  have htext : row.oid.text = row'.oid.text := by
    rw [Row.text_of_under h, Row.text_of_under h', hsuffix]
  exact congrArg Oid.arcs (Oid.ext_text htext)

theorem setItem_fresh {out : List (String × SnmpValue)} {key : String} {value : SnmpValue}
    (h : ∀ item ∈ out, item.1 ≠ key) : setItem out key value = out ++ [(key, value)] := by
  unfold setItem
  have hnone : ¬ out.any (·.1 == key) = true := by
    rw [List.any_eq_true]
    rintro ⟨item, hitem, heq⟩
    exact h item hitem (eq_of_beq heq)
  rw [if_neg hnone]

/-! ### The loop, by what an answer is -/

theorem walkFrom_of_error {columnPrefix current : String} {left : Nat}
    {out : List (String × SnmpValue)} {s s' : Session} {err : PyError}
    (h : getnext P net e current s = .error err s') :
    walkFrom P net e columnPrefix (left + 1) current out s = .error err s' := by
  unfold walkFrom
  exact EngineM.bind_error.mpr (.inl h)

theorem walkFrom_of_stop {columnPrefix current oid : String} {value : SnmpValue} {left : Nat}
    {out : List (String × SnmpValue)} {s s' : Session}
    (h : getnext P net e current s = .ok (oid, value) s')
    (hstop : Stops columnPrefix current oid value) :
    walkFrom P net e columnPrefix (left + 1) current out s = .ok (some out) s' := by
  unfold walkFrom
  refine EngineM.bind_ok.mpr ⟨(oid, value), s', h, ?_⟩
  unfold Stops at hstop
  simp only [hstop, if_true]
  exact EngineM.pure_ok.mpr ⟨rfl, rfl⟩

theorem walkFrom_of_go {columnPrefix current oid : String} {value : SnmpValue} {left : Nat}
    {out : List (String × SnmpValue)} {s s' : Session}
    (h : getnext P net e current s = .ok (oid, value) s')
    (hgo : ¬ Stops columnPrefix current oid value) :
    walkFrom P net e columnPrefix (left + 1) current out s =
      walkFrom P net e columnPrefix left oid
        (if value = .str "noSuchObject" ∨ value = .str "noSuchInstance" then out
          else setItem out (String.ofList (oid.toList.drop columnPrefix.length)) value) s' := by
  conv_lhs => unfold walkFrom
  change EStateM.bind _ _ s = _
  unfold EStateM.bind
  unfold Stops at hgo
  rw [h]
  simp only [hgo, if_false]

theorem decodeValue_endOfMibView (content : Bytes) :
    decodeValue END_OF_MIB_VIEW content = .ok (.str "endOfMibView") := rfl

theorem Mib.next_eq (mib : Mib) (c : Oid) : mib.next c = (behind Row.arcs c.arcs mib.rows).head? :=
  List.head?_filter.symm

/-- A larger identifier has moved on, so only the value or the prefix can stop the loop. -/
theorem stops_iff_of_lt (base : Oid) {c : Oid} {row : Row} (value : SnmpValue)
    (h : c.arcs < row.arcs) :
    Stops (base.text ++ ".") c.text row.oid.text value ↔
      value = .str "endOfMibView" ∨ ¬ row.Under base := by
  have hmoved : row.oid.text ≠ c.text := by
    intro htext
    rw [Row.arcs, Oid.ext_text htext] at h
    exact lt_irrefl _ h
  unfold Stops
  rw [Row.under_iff_prefix]
  simp only [hmoved, or_false]

/-- The entry of a row takes no key that a later row needs. -/
theorem fresh_append {base : Oid} {row : Row} {rest : List Row} {out : List (String × SnmpValue)}
    (hincreasing : Increasing Row.arcs (row :: rest)) (hunder : row.Under base)
    (value : SnmpValue)
    (hfresh : ∀ r ∈ rest, r.Under base → ∀ item ∈ out, item.1 ≠ r.suffix base) :
    ∀ r ∈ rest, r.Under base →
      ∀ item ∈ out ++ [(row.suffix base, value)], item.1 ≠ r.suffix base := by
  intro r hr hr' item hitem
  rcases List.mem_append.mp hitem with hold | hadded
  · exact hfresh r hr hr' item hold
  · obtain rfl := List.mem_singleton.mp hadded
    intro hsuffix
    have hlt := (List.pairwise_cons.mp hincreasing).1 r hr
    rw [Row.arcs_eq_of_suffix hunder hr' hsuffix] at hlt
    exact lt_irrefl _ hlt

theorem walkFrom_endsAs {mib : Mib} {base c : Oid} {left answered : Nat} {s : Session}
    {out : List (String × SnmpValue)} (hserves : Serves P net e mib base left answered c s)
    (hfresh : ∀ row ∈ behind Row.arcs c.arcs mib.rows, row.Under base →
      ∀ item ∈ out, item.1 ≠ row.suffix base) :
    EndsAs (walkFrom P net e (base.text ++ ".") left c.text out s)
      (scan (Row.reading base) (min left answered) (behind Row.arcs c.arcs mib.rows) out) := by
  induction left generalizing answered c s out with
  | zero =>
      rw [Nat.zero_min]
      exact .inl ⟨s, rfl⟩
  | succ left ih =>
      cases answered with
      | zero =>
          obtain ⟨message, s', hsilent⟩ := hserves
          rw [Nat.min_zero]
          exact .inr ⟨message, s', walkFrom_of_error hsilent⟩
      | succ answered =>
          obtain ⟨⟨reqId, reply, s₁, hrequest, hcarries⟩, hgo⟩ := hserves
          have hbehind := mib.increasing.behind c.arcs
          rw [Mib.next_eq] at hcarries
          rw [Nat.add_min_add_right]
          cases hrows : behind Row.arcs c.arcs mib.rows with
          | nil =>
              rw [hrows] at hcarries
              obtain ⟨-, hanswer⟩ := getnext_carried hrequest hcarries
              obtain ⟨s', hanswer⟩ := hanswer _ (decodeValue_endOfMibView [])
              exact ⟨s', walkFrom_of_stop hanswer (.inl rfl)⟩
          | cons row rest =>
              rw [hrows] at hcarries hfresh hbehind
              obtain ⟨hfail, hanswer⟩ := getnext_carried hrequest hcarries
              have hlarger : c.arcs < row.arcs := lt_of_behind_eq_cons hrows
              have hrest : behind Row.arcs row.oid.arcs mib.rows = rest :=
                behind_of_behind mib.increasing hrows
              rw [scan]
              cases hvalue : decodeValue row.tag row.content with
              | error err =>
                  obtain ⟨s', hanswer⟩ := hfail err hvalue
                  simp only [Row.reading, hvalue]
                  exact ⟨s', walkFrom_of_error hanswer⟩
              | ok value =>
                  obtain ⟨s', hanswer⟩ := hanswer value hvalue
                  have hstops := stops_iff_of_lt base value hlarger
                  by_cases hstop : value = .str "endOfMibView" ∨ ¬ row.Under base
                  · simp only [Row.reading, hvalue, hstop, if_true]
                    exact ⟨s', walkFrom_of_stop hanswer (hstops.mpr hstop)⟩
                  · have hnext := hgo row.oid value s' hanswer (mt hstops.mp hstop)
                    have hunder : row.Under base := not_not.mp (not_or.mp hstop).2
                    rw [walkFrom_of_go hanswer (mt hstops.mp hstop)]
                    simp only [Row.reading, hvalue, hstop, if_false]
                    have hstill : ∀ r ∈ rest, r.Under base →
                        ∀ item ∈ out, item.1 ≠ r.suffix base := fun r hr =>
                      hfresh r (List.mem_cons_of_mem _ hr)
                    by_cases hskip : value = .str "noSuchObject" ∨ value = .str "noSuchInstance"
                    · simp only [hskip, if_true]
                      have hrun := ih hnext (by rwa [hrest])
                      rwa [hrest] at hrun
                    · have hnew := fun item hitem =>
                        hfresh row List.mem_cons_self hunder item hitem
                      simp only [hskip, if_false]
                      rw [Row.key_eq_suffix hunder, setItem_fresh hnew]
                      have hapart := fresh_append hbehind hunder value hstill
                      have hrun := ih hnext (by rwa [hrest])
                      rwa [hrest] at hrun

/-! ## Complete tables -/

/-- The map of all rows under the base, or an `SnmpError`. -/
def Complete (mib : Mib) (base : Oid) :
    EStateM.Result PyError Session (List (String × SnmpValue)) → Prop
  | .ok out _ => mib.table base = .ok out
  | .error err _ => IsSnmpError err

/-- What has to hold of the rows that are met in `limit` requests. -/
structure Walkable (mib : Mib) (base : Oid) (limit : Nat) : Prop where
  /-- Their values can be decoded, also the one behind the last row. -/
  decodes : ∀ row ∈ (mib.under base ++ (mib.after base).toList).take limit,
    ∃ value, decodeValue row.tag row.content = .ok value
  /-- None reads as the end of the table. -/
  noEnd : ∀ row ∈ (mib.under base).take limit,
    decodeValue row.tag row.content ≠ .ok (.str "endOfMibView")
  /-- None reads as missing, if all of them are met before the requests run out. -/
  noGap : (mib.under base).length < limit → ∀ row ∈ mib.under base,
    decodeValue row.tag row.content ≠ .ok (.str "noSuchObject") ∧
      decodeValue row.tag row.content ≠ .ok (.str "noSuchInstance")

theorem Row.reading_eq_fail_iff {base : Oid} {row : Row} {err : PyError} :
    row.reading base = .fail err ↔ decodeValue row.tag row.content = .error err := by
  unfold Row.reading
  cases decodeValue row.tag row.content with
  | error err' => simp
  | ok value =>
      simp only [reduceCtorEq, iff_false]
      split_ifs <;> simp

theorem Row.reading_ne_fail_iff {base : Oid} {row : Row} :
    (∀ err, row.reading base ≠ .fail err) ↔
      ∃ value, decodeValue row.tag row.content = .ok value := by
  simp only [ne_eq, Row.reading_eq_fail_iff]
  cases decodeValue row.tag row.content with
  | error err => simp
  | ok value => simp

theorem Row.reading_of_under {base : Oid} {row : Row} {value : SnmpValue} (h : row.Under base)
    (hvalue : decodeValue row.tag row.content = .ok value) :
    row.reading base =
      if value = .str "endOfMibView" then .stop
      else if value = .str "noSuchObject" ∨ value = .str "noSuchInstance" then .skip
      else .keep (row.suffix base, value) := by
  unfold Row.reading
  rw [hvalue]
  simp only [h, not_true_eq_false, or_false]

theorem Row.reading_eq_stop_iff {base : Oid} {row : Row} (h : row.Under base) :
    row.reading base = .stop ↔ decodeValue row.tag row.content = .ok (.str "endOfMibView") := by
  cases hvalue : decodeValue row.tag row.content with
  | error err => simp [Row.reading, hvalue]
  | ok value =>
      rw [Row.reading_of_under h hvalue, Except.ok.injEq]
      split_ifs with hstop hskip
      · simp [hstop]
      · simp [hstop]
      · simp [hstop]

theorem Row.reading_eq_skip_iff {base : Oid} {row : Row} (h : row.Under base) :
    row.reading base = .skip ↔
      decodeValue row.tag row.content = .ok (.str "noSuchObject") ∨
        decodeValue row.tag row.content = .ok (.str "noSuchInstance") := by
  cases hvalue : decodeValue row.tag row.content with
  | error err => simp [Row.reading, hvalue]
  | ok value =>
      rw [Row.reading_of_under h hvalue, Except.ok.injEq, Except.ok.injEq]
      split_ifs with hstop hskip
      · simp [hstop]
      · simp [hskip]
      · simpa using hskip

theorem Row.reads (base : Oid) (row : Row) : Reads (Row.reading base) (Row.entry base) row := by
  unfold Row.entry
  constructor
  · intro b hb
    unfold Row.reading at hb
    cases hvalue : decodeValue row.tag row.content with
    | error err => simp [hvalue] at hb
    | ok value =>
        simp only [hvalue] at hb
        split_ifs at hb
        cases hb
        rfl
  · intro err herr
    rw [Row.reading_eq_fail_iff.mp herr]
    rfl

theorem closed_after (base : Oid) {rest : List Row}
    (h : ∀ row ∈ rest, ¬ base.arcs <+: row.arcs) : Closed (Row.reading base) rest := by
  intro row hrow
  have hunder : ¬ row.Under base := fun hu => h row hrow hu.1
  unfold Row.reading
  cases decodeValue row.tag row.content with
  | error err => exact .inr ⟨err, rfl⟩
  | ok value => simp [hunder]

/-- A scan behind the base collects the table exactly when the rows in reach let
it. -/
theorem scan_collects_iff_walkable (mib : Mib) (base : Oid) (limit : Nat) :
    Collects (Row.entry base) (mib.under base) []
        (scan (Row.reading base) limit (behind Row.arcs base.arcs mib.rows) []) ↔
      Walkable mib base limit := by
  have hunder : ∀ row ∈ mib.under base, row.Under base := fun row hrow => by
    simpa using List.of_mem_filter hrow
  have hsplit : behind Row.arcs base.arcs mib.rows = mib.under base ++
      mib.rows.filter fun row => base.arcs < row.arcs ∧ ¬ base.arcs <+: row.arcs :=
    behind_eq_below_append mib.increasing base.arcs
  have hclosed : Closed (Row.reading base)
      (mib.rows.filter fun row => base.arcs < row.arcs ∧ ¬ base.arcs <+: row.arcs) :=
    closed_after base fun row hrow => by
      have hbehind := List.of_mem_filter hrow
      simp only [decide_eq_true_eq] at hbehind
      exact hbehind.2
  have hafter : (mib.rows.filter fun row =>
      base.arcs < row.arcs ∧ ¬ base.arcs <+: row.arcs).head? = mib.after base := List.head?_filter
  rw [hsplit, scan_collects_iff (fun row _ => row.reads base) hclosed, hafter]
  have hstop : (∀ row ∈ (mib.under base).take limit, row.reading base ≠ .stop) ↔
      ∀ row ∈ (mib.under base).take limit,
        decodeValue row.tag row.content ≠ .ok (.str "endOfMibView") :=
    forall₂_congr fun row hrow =>
      not_congr (Row.reading_eq_stop_iff (hunder row (List.mem_of_mem_take hrow)))
  have hskip : (∀ row ∈ mib.under base, row.reading base ≠ .skip) ↔ ∀ row ∈ mib.under base,
      decodeValue row.tag row.content ≠ .ok (.str "noSuchObject") ∧
        decodeValue row.tag row.content ≠ .ok (.str "noSuchInstance") :=
    forall₂_congr fun row hrow =>
      (not_congr (Row.reading_eq_skip_iff (hunder row hrow))).trans not_or
  simp only [Row.reading_ne_fail_iff, hstop, hskip]
  constructor
  · rintro ⟨hdecodes, hend, hgap⟩
    exact ⟨hdecodes, hend, hgap⟩
  · rintro ⟨hdecodes, hend, hgap⟩
    exact ⟨hdecodes, hend, hgap⟩

theorem complete_iff_collects {mib : Mib} {base : Oid} {baseOid : String} {maxOids limit : Nat}
    {s : Session} (hbase : stripChar '.' baseOid = base.text)
    (hends : EndsAs (walkFrom P net e (base.text ++ ".") maxOids base.text [] s)
      (scan (Row.reading base) limit (behind Row.arcs base.arcs mib.rows) [])) :
    Complete mib base (walk P net e baseOid maxOids s) ↔
      Collects (Row.entry base) (mib.under base) []
        (scan (Row.reading base) limit (behind Row.arcs base.arcs mib.rows) []) := by
  cases hscan : scan (Row.reading base) limit (behind Row.arcs base.arcs mib.rows) [] with
  | done entries =>
      rw [hscan] at hends
      obtain ⟨s', hloop⟩ := hends
      have hwalk : walk P net e baseOid maxOids s = .ok entries s' := by
        unfold walk
        rw [hbase]
        exact EngineM.bind_ok.mpr ⟨_, s', hloop, rfl⟩
      rw [hwalk]
      simp only [Complete, Collects, Mib.table, List.nil_append]
      constructor
      · intro htable
        exact ⟨entries, htable, rfl⟩
      · rintro ⟨_, htable, rfl⟩
        exact htable
  | exhausted =>
      rw [hscan] at hends
      refine iff_of_true ?_ trivial
      rcases hends with ⟨s', hloop⟩ | ⟨message, s', hloop⟩
      · have hwalk : walk P net e baseOid maxOids s = .error (.snmpError
            s!"{baseOid} walk exceeded {maxOids} OIDs; the table would be truncated") s' := by
          unfold walk
          rw [hbase]
          exact EngineM.bind_error.mpr (.inr ⟨_, s', hloop, rfl⟩)
        rw [hwalk]
        trivial
      · have hwalk : walk P net e baseOid maxOids s = .error (.snmpError message) s' := by
          unfold walk
          rw [hbase]
          exact EngineM.bind_error.mpr (.inl hloop)
        rw [hwalk]
        trivial
  | failed err =>
      rw [hscan] at hends
      obtain ⟨s', hloop⟩ := hends
      have hwalk : walk P net e baseOid maxOids s = .error err s' := by
        unfold walk
        rw [hbase]
        exact EngineM.bind_error.mpr (.inl hloop)
      obtain ⟨row, -, hfail⟩ := exists_of_scan_failed hscan
      have hforeign := raises_decodeValue _ _ err (Row.reading_eq_fail_iff.mp hfail)
      rw [hwalk]
      exact iff_of_false hforeign not_false

end

/-- Against an agent that answers truthfully, a walk returns the whole table or
raises `SnmpError` exactly when the rows it meets can be decoded and none of
them reads as an exception. -/
theorem walk_complete_iff (P : Primitives) (net : Network) (e : SnmpV3Engine) (mib : Mib)
    (base : Oid) (baseOid : String) (maxOids answered : Nat) (s : Session)
    (hbase : stripChar '.' baseOid = base.text)
    (hserves : Serves P net e mib base maxOids answered base s) :
    Complete mib base (walk P net e baseOid maxOids s) ↔
      Walkable mib base (min maxOids answered) := by
  have hends := walkFrom_endsAs hserves fun _ _ _ item hitem => absurd hitem List.not_mem_nil
  rw [complete_iff_collects hbase hends, scan_collects_iff_walkable]

namespace Sample

def answering (id : Nat) : Outgoing := { outgoing with msgId := id, flags := 0 }

def answerPdu (id : Nat) (name : Oid) (tag : UInt8) (content : Bytes) : Bytes :=
  wires [(INTEGER, intOctets id), (INTEGER, intOctets 0), (INTEGER, intOctets 0),
    (SEQUENCE, wires [(SEQUENCE, wires [(OBJECT_IDENTIFIER, name.content), (tag, content)])])]

def answerScoped (id : Nat) (name : Oid) (tag : UInt8) (content : Bytes) : Bytes :=
  wires [(OCTET_STRING, engineId), (OCTET_STRING, []),
    (GET_RESPONSE, answerPdu id name tag content)]

def answer (id : Nat) (name : Oid) (tag : UInt8) (content : Bytes) : Bytes :=
  (answering id).message [] [] (SEQUENCE, answerScoped id name tag content)

theorem salt_length : (List.replicate PRIV_PARAM_LEN (0 : UInt8)).length = PRIV_PARAM_LEN :=
  List.length_replicate

def device (answers : List Bytes) : Network where
  clock := fun _ => 0
  salt := fun _ => List.replicate PRIV_PARAM_LEN 0
  salt_length := fun _ => salt_length
  idna := fun _ => false
  lookup := fun _ => none
  deliver := fun sent => .ok [.datagram ((answers[sent.length - 1]?).getD [])]

theorem arcs_lt_of_digits {rest : List Nat} (h : ∀ a ∈ rest, a < 10) :
    ∀ a ∈ 1 :: 3 :: rest, a < 10 ^ maxStrDigits := by
  have hsmall : ∀ a ∈ 1 :: 3 :: rest, a < 10 := by
    intro a ha
    rcases List.mem_cons.mp ha with rfl | ha
    · omega
    · rcases List.mem_cons.mp ha with rfl | ha
      · omega
      · exact h a ha
  exact fun a ha => Nat.lt_of_lt_of_le (hsmall a ha) (Nat.le_self_pow (by decide) 10)

/-- An object identifier under `1.3` with one-digit arcs. -/
def digitOid (rest : List Nat) (h : ∀ a ∈ rest, a < 10) : Oid where
  first := 1
  second := 3
  rest := rest
  first_le := sysDescr.first_le
  second_lt := sysDescr.second_lt
  arcs_lt := arcs_lt_of_digits h

def column : Oid := digitOid [6, 1, 2, 1, 1, 1] (by decide)

def mib (text : String) : Mib where
  rows := [{ oid := sysDescr, tag := OCTET_STRING, content := encodeUtf8 text }]
  increasing := List.pairwise_singleton _ _

theorem answer_carries {P : Primitives} {net : Network} {s : Session} {id : Nat} {name : Oid}
    {tag : UInt8} {content : Bytes} (hengine : s.state.engineId = engineId)
    (hsize : (answer id name tag content).length < sizeLimit) :
    Carries P net (engine .noAuthNoPriv) s id (answer id name tag content) name tag content := by
  have hbody : ((answering id).body [] [] (SEQUENCE, answerScoped id name tag content)).length <
      sizeLimit := lt_of_wire hsize
  have hscoped : (answerScoped id name tag content).length < sizeLimit :=
    lt_of_wires hbody SEQUENCE (answerScoped id name tag content) (by simp)
  have hpdu : (answerPdu id name tag content).length < sizeLimit :=
    lt_of_wires hscoped GET_RESPONSE (answerPdu id name tag content) (by simp)
  have hlist : (wires [(SEQUENCE, wires
      [(OBJECT_IDENTIFIER, name.content), (tag, content)])]).length < sizeLimit :=
    lt_of_wires hpdu SEQUENCE _ (by simp)
  have hvarbind : (wires [(OBJECT_IDENTIFIER, name.content), (tag, content)]).length <
      sizeLimit :=
    lt_of_wires hlist SEQUENCE _ (by simp)
  have hheader := (answering id).parseHeader_message hsize
  have hplain : ¬ Encrypted ((answering id).headerOf [] []
      (SEQUENCE, answerScoped id name tag content))
      (SEQUENCE, answerScoped id name tag content) := by
    intro h
    have hflag : hasFlag 0 FLAG_PRIV = true := h.1
    exact absurd hflag (by decide)
  have hauth : ¬ hasFlag ((answering id).headerOf [] []
      (SEQUENCE, answerScoped id name tag content)).flags FLAG_AUTH = true := by
    change ¬ hasFlag 0 FLAG_AUTH = true
    decide
  exact .intro (parseHeader_ok_iff.mp hheader) (fun h => hauth h.1) (.inr hengine.symm)
    (fun h => absurd h (by decide)) (.plain rfl hplain)
    (decodeChildren_eq_ok_iff.mp (decodeChildren_wires hscoped))
    (decodeChildren_eq_ok_iff.mp (decodeChildren_wires hpdu)) (parseInt_intOctets _)
    (parseInt_intOctets 0) (decodeChildren_eq_ok_iff.mp (decodeChildren_wires hlist))
    (decodeChildren_eq_ok_iff.mp (decodeChildren_wires hvarbind))

def namedDevice : Network :=
  device [answer 1 sysDescr OCTET_STRING (encodeUtf8 "endOfMibView")]

theorem truthful_of_answer {mib : Mib} {net : Network} {s : Session} {c : Oid} (id : Nat)
    (row : Row) (st : EngineState)
    (hrequest : EngineM.returned (requestReply primitives net (engine .noAuthNoPriv)
      GET_NEXT_REQUEST [c.text]) s = some ((id, answer id row.oid row.tag row.content), st))
    (hengine : st.engineId = engineId)
    (hsize : (answer id row.oid row.tag row.content).length < 256)
    (hnext : mib.next c = some row) :
    Truthful primitives net (engine .noAuthNoPriv) mib c s := by
  obtain ⟨s', hsent, rfl⟩ := EngineM.ok_of_returned hrequest
  have hlarge : 256 ≤ sizeLimit := Nat.le_self_pow (by decide) 256
  refine ⟨id, _, s', hsent, ?_⟩
  rw [hnext]
  exact answer_carries hengine (Nat.lt_of_lt_of_le hsize hlarge)

theorem serves_succ {mib : Mib} {net : Network} {base c : Oid} {left answered : Nat} {s : Session}
    (o : Oid) (value : SnmpValue)
    (htruthful : Truthful primitives net (engine .noAuthNoPriv) mib c s)
    (hanswer : (EngineM.returned (getnext primitives net (engine .noAuthNoPriv) c.text) s).map
      (·.1) = some (o.text, value))
    (hrest : ¬ Stops (base.text ++ ".") c.text o.text value →
      Serves primitives net (engine .noAuthNoPriv) mib base left answered o
        (final (getnext primitives net (engine .noAuthNoPriv) c.text) s)) :
    Serves primitives net (engine .noAuthNoPriv) mib base (left + 1) (answered + 1) c s := by
  refine ⟨htruthful, ?_⟩
  intro o' value' s' hgiven hgo
  have hsame : o' = o ∧ value' = value := by
    unfold EngineM.returned at hanswer
    rw [hgiven] at hanswer
    obtain ⟨hname, hvalue⟩ := Prod.mk.inj (Option.some.inj hanswer)
    exact ⟨Oid.ext_text hname, hvalue⟩
  have hlast : s' = final (getnext primitives net (engine .noAuthNoPriv) c.text) s := by
    unfold final
    rw [hgiven]
  rw [hlast, hsame.1]
  rw [hsame.1, hsame.2] at hgo
  exact hrest hgo

def ifDescr : Oid := digitOid [6, 1, 2, 1, 2, 2, 1, 2] (by decide)

def loopbackRow : Row where
  oid := digitOid [6, 1, 2, 1, 2, 2, 1, 2, 1] (by decide)
  tag := OCTET_STRING
  content := encodeUtf8 "lo"

def uplinkRow : Row where
  oid := digitOid [6, 1, 2, 1, 2, 2, 1, 2, 2] (by decide)
  tag := OCTET_STRING
  content := encodeUtf8 "eth0"

def typeRow : Row where
  oid := digitOid [6, 1, 2, 1, 2, 2, 1, 3, 1] (by decide)
  tag := INTEGER
  content := intOctets 24

def interfaceMib : Mib where
  rows := [loopbackRow, uplinkRow, typeRow]
  increasing := by
    unfold Increasing
    decide

def rowAnswer (id : Nat) (row : Row) : Bytes := answer id row.oid row.tag row.content

def interfaceDevice : Network :=
  device [rowAnswer 1 loopbackRow, rowAnswer 2 uplinkRow, rowAnswer 3 typeRow]

def afterLoopback : Session :=
  final (getnext primitives interfaceDevice (engine .noAuthNoPriv) ifDescr.text) session

def afterUplink : Session :=
  final (getnext primitives interfaceDevice (engine .noAuthNoPriv) loopbackRow.oid.text)
    afterLoopback

theorem serves_interfaceDevice : Serves primitives interfaceDevice (engine .noAuthNoPriv)
    interfaceMib ifDescr 10 3 ifDescr session := by
  have hfirst : Truthful primitives interfaceDevice (engine .noAuthNoPriv) interfaceMib ifDescr
      session :=
    truthful_of_answer 1 loopbackRow answered (by decide +kernel) rfl (by decide +kernel) rfl
  have hsecond : Truthful primitives interfaceDevice (engine .noAuthNoPriv) interfaceMib
      loopbackRow.oid afterLoopback :=
    truthful_of_answer 2 uplinkRow { answered with msgId := 2, reqId := 2 } (by decide +kernel) rfl
      (by decide +kernel) rfl
  have hthird : Truthful primitives interfaceDevice (engine .noAuthNoPriv) interfaceMib
      uplinkRow.oid afterUplink :=
    truthful_of_answer 3 typeRow { answered with msgId := 3, reqId := 3 } (by decide +kernel) rfl
      (by decide +kernel) rfl
  refine serves_succ loopbackRow.oid (.str "lo") hfirst (by decide +kernel) ?_
  intro _
  refine serves_succ uplinkRow.oid (.str "eth0") hsecond (by decide +kernel) ?_
  intro _
  refine serves_succ typeRow.oid (.int 24) hthird (by decide +kernel) ?_
  intro hgo
  -- The third row is behind the column.
  exact absurd (.inr (.inl (by decide +kernel))) hgo

theorem walkable_interfaces : Walkable interfaceMib ifDescr 3 := by
  have hunder : interfaceMib.under ifDescr = [loopbackRow, uplinkRow] := rfl
  have hafter : interfaceMib.after ifDescr = some typeRow := rfl
  have hloopback : decodeValue OCTET_STRING (encodeUtf8 "lo") = .ok (.str "lo") := by
    decide +kernel
  have huplink : decodeValue OCTET_STRING (encodeUtf8 "eth0") = .ok (.str "eth0") := by
    decide +kernel
  have htype : decodeValue INTEGER (intOctets 24) = .ok (.int 24) := by decide +kernel
  constructor
  · rw [hunder, hafter]
    simp [loopbackRow, uplinkRow, typeRow, hloopback, huplink, htype]
  · rw [hunder]
    simp [loopbackRow, uplinkRow, hloopback, huplink]
  · rw [hunder]
    simp [loopbackRow, uplinkRow, hloopback, huplink]

end Sample

/-- The names of two interfaces, with the column of their types behind them. -/
theorem walk_complete_iff_ifDescr :
    Complete Sample.interfaceMib Sample.ifDescr
      (walk Sample.primitives Sample.interfaceDevice (Sample.engine .noAuthNoPriv)
        ".1.3.6.1.2.1.2.2.1.2" 10 Sample.session) := by
  have hbase : stripChar '.' ".1.3.6.1.2.1.2.2.1.2" = Sample.ifDescr.text := by decide +kernel
  have hiff := walk_complete_iff Sample.primitives Sample.interfaceDevice
    (Sample.engine .noAuthNoPriv) Sample.interfaceMib Sample.ifDescr ".1.3.6.1.2.1.2.2.1.2" 10 3
    Sample.session hbase Sample.serves_interfaceDevice
  exact hiff.mpr Sample.walkable_interfaces

/-- An object whose text is `endOfMibView` is missing from the table. -/
theorem named_end_truncates :
    ¬ ∀ (P : Primitives) (net : Network) (e : SnmpV3Engine) (mib : Mib) (base : Oid)
        (baseOid : String) (maxOids answered : Nat) (s : Session),
        stripChar '.' baseOid = base.text → Serves P net e mib base maxOids answered base s →
        Complete mib base (walk P net e baseOid maxOids s) := by
  intro hclaim
  have hcomplete := hclaim Sample.primitives Sample.namedDevice (Sample.engine .noAuthNoPriv)
    (Sample.mib "endOfMibView") Sample.column "1.3.6.1.2.1.1.1" 10 10 Sample.session
    (by decide +kernel)
    ⟨Sample.truthful_of_answer 1 ⟨sysDescr, OCTET_STRING, encodeUtf8 "endOfMibView"⟩
      Sample.answered (by decide +kernel) rfl (by decide +kernel) rfl, ?_⟩
  · obtain ⟨s', hwalk, -⟩ := EngineM.ok_of_returned
      (by decide +kernel : EngineM.returned (walk Sample.primitives Sample.namedDevice
        (Sample.engine .noAuthNoPriv) "1.3.6.1.2.1.1.1" 10) Sample.session =
          some ([], Sample.answered))
    have htable : (Sample.mib "endOfMibView").table Sample.column =
        .ok [("0", .str "endOfMibView")] := by
      decide +kernel
    rw [hwalk] at hcomplete
    have hempty := htable.symm.trans hcomplete
    cases hempty
  · intro o value s' hanswer hgo
    have hvalue : (EngineM.returned (getnext Sample.primitives Sample.namedDevice
        (Sample.engine .noAuthNoPriv) Sample.column.text) Sample.session).map (·.1.2) =
          some (.str "endOfMibView") := by
      decide +kernel
    unfold EngineM.returned at hvalue
    rw [hanswer] at hvalue
    exact absurd (.inl (Option.some.inj hvalue)) hgo

end NetForge.Ingest.Snmp
