import NetForge.Ingest.Containment

/-! # Calls of an engine

Runs of `get`, `getnext` and `walk` on one engine, each call in the session the
calls before it left, however they ended. A walk asks for texts it was sent, so
its requests are followed one by one.
-/

namespace NetForge.Ingest.Snmp

open Python Asn1 EngineM Calculus

section

variable (P : Primitives) (net : Network) (e : SnmpV3Engine)

/-! ## Runs -/

def EngineM.raised {α : Type} (x : EngineM α) (s : Session) : Option PyError :=
  match x s with
  | .ok _ _ => none
  | .error err _ => some err

theorem containedAt_iff_raised {α : Type} {x : EngineM α} {s : Session} :
    ContainedAt x s ↔ ∀ err, EngineM.raised x s = some err → IsSnmpError err := by
  unfold EngineM.raised
  cases h : x s with
  | ok a s' => simp [ContainedAt, raisesAt_of_ok h]
  | error err s' => simp [ContainedAt, raisesAt_of_error h]

inductive Call
  | get (oid : String)
  | getnext (oid : String)
  | walk (baseOid : String) (maxOids : Nat)

def Call.oid : Call → String
  | .get oid => oid
  | .getnext oid => oid
  | .walk baseOid _ => baseOid

def perform : Call → EngineM Unit
  | .get oid => do
      let _ ← get P net e oid
      return ()
  | .getnext oid => do
      let _ ← getnext P net e oid
      return ()
  | .walk baseOid maxOids => do
      let _ ← walk P net e baseOid maxOids
      return ()

/-- The sessions that calls lead to from the construction of the engine. -/
inductive Reached : Session → Prop
  | created {host : String} {port : Int}
      {username securityLevel authProtocol authKey privProtocol privKey contextName : String}
      {contextEngineId : Bytes} {timeout : Rat} {retries : Int} {msgSeed reqSeed : Bytes}
      {st : EngineState} :
      SnmpV3Engine.create host port username securityLevel authProtocol authKey privProtocol privKey
        contextName contextEngineId timeout retries msgSeed reqSeed = .ok (e, st) →
      Reached { state := st, reads := 0, salts := 0, calls := [] }
  | called {s : Session} (c : Call) : Reached s → Reached (final (perform P net e c) s)

variable {P net e}

theorem keyed_of_create {host : String} {port : Int}
    {username securityLevel authProtocol authKey privProtocol privKey contextName : String}
    {contextEngineId : Bytes} {timeout : Rat} {retries : Int} {msgSeed reqSeed : Bytes}
    {st : EngineState}
    (h : SnmpV3Engine.create host port username securityLevel authProtocol authKey privProtocol
      privKey contextName contextEngineId timeout retries msgSeed reqSeed = .ok (e, st)) :
    Keyed e st := by
  unfold SnmpV3Engine.create at h
  obtain ⟨level, -, h⟩ := ok_of_bind.mp h
  dsimp only at h
  split_ifs at h
  all_goals
    obtain ⟨authHash, -, h⟩ := ok_of_bind.mp h
    cases h
    exact .of_undiscovered rfl fun key hkey => by cases hkey

theorem keeps_getnext (hhash : ∀ name data, 16 ≤ (P.hash name data).length) (oid : String) :
    Keeps (fun s => Keyed e s.state) (getnext P net e oid) := by
  unfold getnext
  refine keeps_bind (keeps_exchange P net e hhash _ _) fun m => ?_
  cases m.varbinds with
  | nil => exact keeps_throw _
  | cons varbind rest => exact keeps_pure _

theorem keeps_walkFrom (hhash : ∀ name data, 16 ≤ (P.hash name data).length)
    (columnPrefix : String) (left : Nat) (current : String) (out : List (String × SnmpValue)) :
    Keeps (fun s => Keyed e s.state) (walkFrom P net e columnPrefix left current out) := by
  induction left generalizing current out with
  | zero => exact keeps_pure _
  | succ left ih =>
      unfold walkFrom
      refine keeps_bind (keeps_getnext hhash current) ?_
      rintro ⟨oid, value⟩
      by_cases hstop : value = .str "endOfMibView" ∨
          ¬ columnPrefix.toList.isPrefixOf oid.toList ∨ oid = current
      · simp only [hstop, if_true]
        exact keeps_pure _
      · simp only [hstop, if_false]
        exact ih _ _

theorem keeps_perform (hhash : ∀ name data, 16 ≤ (P.hash name data).length) (c : Call) :
    Keeps (fun s => Keyed e s.state) (perform P net e c) := by
  cases c with
  | get oid =>
      refine keeps_bind ?_ fun _ => keeps_pure _
      unfold get
      refine keeps_bind (keeps_exchange P net e hhash _ _) fun m => ?_
      cases m.varbinds with
      | nil => exact keeps_throw _
      | cons varbind rest => exact keeps_pure _
  | getnext oid => exact keeps_bind (keeps_getnext hhash oid) fun _ => keeps_pure _
  | walk baseOid maxOids =>
      refine keeps_bind ?_ fun _ => keeps_pure _
      unfold walk
      refine keeps_bind (keeps_walkFrom hhash _ _ _ _) fun rows => ?_
      cases rows with
      | none => exact keeps_throw _
      | some out => exact keeps_pure _

theorem keyed_of_reached (hhash : ∀ name data, 16 ≤ (P.hash name data).length) {s : Session}
    (h : Reached P net e s) : Keyed e s.state := by
  induction h with
  | created hcreate => exact keyed_of_create hcreate
  | called c _ ih => exact (keeps_perform hhash c).final ih

/-! ## The requests of a walk -/

/-- The loop of `walk` ends on this answer. -/
def Stops (columnPrefix current oid : String) (value : SnmpValue) : Prop :=
  value = .str "endOfMibView" ∨ ¬ columnPrefix.toList.isPrefixOf oid.toList ∨ oid = current

variable (P net e)

/-- With `left` iterations to go at `current` in the first session, the walk asks
for the second text in the second session. -/
inductive Visits (columnPrefix : String) : (left : Nat) → String → Session → String → Session → Prop
  | here {left : Nat} {current : String} {s : Session} :
      Visits columnPrefix (left + 1) current s current s
  | next {left : Nat} {current oid asked : String} {value : SnmpValue} {s s' t : Session} :
      getnext P net e current s = .ok (oid, value) s' → ¬ Stops columnPrefix current oid value →
      Visits columnPrefix left oid s' asked t → Visits columnPrefix (left + 1) current s asked t

/-- The steps of a call that starts in `s`. -/
inductive Steps : Call → Session → Step → Session → Prop
  | get {oid : String} {s t : Session} {step : Step} :
      ExchangeSteps P net e GET_REQUEST oid s step t → Steps (.get oid) s step t
  | getnext {oid : String} {s t : Session} {step : Step} :
      ExchangeSteps P net e GET_NEXT_REQUEST oid s step t → Steps (.getnext oid) s step t
  | walk {baseOid oid : String} {maxOids : Nat} {s s' t : Session} {step : Step} :
      Visits P net e (stripChar '.' baseOid ++ ".") maxOids (stripChar '.' baseOid) s oid s' →
      ExchangeSteps P net e GET_NEXT_REQUEST oid s' step t → Steps (.walk baseOid maxOids) s step t

variable {P net e}

theorem get_contained_iff {oid : String} {s : Session} :
    ContainedAt (get P net e oid) s ↔ ContainedAt (exchange P net e GET_REQUEST [oid]) s := by
  unfold get
  rw [ContainedAt, raisesAt_bind]
  refine and_iff_left fun m s' _ => ?_
  cases m.varbinds with
  | nil => exact (raisesAt_throw _ _).mpr trivial
  | cons varbind rest => exact raisesAt_pure _ _

theorem getnext_contained_iff {oid : String} {s : Session} :
    ContainedAt (getnext P net e oid) s ↔
      ContainedAt (exchange P net e GET_NEXT_REQUEST [oid]) s := by
  unfold getnext
  rw [ContainedAt, raisesAt_bind]
  refine and_iff_left fun m s' _ => ?_
  cases m.varbinds with
  | nil => exact (raisesAt_throw _ _).mpr trivial
  | cons varbind rest => exact raisesAt_pure _ _

theorem walkFrom_contained_iff {columnPrefix : String} {left : Nat} {current : String}
    {out : List (String × SnmpValue)} {s : Session} :
    ContainedAt (walkFrom P net e columnPrefix left current out) s ↔
      ∀ asked t, Visits P net e columnPrefix left current s asked t →
        ContainedAt (getnext P net e asked) t := by
  induction left generalizing current out s with
  | zero =>
      refine ⟨fun _ asked t hvisit => ?_, fun _ => raisesAt_pure _ _⟩
      cases hvisit
  | succ left ih =>
      unfold walkFrom
      rw [ContainedAt, raisesAt_bind]
      constructor
      · rintro ⟨hget, hrest⟩ asked t hvisit
        cases hvisit with
        | here => exact hget
        | @next _ _ oid _ value _ s' _ hnext hgo hvisit =>
            have hloop := hrest (oid, value) s' hnext
            unfold Stops at hgo
            simp only [hgo, if_false] at hloop
            exact ih.mp hloop asked t hvisit
      · intro h
        refine ⟨h _ _ .here, ?_⟩
        rintro ⟨oid, value⟩ s' hnext
        by_cases hstop : Stops columnPrefix current oid value
        · unfold Stops at hstop
          simp only [hstop, if_true]
          exact raisesAt_pure _ _
        · have hloop := hstop
          unfold Stops at hloop
          simp only [hloop, if_false]
          exact ih.mpr fun asked t hvisit => h asked t (.next hnext hstop hvisit)

theorem walk_contained_iff {baseOid : String} {maxOids : Nat} {s : Session} :
    ContainedAt (walk P net e baseOid maxOids) s ↔
      ∀ asked t, Visits P net e (stripChar '.' baseOid ++ ".") maxOids (stripChar '.' baseOid) s
        asked t → ContainedAt (getnext P net e asked) t := by
  unfold walk
  rw [ContainedAt, raisesAt_bind, ← walkFrom_contained_iff (P := P)]
  refine and_iff_left fun rows s' _ => ?_
  cases rows with
  | none => exact (raisesAt_throw _ _).mpr trivial
  | some out => exact raisesAt_pure _ _

/-! ### What a walk asks for -/

theorem varbind_of_decodeMessage {data : Bytes} {privKey authKey : Option Bytes} {authHash : String}
    {verifyAuth : Bool} {m : ParsedMessage}
    (h : decodeMessage P data privKey authKey authHash verifyAuth = .ok m) {oid : String}
    {value : SnmpValue} (hv : (oid, value) ∈ m.varbinds) :
    ∃ content, parseOid content = .ok oid := by
  obtain ⟨header, scopedBody, -, -, -, hp⟩ := decodeMessage_ok_iff.mp h
  unfold parseScopedPdu at hp
  iterate 10 obtain ⟨_, _, hp⟩ := ok_of_bind.mp hp
  obtain ⟨varbinds, hparsed, hp⟩ := ok_of_bind.mp hp
  obtain rfl := Except.ok.inj hp
  obtain ⟨vb, -, hvb⟩ := exists_of_mem_mapM hparsed hv
  unfold parseVarbind at hvb
  obtain ⟨parts, -, hvb⟩ := ok_of_bind.mp hvb
  obtain ⟨name, -, hvb⟩ := ok_of_bind.mp hvb
  obtain ⟨text, htext, hvb⟩ := ok_of_bind.mp hvb
  obtain ⟨v, -, hvb⟩ := ok_of_bind.mp hvb
  obtain ⟨d, -, hvb⟩ := ok_of_bind.mp hvb
  obtain rfl : text = oid := congrArg Prod.fst (Except.ok.inj hvb)
  exact ⟨name.2, htext⟩

theorem getnext_names {current oid : String} {value : SnmpValue} {s s' : Session}
    (h : getnext P net e current s = .ok (oid, value) s') (hne : oid ≠ "") :
    ∃ o, Names oid o := by
  unfold getnext at h
  obtain ⟨m, s₁, hx, hfirst⟩ := EngineM.bind_ok.mp h
  unfold exchange at hx
  obtain ⟨⟨reqId, reply⟩, s₀, -, haccept⟩ := EngineM.bind_ok.mp hx
  obtain ⟨hd, -⟩ := (acceptReply_ok_iff P net e).mp ⟨s₁, haccept⟩
  cases hm : m.varbinds with
  | nil =>
      rw [hm] at hfirst
      cases hfirst
  | cons varbind rest =>
      rw [hm] at hfirst
      obtain ⟨rfl, -⟩ := EngineM.pure_ok.mp hfirst
      have hmem : (oid, value) ∈ m.varbinds := by
        rw [hm]
        exact List.mem_cons_self
      obtain ⟨content, hcontent⟩ := varbind_of_decodeMessage hd hmem
      obtain ⟨o, rfl⟩ := exists_oid_of_parseOid hcontent hne
      exact ⟨o, names_text o⟩

theorem visits_names {columnPrefix : String} (hextends : columnPrefix ≠ "") {left : Nat}
    {current asked : String} {s t : Session}
    (h : Visits P net e columnPrefix left current s asked t) (hc : ∃ o, Names current o) :
    ∃ o, Names asked o := by
  induction h with
  | here => exact hc
  | @next _ _ oid _ value _ _ _ hnext hgo _ ih =>
      refine ih (getnext_names hnext ?_)
      rintro rfl
      have hnot : ¬ columnPrefix.toList.isPrefixOf "".toList := by
        intro hp
        have hnil : columnPrefix.toList = [] :=
          List.prefix_nil.mp (List.isPrefixOf_iff_prefix.mp hp)
        exact hextends (String.toList_eq_nil_iff.mp hnil)
      exact hgo (.inr (.inl hnot))

theorem visits_keyed (hhash : ∀ name data, 16 ≤ (P.hash name data).length) {columnPrefix : String}
    {left : Nat} {current asked : String} {s t : Session}
    (h : Visits P net e columnPrefix left current s asked t) (hs : Keyed e s.state) :
    Keyed e t.state := by
  induction h with
  | here => exact hs
  | next hnext _ _ ih => exact ih ((keeps_getnext hhash _).of_ok hs hnext)

theorem Names.strip {oid : String} {o : Oid} (h : Names oid o) : Names (stripChar '.' oid) o := by
  unfold Names Asn1.arcs at h ⊢
  rwa [stripChar_stripChar]

end

/-- In every session that calls lead to, a call returns or raises `SnmpError`
exactly when each of its steps meets its condition. -/
theorem perform_contained_iff (P : Primitives)
    (hhash : ∀ name data, 16 ≤ (P.hash name data).length)
    (hblock : ∀ key, key.length = 16 → KeepsBlocks P.encryptBlock key) (net : Network)
    (hclock : Monotone net.clock) (e : SnmpV3Engine) (s : Session) (hs : Reached P net e s)
    (c : Call) (hname : ∃ o, Names c.oid o)
    (hsize : ∀ pduTag oid t o, Steps P net e c s (.request pduTag oid) t → Names oid o →
      ((requestOf net e t pduTag o).draft (net.salt t.salts)).length < 256 ^ 126) :
    ContainedAt (perform P net e c) s ↔
      ∀ step t, Steps P net e c s step t → Meets P net e step t := by
  have hkeyed := keyed_of_reached hhash hs
  obtain ⟨o, ho⟩ := hname
  have hdrop : ∀ {α : Type} (x : EngineM α),
      ContainedAt (x >>= fun _ => pure ()) s ↔ ContainedAt x s := by
    intro α x
    rw [ContainedAt, raisesAt_bind]
    exact and_iff_left fun _ _ _ => raisesAt_pure _ _
  cases c with
  | get oid =>
      have hexchange := @exchange_contained_iff P net e hclock hhash hblock s hkeyed GET_REQUEST oid
        o ho fun t ht => hsize _ _ t o (.get (.request ht)) ho
      refine (hdrop _).trans (get_contained_iff.trans (hexchange.trans ?_))
      constructor
      · intro h step t hstep
        cases hstep with
        | get hstep => exact h step t hstep
      · intro h step t hstep
        exact h step t (.get hstep)
  | getnext oid =>
      have hexchange := @exchange_contained_iff P net e hclock hhash hblock s hkeyed
        GET_NEXT_REQUEST oid o ho fun t ht => hsize _ _ t o (.getnext (.request ht)) ho
      refine (hdrop _).trans (getnext_contained_iff.trans (hexchange.trans ?_))
      constructor
      · intro h step t hstep
        cases hstep with
        | getnext hstep => exact h step t hstep
      · intro h step t hstep
        exact h step t (.getnext hstep)
  | walk baseOid maxOids =>
      have hextends : stripChar '.' baseOid ++ "." ≠ "" := by
        intro h
        have hlength := congrArg String.length h
        simp at hlength
      have hexchange : ∀ {asked t}, Visits P net e (stripChar '.' baseOid ++ ".") maxOids
          (stripChar '.' baseOid) s asked t → (ContainedAt (getnext P net e asked) t ↔
            ∀ step t', ExchangeSteps P net e GET_NEXT_REQUEST asked t step t' →
              Meets P net e step t') := by
        intro asked t hvisit
        obtain ⟨o', ho'⟩ := visits_names hextends hvisit ⟨o, ho.strip⟩
        exact getnext_contained_iff.trans (exchange_contained_iff hclock hhash hblock
          (visits_keyed hhash hvisit hkeyed) ho'
            fun t' ht' => hsize _ _ t' o' (.walk hvisit (.request ht')) ho')
      refine (hdrop _).trans (walk_contained_iff.trans ?_)
      constructor
      · intro h step t hstep
        cases hstep with
        | walk hvisit hstep => exact (hexchange hvisit).mp (h _ _ hvisit) step t hstep
      · intro h asked t hvisit
        exact (hexchange hvisit).mpr fun step t' hstep => h step t' (.walk hvisit hstep)

namespace Sample

def longDigests : Primitives :=
  Primitives.withAes (fun _ _ => List.replicate 20 0) fun _ _ _ => List.replicate 20 0

def created : Session where
  state := {
    contextEngineId := []
    engineId := []
    boots := 0
    engineTime := 0
    ref := none
    localizedAuth := none
    localizedPriv := none
    msgId := 0
    reqId := 0
    discovered := false }
  reads := 0
  salts := 0
  calls := []

theorem reached_created (net : Network) :
    Reached longDigests net (engine .noAuthNoPriv) created := by
  have hcreate : SnmpV3Engine.create "10.0.0.9" 161 "netforge" "noAuthNoPriv" "sha" "authpass123"
      "aes" "" "" [] 2 1 [0, 0] [0, 0] = .ok (engine .noAuthNoPriv, created.state) := by
    decide +kernel
  exact .created hcreate

theorem names_sysDescr : Names SYS_DESCR sysDescr := by
  have hname : sysDescr.text = SYS_DESCR := by decide +kernel
  exact hname ▸ names_text sysDescr

def stub : Bytes := [0x30, 0x08, 0x02, 0x01, 0x03, 0x30, 0x03, 0x02, 0x01, 0x01]

end Sample

theorem Sample.longDigests_keep :
    (∀ name data, 16 ≤ (Sample.longDigests.hash name data).length) ∧
      ∀ key, key.length = 16 → KeepsBlocks Sample.longDigests.encryptBlock key :=
  ⟨fun _ _ => by simp [Sample.longDigests, Primitives.withAes],
    fun _ hkey => aes128EncryptBlock_keepsBlocks hkey⟩

/-- The device answers the discovery and then nothing: the steps meet their
conditions. -/
theorem perform_contained_iff_timeout :
    EngineM.raised (perform Sample.longDigests (Sample.network Sample.unsigned)
        (Sample.engine .noAuthNoPriv) (.get SYS_DESCR)) Sample.created =
          some (.snmpError "no SNMP response from 10.0.0.9:161 (timed out)") ∧
      ∀ step t, Steps Sample.longDigests (Sample.network Sample.unsigned)
        (Sample.engine .noAuthNoPriv) (.get SYS_DESCR) Sample.created step t →
          Meets Sample.longDigests (Sample.network Sample.unsigned) (Sample.engine .noAuthNoPriv)
            step t := by
  have hsmall : (match discover Sample.longDigests (Sample.network Sample.unsigned)
      (Sample.engine .noAuthNoPriv) Sample.created with
    | .ok _ t => decide (((requestOf (Sample.network Sample.unsigned) (Sample.engine .noAuthNoPriv)
        t GET_REQUEST sysDescr).draft (List.replicate PRIV_PARAM_LEN 0)).length < 256)
    | .error _ _ => false) = true := by
    decide +kernel
  have hraised : EngineM.raised (perform Sample.longDigests (Sample.network Sample.unsigned)
      (Sample.engine .noAuthNoPriv) (.get SYS_DESCR)) Sample.created =
        some (.snmpError "no SNMP response from 10.0.0.9:161 (timed out)") := by
    decide +kernel
  have hcontained : ContainedAt (perform Sample.longDigests (Sample.network Sample.unsigned)
      (Sample.engine .noAuthNoPriv) (.get SYS_DESCR)) Sample.created := by
    rw [containedAt_iff_raised, hraised]
    rintro err ⟨⟩
    trivial
  refine ⟨hraised, (perform_contained_iff Sample.longDigests Sample.longDigests_keep.1
    Sample.longDigests_keep.2 (Sample.network Sample.unsigned) monotone_const
    (Sample.engine .noAuthNoPriv)
    Sample.created (Sample.reached_created _) (.get SYS_DESCR) ⟨_, Sample.names_sysDescr⟩ ?_).mp
      hcontained⟩
  intro pduTag oid t o hstep hname
  cases hstep with
  | get hstep =>
      cases hstep with
      | request ht =>
          have harcs : o.arcs = sysDescr.arcs := by
            have hmap := Except.ok.inj (hname.symm.trans Sample.names_sysDescr)
            exact List.map_injective_iff.mpr (fun _ _ => Int.ofNat.inj) hmap
          rw [ht] at hsmall
          rw [Oid.ext_arcs harcs]
          have hsalt : (Sample.network Sample.unsigned).salt t.salts =
            List.replicate PRIV_PARAM_LEN 0 := rfl
          have hlarge : 256 ≤ 256 ^ 126 := Nat.le_self_pow (by decide) 256
          rw [hsalt]
          exact Nat.lt_of_lt_of_le (of_decide_eq_true hsmall) hlarge

/-- A datagram that carries the awaited msgID and no flags ends a call with an
`IndexError`. -/
theorem stub_reply_escapes :
    ¬ ∀ (P : Primitives), (∀ name data, 16 ≤ (P.hash name data).length) →
        (∀ key, key.length = 16 → KeepsBlocks P.encryptBlock key) →
        ∀ (net : Network), Monotone net.clock →
          ∀ (e : SnmpV3Engine) (s : Session), Reached P net e s →
          ∀ c : Call, (∃ o, Names c.oid o) →
            (∀ pduTag oid t o, Steps P net e c s (.request pduTag oid) t → Names oid o →
              ((requestOf net e t pduTag o).draft (net.salt t.salts)).length < 256 ^ 126) →
            ContainedAt (perform P net e c) s := by
  intro hclaim
  have hnone : EngineM.returned (discover Sample.longDigests (Sample.network Sample.stub)
      (Sample.engine .noAuthNoPriv)) Sample.created = none := by
    decide +kernel
  have hraised : EngineM.raised (perform Sample.longDigests (Sample.network Sample.stub)
      (Sample.engine .noAuthNoPriv) (.get SYS_DESCR)) Sample.created = some .indexError := by
    decide +kernel
  have hcontained := hclaim Sample.longDigests Sample.longDigests_keep.1 Sample.longDigests_keep.2
    (Sample.network Sample.stub) monotone_const (Sample.engine .noAuthNoPriv) Sample.created
    (Sample.reached_created _) (.get SYS_DESCR) ⟨_, Sample.names_sysDescr⟩ ?_
  · exact containedAt_iff_raised.mp hcontained _ hraised
  · intro pduTag oid t o hstep
    cases hstep with
    | get hstep =>
        cases hstep with
        | request ht =>
            unfold EngineM.returned at hnone
            rw [ht] at hnone
            cases hnone

end NetForge.Ingest.Snmp
