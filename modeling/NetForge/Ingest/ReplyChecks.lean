import NetForge.Ingest.SnmpEngine

/-! # What a reply has to pass

Which replies `_exchange` returns as parsed messages and which of them `get`
turns into a value. The checks are compared with the protection of the request
and with what a GET-RESPONSE to it would carry.
-/

namespace NetForge.Ingest.Snmp

open Python Asn1 EngineM

/-! ## Running in a session -/

theorem EngineM.bind_ok {α β : Type} {x : EngineM α} {f : α → EngineM β} {s s' : Session}
    {b : β} :
    (x >>= f) s = .ok b s' ↔ ∃ a s₁, x s = .ok a s₁ ∧ f a s₁ = .ok b s' := by
  change EStateM.bind x f s = _ ↔ _
  unfold EStateM.bind
  cases x s with
  | ok a s₁ => simp
  | error e s₁ => simp

theorem EngineM.bind_error {α β : Type} {x : EngineM α} {f : α → EngineM β} {s s' : Session}
    {err : PyError} :
    (x >>= f) s = .error err s' ↔
      x s = .error err s' ∨ ∃ a s₁, x s = .ok a s₁ ∧ f a s₁ = .error err s' := by
  change EStateM.bind x f s = _ ↔ _
  unfold EStateM.bind
  cases x s with
  | ok a s₁ => simp
  | error e s₁ => simp

@[simp] theorem EngineM.of_ok {α : Type} {x : Except PyError α} {s s' : Session} {a : α} :
    of x s = .ok a s' ↔ x = .ok a ∧ s = s' := by
  cases x with
  | ok b => simp [of]
  | error e => simp [of]

@[simp] theorem EngineM.state_ok {s s' : Session} {st : EngineState} :
    state s = .ok st s' ↔ s.state = st ∧ s = s' := by
  simp [state]

@[simp] theorem EngineM.pure_ok {α : Type} {s s' : Session} {a b : α} :
    (pure a : EngineM α) s = .ok b s' ↔ a = b ∧ s = s' := by
  change EStateM.Result.ok a s = EStateM.Result.ok b s' ↔ _
  simp

@[simp] theorem EngineM.raiseIf_ok {c : Prop} [Decidable c] {error : PyError} {s s' : Session}
    {u : Unit} : raiseIf c error s = .ok u s' ↔ ¬ c ∧ s = s' := by
  have hthrow : (throw error : EngineM Unit) s = .error error s := rfl
  unfold raiseIf
  by_cases h : c
  · simp [h, hthrow]
  · simp [h]

theorem EngineM.onlyIf_ok {c : Prop} [Decidable c] {x : EngineM Unit} {s s' : Session}
    {u : Unit} : onlyIf c x s = .ok u s' ↔ (c ∧ x s = .ok u s') ∨ (¬ c ∧ s = s') := by
  unfold onlyIf
  by_cases h : c <;> simp [h]

/-- What a computation returns from `s`, with the state it leaves, if it
returns. -/
def EngineM.returned {α : Type} (x : EngineM α) (s : Session) : Option (α × EngineState) :=
  match x s with
  | .ok a s' => some (a, s'.state)
  | .error _ _ => none

theorem EngineM.ok_of_returned {α : Type} {x : EngineM α} {s : Session} {a : α}
    {st : EngineState} (h : returned x s = some (a, st)) :
    ∃ s', x s = .ok a s' ∧ s'.state = st := by
  unfold returned at h
  cases hx : x s with
  | ok b s' =>
      simp only [hx, Option.some.injEq, Prod.mk.injEq] at h
      exact ⟨s', by rw [h.1], h.2⟩
  | error err s' => simp [hx] at h

section

variable (P : Primitives) (net : Network) (e : SnmpV3Engine)

/-- What `_exchange` checks on a parsed reply. -/
structure Admits (s : Session) (reqId : Nat) (m : ParsedMessage) : Prop where
  requestId : m.requestId = reqId
  engineId : m.engineId = [] ∨ m.engineId = s.state.engineId
  inWindow : ∃ s', checkTimeWindow net e m s = .ok () s'
  errorStatus : m.errorStatus = 0

theorem advanceClock_total (m : ParsedMessage) (s : Session) :
    ∃ s', advanceClock net m s = .ok () s' := by
  unfold advanceClock
  simp only [EngineM.bind_ok, EngineM.state_ok, EngineM.onlyIf_ok]
  by_cases h : s.state.boots < m.boots ∨
      (m.boots = s.state.boots ∧ s.state.engineTime < m.engineTime)
  · exact ⟨_, _, s, ⟨rfl, rfl⟩, .inl ⟨h, _, _, rfl, rfl⟩⟩
  · exact ⟨s, _, s, ⟨rfl, rfl⟩, .inr ⟨h, rfl⟩⟩

theorem checkErrorStatus_ok_iff {m : ParsedMessage} {s s' : Session} {u : Unit} :
    checkErrorStatus m s = .ok u s' ↔ m.errorStatus = 0 ∧ s = s' := by
  unfold checkErrorStatus
  rw [EngineM.onlyIf_ok]
  constructor
  · rintro (⟨_, hthrow⟩ | ⟨hz, rfl⟩)
    · simp only [EngineM.bind_ok, EngineM.of_ok] at hthrow
      obtain ⟨_, _, _, _, _, _, hthrow⟩ := hthrow
      cases hthrow
    · exact ⟨not_not.mp hz, rfl⟩
  · rintro ⟨hz, rfl⟩
    exact .inr ⟨not_not.mpr hz, rfl⟩

/-- The second half of an exchange returns the parsed reply or raises. -/
theorem acceptReply_ok_iff {reqId : Nat} {reply : Bytes} {s : Session} {m : ParsedMessage} :
    (∃ s', acceptReply P net e reqId reply s = .ok m s') ↔
      decodeReply P e s.state reply = .ok m ∧ Admits net e s reqId m := by
  unfold acceptReply
  simp only [EngineM.bind_ok, EngineM.state_ok, EngineM.of_ok, EngineM.raiseIf_ok,
    EngineM.pure_ok, checkErrorStatus_ok_iff]
  constructor
  · rintro ⟨s', st, _, ⟨rfl, rfl⟩, m', _, ⟨hd, rfl⟩, _, _, ⟨hid, rfl⟩, _, _, ⟨heng, rfl⟩,
      _, _, hw, _, _, _, _, _, ⟨hz, rfl⟩, rfl, rfl⟩
    exact ⟨hd, not_not.mp hid, by tauto, ⟨_, hw⟩, hz⟩
  · rintro ⟨hd, hid, heng, ⟨s₁, hw⟩, hz⟩
    obtain ⟨s₂, ha⟩ := advanceClock_total net m s₁
    exact ⟨s₂, _, s, ⟨rfl, rfl⟩, m, s, ⟨hd, rfl⟩, (), s, ⟨not_not.mpr hid, rfl⟩, (), s,
      ⟨by tauto, rfl⟩, (), s₁, hw, (), s₂, ha, (), s₂, ⟨hz, rfl⟩, rfl, rfl⟩

/-- An exchange whose request got `reply` back returns what that reply parses
to, provided it passes the checks. -/
theorem exchange_ok_iff {pduTag : UInt8} {oids : List String} {s s₁ : Session} {reqId : Nat}
    {reply : Bytes} {m : ParsedMessage}
    (hr : requestReply P net e pduTag oids s = .ok (reqId, reply) s₁) :
    (∃ s', exchange P net e pduTag oids s = .ok m s') ↔
      decodeReply P e s₁.state reply = .ok m ∧ Admits net e s₁ reqId m := by
  rw [← acceptReply_ok_iff]
  unfold exchange
  simp only [EngineM.bind_ok, hr, EStateM.Result.ok.injEq]
  constructor
  · rintro ⟨s', _, _, ⟨rfl, rfl⟩, ha⟩
    exact ⟨s', ha⟩
  · rintro ⟨s', ha⟩
    exact ⟨s', _, _, ⟨rfl, rfl⟩, ha⟩

end

/-! ## A polled device

An engine that knows its device, and the messages the device or anybody else can
send it. -/

namespace Sample

def engineId : Bytes := [0x80, 0x00, 0x1f, 0x88, 0x80, 0xe4, 0xaa, 0xbb, 0xcc, 0xdd]

def authKey : Bytes :=
  [0xbd, 0x5c, 0xe6, 0xf5, 0x1c, 0x2e, 0x2d, 0x01, 0x76, 0x96, 0x05, 0x1f, 0x2e, 0x28, 0xd4, 0x31,
    0x1c, 0xe0, 0xaa, 0xd0]

def message (flags : UInt8) (digest : Bytes) (pdu : Except PyError Bytes) : Bytes :=
  let P := Primitives.withAes (fun _ _ => []) (fun _ _ _ => digest)
  let built := do
    encodeMessage P 1 engineId 3 1234 (encodeUtf8 "netforge") flags
      (← encodeScopedPdu engineId [] (← pdu)) (some []) "sha1" none MAX_MESSAGE_SIZE
      USM_SECURITY_MODEL []
  built.toOption.getD []

def pdu (tag : UInt8) (oid : String) (value : Except PyError Bytes) : Except PyError Bytes := do
  let varbind ← encSeq [← encOid oid, ← value]
  tlv tag ((← encInt 1) ++ (← encInt 0) ++ (← encInt 0) ++ (← encSeq [varbind]))

def request : Except PyError Bytes := encRequestPdu GET_REQUEST 1 [SYS_DESCR]

def response : Except PyError Bytes :=
  pdu GET_RESPONSE SYS_DESCR (encOct (encodeUtf8 "core-switch"))

/-- A REPORT that carries `usmStatsWrongDigests.0`. -/
def report : Except PyError Bytes := pdu 0xA8 "1.3.6.1.6.3.15.1.1.5.0" (tlv COUNTER32 [7])

def requestDigest : Bytes :=
  [0x24, 0xa9, 0x3c, 0x1a, 0xf1, 0x27, 0xeb, 0x5b, 0xb8, 0xc0, 0x1a, 0x0d, 0xc7, 0x81, 0x45, 0xb5,
    0x6e, 0x09, 0xc5, 0x1d]

def responseDigest : Bytes :=
  [0x28, 0x4b, 0x09, 0xf5, 0x1b, 0x7c, 0xcf, 0x95, 0xd7, 0x74, 0x70, 0xd3, 0x22, 0xe2, 0x21, 0x5e,
    0xa2, 0x4f, 0xe1, 0xe2]

def signed : Bytes := message 5 responseDigest response

def unsigned : Bytes := message 0 [] response

def rejection : Bytes := message 0 [] report

def primitives : Primitives :=
  Primitives.withAes (fun _ _ => []) fun _ _ message =>
    if message = Sample.message 5 zeroAuthParams request then requestDigest
    else if message = Sample.message 5 zeroAuthParams response then responseDigest
    else []

def engine (level : SecurityLevel) : SnmpV3Engine where
  host := "10.0.0.9"
  port := 161
  username := "netforge"
  level := level
  authProtocol := "sha"
  authKey := "authpass123"
  privProtocol := "aes"
  privKey := ""
  contextName := ""
  timeout := 2
  retries := 1
  authHash := "sha1"

def session : Session where
  state := {
    contextEngineId := engineId
    engineId := engineId
    boots := 3
    engineTime := 1234
    ref := some 0
    localizedAuth := some authKey
    localizedPriv := none
    msgId := 0
    reqId := 0
    discovered := true }
  reads := 0
  salts := 0
  calls := []

def answered : EngineState := { session.state with msgId := 1, reqId := 1 }

def network (reply : Bytes) : Network where
  clock := fun _ => 0
  salt := fun _ => List.replicate PRIV_PARAM_LEN 0
  salt_length := fun _ => by simp
  idna := fun _ => false
  lookup := fun _ => none
  deliver := fun _ => .ok [.datagram reply]

end Sample

section

variable (P : Primitives) (net : Network) (e : SnmpV3Engine)

/-! ## Protection of the reply -/

/-- The reply is at least as protected as the request: it carries its own digest
under the engine's key, and at `authPriv` its scoped PDU was decrypted. -/
structure Protected (st : EngineState) (reply : Bytes) (m : ParsedMessage) : Prop where
  authFlag : hasFlag m.flags FLAG_AUTH = true
  digest : ∃ key offset, st.localizedAuth = some key ∧ authParamsOffset reply = .ok offset ∧
    m.authParams =
      truncatedHmac P e.authHash key (spliceAuthParams reply offset zeroAuthParams)
  decrypted : e.level = .authPriv →
    hasFlag m.flags FLAG_PRIV = true ∧
      ∃ h key mdVal scopedBody, parseHeader reply = .ok h ∧ st.localizedPriv = some key ∧
        h.msgData = some (OCTET_STRING, mdVal) ∧
        decryptScopedPdu P h key mdVal = .ok scopedBody ∧ parseScopedPdu h scopedBody = .ok m

/-- The header of the reply asks for the protection of the engine's level. -/
def AtLevel (reply : Bytes) : Prop :=
  ∀ h, parseHeader reply = .ok h →
    hasFlag h.flags FLAG_AUTH = true ∧
      (e.level = .authPriv →
        hasFlag h.flags FLAG_PRIV = true ∧ ∃ mdVal, h.msgData = some (OCTET_STRING, mdVal))

/-- A parsed reply is protected exactly when its header asks for it. -/
theorem protected_iff_atLevel {st : EngineState} {reply : Bytes} {m : ParsedMessage}
    (ha : e.useAuth = true) (hd : decodeReply P e st reply = .ok m) :
    Protected P e st reply m ↔ AtLevel e reply := by
  unfold decodeReply at hd
  rw [ha] at hd
  obtain ⟨h, scopedBody, hh, hv, ho, hp⟩ := decodeMessage_ok_iff.mp hd
  obtain ⟨hflags, -, -, -, hparams⟩ := parseScopedPdu_header hp
  constructor
  · intro hprot h' hh'
    obtain rfl : h = h' := Except.ok.inj (hh.symm.trans hh')
    refine ⟨hflags ▸ hprot.authFlag, fun hlevel => ?_⟩
    obtain ⟨hpriv, h'', _, mdVal, _, hh'', _, hm, _⟩ := hprot.decrypted hlevel
    obtain rfl : h = h'' := Except.ok.inj (hh.symm.trans hh'')
    exact ⟨hflags ▸ hpriv, mdVal, hm⟩
  · intro hlevel
    obtain ⟨hauth, hpriv⟩ := hlevel h hh
    obtain ⟨key, offset, hkey, hoff, hdigest⟩ := verifyMessage_ok_of_flag hauth hv
    refine ⟨hflags ▸ hauth, ⟨key, offset, hkey, hoff, hparams ▸ hdigest⟩, fun hl => ?_⟩
    obtain ⟨hflag, mdVal, hm⟩ := hpriv hl
    obtain ⟨privKey, hpk, hdec⟩ := openScopedPdu_ok_of_flag hflag hm ho
    exact ⟨hflags ▸ hflag, h, privKey, mdVal, scopedBody, hh, hpk, hm, hdec, hp⟩

/-- An engine that authenticates accepts only protected replies exactly when
every reply that parses and passes the checks asks for the protection in its
own header. -/
theorem exchange_protected_iff (ha : e.useAuth = true) {pduTag : UInt8} {oids : List String}
    {s s₁ : Session} {reqId : Nat} {reply : Bytes}
    (hr : requestReply P net e pduTag oids s = .ok (reqId, reply) s₁) :
    (∀ m s', exchange P net e pduTag oids s = .ok m s' → Protected P e s₁.state reply m) ↔
      ((∃ m, decodeReply P e s₁.state reply = .ok m ∧ Admits net e s₁ reqId m) →
        AtLevel e reply) := by
  constructor
  · rintro hprot ⟨m, hd, hadmits⟩
    obtain ⟨s', hx⟩ := (exchange_ok_iff P net e hr).mpr ⟨hd, hadmits⟩
    exact (protected_iff_atLevel P e ha hd).mp (hprot m s' hx)
  · intro hlevel m s' hx
    obtain ⟨hd, hadmits⟩ := (exchange_ok_iff P net e hr).mp ⟨s', hx⟩
    exact (protected_iff_atLevel P e ha hd).mpr (hlevel ⟨m, hd, hadmits⟩)

/-- The digest of the device's response is checked and found right. -/
theorem exchange_protected_signed :
    ∃ m s₁ s',
      requestReply Sample.primitives (Sample.network Sample.signed) (Sample.engine .authNoPriv)
        GET_REQUEST [SYS_DESCR] Sample.session = .ok (1, Sample.signed) s₁ ∧
      exchange Sample.primitives (Sample.network Sample.signed) (Sample.engine .authNoPriv)
        GET_REQUEST [SYS_DESCR] Sample.session = .ok m s' ∧
      Protected Sample.primitives (Sample.engine .authNoPriv) s₁.state Sample.signed m := by
  obtain ⟨s₁, hr, -⟩ := EngineM.ok_of_returned
    (by decide +kernel : EngineM.returned (requestReply Sample.primitives
      (Sample.network Sample.signed) (Sample.engine .authNoPriv) GET_REQUEST [SYS_DESCR])
        Sample.session = some ((1, Sample.signed), Sample.answered))
  have hreturns : (EngineM.returned (exchange Sample.primitives (Sample.network Sample.signed)
      (Sample.engine .authNoPriv) GET_REQUEST [SYS_DESCR]) Sample.session).isSome = true := by
    decide +kernel
  obtain ⟨⟨m, st⟩, hm⟩ := Option.isSome_iff_exists.mp hreturns
  obtain ⟨s', hx, -⟩ := EngineM.ok_of_returned hm
  have hlevel : AtLevel (Sample.engine .authNoPriv) Sample.signed := by
    intro h hh
    have hflags : (parseHeader Sample.signed).map (·.flags) = .ok 5 := by decide +kernel
    rw [hh] at hflags
    have hfive : h.flags = 5 := Except.ok.inj hflags
    rw [hfive]
    exact ⟨by decide, fun hl => absurd hl (by decide)⟩
  exact ⟨m, s₁, s', hr, hx,
    (exchange_protected_iff _ _ _ (by decide) hr).mpr (fun _ => hlevel) m s' hx⟩

/-- A reply with no flag set is returned to an engine that authenticates. -/
theorem unprotected_reply_accepted :
    ¬ ∀ (P : Primitives) (net : Network) (e : SnmpV3Engine) (pduTag : UInt8)
        (oids : List String) (s s₁ : Session) (reqId : Nat) (reply : Bytes),
        e.useAuth = true → s.state.discovered = true →
        requestReply P net e pduTag oids s = .ok (reqId, reply) s₁ →
        ∀ m s', exchange P net e pduTag oids s = .ok m s' → Protected P e s₁.state reply m := by
  intro hclaim
  obtain ⟨s₁, hr, -⟩ := EngineM.ok_of_returned
    (by decide +kernel : EngineM.returned (requestReply Sample.primitives
      (Sample.network Sample.unsigned) (Sample.engine .authNoPriv) GET_REQUEST [SYS_DESCR])
        Sample.session = some ((1, Sample.unsigned), Sample.answered))
  have hflags : (EngineM.returned (exchange Sample.primitives (Sample.network Sample.unsigned)
      (Sample.engine .authNoPriv) GET_REQUEST [SYS_DESCR]) Sample.session).map (·.1.flags) =
        some 0 := by
    decide +kernel
  obtain ⟨⟨m, st⟩, hm, hzero⟩ := Option.map_eq_some_iff.mp hflags
  obtain ⟨s', hx, -⟩ := EngineM.ok_of_returned hm
  have hauth := (hclaim _ _ _ _ _ _ _ _ _ (by decide) (by decide) hr m s' hx).authFlag
  rw [hzero] at hauth
  exact absurd hauth (by decide)

/-! ## What `get` returns -/

def NamesFirst (oid : String) (m : ParsedMessage) : Prop :=
  ∃ parts name value rest, arcs oid = .ok parts ∧ dotted parts = .ok name ∧
    m.varbinds = (name, value) :: rest

structure Answers (oid : String) (reqId : Nat) (m : ParsedMessage) : Prop where
  pduTag : m.pduTag = GET_RESPONSE
  requestId : m.requestId = reqId
  errorStatus : m.errorStatus = 0
  names : NamesFirst oid m

/-- The reply has no first value, or one that stands for a missing object. -/
def Valueless (m : ParsedMessage) : Prop :=
  ∀ name v rest, m.varbinds = (name, v) :: rest → v = .none ∨ v ∈ EXCEPTION_VALUES

theorem get_ok_iff {oid : String} {s s' : Session} {v : SnmpValue} :
    get P net e oid s = .ok v s' ↔
      ∃ m name value rest, exchange P net e GET_REQUEST [oid] s = .ok m s' ∧
        m.varbinds = (name, value) :: rest ∧
        v = if value ∈ EXCEPTION_VALUES then .none else value := by
  unfold get
  rw [EngineM.bind_ok]
  constructor
  · rintro ⟨m, s₁, hx, hv⟩
    cases hm : m.varbinds with
    | nil =>
        rw [hm] at hv
        cases hv
    | cons varbind rest =>
        simp only [hm, EngineM.pure_ok] at hv
        obtain ⟨hv, rfl⟩ := hv
        exact ⟨m, varbind.1, varbind.2, rest, hx, hm, hv.symm⟩
  · rintro ⟨m, name, value, rest, hx, hm, rfl⟩
    refine ⟨m, s', hx, ?_⟩
    rw [hm]
    rfl

/-- A GET gives values of the requested object only, exactly when a reply that
parses and passes the checks is a GET-RESPONSE for that object or carries no
value. -/
theorem get_answers_iff {oid : String} {s s₁ : Session} {reqId : Nat} {reply : Bytes}
    (hr : requestReply P net e GET_REQUEST [oid] s = .ok (reqId, reply) s₁) :
    (∀ v s', get P net e oid s = .ok v s' → v ≠ .none →
        ∃ m, decodeReply P e s₁.state reply = .ok m ∧ Answers oid reqId m) ↔
      ∀ m, decodeReply P e s₁.state reply = .ok m → Admits net e s₁ reqId m →
        (m.pduTag = GET_RESPONSE ∧ NamesFirst oid m) ∨ Valueless m := by
  constructor
  · intro hget m hd hadmits
    obtain ⟨s', hx⟩ := (exchange_ok_iff P net e hr).mpr ⟨hd, hadmits⟩
    refine or_iff_not_imp_right.mpr fun hv => ?_
    unfold Valueless at hv
    push Not at hv
    obtain ⟨name, v, rest, hm, hnone, hexc⟩ := hv
    have hv' : get P net e oid s = .ok v s' :=
      (get_ok_iff P net e).mpr ⟨m, name, v, rest, hx, hm, by rw [if_neg hexc]⟩
    obtain ⟨m', hd', hanswers⟩ := hget v s' hv' hnone
    obtain rfl : m = m' := Except.ok.inj (hd.symm.trans hd')
    exact ⟨hanswers.pduTag, hanswers.names⟩
  · intro hcond v s' hget hv
    obtain ⟨m, name, value, rest, hx, hm, rfl⟩ := (get_ok_iff P net e).mp hget
    obtain ⟨hd, hadmits⟩ := (exchange_ok_iff P net e hr).mp ⟨s', hx⟩
    refine ⟨m, hd, ?_⟩
    rcases hcond m hd hadmits with ⟨htag, hnames⟩ | hvalueless
    · exact ⟨htag, hadmits.requestId, hadmits.errorStatus, hnames⟩
    · exfalso
      apply hv
      rcases hvalueless name value rest hm with rfl | hexc
      · simp
      · rw [if_pos hexc]

/-- The device's response is the value. -/
theorem get_answers_response :
    ∃ s₁ s' m,
      requestReply Sample.primitives (Sample.network Sample.unsigned) (Sample.engine .noAuthNoPriv)
        GET_REQUEST [SYS_DESCR] Sample.session = .ok (1, Sample.unsigned) s₁ ∧
      get Sample.primitives (Sample.network Sample.unsigned) (Sample.engine .noAuthNoPriv)
        SYS_DESCR Sample.session = .ok (.str "core-switch") s' ∧
      decodeReply Sample.primitives (Sample.engine .noAuthNoPriv) s₁.state Sample.unsigned =
        .ok m ∧ Answers SYS_DESCR 1 m := by
  obtain ⟨s₁, hr, hst⟩ := EngineM.ok_of_returned
    (by decide +kernel : EngineM.returned (requestReply Sample.primitives
      (Sample.network Sample.unsigned) (Sample.engine .noAuthNoPriv) GET_REQUEST [SYS_DESCR])
        Sample.session = some ((1, Sample.unsigned), Sample.answered))
  obtain ⟨s', hget, -⟩ := EngineM.ok_of_returned
    (by decide +kernel : EngineM.returned (get Sample.primitives
      (Sample.network Sample.unsigned) (Sample.engine .noAuthNoPriv) SYS_DESCR)
        Sample.session = some (.str "core-switch", Sample.answered))
  have hform : (decodeReply Sample.primitives (Sample.engine .noAuthNoPriv) Sample.answered
      Sample.unsigned).map (fun m => (m.pduTag, m.varbinds)) =
        .ok (GET_RESPONSE, [(SYS_DESCR, .str "core-switch")]) := by
    decide +kernel
  have hresponse : ∀ m, decodeReply Sample.primitives (Sample.engine .noAuthNoPriv) s₁.state
      Sample.unsigned = .ok m → m.pduTag = GET_RESPONSE ∧ NamesFirst SYS_DESCR m := by
    intro m hd
    rw [hst] at hd
    rw [hd] at hform
    obtain ⟨htag, hvarbinds⟩ := Prod.mk.inj (Except.ok.inj hform)
    exact ⟨htag, [1, 3, 6, 1, 2, 1, 1, 1, 0], SYS_DESCR, _, _, by decide +kernel, by decide +kernel,
      hvarbinds⟩
  obtain ⟨m, hd, hanswers⟩ := (get_answers_iff _ _ _ hr).mpr
    (fun m hd _ => .inl (hresponse m hd)) _ s' hget (by decide)
  exact ⟨s₁, s', m, hr, hget, hd, hanswers⟩

/-- The counter of a REPORT is returned as the value of the requested object. -/
theorem report_returned_as_value :
    ¬ ∀ (P : Primitives) (net : Network) (e : SnmpV3Engine) (oid : String) (s s₁ : Session)
        (reqId : Nat) (reply : Bytes),
        requestReply P net e GET_REQUEST [oid] s = .ok (reqId, reply) s₁ →
        ∀ v s', get P net e oid s = .ok v s' → v ≠ .none →
          ∃ m, decodeReply P e s₁.state reply = .ok m ∧ Answers oid reqId m := by
  intro hclaim
  obtain ⟨s₁, hr, hst⟩ := EngineM.ok_of_returned
    (by decide +kernel : EngineM.returned (requestReply Sample.primitives
      (Sample.network Sample.rejection) (Sample.engine .noAuthNoPriv) GET_REQUEST [SYS_DESCR])
        Sample.session = some ((1, Sample.rejection), Sample.answered))
  obtain ⟨s', hget, -⟩ := EngineM.ok_of_returned
    (by decide +kernel : EngineM.returned (get Sample.primitives
      (Sample.network Sample.rejection) (Sample.engine .noAuthNoPriv) SYS_DESCR)
        Sample.session = some (.int 7, Sample.answered))
  have htag : (decodeReply Sample.primitives (Sample.engine .noAuthNoPriv) Sample.answered
      Sample.rejection).map (·.pduTag) = .ok 0xA8 := by
    decide +kernel
  obtain ⟨m, hd, hanswers⟩ := hclaim _ _ _ _ _ _ _ _ hr _ s' hget (by decide)
  rw [hst] at hd
  rw [hd] at htag
  exact absurd ((Except.ok.inj htag).symm.trans hanswers.pduTag) (by decide)

end

end NetForge.Ingest.Snmp
