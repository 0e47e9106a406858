import NetForge.Ingest.Wire
import NetForge.Ingest.DigestField
import NetForge.Ingest.Feedback

/-! # Round trip of messages

`decode_message` reads back what `encode_message` assembled, at every security
level. The message is first written down as nested runs of TLVs: the digest field
is a gap of twelve octets in it, whose place does not depend on what fills it.
-/

namespace NetForge.Ingest.Snmp

open Python Asn1 Aes

theorem messageIv_eq {boots engineTime : Int} (hboots : 0 ≤ boots ∧ boots < 2 ^ 32)
    (htime : 0 ≤ engineTime ∧ engineTime < 2 ^ 32) {salt : Bytes}
    (hsalt : salt.length = PRIV_PARAM_LEN) :
    ∃ iv, messageIv boots engineTime salt = .ok iv ∧ iv.length = 16 := by
  have hfour : ((256 : Nat) : Int) ^ 4 = 2 ^ 32 := by decide
  have hb : toBytes 4 boots = .ok (octets 4 boots.toNat) := if_pos hboots
  have ht : toBytes 4 engineTime = .ok (octets 4 engineTime.toNat) := if_pos htime
  refine ⟨octets 4 boots.toNat ++ octets 4 engineTime.toNat ++ salt, ?_, ?_⟩
  · unfold messageIv
    rw [hb, ok_bind, ht, ok_bind]
    rfl
  · simp only [List.length_append, octets_length, hsalt]
    rfl

/-! ## The message as nested runs -/

structure Outgoing where
  msgId : Int
  maxSize : Int
  secModel : Int
  flags : UInt8
  engineId : Bytes
  boots : Int
  engineTime : Int
  username : Bytes
  contextEngineId : Bytes
  contextName : Bytes
  pduTag : UInt8
  requestId : Int
  oids : List Oid

namespace Outgoing

variable (m : Outgoing)

def varbind (o : Oid) : UInt8 × Bytes :=
  (SEQUENCE, wires [(OBJECT_IDENTIFIER, o.content), (NULL, [])])

def pduItems : List (UInt8 × Bytes) :=
  [(INTEGER, intOctets m.requestId), (INTEGER, intOctets 0), (INTEGER, intOctets 0),
    (SEQUENCE, wires (m.oids.map varbind))]

def scopedItems : List (UInt8 × Bytes) :=
  [(OCTET_STRING, m.contextEngineId), (OCTET_STRING, m.contextName), (m.pduTag, wires m.pduItems)]

def scopedPdu : Bytes := wire SEQUENCE (wires m.scopedItems)

def securityItems : List (UInt8 × Bytes) :=
  [(OCTET_STRING, m.engineId), (INTEGER, intOctets m.boots), (INTEGER, intOctets m.engineTime),
    (OCTET_STRING, m.username)]

def security (authParams privParams : Bytes) : Bytes :=
  wires (m.securityItems ++ [(OCTET_STRING, authParams), (OCTET_STRING, privParams)])

def globalItems : List (UInt8 × Bytes) :=
  [(INTEGER, intOctets m.msgId), (INTEGER, intOctets m.maxSize), (OCTET_STRING, [m.flags]),
    (INTEGER, intOctets m.secModel)]

def versionItems : List (UInt8 × Bytes) :=
  [(INTEGER, intOctets SNMP_VERSION_3), (SEQUENCE, wires m.globalItems)]

def body (authParams privParams : Bytes) (msgData : UInt8 × Bytes) : Bytes :=
  wires (m.versionItems ++
    [(OCTET_STRING, wire SEQUENCE (m.security authParams privParams)), msgData])

def message (authParams privParams : Bytes) (msgData : UInt8 × Bytes) : Bytes :=
  wire SEQUENCE (m.body authParams privParams msgData)

/-! ### What the encoders return -/

theorem encRequestVarbind_eq {o : Oid} (h : (varbind o).2.length < sizeLimit) :
    encRequestVarbind o.text = .ok (wire (varbind o).1 (varbind o).2) := by
  have hname : encOid o.text = .ok (wire OBJECT_IDENTIFIER o.content) := by
    have hlt : o.content.length < sizeLimit :=
      lt_of_wires h OBJECT_IDENTIFIER o.content (by simp)
    rw [o.encOid_text, tlv_eq _ hlt]
  have hnull : encNull = .ok (wire NULL []) := tlv_eq NULL (by decide)
  unfold encRequestVarbind
  rw [hname, ok_bind, hnull, ok_bind]
  exact @encSeq_eq [(OBJECT_IDENTIFIER, o.content), (NULL, [])] h

theorem encRequestPdu_eq (h : (wires m.pduItems).length < sizeLimit) :
    encRequestPdu m.pduTag m.requestId (m.oids.map Oid.text) =
      .ok (wire m.pduTag (wires m.pduItems)) := by
  have hlist : (wires (m.oids.map varbind)).length < sizeLimit :=
    lt_of_wires h SEQUENCE (wires (m.oids.map varbind)) (by simp [pduItems])
  have hid : encInt m.requestId = .ok (wire INTEGER (intOctets m.requestId)) :=
    encInt_eq (lt_of_wires h INTEGER (intOctets m.requestId) (by simp [pduItems]))
  have hzero : encInt 0 = .ok (wire INTEGER (intOctets 0)) :=
    encInt_eq (lt_of_wires h INTEGER (intOctets 0) (by simp [pduItems]))
  have hvarbinds : (m.oids.map Oid.text).mapM encRequestVarbind =
      .ok ((m.oids.map varbind).map fun item => wire item.1 item.2) := by
    rw [List.mapM_map, List.map_map]
    refine mapM_ok fun o ho => ?_
    exact encRequestVarbind_eq (lt_of_wires hlist _ _ (List.mem_map_of_mem ho))
  unfold encRequestPdu
  rw [hvarbinds, ok_bind, encSeq_eq hlist, ok_bind, hid, ok_bind, hzero, ok_bind, ok_bind]
  have hjoin : wire INTEGER (intOctets m.requestId) ++ wire INTEGER (intOctets 0) ++
      wire INTEGER (intOctets 0) ++ wire SEQUENCE (wires (m.oids.map varbind)) =
        wires m.pduItems := by
    simp [wires, pduItems]
  rw [hjoin]
  exact tlv_eq m.pduTag h

theorem encodeScopedPdu_eq (h : m.scopedPdu.length < sizeLimit) :
    encodeScopedPdu m.contextEngineId m.contextName (wire m.pduTag (wires m.pduItems)) =
      .ok m.scopedPdu := by
  have hitems : (wires m.scopedItems).length < sizeLimit := lt_of_wire h
  have hengine : encOct m.contextEngineId = .ok (wire OCTET_STRING m.contextEngineId) :=
    tlv_eq _ (lt_of_wires hitems OCTET_STRING m.contextEngineId
      (by simp [scopedItems]))
  have hname : encOct m.contextName = .ok (wire OCTET_STRING m.contextName) :=
    tlv_eq _ (lt_of_wires hitems OCTET_STRING m.contextName (by simp [scopedItems]))
  unfold encodeScopedPdu
  rw [hengine, ok_bind, hname, ok_bind]
  exact @encSeq_eq m.scopedItems hitems

/-- The parts of a message that can be written can be written. -/
theorem parts_lt {params privParams : Bytes} {msgData : UInt8 × Bytes}
    (h : (m.message params privParams msgData).length < sizeLimit) :
    (m.body params privParams msgData).length < sizeLimit ∧
      (wire SEQUENCE (m.security params privParams)).length < sizeLimit ∧
      (m.security params privParams).length < sizeLimit ∧
      (wires m.globalItems).length < sizeLimit := by
  have hbody : (m.body params privParams msgData).length < sizeLimit := lt_of_wire h
  have hsecValue : (wire SEQUENCE (m.security params privParams)).length < sizeLimit :=
    lt_of_wires hbody OCTET_STRING (wire SEQUENCE (m.security params privParams))
      (by simp)
  have hsecurity : (m.security params privParams).length < sizeLimit := lt_of_wire hsecValue
  have hglobal : (wires m.globalItems).length < sizeLimit :=
    lt_of_wires hbody SEQUENCE (wires m.globalItems) (by simp [versionItems])
  exact ⟨hbody, hsecValue, hsecurity, hglobal⟩

/-- The assembly behind the sealing of the scoped PDU and before the signature. -/
theorem encodeMessage_eq {P : Primitives} {scopedPdu privParams : Bytes} {msgData : UInt8 × Bytes}
    {authKey privKey : Option Bytes} {authHash : String} {salt : Bytes}
    (hseal : sealScopedPdu P m.boots m.engineTime m.flags scopedPdu privKey salt =
      .ok (wire msgData.1 msgData.2, privParams))
    (h : (m.message (if hasFlag m.flags FLAG_AUTH then zeroAuthParams else []) privParams
      msgData).length < sizeLimit) :
    encodeMessage P m.msgId m.engineId m.boots m.engineTime m.username m.flags scopedPdu authKey
        authHash privKey m.maxSize m.secModel salt =
      signMessage P m.flags authKey authHash
        (m.message (if hasFlag m.flags FLAG_AUTH then zeroAuthParams else []) privParams
          msgData) := by
  generalize hparams : (if hasFlag m.flags FLAG_AUTH then zeroAuthParams else []) = params at h ⊢
  obtain ⟨hbody, hsecValue, hsecurity, hglobal⟩ := m.parts_lt h
  have hversion : encInt SNMP_VERSION_3 = .ok (wire INTEGER (intOctets SNMP_VERSION_3)) :=
    encInt_eq (lt_of_wires hbody INTEGER (intOctets SNMP_VERSION_3) (by simp [versionItems]))
  have hoct : ∀ value, (OCTET_STRING, value) ∈ m.securityItems ++ [(OCTET_STRING, params),
      (OCTET_STRING, privParams)] → encOct value = .ok (wire OCTET_STRING value) :=
    fun value hv => tlv_eq _ (lt_of_wires hsecurity _ _ hv)
  have hint : ∀ value, (INTEGER, intOctets value) ∈ m.securityItems →
      encInt value = .ok (wire INTEGER (intOctets value)) :=
    fun value hv => encInt_eq (lt_of_wires hsecurity INTEGER (intOctets value)
      (List.mem_append_left _ hv))
  have hintGlobal : ∀ value, (INTEGER, intOctets value) ∈ m.globalItems →
      encInt value = .ok (wire INTEGER (intOctets value)) :=
    fun value hv => encInt_eq (lt_of_wires hglobal INTEGER (intOctets value) hv)
  have hflags : encOct [m.flags] = .ok (wire OCTET_STRING [m.flags]) :=
    tlv_eq _ (lt_of_wires hglobal OCTET_STRING [m.flags] (by simp [globalItems]))
  have hsecSeq : encSeq [wire OCTET_STRING m.engineId, wire INTEGER (intOctets m.boots),
      wire INTEGER (intOctets m.engineTime), wire OCTET_STRING m.username,
      wire OCTET_STRING params, wire OCTET_STRING privParams] =
        .ok (wire SEQUENCE (m.security params privParams)) :=
    @encSeq_eq (m.securityItems ++ [(OCTET_STRING, params), (OCTET_STRING, privParams)]) hsecurity
  have hglobalSeq : encSeq [wire INTEGER (intOctets m.msgId), wire INTEGER (intOctets m.maxSize),
      wire OCTET_STRING [m.flags], wire INTEGER (intOctets m.secModel)] =
        .ok (wire SEQUENCE (wires m.globalItems)) := @encSeq_eq m.globalItems hglobal
  have hsecOct : encOct (wire SEQUENCE (m.security params privParams)) =
      .ok (wire OCTET_STRING (wire SEQUENCE (m.security params privParams))) := tlv_eq _ hsecValue
  have hmessage : encSeq [wire INTEGER (intOctets SNMP_VERSION_3),
      wire SEQUENCE (wires m.globalItems),
      wire OCTET_STRING (wire SEQUENCE (m.security params privParams)),
      wire msgData.1 msgData.2] = .ok (m.message params privParams msgData) :=
    @encSeq_eq (m.versionItems ++
      [(OCTET_STRING, wire SEQUENCE (m.security params privParams)), msgData]) hbody
  unfold encodeMessage
  rw [hseal, ok_bind]
  simp only [hparams]
  rw [hoct m.engineId (by simp [securityItems]), ok_bind,
    hint m.boots (by simp [securityItems]), ok_bind,
    hint m.engineTime (by simp [securityItems]), ok_bind,
    hoct m.username (by simp [securityItems]), ok_bind,
    hoct params (by simp), ok_bind, hoct privParams (by simp), ok_bind, hsecSeq, ok_bind,
    hintGlobal m.msgId (by simp [globalItems]), ok_bind,
    hintGlobal m.maxSize (by simp [globalItems]), ok_bind, hflags, ok_bind,
    hintGlobal m.secModel (by simp [globalItems]), ok_bind, hglobalSeq, ok_bind, hversion, ok_bind,
    hsecOct, ok_bind, hmessage, ok_bind]

/-! ### The gap of the digest -/

theorem length_wire (tag : UInt8) (body : Bytes) :
    (wire tag body).length = (header tag body.length).length + body.length := by
  rw [wire, List.length_append]

/-- What stands before a digest of `params.length` octets. -/
def beforeDigest (params privParams : Bytes) (msgData : UInt8 × Bytes) : Bytes :=
  header SEQUENCE (m.body params privParams msgData).length ++ wires m.versionItems ++
    header OCTET_STRING (wire SEQUENCE (m.security params privParams)).length ++
    header SEQUENCE (m.security params privParams).length ++ wires m.securityItems ++
    header OCTET_STRING params.length

def afterDigest (privParams : Bytes) (msgData : UInt8 × Bytes) : Bytes :=
  wire OCTET_STRING privParams ++ wire msgData.1 msgData.2

theorem wires_append (xs ys : List (UInt8 × Bytes)) : wires (xs ++ ys) = wires xs ++ wires ys := by
  unfold wires
  rw [List.flatMap_append]

theorem security_eq (params privParams : Bytes) :
    m.security params privParams = wires m.securityItems ++
      (header OCTET_STRING params.length ++ (params ++ wire OCTET_STRING privParams)) := by
  rw [security, wires_append]
  simp [wires, wire]

theorem body_eq (params privParams : Bytes) (msgData : UInt8 × Bytes) :
    m.body params privParams msgData = wires m.versionItems ++
      (header OCTET_STRING (wire SEQUENCE (m.security params privParams)).length ++
        (wire SEQUENCE (m.security params privParams) ++ wire msgData.1 msgData.2)) := by
  rw [body, wires_append]
  simp [wires, wire]

theorem message_eq (params privParams : Bytes) (msgData : UInt8 × Bytes) :
    m.message params privParams msgData =
      m.beforeDigest params privParams msgData ++ (params ++ afterDigest privParams msgData) := by
  have hmessage : m.message params privParams msgData =
      header SEQUENCE (m.body params privParams msgData).length ++
        m.body params privParams msgData := rfl
  have hwire : wire SEQUENCE (m.security params privParams) =
      header SEQUENCE (m.security params privParams).length ++ m.security params privParams := rfl
  rw [hmessage, beforeDigest]
  generalize header SEQUENCE (m.body params privParams msgData).length = head0
  rw [m.body_eq]
  generalize header OCTET_STRING (wire SEQUENCE (m.security params privParams)).length = head2
  rw [hwire]
  generalize header SEQUENCE (m.security params privParams).length = head3
  rw [m.security_eq, afterDigest]
  simp only [List.append_assoc]

theorem authParamsOffset_message {params privParams : Bytes} {msgData : UInt8 × Bytes}
    (h : (m.message params privParams msgData).length < sizeLimit) :
    authParamsOffset (m.message params privParams msgData) =
      .ok (m.beforeDigest params privParams msgData).length := by
  have hbody : (m.body params privParams msgData).length < sizeLimit := lt_of_wire h
  have hsecValue : (wire SEQUENCE (m.security params privParams)).length < sizeLimit :=
    lt_of_wires hbody OCTET_STRING (wire SEQUENCE (m.security params privParams))
      (by simp)
  have hsecurity : (m.security params privParams).length < sizeLimit := lt_of_wire hsecValue
  have hparams : params.length < sizeLimit :=
    lt_of_wires hsecurity OCTET_STRING params (by simp)
  have hversions : Encodes m.versionItems (wires m.versionItems) :=
    encodes_wires fun item hi => lt_of_wires hbody item.1 item.2 (List.mem_append_left _ hi)
  have hfields : Encodes m.securityItems (wires m.securityItems) :=
    encodes_wires fun item hi => lt_of_wires hsecurity item.1 item.2 (List.mem_append_left _ hi)
  have hdata : m.message params privParams msgData =
      header SEQUENCE (m.body params privParams msgData).length ++
        (m.body params privParams msgData ++ []) := by
    rw [List.append_nil]
    rfl
  have hsec : wire SEQUENCE (m.security params privParams) =
      header SEQUENCE (m.security params privParams).length ++
        (m.security params privParams ++ []) := by
    rw [List.append_nil]
    rfl
  exact authParamsOffset_of_split (header_spec _ hbody) hdata hversions (header_spec _ hsecValue)
    (m.body_eq params privParams msgData) (header_spec _ hsecurity) hsec hfields
    (header_spec _ hparams) (m.security_eq params privParams)

theorem beforeDigest_congr {a b : Bytes} (h : a.length = b.length) (privParams : Bytes)
    (msgData : UInt8 × Bytes) :
    m.beforeDigest a privParams msgData = m.beforeDigest b privParams msgData := by
  have hsec : (m.security a privParams).length = (m.security b privParams).length := by
    rw [security_eq, security_eq]
    simp only [List.length_append, h]
  have hwire : (wire SEQUENCE (m.security a privParams)).length =
      (wire SEQUENCE (m.security b privParams)).length := by
    rw [length_wire, length_wire, hsec]
  have hbody : (m.body a privParams msgData).length = (m.body b privParams msgData).length := by
    rw [body_eq, body_eq]
    simp only [List.length_append, hwire]
  rw [beforeDigest, beforeDigest, hbody, hwire, hsec, h]

theorem length_message_congr {a b : Bytes} (h : a.length = b.length) (privParams : Bytes)
    (msgData : UInt8 × Bytes) :
    (m.message a privParams msgData).length = (m.message b privParams msgData).length := by
  rw [message_eq, message_eq, beforeDigest_congr m h]
  simp only [List.length_append, h]

theorem splice_message {a b : Bytes} (ha : a.length = AUTH_PARAM_LEN)
    (hb : b.length = AUTH_PARAM_LEN) (privParams : Bytes) (msgData : UInt8 × Bytes) :
    spliceAuthParams (m.message a privParams msgData)
        (m.beforeDigest a privParams msgData).length b =
      m.message b privParams msgData := by
  rw [message_eq, message_eq, m.beforeDigest_congr (hb.trans ha.symm)]
  generalize m.beforeDigest a privParams msgData = before
  unfold spliceAuthParams
  rw [List.take_left, ← ha, ← List.drop_drop, List.drop_left, List.drop_left, List.append_assoc]

/-! ### What the decoder reads -/

def headerOf (params privParams : Bytes) (msgData : UInt8 × Bytes) : MessageHeader where
  version := SNMP_VERSION_3
  msgId := m.msgId
  flags := m.flags
  engineId := m.engineId
  boots := m.boots
  engineTime := m.engineTime
  username := m.username
  authParams := params
  privParams := privParams
  msgData := some msgData

theorem decode_wire {tag : UInt8} {body : Bytes} (h : body.length < sizeLimit) :
    decode (wire tag body) 0 = .ok (tag, body, (wire tag body).length) := by
  have hread : decode (header tag body.length ++ (body ++ [])) 0 =
      .ok (tag, body, (header tag body.length).length + body.length) :=
    decode_zero (header_spec tag h)
  rw [List.append_nil] at hread
  rw [length_wire]
  exact hread

theorem parseHeader_message {params privParams : Bytes} {msgData : UInt8 × Bytes}
    (h : (m.message params privParams msgData).length < sizeLimit) :
    parseHeader (m.message params privParams msgData) =
      .ok (m.headerOf params privParams msgData) := by
  obtain ⟨hbody, hsecValue, hsecurity, hglobal⟩ := m.parts_lt h
  have hread : decode (m.message params privParams msgData) 0 = .ok (SEQUENCE,
      m.body params privParams msgData, (m.message params privParams msgData).length) :=
    decode_wire hbody
  have hch : decodeChildren (m.body params privParams msgData) = .ok _ := decodeChildren_wires hbody
  have hgd : decodeChildren (wires m.globalItems) = .ok _ := decodeChildren_wires hglobal
  have hseq : decode (wire SEQUENCE (m.security params privParams)) 0 = .ok (SEQUENCE,
      m.security params privParams, (wire SEQUENCE (m.security params privParams)).length) :=
    decode_wire hsecurity
  have hfields : decodeChildren (m.security params privParams) = .ok _ :=
    decodeChildren_wires hsecurity
  unfold parseHeader
  rw [hread, ok_bind]
  simp only [ne_eq, not_true_eq_false, if_false]
  rw [hch, ok_bind]
  simp only [versionItems, securityItems, globalItems, List.cons_append, List.nil_append] at *
  simp only [index, List.getElem?_cons_zero, List.getElem?_cons_succ, ok_bind]
  rw [hgd, ok_bind]
  simp only [List.getElem?_cons_zero, List.getElem?_cons_succ, ok_bind]
  rw [hseq, ok_bind]
  simp only
  rw [hfields, ok_bind]
  simp only [List.getElem?_cons_zero, List.getElem?_cons_succ, ok_bind, parseInt_intOctets,
    List.headD_cons]
  rfl

theorem parseVarbind_varbind {o : Oid} (h : (varbind o).2.length < sizeLimit) :
    parseVarbind (varbind o) = .ok (o.text, SnmpValue.none) := by
  have hparts : decodeChildren (varbind o).2 = .ok [(OBJECT_IDENTIFIER, o.content), (NULL, [])] :=
    decodeChildren_wires h
  unfold parseVarbind
  rw [hparts, ok_bind]
  simp only [index, List.getElem?_cons_zero, List.getElem?_cons_succ, ok_bind, o.parseOid_content]
  rfl

/-- The message that an assembled header and scoped PDU parse to. -/
def parsed (params privParams : Bytes) : ParsedMessage where
  version := SNMP_VERSION_3
  msgId := m.msgId
  flags := m.flags
  engineId := m.engineId
  boots := m.boots
  engineTime := m.engineTime
  username := m.username
  authParams := params
  privParams := privParams
  contextEngineId := m.contextEngineId
  contextName := m.contextName
  pduTag := m.pduTag
  requestId := m.requestId
  errorStatus := 0
  errorIndex := 0
  varbinds := m.oids.map fun o => (o.text, .none)

theorem parseScopedPdu_scopedItems (h : m.scopedPdu.length < sizeLimit) (params privParams : Bytes)
    (msgData : UInt8 × Bytes) :
    parseScopedPdu (m.headerOf params privParams msgData) (wires m.scopedItems) =
      .ok (m.parsed params privParams) := by
  have hitems : (wires m.scopedItems).length < sizeLimit := lt_of_wire h
  have hpdu : (wires m.pduItems).length < sizeLimit :=
    lt_of_wires hitems m.pduTag (wires m.pduItems) (by simp [scopedItems])
  have hlist : (wires (m.oids.map varbind)).length < sizeLimit :=
    lt_of_wires hpdu SEQUENCE (wires (m.oids.map varbind)) (by simp [pduItems])
  have hsch : decodeChildren (wires m.scopedItems) = .ok _ := decodeChildren_wires hitems
  have hpch : decodeChildren (wires m.pduItems) = .ok _ := decodeChildren_wires hpdu
  have hvbs : decodeChildren (wires (m.oids.map varbind)) = .ok _ := decodeChildren_wires hlist
  have hvarbinds : (m.oids.map varbind).mapM parseVarbind =
      .ok (m.oids.map fun o => (o.text, SnmpValue.none)) := by
    rw [List.mapM_map]
    exact mapM_ok fun o ho => parseVarbind_varbind (lt_of_wires hlist _ _ (List.mem_map_of_mem ho))
  unfold parseScopedPdu
  rw [hsch, ok_bind]
  simp only [scopedItems, index, List.getElem?_cons_zero, List.getElem?_cons_succ, ok_bind]
  rw [hpch, ok_bind]
  simp only [pduItems, List.getElem?_cons_zero, List.getElem?_cons_succ, ok_bind]
  rw [hvbs, ok_bind, hvarbinds, ok_bind]
  simp only [parseInt_intOctets]
  rfl

/-! ### There and back -/

theorem length_message_data {a b : Bytes} (h : a.length = b.length) (params privParams : Bytes)
    (tag : UInt8) :
    (m.message params privParams (tag, a)).length =
      (m.message params privParams (tag, b)).length := by
  have hdata : (wire tag a).length = (wire tag b).length := by
    rw [length_wire, length_wire, h]
  have hbody : (m.body params privParams (tag, a)).length =
      (m.body params privParams (tag, b)).length := by
    rw [body_eq, body_eq]
    simp only [List.length_append, hdata]
  rw [message, message, length_wire, length_wire, hbody]

def gap : Bytes := if hasFlag m.flags FLAG_AUTH then zeroAuthParams else []

section

variable {P : Primitives} {privParams digest key : Bytes} {msgData : UInt8 × Bytes}
  {authHash : String}

theorem signMessage_message (hflag : hasFlag m.flags FLAG_AUTH = true)
    (hsize : (m.message zeroAuthParams privParams msgData).length < sizeLimit)
    (hdigest : truncatedHmac P authHash key (m.message zeroAuthParams privParams msgData) = digest)
    (hlength : digest.length = AUTH_PARAM_LEN) :
    signMessage P m.flags (some key) authHash (m.message zeroAuthParams privParams msgData) =
      .ok (m.message digest privParams msgData) := by
  have hzero : zeroAuthParams.length = AUTH_PARAM_LEN := List.length_replicate
  unfold signMessage
  rw [if_pos hflag]
  simp only
  rw [m.authParamsOffset_message hsize, ok_bind, hdigest, m.splice_message hzero hlength]
  rfl

/-- With the digest taken out again, the message is the one that was signed. -/
theorem verifyMessage_message (hflag : hasFlag m.flags FLAG_AUTH = true)
    (hsize : (m.message digest privParams msgData).length < sizeLimit)
    (hdigest : truncatedHmac P authHash key (m.message zeroAuthParams privParams msgData) = digest)
    (hlength : digest.length = AUTH_PARAM_LEN) :
    verifyMessage P (m.message digest privParams msgData) (m.headerOf digest privParams msgData)
      (some key) authHash true = .ok () := by
  have hzero : zeroAuthParams.length = AUTH_PARAM_LEN := List.length_replicate
  unfold verifyMessage
  simp only [headerOf, hflag, Bool.and_self, if_true]
  rw [m.authParamsOffset_message hsize, ok_bind]
  simp only [m.splice_message hlength hzero, hdigest, if_true]

end

/-- Whatever the scoped PDU was sealed into, if it can be opened again. -/
theorem decode_encode_of_seal {P : Primitives}
    (hdigest : ∀ name key message, AUTH_PARAM_LEN ≤ (P.hmac name key message).length)
    {privParams : Bytes} {msgData : UInt8 × Bytes} {authKey privKey : Option Bytes}
    {authHash : String} {salt : Bytes} (hscoped : m.scopedPdu.length < sizeLimit)
    (hauth : hasFlag m.flags FLAG_AUTH = true → authKey.isSome = true)
    (hseal : sealScopedPdu P m.boots m.engineTime m.flags m.scopedPdu privKey salt =
      .ok (wire msgData.1 msgData.2, privParams))
    (hsize : (m.message m.gap privParams msgData).length < sizeLimit)
    (hopen : ∀ params, openScopedPdu P (m.headerOf params privParams msgData) privKey =
      .ok (wires m.scopedItems)) :
    ∃ data params,
      encodeMessage P m.msgId m.engineId m.boots m.engineTime m.username m.flags m.scopedPdu
        authKey authHash privKey m.maxSize m.secModel salt = .ok data ∧
      data.length = (m.message m.gap privParams msgData).length ∧
      decodeMessage P data privKey authKey authHash true = .ok (m.parsed params privParams) := by
  have hencode := @encodeMessage_eq m P m.scopedPdu privParams msgData authKey privKey authHash salt
    hseal hsize
  by_cases hflag : hasFlag m.flags FLAG_AUTH = true
  · obtain ⟨key, rfl⟩ := Option.isSome_iff_exists.mp (hauth hflag)
    have hgap : m.gap = zeroAuthParams := by rw [gap, if_pos hflag]
    rw [if_pos hflag] at hencode
    rw [hgap] at hsize ⊢
    have hdigestLength : (truncatedHmac P authHash key
        (m.message zeroAuthParams privParams msgData)).length = AUTH_PARAM_LEN := by
      have hlong := hdigest authHash key (m.message zeroAuthParams privParams msgData)
      rw [truncatedHmac, List.length_take]
      omega
    generalize hdigest' : truncatedHmac P authHash key
      (m.message zeroAuthParams privParams msgData) = digest at hdigestLength
    have hzero : zeroAuthParams.length = AUTH_PARAM_LEN := List.length_replicate
    have hlength := m.length_message_congr (hdigestLength.trans hzero.symm) privParams msgData
    have hsign := m.signMessage_message hflag hsize hdigest' hdigestLength
    have hsize' : (m.message digest privParams msgData).length < sizeLimit := by
      rw [hlength]
      exact hsize
    have hverify := m.verifyMessage_message hflag hsize' hdigest' hdigestLength
    refine ⟨m.message digest privParams msgData, digest, hencode.trans hsign, hlength, ?_⟩
    exact decodeMessage_ok_iff.mpr ⟨_, _, m.parseHeader_message hsize', hverify, hopen digest,
      m.parseScopedPdu_scopedItems hscoped digest privParams msgData⟩
  · have hgap : m.gap = [] := by rw [gap, if_neg hflag]
    rw [if_neg hflag] at hencode
    rw [hgap] at hsize ⊢
    have hsign : signMessage P m.flags authKey authHash (m.message [] privParams msgData) =
        .ok (m.message [] privParams msgData) := by
      unfold signMessage
      rw [if_neg hflag]
    have hverify : verifyMessage P (m.message [] privParams msgData)
        (m.headerOf [] privParams msgData) authKey authHash true = .ok () := by
      unfold verifyMessage
      simp only [headerOf, hflag, Bool.false_and, Bool.false_eq_true, if_false]
    refine ⟨m.message [] privParams msgData, [], hencode.trans hsign, rfl, ?_⟩
    exact decodeMessage_ok_iff.mpr ⟨_, _, m.parseHeader_message hsize, hverify, hopen [],
      m.parseScopedPdu_scopedItems hscoped [] privParams msgData⟩

/-- The message before it is encrypted and signed, as long as it will be then. -/
def draft (salt : Bytes) : Bytes :=
  if hasFlag m.flags FLAG_PRIV then m.message m.gap salt (OCTET_STRING, m.scopedPdu)
  else m.message m.gap [] (SEQUENCE, wires m.scopedItems)

theorem scopedPdu_lt_of_draft {salt : Bytes} (h : (m.draft salt).length < sizeLimit) :
    m.scopedPdu.length < sizeLimit := by
  unfold draft at h
  by_cases hflag : hasFlag m.flags FLAG_PRIV = true
  · rw [if_pos hflag] at h
    exact lt_of_wires (lt_of_wire h) OCTET_STRING m.scopedPdu (by simp)
  · rw [if_neg hflag] at h
    have hle : m.scopedPdu.length ≤ (m.body m.gap [] (SEQUENCE, wires m.scopedItems)).length :=
      @wire_le_wires _ (SEQUENCE, wires m.scopedItems) (by simp)
    exact Nat.lt_of_le_of_lt hle (lt_of_wire h)

theorem pduItems_lt_of_scopedPdu (h : m.scopedPdu.length < sizeLimit) :
    (wires m.pduItems).length < sizeLimit :=
  lt_of_wires (lt_of_wire h) m.pduTag (wires m.pduItems) (by simp [scopedItems])

/-! ### Sealing -/

section

variable {m} {P : Primitives} {key salt : Bytes}

/-- An encrypted scoped PDU is as long as the one in the clear, and decrypts to it. -/
theorem sealScopedPdu_private (hblock : KeepsBlocks P.encryptBlock key) (hkey : key.length = 16)
    (hboots : 0 ≤ m.boots ∧ m.boots < 2 ^ 32) (htime : 0 ≤ m.engineTime ∧ m.engineTime < 2 ^ 32)
    (hsalt : salt.length = PRIV_PARAM_LEN) (hflag : hasFlag m.flags FLAG_PRIV = true)
    (hscoped : m.scopedPdu.length < sizeLimit) :
    ∃ iv ciphertext, messageIv m.boots m.engineTime salt = .ok iv ∧
      aes128CfbDecrypt P.encryptBlock key iv ciphertext = .ok m.scopedPdu ∧
      ciphertext.length = m.scopedPdu.length ∧
      sealScopedPdu P m.boots m.engineTime m.flags m.scopedPdu (some key) salt =
        .ok (wire OCTET_STRING ciphertext, salt) := by
  obtain ⟨iv, hiv, hivLength⟩ := messageIv_eq hboots htime hsalt
  have htake : key.take 16 = key := List.take_of_length_le (by omega)
  obtain ⟨ciphertext, henc, hlength, hdec⟩ := decrypt_encrypt hblock hivLength m.scopedPdu
  have hoct : encOct ciphertext = .ok (wire OCTET_STRING ciphertext) :=
    tlv_eq _ (by rw [hlength]; exact hscoped)
  refine ⟨iv, ciphertext, hiv, hdec, hlength, ?_⟩
  unfold sealScopedPdu
  rw [if_pos hflag]
  simp only
  rw [hiv, ok_bind, htake, henc, ok_bind, hoct]
  rfl

theorem sealScopedPdu_plain {privKey : Option Bytes} (hflag : ¬ hasFlag m.flags FLAG_PRIV = true) :
    sealScopedPdu P m.boots m.engineTime m.flags m.scopedPdu privKey salt =
      .ok (wire SEQUENCE (wires m.scopedItems), []) := by
  unfold sealScopedPdu
  rw [if_neg hflag]
  rfl

/-- The ciphertext is opened with the key and vector that it was made with. -/
theorem openScopedPdu_private {params iv ciphertext : Bytes}
    (hiv : messageIv m.boots m.engineTime salt = .ok iv) (hkey : key.length = 16)
    (hdec : aes128CfbDecrypt P.encryptBlock key iv ciphertext = .ok m.scopedPdu)
    (hflag : hasFlag m.flags FLAG_PRIV = true) (hscoped : m.scopedPdu.length < sizeLimit) :
    openScopedPdu P (m.headerOf params salt (OCTET_STRING, ciphertext)) (some key) =
      .ok (wires m.scopedItems) := by
  have htake : key.take 16 = key := List.take_of_length_le (by omega)
  have hread : decode m.scopedPdu 0 = .ok (SEQUENCE, wires m.scopedItems, _) :=
    Outgoing.decode_wire (lt_of_wire hscoped)
  unfold openScopedPdu
  simp only [Outgoing.headerOf, hflag, beq_self_eq_true, Bool.and_self, if_true]
  unfold decryptScopedPdu
  simp only
  rw [hiv, ok_bind, htake, hdec, ok_bind, hread]
  rfl

theorem openScopedPdu_plain {params : Bytes} {privKey : Option Bytes}
    (hflag : ¬ hasFlag m.flags FLAG_PRIV = true) :
    openScopedPdu P (m.headerOf params [] (SEQUENCE, wires m.scopedItems)) privKey =
      .ok (wires m.scopedItems) := by
  unfold openScopedPdu
  simp only [Outgoing.headerOf, hflag, Bool.false_and, Bool.false_eq_true, if_false]

end

end Outgoing

/-- Every message that is assembled is read back, field by field. -/
theorem decodeMessage_encodeMessage (P : Primitives)
    (hdigest : ∀ name key message, AUTH_PARAM_LEN ≤ (P.hmac name key message).length)
    (hblock : ∀ key, key.length = 16 → KeepsBlocks P.encryptBlock key)
    (m : Outgoing) (authKey privKey : Option Bytes) (authHash : String) (salt : Bytes)
    (hboots : 0 ≤ m.boots ∧ m.boots < 2 ^ 32)
    (htime : 0 ≤ m.engineTime ∧ m.engineTime < 2 ^ 32)
    (hsalt : salt.length = PRIV_PARAM_LEN)
    (hauth : hasFlag m.flags FLAG_AUTH = true → authKey.isSome = true)
    (hpriv : hasFlag m.flags FLAG_PRIV = true → ∃ key, privKey = some key ∧ key.length = 16)
    (hsize : (m.draft salt).length < 256 ^ 126) :
    ∃ pdu scopedPdu data authParams,
      encRequestPdu m.pduTag m.requestId (m.oids.map Oid.text) = .ok pdu ∧
      encodeScopedPdu m.contextEngineId m.contextName pdu = .ok scopedPdu ∧
      encodeMessage P m.msgId m.engineId m.boots m.engineTime m.username m.flags scopedPdu authKey
        authHash privKey m.maxSize m.secModel salt = .ok data ∧
      data.length = (m.draft salt).length ∧
      decodeMessage P data privKey authKey authHash true = .ok
        { version := SNMP_VERSION_3
          msgId := m.msgId
          flags := m.flags
          engineId := m.engineId
          boots := m.boots
          engineTime := m.engineTime
          username := m.username
          authParams := authParams
          privParams := if hasFlag m.flags FLAG_PRIV then salt else []
          contextEngineId := m.contextEngineId
          contextName := m.contextName
          pduTag := m.pduTag
          requestId := m.requestId
          errorStatus := 0
          errorIndex := 0
          varbinds := m.oids.map fun o => (o.text, .none) } := by
  have hscoped := m.scopedPdu_lt_of_draft hsize
  have hsealed : ∃ data params,
      encodeMessage P m.msgId m.engineId m.boots m.engineTime m.username m.flags m.scopedPdu
        authKey authHash privKey m.maxSize m.secModel salt = .ok data ∧
      data.length = (m.draft salt).length ∧
      decodeMessage P data privKey authKey authHash true =
        .ok (m.parsed params (if hasFlag m.flags FLAG_PRIV then salt else [])) := by
    by_cases hflag : hasFlag m.flags FLAG_PRIV = true
    · obtain ⟨key, rfl, hkey⟩ := hpriv hflag
      obtain ⟨iv, ciphertext, hiv, hdec, hlength, hseal⟩ :=
        Outgoing.sealScopedPdu_private (hblock key hkey) hkey hboots htime hsalt hflag hscoped
      have hdraft : m.draft salt = m.message m.gap salt (OCTET_STRING, m.scopedPdu) := by
        rw [Outgoing.draft, if_pos hflag]
      rw [hdraft] at hsize ⊢
      have hsame := m.length_message_data hlength m.gap salt OCTET_STRING
      have hsealed : (m.message m.gap salt (OCTET_STRING, ciphertext)).length < sizeLimit := by
        rw [hsame]
        exact hsize
      obtain ⟨data, params, hencode, hdataLength, hdecode⟩ :=
        m.decode_encode_of_seal hdigest hscoped hauth hseal hsealed
          fun _ => Outgoing.openScopedPdu_private hiv hkey hdec hflag hscoped
      rw [if_pos hflag]
      exact ⟨data, params, hencode, hdataLength.trans hsame, hdecode⟩
    · have hdraft : m.draft salt = m.message m.gap [] (SEQUENCE, wires m.scopedItems) := by
        rw [Outgoing.draft, if_neg hflag]
      rw [hdraft] at hsize ⊢
      obtain ⟨data, params, hencode, hdataLength, hdecode⟩ :=
        m.decode_encode_of_seal hdigest hscoped hauth (Outgoing.sealScopedPdu_plain hflag) hsize
          fun _ => Outgoing.openScopedPdu_plain hflag
      rw [if_neg hflag]
      exact ⟨data, params, hencode, hdataLength, hdecode⟩
  obtain ⟨data, params, hencode, hlength, hdecode⟩ := hsealed
  exact ⟨_, _, data, params, m.encRequestPdu_eq (m.pduItems_lt_of_scopedPdu hscoped),
    m.encodeScopedPdu_eq hscoped, hencode, hlength, hdecode⟩

def sysDescr : Oid where
  first := 1
  second := 3
  rest := [6, 1, 2, 1, 1, 1, 0]
  first_le := by decide
  second_lt := by decide
  arcs_lt := by
    have hsmall : ∀ a ∈ [1, 3, 6, 1, 2, 1, 1, 1, 0], a < 10 := by decide
    exact fun a ha => Nat.lt_of_lt_of_le (hsmall a ha) (Nat.le_self_pow (by decide) 10)

namespace Sample

def outgoing : Outgoing where
  msgId := 1
  maxSize := MAX_MESSAGE_SIZE
  secModel := USM_SECURITY_MODEL
  flags := 5
  engineId := engineId
  boots := 3
  engineTime := 1234
  username := encodeUtf8 "netforge"
  contextEngineId := engineId
  contextName := []
  pduTag := GET_REQUEST
  requestId := 1
  oids := [sysDescr]

end Sample

/-- The signed request of the polled device. -/
theorem decodeMessage_encodeMessage_request :
    ∃ pdu scopedPdu data m,
      encRequestPdu GET_REQUEST 1 [sysDescr.text] = .ok pdu ∧
      encodeScopedPdu Sample.engineId [] pdu = .ok scopedPdu ∧
      encodeMessage Sample.digests 1 Sample.engineId 3 1234 (encodeUtf8 "netforge") 5 scopedPdu
        (some Sample.authKey) "sha1" none MAX_MESSAGE_SIZE USM_SECURITY_MODEL
        (List.replicate PRIV_PARAM_LEN 0) = .ok data ∧
      decodeMessage Sample.digests data none (some Sample.authKey) "sha1" true = .ok m ∧
      m.varbinds = [(sysDescr.text, .none)] := by
  have hblock : ∀ key, key.length = 16 → KeepsBlocks Sample.digests.encryptBlock key :=
    fun _ hkey => aes128EncryptBlock_keepsBlocks hkey
  have hsize : (Sample.outgoing.draft (List.replicate PRIV_PARAM_LEN 0)).length < 256 ^ 126 := by
    have hsmall : (Sample.outgoing.draft (List.replicate PRIV_PARAM_LEN 0)).length < 256 := by
      decide +kernel
    exact Nat.lt_of_lt_of_le hsmall (Nat.le_self_pow (by decide) 256)
  obtain ⟨pdu, scopedPdu, data, params, hpdu, hscoped, hdata, -, hdecode⟩ :=
    decodeMessage_encodeMessage Sample.digests Sample.digests_long hblock Sample.outgoing
      (some Sample.authKey) none "sha1" (List.replicate PRIV_PARAM_LEN 0) (by decide) (by decide)
      (by decide) (by decide) (by decide) hsize
  exact ⟨pdu, scopedPdu, data, _, hpdu, hscoped, hdata, hdecode, rfl⟩

end NetForge.Ingest.Snmp
