import NetForge.Ingest.Aes
import NetForge.Ingest.Asn1

/-! # SNMPv3 messages

The message half of `ingest/snmp_engine.py`: key localization, the offset of the
digest field, and the assembly and parsing of a message with USM security. The
hash, the HMAC and the block cipher are parameters.
-/

namespace NetForge.Ingest.Snmp

open Python Asn1 Aes

def AUTH_PARAM_LEN : Nat := 12
def PRIV_PARAM_LEN : Nat := 8
def TIME_WINDOW_SECONDS : Int := 150
def MAX_MESSAGE_SIZE : Nat := 65507
def USM_SECURITY_MODEL : Int := 3
def SNMP_VERSION_3 : Int := 3
def SYS_DESCR : String := "1.3.6.1.2.1.1.1.0"

def FLAG_AUTH : UInt8 := 0x01
def FLAG_PRIV : UInt8 := 0x02
def FLAG_REPORTABLE : UInt8 := 0x04

/-- `flags & flag`, as a condition. -/
def hasFlag (flags flag : UInt8) : Bool := flags &&& flag != 0

structure Primitives where
  /-- `hashlib.new(name)` fed with a string, then its digest. -/
  hash : (name : String) → Bytes → Bytes
  /-- `hmac.new(key, message, name).digest()`. -/
  hmac : (name : String) → (key message : Bytes) → Bytes
  /-- The block cipher under CFB. -/
  encryptBlock : (key block : Bytes) → Except PyError Bytes

/-- The primitives as the repository has them: its own AES block. -/
def Primitives.withAes (hash : String → Bytes → Bytes) (hmac : String → Bytes → Bytes → Bytes) :
    Primitives where
  hash := hash
  hmac := hmac
  encryptBlock := aes128EncryptBlock

/-! ## Keys -/

/-- The 64 octets put into the buffer from password position `start` on. -/
def passwordBlock (pw : Bytes) (start : Nat) : Bytes :=
  (List.range 64).map fun i => pw.getD ((start + i) % pw.length) 0

def passwordStream (pw : Bytes) : (blocks : Nat) → (start : Nat) → Bytes
  | 0, _ => []
  | blocks + 1, start => passwordBlock pw start ++ passwordStream pw blocks (start + 64)

/-- RFC 3414 A.2: 1 MiB fold, then localize with the engineID. -/
def passwordToKey (P : Primitives) (password engineId : Bytes) (hashName : String) :
    Except PyError Bytes :=
  if password = [] then .error (.snmpError "password must be non-empty")
  else
    let ku := P.hash hashName (passwordStream password (1048576 / 64) 0)
    .ok (P.hash hashName (ku ++ engineId ++ ku))

/-! ## Two walks over the plaintext structure -/

def peekMsgId (data : Bytes) : Except PyError Int := do
  let (_, msgBody, _) ← decode data 0
  let children ← decodeChildren msgBody
  let globalData ← index children 1
  let fields ← decodeChildren globalData.2
  let msgId ← index fields 0
  return parseInt msgId.2

/-- Absolute offset of the msgAuthenticationParameters value in `data`. -/
def authParamsOffset (data : Bytes) : Except PyError Nat := do
  let (_, msgBody, off) ← decode data 0
  let bodyStart := off - msgBody.length
  let (_, _, o) ← decode data bodyStart
  let (_, _, o) ← decode data o
  let (_, secValue, o) ← decode data o
  let spValueStart := o - secValue.length
  let (_, seqBody, seqOff) ← decode secValue 0
  let seqBodyStart := seqOff - seqBody.length
  let (_, _, oo) ← decode seqBody 0
  let (_, _, oo) ← decode seqBody oo
  let (_, _, oo) ← decode seqBody oo
  let (_, _, oo) ← decode seqBody oo
  let (_, val, oo) ← decode seqBody oo
  return spValueStart + seqBodyStart + (oo - val.length)

/-- `data[:offset] + params + data[offset + AUTH_PARAM_LEN:]`. -/
def spliceAuthParams (data : Bytes) (offset : Nat) (params : Bytes) : Bytes :=
  data.take offset ++ params ++ data.drop (offset + AUTH_PARAM_LEN)

def zeroAuthParams : Bytes := List.replicate AUTH_PARAM_LEN 0

def truncatedHmac (P : Primitives) (authHash : String) (authKey message : Bytes) : Bytes :=
  (P.hmac authHash authKey message).take AUTH_PARAM_LEN

/-! ## Assembly -/

def encodeScopedPdu (contextEngineId contextName pdu : Bytes) : Except PyError Bytes := do
  let engine ← encOct contextEngineId
  let name ← encOct contextName
  encSeq [engine, name, pdu]

def messageIv (boots engineTime : Int) (salt : Bytes) : Except PyError Bytes := do
  let boots ← toBytes 4 boots
  let engineTime ← toBytes 4 engineTime
  return boots ++ engineTime ++ salt

/-- msgData and msgPrivacyParameters: the scoped PDU, encrypted when privFlag is
set. -/
def sealScopedPdu (P : Primitives) (boots engineTime : Int) (flags : UInt8) (scopedPdu : Bytes)
    (privKey : Option Bytes) (salt : Bytes) : Except PyError (Bytes × Bytes) :=
  if hasFlag flags FLAG_PRIV then
    match privKey with
    | none => .error (.snmpError "priv_key required when privFlag is set")
    | some key => do
        let iv ← messageIv boots engineTime salt
        let msgData ← encOct (← aes128CfbEncrypt P.encryptBlock (key.take 16) iv scopedPdu)
        return (msgData, salt)
  else .ok (scopedPdu, [])

/-- Put the digest into a message assembled with twelve zero octets. -/
def signMessage (P : Primitives) (flags : UInt8) (authKey : Option Bytes) (authHash : String)
    (message : Bytes) : Except PyError Bytes :=
  if hasFlag flags FLAG_AUTH then
    match authKey with
    | none => .error (.snmpError "auth_key required when authFlag is set")
    | some key => do
        let offset ← authParamsOffset message
        return spliceAuthParams message offset (truncatedHmac P authHash key message)
  else .ok message

/-- Assemble (and optionally encrypt + authenticate) an SNMPv3 message; `salt`
is what `os.urandom` gives. -/
def encodeMessage (P : Primitives) (msgId : Int) (engineId : Bytes) (boots engineTime : Int)
    (username : Bytes) (flags : UInt8) (scopedPdu : Bytes) (authKey : Option Bytes)
    (authHash : String) (privKey : Option Bytes) (maxSize secModel : Int) (salt : Bytes) :
    Except PyError Bytes := do
  let (msgData, privParams) ← sealScopedPdu P boots engineTime flags scopedPdu privKey salt
  let authParams := if hasFlag flags FLAG_AUTH then zeroAuthParams else []
  let secBody ← encSeq
    [← encOct engineId, ← encInt boots, ← encInt engineTime, ← encOct username,
      ← encOct authParams, ← encOct privParams]
  let globalData ← encSeq
    [← encInt msgId, ← encInt maxSize, ← encOct [flags], ← encInt secModel]
  let message ← encSeq [← encInt SNMP_VERSION_3, globalData, ← encOct secBody, msgData]
  signMessage P flags authKey authHash message

/-! ## Parsing -/

structure ParsedMessage where
  version : Int
  msgId : Int
  flags : UInt8
  engineId : Bytes
  boots : Int
  engineTime : Int
  username : Bytes
  authParams : Bytes
  privParams : Bytes
  contextEngineId : Bytes
  contextName : Bytes
  pduTag : UInt8
  requestId : Int
  errorStatus : Int
  errorIndex : Int
  varbinds : List (String × SnmpValue)
  deriving DecidableEq, Repr

/-- What `decode_message` knows before it verifies or decrypts anything. The
msgData TLV is looked up only after the verification, so it may be missing. -/
structure MessageHeader where
  version : Int
  msgId : Int
  flags : UInt8
  engineId : Bytes
  boots : Int
  engineTime : Int
  username : Bytes
  authParams : Bytes
  privParams : Bytes
  msgData : Option (UInt8 × Bytes)
  deriving DecidableEq, Repr

def parseHeader (data : Bytes) : Except PyError MessageHeader := do
  let (tag, msgBody, _) ← decode data 0
  if tag ≠ SEQUENCE then .error (.snmpError "SNMPv3 message must be a SEQUENCE")
  else
    let ch ← decodeChildren msgBody
    let version ← index ch 0
    let gd ← decodeChildren (← index ch 1).2
    let msgId ← index gd 0
    let flags ← index gd 2
    let (_, secBody, _) ← decode (← index ch 2).2 0
    let sec ← decodeChildren secBody
    let engineId ← index sec 0
    let boots ← index sec 1
    let engineTime ← index sec 2
    let username ← index sec 3
    let authParams ← index sec 4
    let privParams ← index sec 5
    return {
      version := parseInt version.2
      msgId := parseInt msgId.2
      flags := flags.2.headD 0
      engineId := engineId.2
      boots := parseInt boots.2
      engineTime := parseInt engineTime.2
      username := username.2
      authParams := authParams.2
      privParams := privParams.2
      msgData := ch[3]? }

/-- The digest check, made only when the message itself sets authFlag. -/
def verifyMessage (P : Primitives) (data : Bytes) (h : MessageHeader) (authKey : Option Bytes)
    (authHash : String) (verifyAuth : Bool) : Except PyError Unit :=
  if hasFlag h.flags FLAG_AUTH && verifyAuth then
    match authKey with
    | none => .error (.snmpError "auth_key required to verify an authenticated message")
    | some key => do
        let offset ← authParamsOffset data
        let zeroed := spliceAuthParams data offset zeroAuthParams
        if truncatedHmac P authHash key zeroed = h.authParams then .ok ()
        else .error (.snmpError "authentication failure: digest mismatch")
  else .ok ()

def decryptScopedPdu (P : Primitives) (h : MessageHeader) (privKey mdVal : Bytes) :
    Except PyError Bytes := do
  let iv ← messageIv h.boots h.engineTime h.privParams
  let decrypted ← aes128CfbDecrypt P.encryptBlock (privKey.take 16) iv mdVal
  let (_, scopedBody, _) ← decode decrypted 0
  return scopedBody

/-- The content of the ScopedPDU. Without privFlag, or when msgData is no OCTET
STRING, msgData is read as plaintext. -/
def openScopedPdu (P : Primitives) (h : MessageHeader) (privKey : Option Bytes) :
    Except PyError Bytes :=
  match h.msgData with
  | none => .error .indexError
  | some (mdTag, mdVal) =>
      if hasFlag h.flags FLAG_PRIV && mdTag == OCTET_STRING then
        match privKey with
        | none => .error (.snmpError "priv_key required to decrypt a private message")
        | some key => decryptScopedPdu P h key mdVal
      else .ok mdVal

def parseVarbind (vb : UInt8 × Bytes) : Except PyError (String × SnmpValue) := do
  let parts ← decodeChildren vb.2
  let name ← index parts 0
  let oid ← parseOid name.2
  let value ← index parts 1
  return (oid, ← decodeValue value.1 value.2)

def parseScopedPdu (h : MessageHeader) (scopedBody : Bytes) : Except PyError ParsedMessage := do
  let sch ← decodeChildren scopedBody
  let contextEngineId ← index sch 0
  let contextName ← index sch 1
  let pdu ← index sch 2
  let pch ← decodeChildren pdu.2
  let requestId ← index pch 0
  let errorStatus ← index pch 1
  let errorIndex ← index pch 2
  let varbinds ← (← decodeChildren (← index pch 3).2).mapM parseVarbind
  return {
    version := h.version
    msgId := h.msgId
    flags := h.flags
    engineId := h.engineId
    boots := h.boots
    engineTime := h.engineTime
    username := h.username
    authParams := h.authParams
    privParams := h.privParams
    contextEngineId := contextEngineId.2
    contextName := contextName.2
    pduTag := pdu.1
    requestId := parseInt requestId.2
    errorStatus := parseInt errorStatus.2
    errorIndex := parseInt errorIndex.2
    varbinds := varbinds }

/-- Parse an SNMPv3 message, decrypting the scoped PDU and verifying auth. -/
def decodeMessage (P : Primitives) (data : Bytes) (privKey authKey : Option Bytes)
    (authHash : String) (verifyAuth : Bool) : Except PyError ParsedMessage := do
  let h ← parseHeader data
  verifyMessage P data h authKey authHash verifyAuth
  let scopedBody ← openScopedPdu P h privKey
  parseScopedPdu h scopedBody

/-! ## What a successful parse has checked -/

theorem decodeMessage_ok_iff {P : Primitives} {data : Bytes} {privKey authKey : Option Bytes}
    {authHash : String} {verifyAuth : Bool} {m : ParsedMessage} :
    decodeMessage P data privKey authKey authHash verifyAuth = .ok m ↔
      ∃ h scopedBody, parseHeader data = .ok h ∧
        verifyMessage P data h authKey authHash verifyAuth = .ok () ∧
        openScopedPdu P h privKey = .ok scopedBody ∧ parseScopedPdu h scopedBody = .ok m := by
  unfold decodeMessage
  constructor
  · intro hd
    obtain ⟨h, hh, hd⟩ := ok_of_bind.mp hd
    obtain ⟨_, hv, hd⟩ := ok_of_bind.mp hd
    obtain ⟨scopedBody, ho, hp⟩ := ok_of_bind.mp hd
    exact ⟨h, scopedBody, hh, hv, ho, hp⟩
  · rintro ⟨h, scopedBody, hh, hv, ho, hp⟩
    exact ok_of_bind.mpr ⟨h, hh, ok_of_bind.mpr ⟨(), hv, ok_of_bind.mpr ⟨scopedBody, ho, hp⟩⟩⟩

/-- The plaintext fields of a parsed message are those of its header. -/
theorem parseScopedPdu_header {h : MessageHeader} {scopedBody : Bytes} {m : ParsedMessage}
    (hp : parseScopedPdu h scopedBody = .ok m) :
    m.flags = h.flags ∧ m.engineId = h.engineId ∧ m.boots = h.boots ∧
      m.engineTime = h.engineTime ∧ m.authParams = h.authParams := by
  unfold parseScopedPdu at hp
  iterate 11 obtain ⟨_, _, hp⟩ := ok_of_bind.mp hp
  cases hp
  simp

theorem verifyMessage_ok_of_flag {P : Primitives} {data : Bytes} {h : MessageHeader}
    {authKey : Option Bytes} {authHash : String} (hf : hasFlag h.flags FLAG_AUTH = true)
    (hv : verifyMessage P data h authKey authHash true = .ok ()) :
    ∃ key offset, authKey = some key ∧ authParamsOffset data = .ok offset ∧
      h.authParams =
        truncatedHmac P authHash key (spliceAuthParams data offset zeroAuthParams) := by
  unfold verifyMessage at hv
  rw [hf] at hv
  cases authKey with
  | none => simp at hv
  | some key =>
      simp only [Bool.and_self, ↓reduceIte] at hv
      obtain ⟨offset, ho, hv⟩ := ok_of_bind.mp hv
      split at hv
      · rename_i heq
        exact ⟨key, offset, rfl, ho, heq.symm⟩
      · cases hv

/-- With privFlag on an OCTET STRING the scoped PDU comes out of the cipher. -/
theorem openScopedPdu_ok_of_flag {P : Primitives} {h : MessageHeader} {privKey : Option Bytes}
    {mdVal scopedBody : Bytes} (hf : hasFlag h.flags FLAG_PRIV = true)
    (hm : h.msgData = some (OCTET_STRING, mdVal))
    (ho : openScopedPdu P h privKey = .ok scopedBody) :
    ∃ key, privKey = some key ∧ decryptScopedPdu P h key mdVal = .ok scopedBody := by
  unfold openScopedPdu at ho
  rw [hm] at ho
  simp only [hf, beq_self_eq_true, Bool.and_self, ↓reduceIte] at ho
  cases privKey with
  | none => cases ho
  | some key => exact ⟨key, rfl, ho⟩

end NetForge.Ingest.Snmp
