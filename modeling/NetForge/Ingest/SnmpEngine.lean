import NetForge.Ingest.SnmpMessage
import NetForge.Python.Number

/-! # SNMPv3 engine

The class `SnmpV3Engine` of `ingest/snmp_engine.py`, from its constructor to
`get`, `getnext` and `walk`. Its methods run on a session: the attributes they
assign, and what was done with sockets and the clock so far. The network and
the clock are arbitrary.
-/

namespace NetForge.Ingest.Snmp

open Python Asn1

inductive SecurityLevel
  | noAuthNoPriv | authNoPriv | authPriv
  deriving DecidableEq, Repr

/-- The attributes that `__init__` fixes for good. -/
structure SnmpV3Engine where
  host : String
  port : Int
  username : String
  level : SecurityLevel
  authProtocol : String
  authKey : String
  privProtocol : String
  privKey : String
  contextName : String
  timeout : Rat
  retries : Int
  authHash : String
  deriving DecidableEq

structure EngineState where
  contextEngineId : Bytes
  engineId : Bytes
  boots : Int
  engineTime : Int
  /-- The clock reading at which boots and time were last taken over. -/
  ref : Option Rat
  localizedAuth : Option Bytes
  localizedPriv : Option Bytes
  msgId : Nat
  reqId : Nat
  discovered : Bool
  deriving DecidableEq

def AUTH_HASHES : List (String × String) :=
  [("sha", "sha1"), ("sha1", "sha1"), ("md5", "md5"), ("sha224", "sha224"), ("sha256", "sha256"),
    ("sha384", "sha384"), ("sha512", "sha512")]

def hashName (protocol : String) : Except PyError String :=
  match AUTH_HASHES.lookup (lower protocol) with
  | some name => .ok name
  | none => .error (.snmpError s!"unsupported auth protocol: {strRepr protocol}")

def SecurityLevel.parse (text : String) : Except PyError SecurityLevel :=
  if text = "noAuthNoPriv" then .ok .noAuthNoPriv
  else if text = "authNoPriv" then .ok .authNoPriv
  else if text = "authPriv" then .ok .authPriv
  else .error (.snmpError s!"unknown security level: {strRepr text}")

/-- `__init__`; the two seeds are the two calls of `os.urandom(2)`. -/
def SnmpV3Engine.create (host : String) (port : Int)
    (username securityLevel authProtocol authKey privProtocol privKey contextName : String)
    (contextEngineId : Bytes) (timeout : Rat) (retries : Int) (msgSeed reqSeed : Bytes) :
    Except PyError (SnmpV3Engine × EngineState) := do
  let level ← SecurityLevel.parse securityLevel
  let priv := lower privProtocol
  if level ≠ .noAuthNoPriv ∧ (lower authProtocol = "" ∨ lower authProtocol = "none") then
    .error (.snmpError "auth_protocol is required for authenticated levels")
  else if level = .authPriv ∧ ¬ (priv = "aes" ∨ priv = "aes128") then
    .error (.snmpError "only AES privacy (RFC 3826) is supported; DES is not implemented")
  else
    let authHash ← if level ≠ .noAuthNoPriv then hashName authProtocol else .ok "sha1"
    let engine : SnmpV3Engine := {
      host, port, username, level, authProtocol, authKey, privProtocol := priv, privKey
      contextName, timeout, retries, authHash }
    let state : EngineState := {
      contextEngineId
      engineId := []
      boots := 0
      engineTime := 0
      ref := none
      localizedAuth := none
      localizedPriv := none
      msgId := fromBytes msgSeed
      reqId := fromBytes reqSeed
      discovered := false }
    return (engine, state)

namespace SnmpV3Engine

def useAuth (e : SnmpV3Engine) : Bool := e.level == .authNoPriv || e.level == .authPriv

def usePriv (e : SnmpV3Engine) : Bool := e.level == .authPriv

def flags (e : SnmpV3Engine) : UInt8 :=
  let flags := FLAG_REPORTABLE
  let flags := if e.useAuth then flags ||| FLAG_AUTH else flags
  if e.usePriv then flags ||| FLAG_PRIV else flags

end SnmpV3Engine

def nextId (value : Nat) : Nat := (value + 1) &&& 0x7FFFFFFF

/-! ## Network and session -/

inductive Delivery
  | datagram (data : Bytes)
  /-- An `OSError` with this text. -/
  | error (text : String)

structure Network where
  /-- Successive readings of `time.monotonic()`. -/
  clock : Nat → Rat
  /-- Successive calls of `os.urandom(PRIV_PARAM_LEN)`. -/
  salt : Nat → Bytes
  salt_length : ∀ n, (salt n).length = PRIV_PARAM_LEN
  /-- Whether the IDNA codec takes a host name. -/
  idna : String → Bool
  /-- The `OSError` of looking the host up, by how many calls of `sendto` came before. -/
  lookup : Nat → Option String
  /-- Given all datagrams sent so far, either the `OSError` raised by the last
  `sendto`, or what the socket then yields before its waits time out. -/
  deliver : List Bytes → Except String (List Delivery)

inductive SocketCall
  | opened
  | settimeout (seconds : Rat)
  | sendto (message : Bytes)
  | recvfrom
  | closed
  deriving DecidableEq

def SocketCall.message? : SocketCall → Option Bytes
  | .sendto message => some message
  | _ => none

/-- An engine's state together with what its methods did to the world. -/
structure Session where
  state : EngineState
  /-- Clock readings taken. -/
  reads : Nat
  /-- Salts drawn. -/
  salts : Nat
  calls : List SocketCall
  deriving DecidableEq

def Session.sent (s : Session) : List Bytes := s.calls.filterMap SocketCall.message?

abbrev EngineM := EStateM PyError Session

namespace EngineM

def of {α : Type} (x : Except PyError α) : EngineM α := fun s =>
  match x with
  | .ok a => .ok a s
  | .error e => .error e s

def state : EngineM EngineState := fun s => .ok s.state s

def modifyState (f : EngineState → EngineState) : EngineM Unit :=
  fun s => .ok () { s with state := f s.state }

def call (c : SocketCall) : EngineM Unit := fun s => .ok () { s with calls := s.calls ++ [c] }

/-- `if c: raise error`. -/
def raiseIf (c : Prop) [Decidable c] (error : PyError) : EngineM Unit :=
  if c then throw error else pure ()

/-- `if c: x`. -/
def onlyIf (c : Prop) [Decidable c] (x : EngineM Unit) : EngineM Unit :=
  if c then x else pure ()

/-- `try: x finally: sock.close()`. -/
def thenClose {α : Type} (x : EngineM α) : EngineM α := fun s =>
  match x s with
  | .ok a s' => .ok a { s' with calls := s'.calls ++ [.closed] }
  | .error e s' => .error e { s' with calls := s'.calls ++ [.closed] }

end EngineM

open EngineM

def nextReqId : EngineM Nat := do
  modifyState fun st => { st with reqId := nextId st.reqId }
  return (← state).reqId

def nextMsgId : EngineM Nat := do
  modifyState fun st => { st with msgId := nextId st.msgId }
  return (← state).msgId

section

variable (P : Primitives) (net : Network) (e : SnmpV3Engine)

def monotonic : EngineM Rat := fun s => .ok (net.clock s.reads) { s with reads := s.reads + 1 }

def urandom : EngineM Bytes := fun s => .ok (net.salt s.salts) { s with salts := s.salts + 1 }

/-! ## Sending and receiving -/

/-- `except (SnmpError, ValueError, IndexError)` around `peek_msg_id`. -/
def isPeekError : PyError → Bool
  | .snmpError _ => true
  | .indexError => true
  | e => e.isValueError

/-- `sock.settimeout(seconds)`: a count of nanoseconds that fits 64 bits, and is not
negative. -/
def settimeout (seconds : Rat) : EngineM Unit := do
  call (.settimeout seconds)
  raiseIf (seconds * 10 ^ 9 < -2 ^ 63 ∨ 2 ^ 63 - 1 < seconds * 10 ^ 9) .overflowError
  raiseIf (seconds < 0) (.valueError "Timeout value out of range")

/-- The host can be passed to C: its octets, or those of its IDNA form, without a zero. -/
def hostEncodes : Bool :=
  e.host.toList.all (·.toNat ≠ 0) && (e.host.toList.all (·.toNat < 128) || net.idna e.host)

/-- `sock.sendto(message, (self.host, self.port))`, and what the socket then yields. The port
is converted to a C integer, then the host is looked up, then the port has to be one. -/
def sendto (message : Bytes) : EngineM (Except String (List Delivery)) := do
  let before := (← get).sent.length
  call (.sendto message)
  raiseIf (hostEncodes net e = false) .typeError
  raiseIf (e.port < -2 ^ 31 ∨ 2 ^ 31 ≤ e.port) .overflowError
  match net.lookup before with
  | some text => return .error text
  | none =>
      raiseIf (e.port < 0 ∨ 0xffff < e.port) .overflowError
      return net.deliver (← get).sent

def await (deadline : Rat) (next : EngineM (Except String Bytes)) :
    EngineM (Except String Bytes) := do
  let remaining := deadline - (← monotonic net)
  if remaining ≤ 0 then return .error "no reply matched the outstanding msgID"
  else
    settimeout remaining
    call .recvfrom
    next

/-- The receive loop of one attempt: the matching datagram, or the text of the
error the attempt ends with. -/
def receive (expectedMsgId : Int) (deadline : Rat) :
    List Delivery → EngineM (Except String Bytes)
  | [] => await net deadline (return .error "timed out")
  | .error text :: _ => await net deadline (return .error text)
  | .datagram data :: rest => await net deadline (
      match peekMsgId (data.take MAX_MESSAGE_SIZE) with
      | .ok id =>
          if id = expectedMsgId then return .ok (data.take MAX_MESSAGE_SIZE)
          else receive expectedMsgId deadline rest
      | .error e => if isPeekError e then receive expectedMsgId deadline rest else throw e)

def attempt (message : Bytes) (expectedMsgId : Int) : EngineM (Except String Bytes) := do
  settimeout e.timeout
  match ← sendto net e message with
  | .error text => return .error text
  | .ok deliveries =>
      let deadline := (← monotonic net) + e.timeout
      receive net expectedMsgId deadline deliveries

def attempts (message : Bytes) (expectedMsgId : Int) : (left : Nat) → (last : String) →
    EngineM Bytes
  | 0, last => do
      let port ← of (str e.port)
      throw (.snmpError s!"no SNMP response from {e.host}:{port} ({last})")
  | left + 1, _ => do
      call .opened
      match ← thenClose (attempt net e message expectedMsgId) with
      | .ok data => return data
      | .error last => attempts message expectedMsgId left last

def sendRecv (message : Bytes) (expectedMsgId : Int) : EngineM Bytes :=
  attempts net e message expectedMsgId (e.retries + 1).toNat "None"

/-! ## Protocol -/

def localizeKeys : EngineM Unit := do
  let engineId := (← state).engineId
  onlyIf e.useAuth do
    let key ← of (passwordToKey P (encodeUtf8 e.authKey) engineId e.authHash)
    modifyState fun st => { st with localizedAuth := some key }
  onlyIf e.usePriv do
    let key ← of (passwordToKey P (encodeUtf8 e.privKey) engineId e.authHash)
    modifyState fun st => { st with localizedPriv := some (key.take 16) }

def currentTime : EngineM Int := do
  let st ← state
  match st.ref with
  | none => return st.engineTime
  | some ref =>
      let elapsed := truncate ((← monotonic net) - ref)
      return min (st.engineTime + elapsed) 2147483647

/-- Take over what the discovery reply says about the engine. -/
def adoptEngine (parsed : ParsedMessage) : EngineM Unit := do
  raiseIf (parsed.engineId = [])
    (.snmpError "engine discovery returned no authoritative engineID")
  modifyState fun st => { st with
    engineId := parsed.engineId
    boots := parsed.boots
    engineTime := parsed.engineTime }
  let now ← monotonic net
  modifyState fun st => { st with
    ref := some now
    contextEngineId := if st.contextEngineId = [] then st.engineId else st.contextEngineId }
  localizeKeys P e
  modifyState fun st => { st with discovered := true }

def discover : EngineM Unit := do
  let st ← state
  onlyIf (st.discovered = false) do
    let reqId ← nextReqId
    let msgId ← nextMsgId
    let pdu ← of (encRequestPdu GET_REQUEST reqId [SYS_DESCR])
    let scopedPdu ← of (encodeScopedPdu [] [] pdu)
    let message ← of (encodeMessage P msgId [] 0 0 [] FLAG_REPORTABLE scopedPdu none "sha1" none
      MAX_MESSAGE_SIZE USM_SECURITY_MODEL [])
    let reply ← sendRecv net e message msgId
    let parsed ← of (decodeMessage P reply none none "sha1" false)
    adoptEngine P net e parsed

def checkTimeWindow (parsed : ParsedMessage) : EngineM Unit :=
  onlyIf e.useAuth do
    let st ← state
    raiseIf (parsed.boots < st.boots)
      (.snmpError "response is outside the time window (stale engine boots)")
    onlyIf (parsed.boots = st.boots) do
      let now ← currentTime net
      raiseIf (TIME_WINDOW_SECONDS < (parsed.engineTime - now).natAbs)
        (.snmpError "response is outside the time window (clock skew)")

/-- The first half of `_exchange`: build and send the request; its id and the
reply that came back. -/
def requestReply (pduTag : UInt8) (oids : List String) : EngineM (Nat × Bytes) := do
  discover P net e
  let reqId ← nextReqId
  let msgId ← nextMsgId
  let pdu ← of (encRequestPdu pduTag reqId oids)
  let st ← state
  let scopedPdu ← of (encodeScopedPdu st.contextEngineId (encodeUtf8 e.contextName) pdu)
  let time ← currentTime net
  let salt ← if hasFlag e.flags FLAG_PRIV then urandom net else pure []
  let message ← of (encodeMessage P msgId st.engineId st.boots time (encodeUtf8 e.username)
    e.flags scopedPdu st.localizedAuth e.authHash st.localizedPriv MAX_MESSAGE_SIZE
    USM_SECURITY_MODEL salt)
  let reply ← sendRecv net e message msgId
  return (reqId, reply)

def decodeReply (st : EngineState) (reply : Bytes) : Except PyError ParsedMessage :=
  decodeMessage P reply st.localizedPriv st.localizedAuth e.authHash e.useAuth

def advanceClock (parsed : ParsedMessage) : EngineM Unit := do
  let st ← state
  onlyIf (st.boots < parsed.boots ∨
      (parsed.boots = st.boots ∧ st.engineTime < parsed.engineTime)) do
    let now ← monotonic net
    modifyState fun st => { st with
      boots := parsed.boots
      engineTime := parsed.engineTime
      ref := some now }

/-- The last check of `_exchange`. -/
def checkErrorStatus (parsed : ParsedMessage) : EngineM Unit :=
  onlyIf (parsed.errorStatus ≠ 0) do
    let status ← of (str parsed.errorStatus)
    let errorIndex ← of (str parsed.errorIndex)
    throw (.snmpError s!"SNMP error-status {status} at index {errorIndex}")

/-- The second half of `_exchange`: parse the reply and check it. -/
def acceptReply (reqId : Nat) (reply : Bytes) : EngineM ParsedMessage := do
  let st ← state
  let parsed ← of (decodeReply P e st reply)
  raiseIf (parsed.requestId ≠ reqId)
    (.snmpError "response request-id does not match the request")
  raiseIf (parsed.engineId ≠ [] ∧ parsed.engineId ≠ st.engineId)
    (.snmpError "response came from a different authoritative engineID")
  checkTimeWindow net e parsed
  advanceClock net parsed
  checkErrorStatus parsed
  return parsed

def exchange (pduTag : UInt8) (oids : List String) : EngineM ParsedMessage := do
  let (reqId, reply) ← requestReply P net e pduTag oids
  acceptReply P net e reqId reply

def EXCEPTION_VALUES : List SnmpValue :=
  [.str "noSuchObject", .str "noSuchInstance", .str "endOfMibView"]

def get (oid : String) : EngineM SnmpValue := do
  let parsed ← exchange P net e GET_REQUEST [oid]
  match parsed.varbinds with
  | [] => throw (.snmpError "empty GET response")
  | (_, value) :: _ => return if value ∈ EXCEPTION_VALUES then .none else value

def getnext (oid : String) : EngineM (String × SnmpValue) := do
  let parsed ← exchange P net e GET_NEXT_REQUEST [oid]
  match parsed.varbinds with
  | [] => throw (.snmpError "empty GETNEXT response")
  | varbind :: _ => return varbind

/-- `out[key] = value`. -/
def setItem (out : List (String × SnmpValue)) (key : String) (value : SnmpValue) :
    List (String × SnmpValue) :=
  if out.any (·.1 == key) then out.map fun item => if item.1 = key then (key, value) else item
  else out ++ [(key, value)]

/-- The loop of `walk` with `left` iterations to go. -/
def walkFrom (columnPrefix : String) : (left : Nat) → (current : String) →
    (out : List (String × SnmpValue)) → EngineM (Option (List (String × SnmpValue)))
  | 0, _, _ => return none
  | left + 1, current, out => do
      let (oid, value) ← getnext P net e current
      if value = .str "endOfMibView" ∨ ¬ columnPrefix.toList.isPrefixOf oid.toList ∨
          oid = current then
        return some out
      else
        let key := String.ofList (oid.toList.drop columnPrefix.length)
        let out :=
          if value = .str "noSuchObject" ∨ value = .str "noSuchInstance" then out
          else setItem out key value
        walkFrom columnPrefix left oid out

def walk (baseOid : String) (maxOids : Nat) : EngineM (List (String × SnmpValue)) := do
  let base := stripChar '.' baseOid
  match ← walkFrom P net e (base ++ ".") maxOids base [] with
  | some out => return out
  | none =>
      throw (.snmpError
        s!"{baseOid} walk exceeded {maxOids} OIDs; the table would be truncated")

end

end NetForge.Ingest.Snmp
