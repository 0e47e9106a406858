import NetForge.Python.Bytes
import NetForge.Python.Text
import Mathlib.Order.Basic

/-! # BER codec

`ingest/asn1.py`: the ASN.1 subset of SNMPv3 messages. The encoders and decoders
raise what the source raises, in the order in which it looks at its input.
-/

namespace NetForge.Ingest.Asn1

open Python

def INTEGER : UInt8 := 0x02
def OCTET_STRING : UInt8 := 0x04
def NULL : UInt8 := 0x05
def OBJECT_IDENTIFIER : UInt8 := 0x06
def SEQUENCE : UInt8 := 0x30

def IP_ADDRESS : UInt8 := 0x40
def COUNTER32 : UInt8 := 0x41
def GAUGE32 : UInt8 := 0x42
def TIME_TICKS : UInt8 := 0x43
def OPAQUE : UInt8 := 0x44
def COUNTER64 : UInt8 := 0x46

def NO_SUCH_OBJECT : UInt8 := 0x80
def NO_SUCH_INSTANCE : UInt8 := 0x81
def END_OF_MIB_VIEW : UInt8 := 0x82

def GET_REQUEST : UInt8 := 0xA0
def GET_NEXT_REQUEST : UInt8 := 0xA1
def GET_RESPONSE : UInt8 := 0xA2

/-! ## Encoding -/

def encodeLength (length : Nat) : Except PyError Bytes :=
  if length < 0x80 then .ok [UInt8.ofNat length]
  else do
    let body := octets (octetLength length) length
    let first ← oneByte (0x80 ||| body.length)
    return first ++ body

def tlv (tag : UInt8) (body : Bytes) : Except PyError Bytes := do
  let length ← encodeLength body.length
  return [tag] ++ length ++ body

def signBit : Bytes → Bool
  | [] => false
  | b :: _ => 0x80 ≤ b.toNat

def intBody (value : Int) : Except PyError Bytes :=
  if value = 0 then .ok [0]
  else if 0 < value then
    let body := octets (octetLength value.toNat) value.toNat
    .ok (if signBit body then 0 :: body else body)
  else toBytesSigned ((bitLength value.natAbs + 8) / 8) value

def encInt (value : Int) : Except PyError Bytes := do tlv INTEGER (← intBody value)

def encOct (value : Bytes) : Except PyError Bytes := tlv OCTET_STRING value

def encNull : Except PyError Bytes := tlv NULL []

/-- The loop of `_base128` on `value`, with the groups found so far in final
order. The shift of a negative value stops at -1, never at 0. -/
def base128Loop : (fuel : Nat) → (value : Int) → (out : List Nat) → Option (List Nat)
  | 0, _, _ => none
  | fuel + 1, value, out =>
      if value = 0 then some out
      else base128Loop fuel (value / 128) ((value % 128).toNat :: out)

/-- Every group but the last has its top bit set. -/
def continued : List Nat → Bytes
  | [] => []
  | [g] => [UInt8.ofNat g]
  | g :: gs => UInt8.ofNat (g ||| 0x80) :: continued gs

def base128 (value : Int) : Except PyError Bytes :=
  if value = 0 then .ok [0]
  else
    match base128Loop (value.natAbs + 1) value [] with
    | none => .error .diverges
    | some out => .ok (continued out)

def arcs (oid : String) : Except PyError (List Int) :=
  ((splitChar '.' (stripChar '.' oid)).filter (· ≠ "")).mapM int

def encOidBody : (parts : List Int) → (oid : String) → Except PyError Bytes
  | first :: second :: rest, _ => do
      let head ← base128 (40 * first + second)
      let tail ← rest.mapM base128
      return head ++ tail.flatten
  | _, oid => .error (.berError s!"OID needs at least two arcs: {oid}")

def encOid (oid : String) : Except PyError Bytes := do
  let parts ← arcs oid
  tlv OBJECT_IDENTIFIER (← encOidBody parts oid)

def encSeq (items : List Bytes) : Except PyError Bytes := tlv SEQUENCE items.flatten

def encRequestVarbind (oid : String) : Except PyError Bytes := do
  let name ← encOid oid
  let null ← encNull
  encSeq [name, null]

def encRequestPdu (tag : UInt8) (requestId : Int) (oids : List String) : Except PyError Bytes := do
  let varbinds ← encSeq (← oids.mapM encRequestVarbind)
  let id ← encInt requestId
  let status ← encInt 0
  let errorIndex ← encInt 0
  tlv tag (id ++ status ++ errorIndex ++ varbinds)

/-! ## Decoding -/

def decodeBody (buf : Bytes) (tag : UInt8) (start length : Nat) :
    Except PyError (UInt8 × Bytes × Nat) :=
  if buf.length < start + length then .error (.berError "truncated TLV value")
  else .ok (tag, slice buf start length, start + length)

def decode (buf : Bytes) (offset : Nat) : Except PyError (UInt8 × Bytes × Nat) :=
  if buf.length ≤ offset then .error (.berError "unexpected end of buffer")
  else do
    let tag ← index buf offset
    let length ← index buf (offset + 1)
    if length.toNat < 0x80 then decodeBody buf tag (offset + 2) length.toNat
    else
      let n := length.toNat - 0x80
      if n = 0 then .error (.berError "indefinite length not supported")
      else decodeBody buf tag (offset + 2 + n) (fromBytes (slice buf (offset + 2) n))

/-- The loop of `decode_children` from `offset` on. Every TLV takes two octets
or more, so fuel for the octets left is enough. -/
def decodeChildrenFrom : (fuel : Nat) → (value : Bytes) → (offset : Nat) →
    Except PyError (List (UInt8 × Bytes))
  | 0, _, _ => .error .diverges
  | fuel + 1, value, offset =>
      if offset < value.length then do
        let (tag, val, next) ← decode value offset
        let rest ← decodeChildrenFrom fuel value next
        return (tag, val) :: rest
      else .ok []

def decodeChildren (value : Bytes) : Except PyError (List (UInt8 × Bytes)) :=
  decodeChildrenFrom (value.length + 1) value 0

def parseInt (value : Bytes) : Int :=
  if signBit value then (fromBytes value : Int) - 256 ^ value.length else fromBytes value

def parseUint (value : Bytes) : Nat := fromBytes value

/-- The sub-identifiers of an OID's content; trailing octets that do not end
one are dropped. -/
def subIdentifiers : (acc : Nat) → Bytes → List Nat
  | _, [] => []
  | acc, byte :: rest =>
      let acc := acc * 128 + byte.toNat % 128
      if byte.toNat < 0x80 then acc :: subIdentifiers 0 rest else subIdentifiers acc rest

/-- `".".join(str(p) for p in parts)`. -/
def dotted (parts : List Int) : Except PyError String := do
  let texts ← parts.mapM str
  return ".".intercalate texts

def parseOid (value : Bytes) : Except PyError String :=
  match subIdentifiers 0 value with
  | [] => .ok ""
  | first :: rest =>
      let a := min (first / 40) 2
      dotted (((a :: (first - 40 * a) :: rest : List Nat)).map Int.ofNat)

inductive SnmpValue
  | none
  | int (n : Int)
  | str (s : String)
  deriving DecidableEq, Repr

def decodeValue (tag : UInt8) (value : Bytes) : Except PyError SnmpValue :=
  if tag = NO_SUCH_OBJECT then .ok (.str "noSuchObject")
  else if tag = NO_SUCH_INSTANCE then .ok (.str "noSuchInstance")
  else if tag = END_OF_MIB_VIEW then .ok (.str "endOfMibView")
  else if tag = INTEGER then .ok (.int (parseInt value))
  else if tag ∈ [COUNTER32, GAUGE32, TIME_TICKS, COUNTER64] then .ok (.int (parseUint value))
  else if tag = OBJECT_IDENTIFIER then do return .str (← parseOid value)
  else if tag = IP_ADDRESS then
    .ok (.str (".".intercalate (value.map fun b => toString b.toNat)))
  else if tag = OCTET_STRING ∨ tag = OPAQUE then
    match decodeUtf8 value with
    | some text => .ok (.str text)
    | .none => .ok (.str (hex value))
  else if tag = NULL then .ok .none
  else .ok (.str (hex value))

/-! ## Termination -/

/-- A negative value is shifted for ever: no fuel is enough. -/
theorem base128Loop_of_neg (fuel : Nat) (value : Int) (out : List Nat) (h : value < 0) :
    base128Loop fuel value out = none := by
  induction fuel generalizing value out with
  | zero => rfl
  | succ fuel ih =>
      have hne : value ≠ 0 := by omega
      have hneg : value / 128 < 0 := by omega
      rw [base128Loop, if_neg hne]
      exact ih _ _ hneg

theorem base128Loop_of_nonneg (fuel : Nat) (value : Int) (out : List Nat) (h : 0 ≤ value)
    (hf : value.natAbs < fuel) : ∃ groups, base128Loop fuel value out = some groups := by
  induction fuel generalizing value out with
  | zero => omega
  | succ fuel ih =>
      by_cases hz : value = 0
      · exact ⟨out, by simp [base128Loop, hz]⟩
      · rw [base128Loop, if_neg hz]
        exact ih _ _ (by omega) (by omega)

theorem base128_eq_diverges_iff (value : Int) :
    base128 value = .error .diverges ↔ ∀ fuel, base128Loop fuel value [] = none := by
  constructor
  · intro h fuel
    by_cases hneg : value < 0
    · exact base128Loop_of_neg fuel value [] hneg
    · obtain ⟨groups, hg⟩ := base128Loop_of_nonneg (value.natAbs + 1) value [] (by omega) (by omega)
      by_cases hz : value = 0
      · simp [base128, hz] at h
      · simp [base128, hz, hg] at h
  · intro h
    have hz : value ≠ 0 := by
      rintro rfl
      simpa [base128Loop] using h 1
    simp [base128, hz, h]

/-- A body is cut out where it says, and it fits. -/
theorem decodeBody_spec {buf : Bytes} {t tag : UInt8} {start length next : Nat} {val : Bytes}
    (h : decodeBody buf t start length = .ok (tag, val, next)) :
    t = tag ∧ val = slice buf start length ∧ val.length = length ∧ start + length = next ∧
      next ≤ buf.length := by
  unfold decodeBody at h
  by_cases hshort : buf.length < start + length
  · rw [if_pos hshort] at h
    cases h
  · rw [if_neg hshort] at h
    cases h
    have hlength : (slice buf start length).length = length := by
      rw [slice_length]
      omega
    exact ⟨rfl, rfl, hlength, rfl, by omega⟩

/-- A decoded TLV was cut out by `decodeBody` behind its tag and length. -/
theorem decode_ok {buf : Bytes} {offset : Nat} {tlv : UInt8 × Bytes × Nat}
    (h : decode buf offset = .ok tlv) :
    ∃ tag start length, offset + 2 ≤ start ∧ decodeBody buf tag start length = .ok tlv := by
  unfold decode at h
  split at h
  · cases h
  · obtain ⟨tag, _, h⟩ := ok_of_bind.mp h
    obtain ⟨first, _, h⟩ := ok_of_bind.mp h
    split at h
    · exact ⟨tag, _, _, le_rfl, h⟩
    · dsimp only at h
      split at h
      · cases h
      · exact ⟨tag, _, _, Nat.le_add_right _ _, h⟩

/-- Tag and length were consumed, the value stands right before the next offset,
and the next offset is inside the buffer. -/
theorem decode_spec {buf : Bytes} {offset next : Nat} {tag : UInt8} {val : Bytes}
    (h : decode buf offset = .ok (tag, val, next)) :
    offset + 2 + val.length ≤ next ∧ next ≤ buf.length ∧
      val = slice buf (next - val.length) val.length := by
  obtain ⟨t, start, length, hstart, hbody⟩ := decode_ok h
  obtain ⟨-, hval, hlength, hnext, hin⟩ := decodeBody_spec hbody
  have hback : next - val.length = start := by omega
  rw [hback, hlength]
  exact ⟨by omega, hin, hval⟩

theorem index_ne_diverges {α : Type} (xs : List α) (i : Nat) : index xs i ≠ .error .diverges := by
  unfold index
  split <;> simp

theorem decodeBody_ne_diverges (buf : Bytes) (tag : UInt8) (start length : Nat) :
    decodeBody buf tag start length ≠ .error .diverges := by
  unfold decodeBody
  split <;> simp

theorem decode_ne_diverges (buf : Bytes) (offset : Nat) :
    decode buf offset ≠ .error .diverges := by
  unfold decode
  split
  · simp
  · apply bind_ne_error (index_ne_diverges _ _)
    intro tag _
    apply bind_ne_error (index_ne_diverges _ _)
    intro length _
    split
    · exact decodeBody_ne_diverges _ _ _ _
    · dsimp only
      split
      · simp
      · exact decodeBody_ne_diverges _ _ _ _

theorem decodeChildrenFrom_ne_diverges (fuel : Nat) (value : Bytes) (offset : Nat)
    (h : value.length < fuel + offset) (hf : 0 < fuel) :
    decodeChildrenFrom fuel value offset ≠ .error .diverges := by
  induction fuel generalizing offset with
  | zero => omega
  | succ fuel ih =>
      unfold decodeChildrenFrom
      split
      · apply bind_ne_error (decode_ne_diverges _ _)
        rintro ⟨tag, val, next⟩ hd
        have hnext := decode_spec hd
        apply bind_ne_error (ih next (by omega) (by omega))
        intro rest _
        simp [pure, Except.pure]
      · simp

theorem decodeChildren_ne_diverges (value : Bytes) :
    decodeChildren value ≠ .error .diverges :=
  decodeChildrenFrom_ne_diverges _ _ _ (by omega) (by omega)

end NetForge.Ingest.Asn1
