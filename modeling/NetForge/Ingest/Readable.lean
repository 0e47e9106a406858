import NetForge.Calculus.Raising
import NetForge.Ingest.RoundTrip

/-! # Which datagrams can be read

`decode_message` indexes lists and octets of whatever was received. Its contract
is to return a message or to raise `SnmpError`; the datagrams on which it keeps
it are given here by their form alone. On every other datagram an exception of
the buffer, of the decimal texts or of the fixed-width integers gets out.
-/

namespace NetForge.Ingest.Snmp

open Python Asn1 Aes Calculus

/-! ## Exceptions -/

def IsSnmpError : PyError → Prop
  | .snmpError _ => True
  | _ => False

def IsBufferError : PyError → Prop
  | .berError _ => True
  | .indexError => True
  | _ => False

def IsForeign (e : PyError) : Prop := ¬ IsSnmpError e

theorem IsBufferError.isForeign {e : PyError} (h : IsBufferError e) : IsForeign e := by
  cases e with
  | snmpError message => exact absurd h (by simp [IsBufferError])
  | _ => simp [IsForeign, IsSnmpError]

theorem IsBufferError.isPeekError {e : PyError} (h : IsBufferError e) : isPeekError e = true := by
  cases e with
  | berError message => rfl
  | indexError => rfl
  | _ => exact absurd h (by simp [IsBufferError])

/-- Returns, or raises `SnmpError`. -/
def Contained {α : Type} (x : Except PyError α) : Prop := Raises IsSnmpError x

theorem contained_iff_ok {α : Type} {x : Except PyError α} (h : Raises IsForeign x) :
    Contained x ↔ ∃ a, x = .ok a := raises_iff_ok h fun _ hforeign => hforeign

/-! ## Reading a buffer -/

theorem raises_index {α : Type} (xs : List α) (i : Nat) : Raises IsBufferError (index xs i) := by
  unfold index
  cases xs[i]? with
  | none => simp [IsBufferError]
  | some x => simp

/-- Two octets and then a body by the form of the second one, as a TLV is read. -/
theorem raises_tlv {β : Type} {first second : Except PyError UInt8} {message : String}
    {short long : UInt8 → UInt8 → Except PyError β} (hfirst : Raises IsBufferError first)
    (hsecond : Raises IsBufferError second) (hshort : ∀ tag l, Raises IsBufferError (short tag l))
    (hlong : ∀ tag l, Raises IsBufferError (long tag l)) :
    Raises IsBufferError (do
      let tag ← first
      let l ← second
      if l.toNat < 0x80 then short tag l
      else if l.toNat - 0x80 = 0 then .error (.berError message)
      else long tag l) := by
  refine raises_bind.mpr ⟨hfirst, fun tag _ => ?_⟩
  refine raises_bind.mpr ⟨hsecond, fun l _ => ?_⟩
  by_cases hform : l.toNat < 0x80
  · rw [if_pos hform]
    exact hshort tag l
  · rw [if_neg hform]
    by_cases hzero : l.toNat - 0x80 = 0
    · rw [if_pos hzero]
      simp [IsBufferError]
    · rw [if_neg hzero]
      exact hlong tag l

theorem raises_decodeBody (buf : Bytes) (tag : UInt8) (start length : Nat) :
    Raises IsBufferError (decodeBody buf tag start length) := by
  unfold decodeBody
  by_cases hshort : buf.length < start + length
  · rw [if_pos hshort]
    simp [IsBufferError]
  · rw [if_neg hshort]
    exact raises_ok _

theorem raises_decode (buf : Bytes) (offset : Nat) : Raises IsBufferError (decode buf offset) := by
  unfold decode
  by_cases hend : buf.length ≤ offset
  · rw [if_pos hend]
    simp [IsBufferError]
  · rw [if_neg hend]
    apply raises_tlv (raises_index _ _) (raises_index _ _)
    · intro tag l
      exact raises_decodeBody _ _ _ _
    · intro tag l
      exact raises_decodeBody _ _ _ _

theorem raises_decodeChildrenFrom (fuel : Nat) (value : Bytes) (offset : Nat) :
    Raises (fun e => IsBufferError e ∨ e = .diverges) (decodeChildrenFrom fuel value offset) := by
  induction fuel generalizing offset with
  | zero => simp [decodeChildrenFrom]
  | succ fuel ih =>
      unfold decodeChildrenFrom
      by_cases hlt : offset < value.length
      · rw [if_pos hlt]
        refine raises_bind.mpr ⟨(raises_decode value offset).mono fun e he => .inl he, ?_⟩
        rintro ⟨tag, val, next⟩ -
        exact raises_bind.mpr ⟨ih next, fun rest _ => raises_ok _⟩
      · rw [if_neg hlt]
        exact raises_ok _

theorem raises_decodeChildren (value : Bytes) : Raises IsBufferError (decodeChildren value) := by
  intro e he
  rcases raises_decodeChildrenFrom _ value 0 e he with hbuffer | rfl
  · exact hbuffer
  · exact absurd he (decodeChildren_ne_diverges value)

/-- Whatever arrives, the peek at its msgID raises only what its caller handles. -/
theorem raises_peekMsgId (data : Bytes) : Raises IsBufferError (peekMsgId data) := by
  unfold peekMsgId
  refine raises_bind.mpr ⟨raises_decode _ _, ?_⟩
  rintro ⟨tag, msgBody, next⟩ -
  refine raises_bind.mpr ⟨raises_decodeChildren _, fun children _ => ?_⟩
  refine raises_bind.mpr ⟨raises_index _ _, fun globalData _ => ?_⟩
  refine raises_bind.mpr ⟨raises_decodeChildren _, fun fields _ => ?_⟩
  exact raises_bind.mpr ⟨raises_index _ _, fun msgId _ => raises_pure _⟩

/-! ## Forms -/

/-- The buffer starts with the TLV of `val`. -/
def Begins (tag : UInt8) (val data : Bytes) : Prop :=
  ∃ head after, Header tag val.length head ∧ data = head ++ (val ++ after)

theorem decode_zero_iff {data val : Bytes} {tag : UInt8} :
    (∃ next, decode data 0 = .ok (tag, val, next)) ↔ Begins tag val data := by
  constructor
  · rintro ⟨next, h⟩
    obtain ⟨head, hhead, -, hdata⟩ := header_of_decode h
    exact ⟨head, data.drop next, hhead, hdata⟩
  · rintro ⟨head, after, hhead, rfl⟩
    exact ⟨_, decode_zero hhead⟩

/-- The datagram is framed as a message with the header `h`. -/
inductive Framed (data : Bytes) : MessageHeader → Prop
  | intro {msgBody secBody : Bytes} {tag : UInt8} {rest globals fields : List (UInt8 × Bytes)}
      {version globalData security msgId maxSize flags engineId boots engineTime username
        authParams privParams : UInt8 × Bytes} :
      Begins SEQUENCE msgBody data →
      Encodes (version :: globalData :: security :: rest) msgBody →
      Encodes (msgId :: maxSize :: flags :: globals) globalData.2 →
      Begins tag secBody security.2 →
      Encodes (engineId :: boots :: engineTime :: username :: authParams :: privParams :: fields)
        secBody →
      Framed data {
        version := parseInt version.2
        msgId := parseInt msgId.2
        flags := flags.2.headD 0
        engineId := engineId.2
        boots := parseInt boots.2
        engineTime := parseInt engineTime.2
        username := username.2
        authParams := authParams.2
        privParams := privParams.2
        msgData := rest.head? }

def Printable (content : Bytes) : Prop :=
  match subIdentifiers 0 content with
  | [] => True
  | first :: rest =>
      first - 40 * min (first / 40) 2 < 10 ^ maxStrDigits ∧ ∀ n ∈ rest, n < 10 ^ maxStrDigits

inductive VarbindForm (content : Bytes) : Prop
  | intro {name value : UInt8 × Bytes} {more : List (UInt8 × Bytes)} :
      Encodes (name :: value :: more) content → Printable name.2 →
      (value.1 = OBJECT_IDENTIFIER → Printable value.2) → VarbindForm content

inductive ScopedForm (content : Bytes) : Prop
  | intro {contextEngineId contextName pdu requestId errorStatus errorIndex list : UInt8 × Bytes}
      {more rest varbinds : List (UInt8 × Bytes)} :
      Encodes (contextEngineId :: contextName :: pdu :: more) content →
      Encodes (requestId :: errorStatus :: errorIndex :: list :: rest) pdu.2 →
      Encodes varbinds list.2 → (∀ varbind ∈ varbinds, VarbindForm varbind.2) → ScopedForm content

def Encrypted (h : MessageHeader) (msgData : UInt8 × Bytes) : Prop :=
  hasFlag h.flags FLAG_PRIV = true ∧ msgData.1 = OCTET_STRING

def ivOf (h : MessageHeader) : Bytes :=
  octets 4 h.boots.toNat ++ octets 4 h.engineTime.toNat ++ h.privParams

/-- The content of the scoped PDU is in the clear, or comes out of the cipher. -/
inductive Opens (P : Primitives) (h : MessageHeader) (privKey : Option Bytes) : Bytes → Prop
  | plain {msgData : UInt8 × Bytes} : h.msgData = some msgData → ¬ Encrypted h msgData →
      Opens P h privKey msgData.2
  | deciphered {msgData : UInt8 × Bytes} {key plaintext scopedBody : Bytes} {tag : UInt8} :
      h.msgData = some msgData → Encrypted h msgData → privKey = some key →
      0 ≤ h.boots ∧ h.boots < 2 ^ 32 → 0 ≤ h.engineTime ∧ h.engineTime < 2 ^ 32 →
      h.privParams.length = PRIV_PARAM_LEN →
      aes128CfbDecrypt P.encryptBlock (key.take 16) (ivOf h) msgData.2 = .ok plaintext →
      Begins tag scopedBody plaintext → Opens P h privKey scopedBody

/-- The digest is checked, and there is no key for it or it is another one. -/
def Refused (P : Primitives) (data : Bytes) (h : MessageHeader) (authKey : Option Bytes)
    (authHash : String) (verifyAuth : Bool) : Prop :=
  hasFlag h.flags FLAG_AUTH = true ∧ verifyAuth = true ∧
    ∀ key offset, authKey = some key → authParamsOffset data = .ok offset →
      truncatedHmac P authHash key (spliceAuthParams data offset zeroAuthParams) ≠ h.authParams

/-- The datagrams that are read or refused with an `SnmpError`. -/
inductive Readable (P : Primitives) (data : Bytes) (privKey authKey : Option Bytes)
    (authHash : String) (verifyAuth : Bool) : Prop
  | otherTag {tag : UInt8} {val : Bytes} : Begins tag val data → tag ≠ SEQUENCE →
      Readable P data privKey authKey authHash verifyAuth
  | refused {h : MessageHeader} : Framed data h → Refused P data h authKey authHash verifyAuth →
      Readable P data privKey authKey authHash verifyAuth
  | keyless {h : MessageHeader} {msgData : UInt8 × Bytes} : Framed data h →
      h.msgData = some msgData → Encrypted h msgData → privKey = none →
      Readable P data privKey authKey authHash verifyAuth
  | read {h : MessageHeader} {scopedBody : Bytes} : Framed data h →
      Opens P h privKey scopedBody → ScopedForm scopedBody →
      Readable P data privKey authKey authHash verifyAuth

/-! ## The parser accepts these forms -/

theorem cons_of_index_zero {α : Type} {xs : List α} {x : α} (h : index xs 0 = .ok x) :
    ∃ rest, xs = x :: rest := by
  cases xs with
  | nil => cases h
  | cons y rest =>
      obtain rfl : y = x := Except.ok.inj h
      exact ⟨rest, rfl⟩

theorem cons_of_index_succ {α : Type} {xs : List α} {i : Nat} {x : α}
    (h : index xs (i + 1) = .ok x) : ∃ y rest, xs = y :: rest ∧ index rest i = .ok x := by
  cases xs with
  | nil => cases h
  | cons y rest => exact ⟨y, rest, rfl, h⟩

theorem triple_of_index {α : Type} {xs : List α} {x : α} (h : index xs 2 = .ok x) :
    ∃ a b rest, xs = a :: b :: x :: rest := by
  obtain ⟨a, ys, rfl, hys⟩ := cons_of_index_succ h
  obtain ⟨b, zs, rfl, hzs⟩ := cons_of_index_succ hys
  obtain ⟨rest, rfl⟩ := cons_of_index_zero hzs
  exact ⟨a, b, rest, rfl⟩

theorem parseHeader_ok_iff {data : Bytes} {h : MessageHeader} :
    parseHeader data = .ok h ↔ Framed data h := by
  unfold parseHeader
  constructor
  · intro hp
    obtain ⟨⟨tag, msgBody, next⟩, hmsg, hp⟩ := ok_of_bind.mp hp
    by_cases htag : tag ≠ SEQUENCE
    · simp only [htag, ne_eq, not_false_eq_true, if_true] at hp
      cases hp
    · simp only [htag, if_false] at hp
      rw [not_not.mp htag] at hmsg
      obtain ⟨ch, hch, hp⟩ := ok_of_bind.mp hp
      obtain ⟨version, hversion, hp⟩ := ok_of_bind.mp hp
      obtain ⟨globalData, hglobal, hp⟩ := ok_of_bind.mp hp
      obtain ⟨gd, hgd, hp⟩ := ok_of_bind.mp hp
      obtain ⟨msgId, hmsgId, hp⟩ := ok_of_bind.mp hp
      obtain ⟨flags, hflags, hp⟩ := ok_of_bind.mp hp
      obtain ⟨security, hsecurity, hp⟩ := ok_of_bind.mp hp
      obtain ⟨⟨secTag, secBody, secNext⟩, hsec, hp⟩ := ok_of_bind.mp hp
      obtain ⟨sec, hfields, hp⟩ := ok_of_bind.mp hp
      obtain ⟨engineId, hengine, hp⟩ := ok_of_bind.mp hp
      obtain ⟨boots, hboots, hp⟩ := ok_of_bind.mp hp
      obtain ⟨engineTime, htime, hp⟩ := ok_of_bind.mp hp
      obtain ⟨username, husername, hp⟩ := ok_of_bind.mp hp
      obtain ⟨authParams, hauth, hp⟩ := ok_of_bind.mp hp
      obtain ⟨privParams, hpriv, hp⟩ := ok_of_bind.mp hp
      obtain ⟨c0, c1, rest, rfl⟩ := triple_of_index hsecurity
      obtain rfl : c0 = version := Except.ok.inj hversion
      obtain rfl : c1 = globalData := Except.ok.inj hglobal
      obtain ⟨g0, maxSize, globals, rfl⟩ := triple_of_index hflags
      obtain rfl : g0 = msgId := Except.ok.inj hmsgId
      obtain ⟨s0, s1, more, rfl⟩ := triple_of_index htime
      obtain rfl : s0 = engineId := Except.ok.inj hengine
      obtain rfl : s1 = boots := Except.ok.inj hboots
      obtain ⟨s3, s4, fields, rfl⟩ := @triple_of_index _ more _ hpriv
      obtain rfl : s3 = username := Except.ok.inj husername
      obtain rfl : s4 = authParams := Except.ok.inj hauth
      have hrest : (c0 :: c1 :: security :: rest)[3]? = rest.head? := by
        rw [List.head?_eq_getElem?]
        rfl
      rw [hrest] at hp
      obtain rfl := Except.ok.inj hp
      exact .intro (decode_zero_iff.mp ⟨next, hmsg⟩) (decodeChildren_eq_ok_iff.mp hch)
        (decodeChildren_eq_ok_iff.mp hgd) (decode_zero_iff.mp ⟨secNext, hsec⟩)
        (decodeChildren_eq_ok_iff.mp hfields)
  · rintro ⟨hmsg, hch, hgd, hsec, hfields⟩
    obtain ⟨next, hmsg⟩ := decode_zero_iff.mpr hmsg
    obtain ⟨secNext, hsec⟩ := decode_zero_iff.mpr hsec
    rw [hmsg, ok_bind]
    simp only [ne_eq, not_true_eq_false, if_false]
    rw [decodeChildren_eq_ok_iff.mpr hch, ok_bind]
    simp only [index, List.getElem?_cons_zero, List.getElem?_cons_succ, ok_bind]
    rw [decodeChildren_eq_ok_iff.mpr hgd, ok_bind]
    simp only [List.getElem?_cons_zero, List.getElem?_cons_succ, ok_bind]
    rw [hsec, ok_bind]
    simp only
    rw [decodeChildren_eq_ok_iff.mpr hfields, ok_bind]
    simp only [List.getElem?_cons_zero, List.getElem?_cons_succ, ok_bind, List.head?_eq_getElem?]
    rfl

/-- A datagram that starts with a SEQUENCE is parsed, or a foreign exception is
raised. -/
theorem raises_parseHeader {data msgBody : Bytes} (h : Begins SEQUENCE msgBody data) :
    Raises IsForeign (parseHeader data) := by
  obtain ⟨next, hmsg⟩ := decode_zero_iff.mpr h
  have hbuffer : Raises IsBufferError (parseHeader data) := by
    unfold parseHeader
    rw [hmsg, ok_bind]
    simp only [ne_eq, not_true_eq_false, if_false]
    refine raises_bind.mpr ⟨raises_decodeChildren _, fun ch _ => ?_⟩
    refine raises_bind.mpr ⟨raises_index _ _, fun version _ => ?_⟩
    refine raises_bind.mpr ⟨raises_index _ _, fun globalData _ => ?_⟩
    refine raises_bind.mpr ⟨raises_decodeChildren _, fun gd _ => ?_⟩
    refine raises_bind.mpr ⟨raises_index _ _, fun msgId _ => ?_⟩
    refine raises_bind.mpr ⟨raises_index _ _, fun flags _ => ?_⟩
    refine raises_bind.mpr ⟨raises_index _ _, fun security _ => ?_⟩
    refine raises_bind.mpr ⟨raises_decode _ _, ?_⟩
    rintro ⟨tag, secBody, secNext⟩ -
    refine raises_bind.mpr ⟨raises_decodeChildren _, fun sec _ => ?_⟩
    iterate 6 refine raises_bind.mpr ⟨raises_index _ _, fun field _ => ?_⟩
    exact raises_pure _
  exact hbuffer.mono fun e he => he.isForeign

theorem parseHeader_contained_iff {data : Bytes} :
    Contained (parseHeader data) ↔
      (∃ tag val, Begins tag val data ∧ tag ≠ SEQUENCE) ∨ ∃ h, Framed data h := by
  constructor
  · intro hc
    cases hp : parseHeader data with
    | ok h => exact .inr ⟨h, parseHeader_ok_iff.mp hp⟩
    | error e =>
        refine .inl ?_
        have hsnmp := hc e hp
        cases hd : decode data 0 with
        | error e' =>
            have herror : parseHeader data = .error e' := by
              unfold parseHeader
              rw [hd]
              rfl
            obtain rfl : e' = e := Except.error.inj (herror.symm.trans hp)
            exact absurd hsnmp (raises_decode data 0 e' hd).isForeign
        | ok tlv =>
            obtain ⟨tag, val, next⟩ := tlv
            have hbegins : Begins tag val data := decode_zero_iff.mp ⟨next, hd⟩
            refine ⟨tag, val, hbegins, ?_⟩
            rintro rfl
            exact absurd hsnmp (raises_parseHeader hbegins e hp)
  · rintro (⟨tag, val, hbegins, htag⟩ | ⟨h, hframed⟩)
    · obtain ⟨next, hd⟩ := decode_zero_iff.mpr hbegins
      unfold parseHeader
      rw [hd, ok_bind]
      simp only [htag, ne_eq, not_false_eq_true, if_true]
      exact (raises_error _).mpr trivial
    · rw [Contained, parseHeader_ok_iff.mpr hframed]
      exact raises_ok h

/-! ### Varbinds -/

theorem raises_str (v : Int) : Raises IsForeign (str v) := by
  unfold str
  by_cases h : 10 ^ maxStrDigits ≤ v.natAbs
  · rw [if_pos h]
    exact (raises_error _).mpr id
  · rw [if_neg h]
    exact raises_ok _

theorem str_isOk_iff {v : Int} : (∃ text, str v = .ok text) ↔ v.natAbs < 10 ^ maxStrDigits := by
  unfold str
  constructor
  · rintro ⟨text, h⟩
    by_contra hlarge
    rw [if_pos (Nat.le_of_not_lt hlarge)] at h
    cases h
  · intro h
    exact ⟨_, if_neg (Nat.not_le.mpr h)⟩

theorem raises_parseOid (content : Bytes) : Raises IsForeign (parseOid content) := by
  unfold parseOid
  cases subIdentifiers 0 content with
  | nil => exact raises_ok _
  | cons first rest =>
      exact raises_bind.mpr ⟨raises_mapM fun v _ => raises_str v, fun texts _ => raises_pure _⟩

theorem parseOid_isOk_iff {content : Bytes} :
    (∃ text, parseOid content = .ok text) ↔ Printable content := by
  unfold parseOid Printable
  cases subIdentifiers 0 content with
  | nil => exact ⟨fun _ => trivial, fun _ => ⟨"", rfl⟩⟩
  | cons first rest =>
      have htexts : (∃ text, dotted (((min (first / 40) 2 ::
          (first - 40 * min (first / 40) 2) :: rest : List Nat)).map Int.ofNat) = .ok text) ↔
            ∀ n ∈ min (first / 40) 2 :: (first - 40 * min (first / 40) 2) :: rest,
              n < 10 ^ maxStrDigits := by
        unfold dotted
        constructor
        · rintro ⟨text, h⟩ n hn
          obtain ⟨texts, hmap, -⟩ := ok_of_bind.mp h
          obtain ⟨t, ht⟩ := mapM_isOk_iff.mp ⟨texts, hmap⟩ (Int.ofNat n) (List.mem_map_of_mem hn)
          exact str_isOk_iff.mp ⟨t, ht⟩
        · intro h
          have hall : ∀ v ∈ (min (first / 40) 2 :: (first - 40 * min (first / 40) 2) :: rest).map
              Int.ofNat, ∃ t, str v = .ok t := by
            intro v hv
            obtain ⟨n, hn, rfl⟩ := List.mem_map.mp hv
            exact str_isOk_iff.mpr (h n hn)
          obtain ⟨texts, hmap⟩ := mapM_isOk_iff.mpr hall
          exact ⟨_, ok_of_bind.mpr ⟨texts, hmap, rfl⟩⟩
      have hsmall : min (first / 40) 2 < 10 ^ maxStrDigits := by
        have hten : 10 ≤ 10 ^ maxStrDigits := Nat.le_self_pow (by decide) 10
        omega
      simp only [htexts, List.forall_mem_cons]
      exact and_iff_right hsmall

theorem exists_oid_of_printable {content : Bytes} {first : Nat} {rest : List Nat}
    (hsub : subIdentifiers 0 content = first :: rest) (hprints : Printable content) :
    ∃ o : Oid, o.subIds = first :: rest ∧ parseOid content = .ok o.text := by
  unfold Printable at hprints
  rw [hsub] at hprints
  obtain ⟨hsecond, hrest⟩ := hprints
  have hsmall : min (first / 40) 2 < 10 ^ maxStrDigits := by
    have hten : 10 ≤ 10 ^ maxStrDigits := Nat.le_self_pow (by decide) 10
    omega
  let o : Oid := {
    first := min (first / 40) 2
    second := first - 40 * min (first / 40) 2
    rest := rest
    first_le := Nat.min_le_right _ _
    second_lt := by
      intro hlt
      omega
    arcs_lt := by
      intro a ha
      rcases List.mem_cons.mp ha with rfl | ha
      · exact hsmall
      · rcases List.mem_cons.mp ha with rfl | ha
        · exact hsecond
        · exact hrest a ha }
  have hmerged : 40 * min (first / 40) 2 + (first - 40 * min (first / 40) 2) = first := by omega
  refine ⟨o, congrArg (· :: rest) hmerged, ?_⟩
  unfold parseOid
  rw [hsub]
  exact o.dotted_arcs

/-- A text that is read from a content is empty, or the canonical text of an
identifier. -/
theorem exists_oid_of_parseOid {content : Bytes} {text : String}
    (h : parseOid content = .ok text) (hne : text ≠ "") : ∃ o : Oid, text = o.text := by
  have hprints := parseOid_isOk_iff.mp ⟨text, h⟩
  cases hsub : subIdentifiers 0 content with
  | nil =>
      unfold parseOid at h
      rw [hsub] at h
      exact absurd (Except.ok.inj h).symm hne
  | cons first rest =>
      obtain ⟨o, -, htext⟩ := exists_oid_of_printable hsub hprints
      rw [htext] at h
      exact ⟨o, (Except.ok.inj h).symm⟩

theorem raises_decodeValue (tag : UInt8) (value : Bytes) :
    Raises IsForeign (decodeValue tag value) := by
  unfold decodeValue
  split_ifs
  all_goals first | exact raises_ok _ | skip
  · exact raises_bind.mpr ⟨raises_parseOid value, fun text _ => raises_pure _⟩
  · cases decodeUtf8 value with
    | none => exact raises_ok _
    | some text => exact raises_ok _

theorem decodeValue_isOk_iff {tag : UInt8} {value : Bytes} :
    (∃ v, decodeValue tag value = .ok v) ↔ (tag = OBJECT_IDENTIFIER → Printable value) := by
  by_cases htag : tag = OBJECT_IDENTIFIER
  · subst htag
    have hvalue : decodeValue OBJECT_IDENTIFIER value = do return .str (← parseOid value) := rfl
    rw [hvalue, ← parseOid_isOk_iff]
    constructor
    · rintro ⟨v, hv⟩ -
      obtain ⟨text, htext, -⟩ := ok_of_bind.mp hv
      exact ⟨text, htext⟩
    · intro h
      obtain ⟨text, htext⟩ := h rfl
      exact ⟨_, ok_of_bind.mpr ⟨text, htext, rfl⟩⟩
  · refine ⟨fun _ h => absurd h htag, fun _ => ?_⟩
    unfold decodeValue
    simp only [htag, if_false]
    split_ifs
    all_goals first | exact ⟨_, rfl⟩ | skip
    cases decodeUtf8 value with
    | none => exact ⟨_, rfl⟩
    | some text => exact ⟨_, rfl⟩

theorem raises_parseVarbind (varbind : UInt8 × Bytes) :
    Raises IsForeign (parseVarbind varbind) := by
  unfold parseVarbind
  refine raises_bind.mpr ⟨(raises_decodeChildren _).mono fun e he => he.isForeign, ?_⟩
  intro parts _
  refine raises_bind.mpr ⟨(raises_index _ _).mono fun e he => he.isForeign, fun name _ => ?_⟩
  refine raises_bind.mpr ⟨raises_parseOid _, fun oid _ => ?_⟩
  refine raises_bind.mpr ⟨(raises_index _ _).mono fun e he => he.isForeign, fun value _ => ?_⟩
  exact raises_bind.mpr ⟨raises_decodeValue _ _, fun v _ => raises_pure _⟩

theorem parseVarbind_isOk_iff {varbind : UInt8 × Bytes} :
    (∃ v, parseVarbind varbind = .ok v) ↔ VarbindForm varbind.2 := by
  unfold parseVarbind
  constructor
  · rintro ⟨v, h⟩
    obtain ⟨parts, hparts, h⟩ := ok_of_bind.mp h
    obtain ⟨name, hname, h⟩ := ok_of_bind.mp h
    obtain ⟨oid, hoid, h⟩ := ok_of_bind.mp h
    obtain ⟨value, hvalue, h⟩ := ok_of_bind.mp h
    obtain ⟨decoded, hdecoded, -⟩ := ok_of_bind.mp h
    obtain ⟨n, rest, rfl, hrest⟩ := cons_of_index_succ hvalue
    obtain ⟨more, rfl⟩ := cons_of_index_zero hrest
    obtain rfl : n = name := Except.ok.inj hname
    exact ⟨decodeChildren_eq_ok_iff.mp hparts, parseOid_isOk_iff.mp ⟨oid, hoid⟩,
      decodeValue_isOk_iff.mp ⟨decoded, hdecoded⟩⟩
  · rintro ⟨hparts, hname, hvalue⟩
    obtain ⟨oid, hoid⟩ := parseOid_isOk_iff.mpr hname
    obtain ⟨decoded, hdecoded⟩ := decodeValue_isOk_iff.mpr hvalue
    rw [decodeChildren_eq_ok_iff.mpr hparts, ok_bind]
    simp only [index, List.getElem?_cons_zero, List.getElem?_cons_succ, ok_bind]
    rw [hoid, ok_bind, hdecoded]
    exact ⟨_, rfl⟩

/-! ### The scoped PDU -/

theorem raises_parseScopedPdu (h : MessageHeader) (scopedBody : Bytes) :
    Raises IsForeign (parseScopedPdu h scopedBody) := by
  have hindex : ∀ (xs : List (UInt8 × Bytes)) i, Raises IsForeign (index xs i) :=
    fun xs i => (raises_index xs i).mono fun e he => he.isForeign
  have hchildren : ∀ value, Raises IsForeign (decodeChildren value) :=
    fun value => (raises_decodeChildren value).mono fun e he => he.isForeign
  unfold parseScopedPdu
  refine raises_bind.mpr ⟨hchildren _, fun sch _ => ?_⟩
  iterate 3 refine raises_bind.mpr ⟨hindex _ _, fun field _ => ?_⟩
  refine raises_bind.mpr ⟨hchildren _, fun pch _ => ?_⟩
  iterate 4 refine raises_bind.mpr ⟨hindex _ _, fun field _ => ?_⟩
  refine raises_bind.mpr ⟨hchildren _, fun varbinds _ => ?_⟩
  exact raises_bind.mpr ⟨raises_mapM fun vb _ => raises_parseVarbind vb, fun vbs _ => raises_pure _⟩

theorem parseScopedPdu_isOk_iff {h : MessageHeader} {scopedBody : Bytes} :
    (∃ m, parseScopedPdu h scopedBody = .ok m) ↔ ScopedForm scopedBody := by
  unfold parseScopedPdu
  constructor
  · rintro ⟨m, hp⟩
    obtain ⟨sch, hsch, hp⟩ := ok_of_bind.mp hp
    obtain ⟨engine, hengine, hp⟩ := ok_of_bind.mp hp
    obtain ⟨name, hname, hp⟩ := ok_of_bind.mp hp
    obtain ⟨pdu, hpdu, hp⟩ := ok_of_bind.mp hp
    obtain ⟨pch, hpch, hp⟩ := ok_of_bind.mp hp
    obtain ⟨requestId, hrequest, hp⟩ := ok_of_bind.mp hp
    obtain ⟨errorStatus, hstatus, hp⟩ := ok_of_bind.mp hp
    obtain ⟨errorIndex, herror, hp⟩ := ok_of_bind.mp hp
    obtain ⟨list, hlist, hp⟩ := ok_of_bind.mp hp
    obtain ⟨varbinds, hvarbinds, hp⟩ := ok_of_bind.mp hp
    obtain ⟨parsed, hparsed, -⟩ := ok_of_bind.mp hp
    obtain ⟨s0, s1, more, rfl⟩ := triple_of_index hpdu
    obtain ⟨p0, rest, rfl, hrest⟩ := cons_of_index_succ hlist
    obtain ⟨p1, p2, rest, rfl⟩ := triple_of_index hrest
    exact .intro (decodeChildren_eq_ok_iff.mp hsch) (decodeChildren_eq_ok_iff.mp hpch)
      (decodeChildren_eq_ok_iff.mp hvarbinds) fun vb hvb =>
        parseVarbind_isOk_iff.mp (mapM_isOk_iff.mp ⟨parsed, hparsed⟩ vb hvb)
  · rintro ⟨hsch, hpch, hvarbinds, hforms⟩
    obtain ⟨parsed, hparsed⟩ := mapM_isOk_iff.mpr fun vb hvb =>
      parseVarbind_isOk_iff.mpr (hforms vb hvb)
    rw [decodeChildren_eq_ok_iff.mpr hsch, ok_bind]
    simp only [index, List.getElem?_cons_zero, List.getElem?_cons_succ, ok_bind]
    rw [decodeChildren_eq_ok_iff.mpr hpch, ok_bind]
    simp only [List.getElem?_cons_zero, List.getElem?_cons_succ, ok_bind]
    rw [decodeChildren_eq_ok_iff.mpr hvarbinds, ok_bind, hparsed, ok_bind]
    exact ⟨_, rfl⟩

/-! ### Opening the scoped PDU -/

theorem toBytes_four_iff {v : Int} {out : Bytes} :
    toBytes 4 v = .ok out ↔ (0 ≤ v ∧ v < 2 ^ 32) ∧ out = octets 4 v.toNat := by
  have hfour : (256 : Int) ^ 4 = 2 ^ 32 := by decide
  unfold toBytes
  rw [hfour]
  by_cases h : 0 ≤ v ∧ v < 2 ^ 32
  · rw [if_pos h, Except.ok.injEq, and_iff_right h, eq_comm]
  · rw [if_neg h]
    constructor
    · intro hout
      cases hout
    · rintro ⟨hrange, -⟩
      exact absurd hrange h

theorem raises_toBytes (length : Nat) (v : Int) : Raises IsForeign (toBytes length v) := by
  unfold toBytes
  by_cases h : 0 ≤ v ∧ v < 256 ^ length
  · rw [if_pos h]
    exact raises_ok _
  · rw [if_neg h]
    exact (raises_error _).mpr id

theorem messageIv_ok_iff {boots engineTime : Int} {salt iv : Bytes} :
    messageIv boots engineTime salt = .ok iv ↔
      (0 ≤ boots ∧ boots < 2 ^ 32) ∧ (0 ≤ engineTime ∧ engineTime < 2 ^ 32) ∧
        iv = octets 4 boots.toNat ++ octets 4 engineTime.toNat ++ salt := by
  unfold messageIv
  constructor
  · intro h
    obtain ⟨b, hb, h⟩ := ok_of_bind.mp h
    obtain ⟨t, ht, h⟩ := ok_of_bind.mp h
    obtain ⟨hboots, rfl⟩ := toBytes_four_iff.mp hb
    obtain ⟨htime, rfl⟩ := toBytes_four_iff.mp ht
    exact ⟨hboots, htime, (Except.ok.inj h).symm⟩
  · rintro ⟨hboots, htime, rfl⟩
    rw [toBytes_four_iff.mpr ⟨hboots, rfl⟩, ok_bind, toBytes_four_iff.mpr ⟨htime, rfl⟩, ok_bind]
    rfl

theorem raises_messageIv (boots engineTime : Int) (salt : Bytes) :
    Raises IsForeign (messageIv boots engineTime salt) := by
  unfold messageIv
  refine raises_bind.mpr ⟨raises_toBytes _ _, fun b _ => ?_⟩
  exact raises_bind.mpr ⟨raises_toBytes _ _, fun t _ => raises_pure _⟩

theorem cfbDecryptFrom_total {block : Bytes → Bytes → Except PyError Bytes} {key : Bytes}
    (hblock : KeepsBlocks block key) (segments : Nat) (feedback ciphertext : Bytes)
    (hfeedback : feedback.length = 16) :
    ∃ plaintext, cfbDecryptFrom block key segments feedback ciphertext = .ok plaintext := by
  induction segments generalizing feedback ciphertext with
  | zero => exact ⟨[], rfl⟩
  | succ segments ih =>
      obtain ⟨keystream, hkeystream, -⟩ := hblock feedback hfeedback
      have hnext : (nextFeedback feedback (ciphertext.take 16)).length = 16 := by
        unfold nextFeedback
        by_cases hfull : (ciphertext.take 16).length = 16
        · rw [if_pos hfull, hfull]
        · rw [if_neg hfull, hfeedback]
      obtain ⟨rest, hrest⟩ := ih _ (ciphertext.drop 16) hnext
      rw [cfbDecryptFrom, hkeystream, ok_bind]
      simp only
      rw [hrest]
      exact ⟨_, rfl⟩

theorem raises_decrypt {block : Bytes → Bytes → Except PyError Bytes} {key : Bytes}
    (hblock : KeepsBlocks block key) (iv ciphertext : Bytes) :
    Raises IsForeign (aes128CfbDecrypt block key iv ciphertext) := by
  unfold aes128CfbDecrypt
  by_cases hiv : iv.length ≠ 16
  · rw [if_pos hiv]
    exact (raises_error _).mpr id
  · obtain ⟨plaintext, h⟩ := cfbDecryptFrom_total hblock (segmentCount ciphertext) iv ciphertext
      (not_not.mp hiv)
    rw [if_neg hiv, h]
    exact raises_ok plaintext

section

variable {P : Primitives} {h : MessageHeader}

theorem raises_decryptScopedPdu {key : Bytes} (hblock : KeepsBlocks P.encryptBlock (key.take 16))
    (mdVal : Bytes) : Raises IsForeign (decryptScopedPdu P h key mdVal) := by
  unfold decryptScopedPdu
  refine raises_bind.mpr ⟨raises_messageIv _ _ _, fun iv _ => ?_⟩
  refine raises_bind.mpr ⟨raises_decrypt hblock _ _, fun decrypted _ => ?_⟩
  refine raises_bind.mpr ⟨(raises_decode _ _).mono fun e he => he.isForeign, ?_⟩
  rintro ⟨tag, scopedBody, next⟩ -
  exact raises_pure _

theorem decryptScopedPdu_ok_iff {key mdVal scopedBody : Bytes} :
    decryptScopedPdu P h key mdVal = .ok scopedBody ↔
      (0 ≤ h.boots ∧ h.boots < 2 ^ 32) ∧ (0 ≤ h.engineTime ∧ h.engineTime < 2 ^ 32) ∧
        h.privParams.length = PRIV_PARAM_LEN ∧ ∃ plaintext tag,
          aes128CfbDecrypt P.encryptBlock (key.take 16) (ivOf h) mdVal = .ok plaintext ∧
            Begins tag scopedBody plaintext := by
  unfold decryptScopedPdu
  constructor
  · intro hd
    obtain ⟨iv, hiv, hrest⟩ := ok_of_bind.mp hd
    obtain ⟨plaintext, hplain, hread⟩ := ok_of_bind.mp hrest
    obtain ⟨⟨tag, body, next⟩, hbody, hresult⟩ := ok_of_bind.mp hread
    obtain ⟨hboots, htime, heq⟩ := messageIv_ok_iff.mp hiv
    have hivOf : iv = ivOf h := heq
    rw [hivOf] at hplain
    obtain rfl : body = scopedBody := Except.ok.inj hresult
    refine ⟨hboots, htime, ?_, plaintext, tag, hplain, decode_zero_iff.mp ⟨next, hbody⟩⟩
    by_contra hlength
    have hne : (ivOf h).length ≠ 16 := by
      simp only [ivOf, List.length_append, octets_length]
      unfold PRIV_PARAM_LEN at hlength
      omega
    unfold aes128CfbDecrypt at hplain
    rw [if_pos hne] at hplain
    cases hplain
  · rintro ⟨hboots, htime, -, plaintext, tag, hplain, hbegins⟩
    obtain ⟨next, hbody⟩ := decode_zero_iff.mpr hbegins
    rw [messageIv_ok_iff.mpr ⟨hboots, htime, rfl⟩, ok_bind]
    change aes128CfbDecrypt P.encryptBlock (key.take 16) (ivOf h) mdVal >>= _ = _
    rw [hplain, ok_bind, hbody]
    rfl

/-- What `openScopedPdu` does with a msgData TLV, by whether it is encrypted. -/
theorem openScopedPdu_of_not_encrypted {privKey : Option Bytes} {msgData : UInt8 × Bytes}
    (hm : h.msgData = some msgData) (he : ¬ Encrypted h msgData) :
    openScopedPdu P h privKey = .ok msgData.2 := by
  unfold openScopedPdu
  rw [hm]
  unfold Encrypted at he
  have hcond : ¬ (hasFlag h.flags FLAG_PRIV && msgData.1 == OCTET_STRING) = true := by
    simpa only [Bool.and_eq_true, beq_iff_eq] using he
  simp only [hcond]
  rfl

theorem openScopedPdu_of_encrypted {privKey : Option Bytes} {msgData : UInt8 × Bytes}
    (hm : h.msgData = some msgData) (he : Encrypted h msgData) :
    openScopedPdu P h privKey =
      match privKey with
      | none => .error (.snmpError "priv_key required to decrypt a private message")
      | some key => decryptScopedPdu P h key msgData.2 := by
  unfold openScopedPdu
  rw [hm]
  have hcond : (hasFlag h.flags FLAG_PRIV && msgData.1 == OCTET_STRING) = true := by
    unfold Encrypted at he
    simpa only [Bool.and_eq_true, beq_iff_eq] using he
  cases privKey with
  | none => simp only [hcond, if_true]
  | some key => simp only [hcond, if_true]

theorem openScopedPdu_ok_iff {privKey : Option Bytes} {scopedBody : Bytes} :
    openScopedPdu P h privKey = .ok scopedBody ↔ Opens P h privKey scopedBody := by
  constructor
  · intro ho
    cases hm : h.msgData with
    | none =>
        unfold openScopedPdu at ho
        rw [hm] at ho
        cases ho
    | some msgData =>
        by_cases he : Encrypted h msgData
        · rw [openScopedPdu_of_encrypted hm he] at ho
          cases hk : privKey with
          | none =>
              rw [hk] at ho
              cases ho
          | some key =>
              rw [hk] at ho
              obtain ⟨hboots, htime, hsalt, plaintext, tag, hplain, hbegins⟩ :=
                decryptScopedPdu_ok_iff.mp ho
              exact .deciphered hm he rfl hboots htime hsalt hplain hbegins
        · rw [openScopedPdu_of_not_encrypted hm he] at ho
          obtain rfl := Except.ok.inj ho
          exact .plain hm he
  · intro ho
    cases ho with
    | plain hm he => exact openScopedPdu_of_not_encrypted hm he
    | deciphered hm he hk hboots htime hsalt hplain hbegins =>
        rw [openScopedPdu_of_encrypted hm he, hk]
        exact decryptScopedPdu_ok_iff.mpr ⟨hboots, htime, hsalt, _, _, hplain, hbegins⟩

theorem openScopedPdu_contained_iff {privKey : Option Bytes}
    (hblock : ∀ key, privKey = some key → KeepsBlocks P.encryptBlock (key.take 16)) :
    Contained (openScopedPdu P h privKey) ↔
      (∃ msgData, h.msgData = some msgData ∧ Encrypted h msgData ∧ privKey = none) ∨
        ∃ scopedBody, Opens P h privKey scopedBody := by
  simp only [← openScopedPdu_ok_iff]
  cases hm : h.msgData with
  | none =>
      have hindex : openScopedPdu P h privKey = .error .indexError := by
        unfold openScopedPdu
        rw [hm]
      rw [hindex]
      simp [Contained, IsSnmpError]
  | some msgData =>
      by_cases he : Encrypted h msgData
      · rw [openScopedPdu_of_encrypted hm he]
        cases hk : privKey with
        | none => simp [Contained, IsSnmpError, he]
        | some key =>
            have hforeign := raises_decryptScopedPdu (h := h) (hblock key hk) msgData.2
            simp [contained_iff_ok hforeign]
      · rw [openScopedPdu_of_not_encrypted hm he]
        simp [Contained]

theorem verifyMessage_error_iff {data : Bytes} (hf : Framed data h) {authKey : Option Bytes}
    {authHash : String} {verifyAuth : Bool} :
    (∃ e, verifyMessage P data h authKey authHash verifyAuth = .error e) ↔
      Refused P data h authKey authHash verifyAuth := by
  obtain ⟨before, -, -, hoffset⟩ := authParamsOffset_of_parseHeader (parseHeader_ok_iff.mpr hf)
  unfold verifyMessage Refused
  by_cases hflag : hasFlag h.flags FLAG_AUTH = true ∧ verifyAuth = true
  · obtain ⟨hauth, hverify⟩ := hflag
    simp only [hauth, hverify, Bool.and_self, if_true, true_and]
    cases hk : authKey with
    | none => simp
    | some key =>
        rw [hoffset]
        simp only [Option.some.injEq, Except.ok.injEq, ok_bind]
        by_cases hd : truncatedHmac P authHash key
            (spliceAuthParams data before.length zeroAuthParams) = h.authParams
        · simp [hd]
        · simp [hd]
  · have hcond : ¬ (hasFlag h.flags FLAG_AUTH && verifyAuth) = true := by
      rwa [Bool.and_eq_true]
    rw [if_neg hcond]
    constructor
    · rintro ⟨e, he⟩
      cases he
    · rintro ⟨hauth, hverify, -⟩
      exact absurd ⟨hauth, hverify⟩ hflag

theorem verifyMessage_contained {data : Bytes} (hf : Framed data h) {authKey : Option Bytes}
    {authHash : String} {verifyAuth : Bool} :
    Contained (verifyMessage P data h authKey authHash verifyAuth) := by
  obtain ⟨before, -, -, hoffset⟩ := authParamsOffset_of_parseHeader (parseHeader_ok_iff.mpr hf)
  unfold verifyMessage
  by_cases hcond : (hasFlag h.flags FLAG_AUTH && verifyAuth) = true
  · rw [if_pos hcond]
    cases authKey with
    | none => exact (raises_error _).mpr trivial
    | some key =>
        simp only
        rw [hoffset, ok_bind]
        by_cases hd : truncatedHmac P authHash key
            (spliceAuthParams data before.length zeroAuthParams) = h.authParams
        · simp [hd, Contained]
        · simp [hd, Contained, IsSnmpError]
  · rw [if_neg hcond]
    exact raises_ok _

end

/-- Parsing keeps to its contract on the readable datagrams and on no others. -/
theorem decodeMessage_contained_iff {P : Primitives} {data : Bytes} {privKey authKey : Option Bytes}
    {authHash : String} {verifyAuth : Bool}
    (hblock : ∀ key, privKey = some key → KeepsBlocks P.encryptBlock (key.take 16)) :
    Contained (decodeMessage P data privKey authKey authHash verifyAuth) ↔
      Readable P data privKey authKey authHash verifyAuth := by
  unfold decodeMessage
  constructor
  · intro hc
    obtain ⟨hheader, hrest⟩ := raises_bind.mp hc
    rcases parseHeader_contained_iff.mp hheader with ⟨tag, val, hbegins, htag⟩ | ⟨h, hframed⟩
    · exact .otherTag hbegins htag
    · obtain ⟨-, hrest⟩ := raises_bind.mp (hrest h (parseHeader_ok_iff.mpr hframed))
      cases hv : verifyMessage P data h authKey authHash verifyAuth with
      | error e => exact .refused hframed ((verifyMessage_error_iff hframed).mp ⟨e, hv⟩)
      | ok u =>
          obtain ⟨hopen, hrest⟩ := raises_bind.mp (hrest u hv)
          rcases (openScopedPdu_contained_iff hblock).mp hopen with
            ⟨msgData, hm, he, hk⟩ | ⟨scopedBody, ho⟩
          · exact .keyless hframed hm he hk
          · have hparse := hrest scopedBody (openScopedPdu_ok_iff.mpr ho)
            have hform := (contained_iff_ok (raises_parseScopedPdu h scopedBody)).mp hparse
            exact .read hframed ho (parseScopedPdu_isOk_iff.mp hform)
  · intro hr
    refine raises_bind.mpr ⟨parseHeader_contained_iff.mpr ?_, fun h hp => ?_⟩
    · cases hr with
      | otherTag hbegins htag => exact .inl ⟨_, _, hbegins, htag⟩
      | refused hframed _ => exact .inr ⟨_, hframed⟩
      | keyless hframed _ _ _ => exact .inr ⟨_, hframed⟩
      | read hframed _ _ => exact .inr ⟨_, hframed⟩
    · have hsame : ∀ {h'}, Framed data h' → h' = h := fun hf =>
        Except.ok.inj ((parseHeader_ok_iff.mpr hf).symm.trans hp)
      have hframed := parseHeader_ok_iff.mp hp
      refine raises_bind.mpr ⟨verifyMessage_contained hframed, fun u hv => ?_⟩
      cases hr with
      | otherTag hbegins htag =>
          obtain ⟨next, hd⟩ := decode_zero_iff.mpr hbegins
          unfold parseHeader at hp
          rw [hd, ok_bind] at hp
          simp only [htag, ne_eq, not_false_eq_true, if_true] at hp
          cases hp
      | refused hf hrefused =>
          obtain rfl := hsame hf
          obtain ⟨e, he⟩ := (verifyMessage_error_iff hf).mpr hrefused
          rw [hv] at he
          cases he
      | keyless hf hm he hk =>
          obtain rfl := hsame hf
          refine raises_bind.mpr ⟨(openScopedPdu_contained_iff hblock).mpr
            (.inl ⟨_, hm, he, hk⟩), fun scopedBody ho => ?_⟩
          rw [openScopedPdu_of_encrypted hm he, hk] at ho
          cases ho
      | read hf ho hform =>
          obtain rfl := hsame hf
          refine raises_bind.mpr ⟨(openScopedPdu_contained_iff hblock).mpr (.inr ⟨_, ho⟩), ?_⟩
          intro scopedBody ho'
          rw [openScopedPdu_ok_iff.mpr ho] at ho'
          obtain rfl := Except.ok.inj ho'
          exact (contained_iff_ok (raises_parseScopedPdu _ _)).mpr
            (parseScopedPdu_isOk_iff.mpr hform)

end NetForge.Ingest.Snmp
