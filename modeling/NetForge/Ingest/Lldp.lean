import NetForge.Ingest.Asn1
import NetForge.Controller.Correlation

/-! # Neighbours from an LLDP walk

`ingest/lldp.py`, over the values that `decode_value` gives. A chassis id in octets goes on as
text wherever the octets happen to be UTF-8, and as hexadecimal digits elsewhere; only the
latter is recognised as a hardware address.
-/

namespace NetForge.Ingest.Lldp

open Python Asn1 Controller Calculus.Entries

def OID_LLDP_REM_CHASSIS_ID : String := "1.0.8802.1.1.2.1.4.1.1.5"
def OID_LLDP_REM_PORT_ID : String := "1.0.8802.1.1.2.1.4.1.1.7"
def OID_LLDP_REM_SYS_NAME : String := "1.0.8802.1.1.2.1.4.1.1.9"
def OID_LLDP_REM_SYS_DESC : String := "1.0.8802.1.1.2.1.4.1.1.10"

/-- Columns by base identifier, each a dict from suffix to value. -/
abbrev ColumnWalks := List (String × List (String × SnmpValue))

def column (walk : ColumnWalks) (oid : String) : List (String × SnmpValue) :=
  (value? walk oid).getD []

def strOrNone : Option SnmpValue → Except PyError (Option String)
  | none => .ok none
  | some .none => .ok none
  | some (.int n) => do
      let text ← str n
      return nonEmpty (some text)
  | some (.str text) => .ok (nonEmpty (some text))

def neighborAt (walk : ColumnWalks) (suffix : String) : Except PyError LldpNeighbor := do
  let neighborChassisId ← strOrNone (value? (column walk OID_LLDP_REM_CHASSIS_ID) suffix)
  let neighborPortId ← strOrNone (value? (column walk OID_LLDP_REM_PORT_ID) suffix)
  let neighborSysName ← strOrNone (value? (column walk OID_LLDP_REM_SYS_NAME) suffix)
  let _ ← strOrNone (value? (column walk OID_LLDP_REM_SYS_DESC) suffix)
  return {
    localPort := (splitChar '.' suffix).headD ""
    neighborChassisId
    neighborPortId
    neighborSysName
    neighborMgmtAddr := none }

def localPorts (walk : ColumnWalks) : List String :=
  ([OID_LLDP_REM_CHASSIS_ID, OID_LLDP_REM_PORT_ID, OID_LLDP_REM_SYS_NAME,
    OID_LLDP_REM_SYS_DESC].flatMap fun oid => keys (column walk oid)).dedup.insertionSort (· ≤ ·)

def identities (lowercase : String → String) (nb : LldpNeighbor) : List String :=
  ([nb.neighborChassisId, nb.neighborSysName, nb.neighborMgmtAddr,
    nb.neighborPortId].filterMap nonEmpty).map (canonical lowercase)

/-- Assemble neighbours from raw LLDP-MIB column walks; one that has no identity is
dropped. -/
def lldpNeighborsFromWalk (lowercase : String → String) (walk : ColumnWalks) :
    Except PyError (List LldpNeighbor) := do
  let neighbors ← (localPorts walk).mapM (neighborAt walk)
  return neighbors.filter fun nb => !(identities lowercase nb).isEmpty

/-! ## Texts and digits -/

/-- A decoded text has no more characters than it had octets. -/
theorem utf8Decode_length {bs : Bytes} {pending code low : Nat} {cs : List Char}
    (h : utf8Decode bs pending code low = some cs) : cs.length ≤ bs.length := by
  have hmap : ∀ {x : Option (List Char)} {c : Char} {n : Nat},
      (∀ ds, x = some ds → ds.length ≤ n) → ∀ ds, x.map (c :: ·) = some ds →
        ds.length ≤ n + 1 := by
    intro x c n hx ds hds
    obtain ⟨tail, htail, rfl⟩ := Option.map_eq_some_iff.mp hds
    exact Nat.succ_le_succ (hx tail htail)
  induction bs generalizing pending code low cs with
  | nil =>
      cases pending with
      | zero =>
          rw [utf8Decode] at h
          cases h
          exact Nat.le_refl 0
      | succ pending =>
          rw [utf8Decode] at h
          cases h
  | cons b bs ih =>
      have hrest : ∀ {p c l : Nat} {ds : List Char}, utf8Decode bs p c l = some ds →
          ds.length ≤ bs.length + 1 := fun hds => Nat.le_succ_of_le (ih hds)
      rw [List.length_cons]
      cases pending with
      | zero =>
          rw [utf8Decode] at h
          split_ifs at h
          · exact hmap (fun ds hds => ih hds) cs h
          · exact hrest h
          · exact hrest h
          · exact hrest h
      | succ pending =>
          rw [utf8Decode] at h
          split_ifs at h
          · exact hrest h
          · exact hmap (fun ds hds => ih hds) cs h

theorem hexDigit_isHexDigit {n : Nat} (h : n < 16) :
    isHexDigit (hexDigit n) = true ∧ (hexDigit n).toLower = hexDigit n := by
  have hall : ∀ n < 16, isHexDigit (hexDigit n) = true ∧ (hexDigit n).toLower = hexDigit n := by
    decide
  exact hall n h

theorem hex_toList (bs : Bytes) : (hex bs).toList =
    bs.flatMap fun b => [hexDigit (b.toNat / 16), hexDigit (b.toNat % 16)] := String.toList_ofList

theorem hex_length (bs : Bytes) : (hex bs).toList.length = 2 * bs.length := by
  rw [hex_toList]
  induction bs with
  | nil => rfl
  | cons b bs ih =>
      rw [List.flatMap_cons, List.length_append, ih, List.length_cons]
      simp only [List.length_cons, List.length_nil]
      omega

theorem hex_isHexDigit {bs : Bytes} {c : Char} (h : c ∈ (hex bs).toList) :
    isHexDigit c = true ∧ c.toLower = c := by
  rw [hex_toList] at h
  obtain ⟨b, -, hc⟩ := List.mem_flatMap.mp h
  have hb := UInt8.toNat_lt b
  rcases List.mem_cons.mp hc with rfl | hc
  · exact hexDigit_isHexDigit (by omega)
  · rw [List.mem_singleton.mp hc]
    exact hexDigit_isHexDigit (by omega)

/-- Six octets in hexadecimal digits are an address in its normal form. -/
theorem normalizeMac_hex {mac : Bytes} (h : mac.length = 6) :
    normalizeMac (nonEmpty (some (hex mac))) = some (hex mac) := by
  have hlength := hex_length mac
  have hne : hex mac ≠ "" := by
    intro hempty
    rw [hempty, h] at hlength
    cases hlength
  have hnonEmpty : nonEmpty (some (hex mac)) = some (hex mac) := by
    simp [nonEmpty, Option.filter, hne]
  have hfilter : (hex mac).toList.filter isHexDigit = (hex mac).toList :=
    List.filter_eq_self.mpr fun c hc => (hex_isHexDigit hc).1
  have hlower : (hex mac).toList.map Char.toLower = (hex mac).toList :=
    (List.map_congr_left fun c hc => (hex_isHexDigit hc).2).trans (List.map_id _)
  have htwelve : (hex mac).toList.length = 12 := by
    rw [hlength, h]
  unfold normalizeMac
  rw [hnonEmpty, hnonEmpty, Option.bind_some]
  simp only [hfilter, htwelve, if_true, hlower, String.ofList_toList]

theorem normalizeMac_short {text : String} (h : text.toList.length < 12) :
    normalizeMac (nonEmpty (some text)) = none := by
  have hcount : (text.toList.filter isHexDigit).length ≠ 12 := by
    have hle := List.length_filter_le isHexDigit text.toList
    omega
  unfold normalizeMac
  cases hvalue : nonEmpty (nonEmpty (some text)) with
  | none => rfl
  | some found =>
      have hinner := (Option.filter_eq_some_iff.mp hvalue).1
      have hfound : found = text :=
        (Option.some.inj (Option.filter_eq_some_iff.mp hinner).1).symm
      rw [hfound, Option.bind_some]
      simp only [hcount, if_false]

/-! ## Addresses -/

theorem decodeValue_octets (octets : Bytes) : decodeValue OCTET_STRING octets =
    .ok (.str ((decodeUtf8 octets).getD (hex octets))) := by
  have htag : OCTET_STRING ∉ [COUNTER32, GAUGE32, TIME_TICKS, COUNTER64] := by decide
  unfold decodeValue
  rw [if_neg (by decide), if_neg (by decide), if_neg (by decide), if_neg (by decide),
    if_neg htag, if_neg (by decide), if_neg (by decide), if_pos (.inl rfl)]
  cases decodeUtf8 octets with
  | some text => rfl
  | none => rfl

/-- A decoded address is recognised when it was decoded to digits, and to nothing else
otherwise. -/
theorem normalizeMac_octets {mac : Bytes} (h : mac.length = 6) :
    normalizeMac (nonEmpty (some ((decodeUtf8 mac).getD (hex mac)))) =
      if decodeUtf8 mac = none then some (hex mac) else none := by
  cases htext : decodeUtf8 mac with
  | none =>
      rw [if_pos rfl]
      exact normalizeMac_hex h
  | some text =>
      rw [if_neg (Option.some_ne_none text)]
      apply normalizeMac_short
      obtain ⟨cs, hcs, rfl⟩ := Option.map_eq_some_iff.mp htext
      have hle := utf8Decode_length hcs
      rw [Option.getD_some, String.toList_ofList]
      omega

theorem neighborAt_chassisId {walk : ColumnWalks} {suffix : String} {nb : LldpNeighbor}
    (h : neighborAt walk suffix = .ok nb) :
    strOrNone (value? (column walk OID_LLDP_REM_CHASSIS_ID) suffix) = .ok nb.neighborChassisId := by
  obtain ⟨chassisId, hchassis, h⟩ := ok_of_bind.mp h
  obtain ⟨portId, -, h⟩ := ok_of_bind.mp h
  obtain ⟨sysName, -, h⟩ := ok_of_bind.mp h
  obtain ⟨sysDesc, -, h⟩ := ok_of_bind.mp h
  cases h
  exact hchassis

theorem mem_localPorts {walk : ColumnWalks} {suffix : String} {value : SnmpValue}
    (h : value? (column walk OID_LLDP_REM_CHASSIS_ID) suffix = some value) :
    suffix ∈ localPorts walk := by
  unfold localPorts
  rw [List.mem_insertionSort, List.mem_dedup, List.mem_flatMap]
  exact ⟨OID_LLDP_REM_CHASSIS_ID, List.mem_cons_self, mem_keys_iff.mpr ⟨value, h⟩⟩

/-- A neighbour with an address has an identity, so it is not left out. -/
theorem identities_of_address (lowercase : String → String) {nb : LldpNeighbor} {mac : String}
    (h : normalizeMac nb.neighborChassisId = some mac) :
    (identities lowercase nb).isEmpty = false := by
  unfold normalizeMac at h
  obtain ⟨text, htext, -⟩ := Option.bind_eq_some_iff.mp h
  have hin : canonical lowercase text ∈ identities lowercase nb :=
    List.mem_map_of_mem (List.mem_filterMap.mpr ⟨_, List.mem_cons_self, htext⟩)
  exact List.isEmpty_eq_false_iff.mpr (List.ne_nil_of_mem hin)

/-- A chassis id of six octets ends up as the hardware address of its neighbour exactly when
the octets are not valid UTF-8. -/
theorem chassis_mac_survives_iff {mac : Bytes} (hmac : mac.length = 6) (lowercase : String → String)
    {walk : ColumnWalks} {suffix : String} {value : SnmpValue} {neighbors : List LldpNeighbor}
    (hvalue : decodeValue OCTET_STRING mac = .ok value)
    (hcell : value? (column walk OID_LLDP_REM_CHASSIS_ID) suffix = some value)
    (hwalk : lldpNeighborsFromWalk lowercase walk = .ok neighbors) :
    (∃ nb ∈ neighbors, neighborAt walk suffix = .ok nb ∧
        normalizeMac nb.neighborChassisId = some (hex mac) ∧
        (neighborIdentities lowercase nb).macs = [hex mac]) ↔
      decodeUtf8 mac = none := by
  rw [decodeValue_octets] at hvalue
  have hchassis : ∀ nb, neighborAt walk suffix = .ok nb →
      nb.neighborChassisId = nonEmpty (some ((decodeUtf8 mac).getD (hex mac))) := by
    intro nb hnb
    have hread := neighborAt_chassisId hnb
    rw [hcell, ← Except.ok.inj hvalue] at hread
    exact (Except.ok.inj hread).symm
  constructor
  · rintro ⟨nb, -, hnb, haddress, -⟩
    rw [hchassis nb hnb, normalizeMac_octets hmac] at haddress
    by_contra htext
    rw [if_neg htext] at haddress
    cases haddress
  · intro hdigits
    obtain ⟨all, hall, hwalk⟩ := ok_of_bind.mp hwalk
    obtain ⟨nb, hmem, hnb⟩ := mem_mapM_of_mem hall (mem_localPorts hcell)
    have haddress : normalizeMac nb.neighborChassisId = some (hex mac) := by
      rw [hchassis nb hnb, normalizeMac_octets hmac, if_pos hdigits]
    have hidentity := identities_of_address lowercase haddress
    refine ⟨nb, ?_, hnb, haddress, ?_⟩
    · cases hwalk
      refine List.mem_filter.mpr ⟨hmem, ?_⟩
      rw [hidentity]
      rfl
    · unfold neighborIdentities
      rw [haddress]
      rfl

namespace Sample

def walk (chassisId : SnmpValue) : ColumnWalks := [(OID_LLDP_REM_CHASSIS_ID, [("1", chassisId)])]

end Sample

/-- The address 80:2a:a8:11:22:33 is no UTF-8, so it is kept. -/
theorem chassis_mac_survives_digits :
    ∃ nb, lldpNeighborsFromWalk id (Sample.walk (.str "802aa8112233")) = .ok [nb] ∧
      normalizeMac nb.neighborChassisId = some "802aa8112233" := by
  let nb : LldpNeighbor := ⟨"1", some "802aa8112233", none, none, none⟩
  have hwalk : lldpNeighborsFromWalk id (Sample.walk (.str "802aa8112233")) = .ok [nb] := by
    decide +kernel
  have hhex : hex [0x80, 0x2a, 0xa8, 0x11, 0x22, 0x33] = "802aa8112233" := by decide +kernel
  obtain ⟨nb', hmem, -, haddress, -⟩ :=
    (@chassis_mac_survives_iff [0x80, 0x2a, 0xa8, 0x11, 0x22, 0x33] rfl id
      (Sample.walk (.str "802aa8112233")) "1" (.str "802aa8112233") _ (by decide +kernel)
      (by decide +kernel) hwalk).mpr (by decide +kernel)
  rw [List.mem_singleton.mp hmem, hhex] at haddress
  exact ⟨nb, hwalk, haddress⟩

/-- The octets of 00:11:22:33:44:55 are ASCII, so they go on as six characters and the
neighbour has no address. -/
theorem chassis_mac_lost :
    let mac : Bytes := [0x00, 0x11, 0x22, 0x33, 0x44, 0x55]
    (∃ text nb, decodeValue OCTET_STRING mac = .ok (.str text) ∧
        lldpNeighborsFromWalk id (Sample.walk (.str text)) = .ok [nb] ∧
        (neighborIdentities id nb).macs = []) ∧
      ¬ ∀ mac : Bytes, mac.length = 6 → ∃ text, decodeValue OCTET_STRING mac = .ok (.str text) ∧
        normalizeMac (nonEmpty (some text)) = some (hex mac) := by
  intro mac
  let text : String := String.ofList [Char.ofNat 0x00, Char.ofNat 0x11, '"', '3', 'D', 'U']
  have hvalue : decodeValue OCTET_STRING mac = .ok (.str text) := by decide +kernel
  constructor
  · exact ⟨text, ⟨"1", some text, none, none, none⟩, hvalue, by decide +kernel, by decide +kernel⟩
  · intro always
    obtain ⟨text', hvalue', haddress⟩ := always mac rfl
    rw [hvalue] at hvalue'
    have hnone : normalizeMac (nonEmpty (some text)) = none := by decide +kernel
    obtain rfl : text = text' := SnmpValue.str.inj (Except.ok.inj hvalue')
    rw [hnone] at haddress
    cases haddress

end NetForge.Ingest.Lldp
