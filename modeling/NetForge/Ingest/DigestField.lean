import NetForge.Ingest.Tlv
import NetForge.Ingest.ReplyChecks

/-! # The digest field

`auth_params_offset` finds the digest by absolute offsets, `decode_message` reads
it from lists of children. Both walk the same nested runs of TLVs, so on every
message that is accepted they end at the same twelve octets.
-/

namespace NetForge.Ingest.Snmp

open Python Asn1

theorem first_of_split {tag : UInt8} {buf head val tail : Bytes} (h : Header tag val.length head)
    (hbuf : buf = head ++ (val ++ tail)) :
    ∃ next, decode buf 0 = .ok (tag, val, next) ∧ next - val.length = head.length := by
  refine ⟨head.length + val.length, ?_, Nat.add_sub_cancel _ _⟩
  rw [hbuf]
  exact decode_zero h

/-- The offset walk ends at the fifth security parameter, however the lengths on
the way to it are written. -/
theorem authParamsOffset_of_split {data head0 msgBody tail0 versions head2 secValue rest head3
    seqBody tail3 fields head4 params more : Bytes} {t0 t2 t3 t4 : UInt8}
    {c0 c1 s0 s1 s2 s3 : UInt8 × Bytes} (h0 : Header t0 msgBody.length head0)
    (hdata : data = head0 ++ (msgBody ++ tail0)) (hversions : Encodes [c0, c1] versions)
    (h2 : Header t2 secValue.length head2)
    (hbody : msgBody = versions ++ (head2 ++ (secValue ++ rest)))
    (h3 : Header t3 seqBody.length head3) (hsec : secValue = head3 ++ (seqBody ++ tail3))
    (hfields : Encodes [s0, s1, s2, s3] fields) (h4 : Header t4 params.length head4)
    (hseq : seqBody = fields ++ (head4 ++ (params ++ more))) :
    authParamsOffset data =
      .ok (head0 ++ versions ++ head2 ++ head3 ++ fields ++ head4).length := by
  obtain ⟨n0, hd0, hn0⟩ := first_of_split h0 hdata
  obtain ⟨n3, hd3, hn3⟩ := first_of_split h3 hsec
  have houter : Walks data head0.length [c0, c1] (head0.length + versions.length) := by
    have hjoin : data = head0 ++ (versions ++ (head2 ++ (secValue ++ rest) ++ tail0)) := by
      rw [hdata, hbody]
      simp only [List.append_assoc]
    rw [hjoin]
    exact hversions.walks head0 _
  have hinner : Walks seqBody 0 [s0, s1, s2, s3] fields.length := by
    have hwalk := hfields.walks [] (head4 ++ (params ++ more))
    rwa [List.nil_append, List.length_nil, Nat.zero_add, ← hseq] at hwalk
  have hd2 : decode data (head0.length + versions.length) = .ok (t2, secValue,
      head0.length + versions.length + head2.length + secValue.length) := by
    refine @decode_of_split t2 data (head0 ++ versions) head2 secValue (rest ++ tail0) _ _ h2 ?_ ?_
      rfl
    · rw [hdata, hbody]
      simp only [List.append_assoc]
    · rw [List.length_append]
  have hd4 : decode seqBody fields.length =
      .ok (t4, params, fields.length + head4.length + params.length) := by
    exact decode_of_split h4 hseq rfl rfl
  cases houter with
  | cons hc0 houter =>
  cases houter with
  | cons hc1 houter =>
  cases houter
  cases hinner with
  | cons hs0 hinner =>
  cases hinner with
  | cons hs1 hinner =>
  cases hinner with
  | cons hs2 hinner =>
  cases hinner with
  | cons hs3 hinner =>
  cases hinner
  unfold authParamsOffset
  simp only [hd0, ok_bind, hn0, hc0, hc1, hd2, hd3, hn3, hs0, hs1, hs2, hs3, hd4,
    Nat.add_sub_cancel, List.length_append]
  refine congrArg Except.ok ?_
  omega

theorem length_take_index {α : Type} {xs : List α} {i : Nat} {x : α} (h : index xs i = .ok x) :
    (xs.take i).length = i := by
  obtain ⟨hlt, -⟩ := List.getElem?_eq_some_iff.mp (index_eq_ok_iff.mp h)
  rw [List.length_take]
  omega

theorem eq_pair_of_length {α : Type} {xs : List α} (h : xs.length = 2) : ∃ a b, xs = [a, b] := by
  match xs, h with
  | [a, b], _ => exact ⟨a, b, rfl⟩

theorem eq_quadruple_of_length {α : Type} {xs : List α} (h : xs.length = 4) :
    ∃ a b c d, xs = [a, b, c, d] := by
  match xs, h with
  | [a, b, c, d], _ => exact ⟨a, b, c, d, rfl⟩

/-- On a message whose header parses, the offset walk ends where the list walk
found the authentication parameters. -/
theorem authParamsOffset_of_parseHeader {data : Bytes} {h : MessageHeader}
    (hp : parseHeader data = .ok h) :
    ∃ before after, data = before ++ (h.authParams ++ after) ∧
      authParamsOffset data = .ok before.length := by
  unfold parseHeader at hp
  obtain ⟨⟨tag, msgBody, off⟩, hmsg, hp⟩ := ok_of_bind.mp hp
  by_cases htag : tag ≠ SEQUENCE
  · simp only [htag, ne_eq, not_false_eq_true, if_true] at hp
    cases hp
  · simp only [htag, if_false] at hp
    obtain ⟨ch, hch, hp⟩ := ok_of_bind.mp hp
    obtain ⟨version, -, hp⟩ := ok_of_bind.mp hp
    obtain ⟨globalData, -, hp⟩ := ok_of_bind.mp hp
    obtain ⟨gd, -, hp⟩ := ok_of_bind.mp hp
    obtain ⟨msgId, -, hp⟩ := ok_of_bind.mp hp
    obtain ⟨flags, -, hp⟩ := ok_of_bind.mp hp
    obtain ⟨⟨secTag, secValue⟩, hsec, hp⟩ := ok_of_bind.mp hp
    obtain ⟨⟨seqTag, seqBody, seqOff⟩, hseq, hp⟩ := ok_of_bind.mp hp
    obtain ⟨sec, hfields, hp⟩ := ok_of_bind.mp hp
    obtain ⟨engineId, -, hp⟩ := ok_of_bind.mp hp
    obtain ⟨boots, -, hp⟩ := ok_of_bind.mp hp
    obtain ⟨engineTime, -, hp⟩ := ok_of_bind.mp hp
    obtain ⟨username, -, hp⟩ := ok_of_bind.mp hp
    obtain ⟨⟨paramsTag, params⟩, hparams, hp⟩ := ok_of_bind.mp hp
    obtain ⟨privParams, -, hp⟩ := ok_of_bind.mp hp
    cases hp
    obtain ⟨c0, c1, hc⟩ := eq_pair_of_length (length_take_index hsec)
    obtain ⟨s0, s1, s2, s3, hs⟩ := eq_quadruple_of_length (length_take_index hparams)
    obtain ⟨head0, h0, -, hdata⟩ := header_of_decode hmsg
    obtain ⟨head3, h3, -, hvalue⟩ := header_of_decode hseq
    obtain ⟨versions, head2, rest, hversions, h2, hbody⟩ :=
      (decodeChildren_eq_ok_iff.mp hch).split (index_eq_ok_iff.mp hsec)
    obtain ⟨fields, head4, more, hfour, h4, hinner⟩ :=
      (decodeChildren_eq_ok_iff.mp hfields).split (index_eq_ok_iff.mp hparams)
    simp only [List.drop_zero] at hdata hvalue hinner
    rw [hc] at hversions
    rw [hs] at hfour
    have hoffset :=
      authParamsOffset_of_split h0 hdata hversions h2 hbody h3 hvalue hfour h4 hinner
    generalize data.drop off = tail0 at hdata
    generalize secValue.drop seqOff = tail3 at hvalue
    refine ⟨head0 ++ versions ++ head2 ++ head3 ++ fields ++ head4,
      more ++ (tail3 ++ (rest ++ tail0)), ?_, hoffset⟩
    rw [hdata, hbody, hvalue, hinner]
    simp only [List.append_assoc]

/-- The offset walk and the list walk of an accepted message end at the same
twelve octets, and these are the digest of the message with them zeroed. -/
theorem decodeMessage_digest_field (P : Primitives)
    (hdigest : ∀ name key message, AUTH_PARAM_LEN ≤ (P.hmac name key message).length)
    (data key : Bytes) (privKey : Option Bytes) (authHash : String) (m : ParsedMessage)
    (hm : decodeMessage P data privKey (some key) authHash true = .ok m)
    (hflag : hasFlag m.flags FLAG_AUTH = true) :
    ∃ offset, authParamsOffset data = .ok offset ∧ offset + AUTH_PARAM_LEN ≤ data.length ∧
      slice data offset AUTH_PARAM_LEN = m.authParams ∧
      m.authParams = (P.hmac authHash key (data.take offset ++ List.replicate AUTH_PARAM_LEN 0 ++
        data.drop (offset + AUTH_PARAM_LEN))).take AUTH_PARAM_LEN := by
  obtain ⟨h, scopedBody, hheader, hverify, -, hscoped⟩ := decodeMessage_ok_iff.mp hm
  obtain ⟨hflags, -, -, -, hparams⟩ := parseScopedPdu_header hscoped
  rw [hflags] at hflag
  obtain ⟨key', offset, hkey, hoffset, hequal⟩ := verifyMessage_ok_of_flag hflag hverify
  cases hkey
  obtain ⟨before, after, hdata, hwalk⟩ := authParamsOffset_of_parseHeader hheader
  have hbefore : offset = before.length := by
    rw [hoffset] at hwalk
    exact Except.ok.inj hwalk
  have hlength : h.authParams.length = AUTH_PARAM_LEN := by
    have hlong := hdigest authHash key (spliceAuthParams data offset zeroAuthParams)
    rw [hequal, truncatedHmac, List.length_take]
    omega
  rw [hparams]
  refine ⟨offset, hoffset, ?_, ?_, hequal⟩
  · rw [hdata, List.length_append, List.length_append, hlength]
    omega
  · have hslice := slice_append before h.authParams after
    rwa [← hdata, ← hbefore, hlength] at hslice

namespace Sample

def digests : Primitives :=
  Primitives.withAes (fun _ _ => []) fun _ _ message =>
    if message = Sample.message 5 zeroAuthParams request then requestDigest
    else if message = Sample.message 5 zeroAuthParams response then responseDigest
    else List.replicate 20 0

theorem digests_long (name : String) (key message : Bytes) :
    AUTH_PARAM_LEN ≤ (digests.hmac name key message).length := by
  simp only [digests, Primitives.withAes]
  by_cases hrequest : message = Sample.message 5 zeroAuthParams request
  · rw [if_pos hrequest]
    decide
  · rw [if_neg hrequest]
    by_cases hresponse : message = Sample.message 5 zeroAuthParams response
    · rw [if_pos hresponse]
      decide
    · rw [if_neg hresponse]
      decide

end Sample

/-- The signed response of the device is accepted, and its digest field found. -/
theorem decodeMessage_digest_field_signed :
    ∃ m offset,
      decodeMessage Sample.digests Sample.signed none (some Sample.authKey) "sha1" true = .ok m ∧
      authParamsOffset Sample.signed = .ok offset ∧
      slice Sample.signed offset AUTH_PARAM_LEN = m.authParams := by
  have hreturns : (decodeMessage Sample.digests Sample.signed none (some Sample.authKey) "sha1"
      true).isOk = true := by decide +kernel
  have hflags : (decodeMessage Sample.digests Sample.signed none (some Sample.authKey) "sha1"
      true).map (·.flags) = .ok 5 := by decide +kernel
  obtain ⟨m, hm⟩ := ok_of_isOk hreturns
  rw [hm] at hflags
  have hfive : m.flags = 5 := Except.ok.inj hflags
  obtain ⟨offset, hoffset, -, hslice, -⟩ := decodeMessage_digest_field Sample.digests
    Sample.digests_long Sample.signed Sample.authKey none "sha1" m hm (by rw [hfive]; decide)
  exact ⟨m, offset, hm, hoffset, hslice⟩

end NetForge.Ingest.Snmp
