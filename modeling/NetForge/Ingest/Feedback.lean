import NetForge.Ingest.Aes

/-! # The cipher feedback mode

Encryption feeds back the segments it produces and decryption those it receives. On a text
and its encryption these are the same segments, so each direction undoes the other, with any
block function that keeps the length of a block.
-/

namespace NetForge.Ingest.Snmp

open Python Aes

theorem xorBytes_length (a b : Bytes) : (xorBytes a b).length = min a.length b.length := by
  simp [xorBytes]

theorem xorBytes_cancel {a b : Bytes} (h : a.length ≤ b.length) :
    xorBytes (xorBytes a b) b = a := by
  unfold xorBytes
  induction a generalizing b with
  | nil => rfl
  | cons x a ih =>
      cases b with
      | nil => simp at h
      | cons y b =>
          have hrest := ih (b := b) (by simpa using h)
          have hxor : x ^^^ y ^^^ y = x := by
            rw [UInt8.xor_assoc, UInt8.xor_self, UInt8.xor_zero]
          simp only [List.zipWith_cons_cons, hxor, hrest]

/-- A block function that turns 16 octets into 16 octets. -/
def KeepsBlocks (block : Bytes → Bytes → Except PyError Bytes) (key : Bytes) : Prop :=
  ∀ input, input.length = 16 → ∃ output, block key input = .ok output ∧ output.length = 16

/-! ## One segment -/

section

variable {text segment rest keystream feedback : Bytes}

theorem segment_masked (h : keystream.length = 16) :
    (xorBytes (text.take 16) keystream).length = (text.take 16).length ∧
      xorBytes (xorBytes (text.take 16) keystream) keystream = text.take 16 := by
  have hle : (text.take 16).length ≤ keystream.length := by
    rw [List.length_take]
    omega
  constructor
  · rw [xorBytes_length]
    omega
  · exact xorBytes_cancel hle

/-- A text as long as another one falls apart where the other one does. -/
theorem segment_split (hsegment : segment.length = (text.take 16).length)
    (hrest : rest.length = (text.drop 16).length) :
    (segment ++ rest).take 16 = segment ∧ (segment ++ rest).drop 16 = rest ∧
      (segment ++ rest).length = text.length := by
  rw [List.length_take] at hsegment
  rw [List.length_drop] at hrest
  have hlength : (segment ++ rest).length = text.length := by
    rw [List.length_append]
    omega
  by_cases hfull : segment.length = 16
  · exact ⟨List.take_left' hfull, List.drop_left' hfull, hlength⟩
  · have hnil : rest = [] := List.length_eq_zero_iff.mp (by omega)
    rw [hnil, List.append_nil] at hlength ⊢
    exact ⟨List.take_of_length_le (by omega), List.drop_eq_nil_of_le (by omega), hlength⟩

theorem nextFeedback_length (h : feedback.length = 16) :
    (nextFeedback feedback segment).length = 16 := by
  unfold nextFeedback
  by_cases hfull : segment.length = 16
  · rw [if_pos hfull, hfull]
  · rw [if_neg hfull, h]

theorem segmentCount_drop {segments : Nat} (h : segmentCount text = segments + 1) :
    segmentCount (text.drop 16) = segments := by
  unfold segmentCount at h ⊢
  rw [List.length_drop]
  omega

theorem eq_nil_of_segmentCount (h : segmentCount text = 0) : text = [] := by
  unfold segmentCount at h
  exact List.length_eq_zero_iff.mp (by omega)

end

/-! ## The whole text -/

section

variable {block : Bytes → Bytes → Except PyError Bytes} {key : Bytes}

theorem cfbDecryptFrom_encryptFrom (hblock : KeepsBlocks block key) (segments : Nat)
    (feedback plaintext : Bytes) (hfeedback : feedback.length = 16)
    (hsegments : segmentCount plaintext = segments) :
    ∃ ciphertext, cfbEncryptFrom block key segments feedback plaintext = .ok ciphertext ∧
      ciphertext.length = plaintext.length ∧
      cfbDecryptFrom block key segments feedback ciphertext = .ok plaintext := by
  induction segments generalizing feedback plaintext with
  | zero =>
      have hnil := eq_nil_of_segmentCount hsegments
      exact ⟨[], rfl, by rw [hnil], by rw [hnil]; rfl⟩
  | succ segments ih =>
      obtain ⟨keystream, hkeystream, hlength⟩ := hblock feedback hfeedback
      obtain ⟨hmasked, hplain⟩ := @segment_masked plaintext keystream hlength
      generalize hsegment : xorBytes (plaintext.take 16) keystream = segment at hmasked hplain
      obtain ⟨rest, henc, hrest, hdec⟩ := ih (nextFeedback feedback segment) (plaintext.drop 16)
        (nextFeedback_length hfeedback) (segmentCount_drop hsegments)
      obtain ⟨htake, hdrop, hwhole⟩ := segment_split hmasked hrest
      refine ⟨segment ++ rest, ?_, hwhole, ?_⟩
      · simp only [cfbEncryptFrom, hkeystream, ok_bind, hsegment, henc]
        rfl
      · simp only [cfbDecryptFrom, hkeystream, ok_bind, htake, hdrop, hdec, hplain]
        exact congrArg Except.ok (List.take_append_drop 16 plaintext)

theorem cfbEncryptFrom_decryptFrom (hblock : KeepsBlocks block key) (segments : Nat)
    (feedback ciphertext : Bytes) (hfeedback : feedback.length = 16)
    (hsegments : segmentCount ciphertext = segments) :
    ∃ plaintext, cfbDecryptFrom block key segments feedback ciphertext = .ok plaintext ∧
      plaintext.length = ciphertext.length ∧
      cfbEncryptFrom block key segments feedback plaintext = .ok ciphertext := by
  induction segments generalizing feedback ciphertext with
  | zero =>
      have hnil := eq_nil_of_segmentCount hsegments
      exact ⟨[], rfl, by rw [hnil], by rw [hnil]; rfl⟩
  | succ segments ih =>
      obtain ⟨keystream, hkeystream, hlength⟩ := hblock feedback hfeedback
      obtain ⟨hmasked, hcipher⟩ := @segment_masked ciphertext keystream hlength
      obtain ⟨rest, hdec, hrest, henc⟩ := ih (nextFeedback feedback (ciphertext.take 16))
        (ciphertext.drop 16) (nextFeedback_length hfeedback) (segmentCount_drop hsegments)
      obtain ⟨htake, hdrop, hwhole⟩ := segment_split hmasked hrest
      refine ⟨xorBytes (ciphertext.take 16) keystream ++ rest, ?_, hwhole, ?_⟩
      · simp only [cfbDecryptFrom, hkeystream, ok_bind, hdec]
        rfl
      · simp only [cfbEncryptFrom, hkeystream, ok_bind, htake, hdrop, hcipher, henc]
        exact congrArg Except.ok (List.take_append_drop 16 ciphertext)

variable {iv : Bytes}

theorem aes128CfbEncrypt_eq (hiv : iv.length = 16) (text : Bytes) :
    aes128CfbEncrypt block key iv text =
      cfbEncryptFrom block key (segmentCount text) iv text :=
  if_neg fun h => h hiv

theorem aes128CfbDecrypt_eq (hiv : iv.length = 16) (text : Bytes) :
    aes128CfbDecrypt block key iv text =
      cfbDecryptFrom block key (segmentCount text) iv text :=
  if_neg fun h => h hiv

theorem segmentCount_congr {a b : Bytes} (h : a.length = b.length) :
    segmentCount a = segmentCount b := by
  unfold segmentCount
  rw [h]

theorem decrypt_encrypt (hblock : KeepsBlocks block key) (hiv : iv.length = 16)
    (plaintext : Bytes) :
    ∃ ciphertext, aes128CfbEncrypt block key iv plaintext = .ok ciphertext ∧
      ciphertext.length = plaintext.length ∧
      aes128CfbDecrypt block key iv ciphertext = .ok plaintext := by
  obtain ⟨ciphertext, henc, hlength, hdec⟩ :=
    cfbDecryptFrom_encryptFrom hblock (segmentCount plaintext) iv plaintext hiv rfl
  refine ⟨ciphertext, ?_, hlength, ?_⟩
  · rw [aes128CfbEncrypt_eq hiv, henc]
  · rw [aes128CfbDecrypt_eq hiv, segmentCount_congr hlength, hdec]

theorem encrypt_decrypt (hblock : KeepsBlocks block key) (hiv : iv.length = 16)
    (ciphertext : Bytes) :
    ∃ plaintext, aes128CfbDecrypt block key iv ciphertext = .ok plaintext ∧
      plaintext.length = ciphertext.length ∧
      aes128CfbEncrypt block key iv plaintext = .ok ciphertext := by
  obtain ⟨plaintext, hdec, hlength, henc⟩ :=
    cfbEncryptFrom_decryptFrom hblock (segmentCount ciphertext) iv ciphertext hiv rfl
  refine ⟨plaintext, ?_, hlength, ?_⟩
  · rw [aes128CfbDecrypt_eq hiv, hdec]
  · rw [aes128CfbEncrypt_eq hiv, segmentCount_congr hlength, henc]

end

theorem aes128EncryptBlock_keepsBlocks {key : Bytes} (hkey : key.length = 16) :
    KeepsBlocks aes128EncryptBlock key := by
  intro input hinput
  have hkey' : ¬ key.length ≠ 16 := fun h => h hkey
  have hinput' : ¬ input.length ≠ 16 := fun h => h hinput
  unfold aes128EncryptBlock expandKey
  rw [if_neg hinput', if_neg hkey']
  exact ⟨_, rfl, by simp [fromState]⟩

/-- Each direction of the mode undoes the other one and keeps the length of the text. -/
theorem cfb_roundTrip {block : Bytes → Bytes → Except PyError Bytes} {key iv : Bytes}
    (hblock : KeepsBlocks block key) (hiv : iv.length = 16) (m : Bytes) :
    (∃ ciphertext, aes128CfbEncrypt block key iv m = .ok ciphertext ∧
        ciphertext.length = m.length ∧ aes128CfbDecrypt block key iv ciphertext = .ok m) ∧
      ∃ plaintext, aes128CfbDecrypt block key iv m = .ok plaintext ∧
        plaintext.length = m.length ∧ aes128CfbEncrypt block key iv plaintext = .ok m :=
  ⟨decrypt_encrypt hblock hiv m, encrypt_decrypt hblock hiv m⟩

/-- A whole segment and a short one, with AES itself. -/
theorem cfb_roundTrip_aes :
    let key : Bytes := List.replicate 16 7
    let iv : Bytes := List.replicate 16 1
    let m : Bytes := List.replicate 18 9
    (∃ ciphertext, aes128CfbEncrypt aes128EncryptBlock key iv m = .ok ciphertext ∧
        ciphertext.length = 18 ∧ aes128CfbDecrypt aes128EncryptBlock key iv ciphertext = .ok m) ∧
      ∃ plaintext, aes128CfbDecrypt aes128EncryptBlock key iv m = .ok plaintext ∧
        plaintext.length = 18 ∧ aes128CfbEncrypt aes128EncryptBlock key iv plaintext = .ok m :=
  cfb_roundTrip (aes128EncryptBlock_keepsBlocks (by decide)) (by decide) _

end NetForge.Ingest.Snmp
