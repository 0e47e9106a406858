import NetForge.Python.Bytes

/-! # AES-128 and its CFB mode

`ingest/aes.py`. The block cipher is the forward direction only, on a state of
four rows; both directions of CFB take the block function as a parameter.
-/

namespace NetForge.Ingest.Aes

open Python

def SBOX : List UInt8 :=
  [0x63, 0x7C, 0x77, 0x7B, 0xF2, 0x6B, 0x6F, 0xC5, 0x30, 0x01, 0x67, 0x2B, 0xFE, 0xD7, 0xAB, 0x76,
    0xCA, 0x82, 0xC9, 0x7D, 0xFA, 0x59, 0x47, 0xF0, 0xAD, 0xD4, 0xA2, 0xAF, 0x9C, 0xA4, 0x72, 0xC0,
    0xB7, 0xFD, 0x93, 0x26, 0x36, 0x3F, 0xF7, 0xCC, 0x34, 0xA5, 0xE5, 0xF1, 0x71, 0xD8, 0x31, 0x15,
    0x04, 0xC7, 0x23, 0xC3, 0x18, 0x96, 0x05, 0x9A, 0x07, 0x12, 0x80, 0xE2, 0xEB, 0x27, 0xB2, 0x75,
    0x09, 0x83, 0x2C, 0x1A, 0x1B, 0x6E, 0x5A, 0xA0, 0x52, 0x3B, 0xD6, 0xB3, 0x29, 0xE3, 0x2F, 0x84,
    0x53, 0xD1, 0x00, 0xED, 0x20, 0xFC, 0xB1, 0x5B, 0x6A, 0xCB, 0xBE, 0x39, 0x4A, 0x4C, 0x58, 0xCF,
    0xD0, 0xEF, 0xAA, 0xFB, 0x43, 0x4D, 0x33, 0x85, 0x45, 0xF9, 0x02, 0x7F, 0x50, 0x3C, 0x9F, 0xA8,
    0x51, 0xA3, 0x40, 0x8F, 0x92, 0x9D, 0x38, 0xF5, 0xBC, 0xB6, 0xDA, 0x21, 0x10, 0xFF, 0xF3, 0xD2,
    0xCD, 0x0C, 0x13, 0xEC, 0x5F, 0x97, 0x44, 0x17, 0xC4, 0xA7, 0x7E, 0x3D, 0x64, 0x5D, 0x19, 0x73,
    0x60, 0x81, 0x4F, 0xDC, 0x22, 0x2A, 0x90, 0x88, 0x46, 0xEE, 0xB8, 0x14, 0xDE, 0x5E, 0x0B, 0xDB,
    0xE0, 0x32, 0x3A, 0x0A, 0x49, 0x06, 0x24, 0x5C, 0xC2, 0xD3, 0xAC, 0x62, 0x91, 0x95, 0xE4, 0x79,
    0xE7, 0xC8, 0x37, 0x6D, 0x8D, 0xD5, 0x4E, 0xA9, 0x6C, 0x56, 0xF4, 0xEA, 0x65, 0x7A, 0xAE, 0x08,
    0xBA, 0x78, 0x25, 0x2E, 0x1C, 0xA6, 0xB4, 0xC6, 0xE8, 0xDD, 0x74, 0x1F, 0x4B, 0xBD, 0x8B, 0x8A,
    0x70, 0x3E, 0xB5, 0x66, 0x48, 0x03, 0xF6, 0x0E, 0x61, 0x35, 0x57, 0xB9, 0x86, 0xC1, 0x1D, 0x9E,
    0xE1, 0xF8, 0x98, 0x11, 0x69, 0xD9, 0x8E, 0x94, 0x9B, 0x1E, 0x87, 0xE9, 0xCE, 0x55, 0x28, 0xDF,
    0x8C, 0xA1, 0x89, 0x0D, 0xBF, 0xE6, 0x42, 0x68, 0x41, 0x99, 0x2D, 0x0F, 0xB0, 0x54, 0xBB, 0x16]

def subByte (b : UInt8) : UInt8 := SBOX.getD b.toNat 0

def RCON : List UInt8 := [0x01, 0x02, 0x04, 0x08, 0x10, 0x20, 0x40, 0x80, 0x1B, 0x36]

/-- The shift runs on integers in the source: the bit that leaves the octet
selects the reduction. -/
def xtime (a : UInt8) : UInt8 := if 0x80 ≤ a.toNat then (a <<< 1) ^^^ 0x1B else a <<< 1

/-! ## Key schedule -/

/-- The word before word `i` of the schedule, as it is mixed into word `i`. -/
def scheduleTemp (i : Nat) (temp : Bytes) : Bytes :=
  if i % 4 = 0 then
    let rotated := temp.drop 1 ++ temp.take 1
    match rotated.map subByte with
    | [] => []
    | b :: rest => (b ^^^ RCON.getD (i / 4 - 1) 0) :: rest
  else temp

/-- Words 4 to 43 of the schedule, each from the one before it and the one four
places back. -/
def expandWords : (count : Nat) → (words : List Bytes) → List Bytes
  | 0, words => words
  | count + 1, words =>
      let i := words.length
      let temp := scheduleTemp i (words.getD (i - 1) [])
      expandWords count (words ++ [xorBytes (words.getD (i - 4) []) temp])

def expandKey (key : Bytes) : Except PyError (List Bytes) :=
  if key.length ≠ 16 then .error (.valueError "AES-128 requires a 16-byte key")
  else
    let words := expandWords 40 ((List.range 4).map fun i => slice key (4 * i) 4)
    .ok ((List.range 11).map fun r => (slice words (4 * r) 4).flatten)

/-! ## Rounds -/

abbrev State := List (List UInt8)

def State.at (state : State) (r c : Nat) : UInt8 := (state.getD r []).getD c 0

/-- The state with entry `f r c` in row `r` and column `c`. -/
def State.ofFn (f : Nat → Nat → UInt8) : State :=
  (List.range 4).map fun r => (List.range 4).map fun c => f r c

def toState (block : Bytes) : State := State.ofFn fun r c => block.getD (c * 4 + r) 0

def fromState (state : State) : Bytes :=
  (List.range 16).map fun i => state.at (i % 4) (i / 4)

def addRoundKey (rk : Bytes) (state : State) : State :=
  State.ofFn fun r c => state.at r c ^^^ rk.getD (c * 4 + r) 0

def subBytes (state : State) : State := State.ofFn fun r c => subByte (state.at r c)

def shiftRows (state : State) : State :=
  (List.range 4).map fun r => (state.getD r []).drop r ++ (state.getD r []).take r

def mixColumns (state : State) : State :=
  State.ofFn fun r c =>
    let a0 := state.at 0 c
    let a1 := state.at 1 c
    let a2 := state.at 2 c
    let a3 := state.at 3 c
    match r with
    | 0 => xtime a0 ^^^ (xtime a1 ^^^ a1) ^^^ a2 ^^^ a3
    | 1 => a0 ^^^ xtime a1 ^^^ (xtime a2 ^^^ a2) ^^^ a3
    | 2 => a0 ^^^ a1 ^^^ xtime a2 ^^^ (xtime a3 ^^^ a3)
    | _ => (xtime a0 ^^^ a0) ^^^ a1 ^^^ a2 ^^^ xtime a3

def round (roundKeys : List Bytes) (state : State) (rnd : Nat) : State :=
  let shifted := shiftRows (subBytes state)
  let mixed := if rnd ≠ 10 then mixColumns shifted else shifted
  addRoundKey (roundKeys.getD rnd []) mixed

def aes128EncryptBlock (key block : Bytes) : Except PyError Bytes :=
  if block.length ≠ 16 then .error (.valueError "AES block must be 16 bytes")
  else do
    let roundKeys ← expandKey key
    let start := addRoundKey (roundKeys.getD 0 []) (toState block)
    return fromState ((List.range' 1 10).foldl (round roundKeys) start)

/-! ## CFB mode -/

def nextFeedback (feedback cipherSeg : Bytes) : Bytes :=
  if cipherSeg.length = 16 then cipherSeg else feedback

section

variable (block : Bytes → Bytes → Except PyError Bytes) (key : Bytes)

/-- The loop of `aes128_cfb_encrypt` over the 16-byte segments left. -/
def cfbEncryptFrom : (segments : Nat) → (feedback plaintext : Bytes) → Except PyError Bytes
  | 0, _, _ => .ok []
  | segments + 1, feedback, plaintext => do
      let keystream ← block key feedback
      let cipherSeg := xorBytes (plaintext.take 16) keystream
      let rest ← cfbEncryptFrom segments (nextFeedback feedback cipherSeg) (plaintext.drop 16)
      return cipherSeg ++ rest

/-- The loop of `aes128_cfb_decrypt` over the 16-byte segments left. -/
def cfbDecryptFrom : (segments : Nat) → (feedback ciphertext : Bytes) → Except PyError Bytes
  | 0, _, _ => .ok []
  | segments + 1, feedback, ciphertext => do
      let keystream ← block key feedback
      let seg := ciphertext.take 16
      let rest ← cfbDecryptFrom segments (nextFeedback feedback seg) (ciphertext.drop 16)
      return xorBytes seg keystream ++ rest

/-- How many segments `while i < len(text)` visits. -/
def segmentCount (text : Bytes) : Nat := (text.length + 15) / 16

def aes128CfbEncrypt (iv plaintext : Bytes) : Except PyError Bytes :=
  if iv.length ≠ 16 then .error (.valueError "CFB IV must be 16 bytes")
  else cfbEncryptFrom block key (segmentCount plaintext) iv plaintext

def aes128CfbDecrypt (iv ciphertext : Bytes) : Except PyError Bytes :=
  if iv.length ≠ 16 then .error (.valueError "CFB IV must be 16 bytes")
  else cfbDecryptFrom block key (segmentCount ciphertext) iv ciphertext

end

example : aes128EncryptBlock (List.replicate 16 0) (List.replicate 16 0) =
    .ok [0x66, 0xe9, 0x4b, 0xd4, 0xef, 0x8a, 0x2c, 0x3b, 0x88, 0x4c, 0xfa, 0x59, 0xca, 0x34, 0x2b,
      0x2e] := by
  decide +kernel

end NetForge.Ingest.Aes
