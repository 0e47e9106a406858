import NetForge.Python.Error
import Mathlib.Algebra.Group.Int.Defs
import Mathlib.Algebra.Group.Nat.Defs
import Mathlib.Data.Nat.Basic

/-! # Byte strings

`bytes` is a list of octets. Integers cross over big-endian, text as UTF-8.
-/

namespace NetForge.Python

abbrev Bytes := List UInt8

def bitLength (n : Nat) : Nat := if n = 0 then 0 else n.log2 + 1

/-- `(n.bit_length() + 7) // 8`, the octets an unsigned integer needs. -/
def octetLength (n : Nat) : Nat := (bitLength n + 7) / 8

/-- The last `length` base-256 digits, most significant first. -/
def octets : (length : Nat) → (n : Nat) → Bytes
  | 0, _ => []
  | length + 1, n => octets length (n / 256) ++ [UInt8.ofNat (n % 256)]

@[simp] theorem octets_length (length n : Nat) : (octets length n).length = length := by
  induction length generalizing n with
  | zero => rfl
  | succ length ih => simp [octets, ih]

/-- `int.from_bytes(bs, "big")`. -/
def fromBytes (bs : Bytes) : Nat := bs.foldl (fun n b => n * 256 + b.toNat) 0

theorem fromBytes_append_singleton (bs : Bytes) (b : UInt8) :
    fromBytes (bs ++ [b]) = fromBytes bs * 256 + b.toNat := by
  simp [fromBytes]

theorem fromBytes_octets (length n : Nat) (h : n < 256 ^ length) :
    fromBytes (octets length n) = n := by
  induction length generalizing n with
  | zero =>
      have : n = 0 := by simpa using h
      subst this
      rfl
  | succ length ih =>
      have hq : n / 256 < 256 ^ length := by
        rw [Nat.pow_succ] at h
        omega
      rw [octets, fromBytes_append_singleton, ih _ hq]
      simp only [UInt8.toNat_ofNat']
      omega

/-- `v.to_bytes(length, "big")`. -/
def toBytes (length : Nat) (v : Int) : Except PyError Bytes :=
  if 0 ≤ v ∧ v < 256 ^ length then .ok (octets length v.toNat) else .error .overflowError

/-- `v.to_bytes(length, "big", signed=True)`. -/
def toBytesSigned (length : Nat) (v : Int) : Except PyError Bytes :=
  if -(256 ^ length : Int) ≤ 2 * v ∧ 2 * v < 256 ^ length then
    .ok (octets length (v % 256 ^ length).toNat)
  else .error .overflowError

/-- `bytes([v])`. -/
def oneByte (v : Nat) : Except PyError Bytes :=
  if v < 256 then .ok [UInt8.ofNat v] else .error (.valueError "bytes must be in range(0, 256)")

/-- Exclusive or of two strings, as long as the shorter one. -/
def xorBytes (a b : Bytes) : Bytes := a.zipWith (· ^^^ ·) b

/-! ## Text -/

/-- Strict UTF-8, one octet at a time: `pending` continuation octets are still
to come for a code point that must be at least `low`. -/
def utf8Decode : Bytes → (pending : Nat) → (code : Nat) → (low : Nat) → Option (List Char)
  | [], 0, _, _ => some []
  | [], _ + 1, _, _ => none
  | b :: bs, 0, _, _ =>
      let n := b.toNat
      if n < 0x80 then (utf8Decode bs 0 0 0).map (Char.ofNat n :: ·)
      else if n < 0xC2 then none
      else if n < 0xE0 then utf8Decode bs 1 (n % 32) 0x80
      else if n < 0xF0 then utf8Decode bs 2 (n % 16) 0x800
      else if n < 0xF5 then utf8Decode bs 3 (n % 8) 0x10000
      else none
  | b :: bs, pending + 1, code, low =>
      let next := code * 64 + b.toNat % 64
      if b.toNat / 64 ≠ 2 then none
      else if pending ≠ 0 then utf8Decode bs pending next low
      else if low ≤ next ∧ next.isValidChar then
        (utf8Decode bs 0 0 0).map (Char.ofNat next :: ·)
      else none

/-- `bs.decode("utf-8")`, or nothing where it raises `UnicodeDecodeError`. -/
def decodeUtf8 (bs : Bytes) : Option String := (utf8Decode bs 0 0 0).map String.ofList

def encodeUtf8 (s : String) : Bytes := s.toList.flatMap String.utf8EncodeChar

def hexDigit (n : Nat) : Char := Char.ofNat (if n < 10 then 48 + n else 87 + n)

def hex (bs : Bytes) : String :=
  String.ofList (bs.flatMap fun b => [hexDigit (b.toNat / 16), hexDigit (b.toNat % 16)])

example : decodeUtf8 [0x65, 0xC3, 0xA9] = some "eé" ∧ decodeUtf8 [0xC0, 0x80] = none := by
  decide +kernel

example : hex [0x80, 0x0F, 0xA1] = "800fa1" := by decide +kernel

end NetForge.Python
