/-! # Percent escapes

Octets written as text: an octet that counts as safe is its own character, every
other one is a percent sign and two hexadecimal digits. Reading undoes writing
whatever the safe octets are, as long as the percent sign is not one of them.
-/

namespace NetForge.Calculus.Percent

def hexUpper (n : Nat) : Char := Char.ofNat (if n < 10 then 48 + n else 55 + n)

def hexValue? (c : Char) : Option Nat :=
  let n := c.toNat
  if 48 ≤ n ∧ n ≤ 57 then some (n - 48)
  else if 65 ≤ n ∧ n ≤ 70 then some (n - 55)
  else if 97 ≤ n ∧ n ≤ 102 then some (n - 87)
  else none

def escapeOctet (safe : UInt8 → Bool) (b : UInt8) : List Char :=
  if safe b then [Char.ofNat b.toNat]
  else ['%', hexUpper (b.toNat / 16), hexUpper (b.toNat % 16)]

def escape (safe : UInt8 → Bool) (bs : List UInt8) : List Char := bs.flatMap (escapeOctet safe)

/-- The octets of an escaped text; a percent sign without two digits after it stands
for itself. -/
def unescape : List Char → List UInt8
  | [] => []
  | '%' :: a :: b :: cs =>
      match hexValue? a, hexValue? b with
      | some x, some y => UInt8.ofNat (16 * x + y) :: unescape cs
      | _, _ => 37 :: unescape (a :: b :: cs)
  | c :: cs => UInt8.ofNat c.toNat :: unescape cs

def Marked (safe : UInt8 → Bool) : Prop := safe 37 = false

theorem toNat_ofNat_octet (b : UInt8) : (Char.ofNat b.toNat).toNat = b.toNat := by
  have hlt : b.toNat < 256 := b.toNat_lt
  have hvalid : b.toNat.isValidChar := Or.inl (by omega)
  unfold Char.ofNat
  rw [dif_pos hvalid]
  rfl

theorem hexValue?_hexUpper {n : Nat} (h : n < 16) : hexValue? (hexUpper n) = some n := by
  have table : ∀ k : Fin 16, hexValue? (hexUpper k.val) = some k.val := by decide
  exact table ⟨n, h⟩

theorem unescape_cons {c : Char} (h : c ≠ '%') (cs : List Char) :
    unescape (c :: cs) = UInt8.ofNat c.toNat :: unescape cs := by
  rw [unescape]
  intro a b rest hc
  exact absurd hc h

theorem unescape_escapeOctet {safe : UInt8 → Bool} (marked : Marked safe) (b : UInt8)
    (cs : List Char) : unescape (escapeOctet safe b ++ cs) = b :: unescape cs := by
  unfold escapeOctet
  by_cases hsafe : safe b = true
  · have hne : Char.ofNat b.toNat ≠ '%' := by
      intro hc
      have hcode := congrArg Char.toNat hc
      rw [toNat_ofNat_octet] at hcode
      have hb : b = 37 := UInt8.toNat_inj.mp hcode
      rw [hb, marked] at hsafe
      exact absurd hsafe (by decide)
    rw [if_pos hsafe, List.singleton_append, unescape_cons hne, toNat_ofNat_octet]
    simp
  · have hlt : b.toNat < 256 := b.toNat_lt
    rw [if_neg hsafe]
    simp only [List.cons_append, List.nil_append, unescape,
      hexValue?_hexUpper (show b.toNat / 16 < 16 by omega),
      hexValue?_hexUpper (show b.toNat % 16 < 16 by omega), Nat.div_add_mod]
    simp

theorem unescape_escape_append {safe : UInt8 → Bool} (marked : Marked safe) (bs : List UInt8)
    (cs : List Char) : unescape (escape safe bs ++ cs) = bs ++ unescape cs := by
  induction bs with
  | nil => rfl
  | cons b bs ih =>
      have hsplit : escape safe (b :: bs) = escapeOctet safe b ++ escape safe bs := by
        simp [escape]
      rw [hsplit, List.append_assoc, unescape_escapeOctet marked, ih, List.cons_append]

theorem unescape_escape {safe : UInt8 → Bool} (marked : Marked safe) (bs : List UInt8) :
    unescape (escape safe bs) = bs := by
  have h := unescape_escape_append marked bs []
  simpa [unescape] using h

/-- A character of an escaped text is a safe octet or belongs to an escape. -/
theorem mem_escape {safe : UInt8 → Bool} {bs : List UInt8} {c : Char} (h : c ∈ escape safe bs) :
    (∃ b, safe b = true ∧ c = Char.ofNat b.toNat) ∨ c = '%' ∨ ∃ n < 16, c = hexUpper n := by
  obtain ⟨b, -, hc⟩ := List.mem_flatMap.mp h
  have hlt : b.toNat < 256 := b.toNat_lt
  unfold escapeOctet at hc
  by_cases hsafe : safe b = true
  · rw [if_pos hsafe, List.mem_singleton] at hc
    exact .inl ⟨b, hsafe, hc⟩
  · rw [if_neg hsafe] at hc
    simp only [List.mem_cons, List.not_mem_nil, or_false] at hc
    rcases hc with hc | hc | hc
    · exact .inr (.inl hc)
    · exact .inr (.inr ⟨b.toNat / 16, by omega, hc⟩)
    · exact .inr (.inr ⟨b.toNat % 16, by omega, hc⟩)

end NetForge.Calculus.Percent
