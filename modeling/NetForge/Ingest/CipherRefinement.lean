import NetForge.Ingest.Aes
import NetForge.Ingest.Rijndael

/-! # The block cipher computes the AES-128 cipher

Each step of `aes128_encrypt_block` is the step of the cipher over the field of bytes, on the
elements that its bytes write: the table is the substitution, the shifted exclusive or is
the multiplication by `x`, and the words of the schedule are those of the key schedule.
-/

namespace NetForge.Ingest.Aes

open Python Calculus ByteField Rijndael

/-! ## Bytes -/

theorem xtime_eq_double (b : UInt8) : xtime b = double b := by
  have hmsb : b.toBitVec.msb = decide (0x80 ≤ b.toNat) := BitVec.msb_eq_decide b.toBitVec
  unfold xtime double
  rw [hmsb]
  by_cases h : 0x80 ≤ b.toNat
  · rw [if_pos h, if_pos (decide_eq_true h)]
  · rw [if_neg h, if_neg (by simpa using h)]

theorem ofByte_xtime (b : UInt8) : ofByte (xtime b) = x * ofByte b := by
  rw [xtime_eq_double, ofByte_double]

/-- The bits moved up by `k` places, around the end. -/
def rotate (b : UInt8) (k : Nat) : UInt8 := ⟨b.toBitVec.rotateLeft k⟩

theorem bits_rotate (b : UInt8) (k : Nat) (h : k < 8) (i j : Fin 8)
    (hij : (i : Nat) = (j + k) % 8) : bits (rotate b k) i = bits b j := by
  have hbit : (b.toBitVec.rotateLeft k).getLsbD i = b.toBitVec.getLsbD j := by
    rw [BitVec.getLsbD_rotateLeft, Nat.mod_eq_of_lt h]
    by_cases hwrap : (i : Nat) < k
    · have hj : 8 - k + (i : Nat) = j := by omega
      rw [decide_eq_true hwrap, cond_true, hj]
    · have hj : (i : Nat) - k = j := by omega
      rw [decide_eq_false hwrap, cond_false, hj, decide_eq_true i.isLt, Bool.true_and]
  unfold bits rotate
  rw [hbit]

def affineByte (b : UInt8) : UInt8 :=
  b ^^^ rotate b 4 ^^^ rotate b 3 ^^^ rotate b 2 ^^^ rotate b 1 ^^^ 0x63

theorem bits_affineByte (b : UInt8) : bits (affineByte b) = affine (bits b) := by
  have hrotate : ∀ (k : Nat) (hk : k < 8) (i j : Fin 8), (i : Nat) = (j + k) % 8 →
      bits (rotate b k) i = bits b j := fun k hk i j hij => bits_rotate b k hk i j hij
  funext i
  unfold affineByte affine
  simp only [bits_xor, Pi.add_apply]
  rw [hrotate 4 (by decide) i (i + 4) (by omega), hrotate 3 (by decide) i (i + 5) (by omega),
    hrotate 2 (by decide) i (i + 6) (by omega), hrotate 1 (by decide) i (i + 7) (by omega)]

theorem sbox_eq : SBOX = inverses.map affineByte := by decide +kernel

/-- The table holds the inverse of its index under the affine map. -/
theorem subByte_eq (b : UInt8) : subByte b = affineByte (inverse b) := by
  have hindex : b.toNat < inverses.length := by
    rw [inverses_length]
    exact b.toNat_lt
  unfold subByte inverse
  rw [sbox_eq, List.getD_eq_getElem _ _ (by rwa [List.length_map]), List.getElem_map,
    List.getD_eq_getElem _ _ hindex]

theorem ofByte_subByte (b : UInt8) : ofByte (subByte b) = substitute (ofByte b) := by
  unfold substitute coordinates
  rw [← ofByte_inverse, ofByte.symm_apply_apply, ← bits_affineByte, ← subByte_eq]
  rfl

theorem rcon_eq_iterate : ∀ i < 10, RCON.getD i 0 = xtime^[i] 1 := by decide

theorem ofByte_rcon {i : Nat} (h : i < 10) : ofByte (RCON.getD i 0) = x ^ i := by
  have hiterate : ∀ n, ofByte (xtime^[n] 1) = x ^ n := by
    intro n
    induction n with
    | zero => exact ofByte_one
    | succ n ih => rw [Function.iterate_succ_apply', ofByte_xtime, ih, pow_succ']
  rw [rcon_eq_iterate i h, hiterate]

/-! ## States -/

noncomputable def elements (s : Aes.State) : Rijndael.State := fun r c => ofByte (s.at r c)

theorem at_ofFn (f : Nat → Nat → UInt8) (r c : Fin 4) : (State.ofFn f).at r c = f r c := by
  fin_cases r <;> fin_cases c <;> rfl

theorem elements_toState (block : Fin 16 → UInt8) :
    elements (toState (List.ofFn block)) = fun r c => ofByte (block (place r c)) := by
  funext r c
  unfold elements toState
  rw [at_ofFn]
  fin_cases r <;> fin_cases c <;> rfl

theorem fromState_eq (s : Aes.State) :
    fromState s = List.ofFn fun i : Fin 16 => s.at (i % 4) (i / 4) := rfl

noncomputable def keyElements (rk : Bytes) : Rijndael.State := fun r c =>
  ofByte (rk.getD (c * 4 + r) 0)

theorem elements_addRoundKey (rk : Bytes) (s : Aes.State) :
    elements (addRoundKey rk s) = elements s + keyElements rk := by
  funext r c
  unfold elements addRoundKey
  rw [at_ofFn, ofByte_xor]
  rfl

theorem elements_subBytes (s : Aes.State) :
    elements (Aes.subBytes s) = Rijndael.subBytes (elements s) := by
  funext r c
  unfold elements Aes.subBytes
  rw [at_ofFn, ofByte_subByte]
  rfl

theorem elements_shiftRows (s : Aes.State) :
    elements (Aes.shiftRows (Aes.subBytes s)) = Rijndael.shiftRows (elements (Aes.subBytes s)) := by
  have hrotate : ∀ (f : Nat → Nat → UInt8) (r c : Fin 4),
      (Aes.shiftRows (State.ofFn f)).at r c = f r (c + r : Fin 4) := by
    intro f r c
    fin_cases r <;> fin_cases c <;> rfl
  funext r c
  show ofByte ((Aes.shiftRows (State.ofFn _)).at r c) =
    ofByte ((State.ofFn _).at r (c + r : Fin 4))
  rw [hrotate, at_ofFn]

theorem elements_mixColumns (s : Aes.State) :
    elements (Aes.mixColumns s) = Rijndael.mixColumns (elements s) := by
  funext r c
  unfold elements Rijndael.mixColumns Aes.mixColumns
  rw [at_ofFn, mixColumn_eq]
  fin_cases r
  · show ofByte (xtime (s.at 0 c) ^^^ (xtime (s.at 1 c) ^^^ s.at 1 c) ^^^ s.at 2 c ^^^ s.at 3 c) =
      x * ofByte (s.at 0 c) + (x + 1) * ofByte (s.at 1 c) + ofByte (s.at 2 c) + ofByte (s.at 3 c)
    simp only [ofByte_xor, ofByte_xtime]
    ring
  · show ofByte (s.at 0 c ^^^ xtime (s.at 1 c) ^^^ (xtime (s.at 2 c) ^^^ s.at 2 c) ^^^ s.at 3 c) =
      x * ofByte (s.at 1 c) + (x + 1) * ofByte (s.at 2 c) + ofByte (s.at 3 c) + ofByte (s.at 0 c)
    simp only [ofByte_xor, ofByte_xtime]
    ring
  · show ofByte (s.at 0 c ^^^ s.at 1 c ^^^ xtime (s.at 2 c) ^^^ (xtime (s.at 3 c) ^^^ s.at 3 c)) =
      x * ofByte (s.at 2 c) + (x + 1) * ofByte (s.at 3 c) + ofByte (s.at 0 c) + ofByte (s.at 1 c)
    simp only [ofByte_xor, ofByte_xtime]
    ring
  · show ofByte ((xtime (s.at 0 c) ^^^ s.at 0 c) ^^^ s.at 1 c ^^^ s.at 2 c ^^^ xtime (s.at 3 c)) =
      x * ofByte (s.at 3 c) + (x + 1) * ofByte (s.at 0 c) + ofByte (s.at 1 c) + ofByte (s.at 2 c)
    simp only [ofByte_xor, ofByte_xtime]
    ring

/-! ## Key schedule -/

noncomputable def wordBytes (key : Fin 4 → Fin 4 → Element) (i : Nat) : Bytes :=
  List.ofFn fun j => ofByte.symm (keyWord key i j)

theorem symm_add (a b : Element) : ofByte.symm (a + b) = ofByte.symm a ^^^ ofByte.symm b := by
  apply ofByte.injective
  rw [ofByte_xor, ofByte.apply_symm_apply, ofByte.apply_symm_apply, ofByte.apply_symm_apply]

theorem subByte_symm (a : Element) : subByte (ofByte.symm a) = ofByte.symm (substitute a) := by
  apply ofByte.injective
  rw [ofByte_subByte, ofByte.apply_symm_apply, ofByte.apply_symm_apply]

theorem ofFn_four {α : Type} (f : Fin 4 → α) : List.ofFn f = [f 0, f 1, f 2, f 3] := rfl

/-- What a word of the schedule adds to the word four places back. -/
theorem scheduleTemp_wordBytes (key : Fin 4 → Fin 4 → Element) {i : Nat} (h : i < 40) :
    scheduleTemp (i + 4) (wordBytes key (i + 3)) = List.ofFn fun j => ofByte.symm
      (if (i + 4) % 4 = 0 then substitute (keyWord key (i + 3) (j + 1)) + rcon ((i + 4) / 4) j
        else keyWord key (i + 3) j) := by
  unfold scheduleTemp wordBytes
  by_cases hfourth : (i + 4) % 4 = 0
  · have hrcon : RCON.getD ((i + 4) / 4 - 1) 0 = ofByte.symm (x ^ ((i + 4) / 4 - 1)) := by
      apply ofByte.injective
      rw [ofByte_rcon (by omega), ofByte.apply_symm_apply]
    simp only [hfourth, if_true]
    rw [hrcon, ofFn_four, ofFn_four]
    show [subByte (ofByte.symm (keyWord key (i + 3) 1)) ^^^ ofByte.symm (x ^ ((i + 4) / 4 - 1)),
      subByte (ofByte.symm (keyWord key (i + 3) 2)), subByte (ofByte.symm (keyWord key (i + 3) 3)),
      subByte (ofByte.symm (keyWord key (i + 3) 0))] =
        [ofByte.symm (substitute (keyWord key (i + 3) 1) + x ^ ((i + 4) / 4 - 1)),
          ofByte.symm (substitute (keyWord key (i + 3) 2) + 0),
          ofByte.symm (substitute (keyWord key (i + 3) 3) + 0),
          ofByte.symm (substitute (keyWord key (i + 3) 0) + 0)]
    simp only [subByte_symm, symm_add, add_zero]
  · simp only [hfourth, if_false]

theorem xorBytes_wordBytes (key : Fin 4 → Fin 4 → Element) {i : Nat} (h : i < 40) :
    xorBytes (wordBytes key i) (scheduleTemp (i + 4) (wordBytes key (i + 3))) =
      wordBytes key (i + 4) := by
  have hword : ∀ j, keyWord key (i + 4) j = keyWord key i j +
      if (i + 4) % 4 = 0 then substitute (keyWord key (i + 3) (j + 1)) + rcon ((i + 4) / 4) j
      else keyWord key (i + 3) j := fun _ => rfl
  rw [scheduleTemp_wordBytes key h]
  unfold wordBytes
  simp only [hword, symm_add, ofFn_four]
  rfl

theorem getD_words (key : Fin 4 → Fin 4 → Element) {n i : Nat} (h : i < n) :
    ((List.range n).map (wordBytes key)).getD i [] = wordBytes key i := by
  have hlength : i < ((List.range n).map (wordBytes key)).length := by
    rwa [List.length_map, List.length_range]
  rw [List.getD_eq_getElem _ _ hlength, List.getElem_map, List.getElem_range]

theorem expandWords_eq (key : Fin 4 → Fin 4 → Element) (count n : Nat) (h : n + count ≤ 40) :
    expandWords count ((List.range (n + 4)).map (wordBytes key)) =
      (List.range (n + 4 + count)).map (wordBytes key) := by
  induction count generalizing n with
  | zero => rfl
  | succ count ih =>
      have hnext : (List.range (n + 4)).map (wordBytes key) ++ [wordBytes key (n + 4)] =
          (List.range (n + 4 + 1)).map (wordBytes key) := by
        rw [@List.range_succ (n + 4), List.map_append, List.map_singleton]
      have hlast : n + 4 - 1 = n + 3 := by omega
      have hback : n + 4 - 4 = n := by omega
      have hrest := ih (n + 1) (by omega)
      rw [Nat.add_right_comm n 1 4, Nat.add_assoc (n + 4) 1 count, Nat.add_comm 1 count] at hrest
      unfold expandWords
      simp only [List.length_map, List.length_range]
      rw [hlast, hback, getD_words key (by omega), getD_words key (by omega),
        xorBytes_wordBytes key (by omega), hnext]
      exact hrest

theorem flatten_words_getD (key : Fin 4 → Fin 4 → Element) {n rnd : Nat} (h : 4 * rnd + 4 ≤ n)
    (r c : Fin 4) :
    (slice ((List.range n).map (wordBytes key)) (4 * rnd) 4).flatten.getD (c * 4 + r) 0 =
      ofByte.symm (keyWord key (4 * rnd + c) r) := by
  have hslice : slice ((List.range n).map (wordBytes key)) (4 * rnd) 4 =
      [wordBytes key (4 * rnd), wordBytes key (4 * rnd + 1), wordBytes key (4 * rnd + 2),
        wordBytes key (4 * rnd + 3)] := by
    obtain ⟨m, rfl⟩ := Nat.exists_eq_add_of_le h
    unfold slice
    rw [Nat.add_assoc, List.range_add, List.map_append, List.drop_left' (by simp), List.range_add,
      List.map_append, List.map_append, List.take_left' (by simp)]
    rfl
  rw [hslice]
  fin_cases c <;> fin_cases r <;> rfl

/-! ## Rounds -/

noncomputable def keyBytes (key : Fin 16 → UInt8) : Fin 4 → Fin 4 → Element :=
  fun w j => ofByte (key (place j w))

theorem expandKey_eq (key : Fin 16 → UInt8) :
    ∃ roundKeys, expandKey (List.ofFn key) = .ok roundKeys ∧
      ∀ rnd < 11, keyElements (roundKeys.getD rnd []) = roundKey (keyBytes key) rnd := by
  have hwords : (List.range 4).map (fun i => slice (List.ofFn key) (4 * i) 4) =
      (List.range 4).map (wordBytes (keyBytes key)) := by
    apply List.map_congr_left
    intro i hi
    have hlt : i < 4 := List.mem_range.mp hi
    unfold wordBytes keyBytes
    rw [ofFn_four]
    interval_cases i <;> simp only [keyWord, Equiv.symm_apply_apply] <;> rfl
  refine ⟨(List.range 11).map fun r =>
    (slice ((List.range 44).map (wordBytes (keyBytes key))) (4 * r) 4).flatten, ?_, ?_⟩
  · unfold expandKey
    rw [if_neg (by simp), hwords, expandWords_eq (keyBytes key) 40 0 le_rfl]
  · intro rnd hrnd
    have hlength : rnd < ((List.range 11).map fun r =>
        (slice ((List.range 44).map (wordBytes (keyBytes key))) (4 * r) 4).flatten).length := by
      rwa [List.length_map, List.length_range]
    funext r c
    unfold keyElements
    rw [List.getD_eq_getElem _ _ hlength, List.getElem_map, List.getElem_range,
      flatten_words_getD (keyBytes key) (by omega), ofByte.apply_symm_apply]
    rfl

theorem elements_round (key : Fin 4 → Fin 4 → Element) {roundKeys : List Bytes}
    (h : ∀ rnd < 11, keyElements (roundKeys.getD rnd []) = roundKey key rnd) (s : Aes.State)
    {rnd : Nat} (hrnd : rnd < 10) :
    elements (round roundKeys s rnd) =
      Rijndael.mixColumns (Rijndael.shiftRows (Rijndael.subBytes (elements s))) +
        roundKey key rnd := by
  unfold round
  simp only [if_pos (Nat.ne_of_lt hrnd)]
  rw [elements_addRoundKey, elements_mixColumns, elements_shiftRows, elements_subBytes,
    h rnd (by omega)]

theorem elements_rounds (key : Fin 4 → Fin 4 → Element) {roundKeys : List Bytes}
    (h : ∀ rnd < 11, keyElements (roundKeys.getD rnd []) = roundKey key rnd) (s : Aes.State)
    {n : Nat} (hn : n < 10) :
    elements ((List.range' 1 n).foldl (round roundKeys) (addRoundKey (roundKeys.getD 0 []) s)) =
      rounds key (elements s) n := by
  induction n with
  | zero => exact (elements_addRoundKey _ _).trans (congrArg _ (h 0 (by decide)))
  | succ n ih =>
      rw [List.range'_concat, List.foldl_append]
      show elements (round roundKeys _ (1 + 1 * n)) = _
      rw [elements_round key h _ (by omega), ih (by omega), one_mul, Nat.add_comm 1 n]
      rfl

theorem elements_lastRound (key : Fin 4 → Fin 4 → Element) {roundKeys : List Bytes}
    (h : ∀ rnd < 11, keyElements (roundKeys.getD rnd []) = roundKey key rnd) (s : Aes.State) :
    elements ((List.range' 1 10).foldl (round roundKeys) (addRoundKey (roundKeys.getD 0 []) s)) =
      cipher key (elements s) := by
  have hrounds := elements_rounds key h s (by decide : 9 < 10)
  rw [List.range'_concat, List.foldl_append]
  generalize (List.range' 1 9).foldl (round roundKeys) (addRoundKey (roundKeys.getD 0 []) s) = t
    at hrounds ⊢
  have hround : elements (round roundKeys t 10) =
      elements (Aes.shiftRows (Aes.subBytes t)) + keyElements (roundKeys.getD 10 []) :=
    elements_addRoundKey _ _
  show elements (round roundKeys t 10) = _
  rw [hround, elements_shiftRows, elements_subBytes, h 10 (by decide), hrounds]
  rfl

/-- The block function is the cipher, for every key and every block. -/
theorem aes128EncryptBlock_eq (key block : Fin 16 → UInt8) :
    aes128EncryptBlock (List.ofFn key) (List.ofFn block) = .ok (List.ofFn (encrypt key block)) := by
  obtain ⟨roundKeys, hkeys, hround⟩ := expandKey_eq key
  have hfinal := elements_lastRound (keyBytes key) hround (toState (List.ofFn block))
  rw [elements_toState] at hfinal
  unfold aes128EncryptBlock
  rw [if_neg (by simp), hkeys]
  show Except.ok (fromState ((List.range' 1 10).foldl (round roundKeys) _)) = _
  rw [fromState_eq]
  congr 2
  funext i
  unfold encrypt
  rw [Equiv.eq_symm_apply]
  exact congrFun (congrFun hfinal ⟨i % 4, by omega⟩) ⟨i / 4, by omega⟩

end NetForge.Ingest.Aes
