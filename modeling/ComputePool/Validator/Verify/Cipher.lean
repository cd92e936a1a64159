import ComputePool.Foundations.Aes
import ComputePool.Foundations.Cbc
import ComputePool.Validator.Verify.Fernet

/-!
# The cipher of the scrape payload is the standard one

`validator/verify/payloads/scrape.py` comes with its own AES-128 and builds its own Fernet tokens,
because a rig may have no library for either. This module compares the two with what the standards
say.

* `encryptBlock_eq`: `encrypt_block(expand_key(key), block)` is AES-128, for every key and block.
* `FernetSpec.decrypt`: the token is taken apart as the Fernet specification has it.
* `decrypt_fernetEncrypt`: a token of the payload is accepted and gives back time and data.
-/

namespace ComputePool.Validator.Verify.Fernet

open Text Base64 Aes

/-- The numbers of bytes. -/
def octets (bytes : List Byte) : Octets :=
  bytes.map BitVec.toNat

/-- The bytes of numbers. -/
def bytes (data : Octets) : List Byte :=
  data.map (BitVec.ofNat 8)

theorem octets_bytes {data : Octets} (h : ∀ b ∈ data, b < 256) : octets (bytes data) = data := by
  rw [octets, bytes, List.map_map]
  refine (List.map_congr_left fun b hb => ?_).trans (List.map_id data)
  exact Nat.mod_eq_of_lt (h b hb)

theorem lt_of_mem_octets {bs : List Byte} : ∀ b ∈ octets bs, b < 256 := by
  intro b hb
  obtain ⟨c, -, rfl⟩ := List.mem_map.mp hb
  exact c.isLt

/-! ## Tables -/

theorem xtime_toNat (b : Byte) : xtime b.toNat = (xTimes b).toNat := by
  have hall := forall_byte (p := fun b => xtime b.toNat = (xTimes b).toNat) (by decide +kernel) b
  simpa using hall

/-- The loop of `build_sbox` fills its table with the powers of the generator. -/
theorem expTable_eq : expTable = (List.range 255).map fun i => (power i).toNat := by
  have hloop : ∀ n, (List.range n).foldl (fun powers _ =>
      let x := powers.getLastD 1
      powers ++ [x ^^^ xtime x]) [1] = (List.range (n + 1)).map fun i => (power i).toNat := by
    intro n
    induction n with
    | zero => rfl
    | succ n ih =>
      have hnext : (power n).toNat ^^^ xtime (power n).toNat = (power (n + 1)).toNat := by
        rw [power_succ, three_mul, xtime_toNat, BitVec.toNat_xor, Nat.xor_comm]
      rw [List.range_succ, List.foldl_append, ih, List.foldl_cons, List.foldl_nil,
        List.range_succ (n := n + 1), List.map_append, List.range_succ, List.map_append]
      simp [hnext]
  exact hloop 254

/-- The position that `build_sbox` notes in `log`. -/
theorem idxOf_expTable {i : ℕ} (hi : i < 255) : expTable.idxOf (power i).toNat = i := by
  have hnodup : expTable.Nodup := by
    rw [expTable_eq, ← Function.comp_def, ← List.map_map]
    exact nodup_powers.map fun _ _ => BitVec.eq_of_toNat_eq
  have hlen : i < expTable.length := by simp [expTable_eq, hi]
  have hget : expTable[i] = (power i).toNat := by simp [expTable_eq]
  rw [← hget, hnodup.idxOf_getElem]

theorem getD_expTable {i : ℕ} (hi : i < 255) : expTable.getD i 0 = (power i).toNat := by
  simp [expTable_eq, List.getD_eq_getElem?_getD, hi]

/-- The inverse that `build_sbox` reads from its tables. -/
theorem expTable_inverse (b : Byte) :
    (if b.toNat = 0 then 0 else expTable.getD ((255 - expTable.idxOf b.toNat) % 255) 0) =
      (inv b).toNat := by
  by_cases h : b = 0
  · subst h
    rw [inv_zero]
    rfl
  · obtain ⟨i, hi, rfl⟩ := exists_power h
    have hne : (power i).toNat ≠ 0 := fun hzero => h (BitVec.eq_of_toNat_eq hzero)
    rw [if_neg hne, idxOf_expTable hi, getD_expTable (Nat.mod_lt _ (by decide)), inv_power hi]

/-- The affine part of an entry of `build_sbox`. -/
def rotated (inverse : ℕ) : ℕ :=
  let rotate (v : ℕ) : ℕ := (v <<< 1 ||| v >>> 7) &&& 0xff
  ((List.range 4).foldl (fun (s, v) _ => (s ^^^ rotate v, rotate v)) (inverse, inverse)).1 ^^^ 0x63

theorem rotated_toNat (b : Byte) : rotated b.toNat = (affine b).toNat := by
  have hall := forall_byte (p := fun b => rotated b.toNat = (affine b).toNat) (by decide +kernel) b
  simpa using hall

/-- `SBOX` is the substitution. -/
theorem getD_sbox (b : Byte) : sbox.getD b.toNat 0 = (subByte b).toNat := by
  have hentry : sboxEntry b.toNat = rotated (inv b).toNat := by
    rw [← expTable_inverse]
    rfl
  have hget : sbox.getD b.toNat 0 = sboxEntry b.toNat := by
    rw [sbox, List.getD_eq_getElem?_getD, List.getElem?_map, List.getElem?_range b.isLt]
    rfl
  rw [hget, hentry, rotated_toNat, subByte]

/-! ## Rounds -/

/-- The bytes of a state as the payload holds them. -/
def stateOctets (s : State) : Octets :=
  octets (bytesOf s)

/-- The octets of a state, column by column. -/
theorem stateOctets_eq (s : State) :
    stateOctets s =
      (List.range 16).map fun i => (s (Fin.ofNat 4 i) (Fin.ofNat 4 (i / 4))).toNat := by
  rw [stateOctets, octets, bytesOf, List.map_map]
  rfl

theorem getD_stateOctets (s : State) {i : ℕ} (hi : i < 16) :
    (stateOctets s).getD i 0 = (s (Fin.ofNat 4 i) (Fin.ofNat 4 (i / 4))).toNat := by
  simp [stateOctets_eq, List.getD_eq_getElem?_getD, hi]

/-- The words of a round key as the payload holds them. -/
def keyOctets (key : Fin 4 → Word) : Octets :=
  stateOctets fun r c => key c r

/-- Adding a round key, octet by octet. -/
theorem xor16_keyOctets (s : State) (key : Fin 4 → Word) :
    xor16 (stateOctets s) (keyOctets key) = stateOctets (addRoundKey key s) := by
  rw [stateOctets_eq (addRoundKey key s), xor16]
  refine List.map_congr_left fun i hi => ?_
  have hi := List.mem_range.mp hi
  rw [keyOctets, getD_stateOctets _ hi, getD_stateOctets _ hi, ← BitVec.toNat_xor]
  rfl

/-- `SBOX` and `SHIFT` together. -/
theorem substitute_stateOctets (s : State) :
    (List.range 16).map (fun i => sbox.getD ((stateOctets s).getD (shift.getD i 0) 0) 0) =
      stateOctets (shiftRows (subBytes s)) := by
  -- `SHIFT` keeps the row and moves the column by the row
  have hshift : ∀ i < 16, shift.getD i 0 < 16 ∧ Fin.ofNat 4 (shift.getD i 0) = Fin.ofNat 4 i ∧
      Fin.ofNat 4 (shift.getD i 0 / 4) = Fin.ofNat 4 (i / 4) + Fin.ofNat 4 i := by decide
  rw [stateOctets_eq (shiftRows (subBytes s))]
  refine List.map_congr_left fun i hi => ?_
  obtain ⟨hlt, hrow, hcolumn⟩ := hshift i (List.mem_range.mp hi)
  rw [getD_stateOctets s hlt, getD_sbox, hrow, hcolumn]
  rfl

/-- One column, mixed. -/
theorem mixColumn_toNat (a₀ a₁ a₂ a₃ : Byte) :
    mixColumn [a₀.toNat, a₁.toNat, a₂.toNat, a₃.toNat] =
      [(mul 0x02 a₀ ^^^ mul 0x03 a₁ ^^^ a₂ ^^^ a₃).toNat,
        (mul 0x02 a₁ ^^^ mul 0x03 a₂ ^^^ a₃ ^^^ a₀).toNat,
        (mul 0x02 a₂ ^^^ mul 0x03 a₃ ^^^ a₀ ^^^ a₁).toNat,
        (mul 0x02 a₃ ^^^ mul 0x03 a₀ ^^^ a₁ ^^^ a₂).toNat] := by
  simp only [mixColumn, two_mul, three_mul, BitVec.toNat_xor, List.getD_cons_zero,
    List.getD_cons_succ, xtime_toNat]
  refine List.cons_eq_cons.mpr ⟨by ac_rfl, List.cons_eq_cons.mpr ⟨by ac_rfl,
    List.cons_eq_cons.mpr ⟨by ac_rfl, List.cons_eq_cons.mpr ⟨by ac_rfl, rfl⟩⟩⟩⟩

/-- Mixing the columns, octet by octet. -/
theorem mixColumn_stateOctets (s : State) :
    ((List.range 4).flatMap fun c => mixColumn (((stateOctets s).drop (4 * c)).take 4)) =
      stateOctets (mixColumns s) := by
  -- the octets of a state, column by column
  have hcolumn : ∀ c < 4, ((stateOctets s).drop (4 * c)).take 4 =
      [(s 0 (Fin.ofNat 4 c)).toNat, (s 1 (Fin.ofNat 4 c)).toNat, (s 2 (Fin.ofNat 4 c)).toNat,
        (s 3 (Fin.ofNat 4 c)).toNat] := by
    intro c hc
    interval_cases c <;> rfl
  have hmixed : ∀ c < 4, mixColumn (((stateOctets s).drop (4 * c)).take 4) =
      [(mixColumns s 0 (Fin.ofNat 4 c)).toNat, (mixColumns s 1 (Fin.ofNat 4 c)).toNat,
        (mixColumns s 2 (Fin.ofNat 4 c)).toNat, (mixColumns s 3 (Fin.ofNat 4 c)).toNat] := by
    intro c hc
    rw [hcolumn c hc, mixColumn_toNat]
    rfl
  have hrange : List.range 4 = [0, 1, 2, 3] := rfl
  simp only [hrange, List.flatMap_cons, List.flatMap_nil]
  rw [hmixed 0 (by decide), hmixed 1 (by decide), hmixed 2 (by decide), hmixed 3 (by decide)]
  rfl

section Rounds

variable {roundKeys : List (List ℕ)} {key : Fin 4 → Word}

/-- A round before the last one. -/
theorem encryptRound_of_ne {n : ℕ} (hn : n ≠ 10)
    (hkey : roundKeys.getD n [] = keyOctets (roundKey key n)) (s : State) :
    encryptRound roundKeys (stateOctets s) n =
      stateOctets (addRoundKey (roundKey key n) (mixColumns (shiftRows (subBytes s)))) := by
  simp only [encryptRound]
  rw [if_pos hn, substitute_stateOctets, mixColumn_stateOctets, hkey, xor16_keyOctets]

/-- The last round. -/
theorem encryptRound_last (hkey : roundKeys.getD 10 [] = keyOctets (roundKey key 10)) (s : State) :
    encryptRound roundKeys (stateOctets s) 10 =
      stateOctets (addRoundKey (roundKey key 10) (shiftRows (subBytes s))) := by
  simp only [encryptRound]
  rw [if_neg (by decide), substitute_stateOctets, hkey, xor16_keyOctets]

/-- With the round keys of the standard, `encrypt_block` is its cipher. -/
theorem encryptBlock_stateOctets
    (hkeys : ∀ n < 11, roundKeys.getD n [] = keyOctets (roundKey key n)) (s : State) :
    encryptBlock roundKeys (stateOctets s) = stateOctets (cipher key s) := by
  -- the rounds before the last one, each with its key
  have hrounds : ∀ n < 10, (List.range' 1 n).foldl (encryptRound roundKeys)
      (xor16 (stateOctets s) (roundKeys.getD 0 [])) = stateOctets (rounds key n s) := by
    intro n hn
    induction n with
    | zero =>
      show xor16 _ _ = _
      rw [hkeys 0 (by decide), xor16_keyOctets]
      rfl
    | succ n ih =>
      rw [List.range'_1_concat, List.foldl_append, ih (by omega), Nat.add_comm 1 n]
      exact encryptRound_of_ne (by omega) (hkeys (n + 1) (by omega)) _
  rw [encryptBlock, List.range'_1_concat (n := 9), List.foldl_append, hrounds 9 (by decide)]
  exact encryptRound_last (hkeys 10 (by decide)) _

end Rounds

/-! ## The key schedule -/

/-- A word as the payload holds it. -/
def wordOctets (w : Word) : Octets :=
  (List.range 4).map fun j => (w (Fin.ofNat 4 j)).toNat

theorem getD_wordOctets (w : Word) {j : ℕ} (hj : j < 4) :
    (wordOctets w).getD j 0 = (w (Fin.ofNat 4 j)).toNat := by
  simp [wordOctets, List.getD_eq_getElem?_getD, hj]

/-- Adding words, octet by octet. -/
theorem zipWith_wordOctets (v w : Word) :
    ((List.range 4).map fun j => (wordOctets v).getD j 0 ^^^ (wordOctets w).getD j 0) =
      wordOctets fun j => v j ^^^ w j := by
  refine List.map_congr_left fun j hj => ?_
  have hj := List.mem_range.mp hj
  rw [getD_wordOctets v hj, getD_wordOctets w hj, ← BitVec.toNat_xor]

theorem getD_rcon : ∀ j < 10, rcon.getD j 0 = (xTimes^[j] 1).toNat := by
  decide +kernel

/-- Every fourth word: turned, substituted, with the constant of its round. -/
theorem turned_wordOctets (w : Word) {n : ℕ} (hn : n < 10) :
    (((wordOctets w).drop 1 ++ (wordOctets w).take 1).map fun b => sbox.getD b 0).mapIdx
        (fun j b => if j = 0 then b ^^^ rcon.getD n 0 else b) =
      wordOctets fun j => subWord (rotWord w) j ^^^ Aes.rcon (n + 1) j := by
  have hword : wordOctets w = [(w 0).toNat, (w 1).toNat, (w 2).toNat, (w 3).toNat] := rfl
  rw [hword, getD_rcon n hn]
  simp only [List.drop_succ_cons, List.drop_zero, List.take_succ_cons, List.take_zero,
    List.cons_append, List.nil_append, List.map_cons, List.map_nil, getD_sbox]
  show [(subByte (w 1)).toNat ^^^ (xTimes^[n] 1).toNat, (subByte (w 2)).toNat,
    (subByte (w 3)).toNat, (subByte (w 0)).toNat] = [(subByte (w 1) ^^^ xTimes^[n] 1).toNat,
    (subByte (w 2) ^^^ 0#8).toNat, (subByte (w 3) ^^^ 0#8).toNat, (subByte (w 0) ^^^ 0#8).toNat]
  simp only [BitVec.toNat_xor, BitVec.xor_zero]

section Schedule

variable (key : Fin 4 → Word)

/-- The recursion of the standard from the fourth word on. -/
theorem keyWord_of_le {i : ℕ} (hi : 4 ≤ i) : keyWord key i =
    fun j => keyWord key (i - 4) j ^^^ (if i % 4 = 0 then
      fun j => subWord (rotWord (keyWord key (i - 1))) j ^^^ Aes.rcon (i / 4) j
    else keyWord key (i - 1)) j := by
  rw [keyWord, dif_neg (by omega)]

/-- One step of the loop adds the next word of the standard. -/
theorem nextWord_eq {n : ℕ} (hmin : 4 ≤ n) (hmax : n < 44) :
    nextWord ((List.range n).map fun i => wordOctets (keyWord key i)) =
      wordOctets (keyWord key n) := by
  have hget : ∀ i < n, ((List.range n).map fun i => wordOctets (keyWord key i)).getD i [] =
      wordOctets (keyWord key i) := by
    intro i hi
    simp [List.getD_eq_getElem?_getD, hi]
  simp only [nextWord, List.length_map, List.length_range]
  rw [hget (n - 1) (by omega), hget (n - 4) (by omega), keyWord_of_le key hmin]
  split_ifs with hfourth
  · have hround : n / 4 - 1 + 1 = n / 4 := by omega
    rw [turned_wordOctets _ (by omega), hround, zipWith_wordOctets]
  · rw [zipWith_wordOctets]

/-- Four words in a row, put together. -/
theorem flatten_words (f : ℕ → Word) (n : ℕ) :
    ((List.range' (4 * n) 4).map fun i => wordOctets (f i)).flatten =
      keyOctets fun c => f (4 * n + c) :=
  rfl

/-- `expand_key` gives the round keys of the standard. -/
theorem getD_expandKey {n : ℕ} (hn : n < 11) :
    (expandKey (keyOctets key)).getD n [] = keyOctets (roundKey key n) := by
  have hfirst : ((List.range 4).map fun i => ((keyOctets key).drop (4 * i)).take 4) =
      (List.range 4).map fun i => wordOctets (keyWord key i) := by
    refine List.map_congr_left fun i hi => ?_
    have hi := List.mem_range.mp hi
    rw [keyWord, dif_pos hi]
    interval_cases i <;> rfl
  -- the loop, with the words it has so far
  have hloop : ∀ m ≤ 40, (List.range m).foldl (fun words _ => words ++ [nextWord words])
      ((List.range 4).map fun i => ((keyOctets key).drop (4 * i)).take 4) =
      (List.range (m + 4)).map fun i => wordOctets (keyWord key i) := by
    intro m hm
    induction m with
    | zero => exact hfirst
    | succ m ih =>
      rw [List.range_succ (n := m), List.foldl_append, ih (by omega), List.foldl_cons,
        List.foldl_nil, nextWord_eq key (by omega) (by omega), Nat.add_right_comm,
        List.range_succ (n := m + 4),
        List.map_append]
      rfl
  have hslice : ((List.range 44).drop (4 * n)).take 4 = List.range' (4 * n) 4 := by
    rw [List.range_eq_range', List.drop_range', List.take_range'_of_length_ge (by omega),
      Nat.zero_add, Nat.mul_one]
  simp only [expandKey]
  rw [List.getD_eq_getElem?_getD, List.getElem?_map, List.getElem?_range hn, Option.map_some,
    Option.getD_some, hloop 40 (Nat.le_refl 40), ← List.map_drop, ← List.map_take, hslice,
    flatten_words]
  rfl

end Schedule

/-- Sixteen bytes are those of a state. -/
theorem stateOctets_stateOf {data : Octets} (h : Cbc.IsBlock 16 data) :
    stateOctets (stateOf (bytes data)) = data := by
  have hlen : (bytes data).length = 16 := by rw [bytes, List.length_map, h.length_eq]
  rw [stateOctets, bytesOf_stateOf hlen, octets_bytes h.lt]

/-- `encrypt_block` under `expand_key` is AES-128. -/
theorem encryptBlock_eq {key block : Octets} (hkey : Cbc.IsBlock 16 key)
    (hblock : Cbc.IsBlock 16 block) :
    encryptBlock (expandKey key) block = octets (Aes.encrypt (bytes key) (bytes block)) := by
  have hkeys : ∀ n < 11, (expandKey key).getD n [] =
      keyOctets (roundKey (wordsOf (bytes key)) n) := by
    intro n hn
    rw [← getD_expandKey _ hn]
    congr 2
    exact (stateOctets_stateOf hkey).symm
  have hcipher := encryptBlock_stateOctets hkeys (stateOf (bytes block))
  rwa [stateOctets_stateOf hblock] at hcipher

/-! ## Chaining -/

/-- On sixteen octets the sum is the one of the chain. -/
theorem xor16_eq {a b : Octets} (ha : a.length = 16) (hb : b.length = 16) :
    xor16 a b = Cbc.xorBlocks a b := by
  refine List.ext_getElem (by simp [Cbc.xorBlocks, ha, hb]) fun i hi hi' => ?_
  rw [length_xor16] at hi
  simp [xor16, Cbc.xorBlocks, ha, hb, hi]

/-- The loop over the blocks is cipher block chaining. -/
theorem chainBlocks_eq (roundKeys : List (List ℕ)) {blocks : List (List ℕ)}
    (hblocks : ∀ block ∈ blocks, block.length = 16) {previous : Octets}
    (hprevious : previous.length = 16) : chainBlocks roundKeys previous blocks =
      (Cbc.encipher (encryptBlock roundKeys) previous blocks).flatten := by
  induction blocks generalizing previous with
  | nil => rfl
  | cons block rest ih =>
    rw [chainBlocks, Cbc.encipher, List.flatten_cons,
      xor16_eq (hblocks block (by simp)) hprevious,
      ih (fun b hb => hblocks b (by simp [hb])) (length_encryptBlock _ _)]

theorem blocksOf_padded (data : Octets) :
    blocksOf (padded data) = Cbc.chunks 16 (Cbc.pad 16 data) :=
  rfl

/-! ## The token -/

namespace FernetSpec

/-- A number in big-endian bytes. -/
def bigEndian (data : Octets) : ℕ :=
  data.foldl (fun n b => 256 * n + b) 0

/-- AES-128 decryption of a block given as numbers. -/
def decryptBlock (key block : Octets) : Octets :=
  octets (Aes.decrypt (bytes key) (bytes block))

/-- Verification and decryption of a token, as the Fernet specification lays it out: a version byte
`0x80`, the time in eight bytes, sixteen bytes of initial vector, the ciphertext in whole blocks,
and the tag over all that comes before it. The first half of the key signs, the second encrypts. -/
def decrypt (sha : Sha256) (key : Octets) (token : Str) : Option (ℕ × Octets) :=
  let whole := decode token
  let signed := whole.take (whole.length - 32)
  let tag := whole.drop (whole.length - 32)
  let time := (signed.drop 1).take 8
  let iv := (signed.drop 9).take 16
  let ciphertext := signed.drop 25
  if 57 ≤ whole.length ∧ whole.head? = some 0x80 ∧ hmac sha (key.take 16) signed = tag ∧
      16 ∣ ciphertext.length then
    let plain := (Cbc.decipher (decryptBlock (key.drop 16)) iv (Cbc.chunks 16 ciphertext)).flatten
    (Cbc.unpad 16 plain).map fun data => (bigEndian time, data)
  else none

/-- A token whose parts are in place and whose tag is right. -/
theorem decrypt_of_decode {sha : Sha256} {key time iv ciphertext : Octets} {token : Str}
    (htime : time.length = 8) (hiv : iv.length = 16) (hciphertext : 16 ∣ ciphertext.length)
    (htoken : decode token = (0x80 :: time ++ iv ++ ciphertext) ++
      hmac sha (key.take 16) (0x80 :: time ++ iv ++ ciphertext)) :
    decrypt sha key token =
      (Cbc.unpad 16 (Cbc.decipher (decryptBlock (key.drop 16)) iv
        (Cbc.chunks 16 ciphertext)).flatten).map fun data => (bigEndian time, data) := by
  -- the token is version, time, vector and blocks, and then the tag
  have hhead : (0x80 :: time ++ iv).length = 25 := by simp [htime, hiv]
  have hdrop : (0x80 :: time ++ iv ++ ciphertext).drop 25 = ciphertext := List.drop_left' hhead
  have hiv' : ((0x80 :: time ++ iv ++ ciphertext).drop 9).take 16 = iv := by
    have hfront : (0x80 :: time).length = 9 := by simp [htime]
    rw [List.append_assoc, List.drop_left' hfront, List.take_left' hiv]
  have htime' : ((0x80 :: time ++ iv ++ ciphertext).drop 1).take 8 = time := by
    rw [List.append_assoc, List.cons_append, List.drop_succ_cons, List.drop_zero,
      List.take_left' htime]
  generalize hsigned : 0x80 :: time ++ iv ++ ciphertext = signed at htoken hdrop hiv' htime'
  -- the tag is 32 octets long, whatever it was made of
  have htag : (hmac sha (key.take 16) signed).length = 32 := sha.length_digest _
  have hlen : (decode token).length - 32 = signed.length := by
    rw [htoken, List.length_append, htag, Nat.add_sub_cancel]
  have htake : (decode token).take signed.length = signed := by rw [htoken, List.take_left]
  have hrest : (decode token).drop signed.length = hmac sha (key.take 16) signed := by
    rw [htoken, List.drop_left]
  simp only [decrypt, hlen, htake, hrest, hdrop, hiv', htime']
  rw [if_pos]
  -- version, length and tag are as `decrypt` asks for
  refine ⟨?_, ?_, trivial, hciphertext⟩
  · rw [htoken, ← hsigned, List.length_append, List.length_append, hhead, hsigned, htag]
    omega
  · rw [htoken, ← hsigned]
    rfl

theorem bigEndian_packTime (now : UInt64) : bigEndian (packTime now) = now.toNat := by
  have hnow := now.toNat_lt
  simp only [bigEndian, packTime, List.foldl_cons, List.foldl_nil]
  omega

end FernetSpec

/-- The digests of `hashlib.sha256` are bytes. -/
theorem lt_of_mem_sha256 (data : Octets) : ∀ b ∈ sha256.digest data, b < 256 := by
  intro b hb
  have hword : ∀ w : UInt32, b ∈ Sha256.wordBytes w → b < 256 := by
    intro w hw
    simp only [Sha256.wordBytes, List.mem_cons, List.not_mem_nil, or_false] at hw
    omega
  simp only [sha256, List.mem_append] at hb
  rcases hb with ((((((hb | hb) | hb) | hb) | hb) | hb) | hb) | hb <;> exact hword _ hb

section Token

variable {key iv data : Octets}

/-- The ciphertext of `fernet_encrypt` as blocks. -/
def ciphertextBlocks (encryptionKey iv data : Octets) : List Octets :=
  Cbc.encipher (encryptBlock (expandKey encryptionKey)) iv (Cbc.chunks 16 (Cbc.pad 16 data))

/-- A block is encrypted to a block. -/
theorem isBlock_encryptBlock (hkey : Cbc.IsBlock 16 key) {block : Octets}
    (hblock : Cbc.IsBlock 16 block) : Cbc.IsBlock 16 (encryptBlock (expandKey key) block) where
  length_eq := length_encryptBlock _ _
  lt := by
    rw [encryptBlock_eq hkey hblock]
    exact lt_of_mem_octets

/-- What the code encrypts, the standard decrypts. -/
theorem decryptBlock_encryptBlock (hkey : Cbc.IsBlock 16 key) {block : Octets}
    (hblock : Cbc.IsBlock 16 block) :
    FernetSpec.decryptBlock key (encryptBlock (expandKey key) block) = block := by
  have hbytes : ∀ bs : List Byte, bytes (octets bs) = bs := by
    intro bs
    rw [bytes, octets, List.map_map]
    exact (List.map_congr_left fun b _ => by simp).trans (List.map_id bs)
  have hlen : (bytes block).length = 16 := by rw [bytes, List.length_map, hblock.length_eq]
  rw [encryptBlock_eq hkey hblock, FernetSpec.decryptBlock, hbytes, decrypt_encrypt _ hlen,
    octets_bytes hblock.lt]

theorem isBlock_of_mem_padded (hdata : ∀ b ∈ data, b < 256) :
    ∀ block ∈ Cbc.chunks 16 (Cbc.pad 16 data), Cbc.IsBlock 16 block :=
  Cbc.isBlock_of_mem_chunks (by decide) (Cbc.lt_of_mem_pad (by decide) hdata)

theorem isBlock_of_mem_ciphertextBlocks (hkey : Cbc.IsBlock 16 key) (hiv : Cbc.IsBlock 16 iv)
    (hdata : ∀ b ∈ data, b < 256) :
    ∀ block ∈ ciphertextBlocks key iv data, Cbc.IsBlock 16 block :=
  Cbc.isBlock_of_mem_encipher (fun _ => isBlock_encryptBlock hkey) (isBlock_of_mem_padded hdata) hiv

/-- The loop over the blocks is cipher block chaining. -/
theorem chainBlocks_padded (hiv : Cbc.IsBlock 16 iv) (hdata : ∀ b ∈ data, b < 256) :
    chainBlocks (expandKey key) iv (blocksOf (padded data)) =
      (ciphertextBlocks key iv data).flatten := by
  rw [blocksOf_padded]
  exact chainBlocks_eq _ (fun block hblock => (isBlock_of_mem_padded hdata block hblock).length_eq)
    hiv.length_eq

/-- Deciphering the ciphertext and taking off the padding gives back the data. -/
theorem unpad_decipher (hkey : Cbc.IsBlock 16 key) (hiv : Cbc.IsBlock 16 iv)
    (hdata : ∀ b ∈ data, b < 256) :
    Cbc.unpad 16 (Cbc.decipher (FernetSpec.decryptBlock key) iv
      (Cbc.chunks 16 (ciphertextBlocks key iv data).flatten)).flatten = some data := by
  have hblocks := isBlock_of_mem_ciphertextBlocks hkey hiv hdata
  rw [Cbc.chunks_flatten (by decide) fun block hblock => (hblocks block hblock).length_eq,
    ciphertextBlocks, Cbc.decipher_encipher (fun _ => isBlock_encryptBlock hkey)
      (fun _ => decryptBlock_encryptBlock hkey) (isBlock_of_mem_padded hdata) hiv,
    Cbc.flatten_chunks (by decide) (Cbc.dvd_length_pad (by decide) data),
    Cbc.unpad_pad (by decide)]

/-- What is signed is bytes. -/
theorem lt_of_mem_basicParts (hkey : Cbc.IsBlock 16 key) (hiv : Cbc.IsBlock 16 iv) (now : UInt64)
    (hdata : ∀ b ∈ data, b < 256) : ∀ b ∈ basicParts key iv now data, b < 256 := by
  intro b hb
  rw [basicParts, chainBlocks_padded hiv hdata] at hb
  rcases List.mem_append.mp hb with hb | hb
  · rcases List.mem_append.mp hb with hb | hb
    · simp only [packTime, List.mem_cons, List.not_mem_nil, or_false] at hb
      omega
    · exact hiv.lt b hb
  · obtain ⟨block, hblock, hb⟩ := List.mem_flatten.mp hb
    exact (isBlock_of_mem_ciphertextBlocks hkey hiv hdata block hblock).lt b hb

/-- The Fernet specification accepts what `fernet_encrypt` builds, and reads time and data. -/
theorem decrypt_fernetEncrypt {sha : Sha256} (hsha : ∀ data, ∀ b ∈ sha.digest data, b < 256)
    (hkey : Cbc.IsBlock 32 key) (hiv : Cbc.IsBlock 16 iv) (now : UInt64)
    (hdata : ∀ b ∈ data, b < 256) :
    FernetSpec.decrypt sha key (fernetEncrypt sha (encode key) iv now data) =
      some (now.toNat, data) := by
  have hhalf : Cbc.IsBlock 16 (key.drop 16) :=
    ⟨by rw [List.length_drop, hkey.length_eq], fun b hb => hkey.lt b (List.mem_of_mem_drop hb)⟩
  have hencryptionKey : (key.drop 16).take 16 = key.drop 16 :=
    List.take_of_length_le hhalf.length_eq.le
  -- the token as bytes
  have hwhole : decode (fernetEncrypt sha (encode key) iv now data) =
      basicParts (key.drop 16) iv now data ++
        hmac sha (key.take 16) (basicParts (key.drop 16) iv now data) := by
    rw [fernetEncrypt, decode_encode hkey.lt, hencryptionKey]
    refine decode_encode fun b hb => ?_
    rcases List.mem_append.mp hb with hb | hb
    · exact lt_of_mem_basicParts hhalf hiv now hdata b hb
    · exact hsha _ b hb
  have hbasic : basicParts (key.drop 16) iv now data =
      0x80 :: packTime now ++ iv ++ (ciphertextBlocks (key.drop 16) iv data).flatten := by
    rw [basicParts, chainBlocks_padded hiv hdata]
  have hblocks : 16 ∣ (ciphertextBlocks (key.drop 16) iv data).flatten.length := by
    rw [← chainBlocks_padded hiv hdata, length_chainBlocks]
    exact Nat.dvd_mul_right _ _
  rw [hbasic] at hwhole
  rw [FernetSpec.decrypt_of_decode rfl hiv.length_eq hblocks hwhole, unpad_decipher hhalf hiv hdata,
    FernetSpec.bigEndian_packTime]
  rfl

end Token

/-- The cipher of the scrape payload is the standard one. `encrypt_block` under `expand_key` is
AES-128 for every key and block, and a token of `fernet_encrypt` is accepted under the Fernet
specification and gives back the time and the data, of any length. -/
theorem cipher_standard :
    (∀ key block, Cbc.IsBlock 16 key → Cbc.IsBlock 16 block →
      encryptBlock (expandKey key) block = octets (Aes.encrypt (bytes key) (bytes block))) ∧
    ∀ key iv data, ∀ now : UInt64, Cbc.IsBlock 32 key → Cbc.IsBlock 16 iv →
      (∀ b ∈ data, b < 256) →
      FernetSpec.decrypt sha256 key (fernetEncrypt sha256 (encode key) iv now data) =
        some (now.toNat, data) := by
  refine ⟨fun key block hkey hblock => encryptBlock_eq hkey hblock, ?_⟩
  intro key iv data now hkey hiv hdata
  exact decrypt_fernetEncrypt lt_of_mem_sha256 hkey hiv now hdata

/-- One block, and a token of five bytes. -/
theorem cipher_standard_hello :
    Cbc.IsBlock 16 (List.range 16) ∧
    encryptBlock (expandKey (List.range 16)) (List.range 16) =
      octets (Aes.encrypt (bytes (List.range 16)) (bytes (List.range 16))) ∧
    FernetSpec.decrypt sha256 (List.range 32)
      (fernetEncrypt sha256 (encode (List.range 32)) (List.range 16) 499162800
        (utf8 "hello".toList)) = some (499162800, utf8 "hello".toList) := by
  have hblock : Cbc.IsBlock 16 (List.range 16) := ⟨by decide, by decide⟩
  refine ⟨hblock, cipher_standard.1 _ _ hblock hblock, ?_⟩
  exact cipher_standard.2 _ _ _ 499162800 ⟨by decide, by decide⟩ hblock (by decide)

end ComputePool.Validator.Verify.Fernet
