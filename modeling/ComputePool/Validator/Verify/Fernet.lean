import Mathlib.Algebra.Group.Nat.Defs
import ComputePool.Foundations.Base64

/-!
# The token of the scrape payload

The part of `validator/verify/payloads/scrape.py` that turns a text into a Fernet token without
any library: AES-128 in CBC mode with PKCS7 padding, a header with the time, and a tag over all
of it. The theorems hold for any hash with digests of 32 bytes; `sha256` is the one the payload
uses.

* `length_fernetEncrypt`: the length of a token as a function of the length of the data.
* `startsWith_tokenPrefix_iff`: a token starts with `gAAAAA` as long as the clock fits in 36 bits.
-/

namespace ComputePool.Validator.Verify.Fernet

open Text Base64

/-! ## SHA-256 -/

/-- A hash with digests of 32 bytes; `sha256` below is the one of `hashlib`. -/
structure Sha256 where
  digest : Octets → Octets
  length_digest : ∀ data, (digest data).length = 32

namespace Sha256

/-- The round constants. -/
def constants : List UInt32 :=
  [0x428a2f98, 0x71374491, 0xb5c0fbcf, 0xe9b5dba5, 0x3956c25b, 0x59f111f1, 0x923f82a4,
    0xab1c5ed5, 0xd807aa98, 0x12835b01, 0x243185be, 0x550c7dc3, 0x72be5d74, 0x80deb1fe,
    0x9bdc06a7, 0xc19bf174, 0xe49b69c1, 0xefbe4786, 0x0fc19dc6, 0x240ca1cc, 0x2de92c6f,
    0x4a7484aa, 0x5cb0a9dc, 0x76f988da, 0x983e5152, 0xa831c66d, 0xb00327c8, 0xbf597fc7,
    0xc6e00bf3, 0xd5a79147, 0x06ca6351, 0x14292967, 0x27b70a85, 0x2e1b2138, 0x4d2c6dfc,
    0x53380d13, 0x650a7354, 0x766a0abb, 0x81c2c92e, 0x92722c85, 0xa2bfe8a1, 0xa81a664b,
    0xc24b8b70, 0xc76c51a3, 0xd192e819, 0xd6990624, 0xf40e3585, 0x106aa070, 0x19a4c116,
    0x1e376c08, 0x2748774c, 0x34b0bcb5, 0x391c0cb3, 0x4ed8aa4a, 0x5b9cca4f, 0x682e6ff3,
    0x748f82ee, 0x78a5636f, 0x84c87814, 0x8cc70208, 0x90befffa, 0xa4506ceb, 0xbef9a3f7,
    0xc67178f2]

/-- Rotation to the right. -/
def rotr (x : UInt32) (n : UInt32) : UInt32 :=
  (x >>> n) ||| (x <<< (32 - n))

/-- The message schedule of a block of sixteen words, extended by one word. -/
def extend (w : List UInt32) : List UInt32 :=
  let word (back : ℕ) : UInt32 := w.getD (w.length - back) 0
  let s0 := rotr (word 15) 7 ^^^ rotr (word 15) 18 ^^^ (word 15 >>> 3)
  let s1 := rotr (word 2) 17 ^^^ rotr (word 2) 19 ^^^ (word 2 >>> 10)
  w ++ [word 16 + s0 + word 7 + s1]

/-- The eight working variables. -/
structure State where
  a : UInt32
  b : UInt32
  c : UInt32
  d : UInt32
  e : UInt32
  f : UInt32
  g : UInt32
  h : UInt32

/-- One round with a schedule word and a constant. -/
def State.round (s : State) (wk : UInt32 × UInt32) : State :=
  let ch := (s.e &&& s.f) ^^^ ((~~~ s.e) &&& s.g)
  let maj := (s.a &&& s.b) ^^^ (s.a &&& s.c) ^^^ (s.b &&& s.c)
  let t1 := s.h + (rotr s.e 6 ^^^ rotr s.e 11 ^^^ rotr s.e 25) + ch + wk.2 + wk.1
  let t2 := (rotr s.a 2 ^^^ rotr s.a 13 ^^^ rotr s.a 22) + maj
  ⟨t1 + t2, s.a, s.b, s.c, s.d + t1, s.e, s.f, s.g⟩

/-- One block. -/
def State.block (s : State) (w : List UInt32) : State :=
  let schedule := (List.range 48).foldl (fun w _ => extend w) w
  let t := (schedule.zip constants).foldl State.round s
  ⟨s.a + t.a, s.b + t.b, s.c + t.c, s.d + t.d, s.e + t.e, s.f + t.f, s.g + t.g, s.h + t.h⟩

/-- The initial values. -/
def State.initial : State :=
  ⟨0x6a09e667, 0xbb67ae85, 0x3c6ef372, 0xa54ff53a, 0x510e527f, 0x9b05688c, 0x1f83d9ab, 0x5be0cd19⟩

/-- The padded message as blocks of sixteen words. -/
def blocks (data : Octets) : List (List UInt32) :=
  let bits := 8 * data.length
  let size := (List.range 8).map fun i => bits / 256 ^ (7 - i) % 256
  let whole := data ++ 0x80 :: List.replicate ((119 - data.length % 64) % 64) 0 ++ size
  (List.range (whole.length / 64)).map fun i => (List.range 16).map fun j =>
    ((whole.drop (64 * i + 4 * j)).take 4).foldl (fun w b => w * 256 + UInt32.ofNat b) 0

/-- The bytes of a word. -/
def wordBytes (w : UInt32) : Octets :=
  [w.toNat / 2 ^ 24 % 256, w.toNat / 2 ^ 16 % 256, w.toNat / 2 ^ 8 % 256, w.toNat % 256]

end Sha256

open Sha256 in
/-- `hashlib.sha256(data).digest()`. -/
def sha256 : Sha256 where
  digest data :=
    let s := (blocks data).foldl State.block State.initial
    wordBytes s.a ++ wordBytes s.b ++ wordBytes s.c ++ wordBytes s.d ++ wordBytes s.e ++
      wordBytes s.f ++ wordBytes s.g ++ wordBytes s.h
  length_digest data := by simp [wordBytes]

/-! ## AES-128 -/

/-- `xtime`. -/
def xtime (value : ℕ) : ℕ :=
  let value := value <<< 1
  if value &&& 0x100 ≠ 0 then (value ^^^ 0x11b) &&& 0xff else value

/-- The table `exp` of `build_sbox`: the powers of the generator. -/
def expTable : List ℕ :=
  (List.range 254).foldl (fun powers _ =>
    let x := powers.getLastD 1
    powers ++ [x ^^^ xtime x]) [1]

/-- The entry of a value in `build_sbox`. -/
def sboxEntry (value : ℕ) : ℕ :=
  let inverse := if value = 0 then 0 else expTable.getD ((255 - expTable.idxOf value) % 255) 0
  let rotate (v : ℕ) : ℕ := (v <<< 1 ||| v >>> 7) &&& 0xff
  ((List.range 4).foldl (fun (s, v) _ => (s ^^^ rotate v, rotate v)) (inverse, inverse)).1 ^^^ 0x63

/-- `SBOX`. -/
def sbox : List ℕ :=
  (List.range 256).map sboxEntry

/-- `RCON`. -/
def rcon : List ℕ :=
  [0x01, 0x02, 0x04, 0x08, 0x10, 0x20, 0x40, 0x80, 0x1b, 0x36]

/-- `SHIFT`. -/
def shift : List ℕ :=
  (List.range 16).map fun i => (i / 4 + i % 4) % 4 * 4 + i % 4

/-- The word the key schedule adds after the words it has. -/
def nextWord (words : List (List ℕ)) : List ℕ :=
  let i := words.length
  let temp := words.getD (i - 1) []
  let temp :=
    if i % 4 = 0 then
      let turned := (temp.drop 1 ++ temp.take 1).map fun b => sbox.getD b 0
      turned.mapIdx fun j b => if j = 0 then b ^^^ rcon.getD (i / 4 - 1) 0 else b
    else temp
  (List.range 4).map fun j => (words.getD (i - 4) []).getD j 0 ^^^ temp.getD j 0

/-- `expand_key`: eleven round keys of sixteen bytes. -/
def expandKey (key : Octets) : List (List ℕ) :=
  let words := (List.range 40).foldl (fun words _ => words ++ [nextWord words])
    ((List.range 4).map fun i => (key.drop (4 * i)).take 4)
  (List.range 11).map fun r => ((words.drop (4 * r)).take 4).flatten

/-- One column of the mixing step. -/
def mixColumn (column : List ℕ) : List ℕ :=
  let a0 := column.getD 0 0
  let a1 := column.getD 1 0
  let a2 := column.getD 2 0
  let a3 := column.getD 3 0
  [xtime a0 ^^^ xtime a1 ^^^ a1 ^^^ a2 ^^^ a3,
    a0 ^^^ xtime a1 ^^^ xtime a2 ^^^ a2 ^^^ a3,
    a0 ^^^ a1 ^^^ xtime a2 ^^^ xtime a3 ^^^ a3,
    xtime a0 ^^^ a0 ^^^ a1 ^^^ a2 ^^^ xtime a3]

/-- `[a[i] ^ b[i] for i in range(16)]`. -/
def xor16 (a b : List ℕ) : List ℕ :=
  (List.range 16).map fun i => a.getD i 0 ^^^ b.getD i 0

/-- One round of `encrypt_block`. -/
def encryptRound (roundKeys : List (List ℕ)) (state : List ℕ) (rnd : ℕ) : List ℕ :=
  let state := (List.range 16).map fun i => sbox.getD (state.getD (shift.getD i 0) 0) 0
  let state :=
    if rnd ≠ 10 then (List.range 4).flatMap fun c => mixColumn ((state.drop (4 * c)).take 4)
    else state
  xor16 state (roundKeys.getD rnd [])

/-- `encrypt_block`. -/
def encryptBlock (roundKeys : List (List ℕ)) (block : List ℕ) : List ℕ :=
  (List.range' 1 10).foldl (encryptRound roundKeys) (xor16 block (roundKeys.getD 0 []))

/-! ## The token -/

/-- The loop over the blocks: each is mixed with the one before it and encrypted. -/
def chainBlocks (roundKeys : List (List ℕ)) (previous : List ℕ) : List (List ℕ) → Octets
  | [] => []
  | block :: rest =>
    let encrypted := encryptBlock roundKeys (xor16 block previous)
    encrypted ++ chainBlocks roundKeys encrypted rest

/-- The sixteen-byte pieces of the padded data. -/
def blocksOf (data : Octets) : List (List ℕ) :=
  (List.range (data.length / 16)).map fun i => (data.drop (16 * i)).take 16

/-- `data + bytes([pad]) * pad`. -/
def padded (data : Octets) : Octets :=
  let pad := 16 - data.length % 16
  data ++ List.replicate pad pad

/-- `struct.pack(">Q", now)`. -/
def packTime (now : UInt64) : Octets :=
  [now.toNat / 2 ^ 56 % 256, now.toNat / 2 ^ 48 % 256, now.toNat / 2 ^ 40 % 256,
    now.toNat / 2 ^ 32 % 256, now.toNat / 2 ^ 24 % 256, now.toNat / 2 ^ 16 % 256,
    now.toNat / 2 ^ 8 % 256, now.toNat % 256]

/-- `hmac.new(key, message, hashlib.sha256).digest()`, for a key of at most 64 bytes. -/
def hmac (sha : Sha256) (key message : Octets) : Octets :=
  let key := key ++ List.replicate (64 - key.length) 0
  sha.digest (key.map (· ^^^ 0x5c) ++ sha.digest (key.map (· ^^^ 0x36) ++ message))

/-- The token before its tag: version, time, initial vector and ciphertext. -/
def basicParts (encryptionKey iv : Octets) (now : UInt64) (data : Octets) : Octets :=
  0x80 :: packTime now ++ iv ++ chainBlocks (expandKey encryptionKey) iv (blocksOf (padded data))

/-- `fernet_encrypt`, given the random bytes `iv` and the clock. -/
def fernetEncrypt (sha : Sha256) (keyText : Str) (iv : Octets) (now : UInt64) (data : Octets) :
    Str :=
  let key := decode keyText
  let basic := basicParts ((key.drop 16).take 16) iv now data
  encode (basic ++ hmac sha (key.take 16) basic)

/-- A token is encoded text. -/
theorem exists_fernetEncrypt_eq (sha : Sha256) (keyText : Str) (iv : Octets) (now : UInt64)
    (data : Octets) : ∃ raw, fernetEncrypt sha keyText iv now data = encode raw :=
  ⟨_, rfl⟩

/-- `TOKEN_PREFIX`. -/
def tokenPrefix : Str :=
  "gAAAAA".toList

/-! ## Its length -/

@[simp]
theorem length_xor16 (a b : List ℕ) : (xor16 a b).length = 16 := by
  simp [xor16]

/-- Sixteen octets come out, whatever goes in. -/
theorem length_encryptBlock (roundKeys : List (List ℕ)) (block : List ℕ) :
    (encryptBlock roundKeys block).length = 16 := by
  -- whatever the rounds before, the last one ends in an exclusive or over sixteen bytes
  have hrounds : List.range' 1 10 = List.range' 1 9 ++ [10] := rfl
  rw [encryptBlock, hrounds, List.foldl_append]
  exact length_xor16 _ _

/-- Each block adds sixteen octets. -/
theorem length_chainBlocks (roundKeys : List (List ℕ)) (previous : List ℕ)
    (blocks : List (List ℕ)) :
    (chainBlocks roundKeys previous blocks).length = 16 * blocks.length := by
  induction blocks generalizing previous with
  | nil => rfl
  | cons block rest ih =>
    simp only [chainBlocks, List.length_append, List.length_cons, length_encryptBlock, ih]
    omega

/-- Padding makes at least one more octet, so there is one block more than fit. -/
theorem length_blocksOf_padded (data : Octets) :
    (blocksOf (padded data)).length = data.length / 16 + 1 := by
  simp only [blocksOf, padded, List.length_map, List.length_range, List.length_append,
    List.length_replicate]
  omega

/-- The token of `n` bytes of data: 57 bytes around the padded data, in base64. -/
theorem length_fernetEncrypt (sha : Sha256) (keyText : Str) {iv : Octets} (now : UInt64)
    (data : Octets) (hiv : iv.length = 16) :
    (fernetEncrypt sha keyText iv now data).length =
      4 * ((57 + 16 * (data.length / 16 + 1) + 2) / 3) := by
  simp only [fernetEncrypt, basicParts, hmac, packTime, length_encode, List.length_append,
    List.length_cons, List.length_nil, sha.length_digest, length_chainBlocks,
    length_blocksOf_padded, hiv]
  omega

/-! ## Its beginning -/

/-- The first characters of a token hold the upper bits of the clock. -/
theorem startsWith_tokenPrefix_iff (sha : Sha256) (keyText : Str) (iv : Octets) (now : UInt64)
    (data : Octets) :
    startsWith (fernetEncrypt sha keyText iv now data) tokenPrefix = true ↔
      now.toNat < 2 ^ 36 := by
  have hnow := now.toNat_lt
  -- the first two groups of three bytes: the version and the upper five bytes of the clock
  have hgroups : ∃ rest, fernetEncrypt sha keyText iv now data =
      symbol (0x80 / 4) :: symbol (0x80 % 4 * 16 + now.toNat / 2 ^ 56 % 256 / 16) ::
      symbol (now.toNat / 2 ^ 56 % 256 % 16 * 4 + now.toNat / 2 ^ 48 % 256 / 64) ::
      symbol (now.toNat / 2 ^ 48 % 256 % 64) :: symbol (now.toNat / 2 ^ 40 % 256 / 4) ::
      symbol (now.toNat / 2 ^ 40 % 256 % 4 * 16 + now.toNat / 2 ^ 32 % 256 / 16) :: rest :=
    ⟨_, rfl⟩
  obtain ⟨rest, hrest⟩ := hgroups
  have hversion : symbol (0x80 / 4) = 'g' := by decide
  have hstart : tokenPrefix = ['g', 'A', 'A', 'A', 'A', 'A'] := by decide
  rw [hrest, hstart, startsWith, hversion]
  simp only [List.isPrefixOf, Bool.and_eq_true, beq_iff_eq, true_and, and_true,
    eq_comm (a := 'A'), symbol_eq_A_iff]
  omega

end ComputePool.Validator.Verify.Fernet
