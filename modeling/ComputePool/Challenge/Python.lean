import ComputePool.Challenge.Reference

/-!
# The two Python versions

`reference_digest`, `library_digest` and `expected_digest` of `validator/verify/challenge.py`, and
the branch of `digest` in `scripts/challenge_vector.py` that does without numpy. Both files have
the same scalar functions, on unbounded integers with a mask after every product.

Numpy arrays of `uint64` are words of 64 bits: its sums, products and matrix products are exact
modulo `2 ^ 64`, and `astype(np.uint32)` keeps the low half.

* `referenceDigest_eq`: the numpy version is the digest of the challenge.
* `vectorDigest_eq`: so is the version without numpy.
* `expectedDigest_eq`: what the validator expects does not depend on the library.
-/

namespace ComputePool.Challenge

open Buffer

namespace Python

/-- `MASK64`. -/
def mask64 : ℕ := (1 <<< 64) - 1

/-- `MASK32`. -/
def mask32 : ℕ := (1 <<< 32) - 1

/-- `mix64`. -/
def mix64 (z : ℕ) : ℕ :=
  let z := ((z ^^^ (z >>> 30)) * 0xBF58476D1CE4E5B9) &&& mask64
  let z := ((z ^^^ (z >>> 27)) * 0x94D049BB133111EB) &&& mask64
  z ^^^ (z >>> 31)

/-- `seed_state`. -/
def seedState (seed cipher : ℕ) : ℕ :=
  (mix64 (seed ^^^ 0xA5A5A5A5A5A5A5A5) + mix64 ((cipher * 0x9E3779B97F4A7C15) &&& mask64)) &&&
    mask64

/-- `element` of `scripts/challenge_vector.py`. -/
def element (state index : ℕ) : ℕ :=
  mix64 ((state + (index + 1) * 0x9E3779B97F4A7C15) &&& mask64) &&& mask32

/-- One byte of `fnv_u32` and `fnv_u64`. -/
def fnvByte (item value i : ℕ) : ℕ :=
  ((value ^^^ ((item >>> (8 * i)) &&& 0xFF)) * 0x100000001B3) &&& mask64

/-- `fnv_u32`. -/
def fnvU32 (value item : ℕ) : ℕ :=
  (List.range 4).foldl (fnvByte item) value

/-- `fnv_u64`. -/
def fnvU64 (value item : ℕ) : ℕ :=
  (List.range 8).foldl (fnvByte item) value

/-- The lines that fold seed, cipher and sizes into the digest of the rows. -/
def foldTail (digest seed cipher n rounds : ℕ) : ℕ :=
  fnvU32 (fnvU32 (fnvU64 (fnvU64 digest seed) cipher) n) rounds

/-! ## With numpy -/

/-- `array.reshape(n, n)`, as the entry in each row and column. -/
def reshape (n : ℕ) (array : List (BitVec 32)) (i j : ℕ) : BitVec 32 :=
  array.getD (i * n + j) 0#32

/-- `left @ right` on square arrays. -/
def matmul (n : ℕ) (left right : ℕ → ℕ → BitVec 64) (i j : ℕ) : BitVec 64 :=
  ∑ k ∈ Finset.range n, left i k * right k j

/-- The first matrix of `reference_digest`. -/
def numpyStart (state n : ℕ) : ℕ → ℕ → BitVec 32 :=
  let index := (List.range (n * n)).map fun k => BitVec.ofNat 64 (k + 1)
  let z := index.map fun index => BitVec.ofNat 64 state + index * golden
  let z := z.map fun z : BitVec 64 => (z ^^^ (z >>> 30)) * 0xBF58476D1CE4E5B9#64
  let z := z.map fun z : BitVec 64 => (z ^^^ (z >>> 27)) * 0x94D049BB133111EB#64
  let z := z.map fun z : BitVec 64 => z ^^^ (z >>> 31)
  reshape n (z.map fun z : BitVec 64 => (z &&& 0xFFFFFFFF#64).setWidth 32)

/-- One round of `reference_digest`. -/
def numpyRound (n : ℕ) (matrix : ℕ → ℕ → BitVec 32) (i j : ℕ) : BitVec 32 :=
  (matmul n (fun i j => (matrix i j).setWidth 64) (fun i j => (matrix i j).setWidth 64)
    i j).setWidth 32

/-- The row hashes of `reference_digest`, all rows at once and column by column. -/
def numpyRows (n : ℕ) (matrix : ℕ → ℕ → BitVec 32) : List (BitVec 64) :=
  (List.range n).foldl (fun rows column =>
    let values := table n fun i => (matrix i column).setWidth 64
    (List.range 4).foldl (fun rows i =>
      List.zipWith (fun row value : BitVec 64 =>
        (row ^^^ ((value >>> (8 * i)) &&& 0xFF#64)) * fnvPrime) rows values) rows)
    (List.replicate n fnvOffset)

/-- `reference_digest`. -/
def referenceDigest (seed cipher n rounds : ℕ) : ℕ :=
  let matrix := (numpyRound n)^[rounds] (numpyStart (seedState seed cipher) n)
  let rows := (numpyRows n matrix).map BitVec.toNat
  foldTail (rows.foldl fnvU64 0xCBF29CE484222325) seed cipher n rounds

/-! ## Without numpy -/

/-- One round: the list of cells after it. -/
def vectorRound (n : ℕ) (rows : List ℕ) : Option (List ℕ) :=
  scatter (fun (i, j) => do
    let row := (rows.drop (i * n)).take n
    let acc ← (List.range n).foldlM (fun acc k => do
      return acc + (← load row k) * (← load rows (k * n + j))) 0
    return [(i * n + j, acc &&& mask32)]) (allCells n) (List.replicate (n * n) 0)

/-- `digest` of `scripts/challenge_vector.py` when numpy cannot be imported; `none` would be an
`IndexError`. -/
def vectorDigest (seed cipher n rounds : ℕ) : Option ℕ := do
  let state := seedState seed cipher
  let rows := (List.range (n * n)).map (element state)
  let rows ← (List.range rounds).foldlM (fun rows _ => vectorRound n rows) rows
  let folded ← (List.range n).foldlM (fun folded i => do
    let h ← (List.range n).foldlM (fun h j => do return fnvU32 h (← load rows (i * n + j)))
      0xCBF29CE484222325
    return fnvU64 folded h) 0xCBF29CE484222325
  return foldTail folded seed cipher n rounds

/-! ## What the validator expects -/

/-- The verify library on the validator. -/
inductive VerifyLibrary
  /-- There is no such file. -/
  | absent
  /-- Loading it raises an `OSError`. -/
  | unloadable (path error : String)
  /-- It loads, and its calls of `malloc` go as the heap says. -/
  | installed (heap : Heap)

/-- Where an expected digest comes from. -/
inductive DigestOrigin
  | library
  | reference
  deriving DecidableEq, Repr

/-- `library_digest` of a library that loads; the error is the text of `ChallengeUnavailable`. The
arguments are converted to the C types of the parameters. -/
def libraryDigest (heap : Heap) (seed cipher n rounds : ℕ) : Option (Except String ℕ) := do
  match ← Reference.mtChallengeSolve heap (BitVec.ofNat 64 seed) (BitVec.ofNat 64 cipher)
      (n % 2 ^ 32) (rounds % 2 ^ 32) with
  | .error code =>
    return .error ("verify library failed with " ++ toString code.value ++ ": " ++
      Reference.lastError code)
  | .ok digest => return .ok digest.toNat

/-- `expected_digest`. -/
def expectedDigest (library : VerifyLibrary) (seed cipher n rounds : ℕ) :
    Option (Except String (ℕ × DigestOrigin)) :=
  match library with
  | .absent => some (.ok (referenceDigest seed cipher n rounds, .reference))
  | .unloadable path error => some (.error ("cannot load " ++ path ++ ": " ++ error))
  | .installed heap =>
    (libraryDigest heap seed cipher n rounds).map fun result => result.map (·, .library)

/-! ## The scalar functions -/

theorem and_mask64 (x : ℕ) : x &&& mask64 = x % 2 ^ 64 := by
  have hmask : mask64 = 2 ^ 64 - 1 := by rw [mask64, Nat.one_shiftLeft]
  rw [hmask, Nat.and_two_pow_sub_one_eq_mod]

theorem and_mask32 (x : ℕ) : x &&& mask32 = x % 2 ^ 32 := by
  have hmask : mask32 = 2 ^ 32 - 1 := by rw [mask32, Nat.one_shiftLeft]
  rw [hmask, Nat.and_two_pow_sub_one_eq_mod]

/-- A constant that fits its word. -/
theorem toNat_const {w c : ℕ} (hc : c < 2 ^ w) : (BitVec.ofNat w c).toNat = c := by
  rw [BitVec.toNat_ofNat, Nat.mod_eq_of_lt hc]

/-- A multiplication round of the mixer, masked or on words. -/
theorem mixRound_toNat (z : BitVec 64) (s : ℕ) {c : ℕ} (hc : c < 2 ^ 64) :
    ((z.toNat ^^^ (z.toNat >>> s)) * c) &&& mask64 =
      ((z ^^^ (z >>> s)) * BitVec.ofNat 64 c).toNat := by
  rw [and_mask64, BitVec.toNat_mul, BitVec.toNat_xor, BitVec.toNat_ushiftRight,
    toNat_const hc]

theorem mix64_toNat (z : BitVec 64) : mix64 z.toNat = (mtMix64 z).toNat := by
  rw [mix64, mixRound_toNat z 30 (by decide), mixRound_toNat _ 27 (by decide), mtMix64,
    BitVec.toNat_xor, BitVec.toNat_ushiftRight]

theorem golden_toNat : golden.toNat = 0x9E3779B97F4A7C15 :=
  toNat_const (by decide)

/-- Masked integers mix the seed as 64-bit words do. -/
theorem seedState_toNat (seed cipher : BitVec 64) :
    seedState seed.toNat cipher.toNat = (mtSeedState seed cipher).toNat := by
  have hseed : seed.toNat ^^^ 0xA5A5A5A5A5A5A5A5 = (seed ^^^ 0xA5A5A5A5A5A5A5A5#64).toNat := by
    rw [BitVec.toNat_xor, toNat_const (by decide)]
  have hcipher : (cipher.toNat * 0x9E3779B97F4A7C15) &&& mask64 = (cipher * golden).toNat := by
    rw [and_mask64, BitVec.toNat_mul, golden_toNat]
  rw [seedState, hseed, hcipher, mix64_toNat, mix64_toNat, and_mask64, mtSeedState,
    BitVec.toNat_add]

/-- An element of the first matrix, in masked integers. -/
theorem element_toNat (state : BitVec 64) (k : ℕ) :
    element state.toNat k = (mtElement state (BitVec.ofNat 64 k)).toNat := by
  have hindex : (state.toNat + (k + 1) * 0x9E3779B97F4A7C15) &&& mask64 =
      (state + (BitVec.ofNat 64 k + 1#64) * golden).toNat := by
    rw [and_mask64, BitVec.toNat_add, BitVec.toNat_mul, golden_toNat, BitVec.toNat_add,
      BitVec.toNat_ofNat, BitVec.toNat_one (by decide), Nat.mod_add_mod, Nat.mod_mul_mod,
      Nat.add_mod_mod]
  have hlow (x : ℕ) : (x &&& 0xFFFFFFFF) % 2 ^ 32 = x % 2 ^ 32 := by
    have hmask : x &&& 0xFFFFFFFF = x % 2 ^ 32 := Nat.and_two_pow_sub_one_eq_mod x 32
    rw [hmask, Nat.mod_mod]
  have hmask : (0xFFFFFFFF#64).toNat = 0xFFFFFFFF := toNat_const (by decide)
  rw [element, hindex, mix64_toNat, and_mask32, mtElement, BitVec.toNat_setWidth, BitVec.toNat_and,
    hmask, hlow]

/-- One byte of the hash, on integers and on words. -/
theorem fnvByte_toNat (hash byte : BitVec 64) {item i : ℕ}
    (hbyte : (item >>> (8 * i)) &&& 0xFF = byte.toNat) :
    fnvByte item hash.toNat i = ((hash ^^^ byte) * fnvPrime).toNat := by
  have hprime : fnvPrime.toNat = 0x100000001B3 := toNat_const (by decide)
  rw [fnvByte, hbyte, and_mask64, BitVec.toNat_mul, BitVec.toNat_xor, hprime]

/-- A byte of an element, in masked integers. -/
theorem toNat_byte32 (value : BitVec 32) (s : ℕ) :
    (value.toNat >>> s) &&& 0xFF = (((value >>> s) &&& 0xFF#32).setWidth 64).toNat := by
  have hle : (value.toNat >>> s) &&& 0xFF ≤ 0xFF := Nat.and_le_right
  have hff : (0xFF#32).toNat = 0xFF := toNat_const (by decide)
  rw [BitVec.toNat_setWidth, BitVec.toNat_and, BitVec.toNat_ushiftRight, hff,
    Nat.mod_eq_of_lt (by omega)]

theorem fnvU32_toNat (hash : BitVec 64) (value : BitVec 32) :
    fnvU32 hash.toNat value.toNat = (mtFnvU32 hash value).toNat :=
  List.foldl_hom BitVec.toNat fun h i => fnvByte_toNat h _ (toNat_byte32 value (8 * i))

theorem fnvU64_toNat (hash value : BitVec 64) :
    fnvU64 hash.toNat value.toNat = (mtFnvU64 hash value).toNat := by
  refine List.foldl_hom BitVec.toNat fun h i => fnvByte_toNat h _ ?_
  rw [BitVec.toNat_and, BitVec.toNat_ushiftRight, toNat_const (by decide)]

theorem fnvOffset_toNat : fnvOffset.toNat = 0xCBF29CE484222325 :=
  toNat_const (by decide)

/-- The end of the fold, for sizes that fit their word. -/
theorem foldTail_toNat (start seed cipher : BitVec 64) {n rounds : ℕ} (hn : n < 2 ^ 32)
    (hrounds : rounds < 2 ^ 32) :
    foldTail start.toNat seed.toNat cipher.toNat n rounds =
      (mtFnvU32 (mtFnvU32 (mtFnvU64 (mtFnvU64 start seed) cipher) (BitVec.ofNat 32 n))
        (BitVec.ofNat 32 rounds)).toNat := by
  have htail (d : BitVec 64) {m : ℕ} (hm : m < 2 ^ 32) :
      fnvU32 d.toNat m = (mtFnvU32 d (BitVec.ofNat 32 m)).toNat := by
    rw [← fnvU32_toNat, toNat_const hm]
  rw [foldTail, fnvU64_toNat, fnvU64_toNat, htail _ hn, htail _ hrounds]

/-! ## The numpy version -/

/-- The matrices agree on their leading `n` rows and columns. -/
def AgreeOn {R : Type*} (n : ℕ) (M N : ℕ → ℕ → R) : Prop :=
  ∀ i < n, ∀ j < n, M i j = N i j

/-- Squares agree where their factors do. -/
theorem AgreeOn.square {R : Type*} [Semiring R] {n : ℕ} {M N : ℕ → ℕ → R} (h : AgreeOn n M N) :
    AgreeOn n (square n M) (square n N) := by
  intro i hi j hj
  refine Finset.sum_congr rfl fun k hk => ?_
  rw [h i hi k (Finset.mem_range.mp hk), h k (Finset.mem_range.mp hk) j hj]

/-- So do repeated squares. -/
theorem AgreeOn.iterate_square {R : Type*} [Semiring R] {n : ℕ} {M N : ℕ → ℕ → R}
    (h : AgreeOn n M N) (rounds : ℕ) :
    AgreeOn n ((Challenge.square n)^[rounds] M) ((Challenge.square n)^[rounds] N) := by
  induction rounds with
  | zero => exact h
  | succ rounds ih =>
    rw [Function.iterate_succ_apply', Function.iterate_succ_apply']
    exact ih.square

theorem AgreeOn.rowHash {n : ℕ} {M N : ℕ → ℕ → BitVec 32} (h : AgreeOn n M N) {i : ℕ}
    (hi : i < n) : Challenge.rowHash n M i = Challenge.rowHash n N i := by
  refine List.foldl_ext _ _ _ fun d j hj => ?_
  rw [h i hi j (List.mem_range.mp hj)]

/-- The library for arrays makes the same first matrix. -/
theorem agreeOn_numpyStart (state : BitVec 64) (n : ℕ) :
    AgreeOn n (numpyStart state.toNat n) (startMatrix state n) := by
  intro i hi j hj
  have hcell := cell_lt hi hj
  have hindex : BitVec.ofNat 64 (i * n + j + 1) = BitVec.ofNat 64 (i * n + j) + 1#64 := by
    rw [BitVec.ofNat_add]
  simp only [numpyStart, reshape, List.map_map, List.getD_eq_getElem?_getD, List.getElem?_map,
    List.getElem?_range hcell, Option.map_some, Option.getD_some, Function.comp_apply,
    BitVec.ofNat_toNat, BitVec.setWidth_eq, hindex]
  rfl

/-- The sizes inside the guard fit a word. -/
theorem lt_of_argsOk {n rounds : ℕ} (h : argsOk n rounds) : n < 2 ^ 32 ∧ rounds < 2 ^ 32 := by
  simp only [argsOk, decide_eq_true_eq, not_or, not_lt] at h
  omega

/-- Keeping the low half of a word is a homomorphism. -/
def lowHalf : BitVec 64 →+* BitVec 32 where
  toFun x := x.setWidth 32
  map_one' := by decide
  map_mul' x y := BitVec.setWidth_mul x y (by decide)
  map_zero' := by decide
  map_add' x y := BitVec.setWidth_add x y (by decide)

/-- A product of 64-bit words cut to 32 bits is the product of the cut words. -/
theorem numpyRound_eq (n : ℕ) (M : ℕ → ℕ → BitVec 32) : numpyRound n M = square n M := by
  funext i j
  have hwide (x : BitVec 32) : lowHalf (x.setWidth 64) = x := by
    show (x.setWidth 64).setWidth 32 = x
    rw [BitVec.setWidth_setWidth_of_le x (by decide), BitVec.setWidth_eq]
  calc numpyRound n M i j = lowHalf (square n (fun i j => (M i j).setWidth 64) i j) := rfl
    _ = square n (fun i j => lowHalf ((M i j).setWidth 64)) i j := map_square lowHalf n _ i j
    _ = square n M i j := by simp only [hwide]

theorem zipWith_table {α β γ : Type*} (f : α → β → γ) (n : ℕ) (g : ℕ → α) (h : ℕ → β) :
    List.zipWith f (table n g) (table n h) = table n fun i => f (g i) (h i) := by
  simp [table, List.zipWith_map, List.zipWith_self]

/-- Steps that update all rows at once update each of them in the same way. -/
theorem foldl_table {ι α : Type*} {n : ℕ} {step : List α → ι → List α} {f : ι → ℕ → α → α}
    (hstep : ∀ g item, step (table n g) item = table n fun i => f item i (g i)) (items : List ι)
    (g : ℕ → α) :
    items.foldl step (table n g) =
      table n fun i => items.foldl (fun row item => f item i row) (g i) := by
  induction items generalizing g with
  | nil => rfl
  | cons item items ih =>
    rw [List.foldl_cons, hstep, ih]
    rfl

/-- A byte of the word as numpy takes it, after widening. -/
theorem byte_setWidth (value : BitVec 32) (s : ℕ) :
    (value.setWidth 64 >>> s) &&& 0xFF#64 = ((value >>> s) &&& 0xFF#32).setWidth 64 := by
  have hlt : value.toNat < 2 ^ 64 := lt_of_lt_of_le value.isLt (by decide)
  apply BitVec.eq_of_toNat_eq
  rw [← toNat_byte32, BitVec.toNat_and, BitVec.toNat_ushiftRight, BitVec.toNat_setWidth,
    Nat.mod_eq_of_lt hlt, toNat_const (by decide)]

/-- Hashing all rows column by column hashes each row. -/
theorem numpyRows_eq (n : ℕ) (M : ℕ → ℕ → BitVec 32) : numpyRows n M = table n (rowHash n M) := by
  have hstart : List.replicate n fnvOffset = table n fun _ => fnvOffset := by
    rw [table, List.map_const', List.length_range]
  rw [numpyRows, hstart]
  refine foldl_table (f := fun column i row => mtFnvU32 row (M i column)) (fun g column => ?_) _ _
  refine foldl_table (f := fun b i row => (row ^^^ ((M i column >>> (8 * b)) &&& 0xFF#32).setWidth
    64) * fnvPrime) (fun g b => ?_) _ _
  rw [zipWith_table]
  simp only [byte_setWidth]

/-- The numpy version computes the digest of the challenge. -/
theorem referenceDigest_eq (seed cipher : BitVec 64) {n rounds : ℕ} (hargs : argsOk n rounds) :
    referenceDigest seed.toNat cipher.toNat n rounds = (digest seed cipher n rounds).toNat := by
  obtain ⟨hn, hrounds⟩ := lt_of_argsOk hargs
  have hround : numpyRound n = square n := funext (numpyRound_eq n)
  -- the cells of the arrays stay those of the matrices, round after round
  have hfinal : AgreeOn n ((numpyRound n)^[rounds] (numpyStart (mtSeedState seed cipher).toNat n))
      (finalMatrix seed cipher n rounds) := by
    rw [hround]
    exact (agreeOn_numpyStart _ n).iterate_square rounds
  have hrows :
      numpyRows n ((numpyRound n)^[rounds] (numpyStart (mtSeedState seed cipher).toNat n)) =
      table n (rowHash n (finalMatrix seed cipher n rounds)) := by
    rw [numpyRows_eq]
    exact List.map_congr_left fun i hi => hfinal.rowHash (List.mem_range.mp hi)
  rw [referenceDigest, seedState_toNat]
  -- `numpy` folds natural numbers, the digest words; each step agrees
  rw [hrows, List.foldl_map, ← fnvOffset_toNat,
    List.foldl_hom BitVec.toNat fun d v => fnvU64_toNat d v, foldTail_toNat _ _ _ hn hrounds, table,
    List.foldl_map, digest, foldDigest]

/-! ## The version without numpy -/

/-- The matrix as a list of integers. -/
def natCells (n : ℕ) (M : ℕ → ℕ → BitVec 32) : List ℕ :=
  flat n fun i j => (M i j).toNat

theorem load_natCells {n i j : ℕ} (M : ℕ → ℕ → BitVec 32) (hi : i < n) (hj : j < n) :
    load (natCells n M) (i * n + j) = some (M i j).toNat :=
  load_flat_cell _ hi hj

theorem load_row {n i k : ℕ} (M : ℕ → ℕ → BitVec 32) (hi : i < n) (hk : k < n) :
    load (((natCells n M).drop (i * n)).take n) k = some (M i k).toNat := by
  rw [load, List.getElem?_take_of_lt hk, List.getElem?_drop]
  exact load_natCells M hi hk

/-- A sum of products of integers, masked once, is the sum of the products of the words. -/
theorem sum_and_mask32 (n : ℕ) (M : ℕ → ℕ → BitVec 32) (i j : ℕ) :
    (∑ k ∈ Finset.range n, (M i k).toNat * (M k j).toNat) &&& mask32 = (square n M i j).toNat := by
  have hcast (x : BitVec 32) : ((x.toNat : ℕ) : BitVec 32) = x := by
    rw [BitVec.natCast_eq_ofNat, BitVec.ofNat_toNat, BitVec.setWidth_eq]
  have hsum : ((∑ k ∈ Finset.range n, (M i k).toNat * (M k j).toNat : ℕ) : BitVec 32) =
      square n M i j := by
    rw [← Nat.coe_castRingHom, map_sum, square]
    refine Finset.sum_congr rfl fun k _ => ?_
    rw [map_mul, Nat.coe_castRingHom, hcast, hcast]
  rw [and_mask32, ← hsum, BitVec.natCast_eq_ofNat, BitVec.toNat_ofNat]

/-- A round on lists of integers is the square: the masks take the sums modulo 2^32. -/
theorem vectorRound_natCells (n : ℕ) (M : ℕ → ℕ → BitVec 32) :
    vectorRound n (natCells n M) = some (natCells n (square n M)) := by
  refine scatter_eq (fun cell => [(cell.1 * n + cell.2, (square n M cell.1 cell.2).toNat)])
    List.length_replicate ?_ ?_
  · rintro ⟨i, j⟩ hcell
    simp only [allCells, List.pair_mem_product, List.mem_range] at hcell
    -- a cell adds up its row times its column, and is cut to 32 bits at the end
    have hloop : (List.range n).foldlM (fun acc k => do
        return acc + (← load (((natCells n M).drop (i * n)).take n) k) *
          (← load (natCells n M) (k * n + j))) 0 =
        some (∑ k ∈ Finset.range n, (M i k).toNat * (M k j).toNat) := by
      rw [foldlM_eq_some 0 (f := fun acc k => acc + (M i k).toNat * (M k j).toNat),
        foldl_add_eq_sum, zero_add]
      intro acc k hk
      rw [load_row M hcell.1 (List.mem_range.mp hk), load_natCells M (List.mem_range.mp hk) hcell.2]
      rfl
    refine ⟨?_, fun w hw => ?_⟩
    · dsimp only
      rw [hloop, Option.bind_eq_bind, Option.bind_some, sum_and_mask32]
      rfl
    · rw [List.mem_singleton.mp hw]
      exact ⟨cell_lt hcell.1 hcell.2, by rw [cell_div hcell.2, cell_mod hcell.2]⟩
  -- every cell is written, by its own row and column
  · intro k hk
    obtain ⟨hi, hj⟩ := exists_cell hk
    refine ⟨(k / n, k % n), ?_, ?_⟩
    · simp only [allCells, List.pair_mem_product, List.mem_range]
      exact ⟨hi, hj⟩
    · rw [List.map_singleton, List.mem_singleton, Nat.div_add_mod']

/-- All rounds, by induction on their number. -/
theorem vectorRounds_natCells (n : ℕ) (M : ℕ → ℕ → BitVec 32) (rounds : ℕ) :
    (List.range rounds).foldlM (fun rows _ => vectorRound n rows) (natCells n M) =
      some (natCells n ((square n)^[rounds] M)) := by
  induction rounds with
  | zero => rfl
  | succ rounds ih =>
    rw [List.range_succ, List.foldlM_append, ih, Function.iterate_succ_apply', Option.bind_eq_bind,
      Option.bind_some, List.foldlM_cons, vectorRound_natCells]
    rfl

/-- The first matrix, row by row. -/
theorem map_element (state : BitVec 64) (n : ℕ) :
    (List.range (n * n)).map (element state.toNat) = natCells n (startMatrix state n) := by
  refine List.map_congr_left fun k _ => ?_
  show element state.toNat k = (startMatrix state n (k / n) (k % n)).toNat
  rw [element_toNat, startMatrix, Nat.div_add_mod']

/-- The version without numpy computes the digest of the challenge. -/
theorem vectorDigest_eq (seed cipher : BitVec 64) {n rounds : ℕ} (hargs : argsOk n rounds) :
    vectorDigest seed.toNat cipher.toNat n rounds = some (digest seed cipher n rounds).toNat := by
  obtain ⟨hn, hrounds⟩ := lt_of_argsOk hargs
  set M := finalMatrix seed cipher n rounds with hM
  -- a row is hashed cell by cell, and no load is out of range
  have hrow (i : ℕ) (hi : i < n) : (List.range n).foldlM (fun h j => do
      return fnvU32 h (← load (natCells n M) (i * n + j))) 0xCBF29CE484222325 =
        some (rowHash n M i).toNat := by
    rw [foldlM_eq_some _ (f := fun h j => fnvU32 h (M i j).toNat), ← fnvOffset_toNat,
      List.foldl_hom BitVec.toNat fun h j => fnvU32_toNat h (M i j), rowHash]
    intro h j hj
    rw [load_natCells M hi (List.mem_range.mp hj)]
    rfl
  -- then the digest of the rows
  have hfold : (List.range n).foldlM (fun folded i => do
      let h ← (List.range n).foldlM (fun h j => do
        return fnvU32 h (← load (natCells n M) (i * n + j))) 0xCBF29CE484222325
      return fnvU64 folded h) 0xCBF29CE484222325 =
        some ((List.range n).foldl (fun d i => mtFnvU64 d (rowHash n M i)) fnvOffset).toNat := by
    rw [foldlM_eq_some _ (f := fun d i => fnvU64 d (rowHash n M i).toNat), ← fnvOffset_toNat,
      List.foldl_hom BitVec.toNat fun d i => fnvU64_toNat d (rowHash n M i)]
    intro d i hi
    rw [hrow i (List.mem_range.mp hi)]
    rfl
  rw [vectorDigest, seedState_toNat, map_element, vectorRounds_natCells, Option.bind_eq_bind,
    Option.bind_some, ← finalMatrix, ← hM, hfold, Option.bind_eq_bind, Option.bind_some,
    foldTail_toNat _ _ _ hn hrounds, digest, foldDigest]
  rfl

/-- The library computes the digest of the challenge. -/
theorem libraryDigest_eq {heap : Heap} (hheap : heap.allocated) (seed cipher : BitVec 64)
    {n rounds : ℕ} (hargs : argsOk n rounds) :
    libraryDigest heap seed.toNat cipher.toNat n rounds =
      some (.ok (digest seed cipher n rounds).toNat) := by
  obtain ⟨hn, hrounds⟩ := lt_of_argsOk hargs
  rw [libraryDigest, BitVec.ofNat_toNat, BitVec.ofNat_toNat, BitVec.setWidth_eq,
    BitVec.setWidth_eq, Nat.mod_eq_of_lt hn, Nat.mod_eq_of_lt hrounds,
    Reference.mtChallengeSolve_eq hheap seed cipher hargs]
  rfl

/-- **The implementations agree.** For every 64-bit seed and cipher and all sizes inside the guard
of the library, the reference build, the numpy version and the version without numpy compute the
same number, and so the digest the validator expects is the same with and without the compiled
library. -/
theorem digests_agree {heap : Heap} (hheap : heap.allocated) (seed cipher : BitVec 64)
    {n rounds : ℕ} (hn : 8 ≤ n ∧ n ≤ 4096) (hrounds : 1 ≤ rounds ∧ rounds ≤ 16) :
    ∃ d : BitVec 64,
      Reference.mtChallengeSolve heap seed cipher n rounds = some (.ok d) ∧
      referenceDigest seed.toNat cipher.toNat n rounds = d.toNat ∧
      vectorDigest seed.toNat cipher.toNat n rounds = some d.toNat ∧
      expectedDigest (.installed heap) seed.toNat cipher.toNat n rounds =
        some (.ok (d.toNat, .library)) ∧
      expectedDigest .absent seed.toNat cipher.toNat n rounds =
        some (.ok (d.toNat, .reference)) := by
  -- sizes within the bounds are accepted by every one of them
  have hargs : argsOk n rounds := by
    simp only [argsOk, decide_eq_true_eq]
    omega
  refine ⟨digest seed cipher n rounds, Reference.mtChallengeSolve_eq hheap seed cipher hargs,
    referenceDigest_eq seed cipher hargs, vectorDigest_eq seed cipher hargs, ?_, ?_⟩
  · rw [expectedDigest, libraryDigest_eq hheap seed cipher hargs]
    rfl
  · rw [expectedDigest, referenceDigest_eq seed cipher hargs]

/-- A heap full of zeros. -/
def zeroHeap : Heap where
  a _ := 0#32
  c _ := 0#32
  rows _ := 0#64

theorem digests_agree_smallest :
    ∃ d : BitVec 64, Reference.mtChallengeSolve zeroHeap 1#64 2#64 8 1 = some (.ok d) ∧
      referenceDigest 1 2 8 1 = d.toNat := by
  obtain ⟨d, hc, hnumpy, -⟩ := @digests_agree zeroHeap rfl 1#64 2#64 8 1 (by decide) (by decide)
  exact ⟨d, hc, hnumpy⟩

end Python

end ComputePool.Challenge
