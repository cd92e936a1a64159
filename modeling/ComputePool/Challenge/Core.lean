import Mathlib.Data.BitVec
import ComputePool.Foundations.Buffer

/-!
# The arithmetic of the challenge

`challenge/src/core.h` on machine words, and what the challenge computes: a square matrix of
pseudo-random words is squared a number of times modulo `2 ^ 32`, the rows of the result are
hashed, and the hashes are folded into one digest.

`square` is the abstract operation, over any semiring. It commutes with homomorphisms
(`map_square`), which is why the implementations may reduce at different moduli and times.
-/

namespace ComputePool.Challenge

open Buffer

/-! ## core.h -/

/-- `MT_GOLDEN`. -/
def golden : BitVec 64 := 0x9E3779B97F4A7C15#64

/-- `MT_FNV_OFFSET`. -/
def fnvOffset : BitVec 64 := 0xcbf29ce484222325#64

/-- `MT_FNV_PRIME`. -/
def fnvPrime : BitVec 64 := 0x100000001b3#64

/-- `mt_mix64`. -/
def mtMix64 (z : BitVec 64) : BitVec 64 :=
  let z := (z ^^^ (z >>> 30)) * 0xBF58476D1CE4E5B9#64
  let z := (z ^^^ (z >>> 27)) * 0x94D049BB133111EB#64
  z ^^^ (z >>> 31)

/-- `mt_seed_state`. -/
def mtSeedState (seed cipher : BitVec 64) : BitVec 64 :=
  mtMix64 (seed ^^^ 0xA5A5A5A5A5A5A5A5#64) + mtMix64 (cipher * golden)

/-- `mt_element`. -/
def mtElement (state index : BitVec 64) : BitVec 32 :=
  (mtMix64 (state + (index + 1#64) * golden) &&& 0xFFFFFFFF#64).setWidth 32

/-- `mt_fnv_u32`. -/
def mtFnvU32 (hash : BitVec 64) (value : BitVec 32) : BitVec 64 :=
  (List.range 4).foldl
    (fun hash i => (hash ^^^ ((value >>> (8 * i)) &&& 0xFF#32).setWidth 64) * fnvPrime) hash

/-- `mt_fnv_u64`. -/
def mtFnvU64 (hash value : BitVec 64) : BitVec 64 :=
  (List.range 8).foldl (fun hash i => (hash ^^^ ((value >>> (8 * i)) &&& 0xFF#64)) * fnvPrime) hash

/-- `mt_fold_digest`, reading the row hashes from their buffer. -/
def mtFoldDigest (rowHashes : List (BitVec 64)) (n : ℕ) (seed cipher : BitVec 64) (rounds : ℕ) :
    Option (BitVec 64) := do
  let digest ← (List.range n).foldlM
    (fun digest i => do return mtFnvU64 digest (← load rowHashes i)) fnvOffset
  let digest := mtFnvU64 digest seed
  let digest := mtFnvU64 digest cipher
  let digest := mtFnvU32 digest (BitVec.ofNat 32 n)
  return mtFnvU32 digest (BitVec.ofNat 32 rounds)

/-- The codes `mt_challenge_solve` returns. -/
inductive Code
  | args
  | alloc
  | device
  deriving DecidableEq, Repr

/-- The value of a code in `challenge.h`. -/
def Code.value : Code → ℤ
  | .args => -1
  | .alloc => -2
  | .device => -5

/-! ## What the challenge computes -/

/-- The square of the leading `n` rows and columns of a matrix. -/
def square {R : Type*} [Semiring R] (n : ℕ) (M : ℕ → ℕ → R) (i j : ℕ) : R :=
  ∑ k ∈ Finset.range n, M i k * M k j

/-- Squaring commutes with a homomorphism of semirings. -/
theorem map_square {R S : Type*} [Semiring R] [Semiring S] (f : R →+* S) (n : ℕ) (M : ℕ → ℕ → R)
    (i j : ℕ) : f (square n M i j) = square n (fun i j => f (M i j)) i j := by
  simp [square]

/-- The matrix a challenge starts from. -/
def startMatrix (state : BitVec 64) (n i j : ℕ) : BitVec 32 :=
  mtElement state (BitVec.ofNat 64 (i * n + j))

/-- The matrix after the rounds of squaring. -/
def finalMatrix (seed cipher : BitVec 64) (n rounds : ℕ) : ℕ → ℕ → BitVec 32 :=
  (square n)^[rounds] (startMatrix (mtSeedState seed cipher) n)

/-- The hash of a row. -/
def rowHash (n : ℕ) (M : ℕ → ℕ → BitVec 32) (i : ℕ) : BitVec 64 :=
  (List.range n).foldl (fun h j => mtFnvU32 h (M i j)) fnvOffset

/-- The digest of the row hashes. -/
def foldDigest (rows : ℕ → BitVec 64) (n : ℕ) (seed cipher : BitVec 64) (rounds : ℕ) :
    BitVec 64 :=
  let digest := (List.range n).foldl (fun digest i => mtFnvU64 digest (rows i)) fnvOffset
  let digest := mtFnvU64 (mtFnvU64 digest seed) cipher
  mtFnvU32 (mtFnvU32 digest (BitVec.ofNat 32 n)) (BitVec.ofNat 32 rounds)

/-- The answer to a challenge. -/
def digest (seed cipher : BitVec 64) (n rounds : ℕ) : BitVec 64 :=
  foldDigest (rowHash n (finalMatrix seed cipher n rounds)) n seed cipher rounds

/-- Folding reads inside the buffer of the row hashes. -/
theorem mtFoldDigest_table (rows : ℕ → BitVec 64) (n : ℕ) (seed cipher : BitVec 64)
    (rounds : ℕ) :
    mtFoldDigest (table n rows) n seed cipher rounds =
      some (foldDigest rows n seed cipher rounds) := by
  have hloop : (List.range n).foldlM
      (fun digest i => do return mtFnvU64 digest (← load (table n rows) i)) fnvOffset =
        some ((List.range n).foldl (fun digest i => mtFnvU64 digest (rows i)) fnvOffset) := by
    refine foldlM_eq_some _ fun d i hi => ?_
    rw [load_table rows (List.mem_range.mp hi)]
    rfl
  rw [mtFoldDigest, hloop]
  rfl

/-! ## Matrices in buffers -/

/-- The index of a cell, computed in a 64-bit `size_t`. -/
def cellIndex (n i j : ℕ) : ℕ :=
  ((i * n) % 2 ^ 64 + j) % 2 ^ 64

/-- The buffer that holds the leading `n` rows and columns of a matrix, row by row. -/
def flat {α : Type*} (n : ℕ) (M : ℕ → ℕ → α) : List α :=
  table (n * n) fun k => M (k / n) (k % n)

theorem cell_lt {n i j : ℕ} (hi : i < n) (hj : j < n) : i * n + j < n * n := by
  calc i * n + j < i * n + n := by omega
    _ = (i + 1) * n := by rw [Nat.succ_mul]
    _ ≤ n * n := Nat.mul_le_mul_right n hi

theorem cell_div {n i j : ℕ} (hj : j < n) : (i * n + j) / n = i := by
  rw [Nat.add_comm, Nat.add_mul_div_right j i (by omega), Nat.div_eq_of_lt hj, Nat.zero_add]

theorem cell_mod {n i j : ℕ} (hj : j < n) : (i * n + j) % n = j := by
  rw [Nat.add_comm, Nat.add_mul_mod_self_right, Nat.mod_eq_of_lt hj]

/-- The index of a cell does not wrap for the sizes the challenge allows. -/
theorem cellIndex_eq {n i j : ℕ} (hn : n ≤ 4096) (hi : i < n) (hj : j < n) :
    cellIndex n i j = i * n + j := by
  have hcell := cell_lt hi hj
  have hsize : n * n ≤ 4096 * 4096 := Nat.mul_le_mul hn hn
  rw [cellIndex, Nat.mod_eq_of_lt (by omega), Nat.mod_eq_of_lt (by omega)]

theorem load_flat_cell {α : Type*} {n i j : ℕ} (M : ℕ → ℕ → α) (hi : i < n) (hj : j < n) :
    load (flat n M) (i * n + j) = some (M i j) := by
  rw [flat, load_table _ (cell_lt hi hj), cell_div hj, cell_mod hj]

theorem load_flat {α : Type*} {n i j : ℕ} (M : ℕ → ℕ → α) (hn : n ≤ 4096) (hi : i < n)
    (hj : j < n) : load (flat n M) (cellIndex n i j) = some (M i j) := by
  rw [cellIndex_eq hn hi hj, load_flat_cell M hi hj]

/-- Every cell of the buffer belongs to a row and a column. -/
theorem exists_cell {n k : ℕ} (hk : k < n * n) : k / n < n ∧ k % n < n := by
  have hpos : 0 < n := by
    rcases Nat.eq_zero_or_pos n with rfl | h
    · simp at hk
    · exact h
  exact ⟨Nat.div_lt_of_lt_mul hk, Nat.mod_lt k hpos⟩

end ComputePool.Challenge
