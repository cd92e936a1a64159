import ComputePool.Challenge.Core

/-!
# The reference build

`mt_challenge_solve` of `challenge/src/reference.c`, loop by loop over its three buffers. The
buffers come from `malloc` with arbitrary contents, and every access to them is checked. The
pointer for the digest is the result.

* `mtChallengeSolve_eq`: inside the guard the function returns the digest of the challenge and
  never leaves its buffers.
-/

namespace ComputePool.Challenge

open Buffer

/-- What `malloc` returns: whether all three allocations succeed, and what the memory holds. -/
structure Heap where
  allocated : Bool := true
  a : ℕ → BitVec 32
  c : ℕ → BitVec 32
  rows : ℕ → BitVec 64

/-- The guard on the arguments, the same in both builds. -/
def argsOk (n rounds : ℕ) : Bool :=
  ¬ (n < 8 ∨ 4096 < n ∨ rounds < 1 ∨ 16 < rounds)

/-- All cells of an `n` by `n` matrix, row by row. -/
def allCells (n : ℕ) : List (ℕ × ℕ) :=
  (List.range n).product (List.range n)

/-- Rounds that write the next matrix from one buffer into the other, after which the buffers
change places. -/
def swapRounds (into : List (BitVec 32) → List (BitVec 32) → Option (List (BitVec 32)))
    (rounds : ℕ) (a c : List (BitVec 32)) : Option (List (BitVec 32) × List (BitVec 32)) :=
  (List.range rounds).foldlM (fun (a, c) _ => do return (← into a c, a)) (a, c)

namespace Reference

/-- The loop that fills the first matrix. -/
def fill (a : List (BitVec 32)) (state : BitVec 64) (cells : ℕ) : Option (List (BitVec 32)) :=
  scatter (fun k => some [(k, mtElement state (BitVec.ofNat 64 k))]) (List.range cells) a

/-- The innermost loop of a round: a row times a column. -/
def dot (a : List (BitVec 32)) (n i j : ℕ) : Option (BitVec 32) :=
  (List.range n).foldlM (fun acc k => do
    let left ← load a (cellIndex n i k)
    let right ← load a (cellIndex n k j)
    return acc + left * right) 0

/-- The two outer loops of a round: the square of `a` is written to `c`. -/
def squareInto (a c : List (BitVec 32)) (n : ℕ) : Option (List (BitVec 32)) :=
  scatter (fun (i, j) => do return [(cellIndex n i j, ← dot a n i j)]) (allCells n) c

/-- The hash of a row of the buffer. -/
def hashRow (a : List (BitVec 32)) (n i : ℕ) : Option (BitVec 64) :=
  (List.range n).foldlM (fun h j => do return mtFnvU32 h (← load a (cellIndex n i j))) fnvOffset

/-- The loop that hashes the rows. -/
def hashRows (a : List (BitVec 32)) (rows : List (BitVec 64)) (n : ℕ) :
    Option (List (BitVec 64)) :=
  scatter (fun i => do return [(i, ← hashRow a n i)]) (List.range n) rows

/-- `mt_challenge_solve`; `none` would be an access outside of a buffer. -/
def mtChallengeSolve (heap : Heap) (seed cipher : BitVec 64) (n rounds : ℕ) :
    Option (Except Code (BitVec 64)) :=
  if !argsOk n rounds then some (.error .args)
  else
    if !heap.allocated then some (.error .alloc)
    else do
      let cells := n * n
      let a ← fill (table cells heap.a) (mtSeedState seed cipher) cells
      let (a, _) ← swapRounds (squareInto · · n) rounds a (table cells heap.c)
      let rows ← hashRows a (table n heap.rows) n
      return .ok (← mtFoldDigest rows n seed cipher rounds)

/-- `mt_challenge_last_error` after a code of the reference build. -/
def lastError : Code → String
  | .args => "bad arguments"
  | .alloc => "allocation failed"
  | .device => ""

/-! ## What the loops compute -/

/-- A row times a column, with every index in bounds. -/
theorem dot_flat {n i j : ℕ} (M : ℕ → ℕ → BitVec 32) (hn : n ≤ 4096) (hi : i < n) (hj : j < n) :
    dot (flat n M) n i j = some (square n M i j) := by
  have hbody : ∀ acc, ∀ k ∈ List.range n,
      (do
        let left ← load (flat n M) (cellIndex n i k)
        let right ← load (flat n M) (cellIndex n k j)
        return acc + left * right : Option (BitVec 32)) = some (acc + M i k * M k j) := by
    intro acc k hk
    rw [load_flat M hn hi (List.mem_range.mp hk), load_flat M hn (List.mem_range.mp hk) hj]
    rfl
  rw [dot, foldlM_eq_some 0 hbody, foldl_add_eq_sum, zero_add]
  rfl

/-- The two loops of a squaring write every entry once. -/
theorem squareInto_flat {n : ℕ} (M : ℕ → ℕ → BitVec 32) {c : List (BitVec 32)} (hn : n ≤ 4096)
    (hc : c.length = n * n) : squareInto (flat n M) c n = some (flat n (square n M)) := by
  refine scatter_eq (fun cell => [(cellIndex n cell.1 cell.2, square n M cell.1 cell.2)]) hc ?_ ?_
  · rintro ⟨i, j⟩ hcell
    simp only [allCells, List.pair_mem_product, List.mem_range] at hcell
    refine ⟨by simp only [dot_flat M hn hcell.1 hcell.2]; rfl, fun w hw => ?_⟩
    rw [List.mem_singleton.mp hw, cellIndex_eq hn hcell.1 hcell.2]
    exact ⟨cell_lt hcell.1 hcell.2, by rw [cell_div hcell.2, cell_mod hcell.2]⟩
  · intro k hk
    obtain ⟨hi, hj⟩ := exists_cell hk
    refine ⟨(k / n, k % n), ?_, ?_⟩
    · simp only [allCells, List.pair_mem_product, List.mem_range]
      exact ⟨hi, hj⟩
    · rw [List.map_singleton, List.mem_singleton, cellIndex_eq hn hi hj, Nat.div_add_mod']

/-- The hash of a row, with every index in bounds. -/
theorem hashRow_flat {n i : ℕ} (M : ℕ → ℕ → BitVec 32) (hn : n ≤ 4096) (hi : i < n) :
    hashRow (flat n M) n i = some (rowHash n M i) := by
  refine foldlM_eq_some _ fun h j hj => ?_
  rw [load_flat M hn hi (List.mem_range.mp hj)]
  rfl

/-- The hashes of all rows. -/
theorem hashRows_flat {n : ℕ} (M : ℕ → ℕ → BitVec 32) {rows : List (BitVec 64)} (hn : n ≤ 4096)
    (hrows : rows.length = n) : hashRows (flat n M) rows n = some (table n (rowHash n M)) := by
  refine scatter_eq (fun i => [(i, rowHash n M i)]) hrows (fun i hi => ⟨?_, fun w hw => ?_⟩)
    fun i hi => ⟨i, List.mem_range.mpr hi, by simp⟩
  · rw [hashRow_flat M hn (List.mem_range.mp hi)]
    rfl
  · rw [List.mem_singleton.mp hw]
    exact ⟨List.mem_range.mp hi, rfl⟩

end Reference

/-- The buffer with every element in its place holds the matrix the challenge starts from. -/
theorem table_mtElement (state : BitVec 64) (n : ℕ) :
    table (n * n) (fun k => mtElement state (BitVec.ofNat 64 k)) =
      flat n (startMatrix state n) := by
  have hcell : (fun k => mtElement state (BitVec.ofNat 64 k)) =
      fun k => startMatrix state n (k / n) (k % n) := by
    funext k
    rw [startMatrix, Nat.div_add_mod']
  rw [hcell, flat]

/-- The loop that fills the matrix. -/
theorem Reference.fill_eq {a : List (BitVec 32)} {n : ℕ} (ha : a.length = n * n)
    (state : BitVec 64) : fill a state (n * n) = some (flat n (startMatrix state n)) := by
  rw [← table_mtElement]
  refine scatter_eq (fun k => [(k, mtElement state (BitVec.ofNat 64 k))]) ha
    (fun k hk => ⟨rfl, fun w hw => ?_⟩) fun k hk => ⟨k, List.mem_range.mpr hk, by simp⟩
  rw [List.mem_singleton.mp hw]
  exact ⟨List.mem_range.mp hk, rfl⟩

/-- When each round squares the matrix, the rounds end in the iterated square, whichever buffer
that is in. -/
theorem swapRounds_flat {n : ℕ}
    (into : List (BitVec 32) → List (BitVec 32) → Option (List (BitVec 32)))
    (hinto : ∀ M c, c.length = n * n → into (flat n M) c = some (flat n (square n M)))
    (M : ℕ → ℕ → BitVec 32) {c : List (BitVec 32)} (hc : c.length = n * n) (rounds : ℕ) :
    ∃ c', c'.length = n * n ∧
      swapRounds into rounds (flat n M) c = some (flat n ((square n)^[rounds] M), c') := by
  induction rounds with
  | zero => exact ⟨c, hc, rfl⟩
  | succ rounds ih =>
    obtain ⟨c', hc', hloop⟩ := ih
    refine ⟨flat n ((square n)^[rounds] M), by simp [flat], ?_⟩
    rw [swapRounds] at hloop ⊢
    rw [List.range_succ, List.foldlM_append, hloop, Function.iterate_succ_apply']
    simp only [Option.bind_eq_bind, Option.bind_some, List.foldlM_cons, List.foldlM_nil]
    rw [hinto _ c' hc']
    rfl

theorem le_of_argsOk {n rounds : ℕ} (h : argsOk n rounds) : n ≤ 4096 := by
  simp only [argsOk, decide_eq_true_eq, not_or, not_lt] at h
  exact h.2.1

/-- The reference build returns the digest of the challenge, and every access is inside its
buffer. -/
theorem Reference.mtChallengeSolve_eq {heap : Heap} (hheap : heap.allocated)
    (seed cipher : BitVec 64) {n rounds : ℕ} (hargs : argsOk n rounds) :
    mtChallengeSolve heap seed cipher n rounds = some (.ok (digest seed cipher n rounds)) := by
  have hn : n ≤ 4096 := le_of_argsOk hargs
  obtain ⟨c', -, hrounds⟩ := swapRounds_flat (squareInto · · n)
    (fun M c hc => squareInto_flat M hn hc) (startMatrix (mtSeedState seed cipher) n)
    (length_table (n * n) heap.c) rounds
  rw [mtChallengeSolve, if_neg (by simp [hargs]), if_neg (by simp [hheap])]
  dsimp only
  rw [fill_eq (length_table (n * n) heap.a), Option.bind_eq_bind, Option.bind_some, hrounds]
  dsimp only [Option.bind_eq_bind, Option.bind_some]
  rw [hashRows_flat _ hn (length_table n heap.rows), Option.bind_some, mtFoldDigest_table]
  rfl

end ComputePool.Challenge
