import ComputePool.Challenge.Reference

/-!
# The CUDA build

`mt_challenge_solve` of `challenge/src/challenge.cu`. A launch runs the blocks of its grid one
after another in an arbitrary order; the threads of a block execute each phase between two
barriers together. Device buffers hold arbitrary words when they are allocated, and every access
to a buffer or to a shared tile is checked. Indices are computed in the width the code uses.

The matrix kernel adds up tile by tile and pads the last tile with zeros; the grid is rounded up,
so that some threads have no cell. Neither shows in the result.

* `tileSteps_flat`: a block accumulates the cells of the square.
* `Cuda.mtChallengeSolve_eq`: when the device does what it is asked, the build returns the digest
  of the challenge.
* `cuda_agrees_with_reference`: the two builds return the same digest, and the device buffers are
  never left.
-/

namespace ComputePool.Challenge

open Buffer

/-- A value in a 32-bit unsigned variable. -/
def u32 (x : ℕ) : ℕ :=
  x % 2 ^ 32

/-- A value in a 64-bit unsigned variable. -/
def u64 (x : ℕ) : ℕ :=
  x % 2 ^ 64

namespace Cuda

/-- `TILE`. -/
def tile : ℕ := 16

/-- The threads of a matrix block as `(threadIdx.y, threadIdx.x)`, in the order of their place in a
shared tile. -/
def tileThreads : List (ℕ × ℕ) :=
  (List.range tile).product (List.range tile)

/-- The place of `[y][x]` in a shared tile. -/
def tileIndex (y x : ℕ) : ℕ :=
  y * tile + x

/-- The order in which the blocks of each launch run, and how the calls of the runtime end. -/
structure Device where
  /-- `cudaMalloc` of the three buffers and `malloc` of the host buffer. -/
  mallocA : Bool := true
  mallocC : Bool := true
  mallocRows : Bool := true
  mallocHost : Bool := true
  fillLaunch : Bool := true
  /-- The launch of each round. -/
  matmulLaunch : ℕ → Bool := fun _ => true
  rowHashLaunch : Bool := true
  memcpy : Bool := true
  /-- The order in which the blocks of a one-dimensional grid run. -/
  order : ℕ → List ℕ := List.range
  /-- The order in which the blocks `(blockIdx.y, blockIdx.x)` of a square grid run. -/
  order2 : ℕ → List (ℕ × ℕ) := allCells
  /-- Every block of a grid runs once. -/
  order_perm : ∀ count, (order count).Perm (List.range count)
  order2_perm : ∀ count, (order2 count).Perm (allCells count)

/-! ## Kernels -/

/-- A block of `fill_kernel`. -/
def fillKernel (state : BitVec 64) (cells blockIdx : ℕ) : Option (List (ℕ × BitVec 32)) :=
  some <| (List.range 256).filterMap fun threadIdx =>
    let k := u64 (u64 (blockIdx * 256) + threadIdx)
    if k < cells then some (k, mtElement state (BitVec.ofNat 64 k)) else none

/-- What a thread of `matmul_kernel` puts into a shared tile: a cell of `a`, or zero past the
edge. -/
def loadPadded (a : List (BitVec 32)) (n row col : ℕ) : Option (BitVec 32) :=
  if row < n ∧ col < n then load a (cellIndex n row col) else some 0

/-- The two phases of `matmul_kernel` for the tile at `t`: all threads fill the shared tiles, then
all threads add to their accumulators. -/
def tileStep (a : List (BitVec 32)) (n blockY blockX t : ℕ) (accs : List (BitVec 32)) :
    Option (List (BitVec 32)) := do
  let left ← tileThreads.mapM fun (y, x) =>
    loadPadded a n (u32 (u32 (blockY * tile) + y)) (u32 (t + x))
  let right ← tileThreads.mapM fun (y, x) =>
    loadPadded a n (u32 (t + y)) (u32 (u32 (blockX * tile) + x))
  (tileThreads.zip accs).mapM fun ((y, x), acc) =>
    (List.range tile).foldlM (fun acc k => do
      return acc + (← load left (tileIndex y k)) * (← load right (tileIndex k x))) acc

/-- The offsets `t` of the tiles: `t < n`, in steps of `TILE`. -/
def tileOffsets (n : ℕ) : List ℕ :=
  (List.range ((n + tile - 1) / tile)).map (· * tile)

/-- A block of `matmul_kernel`. -/
def matmulKernel (a : List (BitVec 32)) (n : ℕ) (block : ℕ × ℕ) :
    Option (List (ℕ × BitVec 32)) := do
  let (blockY, blockX) := block
  let accs ← (tileOffsets n).foldlM (fun accs t => tileStep a n blockY blockX t accs)
    (tileThreads.map fun _ => 0)
  return (tileThreads.zip accs).filterMap fun ((y, x), acc) =>
    let row := u32 (u32 (blockY * tile) + y)
    let col := u32 (u32 (blockX * tile) + x)
    if row < n ∧ col < n then some (cellIndex n row col, acc) else none

/-- A thread of `row_hash_kernel`. -/
def rowHashThread (a : List (BitVec 32)) (n i : ℕ) : Option (List (ℕ × BitVec 64)) :=
  if i < n then do return [(i, ← Reference.hashRow a n i)] else some []

/-- A block of `row_hash_kernel`. -/
def rowHashKernel (a : List (BitVec 32)) (n blockIdx : ℕ) : Option (List (ℕ × BitVec 64)) := do
  let writes ← (List.range 128).mapM fun threadIdx =>
    rowHashThread a n (u32 (u32 (blockIdx * 128) + threadIdx))
  return writes.flatten

/-! ## The host -/

/-- The rounds of `mt_challenge_solve`; the first launch that fails ends them with `none` inside. -/
def rounds (device : Device) (n : ℕ) : List ℕ → List (BitVec 32) → List (BitVec 32) →
    Option (Option (List (BitVec 32)))
  | [], a, _ => some (some a)
  | r :: rest, a, c =>
    if device.matmulLaunch r then do
      let c ← scatter (matmulKernel a n) (device.order2 (u32 (n + tile - 1) / tile)) c
      rounds device n rest c a
    else some none

/-- `mt_challenge_solve`; `none` would be an access outside of a buffer. The contents of the
allocated memory are those of `heap`. -/
def mtChallengeSolve (device : Device) (heap : Heap) (seed cipher : BitVec 64)
    (n roundCount : ℕ) : Option (Except Code (BitVec 64)) :=
  -- the allocations and the launch come before the first round
  if !argsOk n roundCount then some (.error .args)
  else if !device.mallocA || !device.mallocC || !device.mallocRows then some (.error .device)
  else if !device.mallocHost then some (.error .alloc)
  else if !device.fillLaunch then some (.error .device)
  else do
    let cells := u64 (n * n)
    let blocks := u32 (u64 (cells + 255) / 256)
    let a ← scatter (fillKernel (mtSeedState seed cipher) cells) (device.order blocks)
      (table cells heap.a)
    match ← rounds device n (List.range roundCount) a (table cells heap.c) with
    | none => return .error .device
    | some a =>
      if !device.rowHashLaunch then return .error .device
      else
        let rows ← scatter (rowHashKernel a n) (device.order (u32 (n + 127) / 128))
          (table n heap.rows)
        if !device.memcpy then return .error .device
        else return .ok (← mtFoldDigest rows n seed cipher roundCount)

/-! ## Indices -/

theorem u32_eq {x : ℕ} (h : x < 2 ^ 32) : u32 x = x :=
  Nat.mod_eq_of_lt h

theorem u64_eq {x : ℕ} (h : x < 2 ^ 64) : u64 x = x :=
  Nat.mod_eq_of_lt h

/-- The index of a thread in its grid does not wrap. -/
theorem threadIndex_eq {block size thread : ℕ} (h : block * size + thread < 2 ^ 32) :
    u32 (u32 (block * size) + thread) = block * size + thread := by
  rw [u32_eq (by omega : block * size < 2 ^ 32), u32_eq h]

/-- The number of blocks that cover `n` items. -/
theorem div_lt_blocks {size k n : ℕ} (hsize : 0 < size) (hk : k < n) :
    k / size < (n + size - 1) / size := by
  rw [Nat.div_lt_iff_lt_mul hsize]
  have := Nat.lt_div_mul_add (a := n + size - 1) hsize
  omega

theorem tileThreads_getElem? :
    ∀ y < tile, ∀ x < tile, tileThreads[tileIndex y x]? = some (y, x) := by
  decide +kernel

theorem mem_tileThreads {y x : ℕ} : (y, x) ∈ tileThreads ↔ y < tile ∧ x < tile := by
  simp [tileThreads]

/-- Reading a shared tile that every thread filled. -/
theorem load_tile {α : Type*} (f : ℕ × ℕ → α) {y x : ℕ} (hy : y < tile) (hx : x < tile) :
    load (tileThreads.map f) (tileIndex y x) = some (f (y, x)) := by
  rw [load, List.getElem?_map, tileThreads_getElem? y hy x hx, Option.map_some]

/-! ## The matrix kernel -/

/-- The matrix with zeros past its edge. -/
def padded (n : ℕ) (M : ℕ → ℕ → BitVec 32) (i j : ℕ) : BitVec 32 :=
  if i < n ∧ j < n then M i j else 0

/-- A thread loads its entry of a tile, or zero outside the matrix; the index is in bounds. -/
theorem loadPadded_flat {n : ℕ} (M : ℕ → ℕ → BitVec 32) (hn : n ≤ 4096) (i j : ℕ) :
    loadPadded (flat n M) n i j = some (padded n M i j) := by
  rw [loadPadded, padded]
  split_ifs with h
  · exact load_flat M hn h.1 h.2
  · rfl

/-- The term a thread adds at the offset `k`. -/
def term (n : ℕ) (M : ℕ → ℕ → BitVec 32) (row col k : ℕ) : BitVec 32 :=
  padded n M row k * padded n M k col

/-- The loop of a thread over the shared tiles: row `y` of one times column `x` of the other. -/
theorem threadLoop_eq (left right : ℕ × ℕ → BitVec 32) {y x : ℕ} (hy : y < tile) (hx : x < tile)
    (acc : BitVec 32) :
    (List.range tile).foldlM (fun acc k => do
      return acc + (← load (tileThreads.map left) (tileIndex y k)) *
        (← load (tileThreads.map right) (tileIndex k x))) acc =
      some (acc + ∑ k ∈ Finset.range tile, left (y, k) * right (k, x)) := by
  rw [foldlM_eq_some _ (f := fun a k => a + left (y, k) * right (k, x)), foldl_add_eq_sum]
  intro a k hk
  rw [load_tile left hy (List.mem_range.mp hk), load_tile right (List.mem_range.mp hk) hx]
  rfl

/-- The threads of a block add the terms of a tile. -/
theorem tileStep_flat {n blockY blockX t : ℕ} (M : ℕ → ℕ → BitVec 32) (hn : n ≤ 4096)
    (hY : blockY < 256) (hX : blockX < 256) (ht : t ≤ 4096) (acc : ℕ × ℕ → BitVec 32) :
    tileStep (flat n M) n blockY blockX t (tileThreads.map acc) =
      some (tileThreads.map fun p => acc p + ∑ k ∈ Finset.range tile,
        term n M (blockY * tile + p.1) (blockX * tile + p.2) (t + k)) := by
  -- each thread loads one element of the left tile and one of the right
  have hleft : tileThreads.mapM (fun (y, x) =>
      loadPadded (flat n M) n (u32 (u32 (blockY * tile) + y)) (u32 (t + x))) =
        some (tileThreads.map fun p => padded n M (blockY * tile + p.1) (t + p.2)) := by
    refine mapM_eq_some fun p hp => ?_
    obtain ⟨hy, hx⟩ := mem_tileThreads.mp hp
    simp only [tile] at hy hx ⊢
    rw [loadPadded_flat M hn, threadIndex_eq (by omega), u32_eq (by omega)]
  have hright : tileThreads.mapM (fun (y, x) =>
      loadPadded (flat n M) n (u32 (t + y)) (u32 (u32 (blockX * tile) + x))) =
        some (tileThreads.map fun p => padded n M (t + p.1) (blockX * tile + p.2)) := by
    refine mapM_eq_some fun p hp => ?_
    obtain ⟨hy, hx⟩ := mem_tileThreads.mp hp
    simp only [tile] at hy hx ⊢
    rw [loadPadded_flat M hn, threadIndex_eq (by omega), u32_eq (by omega)]
  have hzip : tileThreads.zip (tileThreads.map acc) = tileThreads.map fun p => (p, acc p) := by
    rw [← List.zip_map', List.map_id']
  rw [tileStep, hleft, hright, hzip, Option.bind_eq_bind, Option.bind_some, Option.bind_eq_bind,
    Option.bind_some, List.mapM_map]
  refine mapM_eq_some fun p hp => ?_
  obtain ⟨hy, hx⟩ := mem_tileThreads.mp hp
  exact threadLoop_eq _ _ hy hx (acc p)

/-- The loop over the tiles adds the terms of all of them. -/
theorem tileSteps_flat {n blockY blockX count : ℕ} (M : ℕ → ℕ → BitVec 32) (hn : n ≤ 4096)
    (hY : blockY < 256) (hX : blockX < 256) (hcount : count * tile ≤ 4096 + tile) :
    ((List.range count).map (· * tile)).foldlM
        (fun accs t => tileStep (flat n M) n blockY blockX t accs) (tileThreads.map fun _ => 0) =
      some (tileThreads.map fun p => ∑ k ∈ Finset.range (count * tile),
        term n M (blockY * tile + p.1) (blockX * tile + p.2) k) := by
  induction count with
  | zero => rfl
  | succ count ih =>
    have hle : (count + 1) * tile = count * tile + tile := Nat.succ_mul count tile
    rw [List.range_succ, List.map_append, List.foldlM_append, ih (by omega), Option.bind_eq_bind,
      Option.bind_some, List.map_singleton, List.foldlM_cons,
      tileStep_flat M hn hY hX (by omega), Option.bind_eq_bind, Option.bind_some, hle]
    simp only [List.foldlM_nil, Finset.sum_range_add]
    rfl

/-- Inside the matrix, the padded terms add up to the cell of the square. -/
theorem sum_term {n row col count : ℕ} (M : ℕ → ℕ → BitVec 32) (hrow : row < n) (hcol : col < n)
    (hcount : n ≤ count) : ∑ k ∈ Finset.range count, term n M row col k = square n M row col := by
  rw [sum_range_eq_of_zero hcount]
  · refine Finset.sum_congr rfl fun k hk => ?_
    have hk := Finset.mem_range.mp hk
    rw [term, padded, padded, if_pos ⟨hrow, hk⟩, if_pos ⟨hk, hcol⟩]
  · intro k hk
    rw [term, padded, if_neg (by omega), zero_mul]

/-- The writes of a block of the matrix kernel. -/
def matmulWrites (n : ℕ) (M : ℕ → ℕ → BitVec 32) (block : ℕ × ℕ) : List (ℕ × BitVec 32) :=
  tileThreads.filterMap fun (y, x) =>
    let row := block.1 * tile + y
    let col := block.2 * tile + x
    if row < n ∧ col < n then some (row * n + col, square n M row col) else none

/-- One block of the product: the tiles add up to the rows and columns, and the writes are those of
the square. -/
theorem matmulKernel_flat {n : ℕ} (M : ℕ → ℕ → BitVec 32) (hn : n ≤ 4096) {block : ℕ × ℕ}
    (hblock : block.1 < 256 ∧ block.2 < 256) :
    matmulKernel (flat n M) n block = some (matmulWrites n M block) := by
  obtain ⟨blockY, blockX⟩ := block
  -- the tiles cover the row and stay within the size of an index
  have hcount : (n + tile - 1) / tile * tile ≤ 4096 + tile := by
    have := Nat.div_mul_le_self (n + tile - 1) tile
    omega
  have hcover : n ≤ (n + tile - 1) / tile * tile := by
    simp only [tile]
    omega
  set acc : ℕ × ℕ → BitVec 32 := fun p => ∑ k ∈ Finset.range ((n + tile - 1) / tile * tile),
    term n M (blockY * tile + p.1) (blockX * tile + p.2) k
  have hzip : tileThreads.zip (tileThreads.map acc) = tileThreads.map fun p => (p, acc p) := by
    rw [← List.zip_map', List.map_id']
  rw [matmulKernel, tileOffsets, tileSteps_flat M hn hblock.1 hblock.2 hcount, Option.bind_eq_bind,
    Option.bind_some, hzip, List.filterMap_map]
  refine congrArg some (List.filterMap_congr fun p hp => ?_)
  obtain ⟨hy, hx⟩ := mem_tileThreads.mp hp
  -- no index overflows
  have hrow : u32 (u32 (blockY * tile) + p.1) = blockY * tile + p.1 := by
    refine threadIndex_eq ?_
    simp only [tile] at hy ⊢
    omega
  have hcol : u32 (u32 (blockX * tile) + p.2) = blockX * tile + p.2 := by
    refine threadIndex_eq ?_
    simp only [tile] at hx ⊢
    omega
  simp only [Function.comp_apply, hrow, hcol]
  -- a thread outside of the matrix writes nothing
  split_ifs with hin
  · have hsum : acc p = square n M (blockY * tile + p.1) (blockX * tile + p.2) :=
      sum_term M hin.1 hin.2 hcover
    rw [cellIndex_eq hn hin.1 hin.2, hsum]
  · rfl

/-! ## Launches -/

/-- A launch of the matrix kernel squares the matrix, in whatever order its blocks run. -/
theorem matmulLaunch_flat (device : Device) {n : ℕ} (M : ℕ → ℕ → BitVec 32) (hn : n ≤ 4096)
    {c : List (BitVec 32)} (hc : c.length = n * n) :
    scatter (matmulKernel (flat n M) n) (device.order2 (u32 (n + tile - 1) / tile)) c =
      some (flat n (square n M)) := by
  have hgrid : u32 (n + tile - 1) / tile = (n + tile - 1) / tile := by
    rw [u32_eq (by simp only [tile]; omega)]
  -- the order of the blocks is any order of all of them
  have hmem (block : ℕ × ℕ) : block ∈ device.order2 (u32 (n + tile - 1) / tile) ↔
      block.1 < (n + tile - 1) / tile ∧ block.2 < (n + tile - 1) / tile := by
    obtain ⟨y, x⟩ := block
    rw [hgrid, (device.order2_perm _).mem_iff, allCells, List.pair_mem_product, List.mem_range,
      List.mem_range]
  refine scatter_eq (matmulWrites n M) hc (fun block hblock => ?_) fun k hk => ?_
  -- a block writes the cells of its own threads
  · rw [hmem] at hblock
    have hlt : (n + tile - 1) / tile ≤ 256 := by
      simp only [tile]
      omega
    refine ⟨matmulKernel_flat M hn ⟨by omega, by omega⟩, fun w hw => ?_⟩
    obtain ⟨p, -, hp⟩ := List.mem_filterMap.mp hw
    obtain ⟨hin, hw⟩ := Option.ite_none_right_eq_some.mp hp
    obtain rfl := Option.some.inj hw
    exact ⟨cell_lt hin.1 hin.2, by rw [cell_div hin.2, cell_mod hin.2]⟩
  · -- the cell of row `i` and column `j` belongs to one thread of one block
    obtain ⟨hi, hj⟩ := exists_cell hk
    have hpos : 0 < tile := by decide
    refine ⟨(k / n / tile, k % n / tile), ?_, ?_⟩
    · exact (hmem _).mpr ⟨div_lt_blocks hpos hi, div_lt_blocks hpos hj⟩
    · refine List.mem_map.mpr ⟨(k, square n M (k / n) (k % n)), List.mem_filterMap.mpr
        ⟨(k / n % tile, k % n % tile), ?_, ?_⟩, rfl⟩
      · exact mem_tileThreads.mpr ⟨Nat.mod_lt _ hpos, Nat.mod_lt _ hpos⟩
      · simp only [Nat.div_add_mod', if_pos (And.intro hi hj)]

/-- The launch that fills the matrix, whatever order the blocks come in. -/
theorem fillLaunch_eq (device : Device) {n : ℕ} (state : BitVec 64) (hn : n ≤ 4096)
    {a : List (BitVec 32)} (ha : a.length = n * n) :
    scatter (fillKernel state (n * n)) (device.order (u32 (u64 (n * n + 255) / 256))) a =
      some (flat n (startMatrix state n)) := by
  have hsize : n * n ≤ 4096 * 4096 := Nat.mul_le_mul hn hn
  have hgrid : u32 (u64 (n * n + 255) / 256) = (n * n + 256 - 1) / 256 := by
    rw [u64_eq (by omega), u32_eq (by omega)]
    rfl
  -- every block comes, in some order
  have hmem (block : ℕ) : block ∈ device.order (u32 (u64 (n * n + 255) / 256)) ↔
      block < (n * n + 256 - 1) / 256 := by
    rw [hgrid, (device.order_perm _).mem_iff, List.mem_range]
  have hindex {block thread : ℕ} (hblock : block < (n * n + 256 - 1) / 256) (ht : thread < 256) :
      u64 (u64 (block * 256) + thread) = block * 256 + thread := by
    rw [u64_eq (by omega : block * 256 < 2 ^ 64), u64_eq (by omega)]
  rw [← table_mtElement]
  refine scatter_eq (fun block => (List.range 256).filterMap fun thread =>
    let k := u64 (u64 (block * 256) + thread)
    if k < n * n then some (k, mtElement state (BitVec.ofNat 64 k)) else none) ha
    (fun block _ => ⟨rfl, fun w hw => ?_⟩) fun k hk => ?_
  · obtain ⟨thread, -, hthread⟩ := List.mem_filterMap.mp hw
    obtain ⟨hin, hw⟩ := Option.ite_none_right_eq_some.mp hthread
    obtain rfl := Option.some.inj hw
    exact ⟨hin, rfl⟩
  -- element `k` is that of thread `k % 256` in block `k / 256`
  · have hblock := @div_lt_blocks 256 k (n * n) (by decide) hk
    refine ⟨k / 256, (hmem _).mpr hblock, List.mem_map.mpr
      ⟨(k, mtElement state (BitVec.ofNat 64 k)), List.mem_filterMap.mpr ⟨k % 256, ?_, ?_⟩, rfl⟩⟩
    · exact List.mem_range.mpr (Nat.mod_lt _ (by decide))
    · rw [hindex hblock (Nat.mod_lt _ (by decide)), Nat.div_add_mod']
      simp only [if_pos hk]

/-- The launch that hashes the rows, whatever order the blocks come in. -/
theorem rowHashLaunch_flat (device : Device) {n : ℕ} (M : ℕ → ℕ → BitVec 32) (hn : n ≤ 4096)
    {rows : List (BitVec 64)} (hrows : rows.length = n) :
    scatter (rowHashKernel (flat n M) n) (device.order (u32 (n + 127) / 128)) rows =
      some (table n (rowHash n M)) := by
  have hgrid : u32 (n + 127) / 128 = (n + 128 - 1) / 128 := by
    rw [u32_eq (by omega)]
    rfl
  have hmem (block : ℕ) : block ∈ device.order (u32 (n + 127) / 128) ↔
      block < (n + 128 - 1) / 128 := by
    rw [hgrid, (device.order_perm _).mem_iff, List.mem_range]
  -- a thread writes its row, if there is one
  have hthread (i : ℕ) : rowHashThread (flat n M) n i =
      some (if i < n then [(i, rowHash n M i)] else []) := by
    rw [rowHashThread]
    split_ifs with hi
    · rw [Reference.hashRow_flat M hn hi]
      rfl
    · rfl
  refine scatter_eq (fun block => ((List.range 128).map fun thread =>
    let i := u32 (u32 (block * 128) + thread)
    if i < n then [(i, rowHash n M i)] else []).flatten) hrows
    (fun block _ => ⟨?_, fun w hw => ?_⟩) fun i hi => ?_
  · rw [rowHashKernel, mapM_eq_some fun thread _ => hthread _]
    rfl
  · simp only [List.mem_flatten, List.mem_map] at hw
    obtain ⟨_, ⟨thread, -, rfl⟩, hw⟩ := hw
    split_ifs at hw with hin
    · rw [List.mem_singleton.mp hw]
      exact ⟨hin, rfl⟩
    · simp at hw
  -- row `i` is that of thread `i % 128` in block `i / 128`
  · have hblock := @div_lt_blocks 128 i n (by decide) hi
    have hlt : i % 128 < 128 := Nat.mod_lt _ (by decide)
    refine ⟨i / 128, (hmem _).mpr hblock, List.mem_map.mpr ⟨(i, rowHash n M i), ?_, rfl⟩⟩
    refine List.mem_flatten.mpr ⟨[(i, rowHash n M i)], List.mem_map.mpr ⟨i % 128, ?_, ?_⟩, by simp⟩
    · exact List.mem_range.mpr hlt
    · have hindex : u32 (u32 (i / 128 * 128) + i % 128) = i / 128 * 128 + i % 128 :=
        threadIndex_eq (by omega)
      rw [Nat.div_add_mod'] at hindex
      simp only [hindex, if_pos hi]

/-- The rounds on the device end in the iterated square, or with a failed launch. -/
theorem rounds_flat (device : Device) {n : ℕ} (hn : n ≤ 4096) (rs : List ℕ)
    (M : ℕ → ℕ → BitVec 32) {c : List (BitVec 32)} (hc : c.length = n * n) :
    rounds device n rs (flat n M) c =
      some (if rs.all device.matmulLaunch then some (flat n ((square n)^[rs.length] M))
        else none) := by
  induction rs generalizing M c with
  | nil => rfl
  | cons r rs ih =>
    rw [rounds]
    by_cases hr : device.matmulLaunch r
    · rw [if_pos hr, matmulLaunch_flat device M hn hc, Option.bind_eq_bind, Option.bind_some,
        ih (square n M) (by simp [flat]), List.all_cons, hr, Bool.true_and, List.length_cons,
        Function.iterate_succ_apply]
    · rw [if_neg hr, List.all_cons, Bool.eq_false_iff.mpr hr, Bool.false_and,
        if_neg Bool.false_ne_true]

/-- Nothing on the device fails. -/
def Device.Ok (device : Device) (roundCount : ℕ) : Prop :=
  device.mallocA ∧ device.mallocC ∧ device.mallocRows ∧ device.mallocHost ∧ device.fillLaunch ∧
    (List.range roundCount).all device.matmulLaunch ∧ device.rowHashLaunch ∧ device.memcpy

/-- The CUDA build stays inside its buffers. It returns the digest of the challenge when nothing on
the device fails, and otherwise an error. -/
theorem mtChallengeSolve_eq (device : Device) (heap : Heap) (seed cipher : BitVec 64)
    {n roundCount : ℕ} (hargs : argsOk n roundCount) :
    ∃ result, mtChallengeSolve device heap seed cipher n roundCount = some result ∧
      (∀ d, result = .ok d → d = digest seed cipher n roundCount) ∧
      (device.Ok roundCount → result = .ok (digest seed cipher n roundCount)) := by
  have hn : n ≤ 4096 := le_of_argsOk hargs
  have hcells : u64 (n * n) = n * n := by
    have hsize : n * n ≤ 4096 * 4096 := Nat.mul_le_mul hn hn
    exact u64_eq (by omega)
  have hfinal : (square n)^[(List.range roundCount).length]
      (startMatrix (mtSeedState seed cipher) n) = finalMatrix seed cipher n roundCount := by
    rw [List.length_range, finalMatrix]
  rw [mtChallengeSolve, if_neg (by simp [hargs])]
  -- the four calls that can fail before the rounds, in the order of the source
  by_cases hmalloc : (!device.mallocA || !device.mallocC || !device.mallocRows) = true
  · rw [if_pos hmalloc]
    exact ⟨_, rfl, by simp, fun hok => by simp_all [Device.Ok]⟩
  rw [if_neg hmalloc]
  by_cases hhost : (!device.mallocHost) = true
  · rw [if_pos hhost]
    exact ⟨_, rfl, by simp, fun hok => by simp_all [Device.Ok]⟩
  rw [if_neg hhost]
  by_cases hfill : (!device.fillLaunch) = true
  · rw [if_pos hfill]
    exact ⟨_, rfl, by simp, fun hok => by simp_all [Device.Ok]⟩
  rw [if_neg hfill]
  dsimp only
  rw [hcells, fillLaunch_eq device _ hn (length_table (n * n) heap.a), Option.bind_eq_bind,
    Option.bind_some, rounds_flat device hn _ _ (length_table (n * n) heap.c),
    Option.bind_eq_bind, Option.bind_some, hfinal]
  by_cases hlaunch : (List.range roundCount).all device.matmulLaunch
  · rw [if_pos hlaunch]
    dsimp only
    by_cases hhash : (!device.rowHashLaunch) = true
    · rw [if_pos hhash]
      exact ⟨_, rfl, by simp, fun hok => by simp_all [Device.Ok]⟩
    rw [if_neg hhash, rowHashLaunch_flat device _ hn (length_table n heap.rows),
      Option.bind_eq_bind, Option.bind_some]
    by_cases hcopy : (!device.memcpy) = true
    · rw [if_pos hcopy]
      exact ⟨_, rfl, by simp, fun hok => by simp_all [Device.Ok]⟩
    rw [if_neg hcopy, mtFoldDigest_table]
    exact ⟨_, rfl, fun d hd => (Except.ok.inj hd).symm, fun _ => rfl⟩
  · rw [if_neg hlaunch]
    exact ⟨_, rfl, by simp, fun hok => absurd hok.2.2.2.2.2.1 hlaunch⟩

end Cuda

/-- **The CUDA build answers as the reference build does.** For every seed and cipher and all sizes
inside the guard, in whatever order the blocks of a launch run and whatever the memory held
before: every access of the CUDA build is inside its buffer; if it returns a digest, that is the
digest of the reference build; and it returns one when nothing on the device fails. -/
theorem cuda_agrees_with_reference (device : Cuda.Device) {heap host : Heap}
    (hhost : host.allocated) (seed cipher : BitVec 64) {n rounds : ℕ} (hn : 8 ≤ n ∧ n ≤ 4096)
    (hrounds : 1 ≤ rounds ∧ rounds ≤ 16) :
    ∃ result d, Cuda.mtChallengeSolve device heap seed cipher n rounds = some result ∧
      Reference.mtChallengeSolve host seed cipher n rounds = some (.ok d) ∧
      (∀ d', result = .ok d' → d' = d) ∧ (device.Ok rounds → result = .ok d) := by
  have hargs : argsOk n rounds := by
    simp only [argsOk, decide_eq_true_eq]
    omega
  obtain ⟨result, hresult, hdigest, hok⟩ :=
    Cuda.mtChallengeSolve_eq device heap seed cipher hargs
  exact ⟨result, digest seed cipher n rounds, hresult,
    Reference.mtChallengeSolve_eq hhost seed cipher hargs, hdigest, hok⟩

/-- A device on which nothing fails and the blocks of a launch run last to first. -/
def Cuda.reversed : Cuda.Device where
  order count := (List.range count).reverse
  order2 count := (allCells count).reverse
  order_perm _ := List.reverse_perm _
  order2_perm _ := List.reverse_perm _

theorem cuda_agrees_with_reference_reversed :
    ∃ d, Cuda.mtChallengeSolve Cuda.reversed ⟨true, fun _ => 7#32, fun _ => 9#32, fun _ => 0#64⟩
        1#64 2#64 8 1 = some (.ok d) ∧
      Reference.mtChallengeSolve ⟨true, fun _ => 0#32, fun _ => 0#32, fun _ => 0#64⟩
        1#64 2#64 8 1 = some (.ok d) := by
  obtain ⟨result, d, hcuda, hc, -, hok⟩ := @cuda_agrees_with_reference Cuda.reversed
    ⟨true, fun _ => 7#32, fun _ => 9#32, fun _ => 0#64⟩
    ⟨true, fun _ => 0#32, fun _ => 0#32, fun _ => 0#64⟩ rfl 1#64 2#64 8 1 (by decide) (by decide)
  refine ⟨d, ?_, hc⟩
  rw [hcuda, hok ⟨rfl, rfl, rfl, rfl, rfl, rfl, rfl, rfl⟩]

end ComputePool.Challenge
