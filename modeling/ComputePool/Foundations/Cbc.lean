import Mathlib.Data.List.Basic

/-!
# Block chaining and padding

Cipher block chaining over any cipher for blocks of bytes, and the padding of PKCS7 that makes the
data a whole number of blocks. Bytes are numbers below 256.

* `decipher_encipher`: chaining is undone by whatever undoes the cipher.
* `chunks_flatten`, `flatten_chunks`: cutting into blocks and putting them together.
* `unpad_pad`: the padding is found again, for data of any length.
-/

namespace Cbc

/-- A block of `size` bytes. -/
structure IsBlock (size : ℕ) (block : List ℕ) : Prop where
  length_eq : block.length = size
  lt : ∀ b ∈ block, b < 256

/-- The exclusive or of two blocks. -/
def xorBlocks (a b : List ℕ) : List ℕ :=
  List.zipWith (· ^^^ ·) a b

/-! ## Chaining -/

section Chaining

variable (encrypt decrypt : List ℕ → List ℕ)

/-- Each block is combined with the last encrypted one and encrypted. -/
def encipher (previous : List ℕ) : List (List ℕ) → List (List ℕ)
  | [] => []
  | block :: rest =>
    let encrypted := encrypt (xorBlocks block previous)
    encrypted :: encipher encrypted rest

/-- Each block is decrypted and combined with the encrypted one before it. -/
def decipher (previous : List ℕ) : List (List ℕ) → List (List ℕ)
  | [] => []
  | encrypted :: rest => xorBlocks (decrypt encrypted) previous :: decipher encrypted rest

end Chaining

variable {size : ℕ}

/-- The sum of two blocks is a block. -/
theorem IsBlock.xor {a b : List ℕ} (ha : IsBlock size a) (hb : IsBlock size b) :
    IsBlock size (xorBlocks a b) where
  length_eq := by rw [xorBlocks, List.length_zipWith, ha.length_eq, hb.length_eq, Nat.min_self]
  lt := by
    intro x hx
    obtain ⟨i, hi, rfl⟩ := List.mem_iff_getElem.mp hx
    rw [xorBlocks, List.length_zipWith] at hi
    simp only [xorBlocks, List.getElem_zipWith]
    have hai : a[i] < 2 ^ 8 := ha.lt _ (List.getElem_mem (by omega))
    have hbi : b[i] < 2 ^ 8 := hb.lt _ (List.getElem_mem (by omega))
    exact Nat.xor_lt_two_pow hai hbi

theorem xorBlocks_cancel {a b : List ℕ} (h : a.length = b.length) :
    xorBlocks (xorBlocks a b) b = a := by
  refine List.ext_getElem (by simp [xorBlocks, h]) fun i hi hi' => ?_
  simp only [xorBlocks, List.getElem_zipWith, Nat.xor_assoc, Nat.xor_self, Nat.xor_zero]

/-- Where decryption undoes encryption, it does so for chained blocks. -/
theorem decipher_encipher {encrypt decrypt : List ℕ → List ℕ}
    (henc : ∀ block, IsBlock size block → IsBlock size (encrypt block))
    (hdec : ∀ block, IsBlock size block → decrypt (encrypt block) = block) {blocks : List (List ℕ)}
    (hblocks : ∀ block ∈ blocks, IsBlock size block) {previous : List ℕ}
    (hprevious : IsBlock size previous) :
    decipher decrypt previous (encipher encrypt previous blocks) = blocks := by
  induction blocks generalizing previous with
  | nil => rfl
  | cons block rest ih =>
    have hblock := hblocks block (by simp)
    have hmixed := hblock.xor hprevious
    rw [encipher, decipher, hdec _ hmixed,
      xorBlocks_cancel (hblock.length_eq.trans hprevious.length_eq.symm),
      ih (fun b hb => hblocks b (by simp [hb])) (henc _ hmixed)]

/-- The chain yields blocks, when the cipher takes blocks to blocks. -/
theorem isBlock_of_mem_encipher {encrypt : List ℕ → List ℕ}
    (henc : ∀ block, IsBlock size block → IsBlock size (encrypt block)) {blocks : List (List ℕ)}
    (hblocks : ∀ block ∈ blocks, IsBlock size block) {previous : List ℕ}
    (hprevious : IsBlock size previous) :
    ∀ block ∈ encipher encrypt previous blocks, IsBlock size block := by
  induction blocks generalizing previous with
  | nil => simp [encipher]
  | cons block rest ih =>
    have hencrypted := henc _ ((hblocks block (by simp)).xor hprevious)
    intro b hb
    rcases List.mem_cons.mp hb with rfl | hb
    · exact hencrypted
    · exact ih (fun b hb => hblocks b (by simp [hb])) hencrypted b hb

/-! ## Blocks -/

/-- The whole blocks of the data. -/
def chunks (size : ℕ) (data : List ℕ) : List (List ℕ) :=
  (List.range (data.length / size)).map fun i => (data.drop (size * i)).take size

/-- Only whole chunks are cut off. -/
theorem length_of_mem_chunks (hsize : 0 < size) {data block : List ℕ}
    (h : block ∈ chunks size data) : block.length = size := by
  obtain ⟨i, hi, rfl⟩ := List.mem_map.mp h
  have hle : size * (i + 1) ≤ data.length :=
    Nat.le_trans (Nat.mul_le_mul_left size (List.mem_range.mp hi)) (Nat.mul_div_le _ _)
  rw [Nat.mul_add, Nat.mul_one] at hle
  rw [List.length_take, List.length_drop]
  omega

/-- Bytes are cut into blocks of bytes. -/
theorem isBlock_of_mem_chunks (hsize : 0 < size) {data : List ℕ} (hdata : ∀ b ∈ data, b < 256) :
    ∀ block ∈ chunks size data, IsBlock size block := by
  intro block hblock
  refine ⟨length_of_mem_chunks hsize hblock, fun b hb => ?_⟩
  obtain ⟨i, -, rfl⟩ := List.mem_map.mp hblock
  exact hdata b (List.mem_of_mem_drop (List.mem_of_mem_take hb))

/-- The first block, and the blocks of the rest. -/
theorem chunks_append (hsize : 0 < size) {block : List ℕ} (hblock : block.length = size)
    (data : List ℕ) : chunks size (block ++ data) = block :: chunks size data := by
  have hcount : (block ++ data).length / size = data.length / size + 1 := by
    rw [List.length_append, hblock, Nat.add_comm, Nat.add_div_right _ hsize]
  rw [chunks, hcount, List.range_succ_eq_map, List.map_cons, List.map_map]
  congr 1
  · rw [Nat.mul_zero, List.drop_zero, List.take_left' hblock]
  · refine List.map_congr_left fun i _ => ?_
    simp only [Function.comp, Nat.succ_eq_add_one, Nat.mul_add, Nat.mul_one]
    rw [Nat.add_comm, ← hblock, List.drop_append, List.drop_eq_nil_of_le (by omega)]
    simp

/-- Cutting what is made of blocks gives the blocks back. -/
theorem chunks_flatten (hsize : 0 < size) {blocks : List (List ℕ)}
    (h : ∀ block ∈ blocks, block.length = size) : chunks size blocks.flatten = blocks := by
  induction blocks with
  | nil => simp [chunks]
  | cons block rest ih =>
    rw [List.flatten_cons, chunks_append hsize (h block (by simp)),
      ih fun b hb => h b (by simp [hb])]

/-- Nothing is left over of data of a whole number of blocks. -/
theorem flatten_chunks (hsize : 0 < size) : ∀ {data : List ℕ}, size ∣ data.length →
    (chunks size data).flatten = data := by
  intro data hdvd
  obtain ⟨n, hn⟩ := hdvd
  -- on the number of chunks
  induction n generalizing data with
  | zero =>
    have hnil : data = [] := List.length_eq_zero_iff.mp (by simpa using hn)
    simp [hnil, chunks]
  | succ n ih =>
    have hlen : (data.take size).length = size := by
      rw [List.length_take, hn, Nat.mul_add]
      omega
    have hrest : (data.drop size).length = size * n := by
      rw [List.length_drop, hn, Nat.mul_add]
      omega
    conv_lhs => rw [← List.take_append_drop size data]
    rw [chunks_append hsize hlen, List.flatten_cons, ih hrest, List.take_append_drop]

/-! ## Padding -/

/-- PKCS7: as many bytes as are missing, each of them that number. -/
def pad (size : ℕ) (data : List ℕ) : List ℕ :=
  let missing := size - data.length % size
  data ++ List.replicate missing missing

/-- The data before the padding, if there is a padding. -/
def unpad (size : ℕ) (data : List ℕ) : Option (List ℕ) :=
  match data.getLast? with
  | none => none
  | some missing =>
    if 1 ≤ missing ∧ missing ≤ size ∧ missing ≤ data.length ∧
        data.drop (data.length - missing) = List.replicate missing missing then
      some (data.take (data.length - missing))
    else none

/-- Padding fills the last block up. -/
theorem dvd_length_pad (hsize : 0 < size) (data : List ℕ) : size ∣ (pad size data).length := by
  have hlt := Nat.mod_lt data.length hsize
  have hdiv := Nat.div_add_mod data.length size
  refine ⟨data.length / size + 1, ?_⟩
  rw [pad, List.length_append, List.length_replicate, Nat.mul_add, Nat.mul_one]
  omega

/-- The padding is made of bytes, since the block is shorter than 256. -/
theorem lt_of_mem_pad (hsize : size < 256) {data : List ℕ} (hdata : ∀ b ∈ data, b < 256) :
    ∀ b ∈ pad size data, b < 256 := by
  intro b hb
  rcases List.mem_append.mp hb with hb | hb
  · exact hdata b hb
  · rw [List.eq_of_mem_replicate hb]
    omega

/-- What is padded is found again. -/
theorem unpad_pad (hsize : 0 < size) (data : List ℕ) : unpad size (pad size data) = some data := by
  -- at least one octet is added, and each says how many
  have hlt := Nat.mod_lt data.length hsize
  have hmissing : 1 ≤ size - data.length % size := by omega
  have hlen : (pad size data).length - (size - data.length % size) = data.length := by
    rw [pad, List.length_append, List.length_replicate]
    omega
  have hlast : (pad size data).getLast? = some (size - data.length % size) := by
    rw [pad, List.getLast?_append, List.getLast?_replicate, if_neg (by omega), Option.some_or]
  have hdrop : (pad size data).drop data.length =
      List.replicate (size - data.length % size) (size - data.length % size) := List.drop_left
  have htake : (pad size data).take data.length = data := List.take_left
  rw [unpad, hlast]
  dsimp only
  rw [hlen, hdrop, htake, if_pos]
  refine ⟨hmissing, Nat.sub_le _ _, ?_, rfl⟩
  rw [pad, List.length_append, List.length_replicate]
  omega

end Cbc
