import Mathlib.Data.List.Nodup
import Mathlib.Data.List.Perm.Subperm
import Mathlib.Dynamics.PeriodicPts.Defs
import Mathlib.Tactic.IntervalCases

/-!
# AES-128

The Advanced Encryption Standard (FIPS 197) for keys of sixteen bytes, in the terms of the standard:
bytes are elements of the field with 256 elements, the state is a table of four rows and four
columns, and the key schedule is a sequence of words. Nothing here is meant to be run.

* `mul_comm`, `mul_assoc`, `inv_eq_of_mul_eq_one`: multiplication of bytes, and that inverses are
  unique. A map that respects sums is determined by its values at the eight bits
  (`Additive.ext`), so these facts come down to a few closed ones.
* `power_eq_one_iff`, `exists_power`: the bytes other than `{00}` are the powers of `{03}`, which
  has order 255.
* `invCipher_cipher`: the inverse cipher undoes the cipher.
* `decrypt_encrypt`: the same for blocks of bytes.
-/

namespace Aes

/-! ## Bytes -/

/-- A byte, as a polynomial of degree less than eight over the field with two elements. -/
abbrev Byte := BitVec 8

/-- Multiplication by `{02}`, modulo the polynomial `{01}{1b}`. -/
def xTimes (b : Byte) : Byte :=
  if b.msb then (b <<< 1) ^^^ 0x1b else b <<< 1

/-- The sum of bytes. -/
def sum (bytes : List Byte) : Byte :=
  bytes.foldr (· ^^^ ·) 0

/-- The product of two bytes: the sum of the multiples of the first for the bits of the second. -/
def mul (a b : Byte) : Byte :=
  sum ((List.range 8).map fun i => if b.getLsbD i then xTimes^[i] a else 0)

/-- The multiplicative inverse; `{00}` is mapped to itself. -/
def inv (b : Byte) : Byte :=
  (((List.range 256).map (BitVec.ofNat 8)).find? fun c => mul b c = 1).getD 0

/-! ### Maps that respect sums -/

/-- `f` respects sums. -/
def Additive (f : Byte → Byte) : Prop :=
  ∀ a b, f (a ^^^ b) = f a ^^^ f b

theorem xor_xor_cancel (a b : Byte) : a ^^^ b ^^^ b = a := by
  rw [BitVec.xor_assoc, BitVec.xor_self, BitVec.xor_zero]

theorem xor_xor_xor_comm (a b c d : Byte) : (a ^^^ b) ^^^ (c ^^^ d) = (a ^^^ c) ^^^ (b ^^^ d) := by
  ac_rfl

/-- Sums add up term by term: addition in the field is carry-free. -/
theorem sum_map_xor {ι : Type} (items : List ι) (f g : ι → Byte) :
    sum (items.map fun i => f i ^^^ g i) = sum (items.map f) ^^^ sum (items.map g) := by
  induction items with
  | nil => exact (BitVec.xor_self (x := 0#8)).symm
  | cons i items ih =>
    show (f i ^^^ g i) ^^^ sum (items.map fun i => f i ^^^ g i) =
      (f i ^^^ sum (items.map f)) ^^^ (g i ^^^ sum (items.map g))
    rw [ih, xor_xor_xor_comm]

theorem Additive.zero {f : Byte → Byte} (h : Additive f) : f 0 = 0 := by
  have hzero := h 0 0
  rwa [BitVec.xor_self, BitVec.xor_self] at hzero

/-- An additive map goes through a sum. -/
theorem Additive.sum {f : Byte → Byte} (h : Additive f) (bytes : List Byte) :
    f (Aes.sum bytes) = Aes.sum (bytes.map f) := by
  induction bytes with
  | nil => exact h.zero
  | cons b bytes ih =>
    show f (b ^^^ Aes.sum bytes) = f b ^^^ Aes.sum (bytes.map f)
    rw [h, ih]

theorem Additive.comp {f g : Byte → Byte} (hf : Additive f) (hg : Additive g) :
    Additive fun b => f (g b) := by
  intro a b
  show f (g (a ^^^ b)) = _
  rw [hg, hf]

/-- Additive maps can be iterated. -/
theorem Additive.iterate {f : Byte → Byte} (h : Additive f) (n : ℕ) : Additive f^[n] := by
  induction n with
  | zero => exact fun a b => rfl
  | succ n ih =>
    intro a b
    rw [Function.iterate_succ_apply', Function.iterate_succ_apply', Function.iterate_succ_apply',
      ih, h]

/-- Every byte can be checked. -/
theorem forall_byte {p : Byte → Bool}
    (h : ((List.range 256).all fun n => p (BitVec.ofNat 8 n)) = true) (b : Byte) : p b = true := by
  have hmem : b.toNat ∈ List.range 256 := List.mem_range.mpr b.isLt
  have hb := List.all_eq_true.mp h b.toNat hmem
  rwa [BitVec.ofNat_toNat, BitVec.setWidth_eq] at hb

/-- A byte is the sum of its bits. -/
theorem sum_bits (b : Byte) :
    sum ((List.range 8).map fun i => if b.getLsbD i then BitVec.twoPow 8 i else 0) = b := by
  have hall := forall_byte (p := fun b => sum ((List.range 8).map fun i =>
    if b.getLsbD i then BitVec.twoPow 8 i else 0) = b) (by decide +kernel) b
  simpa using hall

/-- Two maps that respect sums are equal if they agree on the bits. -/
theorem Additive.ext {f g : Byte → Byte} (hf : Additive f) (hg : Additive g)
    (h : ∀ i < 8, f (BitVec.twoPow 8 i) = g (BitVec.twoPow 8 i)) (b : Byte) : f b = g b := by
  rw [← sum_bits b, hf.sum, hg.sum, List.map_map, List.map_map]
  congr 1
  refine List.map_congr_left fun i hi => ?_
  simp only [Function.comp]
  split_ifs
  · exact h i (List.mem_range.mp hi)
  · rw [hf.zero, hg.zero]

/-! ### Multiplication -/

/-- Multiplication by `x` is additive, the reduction included. -/
theorem additive_xTimes : Additive xTimes := by
  intro a b
  unfold xTimes
  rw [BitVec.msb_xor, BitVec.shiftLeft_xor_distrib]
  cases a.msb <;> cases b.msb
  · rfl
  · show a <<< 1 ^^^ b <<< 1 ^^^ 0x1b = a <<< 1 ^^^ (b <<< 1 ^^^ 0x1b)
    ac_rfl
  · show a <<< 1 ^^^ b <<< 1 ^^^ 0x1b = a <<< 1 ^^^ 0x1b ^^^ b <<< 1
    ac_rfl
  · show a <<< 1 ^^^ b <<< 1 = a <<< 1 ^^^ 0x1b#8 ^^^ (b <<< 1 ^^^ 0x1b#8)
    rw [xor_xor_xor_comm, BitVec.xor_self, BitVec.xor_zero]

/-- The product is additive in its second factor: each of its eight terms is. -/
theorem additive_mul_right (a : Byte) : Additive (mul a) := by
  intro x y
  unfold mul
  rw [← sum_map_xor]
  congr 1
  refine List.map_congr_left fun i _ => ?_
  rw [BitVec.getLsbD_xor]
  cases x.getLsbD i <;> cases y.getLsbD i <;> simp

/-- The product is additive in its first factor: the masks that select the terms are. -/
theorem additive_mul_left (b : Byte) : Additive fun a => mul a b := by
  intro x y
  show mul (x ^^^ y) b = mul x b ^^^ mul y b
  unfold mul
  rw [← sum_map_xor]
  congr 1
  refine List.map_congr_left fun i _ => ?_
  split_ifs
  · exact additive_xTimes.iterate i x y
  · rfl

/-- Multiplication by a bit. -/
theorem mul_twoPow (a : Byte) {i : ℕ} (hi : i < 8) : mul a (BitVec.twoPow 8 i) = xTimes^[i] a := by
  interval_cases i <;> simp [mul, sum, List.range_succ, BitVec.getLsbD_twoPow]

theorem twoPow_eq : ∀ i < 8, BitVec.twoPow 8 i = xTimes^[i] 1 := by
  decide +kernel

theorem mul_one (a : Byte) : mul a 1 = a :=
  mul_twoPow a (i := 0) (by decide)

/-- Multiplication by `x` can be moved out of a product, by additivity in the first factor from the
eight powers of `x`. -/
theorem mul_xTimes (a b : Byte) : mul a (xTimes b) = xTimes (mul a b) := by
  refine Additive.ext ((additive_mul_right a).comp additive_xTimes)
    (additive_xTimes.comp (additive_mul_right a)) (fun i hi => ?_) b
  show mul a (xTimes (BitVec.twoPow 8 i)) = xTimes (mul a (BitVec.twoPow 8 i))
  rw [mul_twoPow a hi, ← Function.iterate_succ_apply' xTimes]
  by_cases hlast : i = 7
  · -- the eighth power of `{02}` is `{1b}`, for every factor
    subst hlast
    refine Additive.ext (additive_mul_left _) (additive_xTimes.iterate 8) ?_ a
    decide +kernel
  · have hnext : xTimes (BitVec.twoPow 8 i) = BitVec.twoPow 8 (i + 1) := by
      rw [twoPow_eq i hi, twoPow_eq (i + 1) (by omega), Function.iterate_succ_apply']
    rw [hnext, mul_twoPow a (by omega)]

/-- Powers of `x` can be moved out of a product. -/
theorem mul_iterate_xTimes (a b : Byte) (n : ℕ) : mul a (xTimes^[n] b) = xTimes^[n] (mul a b) := by
  induction n with
  | zero => rfl
  | succ n ih =>
    rw [Function.iterate_succ_apply', mul_xTimes, ih, ← Function.iterate_succ_apply' xTimes]

/-- The product is commutative: expand one factor into powers of `x`. -/
theorem mul_comm (a b : Byte) : mul a b = mul b a := by
  refine Additive.ext (additive_mul_right a) (additive_mul_left a) (fun j hj => ?_) b
  refine Additive.ext (additive_mul_left _) (additive_mul_right _) (fun i hi => ?_) a
  rw [mul_twoPow _ hj, mul_twoPow _ hi, twoPow_eq i hi, twoPow_eq j hj,
    ← Function.iterate_add_apply, ← Function.iterate_add_apply, Nat.add_comm]

/-- The product is associative, by expanding the middle factor. -/
theorem mul_assoc (a b c : Byte) : mul (mul a b) c = mul a (mul b c) := by
  refine Additive.ext (additive_mul_right (mul a b))
    ((additive_mul_right a).comp (additive_mul_right b)) (fun k hk => ?_) c
  show mul (mul a b) (BitVec.twoPow 8 k) = mul a (mul b (BitVec.twoPow 8 k))
  rw [mul_twoPow _ hk, mul_twoPow _ hk, mul_iterate_xTimes]

theorem one_mul (a : Byte) : mul 1 a = a := by
  rw [mul_comm, mul_one]

theorem mul_xor (a x y : Byte) : mul a (x ^^^ y) = mul a x ^^^ mul a y :=
  additive_mul_right a x y

theorem xor_mul (x y b : Byte) : mul (x ^^^ y) b = mul x b ^^^ mul y b :=
  additive_mul_left b x y

theorem zero_mul (b : Byte) : mul 0 b = 0 :=
  (additive_mul_left b).zero

theorem two_mul (b : Byte) : mul 0x02 b = xTimes b := by
  rw [mul_comm]
  exact mul_twoPow b (i := 1) (by decide)

theorem three_mul (b : Byte) : mul 0x03 b = xTimes b ^^^ b := by
  have hsum : (0x03 : Byte) = 0x02 ^^^ 1 := by decide
  rw [hsum, xor_mul, two_mul, one_mul]

/-! ### Inverses -/

/-- The inverse the standard gives as a power is one whenever there is an inverse at all. -/
theorem mul_inv_of_exists {b : Byte} (h : ∃ c, mul b c = 1) : mul b (inv b) = 1 := by
  unfold inv
  cases hfind : ((List.range 256).map (BitVec.ofNat 8)).find? fun c => mul b c = 1 with
  | some c => simpa using List.find?_some hfind
  | none =>
    obtain ⟨c, hc⟩ := h
    have hmem : c ∈ (List.range 256).map (BitVec.ofNat 8) :=
      List.mem_map.mpr ⟨c.toNat, List.mem_range.mpr c.isLt, by simp⟩
    have hnot := List.find?_eq_none.mp hfind c hmem
    simp [hc] at hnot

/-- Inverses are unique. -/
theorem inv_eq_of_mul_eq_one {b c : Byte} (h : mul b c = 1) : inv b = c := by
  have hinv := mul_inv_of_exists ⟨c, h⟩
  calc inv b = mul (inv b) (mul b c) := by rw [h, mul_one]
    _ = mul (mul (inv b) b) c := (mul_assoc _ _ _).symm
    _ = mul 1 c := by rw [mul_comm (inv b), hinv]
    _ = c := one_mul c

/-- The power that inverts takes zero to zero. -/
theorem inv_zero : inv 0 = 0 := by
  have hnone : (((List.range 256).map (BitVec.ofNat 8)).find? fun c => mul 0 c = 1) = none := by
    refine List.find?_eq_none.mpr fun c _ => ?_
    rw [zero_mul]
    decide
  rw [inv, hnone, Option.getD_none]

/-- The powers of the generator `{03}`. -/
def power (n : ℕ) : Byte :=
  (mul 0x03)^[n] 1

theorem power_zero : power 0 = 1 :=
  rfl

theorem power_succ (n : ℕ) : power (n + 1) = mul 0x03 (power n) :=
  Function.iterate_succ_apply' _ _ _

theorem power_add (m n : ℕ) : power (m + n) = mul (power m) (power n) := by
  induction m with
  | zero => rw [Nat.zero_add, power_zero, one_mul]
  | succ m ih => rw [Nat.succ_add, power_succ, power_succ, ih, mul_assoc]

/-- The powers at 255 and at 255 divided by its primes. -/
theorem power_values : power 15 = 0x35 ∧ power 51 = 0x0c ∧ power 85 = 0xbd ∧ power 255 = 1 := by
  have h5 : power 5 = 0x33 := by decide +kernel
  have h10 : power 10 = 0x72 := by
    rw [power_add 5 5, h5]
    decide
  have h15 : power 15 = 0x35 := by
    rw [power_add 5 10, h5, h10]
    decide
  have h25 : power 25 = 0x02 := by
    rw [power_add 10 15, h10, h15]
    decide
  have h50 : power 50 = 0x04 := by
    rw [power_add 25 25, h25]
    decide
  have h85 : power 85 = 0xbd := by
    rw [power_add 25 60, power_add 50 10, h25, h50, h10]
    decide
  refine ⟨h15, ?_, h85, ?_⟩
  · rw [power_succ, h50]
    decide
  · rw [power_add 85 170, power_add 85 85, h85]
    decide

/-- The generator has order 255. -/
theorem power_eq_one_iff {n : ℕ} : power n = 1 ↔ 255 ∣ n := by
  obtain ⟨h15, h51, h85, h255⟩ := power_values
  have hone : ∀ m, power m = 1 ↔ Function.minimalPeriod (mul 0x03) 1 ∣ m := fun m =>
    Function.isPeriodicPt_iff_minimalPeriod_dvd
  -- a proper divisor of 255 divides 15, 51 or 85
  have hdivisors : ∀ d ≤ 255, d ∣ 255 → d ∣ 15 ∨ d ∣ 51 ∨ d ∣ 85 ∨ d = 255 := by decide +kernel
  have hdvd := (hone 255).mp h255
  rw [hone]
  rcases hdivisors _ (Nat.le_of_dvd (by decide) hdvd) hdvd with h | h | h | h
  · rw [← hone, h15] at h
    exact absurd h (by decide)
  · rw [← hone, h51] at h
    exact absurd h (by decide)
  · rw [← hone, h85] at h
    exact absurd h (by decide)
  · rw [h]

theorem mul_power_sub {i : ℕ} (h : i ≤ 255) : mul (power i) (power (255 - i)) = 1 := by
  rw [← power_add, Nat.add_sub_of_le h]
  exact power_values.2.2.2

/-- No power of the generator is zero. -/
theorem power_ne_zero {i : ℕ} (h : i ≤ 255) : power i ≠ 0 := by
  intro hzero
  have hone := mul_power_sub h
  rw [hzero, zero_mul] at hone
  exact absurd hone (by decide)

/-- The powers of the generator `x + 1` up to the 255th are all different. -/
theorem nodup_powers : ((List.range 255).map power).Nodup := by
  have hne : ∀ i j, i < j → j < 255 → power i ≠ power j := by
    intro i j hij hj heq
    have hone : power (j + (255 - i)) = 1 := by
      rw [power_add, ← heq, mul_power_sub (by omega)]
    have hdvd := power_eq_one_iff.mp hone
    omega
  refine List.Nodup.map_on (fun i hi j hj heq => ?_) List.nodup_range
  rw [List.mem_range] at hi hj
  rcases Nat.lt_trichotomy i j with h | h | h
  · exact absurd heq (hne i j h hj)
  · exact h
  · exact absurd heq.symm (hne j i h hi)

/-- Every byte but `{00}` is a power of the generator. -/
theorem exists_power {b : Byte} (h : b ≠ 0) : ∃ i < 255, power i = b := by
  -- 255 distinct bytes other than `{00}` are all of them
  have hsub : (0 :: (List.range 255).map power).Nodup := by
    refine List.nodup_cons.mpr ⟨fun hmem => ?_, nodup_powers⟩
    obtain ⟨i, hi, hzero⟩ := List.mem_map.mp hmem
    exact power_ne_zero (List.mem_range.mp hi).le hzero
  have hall : (0 :: (List.range 255).map power) ⊆ (List.range 256).map (BitVec.ofNat 8) := by
    intro c _
    exact List.mem_map.mpr ⟨c.toNat, List.mem_range.mpr c.isLt, by simp⟩
  have hperm := (hsub.subperm hall).perm_of_length_le (by simp)
  have hmem : b ∈ 0 :: (List.range 255).map power :=
    hperm.mem_iff.mpr (List.mem_map.mpr ⟨b.toNat, List.mem_range.mpr b.isLt, by simp⟩)
  rcases List.mem_cons.mp hmem with hzero | hmem
  · exact absurd hzero h
  · obtain ⟨i, hi, hb⟩ := List.mem_map.mp hmem
    exact ⟨i, List.mem_range.mp hi, hb⟩

/-- The inverse of a power. -/
theorem inv_power {i : ℕ} (h : i < 255) : inv (power i) = power ((255 - i) % 255) := by
  apply inv_eq_of_mul_eq_one
  rw [← power_add, power_eq_one_iff]
  omega

theorem mul_inv {b : Byte} (h : b ≠ 0) : mul b (inv b) = 1 := by
  obtain ⟨i, hi, rfl⟩ := exists_power h
  exact mul_inv_of_exists ⟨_, mul_power_sub hi.le⟩

/-- The inverse of the inverse. -/
theorem inv_inv (b : Byte) : inv (inv b) = b := by
  by_cases h : b = 0
  · rw [h, inv_zero, inv_zero]
  · apply inv_eq_of_mul_eq_one
    rw [mul_comm, mul_inv h]

/-! ### The substitution of bytes -/

/-- The bits of a byte from the lowest on. -/
def ofBits (bit : ℕ → Bool) : Byte :=
  BitVec.ofBoolListLE [bit 0, bit 1, bit 2, bit 3, bit 4, bit 5, bit 6, bit 7]

/-- The affine transformation of the substitution. -/
def affine (b : Byte) : Byte :=
  ofBits fun i => b.getLsbD i ^^ b.getLsbD ((i + 4) % 8) ^^ b.getLsbD ((i + 5) % 8) ^^
    b.getLsbD ((i + 6) % 8) ^^ b.getLsbD ((i + 7) % 8) ^^ (0x63 : Byte).getLsbD i

/-- The affine transformation of the inverse substitution. -/
def invAffine (b : Byte) : Byte :=
  ofBits fun i => b.getLsbD ((i + 2) % 8) ^^ b.getLsbD ((i + 5) % 8) ^^ b.getLsbD ((i + 7) % 8) ^^
    (0x05 : Byte).getLsbD i

/-- The substitution of a byte. -/
def subByte (b : Byte) : Byte :=
  affine (inv b)

/-- The inverse substitution of a byte. -/
def invSubByte (b : Byte) : Byte :=
  inv (invAffine b)

theorem invAffine_affine (b : Byte) : invAffine (affine b) = b := by
  have hall := forall_byte (p := fun b => invAffine (affine b) = b) (by decide +kernel) b
  simpa using hall

theorem invSubByte_subByte (b : Byte) : invSubByte (subByte b) = b := by
  rw [invSubByte, subByte, invAffine_affine, inv_inv]

/-! ## The state -/

/-- A word of the key schedule. -/
abbrev Word := Fin 4 → Byte

/-- The state: row, then column. -/
abbrev State := Fin 4 → Fin 4 → Byte

/-- `SubBytes`. -/
def subBytes (s : State) : State :=
  fun r c => subByte (s r c)

/-- `ShiftRows`: row `r` is rotated by `r` columns. -/
def shiftRows (s : State) : State :=
  fun r c => s r (c + r)

/-- Rows and columns are counted modulo four. -/
instance neZeroFour : NeZero 4 := inferInstance

/-- `MixColumns`: each column is multiplied by the polynomial `{03}x³ + {01}x² + {01}x + {02}`. -/
def mixColumns (s : State) : State :=
  fun r c => mul 0x02 (s r c) ^^^ mul 0x03 (s (r + 1) c) ^^^ s (r + 2) c ^^^ s (r + 3) c

/-- `AddRoundKey`, with the four words of a round. -/
def addRoundKey (key : Fin 4 → Word) (s : State) : State :=
  fun r c => s r c ^^^ key c r

/-- `InvSubBytes`. -/
def invSubBytes (s : State) : State :=
  fun r c => invSubByte (s r c)

/-- `InvShiftRows`. -/
def invShiftRows (s : State) : State :=
  fun r c => s r (c - r)

/-- `InvMixColumns`: each column is multiplied by `{0b}x³ + {0d}x² + {09}x + {0e}`. -/
def invMixColumns (s : State) : State :=
  fun r c => mul 0x0e (s r c) ^^^ mul 0x0b (s (r + 1) c) ^^^ mul 0x0d (s (r + 2) c) ^^^
    mul 0x09 (s (r + 3) c)

theorem invSubBytes_subBytes (s : State) : invSubBytes (subBytes s) = s := by
  funext r c
  exact invSubByte_subByte (s r c)

/-- Each row is rotated back. -/
theorem invShiftRows_shiftRows (s : State) : invShiftRows (shiftRows s) = s := by
  have hcancel : ∀ r c : Fin 4, c - r + r = c := by decide
  funext r c
  show s r (c - r + r) = s r c
  rw [hcancel]

theorem addRoundKey_addRoundKey (key : Fin 4 → Word) (s : State) :
    addRoundKey key (addRoundKey key s) = s := by
  funext r c
  exact xor_xor_cancel (s r c) (key c r)

/-- The two polynomials are inverse to each other: what is left of a byte in each place. -/
theorem mix_coefficients (x : Byte) :
    (mul 0x0e (mul 0x02 x) ^^^ mul 0x0b x ^^^ mul 0x0d x ^^^ mul 0x09 (mul 0x03 x) = x) ∧
    (mul 0x0e (mul 0x03 x) ^^^ mul 0x0b (mul 0x02 x) ^^^ mul 0x0d x ^^^ mul 0x09 x = 0) ∧
    (mul 0x0e x ^^^ mul 0x0b (mul 0x03 x) ^^^ mul 0x0d (mul 0x02 x) ^^^ mul 0x09 x = 0) ∧
    (mul 0x0e x ^^^ mul 0x0b x ^^^ mul 0x0d (mul 0x03 x) ^^^ mul 0x09 (mul 0x02 x) = 0) := by
  have hone : mul 0x0e 0x02 ^^^ 0x0b ^^^ 0x0d ^^^ mul 0x09 0x03 = (1 : Byte) := by decide
  have htwo : mul 0x0e 0x03 ^^^ mul 0x0b 0x02 ^^^ 0x0d ^^^ 0x09 = (0 : Byte) := by decide
  have hthree : 0x0e ^^^ mul 0x0b 0x03 ^^^ mul 0x0d 0x02 ^^^ 0x09 = (0 : Byte) := by decide
  have hfour : 0x0e ^^^ 0x0b ^^^ mul 0x0d 0x03 ^^^ mul 0x09 0x02 = (0 : Byte) := by decide
  refine ⟨?_, ?_, ?_, ?_⟩
  · rw [← mul_assoc, ← mul_assoc, ← xor_mul, ← xor_mul, ← xor_mul, hone, one_mul]
  · rw [← mul_assoc, ← mul_assoc, ← xor_mul, ← xor_mul, ← xor_mul, htwo, zero_mul]
  · rw [← mul_assoc, ← mul_assoc, ← xor_mul, ← xor_mul, ← xor_mul, hthree, zero_mul]
  · rw [← mul_assoc, ← mul_assoc, ← xor_mul, ← xor_mul, ← xor_mul, hfour, zero_mul]

/-- One byte of a column that is mixed and mixed back. -/
theorem unmix (x₀ x₁ x₂ x₃ : Byte) :
    mul 0x0e (mul 0x02 x₀ ^^^ mul 0x03 x₁ ^^^ x₂ ^^^ x₃) ^^^
      mul 0x0b (mul 0x02 x₁ ^^^ mul 0x03 x₂ ^^^ x₃ ^^^ x₀) ^^^
      mul 0x0d (mul 0x02 x₂ ^^^ mul 0x03 x₃ ^^^ x₀ ^^^ x₁) ^^^
      mul 0x09 (mul 0x02 x₃ ^^^ mul 0x03 x₀ ^^^ x₁ ^^^ x₂) = x₀ := by
  simp only [mul_xor]
  -- sixteen products, four for each byte
  calc _ = (mul 0x0e (mul 0x02 x₀) ^^^ mul 0x0b x₀ ^^^ mul 0x0d x₀ ^^^ mul 0x09 (mul 0x03 x₀)) ^^^
        (mul 0x0e (mul 0x03 x₁) ^^^ mul 0x0b (mul 0x02 x₁) ^^^ mul 0x0d x₁ ^^^ mul 0x09 x₁) ^^^
        (mul 0x0e x₂ ^^^ mul 0x0b (mul 0x03 x₂) ^^^ mul 0x0d (mul 0x02 x₂) ^^^ mul 0x09 x₂) ^^^
        (mul 0x0e x₃ ^^^ mul 0x0b x₃ ^^^ mul 0x0d (mul 0x03 x₃) ^^^ mul 0x09 (mul 0x02 x₃)) := by
          ac_rfl
    _ = x₀ ^^^ 0 ^^^ 0 ^^^ 0 := by
          rw [(mix_coefficients x₀).1, (mix_coefficients x₁).2.1, (mix_coefficients x₂).2.2.1,
            (mix_coefficients x₃).2.2.2]
    _ = x₀ := by simp

/-- Each column is undone on its own. -/
theorem invMixColumns_mixColumns (s : State) : invMixColumns (mixColumns s) = s := by
  have hrows : ∀ r : Fin 4, r + 1 + 1 = r + 2 ∧ r + 1 + 2 = r + 3 ∧ r + 1 + 3 = r ∧
      r + 2 + 1 = r + 3 ∧ r + 2 + 2 = r ∧ r + 2 + 3 = r + 1 ∧ r + 3 + 1 = r ∧ r + 3 + 2 = r + 1 ∧
      r + 3 + 3 = r + 2 := by decide
  funext r c
  obtain ⟨h11, h12, h13, h21, h22, h23, h31, h32, h33⟩ := hrows r
  simp only [invMixColumns, mixColumns, h11, h12, h13, h21, h22, h23, h31, h32, h33]
  exact unmix (s r c) (s (r + 1) c) (s (r + 2) c) (s (r + 3) c)

/-! ## The key schedule -/

/-- `RotWord`. -/
def rotWord (w : Word) : Word :=
  fun j => w (j + 1)

/-- `SubWord`. -/
def subWord (w : Word) : Word :=
  fun j => subByte (w j)

/-- The round constant `Rcon[j]`. -/
def rcon (j : ℕ) : Word :=
  fun i => if i = 0 then xTimes^[j - 1] 1 else 0

/-- The word `w[i]` of the key schedule of a key of four words. -/
def keyWord (key : Fin 4 → Word) (i : ℕ) : Word :=
  if h : i < 4 then key ⟨i, h⟩
  else
    let temp := keyWord key (i - 1)
    let temp := if i % 4 = 0 then fun j => subWord (rotWord temp) j ^^^ rcon (i / 4) j else temp
    fun j => keyWord key (i - 4) j ^^^ temp j
termination_by i

/-- The words of a round. -/
def roundKey (key : Fin 4 → Word) (n : ℕ) : Fin 4 → Word :=
  fun c => keyWord key (4 * n + c)

/-! ## The cipher -/

section Cipher

variable (key : Fin 4 → Word)

/-- The first `n` rounds, after the key of round 0. -/
def rounds : ℕ → State → State
  | 0, s => addRoundKey (roundKey key 0) s
  | n + 1, s => addRoundKey (roundKey key (n + 1)) (mixColumns (shiftRows (subBytes (rounds n s))))

/-- `Cipher`: nine rounds, and a last one without `MixColumns`. -/
def cipher (s : State) : State :=
  addRoundKey (roundKey key 10) (shiftRows (subBytes (rounds key 9 s)))

/-- The rounds of the inverse cipher from round `n` on. -/
def invRounds : ℕ → State → State
  | 0, s => addRoundKey (roundKey key 0) s
  | n + 1, s =>
    invRounds n (invSubBytes (invShiftRows (invMixColumns (addRoundKey (roundKey key (n + 1)) s))))

/-- `InvCipher`. -/
def invCipher (s : State) : State :=
  invRounds key 9 (invSubBytes (invShiftRows (addRoundKey (roundKey key 10) s)))

/-- The rounds are undone in the opposite order. -/
theorem invRounds_rounds (n : ℕ) (s : State) : invRounds key n (rounds key n s) = s := by
  induction n with
  | zero => exact addRoundKey_addRoundKey (roundKey key 0) s
  | succ n ih =>
    rw [rounds, invRounds, addRoundKey_addRoundKey, invMixColumns_mixColumns,
      invShiftRows_shiftRows, invSubBytes_subBytes, ih]

theorem invCipher_cipher (s : State) : invCipher key (cipher key s) = s := by
  rw [cipher, invCipher, addRoundKey_addRoundKey, invShiftRows_shiftRows, invSubBytes_subBytes,
    invRounds_rounds]

end Cipher

/-! ## Blocks of bytes -/

/-- The words of sixteen bytes. -/
def wordsOf (bytes : List Byte) : Fin 4 → Word :=
  fun c r => bytes.getD (4 * c + r) 0

/-- The state of sixteen bytes, column by column. -/
def stateOf (bytes : List Byte) : State :=
  fun r c => wordsOf bytes c r

/-- The bytes of a state, column by column. -/
def bytesOf (s : State) : List Byte :=
  (List.range 16).map fun i => s (Fin.ofNat 4 i) (Fin.ofNat 4 (i / 4))

/-- AES-128 encryption of a block. -/
def encrypt (key block : List Byte) : List Byte :=
  bytesOf (cipher (wordsOf key) (stateOf block))

/-- AES-128 decryption of a block. -/
def decrypt (key block : List Byte) : List Byte :=
  bytesOf (invCipher (wordsOf key) (stateOf block))

@[simp]
theorem length_bytesOf (s : State) : (bytesOf s).length = 16 := by
  simp [bytesOf]

/-- A state is read off its sixteen bytes column by column. -/
theorem stateOf_bytesOf (s : State) : stateOf (bytesOf s) = s := by
  have hindex : ∀ r c : Fin 4, (4 * c.val + r.val) < 16 ∧ Fin.ofNat 4 (4 * c.val + r.val) = r ∧
      Fin.ofNat 4 ((4 * c.val + r.val) / 4) = c := by decide
  funext r c
  obtain ⟨hlt, hrow, hcolumn⟩ := hindex r c
  simp only [stateOf, wordsOf, bytesOf, List.getD_eq_getElem?_getD, List.getElem?_map,
    List.getElem?_range hlt, Option.map_some, Option.getD_some, hrow, hcolumn]

/-- Sixteen bytes are a state and nothing else. -/
theorem bytesOf_stateOf {bytes : List Byte} (h : bytes.length = 16) :
    bytesOf (stateOf bytes) = bytes := by
  refine List.ext_getElem (by simp [h]) fun i hi hi' => ?_
  have hindex : ∀ i < 16, 4 * (Fin.ofNat 4 (i / 4)).val + (Fin.ofNat 4 i).val = i := by decide
  simp only [bytesOf, stateOf, wordsOf, List.getElem_map, List.getElem_range,
    hindex i (h ▸ hi'), List.getD_eq_getElem?_getD, List.getElem?_eq_getElem hi', Option.getD_some]

/-- Decrypting an encrypted block gives it back. -/
theorem decrypt_encrypt (key : List Byte) {block : List Byte} (h : block.length = 16) :
    decrypt key (encrypt key block) = block := by
  rw [decrypt, encrypt, stateOf_bytesOf, invCipher_cipher, bytesOf_stateOf h]

end Aes
