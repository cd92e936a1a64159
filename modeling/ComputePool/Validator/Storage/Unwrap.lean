import Mathlib.Tactic.Ring
import ComputePool.Foundations.Awk
import ComputePool.Foundations.Base64

/-!
# The passphrase in the mount script

`unwrap_script` of `validator/storage/volumes.py` delivers the passphrase of an encrypted volume to
a container as two hexadecimal texts: the passphrase wrapped by exclusive or with a random pad, and
the pad. An awk program in the script reads both and writes the passphrase to a file. In its
language there is no exclusive or and no hexadecimal: a digit is looked up in a string, and the bits
of two bytes are compared from the last one on by halving both.

* `volumePassphrase`: `volume_passphrase` of `validator/storage/keys.py`.
* `halving_eq_xor`: the inner loop ends with the exclusive or.
* `unwrap_wrapped`: what the program writes is what was wrapped.
-/

namespace ComputePool.Validator.Unwrap

open Text Base64 Awk

/-! ## Wrapping -/

/-- `volume_passphrase`, from the key that was derived for the volume; `none` is the `ValueError`
for a volume without a name. -/
def volumePassphrase (derive : Str → Octets) (volumeId : Str) : Option Str :=
  if volumeId = [] then none
  else some ((encode (derive volumeId)).rdropWhile (· = '='))

/-- `passphrase.encode("ascii")`, for a text in ASCII. -/
def raw (passphrase : Str) : Octets :=
  passphrase.map Char.toNat

/-- `wrapped`: the passphrase and a pad of the same length, byte by byte. -/
def wrapped (raw pad : Octets) : Octets :=
  List.zipWith (· ^^^ ·) raw pad

/-! ## The awk program -/

/-- The variable `h`. -/
def digits : Str := "0123456789abcdef".toList

/-- The byte that two digits of a text are, for the round `i`. -/
def byteAt (text : Str) (i : ℕ) : ℤ :=
  ((index digits (substr text (2 * i + 1) 1) : ℤ) - 1) * 16 +
    index digits (substr text (2 * i + 2) 1) - 1

/-- `while(a>0||b>0)`. -/
def halving (a b r p : ℤ) : ℤ :=
  if 0 < a ∨ 0 < b then
    halving (half a) (half b) (if mod2 a ≠ mod2 b then r + p else r) (p * 2)
  else r
termination_by a.toNat + b.toNat
decreasing_by
  rw [toNat_half, toNat_half]
  omega

/-- `for(i=0;i<n;i++)` with `n=length(w)/2`, from the round `i` on: what the program writes, given
what `printf "%c"` writes for a number. -/
def unwrapFrom (printChar : ℤ → Octets) (w k : Str) (i : ℕ) : Octets :=
  if 2 * i < w.length then
    printChar (halving (byteAt w i) (byteAt k i) 0 1) ++ unwrapFrom printChar w k (i + 1)
  else []
termination_by w.length - 2 * i

/-- The program in the script, with the texts that `-v w=` and `-v k=` give it. -/
def unwrap (printChar : ℤ → Octets) (w k : Str) : Octets :=
  unwrapFrom printChar w k 0

/-! ## Exclusive or -/

/-- The loop adds the exclusive or of what is left of two numbers, in the weight of the current
bit. -/
theorem halving_natCast (a b : ℕ) (r p : ℤ) : halving a b r p = r + p * (a ^^^ b : ℕ) := by
  induction hsum : a + b using Nat.strong_induction_on generalizing a b r p with
  | _ sum ih =>
    rw [halving]
    by_cases hpos : 0 < (a : ℤ) ∨ 0 < (b : ℤ)
    · rw [if_pos hpos, half_natCast, half_natCast, ih (a / 2 + b / 2) (by omega) _ _ _ _ rfl,
        mod2_natCast, mod2_natCast, xor_halves a b]
      -- the lowest bits are the same, or they add the current power of two
      by_cases hbit : a % 2 = b % 2
      · simp only [hbit, ne_eq, not_true_eq_false, if_false]
        push_cast
        ring
      · have hcast : ((a % 2 : ℕ) : ℤ) ≠ (b % 2 : ℕ) := by exact_mod_cast hbit
        rw [if_pos hcast, if_pos hbit]
        push_cast
        ring
    · obtain ⟨rfl, rfl⟩ : a = 0 ∧ b = 0 := by omega
      simp

/-- The inner loop, as it is started, ends with the exclusive or. -/
theorem halving_eq_xor (a b : ℕ) : halving a b 0 1 = (a ^^^ b : ℕ) := by
  rw [halving_natCast, zero_add, one_mul]

/-! ## Hexadecimal -/

/-- The two digits of a byte are found again. -/
theorem exists_hexText {byte : ℕ} (h : byte < 256) (rest : Octets) :
    ∃ c d, hexText (byte :: rest) = c :: d :: hexText rest ∧
      ((index digits [c] : ℤ) - 1) * 16 + index digits [d] - 1 = byte := by
  have hindex : ∀ n < 16, index digits [digits.getD n '0'] = n + 1 := by decide +kernel
  have htext : ∀ b < 256, hexText [b] = [digits.getD (b / 16) '0', digits.getD (b % 16) '0'] := by
    decide +kernel
  have hcons : hexText (byte :: rest) = hexText [byte] ++ hexText rest := by simp [hexText]
  refine ⟨digits.getD (byte / 16) '0', digits.getD (byte % 16) '0', ?_, ?_⟩
  · rw [hcons, htext byte h]
    rfl
  · rw [hindex (byte / 16) (by omega), hindex (byte % 16) (by omega)]
    omega

theorem byteAt_zero (c d : Char) (rest : Str) :
    byteAt (c :: d :: rest) 0 = ((index digits [c] : ℤ) - 1) * 16 + index digits [d] - 1 := by
  rw [byteAt, substr_one_one, substr_two_one]

/-- The bytes of a hex text stand two characters apart. -/
theorem byteAt_succ (c d : Char) (rest : Str) (i : ℕ) :
    byteAt (c :: d :: rest) (i + 1) = byteAt rest i := by
  have hfirst : 2 * (i + 1) + 1 = 2 * i + 1 + 2 := by omega
  have hsecond : 2 * (i + 1) + 2 = 2 * i + 2 + 2 := by omega
  rw [byteAt, hfirst, hsecond, substr_cons_cons c d rest (by omega),
    substr_cons_cons c d rest (by omega), byteAt]

/-! ## The round trip -/

variable {printChar : ℤ → Octets}

/-- The rounds after the first are those of the texts without their first byte. -/
theorem unwrapFrom_succ (c d c' d' : Char) (w k : Str) (i : ℕ) :
    unwrapFrom printChar (c :: d :: w) (c' :: d' :: k) (i + 1) = unwrapFrom printChar w k i := by
  induction hleft : w.length - 2 * i using Nat.strong_induction_on generalizing i with
  | _ left ih =>
    rw [unwrapFrom, unwrapFrom.eq_def printChar w k i, byteAt_succ, byteAt_succ]
    by_cases hmore : 2 * i < w.length
    · have hmore' : 2 * (i + 1) < (c :: d :: w).length := by
        simp only [List.length_cons]
        omega
      rw [if_pos hmore, if_pos hmore', ih (w.length - 2 * (i + 1)) (by omega) (i + 1) rfl]
    · have hdone : ¬ 2 * (i + 1) < (c :: d :: w).length := by
        simp only [List.length_cons]
        omega
      rw [if_neg hmore, if_neg hdone]

/-- One round for each byte that was wrapped. -/
theorem unwrap_hexText_wrapped {raw pad : Octets} (hlen : pad.length = raw.length)
    (hraw : ∀ b ∈ raw, b < 256) (hpad : ∀ b ∈ pad, b < 256) :
    unwrap printChar (hexText (wrapped raw pad)) (hexText pad) =
      raw.flatMap fun b : ℕ => printChar b := by
  induction raw generalizing pad with
  | nil =>
    obtain rfl := List.length_eq_zero_iff.mp hlen
    rw [unwrap, unwrapFrom]
    rfl
  | cons byte raw ih =>
    obtain ⟨key, pad, rfl⟩ := List.exists_cons_of_length_eq_add_one hlen
    have hbyte : byte < 256 := hraw byte (by simp)
    have hkey : key < 256 := hpad key (by simp)
    have hxor : byte ^^^ key < 256 := Nat.xor_lt_two_pow (n := 8) hbyte hkey
    have hwrapped : wrapped (byte :: raw) (key :: pad) = (byte ^^^ key) :: wrapped raw pad := rfl
    obtain ⟨c, d, hw, hcd⟩ := exists_hexText hxor (wrapped raw pad)
    obtain ⟨c', d', hk, hcd'⟩ := exists_hexText hkey pad
    have hrest := ih (by simpa using hlen)
      (fun b hb => hraw b (List.mem_cons_of_mem _ hb))
      fun b hb => hpad b (List.mem_cons_of_mem _ hb)
    -- wrapping the byte a second time gives it back
    have hback : byte ^^^ key ^^^ key = byte := Nat.xor_xor_cancel_right ..
    rw [hwrapped, hw, hk, unwrap, unwrapFrom, if_pos (by simp), byteAt_zero, byteAt_zero, hcd, hcd',
      halving_eq_xor, hback, zero_add, unwrapFrom_succ, ← unwrap, hrest, List.flatMap_cons]

/-- The characters of a passphrase are those of Base64, without the padding. -/
theorem mem_alphabet_of_volumePassphrase {derive : Str → Octets} {volumeId passphrase : Str}
    (h : volumePassphrase derive volumeId = some passphrase) : ∀ c ∈ passphrase, c ∈ alphabet := by
  unfold volumePassphrase at h
  split_ifs at h
  obtain ⟨body, n, hencode, hbody, -⟩ := encode_eq_body (derive volumeId)
  have hpadding : ∀ c ∈ (List.replicate n '=').reverse, decide (c = '=') = true := by simp
  have hstrip : (encode (derive volumeId)).rdropWhile (· = '=') = body.rdropWhile (· = '=') := by
    rw [hencode, List.rdropWhile, List.rdropWhile, List.reverse_append,
      List.dropWhile_append_of_pos hpadding]
  intro c hc
  rw [← Option.some.inj h, hstrip] at hc
  exact hbody c ((List.rdropWhile_prefix _ _).subset hc)

/-- A character of a passphrase is one byte, and not zero. -/
theorem toNat_mem_alphabet {c : Char} (h : c ∈ alphabet) : 0 < c.toNat ∧ c.toNat < 128 := by
  have hall : (alphabet.all fun c => 0 < c.toNat && c.toNat < 128) = true := by decide +kernel
  simpa using List.all_eq_true.mp hall c h

/-- The program writes the bytes of a text of the alphabet when it is given them wrapped. -/
theorem unwrap_of_alphabet (hprint : ∀ n : ℕ, 0 < n → n < 128 → printChar n = [n])
    {passphrase : Str} (hpassphrase : ∀ c ∈ passphrase, c ∈ alphabet) {pad : Octets}
    (hlen : pad.length = passphrase.length) (hpad : ∀ b ∈ pad, b < 256) :
    unwrap printChar (hexText (wrapped (raw passphrase) pad)) (hexText pad) = raw passphrase := by
  -- the passphrase has no octet that `printf` would treat specially
  have hbytes : ∀ b ∈ raw passphrase, 0 < b ∧ b < 128 := by
    intro b hb
    obtain ⟨c, hc, rfl⟩ := List.mem_map.mp hb
    exact toNat_mem_alphabet (hpassphrase c hc)
  rw [unwrap_hexText_wrapped (by simpa [raw] using hlen) (fun b hb => (hbytes b hb).2.trans
    (by omega)) hpad]
  calc (raw passphrase).flatMap (fun b : ℕ => printChar b)
      = (raw passphrase).flatMap (fun b => [b]) :=
        List.flatMap_congr fun b hb => hprint b (hbytes b hb).1 (hbytes b hb).2
    _ = raw passphrase := List.flatMap_singleton' _

/-- What `volume_passphrase` gives for a volume is what the awk program writes on the rig. -/
theorem unwrap_volumePassphrase (hprint : ∀ n : ℕ, 0 < n → n < 128 → printChar n = [n])
    {derive : Str → Octets} {volumeId passphrase : Str}
    (h : volumePassphrase derive volumeId = some passphrase) {pad : Octets}
    (hlen : pad.length = passphrase.length) (hpad : ∀ b ∈ pad, b < 256) :
    unwrap printChar (hexText (wrapped (raw passphrase) pad)) (hexText pad) = raw passphrase :=
  unwrap_of_alphabet hprint (mem_alphabet_of_volumePassphrase h) hlen hpad

/-- **The passphrase survives its wrapping.** For every passphrase of the characters that
`volume_passphrase` can emit and every pad of the same length, the awk program writes the bytes of
the passphrase when it is given the hexadecimal digits of the wrapped bytes and of the pad, whatever
awk writes for a number that is not a character of ASCII. Its inner loop ends with the exclusive or
of any two bytes. -/
theorem unwrap_wrapped (hprint : ∀ n : ℕ, 0 < n → n < 128 → printChar n = [n])
    {passphrase : Str} (hpassphrase : ∀ c ∈ passphrase, c ∈ alphabet) {pad : Octets}
    (hlen : pad.length = passphrase.length) (hpad : ∀ b ∈ pad, b < 256) :
    unwrap printChar (hexText (wrapped (raw passphrase) pad)) (hexText pad) = raw passphrase ∧
      ∀ a < 256, ∀ b < 256, halving (a : ℕ) (b : ℕ) 0 1 = (a ^^^ b : ℕ) :=
  ⟨unwrap_of_alphabet hprint hpassphrase hlen hpad, fun a _ b _ => halving_eq_xor a b⟩

/-- What an awk that writes UTF-8 prints for a number. -/
def printUtf8 (n : ℤ) : Octets :=
  utf8Char (Char.ofNat n.toNat)

theorem unwrap_wrapped_short :
    unwrap printUtf8 (hexText (wrapped (raw "x_9Z".toList) [0, 255, 57, 128]))
        (hexText [0, 255, 57, 128]) = raw "x_9Z".toList ∧
      ∀ a < 256, ∀ b < 256, halving (a : ℕ) (b : ℕ) 0 1 = (a ^^^ b : ℕ) := by
  have hprint : ∀ n : ℕ, 0 < n → n < 128 → printUtf8 n = [n] := by
    have hall : ((List.range 128).all fun n => printUtf8 n = [n]) = true := by decide +kernel
    exact fun n _ hn => by simpa using List.all_eq_true.mp hall n (List.mem_range.mpr hn)
  have hpassphrase : ("x_9Z".toList.all fun c => c ∈ alphabet) = true := by decide +kernel
  exact unwrap_wrapped hprint (by simpa using hpassphrase) rfl (by simp)

end ComputePool.Validator.Unwrap
