import Mathlib.Data.Int.Log
import Mathlib.Data.Rat.Floor
import Mathlib.Algebra.Order.Ring.Rat
import Mathlib.Algebra.Order.Ring.Abs
import Mathlib.Tactic.FieldSimp
import Mathlib.Tactic.Linarith
import Mathlib.Tactic.Ring

/-!
# Binary64

The floats of Python as rational numbers, and how the interpreter rounds a number to one of them:
to the nearest double, of two to the one whose last digit is even, with gradual underflow and with
the overflow to infinity. The sign of a zero is not kept.

* `roundEven`: the nearest integer.
* `binary64`: the nearest double.
* `binary64_of_multiple`: a number with at most 53 binary digits is one.
* `binary64_mono`: rounding keeps the order of numbers.
* `abs_binary64_sub_le`: how far it moves a number.
-/

namespace Numeral

/-- A Python float: a finite number, an infinity or not-a-number. -/
inductive PyFloat
  | fin (q : ℚ)
  | inf (negative : Bool)
  | nan
  deriving DecidableEq, Repr

/-! ## Integers -/

/-- The nearest integer, the even one of two. -/
def PyFloat.roundEven (q : ℚ) : ℤ :=
  let below := q.floor
  let rest := q - below
  if rest < 1 / 2 then below
  else if 1 / 2 < rest then below + 1
  else if below % 2 = 0 then below else below + 1

open PyFloat

variable {q r : ℚ}

@[simp]
theorem PyFloat.roundEven_intCast (n : ℤ) : roundEven n = n := by
  rw [roundEven, Rat.floor_intCast]
  simp

/-- Rounding moves a number by at most one half. -/
theorem abs_sub_roundEven_le (q : ℚ) : |q - roundEven q| ≤ 1 / 2 := by
  have hlow := Rat.floor_le q
  have hhigh := Rat.lt_floor_add_one q
  push_cast at hhigh
  rw [roundEven, abs_le]
  split_ifs with hbelow habove heven
  · exact ⟨by linarith, by linarith⟩
  · push_cast
    exact ⟨by linarith, by linarith⟩
  · exact ⟨by linarith, by linarith⟩
  · push_cast
    exact ⟨by linarith, by linarith⟩

/-- Rounding to an integer keeps order; only a tie between neighbours has to be looked at. -/
theorem roundEven_mono (h : q ≤ r) : roundEven q ≤ roundEven r := by
  have hq := Rat.floor_le q
  have hr := Rat.lt_floor_add_one r
  have hfloor : q.floor ≤ r.floor := Rat.floor_monotone h
  rcases hfloor.lt_or_eq with hlt | heq
  · -- the numbers are rounded to integers that cannot cross
    simp only [roundEven]
    split_ifs <;> omega
  · have hrest : q - q.floor ≤ r - q.floor := by linarith
    simp only [roundEven, ← heq]
    split_ifs <;> first | omega | (exfalso; linarith)

/-- No side of zero is preferred. -/
theorem roundEven_neg (q : ℚ) : roundEven (-q) = -roundEven q := by
  have hlow := Rat.floor_le q
  have hhigh := Rat.lt_floor_add_one q
  push_cast at hhigh
  by_cases hint : q = q.floor
  · rw [hint, ← Int.cast_neg, roundEven_intCast, roundEven_intCast]
  · -- the integer below the negative is the one above the number
    have hfloor : (-q).floor = -q.floor - 1 := by
      refine le_antisymm ?_ ?_
      · have hlt : (-q).floor < -q.floor := by
          have hle := Rat.floor_le (-q)
          have hne := lt_of_le_of_ne hlow (Ne.symm hint)
          have : ((-q).floor : ℚ) < ((-q.floor : ℤ) : ℚ) := by push_cast; linarith
          exact_mod_cast this
        omega
      · rw [Rat.le_floor_iff]
        push_cast
        linarith
    simp only [roundEven, hfloor]
    push_cast
    split_ifs <;> first | omega | (exfalso; linarith)

/-! ## Doubles -/

/-- The weight of the last binary digit of a double of this size, as a power of two. -/
def lastPlace (q : ℚ) : ℤ :=
  max (Int.log 2 |q| - 52) (-1074)

/-- The nearest double, of two the one whose last digit is even; its range has no end. -/
def binary64 (q : ℚ) : ℚ :=
  roundEven (q / 2 ^ lastPlace q) * 2 ^ lastPlace q

/-- The least magnitude that rounds to an infinity. -/
def floatOverflow : ℚ := 2 ^ 1024 - 2 ^ 970

/-- The float a rational number rounds to. -/
def PyFloat.ofRat (q : ℚ) : PyFloat :=
  if floatOverflow ≤ q then .inf false
  else if q ≤ -floatOverflow then .inf true
  else .fin (binary64 q)

@[simp]
theorem binary64_zero : binary64 0 = 0 := by
  rw [binary64, zero_div, ← Int.cast_zero, roundEven_intCast, Int.cast_zero, zero_mul]

@[simp]
theorem lastPlace_neg (q : ℚ) : lastPlace (-q) = lastPlace q := by
  rw [lastPlace, lastPlace, abs_neg]

theorem binary64_neg (q : ℚ) : binary64 (-q) = -binary64 q := by
  rw [binary64, binary64, lastPlace_neg, neg_div, roundEven_neg, Int.cast_neg, neg_mul]

theorem two_zpow_pos (k : ℤ) : (0 : ℚ) < 2 ^ k :=
  zpow_pos (by norm_num) k

/-- A multiple of a finer place is rounded to a multiple of it. -/
theorem multiple_div_lastPlace {z k : ℤ} (h : lastPlace q ≤ k) :
    ∃ m : ℤ, (z : ℚ) * 2 ^ k / 2 ^ lastPlace q = m := by
  obtain ⟨n, hn⟩ := Int.le.dest h
  refine ⟨z * 2 ^ n, ?_⟩
  rw [mul_div_assoc, ← zpow_sub₀ (by norm_num), ← hn, add_sub_cancel_left]
  push_cast
  rw [zpow_natCast]

/-- What lies on the places of a number is not moved by rounding to them. -/
theorem roundEven_mul_lastPlace {z k : ℤ} (h : lastPlace q ≤ k) :
    (roundEven (z * 2 ^ k / 2 ^ lastPlace q) : ℚ) * 2 ^ lastPlace q = z * 2 ^ k := by
  obtain ⟨m, hm⟩ := multiple_div_lastPlace (z := z) h
  rw [hm, roundEven_intCast, ← hm, div_mul_cancel₀ _ (two_zpow_pos _).ne']

theorem log_lt_of_abs_lt {k : ℤ} (hq : q ≠ 0) (h : |q| < 2 ^ k) : Int.log 2 |q| < k := by
  have hle := Int.zpow_log_le_self (b := 2) (by norm_num) (abs_pos.mpr hq)
  push_cast at hle
  exact (zpow_lt_zpow_iff_right₀ (by norm_num)).mp (hle.trans_lt h)

/-- **A number with at most 53 binary digits is a double.** -/
theorem binary64_of_multiple {z k : ℤ} (hz : |z| ≤ 2 ^ 53) (hk : -1074 ≤ k) :
    binary64 (z * 2 ^ k) = z * 2 ^ k := by
  rcases eq_or_ne z 0 with rfl | hne
  · simp
  have hq : (z : ℚ) * 2 ^ k ≠ 0 := mul_ne_zero (by exact_mod_cast hne) (two_zpow_pos k).ne'
  have hplace : ∀ {w j : ℤ}, |w| < 2 ^ 53 → -1074 ≤ j → (w : ℚ) * 2 ^ j = z * 2 ^ k →
      lastPlace (z * 2 ^ k) ≤ j := by
    intro w j hw hj heq
    have habs : |(z : ℚ) * 2 ^ k| < 2 ^ (53 + j) := by
      rw [← heq, abs_mul, abs_of_pos (two_zpow_pos j), zpow_add₀ (by norm_num)]
      refine mul_lt_mul_of_pos_right ?_ (two_zpow_pos j)
      exact_mod_cast hw
    have hlog := log_lt_of_abs_lt hq habs
    exact max_le (by omega) hj
  rcases hz.lt_or_eq with hlt | heq
  · exact roundEven_mul_lastPlace (hplace hlt hk rfl)
  · -- the largest one has 53 digits less the last, which is zero
    obtain ⟨w, hw, hwz⟩ : ∃ w : ℤ, |w| = 2 ^ 52 ∧ z = w * 2 := by
      rcases abs_eq (by norm_num) |>.mp heq with rfl | rfl
      · exact ⟨2 ^ 52, by norm_num, by norm_num⟩
      · exact ⟨-2 ^ 52, by norm_num, by norm_num⟩
    have hsame : (w : ℚ) * 2 ^ (k + 1) = z * 2 ^ k := by
      rw [hwz, zpow_add_one₀ (by norm_num)]
      push_cast
      ring
    have hle := hplace (w := w) (j := k + 1) (by rw [hw]; norm_num) (by omega) hsame
    rw [binary64, ← hsame]
    rw [← hsame] at hle
    exact roundEven_mul_lastPlace hle

/-- A double is left as it is. -/
@[simp]
theorem binary64_binary64 (q : ℚ) : binary64 (binary64 q) = binary64 q := by
  refine binary64_of_multiple ?_ (le_max_right _ _)
  -- scaled, the number is below the next power of two
  have hscaled : |q / 2 ^ lastPlace q| ≤ 2 ^ 53 := by
    have hlt := Int.lt_zpow_succ_log_self (b := 2) (by norm_num) |q|
    push_cast at hlt
    have hle : (2 : ℚ) ^ (Int.log 2 |q| + 1) ≤ 2 ^ (53 + lastPlace q) := by
      refine zpow_le_zpow_right₀ (by norm_num) ?_
      have := le_max_left (Int.log 2 |q| - 52) (-1074)
      rw [lastPlace]
      omega
    rw [abs_div, abs_of_pos (two_zpow_pos _), div_le_iff₀ (two_zpow_pos _)]
    refine (hlt.le.trans hle).trans_eq ?_
    rw [zpow_add₀ (by norm_num)]
    norm_num
  have hlow := roundEven_mono (neg_le_of_abs_le hscaled)
  have hhigh := roundEven_mono (le_of_abs_le hscaled)
  have hpow : ((2 : ℚ) ^ 53) = ((2 ^ 53 : ℤ) : ℚ) := by norm_num
  rw [hpow] at hlow hhigh
  rw [← Int.cast_neg, roundEven_intCast] at hlow
  rw [roundEven_intCast] at hhigh
  exact abs_le.mpr ⟨hlow, hhigh⟩

theorem lastPlace_mono (hq : q ≠ 0) (h : |q| ≤ |r|) : lastPlace q ≤ lastPlace r :=
  max_le_max_right _ (sub_le_sub_right (Int.log_mono_right (abs_pos.mpr hq) h) _)

theorem binary64_nonneg (h : 0 ≤ q) : 0 ≤ binary64 q := by
  refine mul_nonneg ?_ (two_zpow_pos _).le
  have hround := roundEven_mono (div_nonneg h (two_zpow_pos (lastPlace q)).le)
  rw [← Int.cast_zero, roundEven_intCast] at hround
  exact_mod_cast hround

/-- Of two numbers above zero, the smaller is not rounded above the larger. -/
theorem binary64_le_of_pos (hq : 0 < q) (h : q ≤ r) : binary64 q ≤ binary64 r := by
  have hr : 0 < r := hq.trans_le h
  have hplace : lastPlace q ≤ lastPlace r :=
    lastPlace_mono hq.ne' (by rw [abs_of_pos hq, abs_of_pos hr]; exact h)
  rcases hplace.lt_or_eq with hlt | heq
  · -- a power of two lies between them, and both round to their side of it
    have hmin : -1074 ≤ lastPlace q := le_max_right _ _
    have hmax : lastPlace r = max (Int.log 2 r - 52) (-1074) := by rw [lastPlace, abs_of_pos hr]
    have hlog : lastPlace r = Int.log 2 r - 52 := by omega
    have hqlog : Int.log 2 q - 52 ≤ lastPlace q := by
      rw [lastPlace, abs_of_pos hq]
      exact le_max_left _ _
    have hbelow : q ≤ ((1 : ℤ) : ℚ) * 2 ^ Int.log 2 r := by
      have hself := Int.lt_zpow_succ_log_self (b := 2) (by norm_num) q
      push_cast at hself ⊢
      rw [one_mul]
      exact hself.le.trans (zpow_le_zpow_right₀ (by norm_num) (by omega))
    have habove : ((1 : ℤ) : ℚ) * 2 ^ Int.log 2 r ≤ r := by
      have hself := Int.zpow_log_le_self (b := 2) (by norm_num) hr
      push_cast at hself ⊢
      rwa [one_mul]
    calc binary64 q
        ≤ roundEven ((1 : ℤ) * 2 ^ Int.log 2 r / 2 ^ lastPlace q) * 2 ^ lastPlace q := by
          refine mul_le_mul_of_nonneg_right ?_ (two_zpow_pos _).le
          exact_mod_cast roundEven_mono (div_le_div_of_nonneg_right hbelow (two_zpow_pos _).le)
      _ = (1 : ℤ) * 2 ^ Int.log 2 r := roundEven_mul_lastPlace (by omega)
      _ = roundEven ((1 : ℤ) * 2 ^ Int.log 2 r / 2 ^ lastPlace r) * 2 ^ lastPlace r :=
          (roundEven_mul_lastPlace (by omega)).symm
      _ ≤ binary64 r := by
          refine mul_le_mul_of_nonneg_right ?_ (two_zpow_pos _).le
          exact_mod_cast roundEven_mono (div_le_div_of_nonneg_right habove (two_zpow_pos _).le)
  · rw [binary64, binary64, heq]
    refine mul_le_mul_of_nonneg_right ?_ (two_zpow_pos _).le
    exact_mod_cast roundEven_mono (div_le_div_of_nonneg_right h (two_zpow_pos _).le)

/-- **Rounding keeps the order of numbers.** -/
theorem binary64_mono (h : q ≤ r) : binary64 q ≤ binary64 r := by
  rcases lt_or_ge 0 q with hq | hq
  · exact binary64_le_of_pos hq h
  have hneg := binary64_nonneg (neg_nonneg.mpr hq)
  rw [binary64_neg] at hneg
  rcases le_or_gt 0 r with hr | hr
  · exact (neg_nonneg.mp hneg).trans (binary64_nonneg hr)
  · have hflip := binary64_le_of_pos (neg_pos.mpr hr) (neg_le_neg h)
    rw [binary64_neg, binary64_neg] at hflip
    exact neg_le_neg_iff.mp hflip

/-- **Rounding moves a number by little.** At most by one part in `2 ^ 53` of it, and of one. -/
theorem abs_binary64_sub_le (q : ℚ) : |binary64 q - q| ≤ (|q| + 1) / 2 ^ 53 := by
  have hpos := two_zpow_pos (lastPlace q)
  have hhalf : |binary64 q - q| ≤ 2 ^ lastPlace q / 2 := by
    have hround := abs_sub_roundEven_le (q / 2 ^ lastPlace q)
    have hfactor : binary64 q - q =
        -(q / 2 ^ lastPlace q - roundEven (q / 2 ^ lastPlace q)) * 2 ^ lastPlace q := by
      rw [neg_sub, sub_mul, div_mul_cancel₀ _ hpos.ne', binary64]
    rw [hfactor, abs_mul, abs_neg, abs_of_pos hpos]
    calc |q / 2 ^ lastPlace q - roundEven (q / 2 ^ lastPlace q)| * 2 ^ lastPlace q
        ≤ 1 / 2 * 2 ^ lastPlace q := mul_le_mul_of_nonneg_right hround hpos.le
      _ = 2 ^ lastPlace q / 2 := by ring
  have hplace : (2 : ℚ) ^ lastPlace q ≤ (|q| + 1) / 2 ^ 52 := by
    have habs := abs_nonneg q
    rw [lastPlace]
    rcases max_choice (Int.log 2 |q| - 52) (-1074) with hmax | hmax
    · rw [hmax, zpow_sub₀ (by norm_num)]
      refine div_le_div_of_nonneg_right ?_ (by positivity)
      rcases eq_or_ne q 0 with rfl | hq
      · simp
      · have hle := Int.zpow_log_le_self (b := 2) (by norm_num) (abs_pos.mpr hq)
        push_cast at hle
        linarith
    · rw [hmax]
      calc (2 : ℚ) ^ (-1074 : ℤ) ≤ 2 ^ (-52 : ℤ) := zpow_le_zpow_right₀ (by norm_num) (by norm_num)
        _ = 1 / 2 ^ 52 := by norm_num
        _ ≤ (|q| + 1) / 2 ^ 52 := div_le_div_of_nonneg_right (by linarith) (by positivity)
  calc |binary64 q - q| ≤ 2 ^ lastPlace q / 2 := hhalf
    _ ≤ (|q| + 1) / 2 ^ 52 / 2 := div_le_div_of_nonneg_right hplace (by norm_num)
    _ = (|q| + 1) / 2 ^ 53 := by ring

example : binary64 (9007199254740993 / 2 ^ 53) = 1 := by decide +kernel
example : PyFloat.ofRat (94 + (10 ^ 17 - 1) / 10 ^ 17) = .fin 95 := by decide +kernel

end Numeral
