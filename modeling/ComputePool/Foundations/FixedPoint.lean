import Mathlib.Data.Rat.Floor
import Mathlib.Tactic.FieldSimp
import ComputePool.Foundations.Numeral

/-!
# Numbers with a fixed number of decimals

`round(x, digits)`, and `f"{x:.3f}"` with what `float` makes of the text again.

* `roundTo`: it keeps the order of numbers, and integers are left as they are.
* `thousandths`: a number of thousandths with a point.
* `floatOf_thousandths`: it reads back as the double nearest to that number.
* `fixedText`: the text of a float that is not negative; `abs_sub_of_fixedText` says how far the
  number it reads back as may be away.
-/

namespace Numeral

open Text

/-! ## Rounding -/

/-- `round(q, digits)`. -/
def roundTo (digits : ℕ) (q : ℚ) : ℚ :=
  (PyFloat.roundEven (q * 10 ^ digits) : ℚ) / 10 ^ digits

/-- Rounding to decimals keeps order. -/
theorem roundTo_mono (digits : ℕ) {q r : ℚ} (h : q ≤ r) : roundTo digits q ≤ roundTo digits r := by
  have hscaled : q * 10 ^ digits ≤ r * 10 ^ digits :=
    mul_le_mul_of_nonneg_right h (by positivity)
  rw [roundTo, roundTo]
  refine div_le_div_of_nonneg_right ?_ (by positivity)
  exact_mod_cast roundEven_mono hscaled

/-- An integer is not rounded. -/
@[simp]
theorem roundTo_intCast (digits : ℕ) (n : ℤ) : roundTo digits n = n := by
  have hcast : (n : ℚ) * 10 ^ digits = ((n * 10 ^ digits : ℤ) : ℚ) := by push_cast; rfl
  rw [roundTo, hcast, PyFloat.roundEven_intCast]
  push_cast
  field_simp

/-- `round(x, digits)`; the infinities and not-a-number are left as they are. -/
def PyFloat.roundTo (digits : ℕ) : PyFloat → PyFloat
  | .fin q => .fin (Numeral.roundTo digits q)
  | x => x

/-- A float that is not below an integer is not rounded below it. -/
theorem PyFloat.not_lt_of_le_roundTo (digits : ℕ) {n : ℤ} {x : PyFloat}
    (h : (PyFloat.fin n).le x) : (x.roundTo digits).lt (.fin n) = false := by
  have hle := PyFloat.le_iff.mp h
  cases x with
  | fin q =>
    have hq : (n : ℚ) ≤ q := by simpa [PyFloat.lt] using hle.2.2
    have hmono := roundTo_mono digits hq
    rw [roundTo_intCast] at hmono
    simpa [PyFloat.roundTo, PyFloat.lt] using hmono
  | inf negative => simpa [PyFloat.roundTo] using hle.2.2
  | nan => exact absurd rfl hle.2.1

/-! ## Decimal digits -/

/-- The value of a digit is its distance from zero. -/
theorem decimalValue_of_isDigit {c : Char} (h : c.isDigit) :
    decimalValue c = some (c.toNat - '0'.toNat) := by
  simp only [Char.isDigit, Bool.and_eq_true, decide_eq_true_eq] at h
  have hge : 0x30 ≤ c.toNat := h.1
  have hle : c.toNat ≤ 57 := h.2
  have hzeros : decimalZeros = 0x30 :: decimalZeros.tail := rfl
  rw [decimalValue, hzeros, List.findSome?_cons, if_pos ⟨hge, by omega⟩]
  rfl

theorem ofDigits_append (base : ℕ) (xs ys : List ℕ) :
    ofDigits base (xs ++ ys) = ys.foldl (fun n d => n * base + d) (ofDigits base xs) :=
  List.foldl_append

/-- A run of ASCII digits is read as by `Nat.ofDigitChars`. -/
theorem ofDigits_filterMap {s : Str} (h : ∀ c ∈ s, c.isDigit) (n : ℕ) :
    (s.filterMap decimalValue).foldl (fun n d => n * 10 + d) n = Nat.ofDigitChars 10 s n := by
  induction s generalizing n with
  | nil => rfl
  | cons c s ih =>
    have hc := decimalValue_of_isDigit (h c List.mem_cons_self)
    rw [List.filterMap_cons_some hc, List.foldl_cons,
      ih (fun d hd => h d (List.mem_cons_of_mem c hd)), Nat.ofDigitChars_cons, Nat.mul_comm]

/-- Digits alone are read as digits, with no underscore between them. -/
theorem optionalDigits_of_isDigit {s : Str} (h : ∀ c ∈ s, c.isDigit) :
    optionalDigits s = some (s.filterMap decimalValue) := by
  unfold optionalDigits
  split_ifs with hs
  · rw [hs, List.filterMap_nil]
  · exact digits_of_decimal hs fun c hc => by rw [decimalValue_of_isDigit (h c hc)]; rfl

/-- A padded number is made of digits. -/
theorem isDigit_of_mem_leftpad {n width : ℕ} {c : Char}
    (h : c ∈ (natText n).leftpad width '0') : c.isDigit := by
  rw [List.leftpad] at h
  rcases List.mem_append.mp h with h | h
  · rw [List.eq_of_mem_replicate h]
    rfl
  · exact isDigit_of_mem_natText h

/-- Zeros on the left change nothing in the number read. -/
theorem ofDigitChars_leftpad (n width init : ℕ) :
    Nat.ofDigitChars 10 ((natText n).leftpad width '0') init =
      10 ^ ((natText n).leftpad width '0').length * init + n := by
  rw [Nat.ofDigitChars_eq_ofDigitChars_zero, List.leftpad, Nat.ofDigitChars_append,
    Nat.ofDigitChars_replicate_zero, Nat.mul_zero, natText, Nat.toList_repr,
    Nat.ofDigitChars_ten_toDigits]

theorem length_natText_le {n k : ℕ} (hk : 0 < k) (h : n < 10 ^ k) : (natText n).length ≤ k := by
  rw [natText, Nat.toList_repr]
  exact (Nat.length_toDigits_le_iff (by decide) hk).mpr h

theorem natText_ne_nil (n : ℕ) : natText n ≠ [] := by
  rw [natText, Nat.toList_repr, ← List.length_pos_iff]
  exact Nat.length_toDigits_pos

/-- `int(str(n))`. -/
theorem intOf_natText {n : ℕ} (h : (natText n).length ≤ maxDigits) :
    intOf (natText n) = some (n : ℤ) := by
  have hdecimal : ∀ c ∈ natText n, (decimalValue c).isSome := fun c hc => by
    rw [decimalValue_of_isDigit (isDigit_of_mem_natText hc)]
    rfl
  rw [intOf_of_decimal (natText_ne_nil n) hdecimal, if_pos h, natOf, ofDigits,
    ofDigits_filterMap fun c => isDigit_of_mem_natText, natText, Nat.toList_repr,
    Nat.ofDigitChars_ten_toDigits]

/-! ## Thousandths -/

/-- `n / 1000`, with three decimals. -/
def thousandths (n : ℕ) : Str :=
  natText (n / 1000) ++ '.' :: (natText (n % 1000)).leftpad 3 '0'

/-- `f"{q:.3f}"`, for a number that is not negative. -/
def fixedText (q : ℚ) : Str :=
  thousandths (PyFloat.roundEven (q * 1000)).toNat

example : fixedText (1700000000 + 1 / 16) = "1700000000.062".toList := by decide +kernel

variable {n : ℕ}

/-- Only digits and the point are written. -/
theorem mem_thousandths {c : Char} (h : c ∈ thousandths n) : c.isDigit ∨ c = '.' := by
  rcases List.mem_append.mp h with h | h
  · exact .inl (isDigit_of_mem_natText h)
  · rcases List.mem_cons.mp h with rfl | h
    · exact .inr rfl
    · exact .inl (isDigit_of_mem_leftpad h)

theorem isSpace_of_mem_thousandths {c : Char} (h : c ∈ thousandths n) : isSpace c = false := by
  rcases mem_thousandths h with h | rfl
  · exact isSpace_eq_false_of_decimal (by rw [decimalValue_of_isDigit h]; rfl)
  · decide +kernel

theorem thousandths_ne_nil (n : ℕ) : thousandths n ≠ [] := by
  simp [thousandths]

/-- The digits before and after the point, read as one number. -/
theorem decimalOf_thousandths (n : ℕ) : decimalOf (thousandths n) = some ((n : ℚ) / 1000) := by
  have hwhole : ∀ c ∈ natText (n / 1000), c.isDigit := fun c => isDigit_of_mem_natText
  have hfraction : ∀ c ∈ (natText (n % 1000)).leftpad 3 '0', c.isDigit :=
    fun c => isDigit_of_mem_leftpad
  have hne {c d : Char} (hc : c.isDigit) (hd : d.isDigit = false) : c ≠ d := by
    rintro rfl
    simp [hc] at hd
  have hexponent : ∀ c ∈ thousandths n, decide (c ≠ 'e' ∧ c ≠ 'E') = true := by
    intro c hc
    rcases mem_thousandths hc with hc | rfl
    · simp [hne hc (d := 'e') (by decide), hne hc (d := 'E') (by decide)]
    · decide
  have hpoint : ∀ c ∈ natText (n / 1000), decide (c ≠ '.') = true := by
    intro c hc
    simp [hne (hwhole c hc) (d := '.') (by decide)]
  have htake : (thousandths n).takeWhile (fun c => c ≠ '.') = natText (n / 1000) := by
    rw [thousandths, List.takeWhile_append_of_pos hpoint]
    simp
  have hdrop : ((thousandths n).dropWhile (fun c => c ≠ '.')).drop 1 =
      (natText (n % 1000)).leftpad 3 '0' := by
    rw [thousandths, List.dropWhile_append_of_pos hpoint]
    simp
  have hlength : ((natText (n % 1000)).leftpad 3 '0').length = 3 := by
    have hle := length_natText_le (n := n % 1000) (k := 3) (by decide) (by omega)
    rw [List.length_leftpad]
    omega
  have hlast : (natText (n % 1000)).leftpad 3 '0' ≠ [] := by
    rw [← List.length_pos_iff, hlength]
    decide
  have hdigits : ofDigits 10 ((natText (n / 1000)).filterMap decimalValue ++
      ((natText (n % 1000)).leftpad 3 '0').filterMap decimalValue) = n := by
    rw [ofDigits_append, ofDigits, ofDigits_filterMap hwhole, ofDigits_filterMap hfraction,
      ofDigitChars_leftpad, hlength, natText, Nat.toList_repr, Nat.ofDigitChars_ten_toDigits]
    omega
  have hcount : (((natText (n % 1000)).leftpad 3 '0').filterMap decimalValue).length = 3 := by
    rw [List.filterMap_length_eq_length.mpr, hlength]
    exact fun c hc => by rw [decimalValue_of_isDigit (hfraction c hc)]; rfl
  have hsome : ((natText (n % 1000)).leftpad 3 '0').filterMap decimalValue ≠ [] := by
    rw [← List.length_pos_iff, hcount]
    decide
  rw [decimalOf, List.takeWhile_eq_self_iff.mpr hexponent, List.dropWhile_eq_nil_iff.mpr hexponent,
    htake, hdrop, optionalDigits_of_isDigit hwhole, optionalDigits_of_isDigit hfraction]
  simp only [exponentOf, Option.bind_eq_bind, Option.bind_some, hsome, and_false, if_false,
    hdigits, hcount]
  norm_num
  ring

/-- The text reads back as the double nearest to the number it was made from. -/
theorem floatOf_thousandths (n : ℕ) : floatOf (thousandths n) = some (.ofRat ((n : ℚ) / 1000)) := by
  have hstrip : strip (thousandths n) = thousandths n :=
    strip_eq_self fun c hc => isSpace_of_mem_thousandths hc
  have hsign : splitSign (thousandths n) = (false, thousandths n) := by
    unfold splitSign
    split
    · next rest heq =>
      rcases mem_thousandths (n := n) (c := '-') (by simp [heq]) with h | h
      · exact absurd h (by decide)
      · exact absurd h (by decide)
    · next rest heq =>
      rcases mem_thousandths (n := n) (c := '+') (by simp [heq]) with h | h
      · exact absurd h (by decide)
      · exact absurd h (by decide)
    · rfl
  -- no word has a point in it
  have hword {word : Str} (hpoint : '.' ∉ word) : (thousandths n).map Char.toLower ≠ word := by
    rintro rfl
    exact hpoint (List.mem_map.mpr ⟨'.', by simp [thousandths], by decide⟩)
  unfold floatOf
  rw [hstrip, hsign]
  dsimp only
  rw [if_neg (not_or.mpr ⟨hword (by decide), hword (by decide)⟩), if_neg (hword (by decide)),
    decimalOf_thousandths]
  rfl

/-- What is read back is at most half a thousandth away, and what the double rounds. -/
theorem abs_sub_of_fixedText {q : ℚ} (hq : 0 ≤ q) (hlt : q + 1 < floatOverflow) :
    ∃ stamped, floatOf (fixedText q) = some (.fin stamped) ∧
      |q - stamped| ≤ 1 / 2000 + (q + 2) / 2 ^ 53 := by
  have hround := abs_sub_roundEven_le (q * 1000)
  rw [abs_le] at hround
  have hnonneg : 0 ≤ PyFloat.roundEven (q * 1000) := by
    by_contra hneg
    have hle : (PyFloat.roundEven (q * 1000) : ℚ) ≤ -1 := by
      exact_mod_cast Int.le_sub_one_of_lt (not_le.mp hneg)
    linarith
  obtain ⟨n, hn⟩ := Int.eq_ofNat_of_zero_le hnonneg
  rw [fixedText, hn, Int.toNat_natCast, floatOf_thousandths]
  rw [hn, Int.cast_natCast] at hround
  have hcast : (0 : ℚ) ≤ (n : ℚ) / 1000 := by positivity
  have habs : |q - (n : ℚ) / 1000| ≤ 1 / 2000 := by
    rw [abs_le]
    exact ⟨by linarith, by linarith⟩
  have hfinite : PyFloat.ofRat ((n : ℚ) / 1000) = .fin (binary64 ((n : ℚ) / 1000)) := by
    have hoverflow : (0 : ℚ) < floatOverflow := by linarith
    rw [PyFloat.ofRat, if_neg (by linarith), if_neg (by linarith)]
  refine ⟨_, congrArg some hfinite, ?_⟩
  -- the number of thousandths is not always a double
  have hdouble := abs_binary64_sub_le ((n : ℚ) / 1000)
  rw [abs_sub_comm, abs_of_nonneg hcast] at hdouble
  have hnear : ((n : ℚ) / 1000 + 1) / 2 ^ 53 ≤ (q + 2) / 2 ^ 53 :=
    div_le_div_of_nonneg_right (by linarith) (by positivity)
  exact (abs_sub_le q ((n : ℚ) / 1000) _).trans (add_le_add habs (hdouble.trans hnear))

end Numeral
