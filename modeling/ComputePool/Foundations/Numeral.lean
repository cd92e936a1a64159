import ComputePool.Foundations.Binary64
import ComputePool.Foundations.Text

/-!
# Numerals as Python's `int` and `float` read them

`int(text)`, `int(text, 16)` and `float(text)` with their documented grammar: surrounding white
space, a sign, the decimal digits of every Unicode script, single underscores between digits,
the names of the infinities and of not-a-number, and the limit of 4300 digits for a decimal
integer. `none` stands for the `ValueError`.

A finite float is a rational number, the double that is nearest to what is written.
-/

namespace Numeral

open Text

/-- The code points of the digit zero in each Unicode script. -/
def decimalZeros : List ℕ :=
  [0x30, 0x660, 0x6f0, 0x7c0, 0x966, 0x9e6, 0xa66, 0xae6, 0xb66, 0xbe6, 0xc66, 0xce6, 0xd66,
    0xde6, 0xe50, 0xed0, 0xf20, 0x1040, 0x1090, 0x17e0, 0x1810, 0x1946, 0x19d0, 0x1a80, 0x1a90,
    0x1b50, 0x1bb0, 0x1c40, 0x1c50, 0xa620, 0xa8d0, 0xa900, 0xa9d0, 0xa9f0, 0xaa50, 0xabf0,
    0xff10, 0x104a0, 0x10d30, 0x11066, 0x110f0, 0x11136, 0x111d0, 0x112f0, 0x11450, 0x114d0,
    0x11650, 0x116c0, 0x11730, 0x118e0, 0x11950, 0x11c50, 0x11d50, 0x11da0, 0x16a60, 0x16ac0,
    0x16b50, 0x1d7ce, 0x1d7d8, 0x1d7e2, 0x1d7ec, 0x1d7f6, 0x1e140, 0x1e2f0, 0x1e950, 0x1fbf0]

/-- The value of a decimal digit of any script. -/
def decimalValue (c : Char) : Option ℕ :=
  decimalZeros.findSome? fun first =>
    if first ≤ c.toNat ∧ c.toNat < first + 10 then some (c.toNat - first) else none

/-- The value of a digit in a base up to 36. -/
def digitValue (base : ℕ) (c : Char) : Option ℕ :=
  let value :=
    if 'a' ≤ c ∧ c ≤ 'z' then some (c.toNat - 'a'.toNat + 10)
    else if 'A' ≤ c ∧ c ≤ 'Z' then some (c.toNat - 'A'.toNat + 10)
    else decimalValue c
  value.filter (· < base)

/-- One or more digits with single underscores between them. -/
def digits (base : ℕ) : Str → Option (List ℕ)
  | [] => none
  | [c] => (digitValue base c).map ([·])
  | c :: '_' :: rest => do return (← digitValue base c) :: (← digits base rest)
  | c :: rest => do return (← digitValue base c) :: (← digits base rest)

/-- The number written by a list of digits, most significant first. -/
def ofDigits (base : ℕ) (ds : List ℕ) : ℕ :=
  ds.foldl (fun n d => n * base + d) 0

/-- The sign in front of a numeral: whether it is negative, and the rest. -/
def splitSign : Str → Bool × Str
  | '-' :: rest => (true, rest)
  | '+' :: rest => (false, rest)
  | s => (false, s)

/-- Apply a sign. -/
def signed (negative : Bool) (n : ℕ) : ℤ :=
  if negative then -n else n

/-- The most digits `int` converts from decimal text. -/
def maxDigits : ℕ := 4300

/-- `int(text)`. -/
def intOf (s : Str) : Option ℤ := do
  let (negative, body) := splitSign (strip s)
  let ds ← digits 10 body
  if ds.length ≤ maxDigits then some (signed negative (ofDigits 10 ds)) else none

/-- `int(text, 16)`: as `intOf`, with an optional `0x` and without the limit. -/
def hexOf (s : Str) : Option ℤ := do
  let (negative, body) := splitSign (strip s)
  let body :=
    match body with
    | '0' :: 'x' :: '_' :: rest | '0' :: 'X' :: '_' :: rest => rest
    | '0' :: 'x' :: rest | '0' :: 'X' :: rest => rest
    | _ => body
  return signed negative (ofDigits 16 (← digits 16 body))

/-! ## Runs of decimal digits -/

section Decimal

variable {c : Char} {s : Str}

/-- A decimal digit is counted from the zero of its script. -/
theorem exists_zero_of_decimal {v : ℕ} (h : decimalValue c = some v) :
    ∃ first ∈ decimalZeros, first ≤ c.toNat ∧ c.toNat < first + 10 ∧ v = c.toNat - first := by
  obtain ⟨first, hfirst, hdigit⟩ := List.exists_of_findSome?_eq_some h
  simp only [Option.ite_none_right_eq_some, Option.some.injEq] at hdigit
  exact ⟨first, hfirst, hdigit.1.1, hdigit.1.2, hdigit.2.symm⟩

/-- No digit of any script is white space. -/
theorem isSpace_eq_false_of_decimal (h : (decimalValue c).isSome) : isSpace c = false := by
  have hapart : ∀ n ∈ [0x9, 0xa, 0xb, 0xc, 0xd, 0x1c, 0x1d, 0x1e, 0x1f, 0x20, 0x85, 0xa0, 0x1680,
      0x2000, 0x2001, 0x2002, 0x2003, 0x2004, 0x2005, 0x2006, 0x2007, 0x2008, 0x2009, 0x200a,
      0x2028, 0x2029, 0x202f, 0x205f, 0x3000],
      ∀ first ∈ decimalZeros, ¬ (first ≤ n ∧ n < first + 10) := by decide +kernel
  obtain ⟨v, hv⟩ := Option.isSome_iff_exists.mp h
  obtain ⟨first, hfirst, hle, hlt, -⟩ := exists_zero_of_decimal hv
  refine Bool.eq_false_iff.mpr fun hspace => ?_
  exact hapart c.toNat (of_decide_eq_true hspace) first hfirst ⟨hle, hlt⟩

/-- No digit of any script is a letter, and each counts below ten. -/
theorem digitValue_of_decimal {v : ℕ} (h : decimalValue c = some v) :
    digitValue 10 c = some v := by
  -- no block of ten digits reaches into the letters of ASCII
  have hapart : ∀ first ∈ decimalZeros, first + 10 ≤ 65 ∨ 123 ≤ first := by decide +kernel
  obtain ⟨first, hfirst, hle, hlt, hv⟩ := exists_zero_of_decimal h
  have hside := hapart first hfirst
  have hlower : ¬ ('a' ≤ c ∧ c ≤ 'z') := by
    rintro ⟨hge, hle'⟩
    have hge' : 97 ≤ c.toNat := hge
    have hle'' : c.toNat ≤ 122 := hle'
    omega
  have hupper : ¬ ('A' ≤ c ∧ c ≤ 'Z') := by
    rintro ⟨hge, hle'⟩
    have hge' : 65 ≤ c.toNat := hge
    have hle'' : c.toNat ≤ 90 := hle'
    omega
  have hten : v < 10 := by omega
  simp only [digitValue, if_neg hlower, if_neg hupper, h, Option.filter_some, hten, decide_true,
    if_true]

/-- The number that a run of decimal digits writes. -/
def natOf (s : Str) : ℕ :=
  ofDigits 10 (s.filterMap decimalValue)

/-- A text of decimal digits is read digit by digit. -/
theorem digits_of_decimal (hne : s ≠ []) (h : ∀ c ∈ s, (decimalValue c).isSome) :
    digits 10 s = some (s.filterMap decimalValue) := by
  fun_induction digits 10 s with
  | case1 => exact absurd rfl hne
  | case2 c =>
    obtain ⟨v, hv⟩ := Option.isSome_iff_exists.mp (h c (by simp))
    simp [digitValue_of_decimal hv, hv]
  | case3 c rest ih =>
    -- an underscore is no digit
    have hunderscore := h '_' (by simp)
    have hnone : decimalValue '_' = none := by decide +kernel
    simp [hnone] at hunderscore
  | case4 c rest hrest hfirst ih =>
    obtain ⟨v, hv⟩ := Option.isSome_iff_exists.mp (h c (by simp))
    rw [digitValue_of_decimal hv, ih hrest fun d hd => h d (List.mem_cons_of_mem _ hd)]
    simp [hv]

/-- `int` of a run of decimal digits. -/
theorem intOf_of_decimal (hne : s ≠ []) (h : ∀ c ∈ s, (decimalValue c).isSome) :
    intOf s = if s.length ≤ maxDigits then some (natOf s : ℤ) else none := by
  have hstrip : strip s = s := strip_eq_self fun c hc => isSpace_eq_false_of_decimal (h c hc)
  have hsign : splitSign s = (false, s) := by
    have hminus : decimalValue '-' = none := by decide +kernel
    have hplus : decimalValue '+' = none := by decide +kernel
    unfold splitSign
    split
    · simpa [hminus] using h '-' (by simp)
    · simpa [hplus] using h '+' (by simp)
    · rfl
  simp only [intOf, hstrip, hsign, digits_of_decimal hne h, Option.bind_eq_bind, Option.bind_some,
    List.filterMap_length_eq_length.mpr h, signed, natOf, Bool.false_eq_true, if_false]

end Decimal

/-- Zero or more digits. -/
def optionalDigits (s : Str) : Option (List ℕ) :=
  if s = [] then some [] else digits 10 s

/-- The exponent after a mantissa: nothing, or a letter and an integer. -/
def exponentOf : Str → Option ℤ
  | [] => some 0
  | _ :: text =>
    let (negative, body) := splitSign text
    (digits 10 body).map fun ds => signed negative (ofDigits 10 ds)

/-- The decimal part of `float(text)`, after the sign. -/
def decimalOf (s : Str) : Option ℚ := do
  let mantissa := s.takeWhile (fun c => c ≠ 'e' ∧ c ≠ 'E')
  let exponent ← exponentOf (s.dropWhile (fun c => c ≠ 'e' ∧ c ≠ 'E'))
  let whole ← optionalDigits (mantissa.takeWhile (· ≠ '.'))
  let fraction ← optionalDigits ((mantissa.dropWhile (· ≠ '.')).drop 1)
  if whole = [] ∧ fraction = [] then none
  else
    let shift : ℤ := exponent - fraction.length
    some (ofDigits 10 (whole ++ fraction) * (10 : ℚ) ^ shift)

/-- `float(text)`. -/
def floatOf (s : Str) : Option PyFloat :=
  let (negative, body) := splitSign (strip s)
  let lower := body.map Char.toLower
  if lower = "inf".toList ∨ lower = "infinity".toList then some (.inf negative)
  else if lower = "nan".toList then some .nan
  else (decimalOf body).map fun q => .ofRat (if negative then -q else q)

/-! ## Arithmetic of floats -/

namespace PyFloat

/-- `a < b`; false when one of them is not a number. -/
def lt : PyFloat → PyFloat → Bool
  | .fin a, .fin b => a < b
  | .fin _, .inf negative => !negative
  | .inf negative, .fin _ => negative
  | .inf a, .inf b => a && !b
  | .nan, _ | _, .nan => false

/-- `a <= b`; false when one of them is not a number. -/
def le (a b : PyFloat) : Bool :=
  lt a b || (a = b && a ≠ .nan)

/-- `x > 0`. -/
def positive (x : PyFloat) : Bool :=
  lt (.fin 0) x

/-- `max(a, b)`: the first one unless the second is greater. -/
def max (a b : PyFloat) : PyFloat :=
  if lt a b then b else a

/-- `min(a, b)`: the first one unless the second is smaller. -/
def min (a b : PyFloat) : PyFloat :=
  if lt b a then b else a

/-- `abs(a - b) > limit`. -/
def apart (a b : PyFloat) (limit : ℚ) : Bool :=
  match a, b with
  | .fin a, .fin b => limit < |a - b|
  | .inf a, .inf b => a ≠ b
  | .inf _, .fin _ | .fin _, .inf _ => true
  | .nan, _ | _, .nan => false

/-- `int(round(x))`; `none` when it raises. -/
def toInt : PyFloat → Option ℤ
  | .fin q => some (roundEven q)
  | .inf _ | .nan => none

/-- Of two numbers, one is at most the other unless the other is less. -/
theorem le_iff {a b : PyFloat} : a.le b ↔ a ≠ .nan ∧ b ≠ .nan ∧ ¬ b.lt a := by
  cases a with
  | fin q =>
    cases b with
    | fin r => simp [le, lt, le_iff_lt_or_eq]
    | inf negative => simp [le, lt]
    | nan => simp [le, lt]
  | inf negative =>
    cases b with
    | fin r => simp [le, lt]
    | inf negative' => cases negative <;> cases negative' <;> simp [le, lt]
    | nan => simp [le, lt]
  | nan => simp [le, lt]

/-- Rounding moves a number by less than one. -/
theorem apart_roundEven (q : ℚ) : apart (.fin (roundEven q)) (.fin q) 1 = false := by
  simp only [apart, decide_eq_false_iff_not, not_lt]
  rw [abs_sub_comm]
  exact (abs_sub_roundEven_le q).trans (by norm_num)

/-- `x * k`, for a positive number `k`. -/
def times (x : PyFloat) (k : ℚ) : PyFloat :=
  match x with
  | .fin q => ofRat (q * k)
  | .inf negative => .inf negative
  | .nan => .nan

/-! ## Floats as text -/

/-- The digits before and after the point, without zeros at the end. -/
def pointed (whole fraction : Str) : Str :=
  let fraction := (fraction.reverse.dropWhile (· = '0')).reverse
  if fraction = [] then whole else whole ++ '.' :: fraction

/-- Six digits, the first of them with the weight `10 ^ exponent`, as the format `g` writes them. -/
def generalDigits (digits : Str) (exponent : ℤ) : Str :=
  if 0 ≤ exponent ∧ exponent < 6 then
    pointed (digits.take (exponent.toNat + 1)) (digits.drop (exponent.toNat + 1))
  else if -4 ≤ exponent ∧ exponent < 0 then
    pointed ['0'] (List.replicate (-exponent - 1).toNat '0' ++ digits)
  else
    pointed (digits.take 1) (digits.drop 1) ++ 'e' :: (if exponent < 0 then '-' else '+') ::
      (natText exponent.natAbs).leftpad 2 '0'

/-- The text of the infinities and of not-a-number, or else of a finite number. -/
def textWith (finite : ℚ → Str) : PyFloat → Str
  | .fin q => finite q
  | .inf negative => if negative then "-inf".toList else "inf".toList
  | .nan => "nan".toList

/-- `f"{x:g}"`. -/
def generalText : PyFloat → Str :=
  textWith fun q =>
    if q = 0 then ['0']
    else
      let exponent := Int.log 10 |q|
      let digits := (roundEven (|q| * (10 : ℚ) ^ (5 - exponent))).toNat
      (if q < 0 then ['-'] else []) ++
        -- rounding may give a seventh digit
        if digits = 10 ^ 6 then generalDigits (natText (10 ^ 5)) (exponent + 1)
        else generalDigits (natText digits) exponent

/-- `f"{x:.0f}"`. -/
def wholeText : PyFloat → Str :=
  textWith fun q => (if q < 0 then ['-'] else []) ++ natText (roundEven |q|).toNat

end PyFloat

example : intOf " 1_0\n".toList = some 10 := by decide
example : hexOf "-0X_1f".toList = some (-31) := by decide
example : floatOf "-inf".toList = some (.inf true) := by decide
example : floatOf "2.50e1".toList = some (.fin 25) := by decide +kernel
example : floatOf "94.99999999999999999".toList = some (.fin 95) := by decide +kernel
example : (PyFloat.fin (5 / 2)).generalText = "2.5".toList := by decide +kernel
example : (PyFloat.fin 1234567).generalText = "1.23457e+06".toList := by decide +kernel

end Numeral
