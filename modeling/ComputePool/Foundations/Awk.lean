import Mathlib.Data.List.Basic
import Mathlib.Data.Nat.Bitwise
import ComputePool.Foundations.Text

/-!
# Functions of awk

The functions on strings and whole numbers of the awk language. Positions in a string start at 1,
and 0 says that something is not found; `int` cuts towards zero, and `%` has the sign of its first
number.

* `substr_cons_cons`: what is left of a string starts at earlier positions.
* `xor_halves`: exclusive or, from the remainders and the halves of two numbers.
-/

namespace Awk

open Text

/-- `index(s, t)`: where `t` first is in `s`. -/
def index (s t : Str) : ℕ :=
  if t = [] then 0
  else
    match (List.range s.length).find? fun i => t.isPrefixOf (s.drop i) with
    | some i => i + 1
    | none => 0

/-- `substr(s, m, n)`: the characters at `n` positions from `m` on. -/
def substr (s : Str) (m n : ℕ) : Str :=
  (s.take (m + n - 1)).drop (m - 1)

/-- `int(x / 2)`. -/
def half (x : ℤ) : ℤ :=
  x.tdiv 2

/-- `x % 2`. -/
def mod2 (x : ℤ) : ℤ :=
  x.tmod 2

@[simp]
theorem half_natCast (n : ℕ) : half n = (n / 2 : ℕ) := rfl

@[simp]
theorem mod2_natCast (n : ℕ) : mod2 n = (n % 2 : ℕ) := rfl

/-- A positive number gets smaller, and one that is not stays so. -/
theorem toNat_half (x : ℤ) : (half x).toNat = x.toNat / 2 := by
  cases x with
  | ofNat n => rfl
  | negSucc n =>
    have hneg : half (Int.negSucc n) = -((n + 1) / 2 : ℕ) := rfl
    have hle : half (Int.negSucc n) ≤ 0 := by omega
    simp [Int.toNat_of_nonpos hle]

/-- One character from the first position on. -/
theorem substr_one_one (c : Char) (s : Str) : substr (c :: s) 1 1 = [c] := by
  simp [substr]

theorem substr_two_one (c d : Char) (s : Str) : substr (c :: d :: s) 2 1 = [d] := by
  simp [substr]

/-- Positions after the first two are those of the rest. -/
theorem substr_cons_cons (c d : Char) (s : Str) {m : ℕ} (hm : 0 < m) (n : ℕ) :
    substr (c :: d :: s) (m + 2) n = substr s m n := by
  have htake : m + 2 + n - 1 = m + n - 1 + 1 + 1 := by omega
  have hdrop : m + 2 - 1 = m - 1 + 1 + 1 := by omega
  rw [substr, substr, htake, hdrop, List.take_succ_cons, List.take_succ_cons, List.drop_succ_cons,
    List.drop_succ_cons]

/-- The bits of an exclusive or: the last one says whether the remainders differ, and the others
are those of the halves. -/
theorem xor_halves (a b : ℕ) :
    a ^^^ b = (if a % 2 ≠ b % 2 then 1 else 0) + 2 * ((a / 2) ^^^ (b / 2)) := by
  have hlast : (a ^^^ b) % 2 = if a % 2 ≠ b % 2 then 1 else 0 := by
    rw [Nat.xor_mod_two_eq]
    split_ifs <;> omega
  calc a ^^^ b = (a ^^^ b) % 2 + 2 * ((a ^^^ b) / 2) := (Nat.mod_add_div _ 2).symm
    _ = (if a % 2 ≠ b % 2 then 1 else 0) + 2 * ((a / 2) ^^^ (b / 2)) := by
      rw [hlast, Nat.xor_div_two]

example : index "0123456789abcdef".toList ['b'] = 12 := by decide
example : substr "rigs".toList 2 2 = "ig".toList := by decide

end Awk
