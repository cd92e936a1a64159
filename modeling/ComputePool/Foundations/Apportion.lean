import Mathlib.Algebra.BigOperators.Group.List.Basic
import Mathlib.Algebra.Order.Group.Unbundled.Abs
import Mathlib.Algebra.Order.Field.Basic
import Mathlib.Tactic.FieldSimp
import Mathlib.Tactic.Ring

/-!
# Rounded parts of a whole

What a party holds of a whole is its part `a / A`. When every amount is replaced by one that is at
most `δ` away, the part of a party moves by at most `(δ + a / A * ε) / B`, where `B` is the new
whole and `ε` the distance between the two wholes (`abs_part_sub_le`), and for `n` parties this
distance is at most `n * δ` (`abs_sum_map_sub_le`).
-/

namespace Apportion

variable {K : Type*} [Field K] [LinearOrder K] [IsStrictOrderedRing K]

/-- The wholes are as far apart as all parts together. -/
theorem abs_sum_map_sub_le {ι : Type*} {l : List ι} {exact rounded : ι → K} {δ : K}
    (h : ∀ i ∈ l, |rounded i - exact i| ≤ δ) :
    |(l.map rounded).sum - (l.map exact).sum| ≤ l.length * δ := by
  induction l with
  | nil => simp
  | cons i l ih =>
    have hfirst := h i List.mem_cons_self
    have hrest := ih fun j hj => h j (List.mem_cons_of_mem i hj)
    have hsplit : ((i :: l).map rounded).sum - ((i :: l).map exact).sum =
        (rounded i - exact i) + ((l.map rounded).sum - (l.map exact).sum) := by
      rw [List.map_cons, List.map_cons, List.sum_cons, List.sum_cons]
      ring
    rw [hsplit]
    calc |(rounded i - exact i) + ((l.map rounded).sum - (l.map exact).sum)|
        ≤ |rounded i - exact i| + |(l.map rounded).sum - (l.map exact).sum| := abs_add_le _ _
      _ ≤ δ + l.length * δ := add_le_add hfirst hrest
      _ = (i :: l).length * δ := by
        rw [List.length_cons]
        push_cast
        ring

/-- How far a part moves when the amount and the whole are replaced by others. -/
theorem abs_part_sub_le {a b A B δ ε : K} (hA : 0 < A) (hB : 0 < B) (ha : 0 ≤ a)
    (hamount : |b - a| ≤ δ) (hwhole : |B - A| ≤ ε) :
    |b / B - a / A| ≤ (δ + a / A * ε) / B := by
  have hpart : 0 ≤ a / A := div_nonneg ha hA.le
  -- the change of the amount, and the part of the change of the whole
  have hsplit : b / B - a / A = ((b - a) - a / A * (B - A)) / B := by
    field_simp
    ring
  rw [hsplit, abs_div, abs_of_pos hB]
  refine div_le_div_of_nonneg_right ?_ hB.le
  calc |(b - a) - a / A * (B - A)|
      ≤ |b - a| + |a / A * (B - A)| := abs_sub _ _
    _ = |b - a| + a / A * |B - A| := by rw [abs_mul, abs_of_nonneg hpart]
    _ ≤ δ + a / A * ε := add_le_add hamount (mul_le_mul_of_nonneg_left hwhole hpart)

end Apportion
