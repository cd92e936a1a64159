import Mathlib.Algebra.BigOperators.Group.List.Basic
import Mathlib.Algebra.Order.BigOperators.Group.List
import Mathlib.Algebra.Order.Group.Defs
import Mathlib.Tactic.Linarith
import Mathlib.Tactic.Abel

/-!
# Intervals that do not overlap

Lists of intervals of an ordered group, each given by its two ends, and how much they cover
together: intervals inside a stretch that do not overlap are together at most as long as it.

* `Packing.Apart`: two intervals have at most an end in common.
* `Packing.total`: the sum of the lengths.
* `Packing.total_le`: the packing bound.
-/

namespace Packing

variable {α : Type*}

/-- One of the intervals ends before the other starts. -/
def Apart [LE α] (a b : α × α) : Prop :=
  a.2 ≤ b.1 ∨ b.2 ≤ a.1

instance decidableApart [LE α] [DecidableLE α] (a b : α × α) : Decidable (Apart a b) :=
  inferInstanceAs (Decidable (a.2 ≤ b.1 ∨ b.2 ≤ a.1))

section Total

variable [AddCommGroup α]

/-- The lengths of the intervals, added up. -/
def total (intervals : List (α × α)) : α :=
  (intervals.map fun i => i.2 - i.1).sum

@[simp]
theorem total_nil : total ([] : List (α × α)) = 0 := rfl

@[simp]
theorem total_cons (i : α × α) (rest : List (α × α)) :
    total (i :: rest) = i.2 - i.1 + total rest := by
  simp [total]

@[simp]
theorem total_append (a b : List (α × α)) : total (a ++ b) = total a + total b := by
  simp [total]

/-- A total splits over a predicate on the intervals. -/
theorem total_filter_add_total_filter_not (intervals : List (α × α)) (p : α × α → Bool) :
    total (intervals.filter p) + total (intervals.filter fun i => !p i) = total intervals := by
  induction intervals with
  | nil => simp
  | cons i rest ih =>
    cases hp : p i
    · simp only [List.filter_cons, hp, Bool.not_false, if_true, Bool.false_eq_true, if_false,
        total_cons, ← ih]
      abel
    · simp only [List.filter_cons, hp, Bool.not_true, if_true, Bool.false_eq_true, if_false,
        total_cons, ← ih]
      abel

variable [LinearOrder α] [IsOrderedAddMonoid α]

/-- A total of intervals is at least zero. -/
theorem total_nonneg {intervals : List (α × α)} (h : ∀ i ∈ intervals, i.1 ≤ i.2) :
    0 ≤ total intervals := by
  refine List.sum_nonneg fun x hx => ?_
  obtain ⟨i, hi, rfl⟩ := List.mem_map.mp hx
  exact sub_nonneg.mpr (h i hi)

/-- Intervals between `lo` and `hi`, no two of which overlap, are together at most as long as the
stretch from `lo` to `hi`. -/
theorem total_le {intervals : List (α × α)} (hpair : intervals.Pairwise Apart) {lo hi : α}
    (hle : lo ≤ hi) (hin : ∀ i ∈ intervals, lo ≤ i.1 ∧ i.1 < i.2 ∧ i.2 ≤ hi) :
    total intervals ≤ hi - lo := by
  -- the first interval parts the others into those before and those after it
  induction hlen : intervals.length using Nat.strong_induction_on generalizing intervals lo hi with
  | _ n ih =>
    cases intervals with
    | nil => simpa using hle
    | cons i rest =>
      obtain ⟨hfirst, hrest⟩ := List.pairwise_cons.mp hpair
      obtain ⟨hlo, hlt, hhi⟩ := hin i (by simp)
      have hshort : ∀ p : α × α → Bool, (rest.filter p).length < n := by
        intro p
        have hfilter := List.length_filter_le p rest
        rw [List.length_cons] at hlen
        omega
      have hbefore : total (rest.filter fun j => decide (j.2 ≤ i.1)) ≤ i.1 - lo := by
        refine ih _ (hshort _) (hrest.filter _) hlo (fun j hj => ?_) rfl
        obtain ⟨hj, hend⟩ := List.mem_filter.mp hj
        obtain ⟨hjlo, hjlt, -⟩ := hin j (List.mem_cons_of_mem _ hj)
        exact ⟨hjlo, hjlt, of_decide_eq_true hend⟩
      have hafter : total (rest.filter fun j => !decide (j.2 ≤ i.1)) ≤ hi - i.2 := by
        refine ih _ (hshort _) (hrest.filter _) hhi (fun j hj => ?_) rfl
        obtain ⟨hj, hend⟩ := List.mem_filter.mp hj
        obtain ⟨-, hjlt, hjhi⟩ := hin j (List.mem_cons_of_mem _ hj)
        have hstart : i.2 ≤ j.1 := (hfirst j hj).resolve_right (by simpa using hend)
        exact ⟨hstart, hjlt, hjhi⟩
      calc total (i :: rest)
          = i.2 - i.1 + (total (rest.filter fun j => decide (j.2 ≤ i.1)) +
              total (rest.filter fun j => !decide (j.2 ≤ i.1))) := by
            rw [total_cons, total_filter_add_total_filter_not rest]
        _ ≤ i.2 - i.1 + (i.1 - lo + (hi - i.2)) := by gcongr
        _ = hi - lo := by abel

end Total

end Packing
