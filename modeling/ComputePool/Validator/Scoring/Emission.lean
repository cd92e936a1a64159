import Mathlib.Tactic.Linarith
import Mathlib.Tactic.Ring
import Mathlib.Tactic.NormNum
import Mathlib.Algebra.BigOperators.Ring.List
import Mathlib.Algebra.Order.BigOperators.Group.List
import ComputePool.Validator.Scoring.Weights

/-!
# Where the emission goes

What `normalise` and `with_reserve` of `validator/scoring/weights.py` do to the shares, over exact
rationals.

* `sum_normalise`: the shares of a map with a positive score add up to one.
* `withReserve_conserves_iff`: the routing to the reserve loses the reserve's own share. It removes
  the entry of the reserve before it adds the held share to it, so the sum is one only if the
  reserve has no positive score, or everything is held.
-/

namespace ComputePool.Validator

variable {κ : Type} [DecidableEq κ]

/-! ## Shares -/

/-- The sum of the positive scores. -/
def positiveTotal (scores : Dict κ ℚ) : ℚ :=
  ((scores.filter fun e => 0 < e.2).map Prod.snd).sum

omit [DecidableEq κ] in
theorem normalise_eq (scores : Dict κ ℚ) : normalise scores =
    if positiveTotal scores ≤ 0 then []
    else (scores.filter fun e => 0 < e.2).map fun e => (e.1, e.2 / positiveTotal scores) := rfl

omit [DecidableEq κ] in
/-- A total of positive scores is at least zero. -/
theorem positiveTotal_nonneg (scores : Dict κ ℚ) : 0 ≤ positiveTotal scores := by
  refine List.sum_nonneg fun value hvalue => ?_
  obtain ⟨e, he, rfl⟩ := List.mem_map.mp hvalue
  have hpos : 0 < e.2 := by simpa using (List.mem_filter.mp he).2
  exact hpos.le

omit [DecidableEq κ] in
/-- A positive score makes the total positive. -/
theorem positiveTotal_pos {scores : Dict κ ℚ} (h : ∃ e ∈ scores, 0 < e.2) :
    0 < positiveTotal scores := by
  obtain ⟨e, he, hpos⟩ := h
  have hmem : e.2 ∈ (scores.filter fun e => 0 < e.2).map Prod.snd :=
    List.mem_map_of_mem (List.mem_filter.mpr ⟨he, by simpa using hpos⟩)
  refine lt_of_lt_of_le hpos (List.single_le_sum (fun value hvalue => ?_) e.2 hmem)
  obtain ⟨f, hf, rfl⟩ := List.mem_map.mp hvalue
  have hf' : 0 < f.2 := by simpa using (List.mem_filter.mp hf).2
  exact hf'.le

omit [DecidableEq κ] in
/-- Normalising doubles no uid. -/
theorem nodup_keys_normalise {scores : Dict κ ℚ} (hkeys : scores.keys.Nodup) :
    (normalise scores).keys.Nodup := by
  rw [normalise_eq]
  split_ifs
  · exact List.nodup_nil
  · rw [Dict.keys_map_values]
    exact Dict.nodup_keys_filter hkeys _

omit [DecidableEq κ] in
/-- The shares add up to one. -/
theorem sum_normalise {scores : Dict κ ℚ} (hpos : ∃ e ∈ scores, 0 < e.2) :
    ((normalise scores).map Prod.snd).sum = 1 := by
  have htotal := positiveTotal_pos hpos
  rw [normalise_eq, if_neg (not_le.mpr htotal), List.map_map]
  have hdiv : (Prod.snd ∘ fun e : κ × ℚ => (e.1, e.2 / positiveTotal scores)) =
      fun e => e.2 * (positiveTotal scores)⁻¹ := by
    funext e
    exact div_eq_mul_inv _ _
  rw [hdiv, List.sum_map_mul_right]
  exact mul_inv_cancel₀ htotal.ne'

/-- The share of a key, zero for one without a share. -/
def shareOf (shares : Dict κ ℚ) (k : κ) : ℚ :=
  (shares.get? k).getD 0

/-- Where there is no positive score there are no shares, and the quotient is zero as well. -/
theorem shareOf_normalise {scores : Dict κ ℚ} (hkeys : scores.keys.Nodup) (k : κ) :
    shareOf (normalise scores) k = max 0 (shareOf scores k) / positiveTotal scores := by
  rw [normalise_eq]
  by_cases htotal : positiveTotal scores ≤ 0
  · rw [if_pos htotal, le_antisymm htotal (positiveTotal_nonneg scores), div_zero]
    rfl
  rw [shareOf, if_neg htotal, Dict.get?_map_values _ fun _ value => value / positiveTotal scores,
    Dict.get?_filter hkeys, shareOf]
  cases scores.get? k with
  | none => simp
  | some value =>
    by_cases hvalue : 0 < value
    · simp [Option.filter, hvalue, hvalue.le]
    · simp [Option.filter, hvalue, not_lt.mp hvalue]

omit [DecidableEq κ] in
/-- Without negative scores the total is the sum. -/
theorem positiveTotal_of_nonneg {scores : Dict κ ℚ} (h : ∀ e ∈ scores, 0 ≤ e.2) :
    positiveTotal scores = (scores.map Prod.snd).sum := by
  induction scores with
  | nil => rfl
  | cons e scores ih =>
    have hrest := ih fun f hf => h f (List.mem_cons_of_mem _ hf)
    rw [positiveTotal] at hrest ⊢
    by_cases hpos : 0 < e.2
    · simp [hpos, hrest]
    · have hzero : e.2 = 0 := le_antisymm (not_lt.mp hpos) (h e List.mem_cons_self)
      simp [hzero, hrest]

/-! ## The reserve -/

section Reserve

variable {shares : Dict ℕ ℚ} {reserve : ℕ} {held : ℚ}

/-- With a reserve: its own share is dropped, the others are scaled, and the held share is written.
-/
theorem withReserve_some (h0 : 0 < held) (h1 : held ≤ 1) :
    withReserve shares (some reserve) held =
      Dict.set ((shares.filter fun e => e.1 ≠ reserve).map fun e => (e.1, e.2 * (1 - held))) reserve
        held := by
  have hclamp : min (max held 0) 1 = held := by
    rw [max_eq_left h0.le, min_eq_left h1]
  -- the entry of the reserve is gone before it is read
  have hnone : Dict.get? ((shares.filter fun e => e.1 ≠ reserve).map fun e =>
      (e.1, e.2 * (1 - held))) reserve = none := by
    rw [Dict.get?_eq_none_iff, Dict.keys_map_values]
    simp [Dict.keys]
  rw [withReserve, if_neg (not_le.mpr h0)]
  simp only [hclamp, hnone, Option.getD_none, zero_add]

/-- What each uid has after the reserve: the held share, or a scaled one. -/
theorem shareOf_withReserve (hkeys : shares.keys.Nodup) (h0 : 0 < held) (h1 : held ≤ 1) (uid : ℕ) :
    shareOf (withReserve shares (some reserve) held) uid =
      if uid = reserve then held else (1 - held) * shareOf shares uid := by
  rw [withReserve_some h0 h1, shareOf, Dict.get?_set]
  by_cases huid : uid = reserve
  · simp [huid]
  · rw [if_neg huid, if_neg huid, Dict.get?_map_values _ fun _ value => value * (1 - held),
      Dict.get?_filter hkeys, shareOf]
    cases shares.get? uid with
    | none => simp
    | some value => simp [Option.filter, huid, mul_comm]

/-- What is routed adds up to what the shares add up to, less the reserve's own part. -/
theorem sum_withReserve (hkeys : shares.keys.Nodup) (h0 : 0 < held) (h1 : held ≤ 1) :
    ((withReserve shares (some reserve) held).map Prod.snd).sum =
      held + (1 - held) * ((shares.map Prod.snd).sum - shareOf shares reserve) := by
  have hnot : reserve ∉ Dict.keys ((shares.filter fun e => e.1 ≠ reserve).map fun e =>
      (e.1, e.2 * (1 - held))) := by
    rw [Dict.keys_map_values]
    simp [Dict.keys]
  have hscaled : ((shares.filter fun e => e.1 ≠ reserve).map fun e => e.2 * (1 - held)).sum =
      ((shares.filter fun e => e.1 ≠ reserve).map Prod.snd).sum * (1 - held) :=
    List.sum_map_mul_right ..
  rw [withReserve_some h0 h1, Dict.set, if_neg hnot, List.map_append, List.sum_append,
    List.map_map]
  change ((shares.filter fun e => e.1 ≠ reserve).map fun e => e.2 * (1 - held)).sum + _ = _
  rw [hscaled, Dict.sum_eq_get?_add hkeys reserve, shareOf]
  simp only [List.map_cons, List.map_nil, List.sum_cons, List.sum_nil]
  ring

/-- What routing a held share to the reserve is meant to do: nothing is lost, everyone else keeps
the same part of the share, and the reserve gets what is held on top of its own. -/
structure Conserves (shares routed : Dict ℕ ℚ) (reserve : ℕ) (held : ℚ) : Prop where
  total : (routed.map Prod.snd).sum = 1
  others : ∀ uid, uid ≠ reserve → shareOf routed uid = (1 - held) * shareOf shares uid
  own : shareOf routed reserve = held + (1 - held) * shareOf shares reserve

/-- The routing conserves the emission exactly when everything is held, or the reserve is no miner
with a positive score. -/
theorem withReserve_conserves_iff {scores : Dict ℕ ℚ} {reserve : ℕ} {held : ℚ}
    (hkeys : scores.keys.Nodup) (hpos : ∃ e ∈ scores, 0 < e.2) (h0 : 0 < held) (h1 : held ≤ 1) :
    Conserves (normalise scores) (withReserve (normalise scores) (some reserve) held) reserve held ↔
      held = 1 ∨ shareOf scores reserve ≤ 0 := by
  have hshares := nodup_keys_normalise hkeys
  have htotal := positiveTotal_pos hpos
  have hown := shareOf_normalise hkeys reserve
  have hzero : shareOf (normalise scores) reserve = 0 ↔ shareOf scores reserve ≤ 0 := by
    rw [hown, div_eq_zero_iff, or_iff_left htotal.ne', max_eq_left_iff]
  constructor
  · intro hconserves
    have hreserve := hconserves.own
    rw [shareOf_withReserve hshares h0 h1, if_pos rfl] at hreserve
    -- what the reserve misses is its own part of what is not held
    have hmissing : (1 - held) * shareOf (normalise scores) reserve = 0 := by linarith
    rcases mul_eq_zero.mp hmissing with hheld | hshare
    · exact Or.inl (by linarith)
    · exact Or.inr (hzero.mp hshare)
  · intro hcase
    have hmissing : (1 - held) * shareOf (normalise scores) reserve = 0 := by
      rcases hcase with rfl | hscore
      · ring
      · rw [hzero.mpr hscore, mul_zero]
    refine ⟨?_, fun uid huid => ?_, ?_⟩
    · rw [sum_withReserve hshares h0 h1, sum_normalise hpos, mul_sub, hmissing]
      ring
    · rw [shareOf_withReserve hshares h0 h1, if_neg huid]
    · rw [shareOf_withReserve hshares h0 h1, if_pos rfl, hmissing, add_zero]

/-- A reserve that is one of two miners with the same score loses its own part of what is not
held. -/
theorem withReserve_loses_share :
    ¬ ∀ (scores : Dict ℕ ℚ) (reserve : ℕ) (held : ℚ), scores.keys.Nodup →
      (∃ e ∈ scores, 0 < e.2) → 0 < held → held ≤ 1 →
        Conserves (normalise scores) (withReserve (normalise scores) (some reserve) held) reserve
          held := by
  intro hall
  have hconserves := hall [(0, 1), (1, 1)] 0 (2 / 5) (by decide) ⟨(0, 1), by decide⟩
    (by norm_num) (by norm_num)
  have htotal := hconserves.total
  revert htotal
  decide +kernel

/-- Three miners, one of them without a score, and a reserve that is no miner. -/
def threeMiners : Dict ℕ ℚ :=
  [(1, 1), (2, 3), (7, 0)]

theorem withReserve_conserves_iff_unscored :
    Conserves (normalise threeMiners) (withReserve (normalise threeMiners) (some 0) (2 / 5)) 0
      (2 / 5) :=
  (withReserve_conserves_iff (by decide) ⟨(2, 3), by decide, by norm_num⟩ (by norm_num)
    (by norm_num)).mpr (Or.inr (by decide))

end Reserve

end ComputePool.Validator
