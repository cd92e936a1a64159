import Mathlib.Algebra.BigOperators.Ring.Finset
import ComputePool.Foundations.Apportion
import ComputePool.Validator.Scoring.Vector

/-!
# What a vector gives each uid

`emissions` of `validator/scoring/formula.py` says what a miner is to be paid: a part of the pool of
sixty percent. What is submitted is the vector of `build` of `validator/scoring/weights.py`, in
which every uid has a part of the weights. Between the two stand the reserve, the rounding to
sixteen bits, the minimum of one and the floor. What becomes of the vector on the chain is not
looked at.

* `payout_near_emissions`: they differ by a few parts in 65535.
-/

namespace ComputePool.Validator

open Apportion

/-! ## What is owed and what is paid -/

/-- `POOL_SHARE`. -/
def poolShare : ℚ := 3 / 5

/-- `emissions`. -/
def emissions {κ : Type} (scores : Dict κ ℚ) (computeEmission : ℚ) : Dict κ ℚ :=
  let pool := poolShare * max 0 computeEmission
  let total := ((scores.filter fun e => 0 < e.2).map Prod.snd).sum
  if total ≤ 0 then scores.map fun e => (e.1, 0)
  else scores.map fun e => (e.1, if 0 < e.2 then pool * e.2 / total else 0)

/-- The uid's part of the weights that are submitted, of an emission. -/
def payout (vector : WeightVector) (emission : ℚ) (uid : ℕ) : ℚ :=
  emission * (weightOf (vector.uids.zip vector.weights) uid / vector.weights.sum)

/-- A miner is owed its share of the pool. -/
theorem shareOf_emissions {scores : Dict ℕ ℚ} (hkeys : scores.keys.Nodup) {emission : ℚ}
    (hemission : 0 ≤ emission) (uid : ℕ) : shareOf (emissions scores emission) uid =
      emission * (poolShare * shareOf (normalise scores) uid) := by
  have hempty : emissions scores emission =
      if positiveTotal scores ≤ 0 then scores.map fun e => (e.1, 0)
      else scores.map fun e => (e.1,
        if 0 < e.2 then poolShare * emission * e.2 / positiveTotal scores else 0) := by
    rw [emissions, max_eq_right hemission]
    rfl
  rw [hempty, shareOf_normalise hkeys, shareOf, shareOf]
  by_cases htotal : positiveTotal scores ≤ 0
  · rw [if_pos htotal, le_antisymm htotal (positiveTotal_nonneg scores),
      Dict.get?_map_values _ fun _ _ => (0 : ℚ)]
    cases scores.get? uid with
    | none => simp
    | some value => simp
  · rw [if_neg htotal, Dict.get?_map_values _ fun _ value =>
      if 0 < value then poolShare * emission * value / positiveTotal scores else 0]
    cases scores.get? uid with
    | none => simp
    | some value =>
      by_cases hvalue : 0 < value
      · simp only [Option.map_some, Option.getD_some, hvalue, if_true, max_eq_right hvalue.le]
        ring
      · simp [hvalue, max_eq_left (not_lt.mp hvalue)]

/-! ## The weights before the floor -/

section Quantise

variable {shares : Dict ℕ ℚ}

/-- With a positive share there is a largest one, and the positive shares are quantised by it. -/
theorem toU16_eq (hpos : ∃ e ∈ shares, 0 < e.2) : toU16 shares =
    (shares.filter fun e => 0 < e.2).map fun e => (e.1, quantise (topShare shares) e.2) := by
  obtain ⟨e, he, hpos⟩ := hpos
  have htop := lt_of_lt_of_le hpos (le_topShare he)
  have hskip : ¬ (shares = [] ∨ topShare shares ≤ 0) :=
    not_or.mpr ⟨List.ne_nil_of_mem he, not_le.mpr htop⟩
  exact if_neg hskip

/-- The maximum is one of the values. -/
theorem foldl_max_mem (start : ℚ) (values : List ℚ) :
    values.foldl max start ∈ start :: values := by
  induction values generalizing start with
  | nil => exact List.mem_singleton_self start
  | cons value values ih =>
    rcases List.mem_cons.mp (ih (max start value)) with h | h
    · rw [List.foldl_cons, h]
      rcases max_choice start value with hmax | hmax
      · rw [hmax]
        exact List.mem_cons_self
      · rw [hmax]
        exact List.mem_cons_of_mem _ List.mem_cons_self
    · exact List.mem_cons_of_mem _ (List.mem_cons_of_mem _ h)

/-- The top is the share of a uid. -/
theorem exists_eq_topShare (hne : shares ≠ []) : ∃ e ∈ shares, e.2 = topShare shares := by
  cases shares with
  | nil => exact absurd rfl hne
  | cons e shares => exact List.mem_map.mp (foldl_max_mem e.2 (shares.map Prod.snd))

/-- The sum of the exact values that are rounded. -/
def exactTotal (shares : Dict ℕ ℚ) : ℚ :=
  ((shares.filter fun e => 0 < e.2).map fun e => 65535 * e.2 / topShare shares).sum

/-- The weights before rounding add up to the total of the shares, scaled. -/
theorem exactTotal_eq (shares : Dict ℕ ℚ) :
    exactTotal shares = 65535 * positiveTotal shares / topShare shares := by
  have hfactor : (fun e : ℕ × ℚ => 65535 * e.2 / topShare shares) =
      fun e => e.2 * (65535 / topShare shares) := by
    funext e
    ring
  rw [exactTotal, hfactor, List.sum_map_mul_right, positiveTotal]
  ring

/-- Every weight is off by less than one, so the sum is off by at most their number. -/
theorem abs_sum_toU16_sub_le (hpos : ∃ e ∈ shares, 0 < e.2) :
    |(((toU16 shares).map Prod.snd).sum : ℚ) - exactTotal shares| ≤ (toU16 shares).length := by
  obtain ⟨e, he, hshare⟩ := hpos
  have htop := lt_of_lt_of_le hshare (le_topShare he)
  have hcast : (((toU16 shares).map Prod.snd).sum : ℚ) =
      ((shares.filter fun e => 0 < e.2).map fun e =>
        (quantise (topShare shares) e.2 : ℚ)).sum := by
    rw [toU16_eq ⟨e, he, hshare⟩, List.map_map, Int.cast_list_sum, List.map_map]
    rfl
  rw [hcast, exactTotal, toU16_eq ⟨e, he, hshare⟩, List.length_map, ← mul_one (List.length _ : ℚ)]
  refine abs_sum_map_sub_le fun f hf => (abs_quantise_sub_lt htop ?_).le
  simpa using (List.mem_filter.mp hf).2

/-- The largest share alone has 65535. -/
theorem le_sum_toU16 (hpos : ∃ e ∈ shares, 0 < e.2) :
    65535 ≤ ((toU16 shares).map Prod.snd).sum := by
  obtain ⟨e, he, hshare⟩ := hpos
  have htop := lt_of_lt_of_le hshare (le_topShare he)
  obtain ⟨f, hf, hmax⟩ := exists_eq_topShare (List.ne_nil_of_mem he)
  have hmem : (65535 : ℤ) ∈ (toU16 shares).map Prod.snd := by
    rw [toU16_eq ⟨e, he, hshare⟩, List.map_map]
    refine List.mem_map.mpr ⟨f, List.mem_filter.mpr ⟨hf, by simpa [hmax] using htop⟩, ?_⟩
    rw [Function.comp_apply, hmax, quantise_self htop]
  refine List.single_le_sum (fun weight hweight => ?_) _ hmem
  rw [toU16_eq ⟨e, he, hshare⟩, List.map_map] at hweight
  obtain ⟨g, -, rfl⟩ := List.mem_map.mp hweight
  exact le_trans zero_le_one (one_le_quantise _ _)

/-- The part of the weights that a uid has is near its part of the shares. -/
theorem abs_part_toU16_sub_le (hkeys : shares.keys.Nodup) (hpos : ∃ e ∈ shares, 0 < e.2)
    {uid : ℕ} (hshare : 0 ≤ shareOf shares uid) :
    |(weightOf (toU16 shares) uid : ℚ) / ((toU16 shares).map Prod.snd).sum -
        shareOf shares uid / positiveTotal shares| ≤
      (1 + shareOf shares uid / positiveTotal shares * (toU16 shares).length) / 65535 := by
  have htotal := positiveTotal_pos hpos
  obtain ⟨e, he, hpositive⟩ := hpos
  have htop := lt_of_lt_of_le hpositive (le_topShare he)
  have hsum : (65535 : ℚ) ≤ ((toU16 shares).map Prod.snd).sum := by
    exact_mod_cast le_sum_toU16 ⟨e, he, hpositive⟩
  -- the part of the exact values is the part of the shares
  have hpart : shareOf shares uid / positiveTotal shares =
      65535 * shareOf shares uid / topShare shares / exactTotal shares := by
    rw [exactTotal_eq]
    field_simp
  have hamount : |(weightOf (toU16 shares) uid : ℚ) -
      65535 * shareOf shares uid / topShare shares| ≤ 1 := by
    rw [weightOf, get?_toU16 hkeys]
    split_ifs with huid
    · exact (abs_quantise_sub_lt htop huid).le
    · rw [le_antisymm (not_lt.mp huid) hshare]
      simp
  rw [hpart]
  refine (abs_part_sub_le ?_ (by linarith) (by positivity) hamount
    (abs_sum_toU16_sub_le ⟨e, he, hpositive⟩)).trans ?_
  · rw [exactTotal_eq]
    positivity
  · rw [← hpart]
    refine div_le_div_of_nonneg_left ?_ (by norm_num) hsum
    positivity

end Quantise

/-! ## The floor -/

section Floor

variable {u16 : Dict ℕ ℤ}

/-- The donor gives one for every uid that is floored. -/
theorem weightOf_donor {activeUids : List ℕ} {donor : ℕ} (hkeys : u16.keys.Nodup)
    (hactive : activeUids.Nodup) :
    weightOf (eligibilityFloor u16 activeUids (some donor)).2 donor =
      weightOf u16 donor - (eligibilityFloor u16 activeUids (some donor)).1.length := by
  rw [eligibilityFloor_some]
  split_ifs with hskip
  · simp
  · obtain ⟨-, hdonor⟩ := not_or.mp hskip
    rw [not_not] at hdonor
    have hnodup : (missingUids u16 activeUids (some donor)).Nodup :=
      (pairwise_missingUids hactive).imp fun h => h.ne
    obtain ⟨htake, hdonated⟩ := donate_donated donor hkeys hnodup
      fun uid huid => (mem_missingUids.mp huid).2.1
    -- the donor is not among the missing
    have hnot : donor ∉ (donate donor (missingUids u16 activeUids (some donor)) u16).1 := by
      rw [htake]
      exact fun h => (mem_missingUids.mp (List.mem_of_mem_take h)).2.1 hdonor
    obtain ⟨weight, hweight⟩ := Option.ne_none_iff_exists'.mp fun h =>
      (Dict.get?_eq_none_iff.mp h) hdonor
    rw [weightOf, hdonated.get, if_neg hnot, if_pos rfl, weightOf, hweight]
    rfl

/-- What the floor changes of a weight: a uid that is not the donor gets one at most, and only if it
had none. -/
theorem weightOf_other {activeUids : List ℕ} {donor uid : ℕ} {floored : List ℕ}
    {after : Dict ℕ ℤ} (h : Floored u16 activeUids (some donor) floored after)
    (huid : uid ≠ donor) :
    weightOf after uid = weightOf u16 uid ∨ (weightOf u16 uid = 0 ∧ weightOf after uid = 1) := by
  by_cases hmem : uid ∈ floored
  · obtain ⟨missing, -, hmissing, htake⟩ := h.smallest
    have hnone : uid ∉ u16.keys :=
      ((hmissing uid).mp (List.mem_of_mem_take (htake ▸ hmem))).2.1
    refine Or.inr ⟨?_, ?_⟩
    · rw [weightOf, Dict.get?_eq_none_iff.mpr hnone]
      rfl
    · rw [weightOf, h.one uid hmem]
      rfl
  · refine Or.inl ?_
    rw [weightOf, weightOf, h.others uid (Or.inl (by simpa using huid.symm)) hmem]

end Floor

/-! ## The vector -/

section Build

variable {scores : Dict ℕ ℚ} {activeUids : List ℕ} {reserve : ℕ}

/-- The entries of the vector are the weights after the floor, in another order. -/
theorem perm_zip_build (scores : Dict ℕ ℚ) (activeUids : List ℕ) (reserveUid : Option ℕ)
    (heldShare : ℚ) :
    ((build scores activeUids reserveUid heldShare).uids.zip
      (build scores activeUids reserveUid heldShare).weights).Perm (eligibilityFloor
        (toU16 (withReserve (normalise scores) reserveUid heldShare)) activeUids.dedup
        reserveUid).2 := by
  dsimp only [build]
  rw [List.zip_map', List.map_id']
  exact List.perm_insertionSort _ _

/-- The share of a uid in what `build` hands over: its weight over the sum, which the floor leaves
as it was. -/
theorem payout_build (hkeys : scores.keys.Nodup) (reserveUid : Option ℕ) (heldShare emission : ℚ)
    (uid : ℕ) :
    payout (build scores activeUids reserveUid heldShare) emission uid =
      emission * (weightOf (eligibilityFloor
        (toU16 (withReserve (normalise scores) reserveUid heldShare)) activeUids.dedup
        reserveUid).2 uid /
        ((toU16 (withReserve (normalise scores) reserveUid heldShare)).map Prod.snd).sum) := by
  have hshares : (withReserve (normalise scores) reserveUid heldShare).keys.Nodup :=
    nodup_keys_withReserve (nodup_keys_normalise hkeys)
  have hq := toU16_quantised hshares
  obtain ⟨hfloored, hnodup⟩ := eligibilityFloor_floored reserveUid
    (nodup_keys_toU16 hshares) activeUids.nodup_dedup fun uid weight h => (hq.range uid weight h).1
  have hperm := perm_zip_build scores activeUids reserveUid heldShare
  have hsum : (build scores activeUids reserveUid heldShare).weights.sum =
      ((toU16 (withReserve (normalise scores) reserveUid heldShare)).map Prod.snd).sum := by
    rw [← hfloored.total]
    exact ((List.perm_insertionSort _ _).map Prod.snd).sum_eq
  rw [payout, hsum, weightOf, ← Dict.get?_eq_of_perm hnodup hperm.symm, weightOf]

variable (scores) in
/-- What is to be paid of an emission of one: three fifths by score, two fifths to the reserve. -/
def owed (reserve uid : ℕ) : ℚ :=
  if uid = reserve then heldShareDefault else poolShare * shareOf (normalise scores) uid

/-- What is owed is the share after the reserve. -/
theorem shareOf_withReserve_default (hkeys : scores.keys.Nodup) (uid : ℕ) :
    shareOf (withReserve (normalise scores) (some reserve) heldShareDefault) uid =
      owed scores reserve uid := by
  rw [shareOf_withReserve (nodup_keys_normalise hkeys) (by norm_num [heldShareDefault])
    (by norm_num [heldShareDefault]), owed]
  norm_num [heldShareDefault, poolShare]

/-- Nothing owed is negative. -/
theorem owed_nonneg (hkeys : scores.keys.Nodup) (uid : ℕ) : 0 ≤ owed scores reserve uid := by
  rw [owed, shareOf_normalise hkeys]
  split_ifs
  · norm_num [heldShareDefault]
  · have hpool : 0 ≤ poolShare := by norm_num [poolShare]
    have htotal := positiveTotal_nonneg scores
    positivity

/-- If the reserve is no miner, the shares add up to one. -/
theorem positiveTotal_withReserve (hkeys : scores.keys.Nodup) (hpos : ∃ e ∈ scores, 0 < e.2)
    (hreserve : shareOf scores reserve ≤ 0) :
    positiveTotal (withReserve (normalise scores) (some reserve) heldShareDefault) = 1 := by
  have hshares : (withReserve (normalise scores) (some reserve) heldShareDefault).keys.Nodup :=
    nodup_keys_withReserve (nodup_keys_normalise hkeys)
  have hnonneg : ∀ e ∈ withReserve (normalise scores) (some reserve) heldShareDefault,
      0 ≤ e.2 := by
    intro e he
    have hshare : shareOf (withReserve (normalise scores) (some reserve) heldShareDefault) e.1 =
        owed scores reserve e.1 := shareOf_withReserve_default hkeys e.1
    rw [shareOf, (Dict.get?_eq_some_iff hshares).mpr he, Option.getD_some] at hshare
    exact hshare ▸ owed_nonneg hkeys e.1
  have hown : shareOf (normalise scores) reserve = 0 := by
    rw [shareOf_normalise hkeys, max_eq_left hreserve, zero_div]
  rw [positiveTotal_of_nonneg hnonneg, sum_withReserve (nodup_keys_normalise hkeys)
    (by norm_num [heldShareDefault]) (by norm_num [heldShareDefault]), sum_normalise hpos, hown]
  norm_num [heldShareDefault]

/-- Only the reserve can come on top of the scored uids. -/
theorem length_toU16_le (reserve : ℕ) :
    (toU16 (withReserve (normalise scores) (some reserve) heldShareDefault)).length ≤
      (normalise scores).length + 1 := by
  have hlength : (toU16 (withReserve (normalise scores) (some reserve) heldShareDefault)).length ≤
      (withReserve (normalise scores) (some reserve) heldShareDefault).length := by
    rw [toU16]
    split_ifs
    · exact Nat.zero_le _
    · rw [List.length_map]
      exact List.length_filter_le _ _
  refine hlength.trans ?_
  rw [withReserve_some (by norm_num [heldShareDefault]) (by norm_num [heldShareDefault]), Dict.set,
    if_neg (by rw [Dict.keys_map_values]; simp [Dict.keys]), List.length_append, List.length_map]
  exact Nat.add_le_add_right (List.length_filter_le _ _) 1

/-- The reserve has a positive share. -/
theorem exists_share_pos (reserve : ℕ) :
    ∃ e ∈ withReserve (normalise scores) (some reserve) heldShareDefault, 0 < e.2 := by
  rw [withReserve_some (by norm_num [heldShareDefault]) (by norm_num [heldShareDefault])]
  exact ⟨(reserve, heldShareDefault),
    Dict.mem_of_get? (by rw [Dict.get?_set, if_pos rfl]), by norm_num [heldShareDefault]⟩

/-- Before the floor, every uid has about what is to be paid to it. -/
theorem abs_part_sub_owed_le (hkeys : scores.keys.Nodup) (hpos : ∃ e ∈ scores, 0 < e.2)
    (hreserve : shareOf scores reserve ≤ 0) (uid : ℕ) :
    |(weightOf (toU16 (withReserve (normalise scores) (some reserve) heldShareDefault)) uid : ℚ) /
        ((toU16 (withReserve (normalise scores) (some reserve) heldShareDefault)).map
          Prod.snd).sum - owed scores reserve uid| ≤
      (1 + owed scores reserve uid * ((normalise scores).length + 1)) / 65535 := by
  have hshares : (withReserve (normalise scores) (some reserve) heldShareDefault).keys.Nodup :=
    nodup_keys_withReserve (nodup_keys_normalise hkeys)
  have howed : 0 ≤ owed scores reserve uid := owed_nonneg hkeys uid
  have hnear := abs_part_toU16_sub_le hshares (exists_share_pos reserve)
    (by rwa [shareOf_withReserve_default hkeys])
  rw [shareOf_withReserve_default hkeys, positiveTotal_withReserve hkeys hpos hreserve,
    div_one] at hnear
  refine hnear.trans (div_le_div_of_nonneg_right ?_ (by norm_num))
  have hlength : ((toU16 (withReserve (normalise scores) (some reserve)
      heldShareDefault)).length : ℚ) ≤ (normalise scores).length + 1 := by
    exact_mod_cast length_toU16_le reserve
  gcongr

/-- The floor adds at most one unit of weight to what a uid is off. -/
theorem abs_after_sub_le {before after : ℤ} {moved : ℕ} {W p bound : ℚ} (hW : 65535 ≤ W)
    (hbefore : |(before : ℚ) / W - p| ≤ bound / 65535) (hmoved : |after - before| ≤ moved) :
    |(after : ℚ) / W - p| ≤ (bound + moved) / 65535 := by
  have hshift : |(after : ℚ) / W - before / W| ≤ moved / 65535 := by
    rw [← sub_div, abs_div, abs_of_nonneg (by linarith : 0 ≤ W)]
    have hmoved' : |(after : ℚ) - before| ≤ moved := by exact_mod_cast hmoved
    exact div_le_div₀ (by positivity) hmoved' (by norm_num) hW
  calc |(after : ℚ) / W - p|
      ≤ |(after : ℚ) / W - before / W| + |(before : ℚ) / W - p| := abs_sub_le _ _ _
    _ ≤ moved / 65535 + bound / 65535 := add_le_add hshift hbefore
    _ = (bound + moved) / 65535 := by ring

/-- **The weights follow the formula.** For every map of scores, set of active uids and emission, if
the reserve is no miner: the part of the submitted weights that a uid other than the reserve has is
near what the formula says it is to be paid, and that of the reserve near two fifths. With `n`
weights, a part `p` of the emission is off by at most `1 + n p` in 65535, and that of the reserve by
one more for every uid that is floored. -/
theorem payout_near_emissions (hkeys : scores.keys.Nodup) (hpos : ∃ e ∈ scores, 0 < e.2)
    (hreserve : shareOf scores reserve ≤ 0) {emission : ℚ} (hemission : 0 ≤ emission) :
    (∀ uid ≠ reserve,
      |payout (build scores activeUids (some reserve) heldShareDefault) emission uid -
          shareOf (emissions scores emission) uid| ≤
        emission * ((1 + poolShare * shareOf (normalise scores) uid *
          ((normalise scores).length + 1)) / 65535)) ∧
      |payout (build scores activeUids (some reserve) heldShareDefault) emission reserve -
          emission * heldShareDefault| ≤
        emission * ((1 + heldShareDefault * ((normalise scores).length + 1) +
          (build scores activeUids (some reserve) heldShareDefault).floored.length) / 65535) := by
  have hshares : (withReserve (normalise scores) (some reserve) heldShareDefault).keys.Nodup :=
    nodup_keys_withReserve (nodup_keys_normalise hkeys)
  have hq := toU16_quantised hshares
  obtain ⟨hfloored, -⟩ := eligibilityFloor_floored (some reserve)
    (nodup_keys_toU16 hshares) activeUids.nodup_dedup fun uid weight h => (hq.range uid weight h).1
  have hsum : (65535 : ℚ) ≤ ((toU16 (withReserve (normalise scores) (some reserve)
      heldShareDefault)).map Prod.snd).sum := by
    exact_mod_cast le_sum_toU16 (exists_share_pos reserve)
  -- the parts of an emission of one
  have hpay (uid : ℕ) (part bound : ℚ)
      (h : |(weightOf (eligibilityFloor (toU16 (withReserve (normalise scores) (some reserve)
          heldShareDefault)) activeUids.dedup (some reserve)).2 uid : ℚ) /
        ((toU16 (withReserve (normalise scores) (some reserve) heldShareDefault)).map
          Prod.snd).sum - part| ≤ bound) :
      |payout (build scores activeUids (some reserve) heldShareDefault) emission uid -
        emission * part| ≤ emission * bound := by
    rw [payout_build hkeys, ← mul_sub, abs_mul, abs_of_nonneg hemission]
    exact mul_le_mul_of_nonneg_left h hemission
  refine ⟨fun uid huid => ?_, ?_⟩
  · have howed : owed scores reserve uid = poolShare * shareOf (normalise scores) uid :=
      if_neg huid
    have hbefore := abs_part_sub_owed_le hkeys hpos hreserve uid
    rw [howed] at hbefore
    rw [shareOf_emissions hkeys hemission]
    refine hpay uid _ _ ?_
    rcases weightOf_other hfloored huid with hsame | ⟨hnone, hone⟩
    · rw [hsame]
      exact hbefore
    · -- a uid that is floored had nothing, and is owed nothing
      have hzero : poolShare * shareOf (normalise scores) uid = 0 := by
        rw [← howed, ← shareOf_withReserve_default hkeys]
        refine le_antisymm (not_lt.mp fun hshare => ?_) ?_
        · rw [weightOf, get?_toU16 hshares, if_pos hshare, Option.getD_some] at hnone
          exact absurd (one_le_quantise _ _) (by rw [hnone]; decide)
        · rw [shareOf_withReserve_default hkeys]
          exact owed_nonneg hkeys uid
      rw [hone, hzero, sub_zero, zero_mul, add_zero, Int.cast_one,
        abs_of_nonneg (by positivity)]
      exact one_div_le_one_div_of_le (by norm_num) hsum
  · have howed : owed scores reserve reserve = heldShareDefault := if_pos rfl
    have hbefore := abs_part_sub_owed_le hkeys hpos hreserve reserve
    rw [howed] at hbefore
    refine hpay reserve _ _ (abs_after_sub_le hsum hbefore ?_)
    rw [weightOf_donor (nodup_keys_toU16 hshares) activeUids.nodup_dedup]
    rw [sub_sub_cancel_left, abs_neg, Nat.abs_cast]
    rfl

/-- Two miners, the reserve as donor and an active uid without a score: the weight of the last one
was taken from the reserve. -/
theorem payout_near_emissions_two :
    (∀ uid ≠ 0, |payout (build [(7, 3), (2, 1)] [5, 2] (some 0) heldShareDefault) 100 uid -
        shareOf (emissions [(7, 3), (2, 1)] 100) uid| ≤
      100 * ((1 + poolShare * shareOf (normalise [(7, 3), (2, 1)]) uid *
        ((normalise ([(7, 3), (2, 1)] : Dict ℕ ℚ)).length + 1)) / 65535)) ∧
      |payout (build [(7, 3), (2, 1)] [5, 2] (some 0) heldShareDefault) 100 0 -
          100 * heldShareDefault| ≤
        100 * ((1 + heldShareDefault * ((normalise ([(7, 3), (2, 1)] : Dict ℕ ℚ)).length + 1) +
          (build [(7, 3), (2, 1)] [5, 2] (some 0) heldShareDefault).floored.length) / 65535) :=
  payout_near_emissions (by decide) ⟨(7, 3), by decide⟩ (by decide) (by norm_num)

end Build

end ComputePool.Validator
