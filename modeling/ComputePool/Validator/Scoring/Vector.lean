import Mathlib.Algebra.Order.Floor.Ring
import Mathlib.Tactic.Positivity
import ComputePool.Validator.Scoring.Emission

/-!
# The submitted vector

What `to_u16`, `eligibility_floor` and `build` of `validator/scoring/weights.py` make of the shares,
over exact rationals.

* `toU16_quantised`: the largest share gets 65535, every weight is less than one from its exact
  value, and the order of the shares is kept.
* `eligibilityFloor_floored`: the floor moves weight from the donor to the first missing uids, as
  many as the donor can afford, and nothing else changes.
* `build_vector`: both, for the vector that `build` returns.
-/

namespace ComputePool.Validator

/-! ## Rounding -/

theorem le_roundHalfEven (q : ℚ) : ⌊q⌋ ≤ roundHalfEven q := by
  simp only [roundHalfEven]
  split_ifs <;> omega

theorem roundHalfEven_le (q : ℚ) : roundHalfEven q ≤ ⌊q⌋ + 1 := by
  simp only [roundHalfEven]
  split_ifs <;> omega

@[simp]
theorem roundHalfEven_intCast (n : ℤ) : roundHalfEven n = n := by
  simp [roundHalfEven]

/-- Rounding keeps order. -/
theorem roundHalfEven_mono {q r : ℚ} (h : q ≤ r) : roundHalfEven q ≤ roundHalfEven r := by
  rcases (Int.floor_le_floor h).lt_or_eq with hlt | heq
  · -- the floors differ, so the rounded values cannot cross
    have hq := roundHalfEven_le q
    have hr := le_roundHalfEven r
    omega
  · -- on one unit interval, what is past the middle stays past the middle
    have hrest : q - ⌊q⌋ ≤ r - ⌊q⌋ := by linarith
    simp only [roundHalfEven, ← heq]
    split_ifs <;> first | omega | (exfalso; linarith)

/-- Rounding moves by at most one half. -/
theorem abs_roundHalfEven_sub_le (q : ℚ) : |(roundHalfEven q : ℚ) - q| ≤ 1 / 2 := by
  have hfloor := Int.floor_le q
  have hlt := Int.lt_floor_add_one q
  simp only [roundHalfEven]
  rw [abs_le]
  split_ifs <;> push_cast <;> constructor <;> linarith

/-! ## Quantisation -/

/-- The weight of a uid, zero for one without. -/
def weightOf (u16 : Dict ℕ ℤ) (uid : ℕ) : ℤ :=
  (u16.get? uid).getD 0

/-- The weight of a share. -/
def quantise (top share : ℚ) : ℤ :=
  max 1 (roundHalfEven (share / top * u16Max))

/-- What quantisation is meant to do. -/
structure Quantised (shares : Dict ℕ ℚ) (u16 : Dict ℕ ℤ) : Prop where
  /-- The uids with a positive share get a weight. -/
  mem : ∀ uid, uid ∈ u16.keys ↔ 0 < shareOf shares uid
  range : ∀ uid weight, u16.get? uid = some weight → 1 ≤ weight ∧ weight ≤ 65535
  top : ∀ uid, 0 < shareOf shares uid → (∀ other, shareOf shares other ≤ shareOf shares uid) →
    u16.get? uid = some 65535
  near : ∀ uid weight, u16.get? uid = some weight →
    |(weight : ℚ) - 65535 * shareOf shares uid / topShare shares| < 1
  mono : ∀ uid other, shareOf shares uid ≤ shareOf shares other →
    weightOf u16 uid ≤ weightOf u16 other

section Quantise

variable {shares : Dict ℕ ℚ}

/-- A bound on the maximum is one on all values. -/
theorem foldl_max_le {values : List ℚ} {start bound : ℚ} :
    values.foldl max start ≤ bound ↔ start ≤ bound ∧ ∀ value ∈ values, value ≤ bound := by
  induction values generalizing start with
  | nil => simp
  | cons value values ih => simp [ih, and_assoc]

/-- The top is a bound of the shares, and the least one. -/
theorem topShare_le (hne : shares ≠ []) {bound : ℚ} :
    topShare shares ≤ bound ↔ ∀ e ∈ shares, e.2 ≤ bound := by
  cases shares with
  | nil => exact absurd rfl hne
  | cons e shares =>
    show (shares.map Prod.snd).foldl max e.2 ≤ bound ↔ _
    rw [foldl_max_le, List.forall_mem_cons, List.forall_mem_map]

theorem le_topShare {e : ℕ × ℚ} (he : e ∈ shares) : e.2 ≤ topShare shares :=
  (topShare_le (List.ne_nil_of_mem he)).mp le_rfl e he

/-- No positive share exceeds the top share. -/
theorem shareOf_le_topShare {uid : ℕ} (h : 0 < shareOf shares uid) :
    shareOf shares uid ≤ topShare shares := by
  cases hget : shares.get? uid with
  | none => simp [shareOf, hget] at h
  | some share =>
    rw [shareOf, hget]
    exact le_topShare (Dict.mem_of_get? hget)

/-- The weight of each uid. -/
theorem get?_toU16 (hkeys : shares.keys.Nodup) (uid : ℕ) : (toU16 shares).get? uid =
    if 0 < shareOf shares uid then some (quantise (topShare shares) (shareOf shares uid))
    else none := by
  -- the early exit is taken when no share is positive
  have hempty : shares = [] ∨ topShare shares ≤ 0 → ¬ 0 < shareOf shares uid := by
    rintro (rfl | htop) hpos
    · simp [shareOf] at hpos
    · exact absurd (shareOf_le_topShare hpos) (by linarith)
  simp only [toU16]
  by_cases hskip : shares = [] ∨ topShare shares ≤ 0
  · rw [if_pos hskip, if_neg (hempty hskip)]
    rfl
  · rw [if_neg hskip, Dict.get?_map_values _ fun _ share =>
      max 1 (roundHalfEven (share / topShare shares * u16Max)), Dict.get?_filter hkeys, shareOf]
    cases shares.get? uid with
    | none => simp
    | some share =>
      by_cases hpos : 0 < share
      · simp [Option.filter, hpos, quantise]
      · simp [Option.filter, hpos]

theorem one_le_quantise (top share : ℚ) : 1 ≤ quantise top share :=
  le_max_left _ _

/-- A larger share has no smaller weight. -/
theorem quantise_mono {top share other : ℚ} (htop : 0 < top) (h : share ≤ other) :
    quantise top share ≤ quantise top other := by
  refine max_le_max le_rfl (roundHalfEven_mono ?_)
  have hmax : (0 : ℚ) ≤ u16Max := by norm_num [u16Max]
  gcongr

/-- The top share has the full weight. -/
@[simp]
theorem quantise_self {top : ℚ} (htop : 0 < top) : quantise top top = 65535 := by
  have hround : roundHalfEven ((65535 : ℤ) : ℚ) = 65535 := roundHalfEven_intCast 65535
  rw [quantise, div_self htop.ne', one_mul, u16Max]
  norm_cast at hround ⊢
  rw [hround]
  rfl

/-- A weight is less than one from its exact value. -/
theorem abs_quantise_sub_lt {top share : ℚ} (htop : 0 < top) (hshare : 0 < share) :
    |(quantise top share : ℚ) - 65535 * share / top| < 1 := by
  have hexact : 65535 * share / top = share / top * u16Max := by
    rw [u16Max]
    ring
  have hpos : 0 < share / top * u16Max := by
    have hmax : (0 : ℚ) < u16Max := by norm_num [u16Max]
    positivity
  have hnear := abs_le.mp (abs_roundHalfEven_sub_le (share / top * u16Max))
  rw [hexact, quantise, abs_lt]
  rcases le_total (roundHalfEven (share / top * u16Max)) 1 with hle | hge
  · -- a small share is raised to one
    have hle' : (roundHalfEven (share / top * u16Max) : ℚ) ≤ 1 := by exact_mod_cast hle
    rw [max_eq_left hle]
    push_cast
    constructor
    · linarith
    · linarith
  -- any other share is off by the rounding alone
  · rw [max_eq_right hge]
    constructor
    · linarith
    · linarith

/-- The loop of the quantisation does what it is meant to do. -/
theorem toU16_quantised (hkeys : shares.keys.Nodup) : Quantised shares (toU16 shares) where
  mem uid := by
    rw [← not_iff_not, ← Dict.get?_eq_none_iff, get?_toU16 hkeys]
    split_ifs with hpos
    · simp [hpos]
    · simp [hpos]
  range uid weight h := by
    rw [get?_toU16 hkeys] at h
    split_ifs at h with hpos
    have htop := lt_of_lt_of_le hpos (shareOf_le_topShare hpos)
    obtain rfl := Option.some.inj h
    refine ⟨one_le_quantise _ _, ?_⟩
    calc quantise (topShare shares) (shareOf shares uid)
        ≤ quantise (topShare shares) (topShare shares) :=
          quantise_mono htop (shareOf_le_topShare hpos)
      _ = 65535 := quantise_self htop
  top uid hpos hmax := by
    -- the largest share is the one at the top
    have htop : topShare shares = shareOf shares uid := by
      refine le_antisymm ?_ (shareOf_le_topShare hpos)
      have hne : shares ≠ [] := by
        rintro rfl
        simp [shareOf] at hpos
      refine (topShare_le hne).mpr fun e he => ?_
      have hother := hmax e.1
      rwa [shareOf, (Dict.get?_eq_some_iff hkeys).mpr he] at hother
    rw [get?_toU16 hkeys, if_pos hpos, htop, quantise_self hpos]
  near uid weight h := by
    rw [get?_toU16 hkeys] at h
    split_ifs at h with hpos
    obtain rfl := Option.some.inj h
    exact abs_quantise_sub_lt (lt_of_lt_of_le hpos (shareOf_le_topShare hpos)) hpos
  mono uid other hle := by
    rw [weightOf, weightOf, get?_toU16 hkeys, get?_toU16 hkeys]
    -- a share of zero has no weight
    by_cases hpos : 0 < shareOf shares uid
    · have hother : 0 < shareOf shares other := lt_of_lt_of_le hpos hle
      rw [if_pos hpos, if_pos hother]
      exact quantise_mono (lt_of_lt_of_le hpos (shareOf_le_topShare hpos)) hle
    · rw [if_neg hpos]
      split_ifs
      · exact le_trans zero_le_one (one_le_quantise _ _)
      · exact le_rfl

end Quantise

/-! ## The floor -/

section Floor

variable {u16 after : Dict ℕ ℤ} {donor : ℕ} {floored : List ℕ}

/-- What the loop of the floor does: the floored uids have weight one, the donor has given one for
each of them, and the rest is as it was. -/
structure Donated (donor : ℕ) (u16 : Dict ℕ ℤ) (floored : List ℕ) (after : Dict ℕ ℤ) : Prop where
  keys : after.keys.Nodup
  total : (after.map Prod.snd).sum = (u16.map Prod.snd).sum
  get : ∀ uid, after.get? uid =
    if uid ∈ floored then some 1
    else if uid = donor then (u16.get? donor).map (· - (floored.length : ℤ))
    else u16.get? uid

/-- Nothing has been given yet. -/
theorem Donated.refl (hkeys : u16.keys.Nodup) : Donated donor u16 [] u16 where
  keys := hkeys
  total := rfl
  get uid := by
    by_cases huid : uid = donor
    · simp [huid]
    · simp [huid]

/-- One round of the loop, and the rest of it. -/
theorem Donated.cons {uid : ℕ} {left : ℤ} (hkeys : u16.keys.Nodup)
    (hleft : u16.get? donor = some left)
    (hnew : uid ∉ u16.keys)
    (hrest : Donated donor ((u16.set donor (left - 1)).set uid 1) floored after)
    (huid : uid ∉ floored) : Donated donor u16 (uid :: floored) after := by
  have hne : uid ≠ donor := by
    rintro rfl
    rw [Dict.get?_eq_none_iff.mpr hnew] at hleft
    cases hleft
  have hnone : (u16.set donor (left - 1)).get? uid = none := by
    rw [Dict.get?_set, if_neg hne, Dict.get?_eq_none_iff.mpr hnew]
  refine ⟨hrest.keys, ?_, fun other => ?_⟩
  · -- what the donor loses is what the uid gets
    rw [hrest.total, Dict.sum_set (Dict.nodup_keys_set hkeys _ _), Dict.sum_set hkeys, hnone, hleft]
    simp
  · rw [hrest.get]
    by_cases hother : other = uid
    · subst hother
      simp [huid, hne]
    · by_cases hdonor : other = donor
      · subst hdonor
        by_cases hmem : other ∈ floored
        · simp [hmem]
        · simp only [hmem, if_false, if_true, List.mem_cons, hother, or_self, List.length_cons,
            Dict.get?_set, hleft, Option.map_some]
          simp only [Option.some.injEq, Nat.cast_add, Nat.cast_one]
          ring
      · by_cases hmem : other ∈ floored
        · simp [hmem]
        · simp [hmem, hother, hdonor]

/-- The loop gives the floor to the first uids, as many as the donor has weight to give. -/
theorem donate_donated (donor : ℕ) {missing : List ℕ} (hkeys : u16.keys.Nodup)
    (hnodup : missing.Nodup)
    (hnew : ∀ uid ∈ missing, uid ∉ u16.keys) :
    (donate donor missing u16).1 = missing.take (weightOf u16 donor - 1).toNat ∧
      Donated donor u16 (donate donor missing u16).1 (donate donor missing u16).2 := by
  induction missing generalizing u16 with
  | nil => exact ⟨by simp [donate], Donated.refl hkeys⟩
  | cons uid rest ih =>
    rw [List.nodup_cons] at hnodup
    rw [donate]
    dsimp only
    -- the donor keeps at least one
    by_cases hstop : (u16.get? donor).getD 0 ≤ 1
    · rw [if_pos hstop]
      have hzero : (weightOf u16 donor - 1).toNat = 0 := by
        rw [weightOf]
        omega
      exact ⟨by rw [hzero, List.take_zero], Donated.refl hkeys⟩
    · rw [if_neg hstop]
      cases hleft : u16.get? donor with
      | none => simp [hleft] at hstop
      | some left =>
        rw [hleft, Option.getD_some] at hstop
        have huid : uid ∉ u16.keys := hnew uid List.mem_cons_self
        have hne : donor ≠ uid := by
          rintro rfl
          rw [Dict.get?_eq_none_iff.mpr huid] at hleft
          cases hleft
        -- the uids that are still missing are as new as before
        have hnew' : ∀ other ∈ rest,
            other ∉ ((u16.set donor (left - 1)).set uid 1).keys := by
          intro other hother hmem
          simp only [Dict.mem_keys_set] at hmem
          rcases hmem with rfl | rfl | hmem
          · exact hnodup.1 hother
          · exact absurd (hnew other (List.mem_cons_of_mem _ hother))
              (not_not.mpr (Dict.mem_keys.mpr ⟨left, Dict.mem_of_get? hleft⟩))
          · exact hnew other (List.mem_cons_of_mem _ hother) hmem
        obtain ⟨htake, hdonated⟩ :=
          ih (Dict.nodup_keys_set (Dict.nodup_keys_set hkeys _ _) _ _) hnodup.2 hnew'
        -- the donor has one less to give
        have hweight : weightOf ((u16.set donor (left - 1)).set uid 1) donor = left - 1 := by
          rw [weightOf, Dict.get?_set, if_neg hne, Dict.get?_set, if_pos rfl]
          rfl
        rw [hweight] at htake
        have hcount : (weightOf u16 donor - 1).toNat = (left - 1 - 1).toNat + 1 := by
          rw [weightOf, hleft, Option.getD_some]
          omega
        simp only [Option.getD_some]
        refine ⟨by rw [hcount, List.take_succ_cons, htake], ?_⟩
        refine Donated.cons hkeys hleft huid hdonated fun hmem => ?_
        rw [htake] at hmem
        exact hnodup.1 (List.mem_of_mem_take hmem)

/-- What the floor is meant to do. -/
structure Floored (u16 : Dict ℕ ℤ) (activeUids : List ℕ) (donorUid : Option ℕ) (floored : List ℕ)
    (after : Dict ℕ ℤ) : Prop where
  total : (after.map Prod.snd).sum = (u16.map Prod.snd).sum
  /-- The floored uids are the smallest of the missing ones, one for each unit of weight that the
  donor has beyond one. -/
  smallest : ∃ missing : List ℕ, missing.Pairwise (· < ·) ∧
    (∀ uid, uid ∈ missing ↔ uid ∈ activeUids ∧ uid ∉ u16.keys ∧ donorUid ≠ some uid) ∧
    floored = missing.take ((donorUid.map (weightOf u16)).getD 0 - 1).toNat
  one : ∀ uid ∈ floored, after.get? uid = some 1
  donor : ∀ donor, donorUid = some donor → donor ∈ u16.keys →
    1 ≤ weightOf after donor ∧ weightOf after donor ≤ weightOf u16 donor
  /-- Everyone else is left alone, and so is a donor without a weight. -/
  others : ∀ uid, donorUid ≠ some uid ∨ uid ∉ u16.keys → uid ∉ floored →
    after.get? uid = u16.get? uid

/-- The active uids without a weight, in order. -/
def missingUids (u16 : Dict ℕ ℤ) (activeUids : List ℕ) (donorUid : Option ℕ) : List ℕ :=
  (activeUids.filter fun uid => uid ∉ u16.keys && some uid ≠ donorUid).insertionSort (· ≤ ·)

/-- The active uids that have no weight, the donor apart. -/
theorem mem_missingUids {activeUids : List ℕ} {donorUid : Option ℕ} {uid : ℕ} :
    uid ∈ missingUids u16 activeUids donorUid ↔
      uid ∈ activeUids ∧ uid ∉ u16.keys ∧ donorUid ≠ some uid := by
  rw [missingUids, List.mem_insertionSort, List.mem_filter, Bool.and_eq_true, decide_eq_true_eq,
    decide_eq_true_eq, ne_comm]

/-- The uids without a weight come in order. -/
theorem pairwise_missingUids {activeUids : List ℕ} {donorUid : Option ℕ}
    (hactive : activeUids.Nodup) : (missingUids u16 activeUids donorUid).Pairwise (· < ·) := by
  have hnodup : (missingUids u16 activeUids donorUid).Nodup :=
    (List.perm_insertionSort _ _).nodup_iff.mpr (hactive.filter _)
  have hsorted : (missingUids u16 activeUids donorUid).Pairwise (· ≤ ·) :=
    List.pairwise_insertionSort _ _
  exact (hsorted.and hnodup).imp fun h => lt_of_le_of_ne h.1 h.2

/-- Where nothing is given, nothing changes. -/
theorem Floored.refl {activeUids : List ℕ} {donorUid : Option ℕ} (hactive : activeUids.Nodup)
    (hrange : ∀ uid weight, u16.get? uid = some weight → 1 ≤ weight)
    (hnone : (missingUids u16 activeUids donorUid).take
      ((donorUid.map (weightOf u16)).getD 0 - 1).toNat = []) :
    Floored u16 activeUids donorUid [] u16 where
  total := rfl
  smallest := ⟨_, pairwise_missingUids hactive, fun _ => mem_missingUids, hnone.symm⟩
  one uid h := absurd h List.not_mem_nil
  donor donor _ hmem := by
    obtain ⟨weight, hweight⟩ := Option.ne_none_iff_exists'.mp fun h =>
      (Dict.get?_eq_none_iff.mp h) hmem
    rw [weightOf, hweight]
    exact ⟨hrange donor weight hweight, le_rfl⟩
  others uid _ _ := rfl

theorem eligibilityFloor_some (u16 : Dict ℕ ℤ) (activeUids : List ℕ) (donor : ℕ) :
    eligibilityFloor u16 activeUids (some donor) =
      if missingUids u16 activeUids (some donor) = [] ∨ donor ∉ u16.keys then ([], u16)
      else donate donor (missingUids u16 activeUids (some donor)) u16 := rfl

/-- The loop over the missing uids does what the floor is meant to do. -/
theorem Floored.of_donated {activeUids missing : List ℕ} (hactive : activeUids.Nodup)
    (hrange : ∀ uid weight, u16.get? uid = some weight → 1 ≤ weight)
    (hmissing : missingUids u16 activeUids (some donor) = missing)
    (htake : floored = missing.take (weightOf u16 donor - 1).toNat)
    (hdonated : Donated donor u16 floored after) :
    Floored u16 activeUids (some donor) floored after where
  total := hdonated.total
  smallest := ⟨missing, hmissing ▸ pairwise_missingUids hactive,
    fun uid => hmissing ▸ mem_missingUids, htake⟩
  one uid huid := by rw [hdonated.get, if_pos huid]
  donor other hother hmem := by
    obtain rfl := Option.some.inj hother
    obtain ⟨weight, hweight⟩ := Option.ne_none_iff_exists'.mp fun h =>
      (Dict.get?_eq_none_iff.mp h) hmem
    have hnot : donor ∉ floored := by
      intro h
      rw [htake, ← hmissing] at h
      exact (mem_missingUids.mp (List.mem_of_mem_take h)).2.1 hmem
    have hone := hrange donor weight hweight
    -- the donor gives at most what it has beyond one
    have hlength : (floored.length : ℤ) ≤ weight - 1 := by
      have hle : floored.length ≤ (weightOf u16 donor - 1).toNat := by
        rw [htake]
        exact List.length_take_le _ _
      rw [weightOf, hweight, Option.getD_some] at hle
      omega
    rw [weightOf, hdonated.get, if_neg hnot, if_pos rfl, weightOf, hweight]
    simp only [Option.map_some, Option.getD_some]
    omega
  others uid huid hnot := by
    rw [hdonated.get, if_neg hnot]
    by_cases hdonor : uid = donor
    · subst hdonor
      have hnone := Dict.get?_eq_none_iff.mpr (huid.resolve_left (by simp))
      rw [if_pos rfl, hnone]
      rfl
    · rw [if_neg hdonor]

/-- The floor does what it is meant to do. -/
theorem eligibilityFloor_floored {activeUids : List ℕ} (donorUid : Option ℕ)
    (hkeys : u16.keys.Nodup) (hactive : activeUids.Nodup)
    (hrange : ∀ uid weight, u16.get? uid = some weight → 1 ≤ weight) :
    Floored u16 activeUids donorUid (eligibilityFloor u16 activeUids donorUid).1
        (eligibilityFloor u16 activeUids donorUid).2 ∧
      (eligibilityFloor u16 activeUids donorUid).2.keys.Nodup := by
  cases donorUid with
  | none => exact ⟨Floored.refl hactive hrange (by simp), hkeys⟩
  | some donor =>
    rw [eligibilityFloor_some]
    -- nobody is missing, or the donor has no weight to give
    by_cases hskip : missingUids u16 activeUids (some donor) = [] ∨ donor ∉ u16.keys
    · rw [if_pos hskip]
      refine ⟨Floored.refl hactive hrange ?_, hkeys⟩
      rcases hskip with hempty | hdonor
      · rw [hempty, List.take_nil]
      · simp [weightOf, Dict.get?_eq_none_iff.mpr hdonor]
    · rw [if_neg hskip]
      have hnodup : (missingUids u16 activeUids (some donor)).Nodup :=
        (pairwise_missingUids hactive).imp fun h => h.ne
      obtain ⟨htake, hdonated⟩ := donate_donated donor hkeys hnodup
        fun uid huid => (mem_missingUids.mp huid).2.1
      exact ⟨Floored.of_donated hactive hrange rfl htake hdonated, hdonated.keys⟩

end Floor

/-! ## The vector -/

section Build

variable {scores : Dict ℕ ℚ} {activeUids : List ℕ} {reserveUid : Option ℕ} {heldShare : ℚ}

/-- The reserve doubles no uid. -/
theorem nodup_keys_withReserve {shares : Dict ℕ ℚ} (hkeys : shares.keys.Nodup) :
    (withReserve shares reserveUid heldShare).keys.Nodup := by
  cases reserveUid with
  | none => exact hkeys
  | some reserve =>
    rw [withReserve]
    split_ifs
    · exact hkeys
    · refine Dict.nodup_keys_set ?_ _ _
      rw [Dict.keys_map_values]
      exact Dict.nodup_keys_filter hkeys _

/-- Quantising doubles no uid. -/
theorem nodup_keys_toU16 {shares : Dict ℕ ℚ} (hkeys : shares.keys.Nodup) :
    (toU16 shares).keys.Nodup := by
  simp only [toU16]
  split_ifs
  · exact List.nodup_nil
  · rw [Dict.keys_map_values]
    exact Dict.nodup_keys_filter hkeys _

/-- `c * scores`. -/
def scale (c : ℚ) (scores : Dict ℕ ℚ) : Dict ℕ ℚ :=
  scores.map fun e => (e.1, c * e.2)

/-- Shares do not depend on the unit of the scores. -/
theorem normalise_scale {c : ℚ} (hc : 0 < c) (scores : Dict ℕ ℚ) :
    normalise (scale c scores) = normalise scores := by
  -- a positive factor keeps the positive scores
  have hfilter : (scale c scores).filter (fun e => 0 < e.2) =
      (scores.filter fun e => 0 < e.2).map fun e => (e.1, c * e.2) := by
    rw [scale, List.filter_map]
    congr 1
    refine List.filter_congr fun e _ => ?_
    simp [hc]
  have htotal : positiveTotal (scale c scores) = c * positiveTotal scores := by
    rw [positiveTotal, hfilter, List.map_map, positiveTotal, ← List.sum_map_mul_left]
    rfl
  rw [normalise_eq, normalise_eq, htotal, hfilter]
  -- and cancels in every share
  by_cases hle : positiveTotal scores ≤ 0
  · rw [if_pos hle, if_pos (mul_nonpos_of_nonneg_of_nonpos hc.le hle)]
  · rw [if_neg hle, if_neg (by rw [not_le] at hle ⊢; positivity), List.map_map]
    refine List.map_congr_left fun e _ => ?_
    simp only [Function.comp, Prod.mk.injEq, true_and]
    exact mul_div_mul_left _ _ hc.ne'

/-- What the vector is meant to be, where `shares` are the shares after the reserve and `after` the
weights after the floor. -/
structure Submits (shares : Dict ℕ ℚ) (activeUids : List ℕ) (reserveUid : Option ℕ)
    (after : Dict ℕ ℤ) (vector : WeightVector) : Prop where
  quantised : Quantised shares (toU16 shares)
  floored : Floored (toU16 shares) activeUids reserveUid vector.floored after
  lists : ∀ uid weight, (uid, weight) ∈ vector.uids.zip vector.weights ↔
    after.get? uid = some weight
  sorted : vector.uids.Pairwise (· < ·)
  length : vector.weights.length = vector.uids.length
  range : ∀ weight ∈ vector.weights, 1 ≤ weight ∧ weight ≤ 65535

/-- A weight after the floor is in the range of weights. -/
theorem Floored.range {u16 after : Dict ℕ ℤ} {floored : List ℕ} {shares : Dict ℕ ℚ}
    (hfloored : Floored u16 activeUids reserveUid floored after) (hq : Quantised shares u16)
    {uid : ℕ} {weight : ℤ} (hget : after.get? uid = some weight) : 1 ≤ weight ∧ weight ≤ 65535 := by
  by_cases hmem : uid ∈ floored
  · rw [hfloored.one uid hmem] at hget
    obtain rfl := Option.some.inj hget
    exact ⟨le_rfl, by norm_num⟩
  · by_cases hdonor : reserveUid = some uid ∧ uid ∈ u16.keys
    · obtain ⟨before, hbefore⟩ := Option.ne_none_iff_exists'.mp fun h =>
        (Dict.get?_eq_none_iff.mp h) hdonor.2
      have hbounds := hfloored.donor uid hdonor.1 hdonor.2
      rw [weightOf, hget, weightOf, hbefore, Option.getD_some, Option.getD_some] at hbounds
      exact ⟨hbounds.1, hbounds.2.trans (hq.range uid before hbefore).2⟩
    · rw [hfloored.others uid (not_and_or.mp hdonor) hmem] at hget
      exact hq.range uid weight hget

/-- `sorted(u16.items())`: the uids come in order. -/
theorem pairwise_sortedItems {after : Dict ℕ ℤ} (hkeys : after.keys.Nodup) :
    ((after.insertionSort fun a b => a.1 ≤ b.1).map Prod.fst).Pairwise (· < ·) := by
  have hperm := List.perm_insertionSort (fun a b : ℕ × ℤ => a.1 ≤ b.1) after
  have htotal : Std.Total fun a b : ℕ × ℤ => a.1 ≤ b.1 := ⟨fun a b => le_total a.1 b.1⟩
  have htrans : IsTrans (ℕ × ℤ) fun a b => a.1 ≤ b.1 := ⟨fun a b c => le_trans⟩
  have hsorted : ((after.insertionSort fun a b => a.1 ≤ b.1).map Prod.fst).Pairwise (· ≤ ·) :=
    List.pairwise_map.mpr (List.pairwise_insertionSort _ _)
  have hnodup : ((after.insertionSort fun a b => a.1 ≤ b.1).map Prod.fst).Nodup :=
    (hperm.map Prod.fst).nodup_iff.mpr hkeys
  exact (hsorted.and hnodup).imp fun h => lt_of_le_of_ne h.1 h.2

/-- The two lists that are handed over, read side by side, are the items of the vector. -/
theorem mem_zip_sortedItems {after : Dict ℕ ℤ} (hkeys : after.keys.Nodup) (uid : ℕ) (weight : ℤ) :
    (uid, weight) ∈ ((after.insertionSort fun a b => a.1 ≤ b.1).map Prod.fst).zip
        ((after.insertionSort fun a b => a.1 ≤ b.1).map Prod.snd) ↔
      after.get? uid = some weight := by
  rw [List.zip_map', Dict.get?_eq_some_iff hkeys]
  change (uid, weight) ∈ (after.insertionSort fun a b => a.1 ≤ b.1).map id ↔ _
  rw [List.map_id, List.mem_insertionSort]

/-- What `build` returns, for every map of scores, set of active uids, reserve and held share; and
it does not depend on the unit of the scores. -/
theorem build_vector (hkeys : scores.keys.Nodup) :
    Submits (withReserve (normalise scores) reserveUid heldShare) activeUids reserveUid
        (eligibilityFloor (toU16 (withReserve (normalise scores) reserveUid heldShare))
          activeUids.dedup reserveUid).2
        (build scores activeUids reserveUid heldShare) ∧
      ∀ c : ℚ, 0 < c → build (scale c scores) activeUids reserveUid heldShare =
        build scores activeUids reserveUid heldShare := by
  have hshares : (withReserve (normalise scores) reserveUid heldShare).keys.Nodup :=
    nodup_keys_withReserve (nodup_keys_normalise hkeys)
  -- the shares, the weights made of them, and the floor under them
  set shares := withReserve (normalise scores) reserveUid heldShare with hshares_eq
  have hq := toU16_quantised hshares
  obtain ⟨hfloored, hnodup⟩ := eligibilityFloor_floored reserveUid
    (nodup_keys_toU16 hshares) activeUids.nodup_dedup fun uid weight h => (hq.range uid weight h).1
  set floor := eligibilityFloor (toU16 shares) activeUids.dedup reserveUid with hfloor
  have hbuild : build scores activeUids reserveUid heldShare =
      { uids := (floor.2.insertionSort fun a b => a.1 ≤ b.1).map Prod.fst
        weights := (floor.2.insertionSort fun a b => a.1 ≤ b.1).map Prod.snd
        floored := floor.1
        reserveUid } := rfl
  refine ⟨?_, fun c hc => ?_⟩
  · rw [hbuild]
    refine ⟨hq, ?_, mem_zip_sortedItems hnodup, pairwise_sortedItems hnodup, by simp,
      fun weight hweight => ?_⟩
    · exact { hfloored with
        smallest := by simpa only [List.mem_dedup] using hfloored.smallest }
    · obtain ⟨e, he, rfl⟩ := List.mem_map.mp hweight
      rw [List.mem_insertionSort] at he
      exact hfloored.range hq ((Dict.get?_eq_some_iff hnodup).mpr he)
  -- the scores come in by their shares alone
  · rw [build, build, normalise_scale hc]

/-- Two miners, the reserve as donor and an active uid without a score. -/
theorem build_vector_two :
    Submits (withReserve (normalise [(7, 3), (2, 1)]) (some 0) (2 / 5)) [5, 2] (some 0)
        (eligibilityFloor (toU16 (withReserve (normalise [(7, 3), (2, 1)]) (some 0) (2 / 5)))
          (List.dedup [5, 2]) (some 0)).2
        (build [(7, 3), (2, 1)] [5, 2] (some 0) (2 / 5)) ∧
      ∀ c : ℚ, 0 < c → build (scale c [(7, 3), (2, 1)]) [5, 2] (some 0) (2 / 5) =
        build [(7, 3), (2, 1)] [5, 2] (some 0) (2 / 5) :=
  build_vector (by decide)

/-- The vector of this case. -/
example : build [(7, 3), (2, 1)] [5, 2] (some 0) (2 / 5) =
    { uids := [0, 2, 5, 7], weights := [58252, 21845, 1, 65535], floored := [5]
      reserveUid := some 0 } := by decide +kernel

end Build

end ComputePool.Validator
