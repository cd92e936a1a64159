import Mathlib.Data.List.Dedup
import Mathlib.Data.List.Sort
import Mathlib.Data.Rat.Floor
import ComputePool.Validator.Scoring.LocalScores

/-!
# The weight vector

`validator/scoring/weights.py` from the scores to what is submitted: shares, the held share routed
to the reserve, quantisation to sixteen bits, the eligibility floor, and the vector in the order
of the uids. Shares are exact rationals.

The floor is a deliberate exception to payment by score: a uid with a rig online that has no
weight of its own gets weight one, taken from the weight of the reserve.

* `mem_eligibilityFloor`: who can be given the floor, and what it is worth.
* `mem_build`: a uid of the vector has a positive score, is the reserve, or has the floor.
-/

namespace ComputePool.Validator

open Text

/-- `round(q)`: to the nearest integer, halves to the even one. -/
def roundHalfEven (q : ℚ) : ℤ :=
  let low := ⌊q⌋
  let rest := q - low
  if rest < 1 / 2 then low
  else if 1 / 2 < rest then low + 1
  else if low % 2 = 0 then low else low + 1

/-- `U16_MAX`. -/
def u16Max : ℚ := 65535

/-- `HELD_SHARE`. -/
def heldShareDefault : ℚ := 2 / 5

/-- `WeightVector`. -/
structure WeightVector where
  uids : List ℕ
  weights : List ℤ
  floored : List ℕ
  reserveUid : Option ℕ
  deriving DecidableEq, Repr

/-- `normalise`. -/
def normalise {κ : Type} (scores : Dict κ ℚ) : Dict κ ℚ :=
  let positive := scores.filter fun e => 0 < e.2
  let total := (positive.map Prod.snd).sum
  if total ≤ 0 then [] else positive.map fun e => (e.1, e.2 / total)

/-- `with_reserve`. -/
def withReserve (shares : Dict ℕ ℚ) (reserveUid : Option ℕ) (heldShare : ℚ) : Dict ℕ ℚ :=
  match reserveUid with
  | none => shares
  | some reserve =>
    if heldShare ≤ 0 then shares
    else
      let held := min (max heldShare 0) 1
      let scaled : Dict ℕ ℚ :=
        (shares.filter fun e => e.1 ≠ reserve).map fun e => (e.1, e.2 * (1 - held))
      scaled.set reserve ((scaled.get? reserve).getD 0 + held)

/-- `max(shares.values())` of shares that are not empty. -/
def topShare (shares : Dict ℕ ℚ) : ℚ :=
  match shares.map Prod.snd with
  | [] => 0
  | value :: values => values.foldl max value

/-- `to_u16`. -/
def toU16 (shares : Dict ℕ ℚ) : Dict ℕ ℤ :=
  let top := topShare shares
  if shares = [] ∨ top ≤ 0 then []
  else
    (shares.filter fun e => 0 < e.2).map fun e =>
      (e.1, max 1 (roundHalfEven (e.2 / top * u16Max)))

/-- The loop of `eligibility_floor`: each uid in turn takes one from the donor, while the donor
keeps at least one. -/
def donate (donor : ℕ) : List ℕ → Dict ℕ ℤ → List ℕ × Dict ℕ ℤ
  | [], u16 => ([], u16)
  | uid :: rest, u16 =>
    let left := (u16.get? donor).getD 0
    if left ≤ 1 then ([], u16)
    else
      let (floored, u16) := donate donor rest ((u16.set donor (left - 1)).set uid 1)
      (uid :: floored, u16)

/-- `eligibility_floor`: the uids that were given the floor, and the weights afterwards. The set
of active uids is a list without repetition. -/
def eligibilityFloor (u16 : Dict ℕ ℤ) (activeUids : List ℕ) (donorUid : Option ℕ) :
    List ℕ × Dict ℕ ℤ :=
  let missing := (activeUids.filter fun uid =>
    uid ∉ u16.keys && some uid ≠ donorUid).insertionSort (· ≤ ·)
  match donorUid with
  | none => ([], u16)
  | some donor =>
    if missing = [] ∨ donor ∉ u16.keys then ([], u16) else donate donor missing u16

/-- `build`. -/
def build (scores : Dict ℕ ℚ) (activeUids : List ℕ) (reserveUid : Option ℕ) (heldShare : ℚ) :
    WeightVector :=
  let shares := withReserve (normalise scores) reserveUid heldShare
  let u16 := toU16 shares
  let (floored, u16) := eligibilityFloor u16 activeUids.dedup reserveUid
  let ordered := u16.insertionSort fun a b => a.1 ≤ b.1
  { uids := ordered.map Prod.fst
    weights := ordered.map Prod.snd
    floored
    reserveUid }

/-- One round of the loop of `Chain.uids_for`. -/
def addUid (uidOf : Str → Option ℕ) (out : Dict Str ℕ) (hotkey : Str) : Dict Str ℕ :=
  match uidOf hotkey with
  | some uid => out.set hotkey uid
  | none => out

/-- `Chain.uids_for`, where `uidOf` is the chain's table of uids. -/
def uidsFor (uidOf : Str → Option ℕ) (hotkeys : List Str) : Dict Str ℕ :=
  hotkeys.foldl (addUid uidOf) []

/-- One entry of the scores by uid of `Chain.vector`. -/
def addScoreByUid (uids : Dict Str ℕ) (byUid : Dict ℕ ℚ) (e : Str × ℚ) : Dict ℕ ℚ :=
  match uids.get? e.1 with
  | some uid => byUid.set uid e.2
  | none => byUid

/-- `Chain.vector`. The order in which the hotkeys are looked up plays no role and is the one they
come in. -/
def vector (uidOf : Str → Option ℕ) (scores : Dict Str ℚ) (activeHotkeys : List Str)
    (reserveUid : Option ℕ) (heldShare : ℚ) : WeightVector :=
  let uids := uidsFor uidOf (scores.keys ++ activeHotkeys)
  let scoresByUid := scores.foldl (addScoreByUid uids) []
  let activeUids := activeHotkeys.filterMap uids.get?
  build scoresByUid activeUids reserveUid heldShare

/-! ## Who is in the vector -/

/-- Only scored uids are normalised. -/
theorem mem_keys_normalise {scores : Dict ℕ ℚ} {uid : ℕ} (h : uid ∈ (normalise scores).keys) :
    uid ∈ scores.keys := by
  unfold normalise at h
  dsimp only at h
  split_ifs at h
  · simp [Dict.keys] at h
  · exact Dict.mem_keys_of_mem_map_filter h

/-- Only the reserve is added. -/
theorem mem_keys_withReserve {shares : Dict ℕ ℚ} {reserveUid : Option ℕ} {heldShare : ℚ} {uid : ℕ}
    (h : uid ∈ (withReserve shares reserveUid heldShare).keys) :
    uid ∈ shares.keys ∨ reserveUid = some uid := by
  unfold withReserve at h
  split at h
  · exact Or.inl h
  · split_ifs at h
    · exact Or.inl h
    · rcases Dict.mem_keys_set.mp h with rfl | h
      · exact Or.inr rfl
      · exact Or.inl (Dict.mem_keys_of_mem_map_filter h)

/-- Only uids with a share are quantised. -/
theorem mem_keys_toU16 {shares : Dict ℕ ℚ} {uid : ℕ} (h : uid ∈ (toU16 shares).keys) :
    uid ∈ shares.keys := by
  unfold toU16 at h
  dsimp only at h
  split_ifs at h
  · simp [Dict.keys] at h
  · exact Dict.mem_keys_of_mem_map_filter h

/-- The loop of the floor only adds uids of its list, each with weight one, and never removes the
donor. -/
theorem mem_donate {donor : ℕ} {missing : List ℕ} {u16 : Dict ℕ ℤ} (hdonor : donor ∉ missing)
    {e : ℕ × ℤ} (he : e ∈ (donate donor missing u16).2) :
    e.1 = donor ∨ e ∈ u16 ∨ e.1 ∈ (donate donor missing u16).1 ∧ e.2 = 1 := by
  induction missing generalizing u16 with
  | nil => exact Or.inr (Or.inl he)
  | cons uid rest ih =>
    simp only [List.mem_cons, not_or] at hdonor
    unfold donate at he ⊢
    dsimp only at he ⊢
    split_ifs at he ⊢
    · exact Or.inr (Or.inl he)
    -- the rest gives what it gives, on top of the one that is taken
    · rcases ih hdonor.2 he with hd | hmem | ⟨hmem, hone⟩
      · exact Or.inl hd
      · rcases Dict.mem_set.mp hmem with rfl | ⟨-, hmem⟩
        · exact Or.inr (Or.inr ⟨by simp, rfl⟩)
        · rcases Dict.mem_set.mp hmem with rfl | ⟨-, hmem⟩
          · exact Or.inl rfl
          · exact Or.inr (Or.inl hmem)
      · exact Or.inr (Or.inr ⟨List.mem_cons_of_mem _ hmem, hone⟩)

/-- Only uids without a weight are floored. -/
theorem mem_of_mem_donate {donor : ℕ} {missing : List ℕ} {u16 : Dict ℕ ℤ} {uid : ℕ}
    (h : uid ∈ (donate donor missing u16).1) : uid ∈ missing := by
  induction missing generalizing u16 with
  | nil => simp [donate] at h
  | cons first rest ih =>
    unfold donate at h
    dsimp only at h
    split_ifs at h
    · simp at h
    · rcases List.mem_cons.mp h with rfl | h
      · simp
      · exact List.mem_cons_of_mem _ (ih h)

/-- The donor keeps a weight. -/
theorem donor_mem_donate {donor : ℕ} {missing : List ℕ} {u16 : Dict ℕ ℤ}
    (h : donor ∈ u16.keys) : donor ∈ (donate donor missing u16).2.keys := by
  induction missing generalizing u16 with
  | nil => exact h
  | cons uid rest ih =>
    unfold donate
    dsimp only
    split_ifs
    · exact h
    · exact ih (by simp)

/-- A weight after the floor is one from before it, the donor's, or the weight one of an active uid
that had none; in the last case there is a donor, and it keeps a weight. -/
theorem mem_eligibilityFloor {u16 : Dict ℕ ℤ} {activeUids : List ℕ} {donorUid : Option ℕ}
    {e : ℕ × ℤ} (he : e ∈ (eligibilityFloor u16 activeUids donorUid).2) :
    e.1 ∈ u16.keys ∨
      (e.1 ∈ (eligibilityFloor u16 activeUids donorUid).1 ∧ e.2 = 1 ∧ e.1 ∈ activeUids ∧
        ∃ donor, donorUid = some donor ∧
          donor ∈ (eligibilityFloor u16 activeUids donorUid).2.keys) := by
  have hkeys (e : ℕ × ℤ) (h : e ∈ u16) : e.1 ∈ u16.keys := Dict.mem_keys.mpr ⟨e.2, h⟩
  unfold eligibilityFloor at he ⊢
  cases donorUid with
  | none => exact Or.inl (hkeys e he)
  | some donor =>
    dsimp only at he ⊢
    split_ifs at he ⊢ with hskip
    · exact Or.inl (hkeys e he)
    -- the donor has a weight, so it is not among the missing
    · obtain ⟨-, hdonor⟩ := not_or.mp hskip
      rw [not_not] at hdonor
      have hmissing : donor ∉ (activeUids.filter fun uid =>
          uid ∉ u16.keys && some uid ≠ some donor).insertionSort (· ≤ ·) := by
        simp [List.mem_insertionSort]
      rcases mem_donate hmissing he with hd | hmem | ⟨hmem, hone⟩
      · exact Or.inl (hd ▸ hdonor)
      · exact Or.inl (hkeys e hmem)
      · have hactive : e.1 ∈ activeUids := by
          have := mem_of_mem_donate hmem
          simp only [List.mem_insertionSort, List.mem_filter] at this
          exact this.1
        exact Or.inr ⟨hmem, hone, hactive, donor, rfl, donor_mem_donate hdonor⟩

/-- A uid of the vector has a score, is the reserve, or is an active one that was given the floor
of weight one out of the weight of the reserve. -/
theorem mem_build {scores : Dict ℕ ℚ} {activeUids : List ℕ} {reserveUid : Option ℕ}
    {heldShare : ℚ} {uid : ℕ} {weight : ℤ} {result : WeightVector}
    (hresult : build scores activeUids reserveUid heldShare = result)
    (h : (uid, weight) ∈ result.uids.zip result.weights) :
    uid ∈ scores.keys ∨ reserveUid = some uid ∨
      (uid ∈ result.floored ∧ weight = 1 ∧ uid ∈ activeUids ∧
        ∃ reserve, reserveUid = some reserve ∧ reserve ∈ result.uids) := by
  subst hresult
  have hzip (entries : Dict ℕ ℤ) :
      (entries.map Prod.fst).zip (entries.map Prod.snd) = entries := by
    rw [List.zip_map']
    exact List.map_id entries
  simp only [build, hzip, List.mem_insertionSort, List.mem_map] at h ⊢
  -- an entry has a share, or it comes from the floor
  rcases mem_eligibilityFloor h with hkeys | ⟨hfloored, hone, hactive, donor, hdonor, hkept⟩
  · rcases mem_keys_withReserve (mem_keys_toU16 hkeys) with hscored | hreserve
    · exact Or.inl (mem_keys_normalise hscored)
    · exact Or.inr (Or.inl hreserve)
  · refine Or.inr (Or.inr ⟨hfloored, hone, List.mem_dedup.mp hactive, donor, hdonor, ?_⟩)
    exact List.mem_map.mp hkept

/-! ## From hotkeys to uids -/

/-- Every uid is the one of its hotkey. -/
theorem mem_uidsFor {uidOf : Str → Option ℕ} {hotkeys : List Str} {out : Dict Str ℕ}
    (hout : ∀ e ∈ out, uidOf e.1 = some e.2) {e : Str × ℕ}
    (h : e ∈ hotkeys.foldl (addUid uidOf) out) : uidOf e.1 = some e.2 := by
  induction hotkeys generalizing out with
  | nil => exact hout e h
  | cons hotkey hotkeys ih =>
    refine ih (fun f hf => ?_) h
    unfold addUid at hf
    split at hf
    · rename_i uid huid
      rcases Dict.mem_set.mp hf with rfl | ⟨-, hf⟩
      exacts [huid, hout f hf]
    · exact hout f hf

/-- The table of uids repeats the chain's. -/
theorem uidOf_of_get?_uidsFor {uidOf : Str → Option ℕ} {hotkeys : List Str} {hotkey : Str}
    {uid : ℕ} (h : (uidsFor uidOf hotkeys).get? hotkey = some uid) : uidOf hotkey = some uid :=
  mem_uidsFor (e := (hotkey, uid)) (by simp) (Dict.mem_of_get? h)

/-- A uid with a score belongs to a hotkey with one. -/
theorem mem_keys_scoresByUid {uids : Dict Str ℕ} {scores : Dict Str ℚ} {byUid : Dict ℕ ℚ}
    {uid : ℕ} (h : uid ∈ Dict.keys (scores.foldl (addScoreByUid uids) byUid)) :
    uid ∈ byUid.keys ∨ ∃ hotkey ∈ scores.keys, uids.get? hotkey = some uid := by
  induction scores generalizing byUid with
  | nil => exact Or.inl h
  | cons e scores ih =>
    rcases ih h with hkeys | ⟨hotkey, hmem, huid⟩
    · unfold addScoreByUid at hkeys
      split at hkeys
      · rename_i first hfirst
        rcases Dict.mem_keys_set.mp hkeys with rfl | hkeys
        · exact Or.inr ⟨e.1, by simp [Dict.keys], hfirst⟩
        · exact Or.inl hkeys
      · exact Or.inl hkeys
    · exact Or.inr ⟨hotkey, List.mem_cons_of_mem _ hmem, huid⟩

/-- A uid of the vector is the reserve, or belongs to a hotkey that has a score, or to an active
one that was given the floor. -/
theorem mem_vector {uidOf : Str → Option ℕ} {scores : Dict Str ℚ} {activeHotkeys : List Str}
    {reserveUid : Option ℕ} {heldShare : ℚ} {uid : ℕ} {weight : ℤ} {result : WeightVector}
    (hresult : vector uidOf scores activeHotkeys reserveUid heldShare = result)
    (h : (uid, weight) ∈ result.uids.zip result.weights) :
    reserveUid = some uid ∨ (∃ hotkey ∈ scores.keys, uidOf hotkey = some uid) ∨
      (uid ∈ result.floored ∧ weight = 1 ∧ (∃ hotkey ∈ activeHotkeys, uidOf hotkey = some uid) ∧
        ∃ reserve, reserveUid = some reserve ∧ reserve ∈ result.uids) := by
  rcases mem_build hresult h with hscored | hreserve | ⟨hfloored, hone, hactive, hdonor⟩
  · rcases mem_keys_scoresByUid hscored with hnil | ⟨hotkey, hmem, huid⟩
    · simp [Dict.keys] at hnil
    · exact Or.inr (Or.inl ⟨hotkey, hmem, uidOf_of_get?_uidsFor huid⟩)
  · exact Or.inl hreserve
  · obtain ⟨hotkey, hmem, huid⟩ := List.mem_filterMap.mp hactive
    exact Or.inr (Or.inr ⟨hfloored, hone, ⟨hotkey, hmem, uidOf_of_get?_uidsFor huid⟩, hdonor⟩)

end ComputePool.Validator
