import ComputePool.Validator.Scoring.Weights

/-!
# What an unverified contributor earns

The documents promise that a contributor with nothing verified earns nothing. Scoring keeps the
promise, the weight vector does so up to the eligibility floor: a hotkey with a rig online but
nothing verified is given weight one when there is a reserve with weight to take it from.

* `unverified_only_floored`: nothing but the floor reaches such a hotkey.
* `failed_rig_is_floored`: and the floor does reach it.
-/

namespace ComputePool.Validator

open Text

/-- A hotkey none of whose rigs is verified has no score of its own. -/
theorem not_mem_scores_of_unverified {server : Option ServerScores} {roster : List Rig}
    {demand : DemandWeights} {ledger : UptimeLedger} {settings : ScoringSettings} {now : ℚ}
    {scores : Dict Str ℚ} {active : List Str} {hotkey : Str}
    (hscores : scoresByHotkey server roster demand ledger settings now =
      some (scores, .local, active))
    (hnone : ∀ rig ∈ roster, rig.hotkey = hotkey → rig.isVerified = false) :
    hotkey ∉ scores.keys := by
  intro hmem
  obtain ⟨⟨found, origin⟩, hcompute, hpair⟩ := Option.bind_eq_some_iff.mp hscores
  -- the scores are local, so they were made of this roster
  obtain ⟨rfl, rfl, -⟩ : found = scores ∧ origin = .local ∧ _ := by simpa using hpair
  unfold computeScores at hcompute
  dsimp only at hcompute
  split_ifs at hcompute
  · simp at hcompute
  · obtain ⟨found, hlocal, heq⟩ := Option.map_eq_some_iff.mp hcompute
    obtain rfl := (Prod.mk.inj heq).1
    obtain ⟨rig, hrig, hkey, hverified⟩ := exists_verified_of_mem_localScores hlocal hmem
    simp [hnone rig hrig hkey] at hverified

/-- The active hotkeys are those with a rig online. -/
theorem online_of_mem_active {server : Option ServerScores} {roster : List Rig}
    {demand : DemandWeights} {ledger : UptimeLedger} {settings : ScoringSettings} {now : ℚ}
    {scores : Dict Str ℚ} {origin : Origin} {active : List Str} {hotkey : Str}
    (hscores : scoresByHotkey server roster demand ledger settings now =
      some (scores, origin, active))
    (hmem : hotkey ∈ active) : ∃ rig ∈ roster, rig.hotkey = hotkey ∧ rig.online := by
  obtain ⟨found, -, hpair⟩ := Option.bind_eq_some_iff.mp hscores
  simp only [pure, Option.some.injEq, Prod.mk.injEq] at hpair
  rw [← hpair.2.2] at hmem
  simp only [List.mem_map, List.mem_filter, Bool.and_eq_true] at hmem
  obtain ⟨rig, ⟨hrig, honline, -⟩, rfl⟩ := hmem
  exact ⟨rig, hrig, rfl, honline⟩

/-- **Nothing verified, nothing but the floor.** With scores from the local formula, a hotkey none
of whose rigs is verified and whose uid is not the reserve has at most the eligibility floor: its
weight is one, it is listed as floored, it has a rig online, and the reserve is in the vector to
take the weight from. Two hotkeys of the subnet never share a uid. -/
theorem unverified_only_floored {uidOf : Str → Option ℕ}
    (hinj : ∀ a b uid, uidOf a = some uid → uidOf b = some uid → a = b)
    {server : Option ServerScores} {roster : List Rig} {demand : DemandWeights}
    {ledger : UptimeLedger} {settings : ScoringSettings} {now heldShare : ℚ}
    {reserveUid : Option ℕ} {scores : Dict Str ℚ} {active : List Str}
    (hscores : scoresByHotkey server roster demand ledger settings now =
      some (scores, .local, active))
    {hotkey : Str} {uid : ℕ} (huid : uidOf hotkey = some uid)
    (hnone : ∀ rig ∈ roster, rig.hotkey = hotkey → rig.isVerified = false)
    (hreserve : reserveUid ≠ some uid) {result : WeightVector}
    (hresult : vector uidOf scores active reserveUid heldShare = result) {weight : ℤ}
    (hmem : (uid, weight) ∈ result.uids.zip result.weights) :
    weight = 1 ∧ uid ∈ result.floored ∧ (∃ rig ∈ roster, rig.hotkey = hotkey ∧ rig.online) ∧
      ∃ reserve, reserveUid = some reserve ∧ reserve ∈ result.uids := by
  -- an entry comes from the reserve, from a score or from the floor
  rcases mem_vector hresult hmem with h | ⟨other, hother, hsame⟩ | ⟨hfloored, hone, hactive, hdonor⟩
  · exact absurd h hreserve
  · obtain rfl := hinj other hotkey uid hsame huid
    exact absurd hother (not_mem_scores_of_unverified hscores hnone)
  · obtain ⟨other, hother, hsame⟩ := hactive
    obtain rfl := hinj other hotkey uid hsame huid
    exact ⟨hone, hfloored, online_of_mem_active hscores hother, hdonor⟩

/-- A verified rig that has been up for two weeks, and one online that failed its last pass. -/
def sampleRoster : List Rig :=
  [{ id := "a".toList, hotkey := "ha".toList, state := .active, online := true, lastPassed := true,
      gpus := [{ tier := "flagship".toList }], isolationVerified := true, uptimeSince := some 0 },
    { id := "b".toList, hotkey := "hb".toList, state := .other "failed".toList, online := true,
      gpus := [{ tier := "flagship".toList }] }]

/-- The uids of the two owners. -/
def sampleUidOf (hotkey : Str) : Option ℕ :=
  if hotkey = "ha".toList then some 1 else if hotkey = "hb".toList then some 2 else none

/-- The vector of the two owners, with the reserve at uid zero. -/
def sampleVector : WeightVector where
  uids := [0, 1, 2]
  weights := [43689, 65535, 1]
  floored := [2]
  reserveUid := some 0

/-- The owner of the failed rig is in the vector. -/
theorem failed_rig_is_floored :
    ∃ scores active, scoresByHotkey none sampleRoster {} {} {} 1209600 =
        some (scores, .local, active) ∧
      (∀ rig ∈ sampleRoster, rig.hotkey = "hb".toList → rig.isVerified = false) ∧
      sampleUidOf "hb".toList = some 2 ∧
      vector sampleUidOf scores active (some 0) heldShareDefault = sampleVector :=
  ⟨[("ha".toList, 1)], ["ha".toList, "hb".toList], by decide +kernel, by decide, by decide,
    by decide +kernel⟩

theorem unverified_only_floored_failed_rig :
    (1 : ℤ) = 1 ∧ 2 ∈ sampleVector.floored ∧
      (∃ rig ∈ sampleRoster, rig.hotkey = "hb".toList ∧ rig.online) ∧
      ∃ reserve, some 0 = some reserve ∧ reserve ∈ sampleVector.uids := by
  have hinj (a b : Str) (uid : ℕ) (ha : sampleUidOf a = some uid) (hb : sampleUidOf b = some uid) :
      a = b := by
    unfold sampleUidOf at ha hb
    split_ifs at ha hb <;> simp_all <;> omega
  have hscores : scoresByHotkey none sampleRoster {} {} {} 1209600 =
      some ([("ha".toList, 1)], .local, ["ha".toList, "hb".toList]) := by
    decide +kernel
  have hvector : vector sampleUidOf [("ha".toList, 1)] ["ha".toList, "hb".toList] (some 0)
      heldShareDefault = sampleVector := by
    decide +kernel
  exact unverified_only_floored hinj hscores (by decide) (by decide) (by decide) hvector
    (by decide)

end ComputePool.Validator
