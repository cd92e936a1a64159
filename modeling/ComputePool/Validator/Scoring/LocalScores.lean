import ComputePool.Foundations.Dict
import ComputePool.Foundations.Numeral
import ComputePool.Validator.Roster
import ComputePool.Validator.Scoring.Formula

/-!
# Scores per hotkey

`local_scores` and `compute_scores` of `validator/scoring/weights.py`, with what they read of the
demand weights and of the uptime ledger. A rig counts when it is in a verified state, its last
pass passed and at least one of its cards is accepted; the scores of the rigs of a hotkey add up.

* `exists_verified_of_mem_localScores`: only the hotkey of a verified rig gets a score.
-/

namespace ComputePool.Validator

open Text Numeral

/-! ## Demand and uptime -/

/-- `MIN_WEIGHT`. -/
def minWeight : ℚ := 1 / 100

/-- `STATIC_PRIOR`. -/
def staticPrior : Dict Str ℚ :=
  [(Tier.flagship.value, 1), (Tier.professional.value, 3 / 5), (Tier.standard.value, 7 / 20),
    (Tier.entry.value, 3 / 20)]

/-- `DemandWeights`: the moving averages so far. -/
structure DemandWeights where
  values : Dict Str ℚ := []
  deriving DecidableEq, Repr

/-- `DemandWeights.weight`. -/
def DemandWeights.weight (demand : DemandWeights) (key : Str) (tier : Option Tier) : ℚ :=
  match demand.values.get? key with
  | some value => max minWeight value
  | none =>
    match tier with
    | some tier => (staticPrior.get? tier.value).getD minWeight
    | none => (staticPrior.get? key).getD minWeight

/-- What scoring reads of the uptime ledger: the credited seconds of each rig. -/
structure UptimeLedger where
  uptimeSeconds : Dict Str ℚ := []
  deriving DecidableEq, Repr

/-- `UptimeLedger.uptime_days`. -/
def UptimeLedger.uptimeDays (ledger : UptimeLedger) (rigId : Str) : ℚ :=
  (ledger.uptimeSeconds.get? rigId).getD 0 / 86400

/-- `uptime_days_of`. -/
def uptimeDaysOf (rig : Rig) (ledger : Option UptimeLedger) (now : ℚ) : ℚ :=
  let days := (ledger.map (·.uptimeDays rig.id)).getD 0
  match rig.uptimeSince with
  | some since => max days ((now - since) / 86400)
  | none => days

/-! ## Drivers -/

/-- `NUMBERS.findall`: the maximal runs of decimal digits, after the digits `run` of the current
one. -/
def numbersFrom (run : Str) : Str → List Str
  | [] => if run = [] then [] else [run]
  | c :: rest =>
    if (decimalValue c).isSome then numbersFrom (run ++ [c]) rest
    else if run = [] then numbersFrom [] rest else run :: numbersFrom [] rest

/-- `parse_version`; `none` when a number is too long for `int`. -/
def parseVersion (text : Str) : Option (List ℤ) :=
  ((numbersFrom [] text).take 3).mapM intOf

/-- `a >= b` on tuples of numbers. -/
def tupleGe : List ℤ → List ℤ → Bool
  | _, [] => true
  | [], _ :: _ => false
  | a :: as, b :: bs => b < a || (a = b && tupleGe as bs)

/-- `driver_ok`; `none` when a version cannot be read. -/
def driverOk (driver minimum : Str) : Option Bool := do
  let floor ← parseVersion minimum
  let current ← parseVersion driver
  return floor = [] || current = [] || tupleGe current floor

/-- `in_rental`. -/
def inRental (rig : Rig) : Bool :=
  rig.jobKinds.any (· = "rental".toList)

/-! ## Scores -/

/-- The settings scoring reads. -/
structure ScoringSettings where
  minDriverVersion : Str := []
  driverCutoffPassed : Bool := false
  deriving DecidableEq, Repr

/-- The verified rigs with their accepted cards. -/
def verifiedRigs (roster : List Rig) : List (Rig × List Card) :=
  (roster.filter Rig.isVerified).map fun rig => (rig, rig.acceptedCards)

/-- The demand weight of a rig: the mean over its cards. -/
def meanWeight (demand : Option DemandWeights) (cards : List Card) : ℚ :=
  let weights := cards.map fun card =>
    match demand with
    | some demand => demand.weight (normalizeModel card.model) (Tier.ofText card.tier)
    | none => 1
  if weights = [] then 0 else weights.sum / weights.length

/-- The inputs of the score of a verified rig; `none` when its driver cannot be read. -/
def scoreInputs (demand : Option DemandWeights) (ledger : Option UptimeLedger)
    (settings : ScoringSettings) (now : ℚ) (fleet : ℕ) (rig : Rig) (cards : List Card) :
    Option ScoreInputs := do
  let driverOk ← driverOk rig.driver settings.minDriverVersion
  return {
    verified := true
    demandWeight := meanWeight demand cards
    gpuCount := cards.length
    fleetGpuCount := fleet
    isolationOk := rig.isolationVerified
    uptimeDays := uptimeDaysOf rig ledger now
    driverOk
    driverCutoffPassed := settings.driverCutoffPassed
    inRental := inRental rig
    rentalOptedOut := rig.rentalOptOut }

/-- One round of the second loop of `local_scores`. -/
def addScore (demand : Option DemandWeights) (ledger : Option UptimeLedger)
    (settings : ScoringSettings) (now : ℚ) (fleet : ℕ) (totals : Dict Str ℚ)
    (entry : Rig × List Card) : Option (Dict Str ℚ) :=
  let (rig, cards) := entry
  if rig.hotkey = [] then some totals
  else do
    let inputs ← scoreInputs demand ledger settings now fleet rig cards
    return totals.set rig.hotkey ((totals.get? rig.hotkey).getD 0 + score inputs)

/-- `local_scores`; `none` when it raises. -/
def localScores (roster : List Rig) (demand : Option DemandWeights) (ledger : Option UptimeLedger)
    (settings : ScoringSettings) (now : ℚ) : Option (Dict Str ℚ) :=
  let verified := verifiedRigs roster
  let fleet := (verified.map (·.2.length)).sum
  verified.foldlM (addScore demand ledger settings now fleet) []

/-- Where scores come from. -/
inductive Origin
  | server
  | local
  deriving DecidableEq, Repr

/-- The scores the pool server publishes. -/
structure ServerScores where
  /-- Whether there is an epoch. -/
  epoch : Bool
  weights : Dict Str ℚ
  deriving DecidableEq, Repr

/-- `compute_scores`. -/
def computeScores (server : Option ServerScores) (roster : List Rig) (demand : Option DemandWeights)
    (ledger : Option UptimeLedger) (settings : ScoringSettings) (now : ℚ) :
    Option (Dict Str ℚ × Origin) :=
  let weights : Dict Str ℚ :=
    match server with
    | some server => if server.epoch then server.weights.filter (0 < ·.2) else []
    | none => []
  if weights ≠ [] then some (weights, .server)
  else (localScores roster demand ledger settings now).map fun scores => (scores, .local)

/-- `Validator.scores_by_hotkey`: the scores, where they come from, and the hotkeys with a rig
online. -/
def scoresByHotkey (server : Option ServerScores) (roster : List Rig) (demand : DemandWeights)
    (ledger : UptimeLedger) (settings : ScoringSettings) (now : ℚ) :
    Option (Dict Str ℚ × Origin × List Str) := do
  let (scores, origin) ← computeScores server roster (some demand) (some ledger) settings now
  let active := (roster.filter fun rig => rig.online && rig.hotkey ≠ []).map Rig.hotkey
  return (scores, origin, active)

/-! ## Who gets a score -/

section Scored

variable {demand : Option DemandWeights} {ledger : Option UptimeLedger}
  {settings : ScoringSettings} {now : ℚ} {fleet : ℕ}

/-- A round adds no hotkey but the one of its rig. -/
theorem mem_keys_addScore {totals totals' : Dict Str ℚ} {entry : Rig × List Card}
    (h : addScore demand ledger settings now fleet totals entry = some totals') {hotkey : Str}
    (hmem : hotkey ∈ totals'.keys) : hotkey = entry.1.hotkey ∨ hotkey ∈ totals.keys := by
  unfold addScore at h
  dsimp only at h
  split_ifs at h
  · exact Or.inr (Option.some.inj h ▸ hmem)
  · obtain ⟨inputs, -, hset⟩ := Option.bind_eq_some_iff.mp h
    rw [← Option.some.inj hset] at hmem
    exact Dict.mem_keys_set.mp hmem

/-- A score is entered under the hotkey of a rig. -/
theorem mem_keys_foldlM_addScore {entries : List (Rig × List Card)} {totals totals' : Dict Str ℚ}
    (h : entries.foldlM (addScore demand ledger settings now fleet) totals = some totals')
    {hotkey : Str} (hmem : hotkey ∈ totals'.keys) :
    (∃ entry ∈ entries, entry.1.hotkey = hotkey) ∨ hotkey ∈ totals.keys := by
  induction entries generalizing totals with
  | nil => exact Or.inr (Option.some.inj h ▸ hmem)
  | cons entry entries ih =>
    rw [List.foldlM_cons] at h
    obtain ⟨totals₁, hround, hrest⟩ := Option.bind_eq_some_iff.mp h
    rcases ih hrest with ⟨e, he, heq⟩ | hkeys
    · exact Or.inl ⟨e, List.mem_cons_of_mem _ he, heq⟩
    · rcases mem_keys_addScore hround hkeys with heq | hkeys
      · exact Or.inl ⟨entry, by simp, heq.symm⟩
      · exact Or.inr hkeys

/-- Only the hotkey of a verified rig gets a score. -/
theorem exists_verified_of_mem_localScores {roster : List Rig} {scores : Dict Str ℚ}
    (h : localScores roster demand ledger settings now = some scores) {hotkey : Str}
    (hmem : hotkey ∈ scores.keys) : ∃ rig ∈ roster, rig.hotkey = hotkey ∧ rig.isVerified := by
  rcases mem_keys_foldlM_addScore h hmem with ⟨entry, hentry, rfl⟩ | hnil
  · simp only [verifiedRigs, List.mem_map, List.mem_filter] at hentry
    obtain ⟨rig, ⟨hrig, hverified⟩, rfl⟩ := hentry
    exact ⟨rig, hrig, rfl, hverified⟩
  · simp [Dict.keys] at hnil

end Scored

end ComputePool.Validator
