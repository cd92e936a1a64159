import Mathlib.Algebra.BigOperators.Ring.List
import Mathlib.Tactic.FieldSimp
import Mathlib.Tactic.Ring
import Mathlib.Tactic.Positivity
import ComputePool.Validator.Scoring.LocalScores

/-!
# Packaging of cards

A contributor chooses how to spread cards over rigs. The score of a rig is the mean weight of its
cards times its share of the fleet, so the number of its cards cancels: a rig scores the sum of
its cards' weights, over the fleet, times factors that do not depend on the cards. Splitting a
rig, or merging rigs, therefore leaves the total of a hotkey as it is.

* `localScores_eq` writes `localScores` without its loops: a running total per hotkey over the
  rigs that count.
* `score_scoreInputs` is the cancellation.
* `localScores_packaging_neutral` is the result.
-/

namespace ComputePool.Validator

open Text

/-- A rig taken apart: rigs on the same terms as `rig`, none of them without an accepted card,
whose accepted cards together are those of `rig`. -/
structure Repackaged (ledger : Option UptimeLedger) (now : ℚ) (rig : Rig) (parts : List Rig) :
    Prop where
  hotkey : ∀ part ∈ parts, part.hotkey = rig.hotkey
  state : ∀ part ∈ parts, part.state = rig.state
  lastPassed : ∀ part ∈ parts, part.lastPassed = rig.lastPassed
  isolation : ∀ part ∈ parts, part.isolationVerified = rig.isolationVerified
  uptime : ∀ part ∈ parts, uptimeDaysOf part ledger now = uptimeDaysOf rig ledger now
  driver : ∀ part ∈ parts, part.driver = rig.driver
  jobs : ∀ part ∈ parts, part.jobKinds = rig.jobKinds
  rental : ∀ part ∈ parts, part.rentalOptOut = rig.rentalOptOut
  nonempty : ∀ part ∈ parts, part.acceptedCards ≠ []
  cards : (parts.flatMap Rig.acceptedCards).Perm rig.acceptedCards

/-! ## The weight of a card -/

/-- The demand weight of a card. -/
def cardWeight (demand : Option DemandWeights) (card : Card) : ℚ :=
  match demand with
  | some demand => demand.weight (normalizeModel card.model) (Tier.ofText card.tier)
  | none => 1

theorem staticPrior_nonneg {key : Str} {value : ℚ} (h : staticPrior.get? key = some value) :
    0 ≤ value := by
  have hall : ∀ e ∈ staticPrior, 0 ≤ e.2 := by decide +kernel
  exact hall _ (Dict.mem_of_get? h)

theorem getD_staticPrior_nonneg (key : Str) : 0 ≤ (staticPrior.get? key).getD minWeight := by
  cases h : staticPrior.get? key with
  | none => exact (by decide +kernel : (0 : ℚ) ≤ minWeight)
  | some value => exact staticPrior_nonneg h

/-- No card has a negative weight. -/
theorem cardWeight_nonneg (demand : Option DemandWeights) (card : Card) :
    0 ≤ cardWeight demand card := by
  cases demand with
  | none => exact zero_le_one
  | some demand =>
    rw [cardWeight, DemandWeights.weight.eq_def]
    cases demand.values.get? (normalizeModel card.model) with
    | some value => exact le_max_of_le_left (by decide +kernel : (0 : ℚ) ≤ minWeight)
    | none =>
      cases Tier.ofText card.tier with
      | some tier => exact getD_staticPrior_nonneg _
      | none => exact getD_staticPrior_nonneg _

/-- Nor have several cards together. -/
theorem sum_cardWeight_nonneg (demand : Option DemandWeights) (cards : List Card) :
    0 ≤ (cards.map (cardWeight demand)).sum := by
  refine List.sum_nonneg fun weight hweight => ?_
  obtain ⟨card, -, rfl⟩ := List.mem_map.mp hweight
  exact cardWeight_nonneg demand card

/-- The factors of a score that do not depend on the cards. -/
def ScoreInputs.terms (inputs : ScoreInputs) : ℚ :=
  (breakdown inputs).isolation * (breakdown inputs).uptime * (breakdown inputs).driver *
    (breakdown inputs).optOut

section Scores

variable {demand : Option DemandWeights} {ledger : Option UptimeLedger}
  {settings : ScoringSettings} {now : ℚ} {fleet : ℕ}

/-- The number of cards cancels: the mean weight divides by it and the share of the fleet
multiplies by it. The clamp of the demand weight at zero never binds. -/
theorem score_scoreInputs {rig : Rig} {cards : List Card} {inputs : ScoreInputs}
    (hcards : cards ≠ [])
    (h : scoreInputs demand ledger settings now fleet rig cards = some inputs) :
    score inputs = (cards.map (cardWeight demand)).sum / fleet * inputs.terms := by
  obtain ⟨driverOk, -, hinputs⟩ := Option.bind_eq_some_iff.mp h
  obtain rfl := Option.some.inj hinputs
  have hlength : (0 : ℚ) < cards.length := by
    exact_mod_cast List.length_pos_iff.mpr hcards
  -- the mean times the number of cards is the sum
  have hmean : meanWeight demand cards = (cards.map (cardWeight demand)).sum / cards.length := by
    have hne : cards.map (cardWeight demand) ≠ [] := by simpa using hcards
    rw [← List.length_map (cardWeight demand)]
    exact if_neg hne
  have hnonneg : 0 ≤ (cards.map (cardWeight demand)).sum / (cards.length : ℚ) :=
    div_nonneg (sum_cardWeight_nonneg demand cards) hlength.le
  have hcapacity : (if fleet > 0 ∧ cards.length > 0 then (cards.length : ℚ) / fleet else 0) =
      cards.length / fleet := by
    -- an empty fleet has no capacity, and the quotient is zero too
    by_cases hfleet : fleet > 0
    · exact if_pos ⟨hfleet, by exact_mod_cast hlength⟩
    · obtain rfl : fleet = 0 := by omega
      simp
  simp only [score, ScoreBreakdown.score, breakdown, ScoreInputs.terms, hmean,
    max_eq_right hnonneg, hcapacity, ↓reduceIte]
  field_simp

/-- The score of a rig by itself, zero when its driver cannot be read. -/
def rigScore (demand : Option DemandWeights) (ledger : Option UptimeLedger)
    (settings : ScoringSettings) (now : ℚ) (fleet : ℕ) (rig : Rig) : ℚ :=
  ((scoreInputs demand ledger settings now fleet rig rig.acceptedCards).map score).getD 0

/-- The scores of the rigs a rig is taken apart into add up to its own. -/
theorem sum_rigScore_parts {rig : Rig} {parts : List Rig} (hrig : rig.acceptedCards ≠ [])
    (h : Repackaged ledger now rig parts) :
    (parts.map (rigScore demand ledger settings now fleet)).sum =
      rigScore demand ledger settings now fleet rig := by
  cases hdriver : driverOk rig.driver settings.minDriverVersion with
  | none =>
    -- no driver of the parts can be read either
    have hzero : ∀ part ∈ parts, rigScore demand ledger settings now fleet part = 0 := by
      intro part hpart
      simp [rigScore, scoreInputs, h.driver part hpart, hdriver]
    rw [List.map_congr_left hzero]
    simp [rigScore, scoreInputs, hdriver]
  | some ok =>
    obtain ⟨inputs, hinputs⟩ :
        ∃ inputs, scoreInputs demand ledger settings now fleet rig rig.acceptedCards =
          some inputs := ⟨_, by rw [scoreInputs, hdriver]; rfl⟩
    have hparts : ∀ part ∈ parts, rigScore demand ledger settings now fleet part =
        (part.acceptedCards.map (cardWeight demand)).sum * (inputs.terms / fleet) := by
      intro part hpart
      obtain ⟨partInputs, hpartInputs⟩ :
          ∃ inputs, scoreInputs demand ledger settings now fleet part part.acceptedCards =
            some inputs := ⟨_, by rw [scoreInputs, h.driver part hpart, hdriver]; rfl⟩
      have hterms : partInputs.terms = inputs.terms := by
        rw [scoreInputs, h.driver part hpart, hdriver] at hpartInputs
        rw [scoreInputs, hdriver] at hinputs
        obtain rfl := Option.some.inj hpartInputs
        obtain rfl := Option.some.inj hinputs
        simp only [ScoreInputs.terms, breakdown, inRental, h.isolation part hpart,
          h.uptime part hpart, h.jobs part hpart, h.rental part hpart]
      rw [rigScore, hpartInputs, Option.map_some, Option.getD_some,
        score_scoreInputs (h.nonempty part hpart) hpartInputs, hterms]
      ring
    rw [List.map_congr_left hparts, List.sum_map_mul_right, rigScore, hinputs, Option.map_some,
      Option.getD_some, score_scoreInputs hrig hinputs]
    have hsum : (parts.map fun part => (part.acceptedCards.map (cardWeight demand)).sum).sum =
        (rig.acceptedCards.map (cardWeight demand)).sum := by
      rw [← (h.cards.map (cardWeight demand)).sum_eq, List.map_flatMap, List.flatMap,
        List.sum_flatten,
        List.map_map]
      rfl
    rw [hsum]
    ring

/-! ## The loops of `local_scores` -/

/-- The rigs that count and have a hotkey to credit. -/
def Rig.isScored (rig : Rig) : Bool :=
  rig.isVerified && rig.hotkey ≠ []

/-- The size of the verified fleet. -/
def fleetSize (roster : List Rig) : ℕ :=
  ((roster.filter Rig.isVerified).map fun rig => rig.acceptedCards.length).sum

/-- What each rig that is scored adds to its hotkey. -/
def contributions (demand : Option DemandWeights) (ledger : Option UptimeLedger)
    (settings : ScoringSettings) (now : ℚ) (fleet : ℕ) (roster : List Rig) : List (Str × ℚ) :=
  (roster.filter Rig.isScored).map fun rig =>
    (rig.hotkey, rigScore demand ledger settings now fleet rig)

/-- No driver version that scoring looks at raises. -/
def DriversReadable (settings : ScoringSettings) (roster : List Rig) : Prop :=
  ∀ rig ∈ roster, rig.isScored → (driverOk rig.driver settings.minDriverVersion).isSome

instance (settings : ScoringSettings) (roster : List Rig) :
    Decidable (DriversReadable settings roster) :=
  inferInstanceAs (Decidable (∀ rig ∈ roster, _ → _))

/-- The versions of a roster can be read, rig by rig. -/
theorem driversReadable_cons {rig : Rig} {roster : List Rig} :
    DriversReadable settings (rig :: roster) ↔
      (rig.isScored → (driverOk rig.driver settings.minDriverVersion).isSome) ∧
        DriversReadable settings roster :=
  List.forall_mem_cons

/-- The second loop, from any totals. -/
theorem foldlM_addScore (roster : List Rig) (totals : Dict Str ℚ) :
    (verifiedRigs roster).foldlM (addScore demand ledger settings now fleet) totals =
      if DriversReadable settings roster then
        some ((contributions demand ledger settings now fleet roster).foldl Dict.add totals)
      else none := by
  induction roster generalizing totals with
  | nil => simp [verifiedRigs, DriversReadable, contributions]
  | cons rig roster ih =>
    -- a rig counts when it is verified and has a hotkey
    by_cases hverified : rig.isVerified
    · by_cases hhotkey : rig.hotkey = []
      · have hround : addScore demand ledger settings now fleet totals
            (rig, rig.acceptedCards) = some totals := if_pos hhotkey
        have hscored : rig.isScored = false := by simp [Rig.isScored, hhotkey]
        have hrigs : verifiedRigs (rig :: roster) =
            (rig, rig.acceptedCards) :: verifiedRigs roster := by
          simp [verifiedRigs, hverified]
        rw [hrigs, List.foldlM_cons, hround, Option.bind_eq_bind, Option.bind_some, ih]
        simp [driversReadable_cons, contributions, hscored]
      · have hscored : rig.isScored = true := by simp [Rig.isScored, hverified, hhotkey]
        have hrigs : verifiedRigs (rig :: roster) =
            (rig, rig.acceptedCards) :: verifiedRigs roster := by
          simp [verifiedRigs, hverified]
        rw [hrigs, List.foldlM_cons]
        -- its driver has to be readable, or the whole round fails
        cases hdriver : driverOk rig.driver settings.minDriverVersion with
        | none =>
          have hround : addScore demand ledger settings now fleet totals
              (rig, rig.acceptedCards) = none := by
            simp [addScore, hhotkey, scoreInputs, hdriver]
          have hnot : ¬ DriversReadable settings (rig :: roster) := by
            intro h
            simpa [hdriver] using h rig List.mem_cons_self hscored
          rw [hround, if_neg hnot]
          rfl
        | some ok =>
          have hround : addScore demand ledger settings now fleet totals
              (rig, rig.acceptedCards) = some (Dict.add totals
                (rig.hotkey, rigScore demand ledger settings now fleet rig)) := by
            simp [addScore, hhotkey, scoreInputs, hdriver, rigScore, Dict.add]
          rw [hround, Option.bind_eq_bind, Option.bind_some, ih]
          simp [driversReadable_cons, contributions, hscored, hdriver]
    · have hscored : rig.isScored = false := by simp [Rig.isScored, hverified]
      have hrigs : verifiedRigs (rig :: roster) = verifiedRigs roster := by
        simp [verifiedRigs, hverified]
      rw [hrigs, ih]
      simp [driversReadable_cons, contributions, hscored]

/-- `local_scores` without its loops. -/
theorem localScores_eq (roster : List Rig) :
    localScores roster demand ledger settings now =
      if DriversReadable settings roster then
        some ((contributions demand ledger settings now (fleetSize roster) roster).foldl
          Dict.add [])
      else none := by
  have hfleet : ((verifiedRigs roster).map (·.2.length)).sum = fleetSize roster := by
    simp [verifiedRigs, fleetSize, Function.comp_def]
  rw [localScores, hfleet, foldlM_addScore]

/-- Two rosters with the same fleet, in which the same hotkeys are credited with the same sums,
have the same scores. -/
theorem localScores_congr {roster roster' : List Rig}
    (hreadable : DriversReadable settings roster ↔ DriversReadable settings roster')
    (hfleet : fleetSize roster = fleetSize roster')
    (hmem : ∀ hotkey, (∃ rig ∈ roster, rig.isScored ∧ rig.hotkey = hotkey) ↔
      ∃ rig ∈ roster', rig.isScored ∧ rig.hotkey = hotkey)
    (hsum : ∀ hotkey : Str,
      (((roster.filter Rig.isScored).filter (·.hotkey = hotkey)).map
        (rigScore demand ledger settings now (fleetSize roster))).sum =
      (((roster'.filter Rig.isScored).filter (·.hotkey = hotkey)).map
        (rigScore demand ledger settings now (fleetSize roster))).sum) :
    (localScores roster demand ledger settings now).map Dict.get? =
      (localScores roster' demand ledger settings now).map Dict.get? := by
  rw [localScores_eq, localScores_eq, ← hfleet]
  -- the totals are sums over the rigs of a hotkey
  by_cases hread : DriversReadable settings roster
  · rw [if_pos hread, if_pos (hreadable.mp hread), Option.map_some, Option.map_some]
    refine congrArg some (funext fun hotkey => ?_)
    have hkeys (rigs : List Rig) : hotkey ∈ Dict.keys
        (contributions demand ledger settings now (fleetSize roster) rigs) ↔
          ∃ rig ∈ rigs, rig.isScored ∧ rig.hotkey = hotkey := by
      simp [Dict.keys, contributions, and_assoc]
    have hown (rigs : List Rig) : ((contributions demand ledger settings now (fleetSize roster)
        rigs).filter (·.1 = hotkey)).map Prod.snd =
          ((rigs.filter Rig.isScored).filter (·.hotkey = hotkey)).map
            (rigScore demand ledger settings now (fleetSize roster)) := by
      rw [contributions, List.filter_map, List.map_map]
      rfl
    rw [Dict.get?_foldl_add, Dict.get?_foldl_add, hown, hown, hsum]
    simp only [hkeys, hmem]
  · rw [if_neg hread, if_neg fun h => hread (hreadable.mpr h)]

/-! ## Neutrality -/

theorem Rig.acceptedCards_ne_nil {rig : Rig} (h : rig.isVerified) : rig.acceptedCards ≠ [] := by
  simp only [Rig.isVerified, Bool.and_eq_true, decide_eq_true_eq] at h
  exact h.2

namespace Repackaged

variable {rig : Rig} {parts : List Rig}

/-- The parts of a verified rig are verified. -/
theorem isVerified (h : Repackaged ledger now rig parts) (hrig : rig.isVerified) :
    ∀ part ∈ parts, part.isVerified := by
  intro part hpart
  simp only [Rig.isVerified, Bool.and_eq_true, decide_eq_true_eq] at hrig ⊢
  rw [h.state part hpart, h.lastPassed part hpart]
  exact ⟨hrig.1, h.nonempty part hpart⟩

theorem isScored (h : Repackaged ledger now rig parts) (hrig : rig.isVerified) :
    ∀ part ∈ parts, part.isScored = rig.isScored := by
  intro part hpart
  rw [Rig.isScored, Rig.isScored, h.isVerified hrig part hpart, hrig, h.hotkey part hpart]

theorem ne_nil (h : Repackaged ledger now rig parts) (hrig : rig.isVerified) : parts ≠ [] := by
  rintro rfl
  exact Rig.acceptedCards_ne_nil hrig (List.nil_perm.mp h.cards)

theorem fleetSize_eq (h : Repackaged ledger now rig parts) (hrig : rig.isVerified) :
    fleetSize parts = rig.acceptedCards.length := by
  rw [fleetSize, List.filter_eq_self.mpr (h.isVerified hrig), ← h.cards.length_eq,
    List.length_flatMap]

/-- A hotkey is credited with a rig exactly when it is credited with its parts. -/
theorem exists_scored_iff (h : Repackaged ledger now rig parts) (hrig : rig.isVerified)
    (hotkey : Str) : (∃ part ∈ parts, part.isScored ∧ part.hotkey = hotkey) ↔
      rig.isScored ∧ rig.hotkey = hotkey := by
  constructor
  · rintro ⟨part, hpart, hscored, hhotkey⟩
    rw [← h.isScored hrig part hpart, ← h.hotkey part hpart]
    exact ⟨hscored, hhotkey⟩
  · intro hscored
    obtain ⟨part, hpart⟩ := List.exists_mem_of_ne_nil parts (h.ne_nil hrig)
    refine ⟨part, hpart, ?_⟩
    rw [h.isScored hrig part hpart, h.hotkey part hpart]
    exact hscored

/-- The parts add to a hotkey what the rig adds. -/
theorem sum_own (h : Repackaged ledger now rig parts) (hrig : rig.isVerified) (hotkey : Str) :
    (((parts.filter Rig.isScored).filter (·.hotkey = hotkey)).map
      (rigScore demand ledger settings now fleet)).sum =
    ((([rig].filter Rig.isScored).filter (·.hotkey = hotkey)).map
      (rigScore demand ledger settings now fleet)).sum := by
  rw [List.filter_filter, List.filter_filter]
  -- all parts belong to the hotkey of the rig, and all of them are scored or none
  by_cases hown : rig.hotkey = hotkey ∧ rig.isScored
  · have hall : ∀ part ∈ parts, (decide (part.hotkey = hotkey) && part.isScored) = true := by
      intro part hpart
      rw [h.hotkey part hpart, h.isScored hrig part hpart]
      simpa using hown
    rw [List.filter_eq_self.mpr hall,
      sum_rigScore_parts (Rig.acceptedCards_ne_nil hrig) h]
    simp [hown]
  · have hnone : ∀ part ∈ parts, ¬ (decide (part.hotkey = hotkey) && part.isScored) = true := by
      intro part hpart
      rw [h.hotkey part hpart, h.isScored hrig part hpart]
      simpa using hown
    rw [List.filter_eq_nil_iff.mpr hnone, List.filter_eq_nil_iff.mpr]
    intro r hr
    rw [List.mem_singleton.mp hr]
    simpa using hown

/-- Taking a rig of the roster apart changes no score. -/
theorem localScores_eq (h : Repackaged ledger now rig parts) (hrig : rig.isVerified)
    (before after : List Rig) :
    (localScores (before ++ parts ++ after) demand ledger settings now).map Dict.get? =
      (localScores (before ++ [rig] ++ after) demand ledger settings now).map Dict.get? := by
  refine localScores_congr ?_ ?_ (fun hotkey => ?_) fun hotkey => ?_
  · simp only [DriversReadable, List.forall_mem_append, List.forall_mem_singleton]
    have hparts : (∀ part ∈ parts, part.isScored →
        (driverOk part.driver settings.minDriverVersion).isSome) ↔
        (rig.isScored → (driverOk rig.driver settings.minDriverVersion).isSome) := by
      constructor
      · intro hall hscored
        obtain ⟨part, hpart⟩ := List.exists_mem_of_ne_nil parts (h.ne_nil hrig)
        rw [← h.driver part hpart]
        exact hall part hpart (h.isScored hrig part hpart ▸ hscored)
      · intro hsome part hpart hscored
        rw [h.driver part hpart]
        exact hsome (h.isScored hrig part hpart ▸ hscored)
    rw [hparts]
  · have hsize := h.fleetSize_eq hrig
    have hone : fleetSize [rig] = rig.acceptedCards.length := by
      simp [fleetSize, hrig]
    rw [← hone] at hsize
    simp only [fleetSize, List.filter_append, List.map_append, List.sum_append] at hsize ⊢
    rw [hsize]
  · have hparts := h.exists_scored_iff hrig hotkey
    simp only [List.mem_append, or_and_right, exists_or, hparts, List.mem_singleton,
      exists_eq_left]
  · simp only [List.filter_append, List.map_append, List.sum_append]
    rw [h.sum_own hrig]

end Repackaged

/-- Nor does the order of the roster. -/
theorem localScores_perm {roster roster' : List Rig} (h : roster.Perm roster') :
    (localScores roster demand ledger settings now).map Dict.get? =
      (localScores roster' demand ledger settings now).map Dict.get? := by
  refine localScores_congr ?_ ?_ (fun hotkey => ?_) fun hotkey => ?_
  · simp only [DriversReadable, h.mem_iff]
  · exact ((h.filter _).map _).sum_eq
  · simp only [h.mem_iff]
  · exact (((h.filter _).filter _).map _).sum_eq

end Scores

/-- **Scoring is neutral to how a contributor packages cards.** Replacing a verified rig by rigs
on the same terms whose accepted cards partition its own, or reordering the roster, leaves the
scores of `local_scores` equal for every hotkey; when one of the two raises, so does the other. -/
theorem localScores_packaging_neutral (demand : Option DemandWeights)
    (ledger : Option UptimeLedger) (settings : ScoringSettings) (now : ℚ) :
    (∀ (before after parts : List Rig) (rig : Rig), rig.isVerified →
      Repackaged ledger now rig parts →
      (localScores (before ++ parts ++ after) demand ledger settings now).map Dict.get? =
        (localScores (before ++ [rig] ++ after) demand ledger settings now).map Dict.get?) ∧
    ∀ roster roster' : List Rig, roster.Perm roster' →
      (localScores roster demand ledger settings now).map Dict.get? =
        (localScores roster' demand ledger settings now).map Dict.get? :=
  ⟨fun before after _ _ hrig h => h.localScores_eq hrig before after,
    fun _ _ h => localScores_perm h⟩

/-- A rig of two cards of different worth. -/
def Rig.pair : Rig where
  id := "pair".toList
  hotkey := "a".toList
  state := .active
  lastPassed := true
  gpus := [{ tier := "flagship".toList }, { tier := "entry".toList }]
  uptimeSince := some 0

/-- Its cards, each in a rig of its own. -/
def Rig.singles : List Rig :=
  Rig.pair.gpus.map fun card => { Rig.pair with gpus := [card] }

theorem localScores_packaging_neutral_pair :
    (localScores Rig.singles (some {}) none {} 86400).map Dict.get? =
      (localScores [Rig.pair] (some {}) none {} 86400).map Dict.get? ∧
    (localScores [Rig.pair] (some {}) none {} 86400).map (·.get? "a".toList) =
      some (some (23 / 700)) := by
  have hrepackaged : Repackaged none 86400 Rig.pair Rig.singles := by
    constructor <;> decide +kernel
  have h := (localScores_packaging_neutral (some {}) none {} 86400).1 [] [] Rig.singles Rig.pair
    (by decide) hrepackaged
  simp only [List.nil_append, List.append_nil] at h
  exact ⟨h, by decide +kernel⟩

end ComputePool.Validator
