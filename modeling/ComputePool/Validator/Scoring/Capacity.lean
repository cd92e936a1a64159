import ComputePool.Validator.Scoring.Emission
import ComputePool.Validator.Scoring.Packaging

/-!
# More capacity, more share

The number of cards of a rig cancels in its score (`score_scoreInputs`), and the size of the fleet
cancels in the shares: the share of a hotkey is what its rigs are worth over what all rigs are
worth, where a rig is worth the sum of the demand weights of its cards times factors that do not
depend on the cards (`shareOf_localScores`). So adding cards to a rig only adds to its own worth
(`capacity_never_backfires`).
-/

namespace Dict

variable {κ ν : Type*} [DecidableEq κ]

/-- Adding up doubles no key. -/
theorem nodup_keys_foldl_add [Zero ν] [Add ν] {entries : List (κ × ν)} {d : Dict κ ν}
    (h : d.keys.Nodup) : (entries.foldl add d).keys.Nodup := by
  induction entries generalizing d with
  | nil => exact h
  | cons e entries ih => exact ih (nodup_keys_set h _ _)

/-- The running totals add up to what was added. -/
theorem sum_foldl_add [AddCommGroup ν] {entries : List (κ × ν)} {d : Dict κ ν}
    (h : d.keys.Nodup) :
    ((entries.foldl add d).map Prod.snd).sum =
      (d.map Prod.snd).sum + (entries.map Prod.snd).sum := by
  induction entries generalizing d with
  | nil => simp
  | cons e entries ih =>
    have hadd : (d.add e).keys.Nodup := nodup_keys_set h _ _
    rw [List.foldl_cons, ih hadd, add, sum_set h, List.map_cons, List.sum_cons]
    abel

end Dict

namespace ComputePool.Validator

open Text

/-! ## What a rig is worth -/

section Worth

variable {demand : Option DemandWeights} {ledger : Option UptimeLedger}
  {settings : ScoringSettings} {now : ℚ}

/-- Every factor of a score is at least zero. -/
theorem ScoreInputs.terms_nonneg (inputs : ScoreInputs) : 0 ≤ inputs.terms := by
  have hisolation : 0 ≤ (breakdown inputs).isolation := by
    simp only [breakdown]
    split_ifs <;> norm_num [isolationMultiplier]
  have huptime : 0 ≤ (breakdown inputs).uptime := by
    refine le_min zero_le_one (div_nonneg (le_max_left _ _) ?_)
    norm_num [uptimeRampDays]
  have hdriver : 0 ≤ (breakdown inputs).driver := by
    simp only [breakdown, driverMultiplier]
    split_ifs <;> norm_num
  have hoptOut : 0 ≤ (breakdown inputs).optOut := by
    simp only [breakdown]
    split_ifs <;> norm_num [optOutMultiplier]
  exact mul_nonneg (mul_nonneg (mul_nonneg hisolation huptime) hdriver) hoptOut

/-- What a rig is worth: its score in a fleet of one card. -/
def worth (demand : Option DemandWeights) (ledger : Option UptimeLedger)
    (settings : ScoringSettings) (now : ℚ) (rig : Rig) : ℚ :=
  rigScore demand ledger settings now 1 rig

/-- The factors of a rig that do not depend on the cards; zero when its driver cannot be read. -/
def termsOf (ledger : Option UptimeLedger) (settings : ScoringSettings) (now : ℚ) (rig : Rig) : ℚ :=
  ((scoreInputs none ledger settings now 1 rig []).map ScoreInputs.terms).getD 0

/-- The terms of a rig are at least zero. -/
theorem termsOf_nonneg (rig : Rig) : 0 ≤ termsOf ledger settings now rig := by
  rw [termsOf]
  cases scoreInputs none ledger settings now 1 rig [] with
  | none => exact le_rfl
  | some inputs => exact inputs.terms_nonneg

/-- The score of a rig: the weights of its accepted cards over the size of the fleet, times its
terms. -/
theorem rigScore_eq_terms {fleet : ℕ} {rig : Rig} (hcards : rig.acceptedCards ≠ []) :
    rigScore demand ledger settings now fleet rig =
      (rig.acceptedCards.map (cardWeight demand)).sum / fleet *
        termsOf ledger settings now rig := by
  cases hdriver : driverOk rig.driver settings.minDriverVersion with
  -- a driver that cannot be read gives nothing on both sides
  | none => simp [rigScore, termsOf, scoreInputs, hdriver]
  | some ok =>
    obtain ⟨inputs, hinputs⟩ :
        ∃ inputs, scoreInputs demand ledger settings now fleet rig rig.acceptedCards =
          some inputs := ⟨_, by rw [scoreInputs, hdriver]; rfl⟩
    -- the terms do not depend on the cards
    have hterms : inputs.terms = termsOf ledger settings now rig := by
      rw [scoreInputs, hdriver] at hinputs
      obtain rfl := Option.some.inj hinputs
      rw [termsOf, scoreInputs, hdriver]
      rfl
    rw [rigScore, hinputs, Option.map_some, Option.getD_some, score_scoreInputs hcards hinputs,
      hterms]

/-- No rig is worth less than nothing. -/
theorem worth_nonneg {rig : Rig} (hcards : rig.acceptedCards ≠ []) :
    0 ≤ worth demand ledger settings now rig := by
  rw [worth, rigScore_eq_terms hcards]
  exact mul_nonneg (div_nonneg (sum_cardWeight_nonneg demand _) (Nat.cast_nonneg _))
    (termsOf_nonneg rig)

/-- The score of a rig is its worth over the size of the fleet. -/
theorem rigScore_eq_worth_div {fleet : ℕ} {rig : Rig} (hcards : rig.acceptedCards ≠ []) :
    rigScore demand ledger settings now fleet rig =
      worth demand ledger settings now rig / fleet := by
  rw [worth, rigScore_eq_terms hcards, rigScore_eq_terms hcards]
  push_cast
  ring

/-- More cards add to what a rig is worth. -/
theorem worth_le_of_perm {rig : Rig} {gpus cards : List Card} (hcards : rig.acceptedCards ≠ [])
    (hcards' : { rig with gpus }.acceptedCards ≠ []) (hgpus : gpus.Perm (rig.gpus ++ cards)) :
    worth demand ledger settings now rig ≤ worth demand ledger settings now { rig with gpus } := by
  -- the accepted cards are those of before and some of the new ones
  have hperm : ({ rig with gpus }.acceptedCards).Perm
      (rig.acceptedCards ++ cards.filter Card.isAccepted) := by
    have hfilter := hgpus.filter Card.isAccepted
    rwa [List.filter_append] at hfilter
  have hsum := (hperm.map (cardWeight demand)).sum_eq
  rw [List.map_append, List.sum_append] at hsum
  have hextra := sum_cardWeight_nonneg demand (cards.filter Card.isAccepted)
  rw [worth, worth, rigScore_eq_terms hcards, rigScore_eq_terms hcards', hsum]
  have hterms : termsOf ledger settings now { rig with gpus } = termsOf ledger settings now rig :=
    rfl
  rw [hterms]
  refine mul_le_mul_of_nonneg_right ?_ (termsOf_nonneg rig)
  push_cast
  linarith

end Worth

/-! ## The fleet cancels -/

section Shares

variable {demand : Option DemandWeights} {ledger : Option UptimeLedger}
  {settings : ScoringSettings} {now : ℚ}

/-- What the rigs of a hotkey are worth. -/
def worthOf (entries : List (Str × ℚ)) (hotkey : Str) : ℚ :=
  ((entries.filter (·.1 = hotkey)).map Prod.snd).sum

/-- Nor is a hotkey. -/
theorem worthOf_nonneg {entries : List (Str × ℚ)} (hnonneg : ∀ e ∈ entries, 0 ≤ e.2)
    (hotkey : Str) : 0 ≤ worthOf entries hotkey := by
  refine List.sum_nonneg fun value hvalue => ?_
  obtain ⟨e, he, rfl⟩ := List.mem_map.mp hvalue
  exact hnonneg e (List.mem_filter.mp he).1

theorem worthOf_map_div (entries : List (Str × ℚ)) (fleet : ℚ) (hotkey : Str) :
    worthOf (entries.map fun e => (e.1, e.2 / fleet)) hotkey = worthOf entries hotkey / fleet := by
  rw [worthOf, List.filter_map, List.map_map, worthOf, div_eq_mul_inv, ← List.sum_map_mul_right]
  rfl

/-- Adding up by hotkey. -/
theorem shareOf_foldl_add (entries : List (Str × ℚ)) (hotkey : Str) :
    shareOf (entries.foldl Dict.add []) hotkey = worthOf entries hotkey := by
  rw [shareOf, Dict.get?_foldl_add]
  by_cases hmem : hotkey ∈ Dict.keys entries
  · rw [if_pos hmem]
    simp [worthOf]
  · have hnone : entries.filter (·.1 = hotkey) = [] := by
      refine List.filter_eq_nil_iff.mpr fun e he => ?_
      have hne : e.1 ≠ hotkey := fun heq => hmem (heq ▸ Dict.mem_keys.mpr ⟨e.2, he⟩)
      simpa using hne
    simp [hmem, worthOf, hnone]

/-- The share of a hotkey is what its rigs are worth over what all rigs are worth. -/
theorem shareOf_normalise_foldl_add {entries : List (Str × ℚ)} (hnonneg : ∀ e ∈ entries, 0 ≤ e.2)
    (hotkey : Str) : shareOf (normalise (entries.foldl Dict.add [])) hotkey =
      worthOf entries hotkey / (entries.map Prod.snd).sum := by
  have hempty : (Dict.keys ([] : Dict Str ℚ)).Nodup := List.nodup_nil
  have hkeys : (entries.foldl Dict.add []).keys.Nodup := Dict.nodup_keys_foldl_add hempty
  have htotals : ∀ e ∈ entries.foldl Dict.add [], 0 ≤ e.2 := by
    intro e he
    have hshare := shareOf_foldl_add entries e.1
    rw [shareOf, (Dict.get?_eq_some_iff hkeys).mpr he, Option.getD_some] at hshare
    rw [hshare]
    exact worthOf_nonneg hnonneg e.1
  rw [shareOf_normalise hkeys, positiveTotal_of_nonneg htotals,
    Dict.sum_foldl_add hempty, shareOf_foldl_add,
    max_eq_right (worthOf_nonneg hnonneg hotkey)]
  simp

/-- The size of the fleet cancels. -/
theorem shareOf_foldl_add_div {entries : List (Str × ℚ)} (hnonneg : ∀ e ∈ entries, 0 ≤ e.2)
    {fleet : ℕ} (hfleet : 0 < fleet) (hotkey : Str) :
    shareOf (normalise ((entries.map fun e => (e.1, e.2 / (fleet : ℚ))).foldl Dict.add [])) hotkey =
      worthOf entries hotkey / (entries.map Prod.snd).sum := by
  have hfleet' : (0 : ℚ) < fleet := by exact_mod_cast hfleet
  have hscaled : ∀ e ∈ entries.map fun e => (e.1, e.2 / (fleet : ℚ)), 0 ≤ e.2 := by
    intro e he
    obtain ⟨f, hf, rfl⟩ := List.mem_map.mp he
    exact div_nonneg (hnonneg f hf) hfleet'.le
  have hsum : ((entries.map fun e => (e.1, e.2 / (fleet : ℚ))).map Prod.snd).sum =
      (entries.map Prod.snd).sum / fleet := by
    rw [List.map_map, div_eq_mul_inv, ← List.sum_map_mul_right]
    rfl
  rw [shareOf_normalise_foldl_add hscaled, worthOf_map_div, hsum,
    div_div_div_cancel_right₀ hfleet'.ne']

theorem acceptedCards_ne_nil {rig : Rig} (h : rig.isScored) : rig.acceptedCards ≠ [] := by
  simp only [Rig.isScored, Rig.isVerified, Bool.and_eq_true, decide_eq_true_eq] at h
  exact h.1.2

/-- The scored hotkeys of a roster with what their rigs are worth. -/
def worths (demand : Option DemandWeights) (ledger : Option UptimeLedger)
    (settings : ScoringSettings) (now : ℚ) (roster : List Rig) : List (Str × ℚ) :=
  contributions demand ledger settings now 1 roster

theorem worths_nonneg (roster : List Rig) :
    ∀ e ∈ worths demand ledger settings now roster, 0 ≤ e.2 := by
  intro e he
  obtain ⟨rig, hrig, rfl⟩ := List.mem_map.mp he
  exact worth_nonneg (acceptedCards_ne_nil (List.mem_filter.mp hrig).2)

/-- The size of the fleet divides every contribution. -/
theorem contributions_eq_div (fleet : ℕ) (roster : List Rig) :
    contributions demand ledger settings now fleet roster =
      (worths demand ledger settings now roster).map fun e => (e.1, e.2 / (fleet : ℚ)) := by
  rw [contributions, worths, contributions, List.map_map]
  refine List.map_congr_left fun rig hrig => ?_
  have hcards := acceptedCards_ne_nil (List.mem_filter.mp hrig).2
  simp only [Function.comp, Prod.mk.injEq, true_and]
  exact rigScore_eq_worth_div hcards

/-- A roster without a fleet has no scores. -/
theorem worths_eq_nil {roster : List Rig} (h : fleetSize roster = 0) :
    worths demand ledger settings now roster = [] := by
  -- a scored rig is verified and has accepted cards, so the fleet would not be empty
  have hnone : roster.filter Rig.isScored = [] := by
    refine List.filter_eq_nil_iff.mpr fun rig hrig hscored => ?_
    have hcards := acceptedCards_ne_nil hscored
    have hverified : rig.isVerified := by
      simp only [Rig.isScored, Bool.and_eq_true] at hscored
      exact hscored.1
    have hmem : rig.acceptedCards.length ∈
        (roster.filter Rig.isVerified).map fun rig => rig.acceptedCards.length :=
      List.mem_map_of_mem (List.mem_filter.mpr ⟨hrig, hverified⟩)
    have hle : rig.acceptedCards.length ≤ fleetSize roster := List.le_sum_of_mem hmem
    have hpos := List.length_pos_iff.mpr hcards
    omega
  rw [worths, contributions, hnone]
  rfl

/-- The share of a hotkey in the local scores. -/
theorem shareOf_localScores {roster : List Rig} {scores : Dict Str ℚ}
    (h : localScores roster demand ledger settings now = some scores) (hotkey : Str) :
    shareOf (normalise scores) hotkey =
      worthOf (worths demand ledger settings now roster) hotkey /
        ((worths demand ledger settings now roster).map Prod.snd).sum := by
  rw [localScores_eq] at h
  split_ifs at h
  obtain rfl := Option.some.inj h
  rw [contributions_eq_div]
  rcases Nat.eq_zero_or_pos (fleetSize roster) with hzero | hpos
  · rw [worths_eq_nil hzero]
    simp [worthOf, shareOf, normalise]
  · exact shareOf_foldl_add_div (worths_nonneg roster) hpos hotkey

/-! ## Adding cards -/

theorem worthOf_append (entries entries' : List (Str × ℚ)) (hotkey : Str) :
    worthOf (entries ++ entries') hotkey = worthOf entries hotkey + worthOf entries' hotkey := by
  simp [worthOf]

/-- What a hotkey is worth, entry by entry. -/
theorem worthOf_cons (e : Str × ℚ) (entries : List (Str × ℚ)) (hotkey : Str) :
    worthOf (e :: entries) hotkey =
      (if e.1 = hotkey then e.2 else 0) + worthOf entries hotkey := by
  by_cases he : e.1 = hotkey
  · simp [worthOf, he]
  · simp [worthOf, he]

/-- A hotkey is worth no more than all together. -/
theorem worthOf_le_sum {entries : List (Str × ℚ)} (hnonneg : ∀ e ∈ entries, 0 ≤ e.2)
    (hotkey : Str) : worthOf entries hotkey ≤ (entries.map Prod.snd).sum := by
  induction entries with
  | nil => rfl
  | cons e entries ih =>
    obtain ⟨he, hrest⟩ := List.forall_mem_cons.mp hnonneg
    have hle := ih hrest
    rw [worthOf_cons, List.map_cons, List.sum_cons]
    split_ifs
    · linarith
    · linarith

/-- Of two parts of a whole, the one that grows with the whole gets a larger share. -/
theorem div_le_div_of_grow {part whole old new : ℚ} (hpart : 0 ≤ part) (hle : part ≤ whole)
    (hold : 0 ≤ old) (hgrow : old ≤ new) :
    (old + part) / (old + whole) ≤ (new + part) / (new + whole) := by
  rcases (add_nonneg hold (hpart.trans hle)).eq_or_lt with hzero | hpos
  · rw [← hzero, div_zero]
    exact div_nonneg (by linarith) (by linarith)
  · rw [div_le_div_iff₀ hpos (by linarith)]
    nlinarith

/-- The share of a part that does not grow with the whole falls. -/
theorem div_le_div_of_stay {part whole old new : ℚ} (hpart : 0 ≤ part) (hle : part ≤ whole)
    (hold : 0 ≤ old) (hgrow : old ≤ new) : part / (new + whole) ≤ part / (old + whole) := by
  rcases (add_nonneg hold (hpart.trans hle)).eq_or_lt with hzero | hpos
  · have hpart0 : part = 0 := by linarith
    rw [hpart0, zero_div, zero_div]
  · exact div_le_div_of_nonneg_left hpart hpos (by linarith)

/-- Adding worth to one hotkey raises its share and lowers the others'. -/
theorem worth_shares_le {pre post : List (Str × ℚ)} {hotkey : Str} {old new : ℚ}
    (hpre : ∀ e ∈ pre, 0 ≤ e.2) (hpost : ∀ e ∈ post, 0 ≤ e.2) (hold : 0 ≤ old) (hle : old ≤ new) :
    worthOf (pre ++ (hotkey, old) :: post) hotkey /
        ((pre ++ (hotkey, old) :: post).map Prod.snd).sum ≤
      worthOf (pre ++ (hotkey, new) :: post) hotkey /
        ((pre ++ (hotkey, new) :: post).map Prod.snd).sum ∧
    ∀ other, other ≠ hotkey →
      worthOf (pre ++ (hotkey, new) :: post) other /
          ((pre ++ (hotkey, new) :: post).map Prod.snd).sum ≤
        worthOf (pre ++ (hotkey, old) :: post) other /
          ((pre ++ (hotkey, old) :: post).map Prod.snd).sum := by
  have hrest : ∀ e ∈ pre ++ post, 0 ≤ e.2 := List.forall_mem_append.mpr ⟨hpre, hpost⟩
  -- the entry adds its value to the sum, and to the worth of its own hotkey
  have hsum (value : ℚ) : ((pre ++ (hotkey, value) :: post).map Prod.snd).sum =
      value + ((pre ++ post).map Prod.snd).sum := by
    simp only [List.map_append, List.map_cons, List.sum_append, List.sum_cons]
    ring
  have hworth (value : ℚ) (other : Str) : worthOf (pre ++ (hotkey, value) :: post) other =
      (if hotkey = other then value else 0) + worthOf (pre ++ post) other := by
    rw [worthOf_append, worthOf_cons, worthOf_append]
    ring
  refine ⟨?_, fun other hother => ?_⟩
  -- the share of the hotkey grows with its value
  · rw [hworth, hworth, hsum, hsum, if_pos rfl, if_pos rfl]
    exact div_le_div_of_grow (worthOf_nonneg hrest hotkey) (worthOf_le_sum hrest hotkey) hold hle
  -- the others divide by more
  · rw [hworth, hworth, hsum, hsum, if_neg hother.symm, if_neg hother.symm, zero_add]
    exact div_le_div_of_stay (worthOf_nonneg hrest other) (worthOf_le_sum hrest other) hold hle

/-- A verified rig with more cards is verified. -/
theorem isVerified_of_perm {rig : Rig} {gpus cards : List Card} (hrig : rig.isVerified)
    (hgpus : gpus.Perm (rig.gpus ++ cards)) : { rig with gpus }.isVerified := by
  simp only [Rig.isVerified, Bool.and_eq_true, decide_eq_true_eq] at hrig ⊢
  refine ⟨hrig.1, fun hnone => hrig.2 ?_⟩
  refine List.filter_eq_nil_iff.mpr fun card hcard => ?_
  exact List.filter_eq_nil_iff.mp hnone card
    (hgpus.mem_iff.mpr (List.mem_append_left cards hcard))

/-- The worth of one rig of the roster among the others. -/
theorem worths_append_cons (pre post : List Rig) {rig : Rig} (hrig : rig.isScored) :
    worths demand ledger settings now (pre ++ rig :: post) =
      worths demand ledger settings now pre ++
        (rig.hotkey, worth demand ledger settings now rig) ::
          worths demand ledger settings now post := by
  simp [worths, contributions, worth, hrig]

/-- Adding cards of any model to a verified rig never lowers the share of its hotkey, and never
raises the share of another. Cards that are not accepted do not count. -/
theorem capacity_never_backfires {pre post : List Rig} {rig : Rig} {gpus cards : List Card}
    {scores : Dict Str ℚ} (hrig : rig.isVerified) (hhotkey : rig.hotkey ≠ [])
    (hgpus : gpus.Perm (rig.gpus ++ cards))
    (h : localScores (pre ++ rig :: post) demand ledger settings now = some scores) :
    ∃ scores', localScores (pre ++ { rig with gpus } :: post) demand ledger settings now =
        some scores' ∧
      shareOf (normalise scores) rig.hotkey ≤ shareOf (normalise scores') rig.hotkey ∧
      ∀ other, other ≠ rig.hotkey →
        shareOf (normalise scores') other ≤ shareOf (normalise scores) other := by
  have hscored : rig.isScored := by simp [Rig.isScored, hrig, hhotkey]
  have hscored' : { rig with gpus }.isScored := by
    simp [Rig.isScored, isVerified_of_perm hrig hgpus, hhotkey]
  -- the drivers are the same, so the scores can be computed again
  have hreadable : DriversReadable settings (pre ++ { rig with gpus } :: post) := by
    rw [localScores_eq] at h
    split_ifs at h with hread
    rw [DriversReadable, List.forall_mem_append, List.forall_mem_cons] at hread ⊢
    exact ⟨hread.1, fun _ => hread.2.1 hscored, hread.2.2⟩
  obtain ⟨scores', hscores'⟩ : ∃ scores', localScores (pre ++ { rig with gpus } :: post) demand
      ledger settings now = some scores' := ⟨_, by rw [localScores_eq, if_pos hreadable]⟩
  have hle : worth demand ledger settings now rig ≤
      worth demand ledger settings now { rig with gpus } :=
    worth_le_of_perm (acceptedCards_ne_nil hscored) (acceptedCards_ne_nil hscored') hgpus
  refine ⟨scores', hscores', ?_⟩
  simp only [shareOf_localScores h, shareOf_localScores hscores',
    worths_append_cons pre post hscored,
    worths_append_cons pre post hscored']
  exact worth_shares_le (worths_nonneg pre) (worths_nonneg post)
    (worth_nonneg (acceptedCards_ne_nil hscored)) hle

/-- A verified rig that has been up for two weeks. -/
def sampleRig : Rig where
  hotkey := ['h']
  state := .active
  lastPassed := true
  gpus := [{}]
  isolationVerified := true
  uptimeSince := some 0

/-- A second card for a rig next to that of another hotkey. -/
theorem capacity_never_backfires_two : ∃ scores',
    localScores ([{ sampleRig with hotkey := ['g'] }] ++ { sampleRig with gpus := [{}, {}] } :: [])
        none none {} 1209600 = some scores' ∧
      shareOf (normalise [(['g'], 1 / 2), (['h'], 1 / 2)]) ['h'] ≤
        shareOf (normalise scores') ['h'] ∧
      ∀ other, other ≠ ['h'] → shareOf (normalise scores') other ≤
        shareOf (normalise [(['g'], 1 / 2), (['h'], 1 / 2)]) other :=
  @capacity_never_backfires none none {} 1209600 [{ sampleRig with hotkey := ['g'] }] [] sampleRig
    [{}, {}] [{}] _ (by decide) (by decide) (List.Perm.refl _) (by decide +kernel)

end Shares

end ComputePool.Validator
