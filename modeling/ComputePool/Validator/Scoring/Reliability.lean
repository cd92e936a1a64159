import Mathlib.Order.MinMax
import ComputePool.Foundations.Binary64
import ComputePool.Foundations.Packing
import ComputePool.Validator.Scoring.LocalScores

/-!
# The uptime ledger

`UptimeLedger` of `validator/scoring/reliability.py`. The express lane probes the rigs one after
another and tells the ledger for each whether it answered, and the clock says when. Two answers in a
row that are at most `MAX_GAP_SECONDS` apart credit the time between them.

The ledger counts in floats: the difference of two readings is rounded, and so is each sum.

* `Ledger.observe`: one observation.
* `stretches`: the stretches of the clock that the observations of a rig credit.
* `uptimeSeconds_after`: on readings of one grid of floats, as long as no two of the stretches
  overlap, what the ledger has credited is their total length.
* `credited_within_spread`: it is then no more than the readings of the clock lie apart.
* `drop_resets_nothing`: what becomes of the credit of a rig that drops and comes back.
-/

namespace ComputePool.Validator.Reliability

open Text Packing Numeral

/-- `MAX_GAP_SECONDS`. -/
def maxGapSeconds : ℚ := 120

/-- `RigReliability`, without the jobs. -/
structure RigReliability where
  uptimeSeconds : ℚ := 0
  firstSeen : ℚ
  /-- Zero when the rig was never seen. -/
  lastSeen : ℚ := 0
  lastOnline : Bool := false
  deriving DecidableEq, Repr

/-- `UptimeLedger`: what is kept of every rig. -/
structure Ledger where
  rigs : Dict Str RigReliability := []
  deriving DecidableEq, Repr

/-- A call of `observe`. -/
structure Observation where
  rigId : Str
  online : Bool
  /-- What the clock says. -/
  moment : ℚ
  deriving DecidableEq, Repr

/-- What `observe` does to the entry of a rig; `round` is what the arithmetic makes of a difference
and of a sum. -/
def RigReliability.observe (round : ℚ → ℚ) (rig : RigReliability) (online : Bool) (moment : ℚ) :
    RigReliability :=
  let gap := round (moment - rig.lastSeen)
  { rig with
    uptimeSeconds :=
      if rig.lastSeen ≠ 0 ∧ rig.lastOnline ∧ online ∧ 0 < gap ∧ gap ≤ maxGapSeconds then
        round (rig.uptimeSeconds + gap)
      else rig.uptimeSeconds
    lastSeen := moment
    lastOnline := online }

namespace Ledger

/-- `UptimeLedger.observe`. -/
def observe (ledger : Ledger) (o : Observation) : Ledger where
  rigs :=
    let rig := (ledger.rigs.get? o.rigId).getD { firstSeen := o.moment }
    ledger.rigs.set o.rigId (rig.observe binary64 o.online o.moment)

/-- The ledger after a number of observations. -/
def after (history : List Observation) : Ledger :=
  history.foldl observe {}

/-- `uptime_seconds` of a rig; zero for one that is not in the ledger. -/
def uptimeSeconds (ledger : Ledger) (rigId : Str) : ℚ :=
  ((ledger.rigs.get? rigId).map RigReliability.uptimeSeconds).getD 0

/-- What scoring reads of the ledger. -/
def credits (ledger : Ledger) : UptimeLedger where
  uptimeSeconds := ledger.rigs.map fun e => (e.1, e.2.uptimeSeconds)

/-- Scoring reads the days of the seconds in the ledger. -/
@[simp]
theorem uptimeDays_credits (ledger : Ledger) (rigId : Str) :
    ledger.credits.uptimeDays rigId = ledger.uptimeSeconds rigId / 86400 := by
  have hget : Dict.get? (ledger.rigs.map fun e => (e.1, e.2.uptimeSeconds)) rigId =
      (ledger.rigs.get? rigId).map RigReliability.uptimeSeconds :=
    Dict.get?_map_values ledger.rigs (fun _ rig => rig.uptimeSeconds) rigId
  rw [UptimeLedger.uptimeDays, credits, hget, uptimeSeconds]

end Ledger

/-! ## Readings of one rig -/

/-- The observations of a rig, without those of the others. -/
def readingsOf (rigId : Str) (history : List Observation) : List (Bool × ℚ) :=
  (history.filter (·.rigId = rigId)).map fun o => (o.online, o.moment)

@[simp]
theorem readingsOf_append (rigId : Str) (a b : List Observation) :
    readingsOf rigId (a ++ b) = readingsOf rigId a ++ readingsOf rigId b := by
  simp [readingsOf]

theorem readingsOf_singleton (o : Observation) :
    readingsOf o.rigId [o] = [(o.online, o.moment)] := by
  simp [readingsOf]

/-- The stretches of the clock that readings credit, after the reading `last`. -/
def stretchesFrom (last : Bool × ℚ) : List (Bool × ℚ) → List (ℚ × ℚ)
  | [] => []
  | next :: rest =>
    let gap := next.2 - last.2
    if last.2 ≠ 0 ∧ last.1 ∧ next.1 ∧ 0 < gap ∧ gap ≤ maxGapSeconds then
      (last.2, next.2) :: stretchesFrom next rest
    else stretchesFrom next rest

/-- The stretches that the readings of a rig credit: two readings in a row that find it online, the
second at most `maxGapSeconds` after the first. -/
def stretches (readings : List (Bool × ℚ)) : List (ℚ × ℚ) :=
  stretchesFrom (false, 0) readings

theorem stretches_cons (reading : Bool × ℚ) (rest : List (Bool × ℚ)) :
    stretches (reading :: rest) = stretchesFrom reading rest := by
  simp [stretches, stretchesFrom]

/-- Later readings are credited from the last of the earlier ones on. -/
theorem stretchesFrom_append (last : Bool × ℚ) (a b : List (Bool × ℚ)) :
    stretchesFrom last (a ++ b) =
      stretchesFrom last a ++ stretchesFrom (a.getLast?.getD last) b := by
  induction a generalizing last with
  | nil => rfl
  | cons next rest ih =>
    have hlast : ((next :: rest).getLast?).getD last = (rest.getLast?).getD next := by
      cases rest <;> simp [List.getLast?_cons]
    rw [hlast, List.cons_append, stretchesFrom, stretchesFrom, ih next]
    split_ifs <;> rfl

/-- A stretch goes forward, from one reading to another. -/
theorem mem_stretchesFrom {last : Bool × ℚ} {readings : List (Bool × ℚ)} {i : ℚ × ℚ}
    (h : i ∈ stretchesFrom last readings) :
    i.1 < i.2 ∧ i.2 ∈ readings.map Prod.snd ∧
      (i.1 ∈ readings.map Prod.snd ∨ i.1 = last.2 ∧ last.1 = true) := by
  induction readings generalizing last with
  | nil => simp [stretchesFrom] at h
  | cons next rest ih =>
    -- what holds of the later stretches, whose first reading is `next`
    have hlater : i ∈ stretchesFrom next rest → i.1 < i.2 ∧ i.2 ∈ (next :: rest).map Prod.snd ∧
        (i.1 ∈ (next :: rest).map Prod.snd ∨ i.1 = last.2 ∧ last.1 = true) := by
      intro hi
      obtain ⟨hlt, hend, hstart⟩ := ih hi
      refine ⟨hlt, List.mem_cons_of_mem _ hend, Or.inl ?_⟩
      rcases hstart with hstart | ⟨hstart, -⟩
      · exact List.mem_cons_of_mem _ hstart
      · exact List.mem_cons.mpr (Or.inl hstart)
    rw [stretchesFrom] at h
    split_ifs at h with hcredit
    · rcases List.mem_cons.mp h with rfl | hi
      · obtain ⟨-, honline, -, hpos, -⟩ := hcredit
        exact ⟨sub_pos.mp hpos, by simp, Or.inr ⟨rfl, honline⟩⟩
      · exact hlater hi
    · exact hlater h

theorem mem_stretches {readings : List (Bool × ℚ)} {i : ℚ × ℚ} (h : i ∈ stretches readings) :
    i.1 < i.2 ∧ i.1 ∈ readings.map Prod.snd ∧ i.2 ∈ readings.map Prod.snd := by
  obtain ⟨hlt, hend, hstart⟩ := mem_stretchesFrom h
  exact ⟨hlt, hstart.resolve_right (by simp), hend⟩

/-! ## What is credited -/

/-- The entry of a rig after readings, from an empty one. -/
def observed (round : ℚ → ℚ) (readings : List (Bool × ℚ)) : RigReliability :=
  readings.foldl (fun rig r => rig.observe round r.1 r.2) { firstSeen := 0 }

@[simp]
theorem observed_concat (round : ℚ → ℚ) (readings : List (Bool × ℚ)) (next : Bool × ℚ) :
    observed round (readings ++ [next]) =
      (observed round readings).observe round next.1 next.2 := by
  simp [observed]

/-- The entry of a rig, but for when it was first seen. -/
def Ledger.standing (ledger : Ledger) (rigId : Str) : RigReliability :=
  { (ledger.rigs.get? rigId).getD { firstSeen := 0 } with firstSeen := 0 }

theorem Ledger.uptimeSeconds_standing (ledger : Ledger) (rigId : Str) :
    (ledger.standing rigId).uptimeSeconds = ledger.uptimeSeconds rigId := by
  unfold standing uptimeSeconds
  cases ledger.rigs.get? rigId <;> rfl

/-- An observation changes the entry of its rig, and no other. -/
theorem Ledger.standing_observe (ledger : Ledger) (o : Observation) (rigId : Str) :
    (ledger.observe o).standing rigId =
      if rigId = o.rigId then (ledger.standing rigId).observe binary64 o.online o.moment
      else ledger.standing rigId := by
  unfold standing observe
  dsimp only
  rw [Dict.get?_set]
  split_ifs with hrig
  · subst hrig
    cases ledger.rigs.get? o.rigId <;> rfl
  · rfl

/-- What the ledger keeps of a rig comes from the observations of that rig. -/
theorem Ledger.standing_after (history : List Observation) (rigId : Str) :
    (after history).standing rigId =
      observed binary64 (readingsOf rigId history) := by
  induction history using List.reverseRecOn with
  | nil => rfl
  | append_singleton history o ih =>
    have hafter : after (history ++ [o]) = (after history).observe o := by simp [after]
    rw [hafter, standing_observe, ih, readingsOf_append]
    split_ifs with hrig
    · subst hrig
      rw [readingsOf_singleton, observed_concat]
    · simp [readingsOf, Ne.symm hrig]

theorem Ledger.uptimeSeconds_after (history : List Observation) (rigId : Str) :
    (after history).uptimeSeconds rigId =
      (observed binary64 (readingsOf rigId history)).uptimeSeconds := by
  rw [← uptimeSeconds_standing, standing_after]

/-- The last reading is kept. -/
theorem last_observed (round : ℚ → ℚ) (readings : List (Bool × ℚ)) :
    ((observed round readings).lastOnline, (observed round readings).lastSeen) =
      readings.getLast?.getD (false, 0) := by
  induction readings using List.reverseRecOn with
  | nil => rfl
  | append_singleton readings next => simp [RigReliability.observe]

/-- Without rounding, the credit of a rig is the total length of its stretches. -/
theorem uptimeSeconds_observed (readings : List (Bool × ℚ)) :
    (observed id readings).uptimeSeconds = total (stretches readings) := by
  induction readings using List.reverseRecOn with
  | nil => rfl
  | append_singleton readings next ih =>
    rw [observed_concat, stretches, stretchesFrom_append, total_append, ← last_observed id readings,
      ← stretches, ← ih, RigReliability.observe, stretchesFrom]
    dsimp only [id]
    split_ifs
    · simp [stretchesFrom]
    · simp [stretchesFrom]

/-- The credit is a double. -/
theorem binary64_uptimeSeconds (readings : List (Bool × ℚ)) :
    binary64 (observed binary64 readings).uptimeSeconds =
      (observed binary64 readings).uptimeSeconds := by
  induction readings using List.reverseRecOn with
  | nil => exact binary64_zero
  | append_singleton readings next ih =>
    rw [observed_concat, RigReliability.observe]
    dsimp only
    split_ifs
    · exact binary64_binary64 _
    · exact ih

/-- An observation takes nothing away: a double that is credited something is not rounded below
itself. -/
theorem uptimeSeconds_observed_le (readings later : List (Bool × ℚ)) :
    (observed binary64 readings).uptimeSeconds ≤
      (observed binary64 (readings ++ later)).uptimeSeconds := by
  induction later using List.reverseRecOn with
  | nil => rw [List.append_nil]
  | append_singleton later next ih =>
    rw [← List.append_assoc, observed_concat, RigReliability.observe]
    dsimp only
    split_ifs with hcredit
    · obtain ⟨-, -, -, hpos, -⟩ := hcredit
      have hmono := binary64_mono (le_add_of_nonneg_right hpos.le :
        (observed binary64 (readings ++ later)).uptimeSeconds ≤ _)
      rw [binary64_uptimeSeconds] at hmono
      exact ih.trans hmono
    · exact ih

/-- The credit never gets smaller. -/
theorem uptimeSeconds_after_le (history later : List Observation) (rigId : Str) :
    (Ledger.after history).uptimeSeconds rigId ≤
      (Ledger.after (history ++ later)).uptimeSeconds rigId := by
  rw [Ledger.uptimeSeconds_after, Ledger.uptimeSeconds_after, readingsOf_append]
  exact uptimeSeconds_observed_le _ _

/-! ## Credit and clock -/

/-- The difference between the largest and the smallest of the readings; zero when there is
none. -/
def spread (moments : List ℚ) : ℚ :=
  moments.max?.getD 0 - moments.min?.getD 0

/-- The spread lies between two of the readings, and all the others between these. -/
theorem exists_spread {moments : List ℚ} (h : moments ≠ []) :
    ∃ lo ∈ moments, ∃ hi ∈ moments,
      spread moments = hi - lo ∧ ∀ m ∈ moments, lo ≤ m ∧ m ≤ hi := by
  obtain ⟨hi, hmax⟩ := Option.isSome_iff_exists.mp (List.isSome_max?_of_ne_nil h)
  obtain ⟨lo, hmin⟩ := Option.isSome_iff_exists.mp (List.isSome_min?_of_ne_nil h)
  have hhi := List.max?_eq_some_iff.mp hmax
  have hlo := List.min?_eq_some_iff.mp hmin
  exact ⟨lo, hlo.1, hi, hhi.1, by rw [spread, hmax, hmin]; rfl,
    fun m hm => ⟨hlo.2 m hm, hhi.2 m hm⟩⟩

/-- No stretch of the clock is credited twice. -/
def CreditedOnce (readings : List (Bool × ℚ)) : Prop :=
  (stretches readings).Pairwise Apart

instance decidableCreditedOnce (readings : List (Bool × ℚ)) : Decidable (CreditedOnce readings) :=
  inferInstanceAs (Decidable ((stretches readings).Pairwise Apart))

/-- Stretches that do not overlap are no longer than what they lie in. -/
theorem total_stretches_le {readings : List (Bool × ℚ)} (h : CreditedOnce readings) :
    total (stretches readings) ≤ spread (readings.map Prod.snd) := by
  by_cases hnil : readings.map Prod.snd = []
  · rw [List.map_eq_nil_iff] at hnil
    subst hnil
    simp [stretches, stretchesFrom, spread]
  · obtain ⟨lo, hlo, hi, hhi, hspread, hin⟩ := exists_spread hnil
    rw [hspread]
    refine total_le h (hin hi hhi).1 fun i hi => ?_
    obtain ⟨hlt, hstart, hend⟩ := mem_stretches hi
    exact ⟨(hin _ hstart).1, hlt, (hin _ hend).2⟩

/-- A history credited once was credited once before its end. -/
theorem CreditedOnce.of_append {a b : List (Bool × ℚ)} (h : CreditedOnce (a ++ b)) :
    CreditedOnce a := by
  unfold CreditedOnce stretches at h ⊢
  rw [stretchesFrom_append] at h
  exact (List.pairwise_append.mp h).1

/-- On a clock that never goes back no stretch is credited twice. -/
theorem pairwise_stretchesFrom {last : Bool × ℚ} {readings : List (Bool × ℚ)}
    (h : (last :: readings).Pairwise fun a b => a.2 ≤ b.2) :
    (stretchesFrom last readings).Pairwise Apart ∧
      ∀ i ∈ stretchesFrom last readings, last.2 ≤ i.1 := by
  induction readings generalizing last with
  | nil => simp [stretchesFrom]
  | cons next rest ih =>
    obtain ⟨hlast, hrest⟩ := List.pairwise_cons.mp h
    obtain ⟨hpair, hstart⟩ := ih hrest
    have hnext : last.2 ≤ next.2 := hlast next (by simp)
    rw [stretchesFrom]
    -- a stretch ends where the next reading begins
    split_ifs
    · refine ⟨List.pairwise_cons.mpr ⟨fun i hi => Or.inl (hstart i hi), hpair⟩, ?_⟩
      intro i hi
      rcases List.mem_cons.mp hi with rfl | hi
      · exact le_rfl
      · exact hnext.trans (hstart i hi)
    · exact ⟨hpair, fun i hi => hnext.trans (hstart i hi)⟩

/-- A clock that is never set back credits nothing twice. -/
theorem creditedOnce_of_forward {readings : List (Bool × ℚ)}
    (h : readings.Pairwise fun a b => a.2 ≤ b.2) : CreditedOnce readings := by
  cases readings with
  | nil => exact List.Pairwise.nil
  | cons first rest =>
    rw [CreditedOnce, stretches_cons]
    exact (pairwise_stretchesFrom h).1

/-! ## Doubles that are not rounded -/

/-- The readings of the clock lie on one grid of doubles: any two of them are a multiple of one
power of two apart, and no more than a double has digits for. -/
def OneGrid (moments : List ℚ) : Prop :=
  ∃ k : ℤ, -1074 ≤ k ∧ ∀ a ∈ moments, ∀ b ∈ moments, ∃ z : ℤ, |z| ≤ 2 ^ 53 ∧ a - b = z * 2 ^ k

theorem OneGrid.of_append {a b : List ℚ} (h : OneGrid (a ++ b)) : OneGrid a := by
  obtain ⟨k, hk, hgrid⟩ := h
  exact ⟨k, hk, fun x hx y hy =>
    hgrid x (List.mem_append_left _ hx) y (List.mem_append_left _ hy)⟩

/-- The doubles from one power of two to the next lie on one grid. A clock shows those from
`2 ^ 30` on since January 2004, and until January 2038. -/
theorem oneGrid_of_doubles {moments : List ℚ} {e : ℤ} (he : -1022 ≤ e)
    (h : ∀ m ∈ moments, binary64 m = m ∧ 2 ^ e ≤ m ∧ m < 2 ^ (e + 1)) : OneGrid moments := by
  -- each of them is a multiple of its last place, and that is the same for all
  have hmultiple : ∀ m ∈ moments, ∃ z : ℤ, 0 ≤ z ∧ z ≤ 2 ^ 53 ∧ m = z * 2 ^ (e - 52) := by
    intro m hm
    obtain ⟨hdouble, hlow, hhigh⟩ := h m hm
    have hpos : 0 < m := (two_zpow_pos e).trans_le hlow
    have hlog : Int.log 2 m = e := by
      refine le_antisymm ?_ ?_
      · have hlt := log_lt_of_abs_lt hpos.ne' (by rwa [abs_of_pos hpos] : |m| < 2 ^ (e + 1))
        rw [abs_of_pos hpos] at hlt
        omega
      · exact (Int.zpow_le_iff_le_log (by norm_num) hpos).mp (by exact_mod_cast hlow)
    have hplace : lastPlace m = e - 52 := by
      rw [lastPlace, abs_of_pos hpos, hlog]
      exact max_eq_left (by omega)
    have hvalue : m = PyFloat.roundEven (m / 2 ^ (e - 52)) * 2 ^ (e - 52) := by
      rw [← hplace]
      exact hdouble.symm
    have hstep := two_zpow_pos (e - 52)
    refine ⟨_, ?_, ?_, hvalue⟩
    · have hnonneg : (0 : ℚ) ≤ PyFloat.roundEven (m / 2 ^ (e - 52)) :=
        nonneg_of_mul_nonneg_left (hvalue ▸ hpos.le) hstep
      exact_mod_cast hnonneg
    · have hpow : (2 : ℚ) ^ (e + 1) = 2 ^ 53 * 2 ^ (e - 52) := by
        rw [← zpow_natCast, ← zpow_add₀ (by norm_num)]
        congr 1
        push_cast
        ring
      have hle : (PyFloat.roundEven (m / 2 ^ (e - 52)) : ℚ) ≤ 2 ^ 53 :=
        le_of_mul_le_mul_right (by rw [← hvalue, ← hpow]; exact hhigh.le) hstep
      exact_mod_cast hle
  refine ⟨e - 52, by omega, fun a ha b hb => ?_⟩
  obtain ⟨z, hz, hzle, rfl⟩ := hmultiple a ha
  obtain ⟨w, hw, hwle, rfl⟩ := hmultiple b hb
  refine ⟨z - w, abs_le.mpr ⟨by omega, by omega⟩, ?_⟩
  push_cast
  ring

/-- Lengths that are multiples of a power of two add up to one. -/
theorem total_multiple {intervals : List (ℚ × ℚ)} {k : ℤ}
    (h : ∀ i ∈ intervals, ∃ z : ℤ, i.2 - i.1 = z * 2 ^ k) :
    ∃ z : ℤ, total intervals = z * 2 ^ k := by
  induction intervals with
  | nil => exact ⟨0, by simp⟩
  | cons i rest ih =>
    obtain ⟨z, hz⟩ := h i List.mem_cons_self
    obtain ⟨w, hw⟩ := ih fun j hj => h j (List.mem_cons_of_mem _ hj)
    refine ⟨z + w, ?_⟩
    rw [total_cons, hz, hw]
    push_cast
    ring

section Grid

variable {readings : List (Bool × ℚ)}

/-- No sum is rounded: it is a multiple of the grid, and no longer than the whole of it. -/
theorem binary64_total_stretches (hgrid : OneGrid (readings.map Prod.snd))
    (honce : CreditedOnce readings) :
    binary64 (total (stretches readings)) = total (stretches readings) := by
  by_cases hnil : readings.map Prod.snd = []
  · rw [List.map_eq_nil_iff] at hnil
    subst hnil
    exact binary64_zero
  obtain ⟨k, hk, hgrid⟩ := hgrid
  obtain ⟨lo, hlo, hi, hhi, hspread, -⟩ := exists_spread hnil
  obtain ⟨z, hz⟩ : ∃ z : ℤ, total (stretches readings) = z * 2 ^ k := by
    refine total_multiple fun i hi => ?_
    obtain ⟨-, hstart, hend⟩ := mem_stretches hi
    obtain ⟨z, -, hz⟩ := hgrid i.2 hend i.1 hstart
    exact ⟨z, hz⟩
  obtain ⟨w, hw, hwhole⟩ := hgrid hi hhi lo hlo
  have hle := total_stretches_le honce
  have hnonneg : 0 ≤ total (stretches readings) :=
    total_nonneg fun i hi => (mem_stretches hi).1.le
  rw [hspread, hwhole, hz] at hle
  rw [hz] at hnonneg ⊢
  have hstep := two_zpow_pos k
  have hzw : (z : ℚ) ≤ w := le_of_mul_le_mul_right hle hstep
  have hz0 : (0 : ℚ) ≤ z := nonneg_of_mul_nonneg_left hnonneg hstep
  norm_cast at hzw hz0
  refine binary64_of_multiple ?_ hk
  rw [abs_of_nonneg hz0]
  exact hzw.trans ((le_abs_self w).trans hw)

/-- No difference of two readings is rounded. -/
theorem binary64_gap {moments : List ℚ} (hgrid : OneGrid moments) {a b : ℚ} (ha : a ∈ moments)
    (hb : b ∈ moments) : binary64 (a - b) = a - b := by
  obtain ⟨k, hk, hgrid⟩ := hgrid
  obtain ⟨z, hz, heq⟩ := hgrid a ha b hb
  rw [heq]
  exact binary64_of_multiple hz hk

/-- On readings of one grid, with no stretch credited twice, nothing is rounded. -/
theorem observed_exact (hgrid : OneGrid (readings.map Prod.snd))
    (honce : CreditedOnce readings) : observed binary64 readings = observed id readings := by
  induction readings using List.reverseRecOn with
  | nil => rfl
  | append_singleton readings next ih =>
    have hsame := ih (by rw [List.map_append] at hgrid; exact hgrid.of_append) honce.of_append
    have hlast := last_observed id readings
    have huptime := uptimeSeconds_observed (readings ++ [next])
    rw [observed_concat] at huptime
    rw [observed_concat, observed_concat, hsame]
    cases hend : readings.getLast? with
    | none =>
      -- a first reading credits nothing
      obtain rfl := List.getLast?_eq_none_iff.mp hend
      simp [observed, RigReliability.observe]
    | some last =>
      have hmem : last.2 ∈ (readings ++ [next]).map Prod.snd :=
        List.mem_map_of_mem (List.mem_append_left _ (List.mem_of_getLast? hend))
      rw [hend, Option.getD_some] at hlast
      have hgap := binary64_gap hgrid (a := next.2) (by simp) hmem
      have hseen : (observed id readings).lastSeen = last.2 := congrArg Prod.snd hlast
      rw [← hseen] at hgap
      rw [RigReliability.observe] at huptime ⊢
      rw [RigReliability.observe, hgap]
      dsimp only [id] at huptime ⊢
      split_ifs at huptime ⊢
      · rw [huptime, binary64_total_stretches hgrid honce]
      · rfl

end Grid

/-- **What the ledger credits.** After any observations, those of other rigs between them, a rig has
the total length of its stretches, if nothing is rounded. -/
theorem uptimeSeconds_after {history : List Observation} {rigId : Str}
    (hgrid : OneGrid ((readingsOf rigId history).map Prod.snd))
    (honce : CreditedOnce (readingsOf rigId history)) :
    (Ledger.after history).uptimeSeconds rigId =
      total (stretches (readingsOf rigId history)) := by
  rw [Ledger.uptimeSeconds_after, observed_exact hgrid honce, uptimeSeconds_observed]

/-- **Uptime is credited once, while the credited stretches do not overlap.** For every history of
observations, those of other rigs between them: the credit of a rig never gets smaller, and after
each observation it is at most the difference between the largest and the smallest reading of the
clock for that rig, if no two pairs of readings in a row that credit the time between them cover a
common stretch of the clock, and the readings of the rig are doubles of one grid. -/
theorem credited_within_spread {history : List Observation} {rigId : Str}
    (hgrid : OneGrid ((readingsOf rigId history).map Prod.snd))
    (honce : CreditedOnce (readingsOf rigId history)) :
    ∀ before later, history = before ++ later →
      (Ledger.after before).uptimeSeconds rigId ≤ (Ledger.after history).uptimeSeconds rigId ∧
      (Ledger.after before).uptimeSeconds rigId ≤
        spread ((readingsOf rigId before).map Prod.snd) := by
  rintro before later rfl
  refine ⟨uptimeSeconds_after_le before later rigId, ?_⟩
  rw [readingsOf_append] at hgrid honce
  rw [List.map_append] at hgrid
  rw [uptimeSeconds_after hgrid.of_append honce.of_append]
  exact total_stretches_le honce.of_append

/-- The name of a rig. -/
def rigName : Str := "rig-1".toList

/-- Two rigs that are probed in turn every minute, the second one not always online. -/
def probes : List Observation :=
  [⟨rigName, true, 1700000100⟩, ⟨"rig-2".toList, true, 1700000101⟩,
    ⟨rigName, true, 1700000160⟩, ⟨"rig-2".toList, false, 1700000161⟩,
    ⟨rigName, true, 1700000220⟩]

theorem credited_within_spread_probes :
    (OneGrid ((readingsOf rigName probes).map Prod.snd) ∧
      CreditedOnce (readingsOf rigName probes)) ∧
    ∀ before later, probes = before ++ later →
      (Ledger.after before).uptimeSeconds rigName ≤ (Ledger.after probes).uptimeSeconds rigName ∧
      (Ledger.after before).uptimeSeconds rigName ≤
        spread ((readingsOf rigName before).map Prod.snd) := by
  have hgrid : OneGrid ((readingsOf rigName probes).map Prod.snd) :=
    oneGrid_of_doubles (e := 30) (by decide) (by decide +kernel)
  have honce : CreditedOnce (readingsOf rigName probes) :=
    creditedOnce_of_forward (by decide +kernel)
  exact ⟨⟨hgrid, honce⟩, credited_within_spread hgrid honce⟩

/-- A minute is observed, and the clock is set back by a minute and goes through it again. -/
def setBack : List Observation :=
  [⟨rigName, true, 100⟩, ⟨rigName, true, 160⟩, ⟨rigName, true, 100⟩, ⟨rigName, true, 160⟩]

/-- The same minute is credited twice: two minutes of uptime, on a clock that went from 100 to
160. -/
theorem minute_credited_twice :
    (Ledger.after setBack).uptimeSeconds rigName = 120 ∧
    ¬ (Ledger.after setBack).uptimeSeconds rigName ≤
      spread ((readingsOf rigName setBack).map Prod.snd) := by
  decide +kernel

/-! ## Drops -/

/-- A rig that answers at the moment `back` had dropped before: the last observation before that
found it offline, or is longer ago than `limit`. -/
def Dropped (limit : ℚ) (rigId : Str) (earlier : List Observation) (back : ℚ) : Prop :=
  ∃ last ∈ (readingsOf rigId earlier).getLast?,
    last.1 = false ∨ limit < binary64 (back - last.2)

/-- The observations of a rig that comes back at a moment, with what was before and after it. -/
def withReturn (rigId : Str) (earlier : List Observation) (back : ℚ) (later : List Observation) :
    List Observation :=
  earlier ++ ⟨rigId, true, back⟩ :: later

/-- The uptime of a rig with all that was before its return forgotten: a ledger that begins with the
return, and a connection that starts no earlier. -/
def uptimeDaysSince (rig : Rig) (back : ℚ) (later : List Observation) (now : ℚ) : ℚ :=
  uptimeDaysOf { rig with uptimeSince := rig.uptimeSince.map (max back) }
    (some (Ledger.after (withReturn rig.id [] back later)).credits) now

/-- A drop credits nothing. -/
theorem uptimeSeconds_return {rigId : Str} {earlier : List Observation} {back : ℚ}
    (hdrop : Dropped maxGapSeconds rigId earlier back) :
    (Ledger.after (withReturn rigId earlier back [])).uptimeSeconds rigId =
      (Ledger.after earlier).uptimeSeconds rigId := by
  obtain ⟨last, hend, hdropped⟩ := hdrop
  have hlast := last_observed binary64 (readingsOf rigId earlier)
  rw [hend, Option.getD_some] at hlast
  have honline : (observed binary64 (readingsOf rigId earlier)).lastOnline = last.1 :=
    congrArg Prod.fst hlast
  have hseen : (observed binary64 (readingsOf rigId earlier)).lastSeen = last.2 :=
    congrArg Prod.snd hlast
  have hreturn : readingsOf rigId (withReturn rigId earlier back []) =
      readingsOf rigId earlier ++ [(true, back)] := by
    rw [withReturn, readingsOf_append]
    exact congrArg _ (readingsOf_singleton ⟨rigId, true, back⟩)
  rw [Ledger.uptimeSeconds_after, Ledger.uptimeSeconds_after, hreturn, observed_concat,
    RigReliability.observe]
  refine if_neg fun hcredit => ?_
  obtain ⟨-, hwas, -, -, hgap⟩ := hcredit
  rw [honline] at hwas
  rw [hseen] at hgap
  rcases hdropped with hoffline | hlong
  · exact absurd (hwas.symm.trans hoffline) (by simp)
  · exact absurd hgap (not_le.mpr hlong)

/-- **A drop is not counted, and resets nothing.** For every history of a rig that was observed
offline, or was not observed for more than two minutes, and comes back: its credit is then what it
was before the drop, whatever is observed later takes nothing of it away, and the uptime days that
go into the score are those of the credit, or of the connection that the server reports where these
are more. -/
theorem drop_resets_nothing (rig : Rig) {earlier : List Observation} {back : ℚ}
    (hdrop : Dropped maxGapSeconds rig.id earlier back) :
    (Ledger.after (withReturn rig.id earlier back [])).uptimeSeconds rig.id =
        (Ledger.after earlier).uptimeSeconds rig.id ∧
      ∀ later now, ∃ seconds,
        (Ledger.after earlier).uptimeSeconds rig.id ≤ seconds ∧
        (Ledger.after (withReturn rig.id earlier back later)).uptimeSeconds rig.id = seconds ∧
        uptimeDaysOf rig (some (Ledger.after (withReturn rig.id earlier back later)).credits) now =
          (rig.uptimeSince.map fun since => max seconds (now - since)).getD seconds / 86400 := by
  refine ⟨uptimeSeconds_return hdrop, fun later now => ⟨_, ?_, rfl, ?_⟩⟩
  · exact uptimeSeconds_after_le earlier _ rig.id
  · have hpos : (0 : ℚ) ≤ 86400 := by norm_num
    rw [uptimeDaysOf, Option.map_some, Option.getD_some, Ledger.uptimeDays_credits]
    cases rig.uptimeSince with
    | none => rfl
    | some since => exact max_div_div_right hpos _ _

/-- A rig whose connection the server has seen start when it came back. -/
def returned : Rig where
  id := rigName
  uptimeSince := some 2000

/-- A minute of uptime, and nothing for a quarter of an hour. -/
def beforeDrop : List Observation :=
  [⟨rigName, true, 1000⟩, ⟨rigName, true, 1060⟩]

theorem drop_resets_nothing_returned :
    Dropped maxGapSeconds returned.id beforeDrop 2000 ∧
    (Ledger.after (withReturn returned.id beforeDrop 2000 [])).uptimeSeconds returned.id =
      (Ledger.after beforeDrop).uptimeSeconds returned.id := by
  have hdrop : Dropped maxGapSeconds returned.id beforeDrop 2000 :=
    ⟨(true, 1060), rfl, Or.inr (by decide +kernel)⟩
  exact ⟨hdrop, (drop_resets_nothing returned hdrop).1⟩

/-- The rig comes back after its drop, and the minute from before is still counted. -/
theorem minute_before_drop_counts :
    Dropped 60 returned.id beforeDrop 2000 ∧
    uptimeDaysOf returned (some (Ledger.after (withReturn returned.id beforeDrop 2000 [])).credits)
        2000 = 60 / 86400 ∧
    uptimeDaysSince returned 2000 [] 2000 = 0 := by
  refine ⟨⟨(true, 1060), rfl, Or.inr (by decide +kernel)⟩, ?_, ?_⟩
  · decide +kernel
  · decide +kernel

end ComputePool.Validator.Reliability
