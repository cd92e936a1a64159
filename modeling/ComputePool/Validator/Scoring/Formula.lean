import Mathlib.Algebra.Order.Ring.Rat

/-!
# The score of a rig

`validator/scoring/formula.py`, over exact rationals:
`score = base × w_d × s_c × m_iso × m_up × m_drv × m_opt`.
-/

namespace ComputePool.Validator

/-- `ISOLATION_MULTIPLIER`. -/
def isolationMultiplier : ℚ := 4 / 5

/-- `UPTIME_RAMP_DAYS`. -/
def uptimeRampDays : ℚ := 14

/-- `OPT_OUT_MULTIPLIER`. -/
def optOutMultiplier : ℚ := 17 / 20

/-- `ScoreInputs`. -/
structure ScoreInputs where
  verified : Bool
  demandWeight : ℚ
  gpuCount : ℕ
  fleetGpuCount : ℕ
  isolationOk : Bool
  uptimeDays : ℚ
  driverOk : Bool
  driverCutoffPassed : Bool
  inRental : Bool
  rentalOptedOut : Bool
  deriving DecidableEq, Repr

/-- `ScoreBreakdown`. -/
structure ScoreBreakdown where
  base : ℚ
  demandWeight : ℚ
  capacityShare : ℚ
  isolation : ℚ
  uptime : ℚ
  driver : ℚ
  optOut : ℚ
  deriving DecidableEq, Repr

/-- `ScoreBreakdown.score`. -/
def ScoreBreakdown.score (b : ScoreBreakdown) : ℚ :=
  b.base * b.demandWeight * b.capacityShare * b.isolation * b.uptime * b.driver * b.optOut

/-- `uptime_multiplier`. -/
def uptimeMultiplier (uptimeDays : ℚ) : ℚ :=
  min 1 (max 0 uptimeDays / uptimeRampDays)

/-- `driver_multiplier`. -/
def driverMultiplier (driverOk cutoffPassed inRental : Bool) : ℚ :=
  if driverOk || inRental then 1 else if cutoffPassed then 0 else 1

/-- `breakdown`. -/
def breakdown (inputs : ScoreInputs) : ScoreBreakdown where
  base := if inputs.verified then 1 else 0
  demandWeight := max 0 inputs.demandWeight
  capacityShare :=
    if inputs.fleetGpuCount > 0 ∧ inputs.gpuCount > 0 then
      (inputs.gpuCount : ℚ) / inputs.fleetGpuCount
    else 0
  isolation := if inputs.isolationOk then 1 else isolationMultiplier
  uptime := uptimeMultiplier inputs.uptimeDays
  driver := driverMultiplier inputs.driverOk inputs.driverCutoffPassed inputs.inRental
  optOut := if inputs.rentalOptedOut then optOutMultiplier else 1

/-- `score`. -/
def score (inputs : ScoreInputs) : ℚ :=
  (breakdown inputs).score

end ComputePool.Validator
