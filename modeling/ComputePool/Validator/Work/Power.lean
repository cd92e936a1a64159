import ComputePool.Validator.Session.Runner

/-!
# Power caps

`validator/work/power.py`. A job may cap the power of its cards. The limit a card had before its
first cap is recorded and saved before the limit is changed, and the record is dropped once the
limit is back.

The records file is written by every change and read back when the validator starts, so the
records are one value here. `recorded_at` and `job` of an entry are read by none of the functions
below and are left out.
-/

namespace ComputePool.Validator

open Text Numeral

/-! ## Records -/

/-- `PowerRecords`: the original limit of each capped card, and the cards of each job. -/
structure PowerRecords where
  gpus : Dict Str PyFloat := []
  jobs : Dict Str (List Str) := []
  deriving DecidableEq, Repr

namespace PowerRecords

/-- The cards recorded for a job. -/
def cardsOf (records : PowerRecords) (jobId : Str) : List Str :=
  (records.jobs.get? jobId).getD []

/-- `PowerRecords.remember_original`. -/
def rememberOriginal (records : PowerRecords) (uuid : Str) (originalW : PyFloat) (jobId : Str) :
    PowerRecords where
  gpus := if uuid ∈ records.gpus.keys then records.gpus else records.gpus.set uuid originalW
  jobs :=
    let cards := records.cardsOf jobId
    records.jobs.set jobId (if uuid ∈ cards then cards else cards ++ [uuid])

/-- `PowerRecords.original`. -/
def original (records : PowerRecords) (uuid : Str) : Option PyFloat :=
  records.gpus.get? uuid

/-- `PowerRecords.forget`, with a job id. -/
def forget (records : PowerRecords) (uuid jobId : Str) : PowerRecords where
  gpus := records.gpus.pop uuid
  jobs :=
    let remaining := (records.cardsOf jobId).filter (· ≠ uuid)
    if remaining ≠ [] then records.jobs.set jobId remaining else records.jobs.pop jobId

end PowerRecords

/-! ## nvidia-smi -/

/-- `PowerState`. -/
structure PowerState where
  limitW : PyFloat
  defaultW : PyFloat
  minW : PyFloat
  maxW : PyFloat
  persistence : Bool
  deriving DecidableEq, Repr

/-- What `read_state` makes of the answer to the query. -/
def parsePowerState (stdout : Str) : Option PowerState :=
  let parts :=
    match (splitLines (strip stdout)).getLast? with
    | some line => (line.splitOn ',').map strip
    | none => []
  match parts with
  | [limit, default, min, max, persistence] => do
    return {
      limitW := ← floatOf limit
      defaultW := ← floatOf default
      minW := ← floatOf min
      maxW := ← floatOf max
      persistence := startsWith (persistence.map Char.toLower) "enabled".toList }
  | _ => none

/-- `read_state`. -/
def readState {σ : Type} (uuid : Str) : Task σ (Option PowerState) := do
  let result ← Program.send (.queryPower uuid)
  return if result.ok then parsePowerState result.stdout else none

/-- `int(round(watts))`. -/
def wholeWatts {σ : Type} : PyFloat → Raising σ ℤ
  | .fin q => pure (PyFloat.roundEven q)
  | .inf _ => throw .overflow
  | .nan => throw .value

/-- `set_limit`. -/
def setLimit {σ : Type} (uuid : Str) (watts : PyFloat) : Raising σ (Option PowerState) := do
  let _ ← Raising.send (.persistenceMode uuid)
  let whole ← wholeWatts watts
  let result ← Raising.send (.setPower uuid whole)
  if !result.ok then return none
  match ← Raising.await (readState uuid) with
  | none => return none
  | some state => return if state.limitW.apart watts 1 then none else some state

/-! ## Caps of a job -/

/-- The loop of `restore_job`; `restored` are the cards restored so far. -/
def restoreCards (jobId : Str) : List Str → List Str → Raising PowerRecords (List Str)
  | [], restored => pure restored
  | uuid :: uuids, restored => do
    let records ← Raising.read
    match records.original uuid with
    | none =>
      -- another job has put the card back
      Raising.modify (·.forget uuid jobId)
      restoreCards jobId uuids restored
    | some original =>
      match ← setLimit uuid original with
      | none => restoreCards jobId uuids restored
      | some _ =>
        Raising.modify (·.forget uuid jobId)
        restoreCards jobId uuids (restored ++ [uuid])

/-- `restore_job`. -/
def restoreJob (jobId : Str) : Raising PowerRecords (List Str) := do
  let records ← Raising.read
  restoreCards jobId (records.cardsOf jobId) []

/-- `original or limit`: zero counts as no original. -/
def orLimit (original : Option PyFloat) (limit : PyFloat) : PyFloat :=
  match original with
  | none => limit
  | some original => if original = .fin 0 then limit else original

/-- A watt number as `:.0f` shows it. -/
def wattsText : PyFloat → Str
  | .fin q =>
    let whole := PyFloat.roundEven q
    (if q < 0 then ['-'] else []) ++ natText whole.natAbs
  | .inf negative => if negative then "-inf".toList else "inf".toList
  | .nan => "nan".toList

/-- The loop of `apply_caps`. -/
def applyCards (jobId : Str) : List (Str × PyFloat) → Raising PowerRecords (Bool × Str)
  | [] => pure (true, [])
  | (uuid, requested) :: caps => do
    match ← Raising.await (readState uuid) with
    | none =>
      let _ ← restoreJob jobId
      return (false, uuid ++ ": could not read power state".toList)
    | some state =>
      let target := (requested.max state.minW).min state.maxW
      Raising.modify fun records =>
        records.rememberOriginal uuid (orLimit (records.original uuid) state.limitW) jobId
      match ← setLimit uuid target with
      | none =>
        let _ ← restoreJob jobId
        return (false, uuid ++ ": limit ".toList ++ wattsText target ++
          " W did not read back".toList)
      | some _ => applyCards jobId caps

/-- `apply_caps`. -/
def applyCaps (jobId : Str) (caps : Dict Str PyFloat) : Raising PowerRecords (Bool × Str) :=
  applyCards jobId caps

end ComputePool.Validator
