import ComputePool.Foundations.Json

/-!
# Failures and verdicts

`protocol/failures.py`: the classes of failure in the order of their weight, the verdict of one
check, and the worst failure of a list of verdicts. The table of meanings and the elapsed time of
a verdict are only printed, and are left out.
-/

namespace ComputePool.Protocol

open Text

/-- `FailureClass`, in the order of the source. -/
inductive FailureClass
  | sshTransport
  | agentCrash
  | challengeReject
  | specMismatch
  | unauthorisedWork
  | nestedContainer
  | duplicateUuid
  | versionStale
  deriving DecidableEq, Repr

/-- The position of a class in `list(FailureClass)`. -/
def FailureClass.index : FailureClass → ℕ
  | sshTransport => 0
  | agentCrash => 1
  | challengeReject => 2
  | specMismatch => 3
  | unauthorisedWork => 4
  | nestedContainer => 5
  | duplicateUuid => 6
  | versionStale => 7

/-- `Failure`. -/
structure Failure where
  kind : FailureClass
  detail : Str := []
  seed : Str := []
  evidence : Dict Str Json := []

/-- `Verdict`: what one check says. -/
structure Verdict where
  check : Str
  failure : Option Failure := none
  evidence : Dict Str Json := []

/-- `Verdict.passed`. -/
def Verdict.passed (v : Verdict) : Bool :=
  v.failure.isNone

/-- `min(failures, key=…)`: the first failure of the least index. -/
def leastFailure : Failure → List Failure → Failure
  | least, [] => least
  | least, f :: rest => leastFailure (if f.kind.index < least.kind.index then f else least) rest

/-- `worst`. -/
def worst (verdicts : List Verdict) : Option Failure :=
  match verdicts.filterMap (·.failure) with
  | [] => none
  | f :: rest => some (leastFailure f rest)

/-- Nothing is worst exactly when every verdict passed. -/
theorem worst_eq_none_iff {verdicts : List Verdict} :
    worst verdicts = none ↔ ∀ v ∈ verdicts, v.passed = true := by
  have hfailures : verdicts.filterMap (·.failure) = [] ↔ ∀ v ∈ verdicts, v.passed = true := by
    simp [List.filterMap_eq_nil_iff, Verdict.passed]
  rw [← hfailures, worst]
  cases verdicts.filterMap (·.failure) with
  | nil => simp
  | cons f rest => simp

end ComputePool.Protocol
