import ComputePool.Validator.Scoring.LocalScores
import ComputePool.Validator.Session.Client

/-!
# The version check

`validator/verify/version.py`: the numbers of the version an agent reports are compared with those
of the least version the pool accepts. A text without a number sets no limit. The numbers are found
as `parse_version` of the scoring finds them.
-/

namespace ComputePool.Validator.Verify.Version

open Text Numeral Protocol
open Json (Printer Raised)

/-- `int(part)`, of a run of digits. -/
def numberOf (part : Str) : Except Raised ℤ :=
  match intOf part with
  | some n => .ok n
  | none => .error .valueError

/-- `parse`. -/
def parse (text : Str) : Except Raised (List ℤ) :=
  ((numbersFrom [] text).take 3).mapM numberOf

/-- `stale`. -/
def stale (agentVersion minimum : Str) : Except Raised Bool := do
  let floor ← parse minimum
  if floor = [] then return false
  return (← parse agentVersion) < floor

/-- The evidence of the check. -/
def evidenceOf (agentVersion minimum : Str) : Dict Str Json :=
  [("agent_version".toList, .str agentVersion), ("minimum".toList, .str minimum),
    ("summary".toList, .str (if agentVersion ≠ [] then agentVersion else "unknown".toList))]

/-- The verdict on a version that is too old, or on none. -/
def staleVerdict (agentVersion minimum seed detail : Str) : Verdict where
  check := "version".toList
  failure := some { kind := .versionStale, detail, seed }
  evidence := evidenceOf agentVersion minimum

/-- `check`. -/
def check (agentVersion minimum seed : Str) : Except Raised Verdict := do
  if agentVersion = [] then
    return staleVerdict agentVersion minimum seed "the agent reports no version".toList
  if ← stale agentVersion minimum then
    return staleVerdict agentVersion minimum seed
      ("agent ".toList ++ agentVersion ++ " is below the minimum ".toList ++ minimum)
  return { check := "version".toList, evidence := evidenceOf agentVersion minimum }

/-- `str(answer.get("version", "") or "")`. -/
def reported (p : Printer) (answer : Dict Str Json) : Str :=
  (Json.field answer "version" (.str [])).textOr p

/-- `fetch`, given what the agent answers to `/version`. -/
def fetch (p : Printer) (answer : Except AgentError (Dict Str Json)) (minimum seed : Str) :
    Except Raised (Verdict × Dict Str Json) :=
  match answer with
  | .error e => .ok ({
      check := "version".toList
      failure := some (e.failure seed)
      evidence := [("summary".toList, .str (e.detail.take 120))] }, [])
  | .ok answer => do return (← check (reported p answer) minimum seed, answer)

/-- Whatever the versions are, the verdict is one on the version. -/
theorem check_check {agentVersion minimum seed : Str} {verdict : Verdict}
    (h : check agentVersion minimum seed = .ok verdict) : verdict.check = "version".toList := by
  unfold check at h
  split_ifs at h
  · obtain rfl := Except.ok.inj h
    rfl
  · obtain ⟨old, -, h⟩ := Fallible.bind_eq_ok.mp h
    split_ifs at h
    · obtain rfl := Except.ok.inj h
      rfl
    · obtain rfl := Except.ok.inj h
      rfl

/-- So it is when the agent had to be asked. -/
theorem fetch_check {p : Printer} {answer : Except AgentError (Dict Str Json)} {minimum seed : Str}
    {verdict : Verdict} {payload : Dict Str Json}
    (h : fetch p answer minimum seed = .ok (verdict, payload)) :
    verdict.check = "version".toList := by
  unfold fetch at h
  split at h
  · obtain ⟨rfl, -⟩ := Prod.mk.inj (Except.ok.inj h)
    rfl
  · obtain ⟨found, hfound, h⟩ := Fallible.bind_eq_ok.mp h
    obtain ⟨rfl, -⟩ := Prod.mk.inj (Except.ok.inj h)
    exact check_check hfound

example : parse "v1.12.3-rc4".toList = .ok [1, 12, 3] := by decide +kernel

end ComputePool.Validator.Verify.Version
