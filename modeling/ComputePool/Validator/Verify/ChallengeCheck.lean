import ComputePool.Challenge.Python
import ComputePool.Foundations.Fallible
import ComputePool.Foundations.Shlex
import ComputePool.Protocol.Failures
import ComputePool.Validator.Session.Runner
import ComputePool.Validator.Verify.Fernet

/-!
# The challenge check

`run` of `validator/verify/challenge.py`, with `ChallengeAnswer.from_payload` of
`protocol/messages.py` and `last_json_object` and `classify` of `validator/session/ssh.py`. A rig
is asked once for every card, and every answer goes through a chain of rejections. The times that
the validator takes itself are only printed, and are left out.

* `round_accepted`: what the chain lets through.
* `eachCard_accepted`: without a failure, it let through the answer of every card.
* `passed_sound_iff`: the numbers of these answers are within their bounds exactly when all of them
  are numbers.
-/

namespace ComputePool.Validator.Verify.ChallengeCheck

open Text Numeral Json Protocol

/-! ## The session -/

/-- `SshError`. -/
structure SshError where
  kind : FailureClass
  detail : Str

/-- `SshError.failure`. -/
def SshError.failure (e : SshError) (seed : Str) : Failure where
  kind := e.kind
  detail := e.detail
  seed := seed

/-- The exceptions that `run` raises. -/
inductive CheckExn
  | ssh (e : SshError)
  /-- `ChallengeUnavailable`. -/
  | unavailable (message : Str)
  | exn (e : Exn)

/-- What a rig does: the error of an upload, and the result of each of its commands in turn. -/
structure Rig where
  upload : Str → Option SshError
  reply : ℕ → Str → Except SshError CommandResult

/-- The loop of `last_json_object`, over the lines from the last one on. -/
def lastObject (loads : Str → Except Exn Json) : List Str → Except Exn (Option (Dict Str Json))
  | [] => .ok none
  | line :: lines =>
    let text := strip line
    if !startsWith text ['\x7b'] || !endsWith text ['\x7d'] then lastObject loads lines
    else match loads text with
      | .ok (.dict fields) => .ok (some fields)
      | .ok _ | .error .value => lastObject loads lines
      | .error e => .error e

/-- `last_json_object`. -/
def lastJsonObject (loads : Str → Except Exn Json) (stdout : Str) :
    Except Exn (Option (Dict Str Json)) :=
  lastObject loads (splitLines stdout).reverse

/-- `classify`. -/
def classify (result : CommandResult) (seed : Str) : Option Failure :=
  let stderr := Json.str (result.stderrTail 2048)
  if result.transportFailed then
    some { kind := .sshTransport, detail := result.error, seed }
  else if result.exitCode = 124 then
    some {
      kind := .agentCrash
      detail := if result.error ≠ [] then result.error else "the check timed out".toList
      seed
      evidence := [("stderr".toList, stderr)] }
  else if result.exitCode ≠ 0 then
    let tail := strip (result.stderrTail 2048)
    let reason :=
      if tail ≠ [] then tail
      else if result.error ≠ [] then result.error else "no output".toList
    some {
      kind := .agentCrash
      detail := ("exit ".toList ++ intText result.exitCode ++ ": ".toList ++ reason).take 600
      seed
      evidence := [("exit_code".toList, .int result.exitCode), ("stderr".toList, stderr)] }
  else none

/-! ## Requests and answers -/

/-- `ChallengeRequest`. -/
structure ChallengeRequest where
  seed : ℕ
  cipher : ℕ
  n : ℕ := 256
  rounds : ℕ := 2
  benchmarkN : ℕ := 2048
  iterations : ℕ := 32

/-- `ChallengeAnswer`. -/
structure ChallengeAnswer where
  digest : Str
  elapsedMs : PyFloat
  gops : PyFloat := .fin 0
  gbps : PyFloat := .fin 0
  benchmarkMs : PyFloat := .fin 0
  build : Str := []
  version : ℤ := 0
  error : Str := []

/-- `payload.get(key, default) or default`. -/
def fieldOr (payload : Dict Str Json) (key : String) (fallback : Json) : Json :=
  ((payload.get? key.toList).getD fallback).orElse fallback

/-- What is left of a conversion after `except (TypeError, ValueError)`. -/
def convertedOr {α : Type} (fallback : α) : Except Raised α → Except Exn α
  | .ok a => .ok a
  | .error .overflowError => .error .overflow
  | .error _ => .ok fallback

/-- `real` of `ChallengeAnswer.from_payload`. -/
def real (payload : Dict Str Json) (key : String) : Except Exn PyFloat :=
  convertedOr (.fin 0) (toFloat (fieldOr payload key (.float (.fin 0))))

/-- `ChallengeAnswer.from_payload`. -/
def ChallengeAnswer.fromPayload (p : Printer) (payload : Dict Str Json) :
    Except Exn ChallengeAnswer := do
  let version ← convertedOr 0 (toInt (fieldOr payload "version" (.int 0)))
  let elapsedMs ← real payload "elapsed_ms"
  let gops ← real payload "gops"
  let gbps ← real payload "gbps"
  let benchmarkMs ← real payload "benchmark_ms"
  return {
    digest := toStr p (fieldOr payload "digest" (.str []))
    elapsedMs, gops, gbps, benchmarkMs
    build := toStr p (fieldOr payload "build" (.str []))
    version
    error := toStr p (fieldOr payload "error" (.str [])) }

/-! ## Preparation -/

/-- `GOPS_FLOOR`. -/
def gopsFloor : Tier → ℚ
  | .entry => 50
  | .standard => 200
  | .professional => 400
  | .flagship => 1000

/-- `GBPS_FLOOR`. -/
def gbpsFloor : Tier → ℚ
  | .entry => 100
  | .standard => 300
  | .professional => 400
  | .flagship => 1000

/-- `MODE_LIBRARY` and `MODE_REFERENCE`. -/
inductive Mode
  | library
  | reference
  deriving DecidableEq, Repr

/-- The text of a mode. -/
def Mode.value : Mode → Str
  | .library => "library".toList
  | .reference => "reference".toList

/-- `Prepared`. -/
structure Prepared where
  mode : Mode
  librarySha256 : Str
  libraryArg : Str

/-- The settings of the validator, and what the check takes from elsewhere. -/
structure Settings where
  printer : Printer
  /-- `json.loads`; the exceptions it raises are `ValueError` and `RecursionError`. -/
  loads : Str → Except Exn Json
  sha : Fernet.Sha256
  /-- The interpreter on the rig. -/
  python : Str
  /-- The bytes of `agent_library`, if there is such a file, and its path. -/
  agentLibrary : Option Base64.Octets
  agentLibraryPath : Str
  allowReferenceChallenge : Bool
  challengeLibrary : Challenge.Python.VerifyLibrary
  challengeMaxMs : PyFloat

/-- `hashlib.sha256(data).hexdigest()`. -/
def Settings.hexdigest (settings : Settings) (data : Base64.Octets) : Str :=
  (settings.sha.digest data).flatMap fun byte => (Nat.toDigits 16 byte).leftpad 2 '0'

/-- `RUNNER_NAME`. -/
def runnerName : Str := "challenge_runner.py".toList

/-- `LIBRARY_NAME`. -/
def libraryName : Str := "libmtchallenge.so".toList

/-- An upload, which may raise. -/
def upload (rig : Rig) (path : Str) : Except CheckExn Unit :=
  match rig.upload path with
  | none => .ok ()
  | some e => .error (.ssh e)

/-- `prepare`. -/
def prepare (rig : Rig) (settings : Settings) (sessionDir : Str) : Except CheckExn Prepared := do
  upload rig (sessionDir ++ '/' :: runnerName)
  match settings.agentLibrary with
  | some raw =>
    let remote := sessionDir ++ '/' :: libraryName
    upload rig remote
    return ⟨.library, settings.hexdigest raw, remote⟩
  | none =>
    if settings.allowReferenceChallenge then return ⟨.reference, [], Mode.reference.value⟩
    else .error (.unavailable ("the miner challenge library ".toList ++ settings.agentLibraryPath ++
      " is missing and CV_ALLOW_REFERENCE_CHALLENGE is off".toList))

/-- What every round of the loop of `run` reads. -/
structure Context where
  rig : Rig
  settings : Settings
  sessionDir : Str
  request : ChallengeRequest
  tier : Option Tier
  prepared : Prepared
  expected : ℕ
  method : Challenge.Python.DigestOrigin

namespace Context

variable (c : Context)

/-- `tier or Tier.ENTRY`. -/
def chosenTier : Tier :=
  c.tier.getD .entry

/-- The seed as text. -/
def seed : Str :=
  natText c.request.seed

/-- `command_for`. -/
def commandFor (uuid : Str) : Str :=
  let parts := [Shlex.quote c.settings.python, "-I".toList, runnerName,
    Shlex.quote c.prepared.libraryArg] ++
    [c.request.seed, c.request.cipher, c.request.n, c.request.rounds, c.request.benchmarkN,
      c.request.iterations].map natText
  let pre :=
    if uuid ≠ [] then "CUDA_VISIBLE_DEVICES=".toList ++ Shlex.quote uuid ++ [' '] else []
  "cd ".toList ++ Shlex.quote c.sessionDir ++ " && ".toList ++ pre ++ Shlex.join parts

/-! ## One card -/

/-- A rejection. -/
def reject (uuid reason : Str) (evidence : Dict Str Json) : Failure where
  kind := .challengeReject
  detail := (if uuid ≠ [] then uuid else "gpu".toList) ++ ": ".toList ++ reason
  seed := c.seed
  evidence := evidence

/-- The lines of `run` about an answer that could be read: the entry of the card, and the failure if
there is one. -/
def judge (uuid : Str) (payload : Dict Str Json) (answer : ChallengeAnswer)
    (entry : Dict Str Json) : Dict Str Json × Option Failure :=
  let p := c.settings.printer
  let cipher := Json.str (natText c.request.cipher)
  let entry := [("elapsed_ms", Json.float answer.elapsedMs), ("gops", .float answer.gops),
      ("gbps", .float answer.gbps), ("benchmark_ms", .float answer.benchmarkMs),
      ("build", .str answer.build), ("version", .int answer.version),
      ("mode", .str (toStr p ((payload.get? "mode".toList).getD (.str []))))].foldl
    (fun entry item => entry.set item.1.toList item.2) entry
  -- the checks of an answer, in the order of the source: the first that fails decides
  if answer.error ≠ [] then
    (entry.set "error".toList (.str (answer.error.take 300)),
      some (c.reject uuid (answer.error.take 200) [("cipher".toList, cipher),
        ("uuid".toList, .str uuid)]))
  else
    let loaded := toStr p (fieldOr payload "library_sha256" (.str []))
    if c.prepared.mode = .library ∧ loaded ≠ c.prepared.librarySha256 then
      (entry.set "loaded_sha256".toList (.str loaded),
        some {
          kind := .versionStale
          detail := "the runner loaded a library that is not the one uploaded".toList
          seed := c.seed
          evidence := [("uploaded".toList, .str c.prepared.librarySha256),
            ("loaded".toList, .str loaded)] })
    else
      let digestOk := hexOf answer.digest = some (c.expected : ℤ)
      let entry := entry.set "digest_ok".toList (.bool digestOk)
      let measured := [("uuid".toList, .str uuid), ("cipher".toList, cipher),
        ("elapsed_ms".toList, Json.float answer.elapsedMs), ("gops".toList, .float answer.gops),
        ("gbps".toList, .float answer.gbps)]
      let gops := PyFloat.fin (gopsFloor c.chosenTier)
      let gbps := PyFloat.fin (gbpsFloor c.chosenTier)
      if ¬ digestOk then (entry, some (c.reject uuid "wrong digest".toList measured))
      else if c.settings.challengeMaxMs.lt answer.elapsedMs then
        (entry, some (c.reject uuid ("solved in ".toList ++ answer.elapsedMs.wholeText ++
          " ms, above ".toList ++ c.settings.challengeMaxMs.wholeText ++ " ms".toList) measured))
      -- only a library is held to a throughput
      else if c.prepared.mode = .library ∧ (answer.gops.lt gops ∨ answer.gbps.lt gbps) then
        (entry, some (c.reject uuid ("throughput ".toList ++ answer.gops.wholeText ++
          " GOPS and ".toList ++ answer.gbps.wholeText ++ " GB/s below the ".toList ++
          c.chosenTier.value ++ " floor of ".toList ++ gops.wholeText ++ " GOPS and ".toList ++
          gbps.wholeText ++ " GB/s".toList) measured))
      else (entry, none)

/-- What a round adds to the evidence and to the failures, and whether the loop ends with it. -/
structure Round where
  entry : Option (Dict Str Json)
  failure : Option Failure
  last : Bool

/-- One round of the loop of `run`. -/
def round (i : ℕ) (uuid : Str) : Except Exn Round :=
  match c.rig.reply i (c.commandFor uuid) with
  | .error e => .ok ⟨none, some (e.failure c.seed), true⟩
  | .ok result => do
    let parsed ← lastJsonObject c.settings.loads result.stdout
    let entry : Dict Str Json := [("uuid".toList, .str uuid)]
    -- the answer is parsed before the exit is looked at
    if result.transportFailed then
      return ⟨entry, some { kind := .sshTransport, detail := result.error, seed := c.seed }, true⟩
    match parsed with
    | none =>
      let crash := (classify result c.seed).getD {
        kind := .agentCrash
        detail := "the runner printed no answer".toList
        seed := c.seed }
      return ⟨entry.set "error".toList (.str (result.stderrTail 400)), crash, false⟩
    | some payload =>
      let answer ← ChallengeAnswer.fromPayload c.settings.printer payload
      let (entry, failure) := c.judge uuid payload answer entry
      return ⟨entry, failure, false⟩

/-! ## All cards -/

/-- The entries of the cards and the failures so far. -/
structure Tally where
  gpus : List (Dict Str Json) := []
  failures : List Failure := []

/-- What a round adds. -/
def Tally.add (tally : Tally) (r : Round) : Tally :=
  ⟨tally.gpus ++ r.entry.toList, tally.failures ++ r.failure.toList⟩

/-- The loop of `run`, after `i` rounds. -/
def eachCard : ℕ → List Str → Tally → Except Exn Tally
  | _, [], tally => .ok tally
  | i, uuid :: uuids, tally => do
    let r ← c.round i uuid
    if r.last then return tally.add r else eachCard (i + 1) uuids (tally.add r)

/-- The line about the cards. -/
def summary (targets : ℕ) (tally : Tally) : Str :=
  if tally.failures = [] then
    let gops (entry : Dict Str Json) : Str :=
      match entry.get? "gops".toList with
      | some (.float x) => x.wholeText ++ " GOPS".toList
      | _ => "0 GOPS".toList
    natText targets ++ " cards answered, ".toList ++
      ", ".toList.intercalate (tally.gpus.map gops)
  else
    let passed := tally.gpus.filter fun entry =>
      ((entry.get? "digest_ok".toList).getD .null).truthy
    natText passed.length ++ " of ".toList ++ natText targets ++ " cards answered in ".toList ++
      c.prepared.mode.value ++ " mode".toList

/-- The evidence of the verdict. -/
def evidence (targets : ℕ) (tally : Tally) : Dict Str Json :=
  [("seed".toList, .str c.seed), ("cipher".toList, .str (natText c.request.cipher)),
    ("n".toList, .int c.request.n), ("rounds".toList, .int c.request.rounds),
    ("benchmark_n".toList, .int c.request.benchmarkN),
    ("iterations".toList, .int c.request.iterations), ("mode".toList, .str c.prepared.mode.value),
    ("verified_with".toList, .str (match c.method with
      | .library => "library".toList
      | .reference => "reference".toList)),
    ("library_sha256".toList, .str c.prepared.librarySha256),
    ("floors".toList, .dict (if c.prepared.mode = .library then
      [("gops".toList, .float (.fin (gopsFloor c.chosenTier))),
        ("gbps".toList, .float (.fin (gbpsFloor c.chosenTier)))] else [])),
    ("gpus".toList, .list (tally.gpus.map .dict)),
    ("summary".toList, .str (c.summary targets tally))]

end Context

/-- `list(gpu_uuids) or [""]`. -/
def targetsOf (gpuUuids : List Str) : List Str :=
  if gpuUuids = [] then [[]] else gpuUuids

/-- `run`; `none` if the verify library leaves its memory. -/
def run (rig : Rig) (settings : Settings) (sessionDir : Str) (request : ChallengeRequest)
    (tier : Option Tier) (gpuUuids : List Str) : Option (Except CheckExn Verdict) :=
  -- neither the upload nor the expected digest is about a card, so they come first
  match prepare rig settings sessionDir with
  | .error e => some (.error e)
  | .ok prepared =>
    (Challenge.Python.expectedDigest settings.challengeLibrary request.seed request.cipher request.n
      request.rounds).map fun result =>
      match result with
      | .error message => .error (.unavailable message.toList)
      | .ok (expected, method) =>
        let c : Context := ⟨rig, settings, sessionDir, request, tier, prepared, expected, method⟩
        let targets := targetsOf gpuUuids
        match c.eachCard 0 targets {} with
        | .error e => .error (.exn e)
        | .ok tally => .ok {
            check := "challenge".toList
            failure := tally.failures.head?
            evidence := c.evidence targets.length tally }

/-! ## What the chain of rejections lets through -/

namespace Context

variable {c : Context}

/-- The rig answered for a card: its last line with an object, and what is read from it. -/
def Answered (c : Context) (i : ℕ) (uuid : Str) (payload : Dict Str Json)
    (answer : ChallengeAnswer) : Prop :=
  ∃ result, c.rig.reply i (c.commandFor uuid) = .ok result ∧
    lastJsonObject c.settings.loads result.stdout = .ok (some payload) ∧
    ChallengeAnswer.fromPayload c.settings.printer payload = .ok answer

/-- No rejection applies to an answer. -/
structure Accepted (c : Context) (payload : Dict Str Json) (answer : ChallengeAnswer) : Prop where
  digest : hexOf answer.digest = some (c.expected : ℤ)
  elapsed : ¬ c.settings.challengeMaxMs.lt answer.elapsedMs
  gops : c.prepared.mode = .library → ¬ answer.gops.lt (.fin (gopsFloor c.chosenTier))
  gbps : c.prepared.mode = .library → ¬ answer.gbps.lt (.fin (gbpsFloor c.chosenTier))
  loaded : c.prepared.mode = .library →
    toStr c.settings.printer (fieldOr payload "library_sha256" (.str [])) = c.prepared.librarySha256

/-- The answer is what the check is for: the digest and the library are right, and the numbers are
within their bounds. -/
structure Sound (c : Context) (payload : Dict Str Json) (answer : ChallengeAnswer) : Prop where
  digest : hexOf answer.digest = some (c.expected : ℤ)
  elapsed : answer.elapsedMs.le c.settings.challengeMaxMs
  gops : c.prepared.mode = .library → (PyFloat.fin (gopsFloor c.chosenTier)).le answer.gops
  gbps : c.prepared.mode = .library → (PyFloat.fin (gbpsFloor c.chosenTier)).le answer.gbps
  loaded : c.prepared.mode = .library →
    toStr c.settings.printer (fieldOr payload "library_sha256" (.str [])) = c.prepared.librarySha256

/-- The numbers that are compared are numbers. -/
structure Ordered (c : Context) (answer : ChallengeAnswer) : Prop where
  elapsed : answer.elapsedMs ≠ .nan
  maxMs : c.settings.challengeMaxMs ≠ .nan
  gops : c.prepared.mode = .library → answer.gops ≠ .nan
  gbps : c.prepared.mode = .library → answer.gbps ≠ .nan

/-- An answer that is let through is sound if its numbers are numbers, and only then. -/
theorem Accepted.sound_iff {payload : Dict Str Json} {answer : ChallengeAnswer}
    (h : c.Accepted payload answer) : c.Sound payload answer ↔ c.Ordered answer := by
  constructor
  · intro hsound
    have helapsed := PyFloat.le_iff.mp hsound.elapsed
    exact ⟨helapsed.1, helapsed.2.1, fun hmode => (PyFloat.le_iff.mp (hsound.gops hmode)).2.1,
      fun hmode => (PyFloat.le_iff.mp (hsound.gbps hmode)).2.1⟩
  · intro hordered
    refine ⟨h.digest, PyFloat.le_iff.mpr ⟨hordered.elapsed, hordered.maxMs, h.elapsed⟩, ?_, ?_,
      h.loaded⟩
    · exact fun hmode => PyFloat.le_iff.mpr ⟨nofun, hordered.gops hmode, h.gops hmode⟩
    · exact fun hmode => PyFloat.le_iff.mpr ⟨nofun, hordered.gbps hmode, h.gbps hmode⟩

/-- The six ways through the chain: only the last one has no failure. -/
theorem judge_accepted {uuid : Str} {payload entry : Dict Str Json} {answer : ChallengeAnswer}
    (h : (c.judge uuid payload answer entry).2 = none) : c.Accepted payload answer := by
  unfold judge at h
  dsimp only at h
  split_ifs at h with herror hlibrary hdigest helapsed hfloor
  simp only [not_and, not_or, not_not] at hlibrary hfloor
  exact ⟨hdigest, helapsed, fun hmode => (hfloor hmode).1, fun hmode => (hfloor hmode).2, hlibrary⟩

/-- A round without a failure has an answer that is let through, and the loop goes on. -/
theorem round_accepted {i : ℕ} {uuid : Str} {r : Round} (h : c.round i uuid = .ok r)
    (hclean : r.failure = none) :
    r.last = false ∧ ∃ payload answer, c.Answered i uuid payload answer ∧
      c.Accepted payload answer := by
  -- each way out with a failure is ruled out; what remains is the last one
  unfold round at h
  split at h
  · next e hreply =>
    obtain rfl := Except.ok.inj h
    exact absurd hclean (by simp)
  · next result hreply =>
    obtain ⟨parsed, hparsed, h⟩ := Fallible.bind_eq_ok.mp h
    split_ifs at h with htransport
    · obtain rfl := Except.ok.inj h
      exact absurd hclean (by simp)
    · cases parsed with
      | none =>
        obtain rfl := Except.ok.inj h
        exact absurd hclean (by simp)
      | some payload =>
        obtain ⟨answer, hanswer, h⟩ := Fallible.bind_eq_ok.mp h
        obtain rfl := Except.ok.inj h
        exact ⟨rfl, payload, answer, ⟨result, hreply, hparsed, hanswer⟩, judge_accepted hclean⟩

/-- Without a failure at the end, the answers of all cards were let through, and there was no
failure before. -/
theorem eachCard_accepted {i : ℕ} {uuids : List Str} {tally final : Tally}
    (h : c.eachCard i uuids tally = .ok final) (hclean : final.failures = []) :
    tally.failures = [] ∧ ∀ j uuid, uuids[j]? = some uuid → ∃ payload answer,
      c.Answered (i + j) uuid payload answer ∧ c.Accepted payload answer := by
  induction uuids generalizing i tally with
  | nil =>
    obtain rfl : tally = final := by simpa [eachCard] using h
    exact ⟨hclean, by simp⟩
  | cons uuid uuids ih =>
    rw [eachCard] at h
    obtain ⟨r, hround, h⟩ := Fallible.bind_eq_ok.mp h
    have hbefore {t : Tally} (ht : t.failures ++ r.failure.toList = []) :
        t.failures = [] ∧ r.failure = none := by
      simpa using ht
    split_ifs at h with hlast
    · obtain rfl := Except.ok.inj h
      -- a round that ends the loop has a failure
      have hnext := round_accepted hround (hbefore hclean).2
      rw [hnext.1] at hlast
      exact Bool.noConfusion hlast
    · obtain ⟨hadded, hrest⟩ := ih h
      obtain ⟨htally, hfailure⟩ := hbefore hadded
      refine ⟨htally, fun j uuid' huuid' => ?_⟩
      cases j with
      | zero =>
        obtain rfl : uuid = uuid' := by simpa using huuid'
        exact (round_accepted hround hfailure).2
      | succ j =>
        rw [← Nat.add_assoc, Nat.add_right_comm]
        exact hrest j uuid' (by simpa using huuid')

/-! ## The entries of the cards -/

/-- The entry of a card says that its answer had the expected digest, and it had. -/
def Vouched (c : Context) (uuid : Str) (entry : Dict Str Json) : Prop :=
  entry.get? "uuid".toList = some (.str uuid) ∧
    entry.get? "digest_ok".toList = some (.bool true) ∧
    ∃ i payload answer, c.Answered i uuid payload answer ∧
      hexOf answer.digest = some (c.expected : ℤ)

/-- The entry keeps the uuid that it starts with, and without a failure it is marked. -/
theorem judge_entry {uuid : Str} {payload : Dict Str Json} {answer : ChallengeAnswer}
    (h : (c.judge uuid payload answer [("uuid".toList, .str uuid)]).2 = none) :
    let entry := (c.judge uuid payload answer [("uuid".toList, .str uuid)]).1
    entry.get? "uuid".toList = some (.str uuid) ∧
      entry.get? "digest_ok".toList = some (.bool true) := by
  have hdigest := (judge_accepted h).digest
  unfold judge at h ⊢
  dsimp only at h ⊢
  split_ifs at h ⊢
  simp only [List.foldl_cons, List.foldl_nil, Dict.get?_set, Dict.get?_cons, hdigest]
  exact ⟨by simp, by simp⟩

/-- So the round of a card without a failure has an entry that vouches for it. -/
theorem round_vouched {i : ℕ} {uuid : Str} {r : Round} (h : c.round i uuid = .ok r)
    (hclean : r.failure = none) : ∃ entry, r.entry = some entry ∧ c.Vouched uuid entry := by
  obtain ⟨-, payload, answer, hanswered, haccepted⟩ := round_accepted h hclean
  obtain ⟨result, hreply, hobject, hanswer⟩ := hanswered
  -- the round in which the answer was accepted is the one that made the entry
  simp only [round, hreply, hobject] at h
  obtain ⟨parsed, hparsed, h⟩ := Fallible.bind_eq_ok.mp h
  obtain rfl := Except.ok.inj hparsed
  split_ifs at h with htransport
  · obtain rfl := Except.ok.inj h
    exact nomatch hclean
  · obtain ⟨answer', hanswer', h⟩ := Fallible.bind_eq_ok.mp h
    obtain rfl := Except.ok.inj (hanswer.symm.trans hanswer')
    obtain rfl := Except.ok.inj h
    obtain ⟨huuid, hdigest⟩ := judge_entry hclean
    exact ⟨_, rfl, huuid, hdigest, i, payload, answer, ⟨result, hreply, hobject, hanswer⟩,
      haccepted.digest⟩

/-- The entries of the rounds before stay, and every card gets one that vouches for it. -/
theorem eachCard_vouched {i : ℕ} {uuids : List Str} {tally final : Tally}
    (h : c.eachCard i uuids tally = .ok final) (hclean : final.failures = []) :
    (∀ entry ∈ tally.gpus, entry ∈ final.gpus) ∧
      ∀ uuid ∈ uuids, ∃ entry ∈ final.gpus, c.Vouched uuid entry := by
  induction uuids generalizing i tally with
  | nil =>
    obtain rfl : tally = final := by simpa [eachCard] using h
    exact ⟨fun entry hentry => hentry, by simp⟩
  | cons uuid uuids ih =>
    rw [eachCard] at h
    obtain ⟨r, hround, h⟩ := Fallible.bind_eq_ok.mp h
    split_ifs at h with hlast
    · obtain rfl := Except.ok.inj h
      -- a round that ends the loop has a failure
      have hfailure : r.failure = none := by
        have hadded : tally.failures ++ r.failure.toList = [] := hclean
        simpa using (List.append_eq_nil_iff.mp hadded).2
      rw [(round_accepted hround hfailure).1] at hlast
      exact Bool.noConfusion hlast
    · obtain ⟨hkept, hrest⟩ := ih h
      have hfailure : r.failure = none := by
        have hadded : tally.failures ++ r.failure.toList = [] := (eachCard_accepted h hclean).1
        simpa using (List.append_eq_nil_iff.mp hadded).2
      obtain ⟨entry, hentry, hvouched⟩ := round_vouched hround hfailure
      refine ⟨fun e he => hkept e (List.mem_append_left _ he), fun uuid' huuid' => ?_⟩
      rcases List.mem_cons.mp huuid' with rfl | huuid'
      · exact ⟨entry, hkept entry (by simp [Tally.add, hentry]), hvouched⟩
      · exact hrest uuid' huuid'

/-- A rig gives one answer for a card. -/
theorem Answered.unique {i : ℕ} {uuid : Str} {payload payload' : Dict Str Json}
    {answer answer' : ChallengeAnswer} (h : c.Answered i uuid payload answer)
    (h' : c.Answered i uuid payload' answer') : payload = payload' ∧ answer = answer' := by
  obtain ⟨result, hreply, hobject, hanswer⟩ := h
  obtain ⟨result', hreply', hobject', hanswer'⟩ := h'
  rw [hreply] at hreply'
  obtain rfl := Except.ok.inj hreply'
  rw [hobject] at hobject'
  obtain rfl := Option.some.inj (Except.ok.inj hobject')
  rw [hanswer] at hanswer'
  exact ⟨rfl, Except.ok.inj hanswer'⟩

variable (c) in
/-- The run of the check for a prepared rig and an expected digest. -/
theorem run_eq {gpuUuids : List Str}
    (hprepared : prepare c.rig c.settings c.sessionDir = .ok c.prepared)
    (hexpected : Challenge.Python.expectedDigest c.settings.challengeLibrary c.request.seed
      c.request.cipher c.request.n c.request.rounds = some (.ok (c.expected, c.method))) :
    run c.rig c.settings c.sessionDir c.request c.tier gpuUuids =
      some (match c.eachCard 0 (targetsOf gpuUuids) {} with
        | .error e => .error (.exn e)
        | .ok tally => .ok {
            check := "challenge".toList
            failure := tally.failures.head?
            evidence := c.evidence (targetsOf gpuUuids).length tally }) := by
  rw [run, hprepared]
  dsimp only
  rw [hexpected]
  rfl

/-- **A verdict without a failure is sound up to not-a-number.** When the check passes, the answer
of every card has the expected digest, its numbers are within their bounds and, in library mode, it
comes from the library that was uploaded, if and only if none of the numbers compared is
not-a-number. -/
theorem passed_sound_iff {gpuUuids : List Str} {verdict : Verdict}
    (hprepared : prepare c.rig c.settings c.sessionDir = .ok c.prepared)
    (hexpected : Challenge.Python.expectedDigest c.settings.challengeLibrary c.request.seed
      c.request.cipher c.request.n c.request.rounds = some (.ok (c.expected, c.method)))
    (hrun : run c.rig c.settings c.sessionDir c.request c.tier gpuUuids = some (.ok verdict))
    (hpassed : verdict.failure = none) :
    (∀ i uuid, (targetsOf gpuUuids)[i]? = some uuid → ∃ payload answer,
      c.Answered i uuid payload answer ∧ c.Sound payload answer) ↔
    ∀ i uuid, (targetsOf gpuUuids)[i]? = some uuid → ∀ payload answer,
      c.Answered i uuid payload answer → c.Ordered answer := by
  -- every card has an answer that was let through
  have haccepted : ∀ i uuid, (targetsOf gpuUuids)[i]? = some uuid → ∃ payload answer,
      c.Answered i uuid payload answer ∧ c.Accepted payload answer := by
    rw [c.run_eq hprepared hexpected] at hrun
    cases htally : c.eachCard 0 (targetsOf gpuUuids) {} with
    | error e =>
      rw [htally] at hrun
      simp at hrun
    | ok tally =>
      rw [htally, Option.some.injEq] at hrun
      have hverdict := Except.ok.inj hrun
      have hclean : tally.failures = [] := by
        rw [← List.head?_eq_none_iff]
        exact (congrArg Verdict.failure hverdict).trans hpassed
      simpa using (eachCard_accepted htally hclean).2
  constructor
  · intro hsound i uuid huuid payload answer hanswered
    obtain ⟨payload', answer', hanswered', hsound'⟩ := hsound i uuid huuid
    obtain ⟨payload'', answer'', hanswered'', haccepted''⟩ := haccepted i uuid huuid
    obtain ⟨rfl, rfl⟩ := hanswered.unique hanswered'
    obtain ⟨rfl, rfl⟩ := hanswered.unique hanswered''
    exact haccepted''.sound_iff.mp hsound'
  · intro hordered i uuid huuid
    obtain ⟨payload, answer, hanswered, haccepted'⟩ := haccepted i uuid huuid
    exact ⟨payload, answer, hanswered,
      haccepted'.sound_iff.mpr (hordered i uuid huuid payload answer hanswered)⟩

/-- When the check passes, its evidence vouches for every card that was asked. -/
theorem passed_vouched {rig : Rig} {settings : Settings} {sessionDir : Str}
    {request : ChallengeRequest} {tier : Option Tier} {gpuUuids : List Str} {verdict : Verdict}
    (hrun : run rig settings sessionDir request tier gpuUuids = some (.ok verdict))
    (hpassed : verdict.failure = none) :
    verdict.check = "challenge".toList ∧ ∃ c : Context, c.rig = rig ∧ c.settings = settings ∧
      c.sessionDir = sessionDir ∧ c.request = request ∧
      prepare rig settings sessionDir = .ok c.prepared ∧
      Challenge.Python.expectedDigest settings.challengeLibrary request.seed request.cipher
        request.n request.rounds = some (.ok (c.expected, c.method)) ∧
      ∃ entries : List (Dict Str Json),
        verdict.evidence.get? "gpus".toList = some (.list (entries.map .dict)) ∧
        ∀ uuid ∈ targetsOf gpuUuids, ∃ entry ∈ entries, c.Vouched uuid entry := by
  unfold run at hrun
  split at hrun
  · simp at hrun
  · next prepared hprepared =>
    obtain ⟨result, hresult, hrun⟩ := Option.map_eq_some_iff.mp hrun
    split at hrun
    · simp at hrun
    · next expected method =>
      dsimp only at hrun
      split at hrun
      · simp at hrun
      · next tally htally =>
        obtain rfl := Except.ok.inj hrun
        -- the failure of the verdict is the first of all rounds
        have hclean : tally.failures = [] := List.head?_eq_none_iff.mp hpassed
        refine ⟨rfl, _, rfl, rfl, rfl, rfl, hprepared, hresult, tally.gpus, ?_,
          (eachCard_vouched htally hclean).2⟩
        simp [evidence, Dict.get?_cons]

end Context

/-- The digest of the challenge on one number with seed 1 and cipher 2, as the runner prints it. -/
def sampleDigest : Str := "4a21e9039ed4d1fc".toList

/-- A rig that prints a line for every card. -/
def printingRig (line : Str) : Rig where
  upload _ := none
  reply _ _ := .ok { exitCode := 0, stdout := line }

/-- A validator without libraries that reads a line as the digest and an elapsed time. -/
def readingSettings (line : Str) (elapsedMs : PyFloat) : Settings where
  printer := asciiPrinter
  loads text := if text = line then
      .ok (.dict [("digest".toList, .str sampleDigest), ("elapsed_ms".toList, .float elapsedMs)])
    else .error .value
  sha := Fernet.sha256
  python := "python3".toList
  agentLibrary := none
  agentLibraryPath := "libmtchallenge.so".toList
  allowReferenceChallenge := true
  challengeLibrary := .absent
  challengeMaxMs := .fin 15000

/-- The check of such a rig, in reference mode. -/
def readingContext (line : Str) (elapsedMs : PyFloat) : Context where
  rig := printingRig line
  settings := readingSettings line elapsedMs
  sessionDir := "/tmp/s".toList
  request := { seed := 1, cipher := 2, n := 1, rounds := 1 }
  tier := none
  prepared := ⟨.reference, [], Mode.reference.value⟩
  expected := 0x4a21e9039ed4d1fc
  method := .reference

/-- What a rig prints that takes 120 ms. -/
def promptLine : Str :=
  "\x7b\x22digest\x22: \x224a21e9039ed4d1fc\x22, \x22elapsed_ms\x22: 120.0\x7d".toList

/-- What a rig prints that does not say how long it takes. -/
def nanLine : Str :=
  "\x7b\x22digest\x22: \x224a21e9039ed4d1fc\x22, \x22elapsed_ms\x22: NaN\x7d".toList

theorem prepare_readingContext (line : Str) (elapsedMs : PyFloat) :
    let c := readingContext line elapsedMs
    prepare c.rig c.settings c.sessionDir = .ok c.prepared := rfl

/-- The digest that the sample context expects. -/
theorem expectedDigest_readingContext (line : Str) (elapsedMs : PyFloat) :
    let c := readingContext line elapsedMs
    Challenge.Python.expectedDigest c.settings.challengeLibrary c.request.seed c.request.cipher
      c.request.n c.request.rounds = some (.ok (c.expected, c.method)) := by
  have hdigest : Challenge.Python.referenceDigest 1 2 1 1 = 0x4a21e9039ed4d1fc := by decide +kernel
  show some (Except.ok (Challenge.Python.referenceDigest 1 2 1 1, _)) = _
  rw [hdigest]
  rfl

/-- The check ends with a verdict without a failure. -/
def passes (outcome : Option (Except CheckExn Verdict)) : Bool :=
  match outcome with
  | some (.ok verdict) => verdict.passed
  | _ => false

/-- A check that passes has a verdict without a failure. -/
theorem exists_verdict {outcome : Option (Except CheckExn Verdict)} (h : passes outcome) :
    ∃ verdict, outcome = some (.ok verdict) ∧ verdict.failure = none := by
  unfold passes at h
  split at h
  · next verdict => exact ⟨verdict, rfl, by simpa [Verdict.passed] using h⟩
  · exact Bool.noConfusion h

/-- What the validator reads from the line of such a rig. -/
theorem answered_readingContext {line : Str} {elapsedMs : PyFloat} {answer : ChallengeAnswer}
    (hlines : splitLines line = [line]) (hstrip : strip line = line)
    (hopen : startsWith line ['\x7b']) (hclose : endsWith line ['\x7d'])
    (hanswer : ChallengeAnswer.fromPayload asciiPrinter
      [("digest".toList, .str sampleDigest), ("elapsed_ms".toList, .float elapsedMs)] = .ok answer)
    (i : ℕ) (uuid : Str) :
    (readingContext line elapsedMs).Answered i uuid
      [("digest".toList, .str sampleDigest), ("elapsed_ms".toList, .float elapsedMs)] answer := by
  refine ⟨{ exitCode := 0, stdout := line }, rfl, ?_, hanswer⟩
  have hloads : (readingContext line elapsedMs).settings.loads line = .ok (.dict
      [("digest".toList, .str sampleDigest), ("elapsed_ms".toList, .float elapsedMs)]) :=
    if_pos rfl
  show lastObject _ (splitLines line).reverse = _
  rw [hlines, List.reverse_singleton, lastObject, hstrip, hopen, hclose, hloads]
  rfl

theorem passed_sound_iff_prompt :
    let c := readingContext promptLine (.fin 120)
    ∃ verdict, run c.rig c.settings c.sessionDir c.request c.tier ["GPU-a".toList] =
        some (.ok verdict) ∧ verdict.failure = none ∧
      ∀ i uuid, (targetsOf ["GPU-a".toList])[i]? = some uuid → ∃ payload answer,
        c.Answered i uuid payload answer ∧ c.Sound payload answer := by
  intro c
  have hpasses : passes (run c.rig c.settings c.sessionDir c.request c.tier ["GPU-a".toList]) := by
    decide +kernel
  obtain ⟨verdict, hrun, hpassed⟩ := exists_verdict hpasses
  refine ⟨verdict, hrun, hpassed, (Context.passed_sound_iff (prepare_readingContext _ _)
    (expectedDigest_readingContext _ _) hrun hpassed).mpr ?_⟩
  intro i uuid _ payload answer hanswered
  -- what the card printed is read back as this answer
  have hread : ChallengeAnswer.fromPayload asciiPrinter [("digest".toList, .str sampleDigest),
      ("elapsed_ms".toList, .float (.fin 120))] =
        .ok { digest := sampleDigest, elapsedMs := .fin 120 } := by
    rfl
  obtain ⟨rfl, rfl⟩ := hanswered.unique (answered_readingContext (by decide +kernel)
    (by decide +kernel) (by decide +kernel) (by decide +kernel) hread i uuid)
  exact ⟨nofun, nofun, nofun, nofun⟩

/-- The time is not a number, and the check passes. -/
theorem nan_elapsed_passes :
    let c := readingContext nanLine .nan
    ∃ verdict, run c.rig c.settings c.sessionDir c.request c.tier ["GPU-a".toList] =
        some (.ok verdict) ∧ verdict.failure = none ∧
      ∃ payload answer, c.Answered 0 "GPU-a".toList payload answer ∧
        ¬ answer.elapsedMs.le c.settings.challengeMaxMs := by
  intro c
  have hpasses : passes (run c.rig c.settings c.sessionDir c.request c.tier ["GPU-a".toList]) := by
    decide +kernel
  obtain ⟨verdict, hrun, hpassed⟩ := exists_verdict hpasses
  -- `NaN` is a number to `json.loads`
  have hread : ChallengeAnswer.fromPayload asciiPrinter [("digest".toList, .str sampleDigest),
      ("elapsed_ms".toList, .float .nan)] = .ok { digest := sampleDigest, elapsedMs := .nan } := by
    rfl
  refine ⟨verdict, hrun, hpassed, _, _, answered_readingContext (by decide +kernel)
    (by decide +kernel) (by decide +kernel) (by decide +kernel) hread 0 _, ?_⟩
  decide

end ComputePool.Validator.Verify.ChallengeCheck
