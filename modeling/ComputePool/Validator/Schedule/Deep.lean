import Mathlib.Data.List.ReduceOption
import ComputePool.Validator.Recovery.GpuWedge
import ComputePool.Validator.Verify.Exclusivity
import ComputePool.Validator.Verify.HostReality
import ComputePool.Validator.Verify.ScrapeCheck
import ComputePool.Validator.Verify.Specs
import ComputePool.Validator.Verify.Version

/-!
# The deep pass

`DeepPass.verify` of `validator/schedule/deep.py`: the checks of one rig in their order, with the
early exits between them, and the outcome that is made of their verdicts. What the rig does is a
value of `Replies`: the answers of its agent, the errors of uploads and the results of the commands,
each one for itself.

The times of an outcome are only printed, and are left out; so are the commands and calls at the end
whose results nobody looks at (`rm -rf` on the session directory, `/session/close`).

* `inSession_clean`: what a session adds to the verdicts when none of them is a failure.
* `passed_ran_everything`: a pass that succeeds ran every check, saw every enrolled card and had
  each of them solve the challenge.
-/

namespace ComputePool.Validator.DeepPass

open Text Base64 Protocol Verify
open Json (Printer Raised field)
open ChallengeCheck (SshError Settings ChallengeRequest classify lastJsonObject)

/-! ## What the rig does -/

/-- The places of a session at which a command is sent. -/
inductive Step
  | makeDir
  | hostReality
  | challenge (i : ℕ)
  | inspector
  | containers

/-- What a rig does in a pass. -/
structure Replies where
  /-- The answer of the agent to `/version`. -/
  version : Except AgentError (Dict Str Json)
  /-- Its answer to `/session/open`. -/
  opened : Except AgentError (Dict Str Json)
  /-- The error of the connection. -/
  connect : Option SshError
  /-- The error of the upload to a path. -/
  upload : Str → Option SshError
  run : Step → Str → CommandResult
  /-- The result of the scrape, a command that is given an input. -/
  scrape : Str → Str → CommandResult
  /-- What the sweep for wedged cards ends with. -/
  wedge : GpuWedge.SweepResult

/-- The rig as the challenge meets it. -/
def Replies.challengeRig (r : Replies) : ChallengeCheck.Rig where
  upload := r.upload
  reply i command := .ok (r.run (.challenge i) command)

/-- The validator: its settings, and what it draws for a pass. -/
structure Pass where
  settings : Settings
  reader : ScrapeCheck.Reader
  prepared : Scrape.Obfuscated
  nonce : Str
  /-- The secret of the inspector, in hexadecimal. -/
  secret : Str
  request : ChallengeRequest

/-! ## Outcomes -/

/-- `Outcome`. -/
structure Outcome where
  rigId : Str
  hotkey : Str
  seed : Str
  verdicts : List Verdict := []
  detail : Dict Str Json := []
  failure : Option Failure := none

namespace Outcome

/-- `Outcome.passed`. -/
def passed (o : Outcome) : Bool :=
  o.failure.isNone

/-- `verdicts.append(verdict)`. -/
def add (o : Outcome) (verdict : Verdict) : Outcome :=
  { o with verdicts := o.verdicts ++ [verdict] }

/-- `detail[key] = value`. -/
def note (o : Outcome) (key : String) (value : Json) : Outcome :=
  { o with detail := o.detail.set key.toList value }

/-- `failing_check`: the first verdict with the worst failure. -/
def failingCheck (o : Outcome) : Str :=
  match o.failure with
  | none => []
  | some f =>
    ((o.verdicts.find? fun v => v.failure.map (·.kind) = some f.kind).map (·.check)).getD []

/-- `finish`. -/
def finish (o : Outcome) : Outcome :=
  let o := { o with failure := worst o.verdicts }
  (o.note "reason" (.str ((o.failure.map (·.detail)).getD []))).note "failing_check"
    (.str o.failingCheck)

end Outcome

/-- `owner_of`. -/
def ownerOf (p : Printer) (rig : Dict Str Json) : Str :=
  (((field rig "hotkey" (.str [])).orElse (field rig "id" (.str []))).orElse (.str [])).toStr p

/-- `trimmed_host`. -/
def trimmedHost (host : Dict Str Json) : Json :=
  let keep := ["init_root_differs", "init_os_release_readable", "init_hostname", "init_comm",
    "init_cgroup", "detect_virt", "dmi", "kernel", "boot_id", "machine_id",
    "init_environ_container", "dockerenv", "host_dockerenv"].map String.toList
  .dict (keep.filterMap fun key => (host.get? key).map fun value => (key, value))

/-- The keys of a card that `trimmed_scrape` keeps. -/
def cardKeys : List Str :=
  ["index", "name", "uuid", "memory_total_mb", "memory_used_mb", "compute_capability",
    "power_limit_w", "power_default_w", "utilization", "memory_utilization", "mig_mode",
    "virtualization", "pci_bus_id", "minor", "errors"].map String.toList

/-- `{key: value.get(key) for key in keys}`. -/
def copied (value : Json) (keys : List String) : Except Raised (Dict Str Json) :=
  keys.mapM fun key => do return (key.toList, ← value.get key.toList .null)

/-- `trimmed_scrape`. -/
def trimmedScrape (data : Dict Str Json) : Except Raised Json := do
  -- `or {}`: a falsy value stands for an empty dictionary, any other is taken as it is
  let nvml := (field data "nvml" .null).orElse (.dict [])
  let host := (field data "host" .null).orElse (.dict [])
  let probes := (field data "probes" .null).orElse (.dict [])
  let driver ← copied nvml ["driver", "cuda", "nvml_version"]
  let nvmlErrors ← nvml.get "errors".toList .null
  let sysbox ← ScrapeCheck.part probes "sysbox"
  let sysboxOk ← sysbox.get "ok".toList .null
  let sysboxItems ← sysbox.items
  let quota ← ScrapeCheck.part probes "storage_quota"
  let quotaOk ← quota.get "ok".toList .null
  let probed ← copied probes ["idmapped", "image"]
  let hosted ← copied host ["cpu", "memory", "disk", "os", "boot_id", "uptime_seconds",
    "nvidia_devices"]
  let cards := (ScrapeCheck.cardsIn data).map fun card => Json.dict (card.filter (·.1 ∈ cardKeys))
  return .dict (driver ++ [("nvml_errors".toList, nvmlErrors),
    ("hashes".toList, field data "hashes" .null),
    ("docker".toList, field data "docker" .null),
    ("probes".toList, .dict ([("sysbox".toList, sysboxOk),
      ("sysbox_detail".toList, .dict (sysboxItems.filter (·.1 ≠ "stdout".toList))),
      ("storage_quota".toList, quotaOk)] ++ probed)),
    ("host".toList, .dict hosted),
    ("gpus".toList, .list cards),
    ("elapsed_ms".toList, field data "elapsed_ms" .null)])

/-- `[str(card.get("uuid", "")) for card in data.get("gpus") or [] if card.get("uuid")]`. -/
def uuidsOf (p : Printer) (data : Dict Str Json) : Except Raised (List Str) := do
  let cards ← ((field data "gpus" .null).orElse (.list [])).iter
  let uuids ← cards.mapM fun card => do
    let uuid ← card.get "uuid".toList .null
    return if uuid.truthy then some (uuid.toStr p) else none
  return uuids.reduceOption

/-! ## The session -/

/-- A verdict with a broken connection as its failure. -/
def cutOff (verdict : Verdict) : Bool :=
  verdict.failure.any (·.kind = .sshTransport)

/-- `hmac.compare_digest(a, b)`, for a text `a` in ASCII. -/
def compareDigest (a b : Str) : Except Raised Bool :=
  if b.all (·.toNat < 0x80) then .ok (a = b) else .error .typeError

/-- `INSPECTOR`. -/
def inspectorName : Str := "inspector.py".toList

/-- A verdict of the inspector. -/
def inspectorVerdict (failure : Option Failure) (evidence : Dict Str Json) : Verdict where
  check := "inspector".toList
  failure := failure
  evidence := evidence

/-- A crash of the inspector. -/
def inspectorCrash (detail : String) (seed : Str) : Failure where
  kind := .agentCrash
  detail := detail.toList
  seed := seed

variable (pass : Pass) (r : Replies)

/-- The lines of `inspect` about an answer that could be read. -/
def inspected (session : Session) (parsed : Dict Str Json) (seed : Str) :
    Except Raised (Verdict × Dict Str Json) := do
  let p := pass.settings.printer
  let expected := hexText (Fernet.hmac pass.settings.sha ((fromHex pass.secret).getD [])
    (utf8 session.nonce))
  -- `compare_digest` refuses a text that is not ASCII
  let handshakeOk ← compareDigest expected ((field parsed "handshake" (.str [])).textOr p)
  let processes ← ((field parsed "processes" .null).orElse (.list [])).len
  let containers ← ((field parsed "containers" .null).orElse (.list [])).len
  let evidence := [("handshake_ok".toList, Json.bool handshakeOk),
    ("processes".toList, .int processes),
    ("containers".toList, .int containers),
    ("containers_error".toList,
      .str (((field parsed "containers_error" (.str [])).textOr p).take 200)),
    ("summary".toList, .str (natText processes ++ " processes, ".toList ++ natText containers ++
      " containers".toList))]
  if handshakeOk then return (inspectorVerdict none evidence, parsed)
  return (inspectorVerdict
    (inspectorCrash "the inspector handshake does not match this session" seed) evidence, [])

/-- `inspect`. -/
def inspect (session : Session) (sessionDir seed : Str) :
    Except PassExn (Verdict × Dict Str Json) := do
  let remote := sessionDir ++ '/' :: inspectorName
  match r.upload remote with
  | some e => return (inspectorVerdict (e.failure seed) [], [])
  | none =>
    let result := r.run .inspector (Shlex.quote session.python ++ " -I ".toList ++
      Shlex.quote remote ++ ' ' :: pass.secret ++ ' ' :: session.nonce)
    let parsed ← (lastJsonObject pass.settings.loads result.stdout).mapError
      fun e => .check (.exn e)
    match parsed with
    | none => return (inspectorVerdict ((classify result seed).getD
        (inspectorCrash "the inspector printed no result" seed)) [], [])
    | some parsed => (inspected pass session parsed seed).mapError .raised

/-- `LIST_COMMAND`. -/
def listCommand : Str :=
  ("docker ps -a --no-trunc --filter label=mt.owner=validator " ++
    "--format '\x7b\x7b.ID\x7d\x7d\t\x7b\x7b.Names\x7d\x7d\t" ++
    "\x7b\x7b.Label \x22mt.job\x22\x7d\x7d\t\x7b\x7b.State\x7d\x7d'").toList

/-- `own_containers`. -/
def ownContainers : List Exclusivity.OwnContainer × Str :=
  let result := r.run .containers listCommand
  if result.ok then (Exclusivity.parseContainers result.stdout, [])
  else ([], result.complaint 200)

/-- The pids the inspector lists; `none` without an inspection. -/
def alivePids (inspected : Dict Str Json) : Except Raised (Option (List ℤ)) := do
  if inspected = [] then return none
  let processes ← ((field inspected "processes" .null).orElse (.list [])).iter
  let pids ← (processes.filterMap fun process => match process with
    | .dict fields => some fields
    | _ => none).mapM fun fields => (ChallengeCheck.fieldOr fields "pid" (.int 0)).toInt
  return some pids

/-- The lines about exclusivity: the verdict, with the error of the listing in its evidence. -/
def exclusivity (rig : Dict Str Json) (gpus : List (Dict Str Json)) (inspected : Dict Str Json)
    (seed : Str) : Except Raised Verdict := do
  let (ours, listingError) := ownContainers r
  let alive ← alivePids inspected
  let jobs ← Exclusivity.jobsOf pass.settings.printer rig
  let verdict ← Exclusivity.check pass.settings.printer gpus jobs ours seed alive
  if listingError = [] then return verdict
  return { verdict with
    evidence := verdict.evidence.set "listing_error".toList (.str (listingError.take 200)) }

/-- `SweepResult.payload`. -/
def sweepPayload (result : GpuWedge.SweepResult) : Json :=
  .dict [("wedged".toList, .list (result.wedged.map .str)),
    ("cured".toList, .list (result.cured.map .str)),
    ("still_wedged".toList, .list (result.stillWedged.map .str)),
    ("skipped".toList, .str result.skipped)]

/-- The challenge, on the interpreter of the session. -/
def challenge (session : Session) (sessionDir : Str) (rig : Dict Str Json) (gpuUuids : List Str) :
    Except PassExn Verdict :=
  let settings := { pass.settings with python := session.python }
  let tier := Tier.ofText ((field rig "tier" (.str [])).textOr settings.printer)
  match ChallengeCheck.run r.challengeRig settings sessionDir pass.request tier gpuUuids with
  | none => .error .died
  | some (.error e) => .error (.check e)
  | some (.ok verdict) => .ok verdict

/-- `in_session` from the challenge on. -/
def afterScrape (session : Session) (sessionDir : Str) (rig : Dict Str Json)
    (gpus : List (Dict Str Json)) (gpuUuids : List Str) (o : Outcome) :
    Except PassExn Outcome := do
  let challenged ← challenge pass r session sessionDir rig gpuUuids
  let o := (o.add challenged).note "challenge"
    (.dict (challenged.evidence.filter (·.1 ≠ "digest".toList)))
  if cutOff challenged then return o
  let (inspection, inspected) ← inspect pass r session sessionDir o.seed
  let o := (o.add inspection).note "inspector" (.dict inspection.evidence)
  if cutOff inspection then return o
  let exclusive ← (exclusivity pass r rig gpus inspected o.seed).mapError .raised
  let o := (o.add exclusive).note "exclusivity" (.dict exclusive.evidence)
  if (worst o.verdicts).isSome then return o
  return o.note "recovery" (.dict [("gpu_wedge".toList, sweepPayload r.wedge)])

/-- The lines of `in_session` about a scrape: the verdicts on the cards, and the cards that are
asked for the challenge. -/
def judgeCards (rig : Dict Str Json) (roster : List (Dict Str Json)) (data spec : Dict Str Json)
    (gpuUuids : List Str) (o : Outcome) : Except Raised (Outcome × List Str) := do
  let p := pass.settings.printer
  let trimmed ← trimmedScrape data
  let specs ← Specs.check p data rig o.seed
  let rigId := (field rig "id" (.str [])).toStr p
  let duplicates ← Duplicates.check p (ScrapeCheck.cardsIn data) rigId roster o.seed
  let seen ← uuidsOf p data
  let o := (((o.note "spec" (.dict spec)).note "scrape" trimmed).add specs).note "specs"
    (.dict specs.evidence)
  let o := (o.add duplicates).note "duplicates" (.dict duplicates.evidence)
  let known := gpuUuids.filter (· ∈ seen)
  return (o, if known = [] then gpuUuids else known)

/-- `in_session` from the scrape on. -/
def afterHost (session : Session) (sessionDir : Str) (rig : Dict Str Json)
    (roster : List (Dict Str Json)) (o : Outcome) : Except PassExn Outcome := do
  let scraped ← ScrapeCheck.run pass.settings pass.reader session pass.prepared r.scrape o.seed
  let o := o.add scraped.verdict
  let gpuUuids ← (uuidsOf pass.settings.printer rig).mapError .raised
  match scraped.data, scraped.spec with
  | some data, some spec =>
    let (o, gpuUuids) ← (judgeCards pass rig roster data spec gpuUuids o).mapError .raised
    afterScrape pass r session sessionDir rig (ScrapeCheck.cardsIn data) gpuUuids o
  | _, _ =>
    if cutOff scraped.verdict then return o
    afterScrape pass r session sessionDir rig [] gpuUuids o

/-- The directory of a session: `f"{root_dir.rstrip('/')}/mt-{request.seed:016x}"`. -/
def sessionDirOf (session : Session) : Str :=
  session.grant.rootDir.rdropWhile (· = '/') ++ "/mt-".toList ++
    (Nat.toDigits 16 pass.request.seed).leftpad 16 '0'

/-- `in_session`. -/
def inSession (session : Session) (rig : Dict Str Json) (roster : List (Dict Str Json))
    (o : Outcome) : Except PassExn Outcome := do
  let o := (o.add (session.attestationVerdict o.seed)).note "attestation"
    (.dict session.attestationSummary)
  let sessionDir := sessionDirOf pass session
  let made := r.run .makeDir ("mkdir -p ".toList ++ Shlex.quote sessionDir ++
    " && chmod 700 ".toList ++ Shlex.quote sessionDir)
  -- without its directory the session ends here
  match classify made o.seed with
  | some crash => return o.add {
      check := "session".toList
      failure := some crash
      evidence := [("summary".toList, .str "could not create the session directory".toList)] }
  | none =>
    let settings := { pass.settings with python := session.python }
    let (verdict, host) ← HostReality.run settings r.upload (r.run .hostReality) sessionDir o.seed
    let o := (o.add verdict).note "host" (trimmedHost host)
    if cutOff verdict then return o
    afterHost pass r session sessionDir rig roster o

/-! ## The pass -/

/-- `pipeline`; nothing in a session raises an `AgentError`. -/
def pipeline (rig : Dict Str Json) (roster : List (Dict Str Json)) (minVersion : Str)
    (o : Outcome) : Except PassExn Outcome := do
  let p := pass.settings.printer
  let reply ← (call p rig r.version).mapError .raised
  let (verdict, answer) ← (Version.fetch p reply minVersion o.seed).mapError .raised
  let o := (o.add verdict).note "agent_version" (.str (Version.reported p answer))
  if verdict.failure.isSome then return o
  match openSession p pass.settings.sha rig pass.nonce r.opened r.connect with
  | .error (.agent e) => return o.add {
      check := "session".toList
      failure := some (e.failure o.seed)
      evidence := [("summary".toList, .str (e.detail.take 120))] }
  | .error e => throw e
  | .ok session => inSession pass r session rig roster o

/-- The record `verify` works on: that of the pool server, or of the roster without an answer, with
the connection of the roster if it has none. -/
def recordOf (rig : Dict Str Json) (detail : Option (Dict Str Json)) : Dict Str Json :=
  let detail := detail.getD rig
  if "connection".toList ∈ detail.keys then detail
  else detail.set "connection".toList ((field rig "connection" .null).orElse (.dict []))

/-- `verify`, up to the report: the finished outcome, or none if the challenge cannot be made. -/
def verify (rig : Dict Str Json) (detail : Option (Dict Str Json)) (roster : List (Dict Str Json))
    (minVersion : Str) : Except PassExn (Option Outcome) :=
  let p := pass.settings.printer
  let start : Outcome := {
    rigId := (field rig "id" (.str [])).toStr p
    hotkey := ownerOf p rig
    seed := natText pass.request.seed }
  match pipeline pass r (recordOf rig detail) roster minVersion start with
  | .error (.check (.unavailable _)) => .ok none
  | .error e => .error e
  | .ok o => .ok (some o.finish)

/-! ## Outcomes without a failure -/

namespace Outcome

/-- No verdict is a failure. -/
def Clean (o : Outcome) : Prop :=
  ∀ v ∈ o.verdicts, v.failure = none

@[simp]
theorem verdicts_add (o : Outcome) (verdict : Verdict) :
    (o.add verdict).verdicts = o.verdicts ++ [verdict] := rfl

@[simp]
theorem verdicts_note (o : Outcome) (key : String) (value : Json) :
    (o.note key value).verdicts = o.verdicts := rfl

@[simp]
theorem verdicts_finish (o : Outcome) : o.finish.verdicts = o.verdicts := rfl

/-- A finished outcome has passed exactly when no verdict is a failure. -/
theorem passed_finish_iff {o : Outcome} : o.finish.passed ↔ o.Clean := by
  show (worst o.verdicts).isNone ↔ o.Clean
  rw [Option.isNone_iff_eq_none, worst_eq_none_iff, Clean]
  simp [Verdict.passed]

/-- Verdicts are only added. -/
theorem Clean.of_append {o o' : Outcome} {more : List Verdict} (hclean : o'.Clean)
    (h : o'.verdicts = o.verdicts ++ more) : o.Clean :=
  fun v hv => hclean v (by simp [h, hv])

/-- An early exit after a failure does not leave the outcome clean. -/
theorem not_clean_of_last {o : Outcome} {before : List Verdict} {verdict : Verdict}
    (hlast : o.verdicts = before ++ [verdict]) (h : verdict.failure ≠ none) : ¬ o.Clean :=
  fun hclean => h (hclean verdict (by simp [hlast]))

end Outcome

theorem failure_of_cutOff {verdict : Verdict} (h : cutOff verdict) : verdict.failure ≠ none := by
  intro hnone
  simp [cutOff, hnone] at h

/-! ## The cards -/

/-- `uuidsOf` lists the uuids of the cards. -/
theorem mem_uuidsOf {p : Printer} {data : Dict Str Json} {uuids : List Str}
    (h : uuidsOf p data = .ok uuids) : ∃ cards,
      ((field data "gpus" .null).orElse (.list [])).iter = .ok cards ∧
      ∀ uuid, uuid ∈ uuids ↔ ∃ card ∈ cards, Specs.uuidOf p card = some uuid := by
  obtain ⟨cards, hcards, h⟩ := Fallible.bind_eq_ok.mp h
  obtain ⟨found, hfound, h⟩ := Fallible.bind_eq_ok.mp h
  obtain rfl := Except.ok.inj h
  refine ⟨cards, hcards, fun uuid => ?_⟩
  -- a card that is no dictionary has no `get`, and the list would have failed
  have hround (card : Json) (entry : Option Str) (hentry : (do
      let uuid ← card.get "uuid".toList .null
      return if uuid.truthy then some (uuid.toStr p) else none : Except Raised _) = .ok entry) :
      entry = Specs.uuidOf p card := by
    obtain ⟨value, hvalue, hentry⟩ := Fallible.bind_eq_ok.mp hentry
    obtain rfl := Except.ok.inj hentry
    cases card with
    | dict fields =>
      obtain rfl := Except.ok.inj hvalue
      rfl
    | null => exact nomatch hvalue
    | bool b => exact nomatch hvalue
    | int n => exact nomatch hvalue
    | float x => exact nomatch hvalue
    | str s => exact nomatch hvalue
    | list items => exact nomatch hvalue
  rw [Fallible.eq_map_of_mapM_eq_ok hround hfound, List.reduceOption_mem_iff, List.mem_map]

/-- When every card on record was seen, all of them are asked for the challenge. -/
theorem targets_eq {known seen : List Str} (h : ∀ uuid ∈ known, uuid ∈ seen) :
    (if known.filter (· ∈ seen) = [] then known else known.filter (· ∈ seen)) = known := by
  have hfilter : known.filter (· ∈ seen) = known := List.filter_eq_self.mpr (by simpa using h)
  rw [hfilter, ite_self]

/-! ## The checks of a session -/

section

variable {pass : Pass} {r : Replies} {session : Session} {sessionDir : Str}
  {rig : Dict Str Json} {roster : List (Dict Str Json)} {o o' : Outcome}

/-- Whatever the inspector answers, the verdict is one of the inspector. -/
theorem check_inspect {seed : Str} {verdict : Verdict} {parsed : Dict Str Json}
    (h : inspect pass r session sessionDir seed = .ok (verdict, parsed)) :
    verdict.check = "inspector".toList := by
  unfold inspect at h
  dsimp only at h
  split at h
  · obtain ⟨rfl, -⟩ := Prod.mk.inj (Except.ok.inj h)
    rfl
  · obtain ⟨found, -, h⟩ := Fallible.bind_eq_ok.mp h
    split at h
    · obtain ⟨rfl, -⟩ := Prod.mk.inj (Except.ok.inj h)
      rfl
    · have h := Fallible.mapError_eq_ok.mp h
      obtain ⟨handshakeOk, -, h⟩ := Fallible.bind_eq_ok.mp h
      obtain ⟨processes, -, h⟩ := Fallible.bind_eq_ok.mp h
      obtain ⟨containers, -, h⟩ := Fallible.bind_eq_ok.mp h
      dsimp only at h
      split_ifs at h
      · obtain ⟨rfl, -⟩ := Prod.mk.inj (Except.ok.inj h)
        rfl
      · obtain ⟨rfl, -⟩ := Prod.mk.inj (Except.ok.inj h)
        rfl

/-- Whatever was inspected, the verdict is one on exclusivity. -/
theorem check_exclusivity {gpus : List (Dict Str Json)} {inspected : Dict Str Json} {seed : Str}
    {verdict : Verdict} (h : exclusivity pass r rig gpus inspected seed = .ok verdict) :
    verdict.check = "exclusivity".toList := by
  obtain ⟨alive, -, h⟩ := Fallible.bind_eq_ok.mp h
  obtain ⟨jobs, -, h⟩ := Fallible.bind_eq_ok.mp h
  obtain ⟨found, hfound, h⟩ := Fallible.bind_eq_ok.mp h
  have hcheck := Exclusivity.check_check hfound
  split_ifs at h
  · obtain rfl := Except.ok.inj h
    exact hcheck
  · obtain rfl := Except.ok.inj h
    exact hcheck

/-- From the challenge on: three more verdicts. -/
theorem afterScrape_clean {gpus : List (Dict Str Json)} {gpuUuids : List Str}
    (h : afterScrape pass r session sessionDir rig gpus gpuUuids o = .ok o') (hclean : o'.Clean) :
    ∃ challenged inspection exclusive,
      challenge pass r session sessionDir rig gpuUuids = .ok challenged ∧
      inspection.check = "inspector".toList ∧ exclusive.check = "exclusivity".toList ∧
      o'.verdicts = o.verdicts ++ [challenged, inspection, exclusive] := by
  obtain ⟨challenged, hchallenged, h⟩ := Fallible.bind_eq_ok.mp h
  dsimp only at h
  -- the two early exits follow a failure, so a clean outcome took none of them
  split_ifs at h with hcut
  · obtain rfl := Except.ok.inj h
    exact absurd hclean (Outcome.not_clean_of_last rfl (failure_of_cutOff hcut))
  obtain ⟨⟨inspection, inspected⟩, hinspection, h⟩ := Fallible.bind_eq_ok.mp h
  dsimp only at h
  split_ifs at h with hcut
  · obtain rfl := Except.ok.inj h
    exact absurd hclean (Outcome.not_clean_of_last rfl (failure_of_cutOff hcut))
  obtain ⟨exclusive, hexclusive, h⟩ := Fallible.bind_eq_ok.mp h
  refine ⟨challenged, inspection, exclusive, hchallenged, check_inspect hinspection,
    check_exclusivity (Fallible.mapError_eq_ok.mp hexclusive), ?_⟩
  -- the sweep for wedged cards only notes what it found
  split_ifs at h
  · obtain rfl := Except.ok.inj h
    simp only [Outcome.verdicts_add, Outcome.verdicts_note, List.append_assoc, List.cons_append,
      List.nil_append]
  · obtain rfl := Except.ok.inj h
    simp only [Outcome.verdicts_add, Outcome.verdicts_note, List.append_assoc, List.cons_append,
      List.nil_append]

/-- `for item in value or []` of a list. -/
theorem iter_orElse_list (items : List Json) :
    ((Json.list items).orElse (.list [])).iter = .ok items := by
  cases items with
  | nil => rfl
  | cons item items => rfl

/-- The cards a rig is enrolled with that have a uuid. -/
def Enrolled (p : Printer) (rig : Dict Str Json) (uuid : Str) : Prop :=
  ∃ cards, ((field rig "gpus" .null).orElse (.list [])).iter = .ok cards ∧
    ∃ card ∈ cards, Specs.uuidOf p card = some uuid

/-- A scrape saw a card with this uuid. -/
def Seen (p : Printer) (data : Dict Str Json) (uuid : Str) : Prop :=
  ∃ card ∈ ScrapeCheck.cardsIn data, Specs.uuidOf p (.dict card) = some uuid

/-- Two verdicts on the cards of a scrape. If they pass, the scrape saw every enrolled card, and all
of them are asked for the challenge. -/
theorem judgeCards_clean {data spec : Dict Str Json} {known uuids : List Str}
    (h : judgeCards pass rig roster data spec known o = .ok (o', uuids)) (hclean : o'.Clean)
    (hcards : o.Clean → field data "gpus" .null = .list ((ScrapeCheck.cardsIn data).map .dict))
    (hknown : uuidsOf pass.settings.printer rig = .ok known) :
    (∀ uuid, Enrolled pass.settings.printer rig uuid →
      Seen pass.settings.printer data uuid ∧ uuid ∈ uuids) ∧
    ∃ specs duplicates, specs.check = "specs".toList ∧ duplicates.check = "duplicates".toList ∧
      o'.verdicts = o.verdicts ++ [specs, duplicates] := by
  obtain ⟨trimmed, -, h⟩ := Fallible.bind_eq_ok.mp h
  obtain ⟨specs, hspecs, h⟩ := Fallible.bind_eq_ok.mp h
  obtain ⟨duplicates, hduplicates, h⟩ := Fallible.bind_eq_ok.mp h
  obtain ⟨seen, hseen, h⟩ := Fallible.bind_eq_ok.mp h
  obtain ⟨rfl, rfl⟩ := Prod.mk.inj (Except.ok.inj h)
  simp only [Outcome.Clean, Outcome.verdicts_add, Outcome.verdicts_note, List.append_assoc,
    List.cons_append, List.nil_append] at hclean ⊢
  have hpassed : specs.failure = none := hclean specs (by simp)
  obtain ⟨enrolled, henrolled, hmemKnown⟩ := mem_uuidsOf hknown
  obtain ⟨cards, hiter, hmemSeen⟩ := mem_uuidsOf hseen
  have hall (uuid : Str) (huuid : ∃ card ∈ enrolled, Specs.uuidOf pass.settings.printer card =
      some uuid) : ∃ card ∈ cards, Specs.uuidOf pass.settings.printer card = some uuid :=
    Specs.seen_of_check hspecs hpassed henrolled hiter huuid
  -- so the filter keeps all of them
  rw [targets_eq fun uuid huuid => (hmemSeen uuid).mpr (hall uuid ((hmemKnown uuid).mp huuid))]
  refine ⟨fun uuid ⟨enrolled', henrolled', huuid⟩ => ?_, specs, duplicates,
    (Specs.check_eq_ok hspecs).1, Duplicates.check_check hduplicates, rfl⟩
  obtain rfl := Except.ok.inj (henrolled.symm.trans henrolled')
  refine ⟨?_, (hmemKnown uuid).mpr huuid⟩
  rw [hcards fun v hv => hclean v (by simp [hv]), iter_orElse_list] at hiter
  obtain rfl := Except.ok.inj hiter
  obtain ⟨card, hcard, hcarduuid⟩ := hall uuid huuid
  obtain ⟨fields, hfields, rfl⟩ := List.mem_map.mp hcard
  exact ⟨fields, hfields, hcarduuid⟩

/-- From the scrape on: the scrape, the cards it saw, and what follows. -/
theorem afterHost_clean (h : afterHost pass r session sessionDir rig roster o = .ok o')
    (hclean : o'.Clean) : ∃ scraped data gpuUuids specs duplicates challenged inspection exclusive,
      ScrapeCheck.run pass.settings pass.reader session pass.prepared r.scrape o.seed =
        .ok scraped ∧ scraped.verdict.check = "scrape".toList ∧ scraped.data = some data ∧
      (∀ uuid, Enrolled pass.settings.printer rig uuid →
        Seen pass.settings.printer data uuid ∧ uuid ∈ gpuUuids) ∧
      specs.check = "specs".toList ∧ duplicates.check = "duplicates".toList ∧
      challenge pass r session sessionDir rig gpuUuids = .ok challenged ∧
      inspection.check = "inspector".toList ∧ exclusive.check = "exclusivity".toList ∧
      o'.verdicts = o.verdicts ++
        [scraped.verdict, specs, duplicates, challenged, inspection, exclusive] := by
  obtain ⟨scraped, hscraped, h⟩ := Fallible.bind_eq_ok.mp h
  obtain ⟨known, hknown, h⟩ := Fallible.bind_eq_ok.mp h
  have hknown := Fallible.mapError_eq_ok.mp hknown
  obtain ⟨hcheck, hdata⟩ := ScrapeCheck.run_eq_ok hscraped
  dsimp only at h
  split at h
  · next data spec hsome hspec =>
    obtain ⟨⟨judged, gpuUuids⟩, hjudged, h⟩ := Fallible.bind_eq_ok.mp h
    obtain ⟨challenged, inspection, exclusive, hchallenged, hinspection, hexclusive, hverdicts⟩ :=
      afterScrape_clean h hclean
    have hjudgedClean := hclean.of_append hverdicts
    have hcards (hadded : (o.add scraped.verdict).Clean) :
        field data "gpus" .null = .list ((ScrapeCheck.cardsIn data).map .dict) := by
      obtain ⟨data', spec', hdata', -, hcards⟩ := hdata (hadded _ (by simp))
      obtain rfl := Option.some.inj (hsome.symm.trans hdata')
      exact hcards
    obtain ⟨hcovered, specs, duplicates, hspecs, hduplicates, hjudgedVerdicts⟩ :=
      judgeCards_clean (Fallible.mapError_eq_ok.mp hjudged) hjudgedClean hcards hknown
    refine ⟨scraped, data, gpuUuids, specs, duplicates, challenged, inspection, exclusive, hscraped,
      hcheck, hsome, hcovered, hspecs, hduplicates, hchallenged, hinspection, hexclusive, ?_⟩
    simp [hverdicts, hjudgedVerdicts]
  · next hnone =>
    -- a check that passes has data
    have hpassed : scraped.verdict.failure = none := by
      split_ifs at h with hcut
      · obtain rfl := Except.ok.inj h
        exact hclean _ (by simp)
      · obtain ⟨challenged, inspection, exclusive, -, -, -, hverdicts⟩ :=
          afterScrape_clean h hclean
        exact hclean.of_append hverdicts _ (by simp)
    obtain ⟨data, spec, hsome, hspec, -⟩ := hdata hpassed
    exact absurd hspec (hnone data spec hsome)

/-- The checks of a pass that is not cut short, in their order. -/
def allChecks : List Str :=
  ["version", "attestation", "host reality", "scrape", "specs", "duplicates", "challenge",
    "inspector", "exclusivity"].map String.toList

/-- The challenge as the session poses it. -/
structure Posed (pass : Pass) (r : Replies) (session : Session) (sessionDir : Str)
    (c : ChallengeCheck.Context) : Prop where
  rig : c.rig = r.challengeRig
  settings : c.settings = { pass.settings with python := session.python }
  dir : c.sessionDir = sessionDir
  request : c.request = pass.request
  prepared : ChallengeCheck.prepare c.rig c.settings c.sessionDir = .ok c.prepared
  expected : Challenge.Python.expectedDigest c.settings.challengeLibrary c.request.seed
    c.request.cipher c.request.n c.request.rounds = some (.ok (c.expected, c.method))

/-- The evidence has an entry for a card that says, truly, that the card gave the expected
digest. -/
def Solved (c : ChallengeCheck.Context) (evidence : Dict Str Json) (uuid : Str) : Prop :=
  ∃ entries : List (Dict Str Json),
    evidence.get? "gpus".toList = some (.list (entries.map .dict)) ∧
      ∃ entry ∈ entries, c.Vouched uuid entry

/-- A challenge that passes vouches for every card that was asked. -/
theorem challenge_vouched {gpuUuids : List Str} {verdict : Verdict}
    (h : challenge pass r session sessionDir rig gpuUuids = .ok verdict)
    (hpassed : verdict.failure = none) :
    verdict.check = "challenge".toList ∧ ∃ c, Posed pass r session sessionDir c ∧
      ∀ uuid ∈ gpuUuids, Solved c verdict.evidence uuid := by
  unfold challenge at h
  dsimp only at h
  split at h
  -- a challenge that ends the pass gives no verdict
  · exact nomatch h
  · exact nomatch h
  · next verdict' hrun =>
    obtain rfl := Except.ok.inj h
    obtain ⟨hname, c, hrig, hsettings, hdir, hrequest, hprepared, hexpected, entries, hentries,
      hvouched⟩ := ChallengeCheck.Context.passed_vouched hrun hpassed
    refine ⟨hname, c, ⟨hrig, hsettings, hdir, hrequest, ?_, ?_⟩, fun uuid huuid => ?_⟩
    · rw [hrig, hsettings, hdir]
      exact hprepared
    · rw [hsettings, hrequest]
      exact hexpected
    · refine ⟨entries, hentries, hvouched uuid ?_⟩
      rw [ChallengeCheck.targetsOf, if_neg (List.ne_nil_of_mem huuid)]
      exact huuid

/-- What a pass on a session has on record about the cards: the scrape saw each enrolled card, and
each of them solved the challenge. -/
structure CardEvidence (pass : Pass) (r : Replies) (session : Session) (rig : Dict Str Json)
    (seed : Str) (verdicts : List Verdict) : Prop where
  scraped : ∃ scraped data, scraped.verdict ∈ verdicts ∧ scraped.data = some data ∧
    ScrapeCheck.run pass.settings pass.reader session pass.prepared r.scrape seed = .ok scraped ∧
    ∀ uuid, Enrolled pass.settings.printer rig uuid → Seen pass.settings.printer data uuid
  solved : ∃ challenged ∈ verdicts, challenged.check = "challenge".toList ∧
    ∃ c, Posed pass r session (sessionDirOf pass session) c ∧
      ∀ uuid, Enrolled pass.settings.printer rig uuid → Solved c challenged.evidence uuid

/-- The session: attestation, host, and what follows. -/
theorem inSession_clean (h : inSession pass r session rig roster o = .ok o') (hclean : o'.Clean) :
    o'.verdicts.map (·.check) = o.verdicts.map (·.check) ++ allChecks.tail ∧
      CardEvidence pass r session rig o.seed o'.verdicts := by
  unfold inSession at h
  dsimp only at h
  -- a session without its directory ends in a failure
  split at h
  · obtain rfl := Except.ok.inj h
    exact absurd hclean (Outcome.not_clean_of_last rfl nofun)
  obtain ⟨⟨hostVerdict, host⟩, hhost, h⟩ := Fallible.bind_eq_ok.mp h
  dsimp only at h
  split_ifs at h with hcut
  · obtain rfl := Except.ok.inj h
    exact absurd hclean (Outcome.not_clean_of_last rfl (failure_of_cutOff hcut))
  obtain ⟨scraped, data, gpuUuids, specs, duplicates, challenged, inspection, exclusive, hscraped,
    hscrape, hdata, hcovered, hspecs, hduplicates, hchallenged, hinspection, hexclusive,
    hverdicts⟩ := afterHost_clean h hclean
  simp only [Outcome.verdicts_add, Outcome.verdicts_note] at hverdicts
  -- the verdicts after the host are those of `afterHost`
  have hmem {v : Verdict}
      (hv : v ∈ [scraped.verdict, specs, duplicates, challenged, inspection, exclusive]) :
      v ∈ o'.verdicts := by
    rw [hverdicts]
    exact List.mem_append_right _ hv
  obtain ⟨hname, c, hposed, hsolved⟩ :=
    challenge_vouched hchallenged (hclean challenged (hmem (by simp)))
  refine ⟨?_, ⟨scraped, data, hmem (by simp), hdata, hscraped,
    fun uuid huuid => (hcovered uuid huuid).1⟩, challenged, hmem (by simp), hname, c, hposed,
    fun uuid huuid => hsolved uuid (hcovered uuid huuid).2⟩
  rw [hverdicts]
  simp only [List.map_append, List.map_cons, List.map_nil, HostReality.run_check hhost, hscrape,
    hspecs, hduplicates, hname, hinspection, hexclusive, List.append_assoc]
  rfl

/-! ## The whole pass -/

/-- The pass: the version, and a session that was opened. -/
theorem pipeline_clean {minVersion : Str} (h : pipeline pass r rig roster minVersion o = .ok o')
    (hclean : o'.Clean) : o'.verdicts.map (·.check) = o.verdicts.map (·.check) ++ allChecks ∧
      ∃ session, openSession pass.settings.printer pass.settings.sha rig pass.nonce r.opened
          r.connect = .ok session ∧ CardEvidence pass r session rig o.seed o'.verdicts := by
  obtain ⟨reply, -, h⟩ := Fallible.bind_eq_ok.mp h
  obtain ⟨⟨verdict, answer⟩, hversion, h⟩ := Fallible.bind_eq_ok.mp h
  dsimp only at h
  -- a version that is refused ends the pass before a session is opened
  split_ifs at h with hfailed
  · obtain rfl := Except.ok.inj h
    refine absurd hclean (Outcome.not_clean_of_last rfl fun hnone => ?_)
    simp [hnone] at hfailed
  split at h
  · obtain rfl := Except.ok.inj h
    exact absurd hclean (Outcome.not_clean_of_last rfl nofun)
  · exact nomatch h
  · next session hsession =>
    obtain ⟨hchecks, hevidence⟩ := inSession_clean h hclean
    refine ⟨?_, session, hsession, hevidence⟩
    have hname := Version.fetch_check (Fallible.mapError_eq_ok.mp hversion)
    simp only [hchecks, Outcome.verdicts_add, Outcome.verdicts_note, List.map_append, List.map_cons,
      List.map_nil, hname, List.append_assoc]
    rfl

end

/-- **A pass that succeeds ran everything.** For every record and roster and whatever the rig does:
if the outcome has passed, its verdicts are those of all checks, in order, and none is a failure;
every card enrolled with a uuid is in the scrape, and the evidence of the challenge has an entry for
it whose digest is the expected one. -/
theorem passed_ran_everything {pass : Pass} {r : Replies} {rig : Dict Str Json}
    {detail : Option (Dict Str Json)} {roster : List (Dict Str Json)} {minVersion : Str}
    {o : Outcome} (h : verify pass r rig detail roster minVersion = .ok (some o))
    (hpassed : o.passed) :
    o.verdicts.map (·.check) = allChecks ∧ (∀ v ∈ o.verdicts, v.failure = none) ∧
      ∃ session, openSession pass.settings.printer pass.settings.sha (recordOf rig detail)
          pass.nonce r.opened r.connect = .ok session ∧
        CardEvidence pass r session (recordOf rig detail) (natText pass.request.seed)
          o.verdicts := by
  unfold verify at h
  dsimp only at h
  split at h
  -- an exception ends the pass without an outcome, as does a challenge that cannot be made
  · exact nomatch h
  · exact nomatch h
  · next found hpipeline =>
    obtain rfl := Option.some.inj (Except.ok.inj h)
    have hclean := Outcome.passed_finish_iff.mp hpassed
    obtain ⟨hchecks, session, hsession, hevidence⟩ := pipeline_clean hpipeline hclean
    exact ⟨hchecks, hclean, session, hsession, hevidence⟩

/-! ## A pass on a rig with one card -/

/-- A dictionary, as JSON. -/
def dictOf (fields : List (String × Json)) : Json :=
  .dict (fields.map fun e => (e.1.toList, e.2))

/-- A text, as JSON. -/
def textOf (text : String) : Json :=
  .str text.toList

/-- The record of the rig. -/
def sampleRig : Dict Str Json :=
  [("id".toList, textOf "r1"), ("tier".toList, textOf "flagship"),
    ("connection".toList, dictOf [("address", textOf "10.0.0.1"), ("api_port", .int 8000)]),
    ("gpus".toList, .list [dictOf [("uuid", textOf "GPU-a"), ("model", textOf "NVIDIA B200"),
      ("tier", textOf "flagship")]])]

/-- What its scrape says. -/
def sampleScrape : Json :=
  dictOf [("gpus", .list [dictOf [("uuid", textOf "GPU-a"), ("name", textOf "NVIDIA B200"),
    ("memory_total_mb", .int 196608)]])]

/-- What the payload about the host prints. -/
def sampleHost : Json :=
  dictOf [("init_root_reachable", .bool true), ("init_root_differs", .bool true),
    ("init_os_release_readable", .bool true), ("dmi", dictOf [("sys_vendor", textOf "Dell Inc.")])]

/-- The answer of the card to the challenge. -/
def sampleAnswer : Json :=
  dictOf [("digest", .str ChallengeCheck.sampleDigest), ("elapsed_ms", .float (.fin 120))]

/-- What the inspector prints, with the handshake of the session. -/
def sampleInspection : Json :=
  dictOf [("handshake", .str (hexText
    [128, 227, 104, 27, 92, 127, 94, 126, 109, 163, 21, 63, 79, 186, 154, 9, 192, 126, 3, 132,
     121, 17, 228, 169, 233, 147, 107, 219, 172, 234, 188, 164])),
    ("processes", .list [dictOf [("pid", .int 1)]])]

/-- `json.loads`, on what `json.dumps` makes of these values. -/
def readBack (values : List Json) (text : Str) : Except Exn Json :=
  match values.find? fun value => Json.dumps Json.asciiPrinter value = text with
  | some value => .ok value
  | none => .error .value

/-- The key of the scrape. -/
def sampleKey : Str := encode (List.range 32)

/-- The token of the scrape under this key: version, time, initial vector, blocks, and the tag. -/
def sampleToken : Str :=
  encode (128 :: Fernet.packTime 1760000000 ++ List.range 16 ++
    [185, 66, 124, 29, 213, 4, 11, 15, 194, 114, 36, 137, 17, 45, 225, 236, 131, 35, 43, 136,
     81, 183, 216, 179, 116, 236, 43, 115, 113, 31, 230, 180, 205, 114, 245, 174, 181, 19, 82,
     254, 232, 39, 111, 46, 34, 168, 250, 186, 95, 132, 79, 189, 210, 191, 68, 162, 233, 82,
     158, 245, 34, 135, 50, 170, 130, 52, 222, 88, 178, 188, 251, 15, 103, 212, 89, 220, 213,
     177, 33, 153] ++
    [23, 98, 109, 164, 171, 3, 31, 238, 13, 145, 110, 111, 29, 51, 250, 94, 202, 44, 164, 105,
     122, 68, 212, 250, 72, 185, 232, 115, 119, 235, 175, 99])

/-- A validator that poses the challenge on one number. -/
def samplePass : Pass where
  settings := {
    printer := Json.asciiPrinter
    loads := readBack [sampleHost, sampleAnswer, sampleInspection]
    sha := Fernet.sha256
    python := "python3".toList
    agentLibrary := none
    agentLibraryPath := "libmtchallenge.so".toList
    allowReferenceChallenge := true
    challengeLibrary := .absent
    challengeMaxMs := .fin 15000 }
  reader := {
    fernet key token := if key = sampleKey ∧ token = sampleToken then
        some (utf8 (Json.dumps Json.asciiPrinter sampleScrape)) else none
    loads raw := if raw = utf8 (Json.dumps Json.asciiPrinter sampleScrape) then .ok sampleScrape
      else .error .value }
  prepared := { source := [], names := [], key := sampleKey }
  nonce := List.replicate 32 'b'
  secret := List.replicate 64 'a'
  request := { seed := 1, cipher := 2, n := 1, rounds := 1 }

/-- A rig that does all it is asked for. -/
def sampleReplies : Replies where
  version := .ok [("version".toList, textOf "1.2.0")]
  opened := .ok [("ssh_username".toList, textOf "mt"), ("ssh_host_key".toList, textOf "AAAA"),
    ("gpu_attestation".toList, dictOf [("nonce", .str (List.replicate 32 'b'))])]
  connect := none
  upload _ := none
  run step _ := {
    exitCode := 0
    stdout := match step with
      | .makeDir | .containers => []
      | .hostReality => Json.dumps Json.asciiPrinter sampleHost
      | .challenge _ => Json.dumps Json.asciiPrinter sampleAnswer
      | .inspector => Json.dumps Json.asciiPrinter sampleInspection }
  scrape _ _ := { exitCode := 0, stdout := sampleToken }
  wedge := {}

/-- The pass ends with an outcome that has passed. -/
def succeeds (found : Except PassExn (Option Outcome)) : Bool :=
  match found with
  | .ok (some o) => o.passed
  | _ => false

/-- A pass that succeeds has an outcome, and it passed. -/
theorem exists_outcome {found : Except PassExn (Option Outcome)} (h : succeeds found) :
    ∃ o, found = .ok (some o) ∧ o.passed := by
  unfold succeeds at h
  split at h
  · next o => exact ⟨o, rfl, h⟩
  · exact Bool.noConfusion h

theorem passed_ran_everything_one_card :
    ∃ o session, verify samplePass sampleReplies sampleRig none [] "1.0.0".toList = .ok (some o) ∧
      o.passed ∧ o.verdicts.map (·.check) = allChecks ∧
      CardEvidence samplePass sampleReplies session sampleRig (natText 1) o.verdicts := by
  have hsucceeds : succeeds (verify samplePass sampleReplies sampleRig none [] "1.0.0".toList) := by
    decide +kernel
  obtain ⟨o, hverify, hpassed⟩ := exists_outcome hsucceeds
  obtain ⟨hchecks, -, session, -, hevidence⟩ := passed_ran_everything hverify hpassed
  exact ⟨o, session, hverify, hpassed, hchecks, hevidence⟩

end ComputePool.Validator.DeepPass
