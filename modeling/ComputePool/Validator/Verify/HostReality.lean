import ComputePool.Validator.Session.Client

/-!
# The host reality check

`validator/verify/host_reality.py`: a payload is uploaded and run, and what it prints about the
init process, its control group and the firmware is judged.
-/

namespace ComputePool.Validator.Verify.HostReality

open Text Protocol ChallengeCheck
open Json (Printer Raised field)

/-- `PAYLOAD`. -/
def payload : Str := "host_reality.py".toList

/-- `NESTED_MARKERS`. -/
def nestedMarkers : List Str :=
  ["/docker/", "/lxc/", "/containerd/", "/kubepods", "/podman/", "/machine.slice/libpod",
    "docker-", "/garden/"].map String.toList

/-- `VIRT_CLEAR`. -/
def virtClear : List Str :=
  ["none", "unavailable", ""].map String.toList

/-- A failure of the check. -/
def nested (seed detail : Str) (evidence : Dict Str Json) : Option Failure :=
  some { kind := .nestedContainer, detail, seed, evidence }

/-- `judge`. -/
def judge (p : Printer) (host : Dict Str Json) (seed : Str) : Except Raised (Option Failure) := do
  let text (key : String) : Str := (field host key (.str [])).textOr p
  if !(field host "init_root_reachable" .null).truthy then
    return nested seed "the init process root is not reachable".toList []
  if !(field host "init_root_differs" .null).truthy then
    return nested seed "the init process root is the session root, not a host root".toList []
  if !(field host "init_os_release_readable" .null).truthy then
    return nested seed "the host os-release is not readable through the init root".toList []
  let cgroup := text "init_cgroup"
  match nestedMarkers.filter (contains cgroup) with
  | marker :: _ =>
    return nested seed
      ("the init cgroup shows a nested path (".toList ++ marker ++ [')'])
      [("init_cgroup".toList, .str (cgroup.take 300))]
  | [] =>
    let virt := lower (strip (text "detect_virt"))
    if virt ∉ virtClear then
      return nested seed ("systemd-detect-virt reports ".toList ++ virt) []
    let dmi := (field host "dmi" .null).orElse (.dict [])
    let vendor ← dmi.get "sys_vendor".toList (.str [])
    -- the product is only looked at without a vendor
    if strip (vendor.textOr p) = [] then
      let product ← dmi.get "product_name".toList (.str [])
      if strip (product.textOr p) = [] then
        return nested seed "no DMI vendor or product identity".toList []
    return none

/-- The evidence about a host whose answer could be read. -/
def evidenceOf (p : Printer) (host : Dict Str Json) : Except Raised (Dict Str Json) := do
  let dmi := (field host "dmi" .null).orElse (.dict [])
  let vendor ← dmi.get "sys_vendor".toList (.str [])
  let product ← dmi.get "product_name".toList (.str [])
  let name := strip (vendor.toStr p ++ ' ' :: product.toStr p)
  let copied := ["detect_virt", "init_root_differs", "init_comm", "boot_id", "machine_id",
    "kernel"].map fun key => (key.toList, field host key .null)
  return ("summary".toList, .str (if name ≠ [] then name else "host".toList)) :: copied

/-- A verdict of the check. -/
def verdictOf (failure : Option Failure) (evidence : Dict Str Json) : Verdict where
  check := "host reality".toList
  failure := failure
  evidence := evidence

/-- `run`, given the error of the upload and the result of the command. -/
def run (settings : Settings) (upload : Str → Option SshError) (reply : Str → CommandResult)
    (sessionDir seed : Str) : Except PassExn (Verdict × Dict Str Json) := do
  let remote := sessionDir ++ '/' :: payload
  -- an upload that fails is a failure of the check
  match upload remote with
  | some e => return (verdictOf (e.failure seed) [], [])
  | none =>
    let result := reply (Shlex.quote settings.python ++ " -I ".toList ++ Shlex.quote remote)
    let parsed ← (lastJsonObject settings.loads result.stdout).mapError fun e => .check (.exn e)
    match parsed with
    | none =>
      let crash := (classify result seed).getD {
        kind := .agentCrash
        detail := "the host reality payload printed no result".toList
        seed }
      return (verdictOf crash [], [])
    | some host =>
      -- what was printed is judged before the evidence is read from it
      let failure ← (judge settings.printer host seed).mapError .raised
      let evidence ← (evidenceOf settings.printer host).mapError .raised
      return (verdictOf failure evidence, host)

/-- Whatever the host answers, the verdict is one on host reality. -/
theorem run_check {settings : Settings} {upload : Str → Option SshError}
    {reply : Str → CommandResult} {sessionDir seed : Str} {verdict : Verdict}
    {host : Dict Str Json} (h : run settings upload reply sessionDir seed = .ok (verdict, host)) :
    verdict.check = "host reality".toList := by
  unfold run at h
  dsimp only at h
  split at h
  · obtain ⟨rfl, -⟩ := Prod.mk.inj (Except.ok.inj h)
    rfl
  · obtain ⟨parsed, -, h⟩ := Fallible.bind_eq_ok.mp h
    split at h
    · obtain ⟨rfl, -⟩ := Prod.mk.inj (Except.ok.inj h)
      rfl
    · obtain ⟨failure, -, h⟩ := Fallible.bind_eq_ok.mp h
      obtain ⟨evidence, -, h⟩ := Fallible.bind_eq_ok.mp h
      obtain ⟨rfl, -⟩ := Prod.mk.inj (Except.ok.inj h)
      rfl

end ComputePool.Validator.Verify.HostReality
