import ComputePool.Foundations.Json
import ComputePool.Validator.Recovery.GpuWedge
import ComputePool.Validator.Storage.Volumes
import ComputePool.Validator.Work.Power

/-!
# Containers

`validator/work/containers.py`: the coroutines that create, remove and recreate the container of a
job on a rig. `create` goes through its steps with variables that say what there is to take back
(`Locals`); every way out of its body, by a result or by an exception, leads through the same
`finally` block, which calls `_rollback`.

What the code takes from elsewhere is a value of `Setting`: the allowlist, the secret of the
validator, how `json.loads` reads a text, how often the deadlines of the two loops leave time for
another round, and which of the optional arguments are given. `Runner.run` does not raise and the
files of the validator are taken to be writable, so the handlers for `SshError` and `OSError` have
nothing to handle here.
-/

namespace ComputePool.Validator.Containers

open Text Numeral
open Json (Printer)

/-! ## Ports -/

/-- `\d+`. -/
def allDigits (s : Str) : Bool :=
  s ≠ [] && s.all fun c => (decimalValue c).isSome

/-- `int(text)`, for digits. -/
def intOrRaise {σ : Type} (s : Str) : Raising σ ℤ :=
  match intOf s with
  | some n => pure n
  | none => throw .value

/-- `parse_range`. -/
def parseRange {σ : Type} (text : Str) : Raising σ (Option (ℤ × ℤ)) :=
  match (text.splitOn '-').map strip with
  | [low, high] =>
    if !allDigits low || !allDigits high then pure none
    else do
      let low ← intOrRaise low
      let high ← intOrRaise high
      return if low < 1 ∨ 65535 < high ∨ high < low then none else some (low, high)
  | _ => pure none

/-- The digits of `^.*:(\d+)$`. -/
def portDigits (token : Str) : Option Str :=
  let digits := (token.reverse.takeWhile (· ≠ ':')).reverse
  if ':' ∈ token ∧ allDigits digits then some digits else none

/-- The loop of `used_ports` over the words of its answer. -/
def portsIn {σ : Type} : List Str → Raising σ (List ℤ)
  | [] => pure []
  | token :: tokens => do
    match portDigits token with
    | none => portsIn tokens
    | some digits =>
      let port ← intOrRaise digits
      let ports ← portsIn tokens
      return port :: ports

/-- `used_ports`. -/
def usedPorts {σ : Type} : Raising σ (List ℤ) := do
  let result ← Raising.send .listPorts
  portsIn ((splitLines result.stdout).flatMap split)

/-- `while candidate <= last and candidate in busy: candidate += 1`, for `room` candidates. -/
def nextFree (busy : List ℤ) : ℕ → ℤ → ℤ
  | 0, candidate => candidate
  | room + 1, candidate =>
    if candidate ∈ busy then nextFree busy room (candidate + 1) else candidate

/-- The loop of `reserve_ports`; `none` when no port is left. -/
def assignPorts (busy : List ℤ) (last : ℤ) : ℤ → List ℤ → Option (List PortMapping)
  | _, [] => some []
  | candidate, port :: ports =>
    let candidate := nextFree busy (last - candidate + 1).toNat candidate
    if last < candidate then none
    else (assignPorts busy last (candidate + 1) ports).map (⟨candidate, port, "tcp".toList⟩ :: ·)

/-- `reserve_ports`: the mappings, or the reason. -/
def reservePorts {σ : Type} (printable : Char → Bool) (spec : JobSpec) :
    Raising σ (Except Str (List PortMapping)) :=
  if spec.ports ≠ [] ∨ spec.containerPorts = [] then pure (.ok spec.ports)
  else do
    match ← parseRange spec.portRange with
    | none =>
      return .error ("port range ".toList ++ pyRepr printable spec.portRange ++
        " is not usable".toList)
    | some (low, high) =>
      let busy ← usedPorts
      match assignPorts busy high low spec.containerPorts with
      | none => return .error "no free port left in the reserved range".toList
      | some mappings => return .ok mappings

/-! ## Devices -/

/-- `DEVICE_NODES`. -/
def deviceNodeNames : List Str :=
  ["/dev/nvidiactl".toList, "/dev/nvidia-uvm".toList, "/dev/nvidia-uvm-tools".toList,
    "/dev/nvidia-modeset".toList]

/-- `HOST_WIDE_DIRS`. -/
def hostWideDirs : List Str :=
  ["/dev/nvidia-caps".toList, "/dev/infiniband".toList]

/-- `text.split("---")`: the text before the first separator, and what follows it. -/
def cutAt (separator : Str) : Str → Str × Option Str
  | [] => ([], none)
  | c :: rest =>
    if separator.isPrefixOf (c :: rest) then ([], some ((c :: rest).drop separator.length))
    else
      let (before, after) := cutAt separator rest
      (c :: before, after)

/-- The first three sections of the answer to the probe. -/
def sectionsOf (stdout : Str) : Str × Str × Str :=
  let separator := "---".toList
  let (first, rest) := cutAt separator stdout
  let (second, rest) := cutAt separator (rest.getD [])
  (first, second, (cutAt separator (rest.getD [])).1)

/-- `normalise_bus`. -/
def normaliseBus (text : Str) : Str :=
  let text := lower (strip text)
  text.drop (text.length - 12)

/-- A line `uuid, bus`. -/
def busLine (line : Str) : Option (Str × Str) :=
  match (line.splitOn ',').map strip with
  | [uuid, bus] => if startsWith uuid "GPU-".toList then some (uuid, normaliseBus bus) else none
  | _ => none

/-- A line that gives the minor number of a card: the bus and the digits. -/
def minorLine (line : Str) : Option (Str × Str) :=
  let line := strip line
  let head := "/proc/driver/nvidia/gpus/".toList
  if !startsWith line head then none
  else
    -- the bus stands between the two slashes
    let rest := line.drop head.length
    let bus := rest.takeWhile (· ≠ '/')
    let mark := "/information:".toList
    let rest := rest.drop bus.length
    if bus = [] ∨ !startsWith rest mark then none
    else
      -- and the number behind the label
      let rest := (rest.drop mark.length).dropWhile isSpace
      let label := "Device Minor:".toList
      let digits := ((rest.drop label.length).dropWhile isSpace).takeWhile fun c =>
        (decimalValue c).isSome
      if !startsWith rest label ∨ digits = [] then none else some (normaliseBus bus, digits)

/-- The second loop of `parse_device_probe`. -/
def minorsIn {σ : Type} : List Str → Dict Str ℤ → Raising σ (Dict Str ℤ)
  | [], minors => pure minors
  | line :: lines, minors => do
    match minorLine line with
    | none => minorsIn lines minors
    | some (bus, digits) =>
      let minor ← intOrRaise digits
      minorsIn lines (minors.set bus minor)

/-- `parse_device_probe`. -/
def parseDeviceProbe {σ : Type} (stdout : Str) :
    Raising σ (Dict Str Str × Dict Str ℤ × List Str) := do
  let (first, second, third) := sectionsOf stdout
  let buses := Dict.ofItems ((splitLines first).filterMap busLine)
  let minors ← minorsIn (splitLines second) []
  let nodes := ((splitLines third).map strip).filter (startsWith · "/dev/".toList)
  return (buses, minors, nodes)

/-- The loop of `device_nodes` over the cards. -/
def cardNodes (buses : Dict Str Str) (minors : Dict Str ℤ) (present : List Str) :
    List Str → Except Str (List Str)
  | [] => .ok []
  | uuid :: uuids =>
    let bus := buses.get? uuid
    match bus, minors.get? (bus.getD []) with
    | some _, some minor =>
      let node := "/dev/nvidia".toList ++ Json.intText minor
      if node ∉ present then .error (node ++ " for ".toList ++ uuid ++ " is absent".toList)
      else (cardNodes buses minors present uuids).map (node :: ·)
    | _, _ => .error ("no device node resolved for ".toList ++ uuid)

/-- `device_nodes`: the nodes, or the reason. -/
def deviceNodes {σ : Type} (uuids : List Str) (wholeNode : Bool) :
    Raising σ (Except Str (List Str)) := do
  let result ← Raising.send .probeDevices
  if result.transportFailed then return .error result.error
  let (buses, minors, nodes) ← parseDeviceProbe result.stdout
  return (cardNodes buses minors nodes uuids).map fun chosen =>
    chosen ++ deviceNodeNames.filter (· ∈ nodes) ++
      if wholeNode then nodes.filter fun node =>
        hostWideDirs.any fun directory => startsWith node (directory ++ ['/'])
      else []

/-! ## The state of a container -/

/-- What `create` and `recreate` take from elsewhere. -/
structure Setting where
  printer : Printer
  /-- `json.loads`; the exceptions it raises are `ValueError` and `RecursionError`. -/
  loads : Str → Except Exn Json
  allowlist : List Str
  /-- What `keys.master_secret` complains about, if it does. -/
  secretProblem : Option Str := none
  /-- How often the deadline of `docker_run` leaves time for another attempt. -/
  retries : ℕ := 0
  /-- How often the deadline of `wait_running` leaves time for another look. -/
  polls : ℕ := 0
  /-- Whether the records of the power caps, the store and the table of creations in flight are
  given. -/
  records : Bool := true
  store : Bool := true
  inflight : Bool := true
  rigId : Str := []

/-- What `json.loads` makes of a line; an error in the text counts as no state. -/
def stateIn {σ : Type} (loads : Str → Except Exn Json) (stdout : Str) :
    Raising σ (Option (Dict Str Json)) :=
  match (splitLines (strip stdout)).getLast? with
  | none => pure none
  | some line =>
    match loads line with
    | .ok (.dict fields) => pure (some fields)
    | .ok _ | .error .value => pure none
    | .error e => throw e

/-- `state_of`. -/
def stateOf {σ : Type} (loads : Str → Except Exn Json) (name : Str) :
    Raising σ (Option (Dict Str Json)) := do
  let result ← Raising.send (.inspectState name)
  if !result.ok then return none
  stateIn loads result.stdout

/-- `state.get(key)`. -/
def fieldOf (state : Dict Str Json) (key : String) : Json :=
  (state.get? key.toList).getD .null

/-- `diagnostics`. -/
def diagnostics {σ : Type} (loads : Str → Except Exn Json) (name : Str) :
    Raising σ (Dict Str Json) := do
  let state ← stateOf loads name
  let logs ← Raising.send (.logs name)
  let state := state.getD []
  return [("status".toList, fieldOf state "Status"),
    ("exit_code".toList, fieldOf state "ExitCode"),
    ("oom_killed".toList, fieldOf state "OOMKilled"), ("error".toList, fieldOf state "Error"),
    ("logs".toList, .str (logs.stdout.drop (logs.stdout.length - 4000)))]

/-- `wait_running`, for at most `polls` looks; `last` is the last status seen. -/
def waitRunning {σ : Type} (setting : Setting) (name : Str) : ℕ → Str → Raising σ (Bool × Str)
  | 0, last => pure (false, "container not running after 10 s (".toList ++
      (if last = [] then "no state".toList else last) ++ [')'])
  -- a state that cannot be read is asked for again
  | polls + 1, last => do
    match ← stateOf setting.loads name with
    | none =>
      let _ ← Raising.send .sleep
      waitRunning setting name polls last
    | some state =>
      if (fieldOf state "Running").truthy then return (true, [])
      let status := (fieldOf state "Status").textOr setting.printer
      -- a container that ended will not run any more
      if status = "exited".toList ∨ status = "dead".toList then
        return (false, "container ".toList ++ status ++ " with code ".toList ++
          (fieldOf state "ExitCode").toStr setting.printer)
      let _ ← Raising.send .sleep
      waitRunning setting name polls status

/-! ## Starting it -/

/-- Where `run_command` raises: a size it cannot write as a whole number, a volume it does not
accept. -/
def checkCommand {σ : Type} (spec : JobSpec) : Raising σ Unit :=
  let tooLarge (size : PyFloat) (factor : ℚ) : Bool :=
    match size with
    | .fin q => PyFloat.ofRat (q * factor) = .inf false
    | .inf negative => !negative
    | .nan => false
  if tooLarge spec.memoryGb 1024 || (tooLarge spec.storageGb 1 && spec.quotasSupported) then
    throw .overflow
  else if spec.volumes.all fun v => validVolume v.name && validMountPath v.mountPath then pure ()
  else throw .value

/-- `PORT_BUSY_MARKERS`. -/
def portBusyMarkers : List Str :=
  ["port is already allocated".toList, "address already in use".toList,
    "failed to bind host port".toList, "bind for".toList]

/-- The reason of a `docker run` that failed. -/
def runReason (result : CommandResult) : Str :=
  let tail := strip (result.stderrTail 600)
  if tail = [] then result.error else tail

/-- One attempt of `docker_run`; `busy` is what follows when a port was taken. -/
def runOnce {σ : Type} (spec : JobSpec) (busy : CommandResult → Task σ (Bool × Str)) :
    Task σ (Bool × Str) := do
  let result ← Program.send (.dockerRun spec)
  if result.ok then return (true, [])
  if result.transportFailed then return (false, result.error)
  if portBusyMarkers.any (contains (lower result.stderr)) then busy result
  else return (false, runReason result)

/-- The loop of `docker_run`, for at most `retries` attempts after the first. -/
def runLoop {σ : Type} (spec : JobSpec) : ℕ → Task σ (Bool × Str)
  | 0 => runOnce spec fun result => pure (false, runReason result)
  | retries + 1 => runOnce spec fun _ => do
    let _ ← Program.send (.removeContainer spec.containerName)
    let _ ← Program.send .sleep
    runLoop spec retries

/-- `docker_run`. -/
def dockerRun {σ : Type} (setting : Setting) (spec : JobSpec) : Raising σ (Bool × Str) := do
  checkCommand spec
  Raising.await (runLoop spec setting.retries)

/-! ## What others share -/

/-- A call of `_rollback`: what it was given to take back. -/
structure RollbackCall where
  jobId : Str
  launched : Bool
  capped : Bool
  volumes : List Str
  deriving DecidableEq, Repr

/-- The state the coroutines of the validator share: the records of the power caps, the saved
specifications with their rigs, and the calls of `_rollback` made so far. -/
structure Shared where
  records : PowerRecords := {}
  store : Dict Str (JobSpec × Str) := []
  rollbacks : List RollbackCall := []

/-- Work on the records of the power caps. -/
def onRecords {α : Type} (p : Raising PowerRecords α) : Raising Shared α :=
  ExceptT.mk (p.run.zoom Shared.records fun shared records => { shared with records })

/-- `CreateResult`. -/
structure CreateResult where
  ok : Bool
  step : Str := []
  reason : Str := []
  container : Str := []
  ports : List PortMapping := []
  diagnostics : Dict Str Json := []

/-- The variables of `create`. -/
structure Locals where
  spec : JobSpec
  step : Str := "validate".toList
  createdVolumes : List Str := []
  capped : Bool := false
  launched : Bool := false
  succeeded : Bool := false

/-- What ends the body of `create` early: a `return`, or an exception. -/
inductive Stop
  | returned (result : CreateResult)
  | raised (e : Exn)

/-- The body of `create`. -/
abbrev Creating (α : Type) := ExceptT Stop (Program (Locals × Shared) Command CommandResult) α

namespace Creating

variable {α : Type}

/-- Wait for a coroutine that may raise. -/
def await (p : Raising (Locals × Shared) α) : Creating α :=
  ExceptT.mk (p.run >>= fun
    | .ok a => pure (.ok a)
    | .error e => pure (.error (.raised e)))

/-- Send a command. -/
def send (c : Command) : Creating CommandResult :=
  await (Raising.send c)

/-- Work on the records of the power caps. -/
def records (p : Raising PowerRecords α) : Creating α :=
  await (ExceptT.mk (p.run.zoom (fun t => t.2.records)
    fun t records => (t.1, { t.2 with records })))

/-- The variables. -/
def locals : Creating Locals :=
  ExceptT.lift ((·.1) <$> Program.read)

/-- Assign to a variable. -/
def assign (f : Locals → Locals) : Creating Unit :=
  ExceptT.lift (Program.modify fun t => (f t.1, t.2))

/-- Change what others share. -/
def share (f : Shared → Shared) : Creating Unit :=
  ExceptT.lift (Program.modify fun t => (t.1, f t.2))

/-- `step = …`. -/
def enter (step : String) : Creating Unit :=
  assign fun v => { v with step := step.toList }

/-- `return CreateResult(False, step, reason, …)`. -/
def failWith (reason : Str) (container : Str) (diagnostics : Dict Str Json) : Creating α := do
  let v ← locals
  throw (.returned { ok := false, step := v.step, reason, container, diagnostics })

/-- `return CreateResult(False, step, reason)`. -/
def fail (reason : Str) : Creating α :=
  failWith reason [] []

section Rules

variable {β ο ω : Type} {exec : Command → ο → ω → Option (CommandResult × ω)}
  {I : Locals × Shared → ω → Prop} {t : Locals × Shared} {w : ω}

theorem wp_locals_bind {f : Locals → Creating β} {Q : Except Stop β → Locals × Shared → ω → Prop} :
    (locals >>= f).run.wp exec I Q t w ↔ (f t.1).run.wp exec I Q t w := Iff.rfl

theorem wp_assign_bind {g : Locals → Locals} {f : Unit → Creating β}
    {Q : Except Stop β → Locals × Shared → ω → Prop} :
    (assign g >>= f).run.wp exec I Q t w ↔ (f ()).run.wp exec I Q (g t.1, t.2) w := Iff.rfl

theorem wp_enter_bind {step : String} {f : Unit → Creating β}
    {Q : Except Stop β → Locals × Shared → ω → Prop} :
    (enter step >>= f).run.wp exec I Q t w ↔
      (f ()).run.wp exec I Q ({ t.1 with step := step.toList }, t.2) w := Iff.rfl

theorem wp_send_bind {c : Command} {f : CommandResult → Creating β}
    {Q : Except Stop β → Locals × Shared → ω → Prop} :
    (send c >>= f).run.wp exec I Q t w ↔
      I t w ∧ ∀ o r w', exec c o w = some (r, w') → (f r).run.wp exec I Q t w' := Iff.rfl

/-- A coroutine that is waited for ends the body with the exception it raises. -/
theorem wp_await {p : Raising (Locals × Shared) α}
    {Q : Except Stop α → Locals × Shared → ω → Prop}
    (h : p.run.wp exec I (fun r t w =>
      match r with
      | .ok a => Q (.ok a) t w
      | .error e => Q (.error (.raised e)) t w) t w) :
    (await p).run.wp exec I Q t w := by
  refine (Program.wp_bind _ _ _ _ _).mpr (Program.wp_mono h fun r t w hr => ?_)
  cases r with
  | ok a => exact hr
  | error e => exact hr

end Rules

/-- `_checkpoint`. -/
def checkpoint (setting : Setting) (jobId : Str) : Creating Unit :=
  if setting.inflight then do
    let flag ← send (.checkFlight jobId)
    if flag.ok then pure ()
    else throw (.raised (.cancelled
      ("job ".toList ++ jobId ++ " was cancelled during creation".toList)))
  else pure ()

end Creating

/-! ## `create` -/

/-- `remove_stale_volumes`: what is listed and not mounted. -/
def removeStaleVolumes {σ : Type} (printable : Char → Bool) : Task σ (List Str) := do
  let ours ← Volumes.listOurs
  match ← Volumes.mountedVolumes with
  | none => return []
  | some mounted =>
    Program.forEach (fun removed name => do
      let (ok, _) ← Volumes.destroy printable name
      return if ok then removed ++ [name] else removed) (ours.filter (· ∉ mounted)) []

/-- What `_rollback` does once the container is gone. -/
def giveBack (printable : Char → Bool) (setting : Setting) (v : Locals) : Raising Shared Unit := do
  Raising.when (v.capped && setting.records) do
    let _ ← onRecords (restoreJob v.spec.jobId)
  Raising.await (Program.forEach (fun _ volume => do
    let _ ← Volumes.destroy printable volume) v.createdVolumes ())
  let _ ← Raising.await GpuWedge.sweep

/-- `_rollback`. -/
def rollback (printable : Char → Bool) (setting : Setting) (v : Locals) : Raising Shared Unit := do
  Raising.modify fun shared => { shared with rollbacks := shared.rollbacks ++
    [⟨v.spec.jobId, v.launched, v.capped, v.createdVolumes⟩] }
  Raising.when v.launched (Raising.tell (.removeWithVolumes v.spec.containerName))
  giveBack printable setting v

namespace Creating

/-- What is wrong before anything is done: the first problem of the specification, or of the secret
when there are encrypted volumes. -/
@[irreducible]
def firstProblem (setting : Setting) (spec : JobSpec) : Option Str :=
  match spec.problems setting.printer.printable setting.allowlist with
  | problem :: _ => some problem
  | [] => if spec.volumes.any (·.encrypted) then setting.secretProblem else none

/-- The step `validate`. -/
def validate (setting : Setting) : Creating Unit := do
  let v ← locals
  match firstProblem setting v.spec with
  | some problem => fail problem
  | none => checkpoint setting v.spec.jobId

/-- The step `reserve ports`. -/
def choosePorts (setting : Setting) : Creating Unit := do
  enter "reserve ports"
  let v ← locals
  match ← await (reservePorts setting.printer.printable v.spec) with
  | .error reason => fail reason
  | .ok ports => assign fun v => { v with spec := { v.spec with ports } }

/-- The step `pull`. -/
def pullImage (setting : Setting) : Creating Unit := do
  enter "pull"
  let v ← locals
  let pull ← send (.pull v.spec.image)
  if pull.ok then checkpoint setting v.spec.jobId
  else fail (strip (if pull.error ≠ [] then pull.error
    else pull.stdout.drop (pull.stdout.length - 600)))

/-- The steps before anything on the rig is changed. -/
def prepare (setting : Setting) : Creating Unit := do
  validate setting
  choosePorts setting
  pullImage setting

/-- The step `cleanup`. -/
def cleanup (setting : Setting) : Creating Unit := do
  enter "cleanup"
  let v ← locals
  let _ ← send (.removeContainer v.spec.containerName)
  let _ ← await (Raising.await (removeStaleVolumes setting.printer.printable))

/-- The loop of the step `volumes`, over the volumes to be created. -/
def makeVolumes (setting : Setting) : List VolumeSpec → Creating Unit
  | [] => pure ()
  | volume :: volumes => do
    let (ok, reason) ← await (Volumes.create setting.printer.printable volume)
    if ok then do
      assign fun v => { v with createdVolumes := v.createdVolumes ++ [volume.name] }
      makeVolumes setting volumes
    else fail (volume.name ++ ": ".toList ++ reason)

/-- The step `devices`. -/
def resolveDevices : Creating Unit := do
  enter "devices"
  let v ← locals
  match ← await (deviceNodes v.spec.gpuUuids v.spec.wholeNode) with
  | .error reason => fail reason
  | .ok devices => assign fun v => { v with spec := { v.spec with devices } }

/-- The step `power`. -/
def capPower (setting : Setting) : Creating Unit := do
  enter "power"
  let v ← locals
  if v.spec.powerCaps = [] then pure ()
  else if !setting.records then fail "power caps requested without a records file".toList
  else do
    let (ok, reason) ← records (applyCaps v.spec.jobId v.spec.powerCaps)
    if ok then assign fun v => { v with capped := true } else fail reason

/-- The step `run`. -/
def launch (setting : Setting) : Creating Unit := do
  let _ ← send .removeProbes
  let v ← locals
  checkpoint setting v.spec.jobId
  enter "run"
  let v ← locals
  let (ok, reason) ← await (dockerRun setting v.spec)
  if ok then assign fun v => { v with launched := true } else fail reason

/-- The step `running`. -/
def awaitRunning (setting : Setting) : Creating Unit := do
  enter "running"
  let v ← locals
  let name := v.spec.containerName
  let (ok, reason) ← await (waitRunning setting name setting.polls [])
  if ok then pure ()
  else do
    let diagnostics ← await (diagnostics setting.loads name)
    failWith reason name diagnostics

/-- The loop of the step `encrypted volumes`, over the encrypted volumes. -/
def mountEncrypted (setting : Setting) : List VolumeSpec → Creating Unit
  | [] => pure ()
  | volume :: volumes => do
    let v ← locals
    let name := v.spec.containerName
    let (ok, reason) ← await (Volumes.setupEncrypted name volume volume.create)
    if !ok then do
      let diagnostics ← await (diagnostics setting.loads name)
      failWith (volume.name ++ ": ".toList ++ reason) name diagnostics
    else if v.spec.workspaceUser = [] then mountEncrypted setting volumes
    else do
      let _ ← await (Volumes.grantWorkspace name volume.mountPath v.spec.workspaceUser)
      mountEncrypted setting volumes

/-- `store.save`, if there is a store. -/
def saveSpec (setting : Setting) (spec : JobSpec) : Creating Unit :=
  share fun shared =>
    if setting.store then { shared with store := shared.store.set spec.jobId (spec, setting.rigId) }
    else shared

/-- The step `record`, and the result of a creation that went well. -/
def record (setting : Setting) : Creating CreateResult := do
  let v ← locals
  checkpoint setting v.spec.jobId
  enter "record"
  saveSpec setting v.spec
  assign fun v => { v with succeeded := true }
  return { ok := true, step := "done".toList, container := v.spec.containerName
           ports := v.spec.ports }

/-- The steps between the cleanup and the start of the container. -/
def provision (setting : Setting) : Creating Unit := do
  enter "volumes"
  let v ← locals
  makeVolumes setting (v.spec.volumes.filter (·.create))
  resolveDevices
  capPower setting

/-- The steps once the container is started. -/
def conclude (setting : Setting) : Creating CreateResult := do
  awaitRunning setting
  enter "encrypted volumes"
  let v ← locals
  mountEncrypted setting (v.spec.volumes.filter (·.encrypted))
  record setting

/-- The body of the `try` block. -/
def body (setting : Setting) : Creating CreateResult := do
  prepare setting
  cleanup setting
  provision setting
  launch setting
  conclude setting

end Creating

/-- There is something to take back. -/
def Locals.changed (v : Locals) : Bool :=
  v.launched || v.capped || v.createdVolumes ≠ []

/-- `inflight is not None and inflight.cancelled(job_id)`. -/
def wasCancelled {σ : Type} (setting : Setting) (jobId : Str) : Task σ Bool :=
  if setting.inflight then do
    let flag ← Program.send (.checkFlight jobId)
    return !flag.ok
  else pure false

/-- The `finally` block: the flag is read once, and decides about the rollback and about the saved
specification. -/
def settle (setting : Setting) (v : Locals) : Raising Shared Unit := do
  let cancelled ← Raising.await (wasCancelled setting v.spec.jobId)
  Raising.when ((!v.succeeded || cancelled) && v.changed) do
    rollback setting.printer.printable setting v
    Raising.when (setting.store && cancelled) (Raising.modify fun shared =>
      { shared with store := shared.store.pop v.spec.jobId })
  Raising.when setting.inflight (Raising.tell (.finishFlight v.spec.jobId))

/-- What the handlers make of the end of the body. -/
def handle (v : Locals) : Except Stop CreateResult → Raising Shared CreateResult
  | .ok result | .error (.returned result) => pure result
  | .error (.raised (.cancelled message)) => pure {
      ok := false, step := "cancelled".toList, reason := message
      container := if v.launched then v.spec.containerName else [] }
  | .error (.raised e) => throw e

/-- The `try` statement of `create`. -/
def attempt (setting : Setting) (spec : JobSpec) : Raising Shared CreateResult := do
  let ended ← Raising.await ((Creating.body setting).run.withVars { spec })
  settle setting ended.2
  handle ended.2 ended.1

/-- `create`. -/
def create (setting : Setting) (spec : JobSpec) : Raising Shared CreateResult := do
  Raising.when setting.inflight (Raising.tell (.startFlight spec.jobId))
  attempt setting spec

/-! ## `destroy` and `recreate` -/

/-- The pattern of a container name in `destroy`. -/
def containerNamePattern : Str → Bool :=
  matchesToEnd (word isAlnum isNameChar 80)

/-- `DestroyResult`, without the report of its steps. -/
structure DestroyResult where
  ok : Bool
  reason : Str := []
  retryLater : Bool := false
  deriving DecidableEq, Repr

/-- `removed.ok or "no such container" in stderr`. -/
def goneAfter (removed : CommandResult) : Bool :=
  removed.ok || contains (lower removed.stderr) "no such container".toList

/-- What `destroy` is asked to do beside removing the container. -/
structure Teardown where
  grace : ℤ := 30
  jobId : Str := []
  records : Bool := false
  volumeNames : List Str := []
  store : Bool := false
  pruneImages : Bool := true
  deriving DecidableEq, Repr

/-- The steps of `destroy` once the container is gone. -/
def clearAway (printable : Char → Bool) (t : Teardown) : Raising Shared Unit := do
  Raising.when (t.records && t.jobId ≠ []) do
    let _ ← onRecords (restoreJob t.jobId)
  let _ ← Raising.await GpuWedge.sweep
  Raising.when t.pruneImages (Raising.tell .imagePrune)
  Raising.await (Program.forEach (fun _ volume => do
    let _ ← Volumes.destroy printable volume) t.volumeNames ())
  Raising.when (t.store && t.jobId ≠ []) (Raising.modify fun shared =>
    { shared with store := shared.store.pop t.jobId })

/-- The result of `destroy` when the container could not be removed. -/
def refused (removed : CommandResult) : DestroyResult :=
  let stderr := lower removed.stderr
  let tail := strip (removed.stderrTail 300)
  { ok := false, reason := if tail = [] then removed.error else tail
    retryLater := (contains stderr "removal".toList && contains stderr "in progress".toList) ||
      removed.transportFailed }

/-- `destroy`. -/
def destroy (printable : Char → Bool) (name : Str) (t : Teardown) :
    Raising Shared DestroyResult :=
  if !containerNamePattern name then
    pure { ok := false, reason := "container name ".toList ++ pyRepr printable name ++
      " is not accepted".toList }
  else do
    let stop ← Raising.send (.stop t.grace name)
    -- a rig that was not reached is tried again later
    if stop.transportFailed then return { ok := false, reason := stop.error, retryLater := true }
    else do
      let removed ← Raising.send (.removeWithVolumes name)
      -- what `docker rm` says decides, not whether it stopped
      if goneAfter removed then do
        clearAway printable t
        return { ok := true }
      else do
        let _ ← Raising.await GpuWedge.sweep
        return refused removed

/-- `JobSpec.stop_grace`. -/
def stopGrace (spec : JobSpec) : ℤ :=
  if spec.kind = WorkKind.rental.value ∨ spec.kind = WorkKind.inference.value then 30 else 15

/-- `recreate`. -/
def recreate (setting : Setting) (spec : JobSpec) : Raising Shared CreateResult := do
  let spec := { spec with
    volumes := spec.volumes.map fun volume => { volume with create := false }
    devices := [] }
  let torn ← destroy setting.printer.printable spec.containerName
    { grace := stopGrace spec, pruneImages := false }
  if torn.ok then create { setting with inflight := false } spec
  else return { ok := false, step := "destroy".toList, reason := torn.reason
                container := spec.containerName }

/-! ## A small creation -/

/-- A setting in which the sample job is accepted. -/
def sampleSetting : Setting where
  printer := Json.asciiPrinter
  loads _ := .error .value
  allowlist := [sampleJob.image]

/-- The answer of a rig with the card of the sample job to the probe for devices. -/
def sampleProbe : Str :=
  "GPU-000000000000000000000000000000000000, 00000000:01:00.0\n---\n".toList ++
    "/proc/driver/nvidia/gpus/0000:01:00.0/information:Device Minor: 0\n---\n".toList ++
    "/dev/nvidia0\n".toList

end ComputePool.Validator.Containers
