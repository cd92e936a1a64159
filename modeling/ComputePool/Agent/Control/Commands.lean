import ComputePool.Foundations.Interleave
import ComputePool.Foundations.Dict
import ComputePool.Foundations.Json

/-!
# Commands of the server

`agent/control/handlers.py`: what the agent does when the server sends it a command, and what it
answers. A command runs as a coroutine of its own; some commands are answered in the turn in which
they start, the others wait for work in a thread, for docker or for the metrics pool.

* `handle`: the handler of a command; whatever it raises becomes an answer.
* `Effect`: what an answered command has done to the jobs, the drain flag and the claims.
* `settle_handle`: in the turn in which it starts, a command is either answered, and has had its
  effect, or it waits, and neither then nor later does it write the state of the agent.
-/

namespace ComputePool.Agent.Control

open Text
open Json (Printer Raised caught field)

/-! ## Commands and requests -/

/-- `Command`. -/
structure Command where
  id : ℤ
  kind : Str
  payload : Dict Str Json := []
  expiresAt : Str := []

/-- `Command.from_payload`. -/
def Command.fromPayload (p : Printer) (payload : Dict Str Json) : Except Raised Command := do
  let id ← caught 0 ((field payload "id" (.int 0)).orElse (.int 0)).toInt
  return {
    id
    kind := (field payload "kind" (.str [])).toStr p
    payload := match payload.get? "payload".toList with
      | some (.dict fields) => fields
      | _ => []
    expiresAt := (field payload "expires_at" (.str [])).textOr p }

/-- `JobRecord`, as the agent keeps it. -/
structure JobRecord where
  jobId : Str
  kind : Str
  subnet : Str := []
  pid : ℤ := 0
  gpuUuid : Str := []
  container : Str := []
  startedAt : Str := []
  deriving DecidableEq

/-- `JobRecord.from_payload`. -/
def JobRecord.fromPayload (p : Printer) (payload : Dict Str Json) : Except Raised JobRecord := do
  let pid ← caught 0 ((field payload "pid" (.int 0)).orElse (.int 0)).toInt
  return {
    jobId := (field payload "job_id" (.str [])).toStr p
    kind := (field payload "kind" (.str [])).toStr p
    subnet := (field payload "subnet" (.str [])).textOr p
    pid
    gpuUuid := (field payload "gpu_uuid" (.str [])).textOr p
    container := (field payload "container" (.str [])).textOr p
    startedAt := (field payload "started_at" (.str [])).textOr p }

/-- `number`: `int(payload.get(key, default) or default)`, or the default. -/
def number (payload : Dict Str Json) (key : String) (fallback : ℤ) : Except Raised ℤ :=
  caught fallback ((field payload key (.int fallback)).orElse (.int fallback)).toInt

/-- `ChallengeRequest`. -/
structure ChallengeRequest where
  seed : ℤ
  cipher : ℤ
  n : ℤ := 256
  rounds : ℤ := 2
  benchmarkN : ℤ := 2048
  iterations : ℤ := 32

/-- `ChallengeRequest.from_payload`. -/
def ChallengeRequest.fromPayload (payload : Dict Str Json) : Except Raised ChallengeRequest := do
  return {
    seed := ← number payload "seed" 0
    cipher := ← number payload "cipher" 0
    n := ← number payload "n" 256
    rounds := ← number payload "rounds" 2
    benchmarkN := ← number payload "benchmark_n" 2048
    iterations := ← number payload "iterations" 32 }

/-- `LogStreamRequest`. -/
structure LogStreamRequest where
  container : Str
  tail : ℤ := 200
  seconds : ℤ := 30

/-- `LogStreamRequest.from_payload`. -/
def LogStreamRequest.fromPayload (p : Printer) (payload : Dict Str Json) :
    Except Raised LogStreamRequest := do
  let container := ((field payload "container" (.str [])).orElse
    (field payload "name" (.str []))).textOr p
  let tail ← number payload "tail" 200
  let seconds ← number payload "seconds" 30
  return { container, tail := max 1 (min tail 500), seconds := max 1 (min seconds 300) }

/-- `NAME`. -/
def validName : Str → Bool :=
  matchesToEnd fun s => match s with
    | [] => false
    | c :: rest => c.isAlphanum && rest.length ≤ 127 &&
        rest.all fun c => c.isAlphanum || c = '_' || c = '.' || c = '-'

/-! ## The state of the agent -/

/-- An entry of `JobBook`. -/
structure JobEntry where
  job : JobRecord
  recordedAt : ℚ
  source : Str
  /-- Kept if there is any. -/
  detail : Dict Str Json := []

/-- What the handlers share with the rest of the agent: the drain flag, the jobs of `JobBook` and
the pending claims of `ClaimPrompter`. -/
structure Runtime where
  draining : Bool := false
  jobs : Dict Str JobEntry := []
  pending : Dict Str Str := []

/-- `JobBook.record`. -/
def Runtime.record (s : Runtime) (job : JobRecord) (now : ℚ) (source : Str)
    (detail : Dict Str Json) : Runtime :=
  { s with jobs := s.jobs.set job.jobId { job, recordedAt := now, source, detail } }

/-- What a handler waits for. -/
inductive Await
  /-- The first turn of the task. -/
  | start
  | spec
  | utilisation
  | challenge (request : ChallengeRequest)
  | attestation (nonce : Str)
  | dockerLogs (container : Str) (tail seconds : ℤ)
  | prefetch (image digest : Str)

/-- What a task finds in its first turn. -/
structure Began where
  now : ℚ := 0
  /-- Whether the challenge library is there. -/
  installed : Bool := true
  /-- The text of an exception that `print` raises. -/
  printError : Option Str := none

/-- How a wait ends. -/
inductive Reply
  | began (began : Began)
  | gave (view : Json)
  /-- `attestation.build` returns `None`. -/
  | none
  | exited (code : ℤ) (out : Str)
  /-- `PoolBusy` and `PoolTimeout`. -/
  | busy (text : Str)
  | timeout
  | raised (text : Str)

/-- What the handlers take from the interpreter. -/
structure Config where
  printer : Printer
  /-- The texts of its exceptions. -/
  raisedText : Raised → Str
  /-- `str.lower`. -/
  lower : Str → Str

/-- A handler, which may raise. -/
abbrev Task (α : Type) := ExceptT Str (Program Runtime Await Reply) α

/-- An answer: `ok` and the result. -/
abbrev Answer := Bool × Json

/-! ## Handlers -/

variable (cfg : Config)

/-- A conversion that may raise. -/
def orRaise {α : Type} : Except Raised α → Task α
  | .ok a => pure a
  | .error e => throw (cfg.raisedText e)

/-- Wait for work. -/
def await (what : Await) : Task Reply := do
  let r ← ExceptT.lift (Program.send what)
  match r with
  | .raised text => throw text
  | r => return r

/-- `{"error": text}`. -/
def errorOf (text : Str) : Json :=
  .dict [("error".toList, .str text)]

/-- `_spec`: a `TimeoutError` has no text. -/
def spec : Task Answer := do
  match ← await .spec with
  | .gave view => return (true, view)
  | _ => throw []

/-- `_utilisation`. -/
def utilisation : Task Answer := do
  match ← await .utilisation with
  | .gave view => return (true, view)
  | .busy text => return (false, errorOf text)
  | _ => throw []

/-- `_challenge`. -/
def challenge (began : Began) (command : Command) : Task Answer := do
  let request ← orRaise cfg (ChallengeRequest.fromPayload command.payload)
  if began.installed = false then
    return (false, errorOf "challenge library not installed".toList)
  else
    match ← await (.challenge request) with
    | .gave (.dict answer) => return (!(field answer "error" (.str [])).truthy, .dict answer)
    | _ => return (false, errorOf "challenge did not finish in time".toList)

/-- `_attestation`. -/
def attestation (command : Command) : Task Answer := do
  let nonce := cfg.lower (strip ((field command.payload "nonce" (.str [])).textOr cfg.printer))
  match ← await (.attestation nonce) with
  | .gave evidence => return (true, evidence)
  | .none =>
    return (false, errorOf "nonce must be 32 bytes as 64 lowercase hex characters".toList)
  | _ => return (false, errorOf "attestation did not finish in time".toList)

/-- `_job_placed`. -/
def jobPlaced (began : Began) (command : Command) : Task Answer := do
  let job ← orRaise cfg (JobRecord.fromPayload cfg.printer command.payload)
  if job.jobId = [] then return (false, errorOf "job_id required".toList)
  else
    let detail := match command.payload.get? "detail".toList with
      | some (.dict fields) => fields
      | _ => []
    ExceptT.lift (Program.modify fun s =>
      s.record job began.now "coordinator".toList detail)
    let s ← ExceptT.lift Program.read
    return (true, .dict [("recorded".toList, .str job.jobId),
      ("jobs".toList, .int s.jobs.length)])

/-- `_log_stream`. -/
def logStream (command : Command) : Task Answer := do
  let request ← orRaise cfg (LogStreamRequest.fromPayload cfg.printer command.payload)
  if validName request.container = false then
    return (false, errorOf "container name required".toList)
  else
    match ← await (.dockerLogs request.container request.tail request.seconds) with
    | .exited code out =>
      let lines := splitLines out
      let shown := lines.drop (lines.length - request.tail.toNat)
      return (code = 0, .dict [("container".toList, .str request.container),
        ("lines".toList, .list (shown.map .str)), ("code".toList, .int code),
        ("tail".toList, .int request.tail)])
    | _ => throw []

/-- `_prefetch`. -/
def prefetch (command : Command) : Task Answer := do
  let image := (field command.payload "image" (.str [])).textOr cfg.printer
  let digest := (field command.payload "digest" (.str [])).textOr cfg.printer
  if image = [] then return (false, errorOf "image required".toList)
  else
    match ← await (.prefetch image digest) with
    | .gave (.dict outcome) => return ((field outcome "ok" .null).truthy, .dict outcome)
    | _ => return (false, .dict [("error".toList, .str "prefetch did not finish in time".toList),
        ("image".toList, .str image)])

/-- `_drain`. -/
def drain (command : Command) : Task Answer := do
  let draining := (field command.payload "drain" (.bool true)).truthy
  ExceptT.lift (Program.modify fun s => { s with draining })
  let s ← ExceptT.lift Program.read
  return (true, .dict [("draining".toList, .bool s.draining),
    ("jobs_running".toList, .int s.jobs.length)])

/-- `_claim_prompt`, with `ClaimPrompter.prompt`: the claim is pending before the banner is
printed. -/
def claimPrompt (began : Began) (command : Command) : Task Answer := do
  let hotkey := (field command.payload "hotkey" (.str [])).textOr cfg.printer
  let expiresAt := (field command.payload "expires_at" (.str [])).textOr cfg.printer
  if hotkey = [] then return (false, errorOf "hotkey required".toList)
  else
    ExceptT.lift (Program.modify fun s => { s with pending := s.pending.set hotkey expiresAt })
    match began.printError with
    | some text => throw text
    | none => return (true, .dict [("prompted".toList, .str hotkey),
        ("expires_at".toList, .str expiresAt)])

/-- The entry of `HANDLERS`. -/
def handlerOf (began : Began) (command : Command) : Option (Task Answer) :=
  if command.kind = "SpecRequest".toList then some spec
  else if command.kind = "UtilisationRequest".toList then some utilisation
  else if command.kind = "ChallengeRequest".toList then some (challenge cfg began command)
  else if command.kind = "AttestationRequest".toList then some (attestation cfg command)
  else if command.kind = "JobPlaced".toList then some (jobPlaced cfg began command)
  else if command.kind = "LogStreamRequest".toList then some (logStream cfg command)
  else if command.kind = "PrefetchRequest".toList then some (prefetch cfg command)
  else if command.kind = "DrainRequest".toList then some (drain command)
  else if command.kind = "ClaimPrompt".toList then some (claimPrompt cfg began command)
  else none

/-- The answer to what a handler ends with: an exception is an error of the command. -/
def answerOf (command : Command) : Except Str Answer → Answer
  | .ok answer => answer
  | .error text =>
    (false, .dict [("error".toList, .str (text.take 500)), ("kind".toList, .str command.kind)])

/-- `handle`. -/
def handle (began : Began) (command : Command) : Program Runtime Await Reply Answer :=
  match handlerOf cfg began command with
  | none => pure (false, .dict [("error".toList, .str "unknown command".toList),
      ("kind".toList, .str command.kind)])
  | some handler => do
    let outcome ← handler.run
    return answerOf command outcome

/-- What the first turn of a task finds. -/
def beganOf : Reply → Began
  | .began began => began
  | _ => {}

/-- `_execute`, up to its answer. -/
def execute (command : Command) : Program Runtime Await Reply Answer := do
  let r ← Program.send .start
  handle cfg (beganOf r) command

/-! ## What a command does -/

/-- The commands whose handlers write the state of the agent. -/
def Command.Writes (command : Command) : Prop :=
  command.kind = "DrainRequest".toList ∨ command.kind = "JobPlaced".toList ∨
    command.kind = "ClaimPrompt".toList

/-- What a command has done when it is answered: `s` is the state before, `t` the state after. -/
inductive Effect (command : Command) (s : Runtime) : Answer → Runtime → Prop
  | drained (draining : Bool) (hkind : command.kind = "DrainRequest".toList) :
    Effect command s (true, .dict [("draining".toList, .bool draining),
      ("jobs_running".toList, .int s.jobs.length)]) { s with draining }
  | placed (entry : JobEntry) (hkind : command.kind = "JobPlaced".toList)
    (hid : entry.job.jobId ≠ []) :
    Effect command s (true, .dict [("recorded".toList, .str entry.job.jobId),
      ("jobs".toList, .int (s.jobs.set entry.job.jobId entry).length)])
      { s with jobs := s.jobs.set entry.job.jobId entry }
  /-- The answer is an error if the banner could not be printed. -/
  | prompted (hotkey expiresAt : Str) (answer : Answer)
    (hkind : command.kind = "ClaimPrompt".toList) :
    Effect command s answer { s with pending := s.pending.set hotkey expiresAt }
  | refused (result : Json) : Effect command s (false, result) s
  | other (answer : Answer) (hkind : ¬ command.Writes) : Effect command s answer s

variable {cfg}

theorem untouched_await (what : Await) : (await what).run.Untouched := by
  refine Program.untouched_run_bind (fun _ => trivial) fun r => ?_
  cases r <;> exact Program.untouched_pure _

theorem untouched_orRaise {α : Type} (r : Except Raised α) : (orRaise cfg r).run.Untouched := by
  cases r with
  | ok a => exact Program.untouched_pure _
  | error e => exact Program.untouched_pure _

theorem untouched_spec : spec.run.Untouched := by
  refine Program.untouched_run_bind (untouched_await _) fun r => ?_
  cases r <;> exact Program.untouched_pure _

theorem untouched_utilisation : utilisation.run.Untouched := by
  refine Program.untouched_run_bind (untouched_await _) fun r => ?_
  cases r <;> exact Program.untouched_pure _

/-- A challenge runs without writing the state. -/
theorem untouched_challenge (began : Began) (command : Command) :
    (challenge cfg began command).run.Untouched := by
  refine Program.untouched_run_bind (untouched_orRaise _) fun request => ?_
  split_ifs
  · exact Program.untouched_pure _
  · refine Program.untouched_run_bind (untouched_await _) fun r => ?_
    split <;> exact Program.untouched_pure _

theorem untouched_attestation (command : Command) :
    (attestation cfg command).run.Untouched := by
  refine Program.untouched_run_bind (untouched_await _) fun r => ?_
  cases r <;> exact Program.untouched_pure _

/-- So does a stream of a log. -/
theorem untouched_logStream (command : Command) : (logStream cfg command).run.Untouched := by
  refine Program.untouched_run_bind (untouched_orRaise _) fun request => ?_
  split_ifs
  · exact Program.untouched_pure _
  · refine Program.untouched_run_bind (untouched_await _) fun r => ?_
    cases r <;> exact Program.untouched_pure _

/-- So does a prefetch. -/
theorem untouched_prefetch (command : Command) : (prefetch cfg command).run.Untouched := by
  rw [prefetch]
  split_ifs
  · exact Program.untouched_pure _
  · refine Program.untouched_run_bind (untouched_await _) fun r => ?_
    split <;> exact Program.untouched_pure _

theorem settle_orRaise {α β : Type} (a : α) (f : α → Task β) (s : Runtime) :
    (orRaise cfg (.ok a) >>= f).run.settle s = (f a).run.settle s := rfl

/-- The handler ends in the turn in which it starts, and its command has had its effect. -/
def EndsAtOnce (command : Command) (handler : Task Answer) (s : Runtime) : Prop :=
  ∃ outcome t, handler.run.settle s = (.ret outcome, t) ∧
    Effect command s (answerOf command outcome) t

theorem endsAtOnce_drain {command : Command} (s : Runtime)
    (hkind : command.kind = "DrainRequest".toList) : EndsAtOnce command (drain command) s :=
  ⟨_, _, rfl, .drained _ hkind⟩

/-- A placed job is recorded or refused without waiting for anything. -/
theorem endsAtOnce_jobPlaced (began : Began) {command : Command} (s : Runtime)
    (hkind : command.kind = "JobPlaced".toList) :
    EndsAtOnce command (jobPlaced cfg began command) s := by
  rw [jobPlaced]
  cases JobRecord.fromPayload cfg.printer command.payload with
  | error e => exact ⟨_, s, rfl, .refused _⟩
  | ok job =>
    rw [EndsAtOnce, settle_orRaise]
    by_cases hid : job.jobId = []
    · rw [if_pos hid]
      exact ⟨_, s, rfl, .refused _⟩
    · rw [if_neg hid]
      exact ⟨_, _, rfl,
        .placed { job, recordedAt := began.now, source := _, detail := _ } hkind hid⟩

/-- So is a prompt, also when printing it fails. -/
theorem endsAtOnce_claimPrompt (began : Began) {command : Command} (s : Runtime)
    (hkind : command.kind = "ClaimPrompt".toList) :
    EndsAtOnce command (claimPrompt cfg began command) s := by
  rw [claimPrompt]
  split_ifs with hhotkey
  · exact ⟨_, s, rfl, .refused _⟩
  · cases began.printError with
    | some text => exact ⟨_, _, rfl, .prompted _ _ _ hkind⟩
    | none => exact ⟨_, _, rfl, .prompted _ _ _ hkind⟩

/-- A command that writes the state is answered at once; any other one never writes it. -/
theorem settle_handle (cfg : Config) (began : Began) (command : Command) (s : Runtime) :
    (∃ answer t, (handle cfg began command).settle s = (.ret answer, t) ∧
      Effect command s answer t) ∨
    ¬ command.Writes ∧ (handle cfg began command).Untouched := by
  have hanswer {handler : Task Answer} (h : EndsAtOnce command handler s) :
      ∃ answer t, (handler.run >>= fun outcome => pure (answerOf command outcome)).settle s =
        (.ret answer, t) ∧ Effect command s answer t := by
    obtain ⟨outcome, t, hsettle, heffect⟩ := h
    exact ⟨_, t, (Program.settle_bind_of_ret hsettle _).trans rfl, heffect⟩
  have hwaits {handler : Task Answer} (h : handler.run.Untouched) :
      (handler.run >>= fun outcome =>
        (pure (answerOf command outcome) : Program Runtime Await Reply Answer)).Untouched :=
    h.bind fun _ => Program.untouched_pure _
  by_cases hwrites : command.Writes
  · left
    rcases hwrites with hkind | hkind | hkind
    · have hhandler : handlerOf cfg began command = some (drain command) := by
        simp [handlerOf, hkind]
      rw [handle, hhandler]
      exact hanswer (endsAtOnce_drain s hkind)
    · have hhandler : handlerOf cfg began command = some (jobPlaced cfg began command) := by
        simp [handlerOf, hkind]
      rw [handle, hhandler]
      exact hanswer (endsAtOnce_jobPlaced began s hkind)
    · have hhandler : handlerOf cfg began command = some (claimPrompt cfg began command) := by
        simp [handlerOf, hkind]
      rw [handle, hhandler]
      exact hanswer (endsAtOnce_claimPrompt began s hkind)
  · refine .inr ⟨hwrites, ?_⟩
    simp only [Command.Writes, not_or] at hwrites
    rw [handle, handlerOf]
    split_ifs with hspec hutilisation hchallenge hattestation hplaced hlogs hprefetch hdrain hclaim
    · exact hwaits untouched_spec
    · exact hwaits untouched_utilisation
    · exact hwaits (untouched_challenge began command)
    · exact hwaits (untouched_attestation command)
    · exact absurd hplaced hwrites.2.1
    · exact hwaits (untouched_logStream command)
    · exact hwaits (untouched_prefetch command)
    · exact absurd hdrain hwrites.1
    · exact absurd hclaim hwrites.2.2
    · exact Program.untouched_pure _

end ComputePool.Agent.Control
