import ComputePool.Foundations.Program
import ComputePool.Validator.Work.JobSpec

/-!
# Commands on a rig

`validator/session/runner.py`: what a command on a rig gives back, and the commands that the modules
about work, storage and recovery send. A command is named by what it does and the values that are
filled into its text. `SshRunner.run` does not raise: a time-out and a broken connection come back
as results.
-/

namespace ComputePool.Validator

open Text

/-- `CommandResult`. -/
structure CommandResult where
  exitCode : ℤ
  stdout : Str := []
  stderr : Str := []
  error : Str := []
  deriving DecidableEq, Repr

namespace CommandResult

/-- `CommandResult.ok`. -/
def ok (r : CommandResult) : Bool :=
  r.exitCode = 0 && r.error = []

/-- `CommandResult.transport_failed`. -/
def transportFailed (r : CommandResult) : Bool :=
  r.error ≠ [] && r.exitCode < 0

/-- `CommandResult.stderr_tail`. -/
def stderrTail (r : CommandResult) (chars : ℕ) : Str :=
  r.stderr.drop (r.stderr.length - chars)

/-- `result.error or result.stderr_tail(chars)`, without the white space around it. -/
def complaint (r : CommandResult) (chars : ℕ) : Str :=
  strip (if r.error ≠ [] then r.error else r.stderrTail chars)

end CommandResult

/-- The commands. -/
inductive Command
  -- containers
  | pull (image : Str)
  | removeContainer (target : Str)
  /-- `docker rm -f -v`: with the anonymous volumes. -/
  | removeWithVolumes (target : Str)
  | stop (grace : ℤ) (target : Str)
  | restart (target : Str)
  /-- The text of `run_command`. -/
  | dockerRun (spec : JobSpec)
  | inspectState (target : Str)
  | logs (target : Str)
  | removeProbes
  /-- `docker ps -a` on the containers with the owner label. -/
  | listOwn
  | imagePrune
  | listDangling
  | removeDangling
  -- volumes
  | createVolume (volume : VolumeSpec)
  | removeVolume (name : Str)
  | listVolumes
  | listMounts
  | writeMountScript (container : Str) (volume : VolumeSpec) (fresh : Bool)
  | runMountScript (container : Str)
  | readMounts (container : Str)
  | chown (container user path : Str)
  -- the host
  | listPorts
  | probeDevices
  -- nvidia-smi
  | queryPower (uuid : Str)
  | persistenceMode (uuid : Str)
  | setPower (uuid : Str) (watts : ℤ)
  | queryApps
  | queryWedge
  | cure (uuid : Str)
  /-- `nvidia-smi -L` inside a container. -/
  | probeGpus (target : Str)
  /-- `asyncio.sleep`: no command, but a point at which other coroutines run. -/
  | sleep
  -- the table of creations in flight, which other coroutines write to; these do not wait
  | startFlight (jobId : Str)
  /-- `inflight.cancelled`: the result is an error when the flag is set. -/
  | checkFlight (jobId : Str)
  | finishFlight (jobId : Str)
  deriving DecidableEq, Repr

/-- The command lists containers or volumes. -/
def Command.lists : Command → Bool
  | .listOwn | .listVolumes | .listMounts => true
  | _ => false

/-- The command changes nothing that other commands of the pool depend on: it starts, stops and
removes no container and no volume, sets no power limit, and does not concern the table of
creations. The listings that decide what is removed do not count either. -/
def Command.quiet : Command → Bool
  | .removeContainer _ | .removeWithVolumes _ | .dockerRun _ | .removeProbes => false
  | .stop _ _ | .restart _ => false
  | .listOwn | .listVolumes | .listMounts => false
  | .createVolume _ | .removeVolume _ => false
  | .setPower _ _ => false
  | .startFlight _ | .checkFlight _ | .finishFlight _ => false
  | _ => true

/-- The exceptions the modelled code meets. -/
inductive Exn
  | cancelled (message : Str)
  | value
  | overflow
  | recursion
  deriving DecidableEq, Repr

/-- A coroutine on the state `σ` of the validator. -/
abbrev Task (σ α : Type) := Program σ Command CommandResult α

/-- A coroutine that may raise. -/
abbrev Raising (σ α : Type) := ExceptT Exn (Program σ Command CommandResult) α

namespace Raising

variable {σ α : Type}

/-- Wait for a coroutine that does not raise. -/
def await (task : Task σ α) : Raising σ α :=
  ExceptT.lift task

/-- Send a command and wait for its result. -/
def send (c : Command) : Raising σ CommandResult :=
  await (Program.send c)

/-- The state of the validator. -/
def read : Raising σ σ :=
  await Program.read

/-- Change the state of the validator. -/
def modify (f : σ → σ) : Raising σ Unit :=
  await (Program.modify f)

/-- Do something only if `b`. -/
def when (b : Bool) (p : Raising σ Unit) : Raising σ Unit :=
  if b then p else pure ()

/-- Send a command whose result nobody looks at. -/
def tell (c : Command) : Raising σ Unit :=
  await (Program.call c fun _ => Program.ret ())

variable {ο ω : Type} {exec : Command → ο → ω → Option (CommandResult × ω)}
  {I : σ → ω → Prop}

@[simp]
theorem wp_await (task : Task σ α) (Q : Except Exn α → σ → ω → Prop) (s : σ) (w : ω) :
    Program.wp exec I (await task).run Q s w ↔
      task.wp exec I (fun a s w => Q (.ok a) s w) s w :=
  Program.wp_run_lift task Q s w

@[simp]
theorem wp_send (c : Command) (Q : Except Exn CommandResult → σ → ω → Prop) (s : σ) (w : ω) :
    Program.wp exec I (send c).run Q s w ↔
      I s w ∧ ∀ o r w', exec c o w = some (r, w') → Q (.ok r) s w' := Iff.rfl

@[simp]
theorem wp_tell (c : Command) (Q : Except Exn Unit → σ → ω → Prop) (s : σ) (w : ω) :
    Program.wp exec I (tell c).run Q s w ↔
      I s w ∧ ∀ o r w', exec c o w = some (r, w') → Q (.ok ()) s w' := Iff.rfl

@[simp]
theorem wp_read (Q : Except Exn σ → σ → ω → Prop) (s : σ) (w : ω) :
    Program.wp exec I (read : Raising σ σ).run Q s w ↔ Q (.ok s) s w := Iff.rfl

@[simp]
theorem wp_modify (f : σ → σ) (Q : Except Exn Unit → σ → ω → Prop) (s : σ) (w : ω) :
    Program.wp exec I (modify f : Raising σ Unit).run Q s w ↔ Q (.ok ()) (f s) w := Iff.rfl

/-- A branch that is taken or skipped. -/
theorem wp_when {b : Bool} {p : Raising σ Unit} {Q : Except Exn Unit → σ → ω → Prop} {s : σ} {w : ω}
    (hdo : b → Program.wp exec I p.run Q s w) (hskip : b = false → Q (.ok ()) s w) :
    Program.wp exec I (when b p).run Q s w := by
  cases b with
  | false => exact hskip rfl
  | true => exact hdo rfl

variable {S : Command → Prop} {J : σ → Prop}

/-- A branch that may be skipped. -/
theorem within_when {b : Bool} {p : Raising σ Unit}
    (h : b → p.run.within S J fun _ => True) : (when b p).run.within S J fun _ => True := by
  cases b with
  | false => trivial
  | true => exact h rfl

@[simp]
theorem within_tell (c : Command) (Q : Except Exn Unit → Prop) :
    (tell c : Raising σ Unit).run.within S J Q ↔ S c ∧ (CommandResult → Q (.ok ())) := Iff.rfl

@[simp]
theorem within_await (task : Task σ α) (Q : Except Exn α → Prop) :
    (await task).run.within S J Q ↔ task.within S J fun a => Q (.ok a) :=
  Program.within_run_lift task Q

@[simp]
theorem within_send (c : Command) (Q : Except Exn CommandResult → Prop) :
    (send c : Raising σ CommandResult).run.within S J Q ↔ S c ∧ ∀ r, Q (.ok r) := Iff.rfl

@[simp]
theorem within_read (Q : Except Exn σ → Prop) :
    (read : Raising σ σ).run.within S J Q ↔ ∀ s, J s → Q (.ok s) := Iff.rfl

@[simp]
theorem within_modify (f : σ → σ) (Q : Except Exn Unit → Prop) :
    (modify f : Raising σ Unit).run.within S J Q ↔ ∀ s, J s → J (f s) ∧ Q (.ok ()) := Iff.rfl

end Raising

end ComputePool.Validator
