import ComputePool.Validator.Storage.Volumes
import ComputePool.Validator.Work.Power

/-!
# The rig at the other end

What the commands do to a rig, as far as docker and the driver document it. Every command may end
with any result; what is fixed is which effect it may have, that a result without an error means
the effect took place, and that the answers to queries without an error are true.

* A command that fails or times out may have had its effect or not. The power limit is the
  exception: it changes only with a success.
* `docker run` needs a free name, and makes the volumes it mounts that do not exist.
* `docker volume rm` removes a volume only if no container mounts it. A volume that is removed and
  made again is another volume, which its `serial` tells.
* `docker volume ls` and `docker ps -a` list everything there is.
-/

namespace ComputePool.Validator

open Text Numeral

/-- A container of the rig. -/
structure Container where
  id : Str
  name : Str
  /-- The labels `mt.job` and `mt.kind`. -/
  job : Str := []
  kind : Str := []
  /-- The names of the volumes it mounts. -/
  mounts : List Str := []
  deriving DecidableEq, Repr

/-- The container is meant by `target`. -/
def Container.answersTo (c : Container) (target : Str) : Bool :=
  c.name = target || c.id = target

/-- A volume of the rig. -/
structure Volume where
  name : Str
  serial : ℕ
  deriving DecidableEq, Repr

/-- The rig. -/
structure Host where
  containers : List Container := []
  volumes : List Volume := []
  /-- The serial number of the next volume. -/
  fresh : ℕ := 0
  /-- The power limit of each card in watts. -/
  limit : Str → ℤ := fun _ => 0

/-- How a command ends: its result, whether it had its effect, and the id of the container it
made. -/
structure Outcome where
  result : CommandResult
  took : Bool := true
  newId : Str := []
  deriving DecidableEq, Repr

/-- A command that ends well. -/
def succeeds (stdout : Str) : Outcome where
  result := { exitCode := 0, stdout }

/-- A command that times out, with its effect or without. -/
def timesOut (took : Bool) : Outcome where
  result := { exitCode := -1, error := "timed out".toList }
  took

namespace Host

/-- A container of this name exists. -/
def named (h : Host) (name : Str) : Bool :=
  h.containers.any (·.name = name)

/-- Some container mounts the volume. -/
def mounted (h : Host) (volume : Str) : Bool :=
  h.containers.any (volume ∈ ·.mounts)

/-- Make a volume, unless there is one of this name. -/
def addVolume (h : Host) (name : Str) : Host :=
  if h.volumes.any (·.name = name) then h
  else { h with volumes := h.volumes ++ [⟨name, h.fresh⟩], fresh := h.fresh + 1 }

/-- Remove a volume, unless it is mounted. -/
def dropVolume (h : Host) (name : Str) : Host :=
  if h.mounted name then h else { h with volumes := h.volumes.filter (·.name ≠ name) }

/-- Make the container of a job, with the volumes it mounts. -/
def addContainer (h : Host) (spec : JobSpec) (id : Str) : Host :=
  let h := (spec.volumes.map VolumeSpec.name).foldl addVolume h
  let container : Container :=
    { id, name := spec.containerName, job := spec.jobId, kind := spec.kind
      mounts := spec.volumes.map VolumeSpec.name }
  { h with containers := h.containers ++ [container] }

/-- What a command does when it has its effect. -/
def effect (h : Host) (id : Str) : Command → Host
  | .removeContainer target | .removeWithVolumes target =>
    { h with containers := h.containers.filter (!·.answersTo target) }
  | .removeProbes => { h with containers := h.containers.filter (·.kind ≠ "probe".toList) }
  | .dockerRun spec => h.addContainer spec id
  | .createVolume volume => h.addVolume volume.name
  | .removeVolume name => h.dropVolume name
  | .setPower uuid watts =>
    { h with limit := fun card => if card = uuid then watts else h.limit card }
  | _ => h

/-- What an outcome says about the rig is true. -/
def truthful (h : Host) (o : Outcome) : Command → Bool
  | .dockerRun spec => !(o.took && h.named spec.containerName)
  | .removeVolume name => !(o.result.ok && h.mounted name)
  | .setPower _ _ => o.took = o.result.ok
  | .listVolumes => !o.result.ok ||
      ((Volumes.oursIn o.result.stdout).all fun name => h.volumes.any (·.name = name)) &&
        h.volumes.all fun volume =>
          !validVolume volume.name || volume.name ∈ Volumes.oursIn o.result.stdout
  | .listMounts => !o.result.ok ||
      ((Volumes.mountedIn o.result.stdout).all fun name => h.mounted name) &&
        h.containers.all fun c => c.mounts.all fun name =>
          !startsWith name volumePrefix || name ∈ Volumes.mountedIn o.result.stdout
  | .queryPower uuid => !o.result.ok ||
      (parsePowerState o.result.stdout).all fun state => state.limitW = .fin (h.limit uuid)
  | _ => true

/-- A command ends. -/
def exec (c : Command) (o : Outcome) (h : Host) : Option (CommandResult × Host) :=
  if (o.result.ok → o.took) ∧ h.truthful o c then
    some (o.result, if o.took then h.effect o.newId c else h)
  else none

/-! ## What a command leaves alone -/

/-- What is known of a command that ended: its answer was truthful, and it took effect if it was
answered well. -/
theorem exec_eq_some {c : Command} {o : Outcome} {h h' : Host} {r : CommandResult}
    (hexec : exec c o h = some (r, h')) : r = o.result ∧ (o.result.ok → o.took) ∧
      h.truthful o c ∧ h' = if o.took then h.effect o.newId c else h := by
  by_cases hcond : (o.result.ok → o.took) ∧ h.truthful o c
  · rw [exec, if_pos hcond] at hexec
    obtain ⟨rfl, rfl⟩ := Prod.mk.inj (Option.some.inj hexec)
    exact ⟨rfl, hcond.1, hcond.2, rfl⟩
  · rw [exec, if_neg hcond] at hexec
    exact absurd hexec (by simp)

/-- Every command may time out without an effect. -/
theorem exec_timesOut (c : Command) (h : Host) :
    exec c (timesOut false) h = some ((timesOut false).result, h) := by
  have htrue : h.truthful (timesOut false) c := by
    cases c with
    | _ => rfl
  rw [exec, if_pos ⟨by decide, htrue⟩]
  rfl

/-- A new volume changes no limit. -/
@[simp]
theorem addVolume_limit (h : Host) (name : Str) : (h.addVolume name).limit = h.limit := by
  rw [addVolume]
  split_ifs
  · rfl
  · rfl

/-- Nor does one that goes. -/
@[simp]
theorem dropVolume_limit (h : Host) (name : Str) : (h.dropVolume name).limit = h.limit := by
  rw [dropVolume]
  split_ifs
  · rfl
  · rfl

theorem foldl_addVolume_limit (names : List Str) (h : Host) :
    (names.foldl addVolume h).limit = h.limit := by
  induction names generalizing h with
  | nil => rfl
  | cons name names ih => rw [List.foldl_cons, ih, addVolume_limit]

/-- Only one command changes a power limit. -/
theorem effect_limit (h : Host) (id : Str) {c : Command}
    (hc : ∀ uuid watts, c ≠ .setPower uuid watts) :
    (h.effect id c).limit = h.limit := by
  cases c with
  | setPower uuid watts => exact absurd rfl (hc uuid watts)
  | dockerRun spec => exact foldl_addVolume_limit _ h
  | createVolume volume => exact addVolume_limit h volume.name
  | removeVolume name => exact dropVolume_limit h name
  | _ => rfl

/-- Only setting a limit changes one. -/
theorem exec_limit {c : Command} {o : Outcome} {h h' : Host} {r : CommandResult}
    (hc : ∀ uuid watts, c ≠ .setPower uuid watts) (hexec : exec c o h = some (r, h')) :
    h'.limit = h.limit := by
  obtain ⟨-, -, -, rfl⟩ := exec_eq_some hexec
  split_ifs
  · exact effect_limit h o.newId hc
  · rfl

/-- The limit is set exactly when the command succeeds. -/
theorem exec_setPower {uuid : Str} {watts : ℤ} {o : Outcome} {h h' : Host} {r : CommandResult}
    (hexec : exec (.setPower uuid watts) o h = some (r, h')) :
    h'.limit = if r.ok then Function.update h.limit uuid watts else h.limit := by
  obtain ⟨rfl, -, htrue, rfl⟩ := exec_eq_some hexec
  have htook : o.took = o.result.ok := by simpa [truthful] using htrue
  rw [htook]
  by_cases hok : o.result.ok
  · rw [if_pos hok, if_pos hok]
    funext card
    by_cases hcard : card = uuid
    · simp [effect, hcard]
    · simp [effect, hcard]
  · rw [if_neg hok, if_neg hok]

/-- A query that is answered gives the limit. -/
theorem exec_queryPower {uuid : Str} {o : Outcome} {h h' : Host} {r : CommandResult}
    (hexec : exec (.queryPower uuid) o h = some (r, h')) : h' = h ∧
      ∀ state, r.ok → parsePowerState r.stdout = some state →
        state.limitW = .fin (h.limit uuid) := by
  obtain ⟨rfl, -, htrue, rfl⟩ := exec_eq_some hexec
  refine ⟨by split_ifs <;> rfl, fun state hok hstate => ?_⟩
  simpa [truthful, hok, hstate] using htrue

end Host

end ComputePool.Validator
