import ComputePool.Validator.Storage.Teardowns
import ComputePool.Validator.Verify.Exclusivity
import ComputePool.Validator.Work.Footprints

/-!
# The storage sweep

`sweep` of `validator/storage/sweep.py` removes three kinds of things from a rig: containers whose
teardown failed before, containers of jobs that are not running, and volumes that no container
mounts. The first kind comes from the table of retries, the second from a listing with labels, the
third from two more listings. Only the second looks at the set of running jobs.

* `Touches`: a command concerns a container or a volume of a running job.
* `Clear`: the table and the listings name nothing of a running job.
* `spares_running_iff`: what is clear is not touched; and where the removals succeed, what is not
  touched was clear.
-/

namespace ComputePool.Validator.Sweep

open Text Numeral
open Verify.Exclusivity (OwnContainer parseContainers)

/-- The state a sweep works on: what the coroutines share, and the table of retries. -/
structure Sweeping where
  shared : Containers.Shared := {}
  retries : TeardownRetries := {}

/-- Wait for a coroutine that does not know of the retries. -/
def onShared {α : Type} (p : Raising Containers.Shared α) : Raising Sweeping α :=
  ExceptT.mk (p.run.zoom Sweeping.shared fun s shared => { s with shared })

/-- The arguments of `sweep`. `now` are the readings of the clock when a teardown is recorded
again. -/
structure Setting where
  printable : Char → Bool
  rigId : Str
  running : List Str
  /-- Whether the optional arguments are given. -/
  retries : Bool := true
  records : Bool := true
  store : Bool := true
  now : Str → ℚ := fun _ => 0
  gpuUuids : List Str := []

/-- What `destroy` is asked to do by the sweep. -/
def teardown (setting : Setting) (jobId : Str) (volumeNames : List Str) : Containers.Teardown where
  grace := 15
  jobId
  records := setting.records
  volumeNames
  store := setting.store
  pruneImages := false

/-! ## The three removers -/

/-- The loop of `retry_teardowns`: what is done, and what failed. -/
def retryEach (setting : Setting) :
    List (Str × Teardown) → Raising Sweeping (List Str × List Str)
  | [] => pure ([], [])
  | (name, entry) :: rest => do
    let outcome ← onShared (Containers.destroy setting.printable name
      (teardown setting entry.jobId entry.volumes))
    if outcome.ok then do
      Raising.modify fun s => { s with retries := s.retries.forget name true }
      let (done, failed) ← retryEach setting rest
      return (name :: done, failed)
    -- what failed once more stays in the table, with the new time
    else do
      Raising.modify fun s => { s with
        retries := s.retries.add setting.rigId name entry.jobId entry.volumes (setting.now name)
          true }
      let (done, failed) ← retryEach setting rest
      return (done, (name ++ ": ".toList ++ outcome.reason) :: failed)

/-- `retry_teardowns`. -/
def retryTeardowns (setting : Setting) : Raising Sweeping (List Str × List Str) := do
  let s ← Raising.read
  retryEach setting (s.retries.forRig setting.rigId)

/-- `own_containers`: the containers, and what is wrong with the listing. -/
def ownContainers {σ : Type} : Task σ (List OwnContainer × Str) := do
  let result ← Program.send .listOwn
  return if result.ok then (parseContainers result.stdout, []) else ([], result.complaint 200)

/-- `container.name or container.id`. -/
def target (c : OwnContainer) : Str :=
  if c.name = [] then c.id else c.name

/-- `container.job and container.job in running_jobs`. -/
def isRunning (setting : Setting) (c : OwnContainer) : Bool :=
  c.job ≠ [] && c.job ∈ setting.running

/-- The volume of the job of an orphan, if it has a name that is accepted. -/
def volumeNames (c : OwnContainer) : List Str :=
  if c.job ≠ [] && validVolume (volumePrefix ++ c.job) then [volumePrefix ++ c.job] else []

/-- The loop of `orphaned_containers`. -/
def orphanEach (setting : Setting) : List OwnContainer → Raising Sweeping (List Str × List Str)
  | [] => pure ([], [])
  | c :: rest =>
    if isRunning setting c then orphanEach setting rest
    else do
      let outcome ← onShared (Containers.destroy setting.printable (target c)
        (teardown setting c.job (volumeNames c)))
      let (removed, errors) ← orphanEach setting rest
      return if outcome.ok then (target c :: removed, errors)
        else (removed, (target c ++ ": ".toList ++ outcome.reason) :: errors)

/-- `orphaned_containers`. -/
def orphanedContainers (setting : Setting) : Raising Sweeping (List Str × List Str) := do
  let (ours, error) ← Raising.await ownContainers
  if error ≠ [] then return ([], [error])
  else orphanEach setting ours

/-! ## The rest of the sweep -/

/-- `dangling_images`. -/
def danglingImages {σ : Type} : Task σ ℕ := do
  let listing ← Program.send .listDangling
  let ids := ((splitLines listing.stdout).map strip).filter (· ≠ [])
  if !listing.ok || ids = [] then return 0
  else do
    let _ ← Program.send .removeDangling
    return ids.length

/-- `MIN_RATIO * default_w`. -/
def lowestLimit : PyFloat → PyFloat
  | .fin watts => .fin (9 / 10 * watts)
  | watts => watts

/-- `raise_low_limits`. -/
def raiseLowLimits {σ : Type} : List Str → Raising σ (List Str)
  | [] => pure []
  | uuid :: uuids => do
    match ← Raising.await (readState uuid) with
    | none => raiseLowLimits uuids
    | some state =>
      if !state.defaultW.positive || !PyFloat.lt state.limitW (lowestLimit state.defaultW) then
        raiseLowLimits uuids
      else do
        let raised ← setLimit uuid state.defaultW
        let rest ← raiseLowLimits uuids
        return if raised.isSome then uuid :: rest else rest

/-- `SweepReport`. -/
structure SweepReport where
  staleVolumes : List Str := []
  orphanedContainers : List Str := []
  danglingImages : ℕ := 0
  retriedTeardowns : List Str := []
  failedTeardowns : List Str := []
  powerRaised : List Str := []
  errors : List Str := []
  deriving DecidableEq, Repr

/-- The steps of `sweep` after the retries. -/
def afterRetries (setting : Setting) (retried failed : List Str) :
    Raising Sweeping SweepReport := do
  let (orphaned, errors) ← orphanedContainers setting
  let stale ← Raising.await (Containers.removeStaleVolumes setting.printable)
  let dangling ← Raising.await danglingImages
  let raised ← raiseLowLimits setting.gpuUuids
  return { staleVolumes := stale, orphanedContainers := orphaned, danglingImages := dangling
           retriedTeardowns := retried, failedTeardowns := failed, powerRaised := raised, errors }

/-- `sweep`. -/
def sweep (setting : Setting) : Raising Sweeping SweepReport :=
  if setting.retries then do
    let (retried, failed) ← retryTeardowns setting
    afterRetries setting retried failed
  else afterRetries setting [] []

/-! ## What a sweep sends -/

section Footprints

variable {S : Command → Prop} {setting : Setting}

theorem within_onShared {α : Type} {p : Raising Containers.Shared α}
    (h : p.run.within S (fun _ => True) fun _ => True) :
    (onShared p).run.within S (fun _ => True) fun _ => True :=
  Program.within_zoom (fun _ _ _ => trivial) h

/-- The teardown stays within `S`. -/
def TearsWithin (S : Command → Prop) (setting : Setting) (name jobId : Str) (volumes : List Str) :
    Prop :=
  (onShared (Containers.destroy setting.printable name (teardown setting jobId volumes))).run.within
    S (fun _ => True) fun _ => True

/-- The retries send what the teardowns of their entries send. -/
theorem within_retryEach {rest : List (Str × Teardown)}
    (h : ∀ e ∈ rest, TearsWithin S setting e.1 e.2.jobId e.2.volumes) :
    (retryEach setting rest).run.within S (fun _ => True) fun _ => True := by
  induction rest with
  | nil => trivial
  | cons e rest ih =>
    have hrest := ih fun e' he' => h e' (List.mem_cons_of_mem e he')
    refine Program.within_run_seq (h e List.mem_cons_self) fun d => ?_
    by_cases hok : d.ok
    · rw [if_pos hok]
      refine Program.within_run_seq (fun _ _ => ⟨trivial, trivial⟩) fun _ => ?_
      exact Program.within_run_seq hrest fun _ => trivial
    · rw [if_neg hok]
      refine Program.within_run_seq (fun _ _ => ⟨trivial, trivial⟩) fun _ => ?_
      exact Program.within_run_seq hrest fun _ => trivial

/-- The containers of running jobs are skipped. -/
theorem within_orphanEach {rest : List OwnContainer} (h : ∀ c ∈ rest, !isRunning setting c →
      TearsWithin S setting (target c) c.job (volumeNames c)) :
    (orphanEach setting rest).run.within S (fun _ => True) fun _ => True := by
  induction rest with
  | nil => trivial
  | cons c rest ih =>
    have hrest := ih fun c' hc' => h c' (List.mem_cons_of_mem c hc')
    rw [orphanEach]
    by_cases hrunning : isRunning setting c
    · rw [if_pos hrunning]
      exact hrest
    · rw [if_neg hrunning]
      refine Program.within_run_seq (h c List.mem_cons_self (by simpa using hrunning)) fun d => ?_
      exact Program.within_run_seq hrest fun _ => trivial

variable (quiet : ∀ c : Command, c.quiet → S c)
include quiet

/-- Images are pruned quietly. -/
theorem within_danglingImages :
    (danglingImages : Task Sweeping ℕ).within S (fun _ => True) fun _ => True := by
  simp only [danglingImages, Program.within_bind, Program.within_send]
  refine ⟨quiet _ rfl, fun listing => ?_⟩
  split_ifs
  · trivial
  · exact ⟨quiet _ rfl, fun _ => trivial⟩

/-- Only power limits are set here. -/
theorem within_raiseLowLimits (power : ∀ uuid watts, S (.setPower uuid watts)) (uuids : List Str) :
    (raiseLowLimits uuids : Raising Sweeping (List Str)).run.within S (fun _ => True)
      fun _ => True := by
  induction uuids with
  | nil => trivial
  | cons uuid uuids ih =>
    have hread := within_readState quiet uuid (σ := Sweeping) (J := fun _ => True)
    refine Program.within_run_seq ((Raising.within_await _ _).mpr hread) fun state => ?_
    cases state with
    | none => exact ih
    | some state =>
      -- a limit is raised only where it is below the default
      dsimp only
      split_ifs
      · exact ih
      · have hset := within_setLimit quiet power uuid state.defaultW (σ := Sweeping)
          (J := fun _ => True)
        refine Program.within_run_seq hset fun _ => ?_
        exact Program.within_run_seq ih fun _ => trivial

end Footprints

/-! ## What belongs to running jobs -/

/-- The commands of a sweep, and what the rig answered. -/
abbrev Journal := List (Command × CommandResult)

/-- A rig that may answer anything. -/
def answer (_ : Command) (r : CommandResult) (_ : Unit) : Option (CommandResult × Unit) :=
  some (r, ())

/-- What is on the rig: the label `mt.job` of the container that a name or an id means, and the
volumes of each job. -/
structure Rig where
  labelOf : Str → Str
  volumesOf : Str → List Str

section Running

variable (setting : Setting) (rig : Rig) (entries : List (Str × Teardown))

/-- The container is one of a running job, by its label or by its entry among the retries. -/
def Busy (name : Str) : Prop :=
  rig.labelOf name ∈ setting.running ∨
    ∃ e ∈ entries, e.1 = name ∧ e.2.jobId ∈ setting.running

/-- The volume is one of a running job. -/
def Kept (volume : Str) : Prop :=
  ∃ job ∈ setting.running, volume ∈ rig.volumesOf job

/-- The command stops or removes a container of a running job, or removes a volume of one. -/
def Touches : Command → Prop
  | .stop _ name | .removeContainer name | .removeWithVolumes name => Busy setting rig entries name
  | .removeVolume volume => Kept setting rig volume
  | _ => False

/-- No command of the sweep touches running work. -/
def Untouched (log : Journal) : Prop :=
  ∀ e ∈ log, ¬ Touches setting rig entries e.1

/-- The container and the volumes of a teardown are not those of a running job. -/
def Free (name : Str) (volumes : List Str) : Prop :=
  Containers.containerNamePattern name →
    ¬ Busy setting rig entries name ∧ ∀ v ∈ volumes, validVolume v → ¬ Kept setting rig v

/-- Nothing of a running job is named: by an entry of the retries, by a container of the listing
that the loop does not skip, or as a volume that is listed and not mounted. -/
structure Clear (log : Journal) : Prop where
  retried : ∀ e ∈ entries, Free setting rig entries e.1 e.2.volumes
  orphaned : ∀ r, (Command.listOwn, r) ∈ log → r.ok → ∀ c ∈ parseContainers r.stdout,
    !isRunning setting c → Free setting rig entries (target c) (volumeNames c)
  stale : ∀ listed mounts, (Command.listVolumes, listed) ∈ log →
    (Command.listMounts, mounts) ∈ log → listed.ok → mounts.ok → ∀ v ∈ Volumes.oursIn listed.stdout,
      v ∉ Volumes.mountedIn mounts.stdout → ¬ Kept setting rig v

/-- Every container was stopped and removed, as far as the rig says. -/
structure Removed (log : Journal) : Prop where
  stop : ∀ grace name r, (Command.stop grace name, r) ∈ log → r.transportFailed = false
  remove : ∀ name r, (Command.removeWithVolumes name, r) ∈ log → Containers.goneAfter r

end Running

/-! ## What is clear is not touched -/

section Sufficient

variable {setting : Setting} {rig : Rig} {entries : List (Str × Teardown)} {log log' : Journal}

/-- What is clear at the end of a journal was clear before. -/
theorem Clear.of_extends (hlog : log <+: log') (h : Clear setting rig entries log') :
    Clear setting rig entries log where
  retried := h.retried
  orphaned := fun r hr => h.orphaned r (hlog.subset hr)
  stale := fun listed mounts hlisted hmounts =>
    h.stale listed mounts (hlog.subset hlisted) (hlog.subset hmounts)

/-- A command that touches nothing. -/
def Spares (setting : Setting) (rig : Rig) (entries : List (Str × Teardown)) (c : Command) : Prop :=
  ¬ Touches setting rig entries c

theorem spares_of_quiet {c : Command} (hc : c.quiet) : Spares setting rig entries c := by
  cases c with
  | stop _ _ | removeContainer _ | removeWithVolumes _ | removeVolume _ => cases hc
  | _ => exact id

/-- A command that touches nothing leaves the journal untouched. -/
theorem Untouched.step {c : Command} {o r : CommandResult} {w w' : Unit × Journal}
    (hc : Spares setting rig entries c) (hexec : Program.logged answer c o w = some (r, w'))
    (h : Untouched setting rig entries w.2) : Untouched setting rig entries w'.2 := by
  rw [(Program.logged_eq_some hexec).2]
  intro e he
  rcases List.mem_append.mp he with he | he
  · exact h e he
  · rw [List.mem_singleton.mp he]
    exact hc

/-- The reply is kept with the command. -/
theorem reply_eq {c : Command} {o r : CommandResult} {w w' : Unit × Journal}
    (hexec : Program.logged answer c o w = some (r, w')) : o = r ∧ w'.2 = w.2 ++ [(c, r)] := by
  obtain ⟨hanswer, hlog⟩ := Program.logged_eq_some hexec
  obtain ⟨rfl, -⟩ := Prod.mk.inj (Option.some.inj hanswer)
  exact ⟨rfl, hlog⟩

/-- A teardown of what belongs to no running job. -/
theorem within_destroy_of_free {name jobId : Str} {volumes : List Str}
    (hfree : Free setting rig entries name volumes) :
    TearsWithin (Spares setting rig entries) setting name jobId volumes := by
  apply within_onShared
  by_cases hname : Containers.containerNamePattern name
  · obtain ⟨hbusy, hkept⟩ := hfree hname
    exact Containers.within_destroy (fun c hc => spares_of_quiet hc) (fun _ _ => id)
      (fun _ _ _ => trivial) setting.printable (fun _ _ _ => trivial) hbusy hbusy hkept
  · rw [Containers.destroy, if_pos (by simpa using hname)]
    trivial

/-- If the listings are clear, nothing was touched. -/
def Spared (setting : Setting) (rig : Rig) (entries : List (Str × Teardown)) (log : Journal) :
    Prop :=
  Clear setting rig entries log → Untouched setting rig entries log

/-- What is not clear stays so. -/
theorem wp_of_not_clear {α : Type} {p : Task Sweeping α} {s : Sweeping} {w : Unit × Journal}
    (h : ¬ Clear setting rig entries w.2) :
    p.wp (Program.logged answer) (fun _ _ => True)
      (fun _ _ w => Spared setting rig entries w.2) s w := by
  refine Program.wp_of_extends (Program.wp_mono (Program.wp_true p s w) ?_)
  intro _ _ w' _ hext hclear
  exact absurd (hclear.of_extends hext) h

/-- The last two steps touch nothing. -/
theorem wp_of_spares {α : Type} {p : Task Sweeping α} {s : Sweeping} {w : Unit × Journal}
    (hp : p.within (Spares setting rig entries) (fun _ => True) fun _ => True)
    (h : Untouched setting rig entries w.2) :
    p.wp (Program.logged answer) (fun _ _ => True)
      (fun _ _ w => Untouched setting rig entries w.2) s w :=
  Program.wp_mono (Program.wp_of_within (K := fun w => Untouched setting rig entries w.2)
    (fun _ _ _ _ _ hc hexec hw => hw.step hc hexec) (fun _ _ _ _ => trivial) hp trivial h)
    fun _ _ _ hpost => hpost.2.2

/-- The removal of stale volumes, and the steps after it. -/
theorem wp_stale {α : Type} {f : List Str → Task Sweeping α} {s : Sweeping} {w : Unit × Journal}
    (hf : ∀ removed, (f removed).within (Spares setting rig entries) (fun _ => True) fun _ => True)
    (h : Untouched setting rig entries w.2) :
    (Containers.removeStaleVolumes setting.printable >>= f).wp (Program.logged answer)
      (fun _ _ => True) (fun _ _ w => Spared setting rig entries w.2) s w := by
  simp only [Containers.removeStaleVolumes, Program.wp_bind, Volumes.listOurs,
    Volumes.mountedVolumes, Program.wp_send, Program.wp_pure]
  refine ⟨trivial, fun o listed w₁ hlisted => ⟨trivial, fun o' mounts w₂ hmounts => ?_⟩⟩
  have huntouched : Untouched setting rig entries w₂.2 :=
    Untouched.step (c := .listMounts) id hmounts (Untouched.step (c := .listVolumes) id hlisted h)
  obtain ⟨rfl, hlog₁⟩ := reply_eq hlisted
  obtain ⟨rfl, hlog₂⟩ := reply_eq hmounts
  -- what follows the removals spares the volumes by itself
  have hrest (removed : List Str) (s : Sweeping) (w : Unit × Journal)
      (hw : Untouched setting rig entries w.2) : (f removed).wp (Program.logged answer)
        (fun _ _ => True) (fun _ _ w => Spared setting rig entries w.2) s w :=
    Program.wp_mono (wp_of_spares (hf removed) hw) fun _ _ _ hpost _ => hpost
  -- a journal that is not clear says nothing of running work, and stays so
  by_cases hclear : Clear setting rig entries w₂.2
  · by_cases hmounted : o'.ok
    · simp only [hmounted, if_true]
      refine Program.wp_mono (wp_of_spares ?_ huntouched) hrest
      -- each name that is removed was listed and is not mounted
      refine Program.within_forEach (fun name hname _ => ?_) []
      obtain ⟨hname, hnot⟩ := List.mem_filter.mp hname
      rw [Program.within_bind]
      refine Program.within_mono (Volumes.within_destroy _ fun _ => ?_) fun _ _ => trivial
      by_cases hok : o.ok
      · rw [if_pos hok] at hname
        refine hclear.stale o o' ?_ ?_ hok hmounted name hname (by simpa using hnot)
        · simp [hlog₂, hlog₁]
        · simp [hlog₂]
      -- an empty reply lists nothing
      · rw [if_neg hok] at hname
        exact absurd hname List.not_mem_nil
    · simp only [hmounted, Bool.false_eq_true, if_false]
      exact hrest [] s w₂ huntouched
  · exact Program.wp_mono (Program.wp_of_extends (Program.wp_mono (Program.wp_true _ s w₂)
      fun _ _ w' _ hext => fun hclear' => hclear (hclear'.of_extends hext)))
      fun removed s w hnot => wp_of_not_clear hnot

/-- Nothing was touched so far, or something is not clear. -/
def SoFar (setting : Setting) (rig : Rig) (entries : List (Str × Teardown)) (log : Journal) :
    Prop :=
  Untouched setting rig entries log ∨ ¬ Clear setting rig entries log

theorem SoFar.spared (h : SoFar setting rig entries log) : Spared setting rig entries log :=
  fun hclear => h.resolve_right (not_not_intro hclear)

/-- The containers of the listing that are no running job are torn down, and by then the journal
either has touched nothing or is not clear. -/
theorem wp_orphanedContainers {s : Sweeping} {w : Unit × Journal}
    (h : Untouched setting rig entries w.2) :
    (orphanedContainers setting).run.wp (Program.logged answer) (fun _ _ => True)
      (fun _ _ w => SoFar setting rig entries w.2) s w := by
  simp only [orphanedContainers, ownContainers, Program.wp_run_bind, Raising.wp_await,
    Program.wp_bind, Program.wp_send, Program.wp_pure, Program.handOn_ok]
  refine ⟨trivial, fun o r w₁ hlisted => ?_⟩
  have huntouched : Untouched setting rig entries w₁.2 :=
    Untouched.step (c := .listOwn) id hlisted h
  obtain ⟨rfl, hlog⟩ := reply_eq hlisted
  by_cases hclear : Clear setting rig entries w₁.2
  · -- the listing is clear, so the loop leaves running work alone
    refine Program.wp_mono (wp_of_spares ?_ huntouched) fun _ _ _ hpost => Or.inl hpost
    by_cases hok : o.ok
    · simp only [hok, if_true, ne_eq, not_true_eq_false, if_false]
      refine within_orphanEach fun c hc hrunning => within_destroy_of_free ?_
      exact hclear.orphaned o (by simp [hlog]) hok c hc hrunning
    · simp only [hok, Bool.false_eq_true, if_false]
      split_ifs
      · trivial
      · trivial
  · refine Program.wp_of_extends (Program.wp_mono (Program.wp_true _ s w₁) fun _ _ w' _ hext => ?_)
    exact Or.inr fun hclear' => hclear (hclear'.of_extends hext)

/-- The steps after the retries. -/
theorem wp_afterRetries {retried failed : List Str} {s : Sweeping} {w : Unit × Journal}
    (h : Untouched setting rig entries w.2) :
    (afterRetries setting retried failed).run.wp (Program.logged answer) (fun _ _ => True)
      (fun _ _ w => Spared setting rig entries w.2) s w := by
  rw [afterRetries, Program.wp_run_bind]
  refine Program.wp_mono (wp_orphanedContainers h) fun orphaned s w hw => ?_
  cases orphaned with
  | error e => exact hw.spared
  | ok orphaned =>
    rcases hw with hw | hnot
    · rw [Program.handOn_ok, Program.wp_run_bind, Raising.wp_await]
      refine (Program.wp_bind _ _ _ _ _).mp (wp_stale (fun stale => ?_) hw)
      -- the last phases send reading commands and raise limits
      have hquiet (c : Command) (hc : c.quiet) : Spares setting rig entries c := spares_of_quiet hc
      refine Program.within_run_seq
        ((Raising.within_await _ _).mpr (within_danglingImages hquiet)) fun _ => ?_
      exact Program.within_run_seq (within_raiseLowLimits hquiet (fun _ _ => id) _) fun _ => trivial
    · exact wp_of_not_clear hnot

/-- The entries of the rig, if there is a table. -/
def entriesOf (setting : Setting) (s : Sweeping) : List (Str × Teardown) :=
  if setting.retries then s.retries.forRig setting.rigId else []

/-- A whole sweep spares what is clear. -/
theorem wp_sweep (s : Sweeping) :
    (sweep setting).run.wp (Program.logged answer) (fun _ _ => True)
      (fun _ _ w => Spared setting rig (entriesOf setting s) w.2) s ((), []) := by
  have hnone : Untouched setting rig (entriesOf setting s) [] := by simp [Untouched]
  rw [sweep]
  by_cases hretries : setting.retries
  · rw [if_pos hretries]
    -- the entries of the table are known before the first command
    by_cases hclear : Clear setting rig (entriesOf setting s) []
    · have hentries : entriesOf setting s = s.retries.forRig setting.rigId := if_pos hretries
      rw [Program.wp_run_bind, retryTeardowns, Program.wp_run_bind, Raising.wp_read,
        Program.handOn_ok]
      refine Program.wp_mono (wp_of_spares (within_retryEach fun e he => ?_) hnone) ?_
      · exact within_destroy_of_free (hclear.retried e (hentries ▸ he))
      · intro r s' w hw
        cases r with
        | error e => exact fun _ => hw
        | ok _ => exact wp_afterRetries hw
    · exact wp_of_not_clear hclear
  · rw [if_neg hretries]
    exact wp_afterRetries hnone

end Sufficient

/-! ## What is not touched was clear -/

section Necessary

variable {setting : Setting} {rig : Rig} {entries : List (Str × Teardown)} {log log' : Journal}

/-- The command was sent. -/
def Sent (c : Command) (log : Journal) : Prop :=
  ∃ r, (c, r) ∈ log

/-- The container was stopped and the volumes were removed. -/
def Torn (name : Str) (volumes : List Str) (log : Journal) : Prop :=
  Containers.containerNamePattern name →
    Sent (.stop 15 name) log ∧ ∀ v ∈ volumes, validVolume v → Sent (.removeVolume v) log

theorem Removed.of_extends (hlog : log <+: log') (h : Removed log') : Removed log where
  stop := fun grace name r hr => h.stop grace name r (hlog.subset hr)
  remove := fun name r hr => h.remove name r (hlog.subset hr)

/-- What was torn down stays torn down. -/
theorem Torn.of_extends {name : Str} {volumes : List Str} (hlog : log <+: log')
    (h : Torn name volumes log) : Torn name volumes log' := by
  intro hname
  obtain ⟨⟨r, hstop⟩, hvolumes⟩ := h hname
  refine ⟨⟨r, hlog.subset hstop⟩, fun v hv hvalid => ?_⟩
  obtain ⟨r, hr⟩ := hvolumes v hv hvalid
  exact ⟨r, hlog.subset hr⟩

/-- If a teardown touched nothing, there was nothing of a running job in it. -/
theorem Torn.free {name : Str} {volumes : List Str} (h : Torn name volumes log)
    (huntouched : Untouched setting rig entries log) : Free setting rig entries name volumes := by
  intro hname
  obtain ⟨⟨r, hstop⟩, hvolumes⟩ := h hname
  refine ⟨huntouched _ hstop, fun v hv hvalid => ?_⟩
  obtain ⟨r, hr⟩ := hvolumes v hv hvalid
  exact huntouched _ hr

/-- Whatever a part of a program does, the rest goes on with a longer list. -/
theorem wp_skip {σ α β : Type} {p : Raising σ α} {f : α → Raising σ β}
    {Q : Except Exn β → σ → Unit × Journal → Prop} {s : σ} {w : Unit × Journal}
    (herror : ∀ e s w, Q (.error e) s w)
    (hrest : ∀ a s w', w.2 <+: w'.2 →
      (f a).run.wp (Program.logged answer) (fun _ _ => True) Q s w') :
    (p >>= f).run.wp (Program.logged answer) (fun _ _ => True) Q s w := by
  rw [Program.wp_run_bind]
  refine Program.wp_of_extends (Program.wp_mono (Program.wp_true _ s w) fun r s w' _ hext => ?_)
  cases r with
  | ok a => exact hrest a s w' hext
  | error e => exact herror e s w'

/-- A loop that removes volumes sends a removal for each of them. -/
theorem wp_removeEach {σ β : Type} (printable : Char → Bool) (volumes : List Str)
    (next : β → Str → Bool × Str → β) (b : β) (s : σ) (w : Unit × Journal) :
    (Program.forEach (fun b volume => do return next b volume (← Volumes.destroy printable volume))
      volumes b : Task σ β).wp (Program.logged answer) (fun _ _ => True)
      (fun _ _ w' => ∀ v ∈ volumes, validVolume v → Sent (.removeVolume v) w'.2) s w := by
  -- what is not left has been sent
  refine Program.wp_mono (Program.wp_forEach (J := fun left _ _ w => ∀ v ∈ volumes,
    validVolume v → v ∈ left ∨ Sent (.removeVolume v) w.2) (fun v left b s w hw => ?_)
    fun v hv _ => Or.inl hv) fun _ s w' hw v hv hvalid => ?_
  · rw [Program.wp_bind, Volumes.destroy, Program.wp_ite]
    split_ifs with hvalid
    · intro u hu huvalid
      rcases hw u hu huvalid with hleft | hsent
      · rcases List.mem_cons.mp hleft with rfl | hleft
        · simp [huvalid] at hvalid
        · exact Or.inl hleft
      · exact Or.inr hsent
    · rw [Program.wp_bind, Program.wp_send]
      refine ⟨trivial, fun o r w' hexec => ?_⟩
      obtain ⟨-, hlog⟩ := reply_eq hexec
      intro u hu huvalid
      rcases hw u hu huvalid with hleft | ⟨r', hsent⟩
      · rcases List.mem_cons.mp hleft with rfl | hleft
        · exact Or.inr ⟨r, by simp [hlog]⟩
        · exact Or.inl hleft
      · exact Or.inr ⟨r', by simp [hlog, hsent]⟩
  · exact (hw v hv hvalid).resolve_left List.not_mem_nil

/-- Every volume of a teardown is removed, if nothing raises. -/
theorem wp_clearAway (printable : Char → Bool) (t : Containers.Teardown) (s : Containers.Shared)
    (w : Unit × Journal) :
    (Containers.clearAway printable t).run.wp (Program.logged answer) (fun _ _ => True)
      (fun r _ w' => r = .ok () →
        ∀ v ∈ t.volumeNames, validVolume v → Sent (.removeVolume v) w'.2) s w := by
  have herror : ∀ e (s : Containers.Shared) (w' : Unit × Journal),
      (Except.error e : Except Exn Unit) = .ok () →
        ∀ v ∈ t.volumeNames, validVolume v → Sent (.removeVolume v) w'.2 :=
    fun e s w' hok => nomatch hok
  refine wp_skip herror fun _ s w₁ _ => wp_skip herror fun _ s w₂ _ => ?_
  refine wp_skip herror fun _ s w₃ _ => ?_
  rw [Program.wp_run_bind, Raising.wp_await]
  refine Program.wp_mono (wp_removeEach printable t.volumeNames (fun _ _ _ => ()) () s w₃)
    fun _ s w' hall => ?_
  exact Raising.wp_when (fun _ _ => hall) fun _ _ => hall

/-- A program on the shared part of the state. -/
theorem wp_onShared {α : Type} {p : Raising Containers.Shared α}
    {Q : Except Exn α → Sweeping → Unit × Journal → Prop} {s : Sweeping} {w : Unit × Journal} :
    (onShared p).run.wp (Program.logged answer) (fun _ _ => True) Q s w ↔
      p.run.wp (Program.logged answer) (fun _ _ => True)
        (fun r shared w => Q r { s with shared } w) s.shared w := by
  show (p.run.zoom Sweeping.shared fun s shared => { s with shared }).wp _ _ Q s w ↔ _
  rw [Program.wp_zoom]
  · exact fun _ _ => rfl
  · exact fun _ _ _ => rfl
  · exact fun _ => rfl

/-- A teardown whose commands succeed. -/
theorem wp_destroy (setting : Setting) (name jobId : Str) (volumes : List Str) (s : Sweeping)
    (w : Unit × Journal) :
    (onShared (Containers.destroy setting.printable name (teardown setting jobId volumes))).run.wp
      (Program.logged answer) (fun _ _ => True)
      (fun r _ w' => ∀ d, r = .ok d → Removed w'.2 → Torn name volumes w'.2) s w := by
  rw [wp_onShared, Containers.destroy]
  by_cases hname : Containers.containerNamePattern name
  · rw [if_neg (by simpa using hname), Program.wp_run_bind, Raising.wp_send]
    refine ⟨trivial, fun o stop w₁ hstop => ?_⟩
    obtain ⟨rfl, hlog₁⟩ := reply_eq hstop
    rw [Program.handOn_ok]
    by_cases hfailed : o.transportFailed
    · -- the rig was not reached
      rw [if_pos hfailed]
      intro d _ hremoved
      have hreached := hremoved.stop 15 name o (by rw [hlog₁]; simp [teardown])
      exact absurd hfailed (by simp [hreached])
    rw [if_neg hfailed, Program.wp_run_bind, Raising.wp_send]
    refine ⟨trivial, fun o' removed w₂ hremove => ?_⟩
    obtain ⟨rfl, hlog₂⟩ := reply_eq hremove
    rw [Program.handOn_ok]
    by_cases hgone : Containers.goneAfter o'
    · rw [if_pos hgone, Program.wp_run_bind]
      refine Program.wp_of_extends (Program.wp_mono (wp_clearAway _ _ _ w₂) ?_)
      intro r s w₃ hsent hext
      cases r with
      | error e =>
        intro d hd
        simp at hd
      | ok _ =>
        intro d _ _ _
        refine ⟨⟨o, hext.subset ?_⟩, hsent rfl⟩
        rw [hlog₂, hlog₁]
        simp [teardown]
    · -- the container was not removed
      rw [if_neg hgone]
      refine wp_skip (fun e _ _ d hd => by simp at hd) fun _ s w₃ hext d _ hremoved => ?_
      have hmem : (Command.removeWithVolumes name, o') ∈ w₃.2 := hext.subset (by simp [hlog₂])
      exact absurd (hremoved.remove name o' hmem) hgone
  -- a name that is no container's sends nothing
  · rw [if_pos (by simpa using hname)]
    exact fun d _ _ hname' => absurd hname' hname

/-- Where the removals succeed, every entry is torn down, by induction on the entries. -/
theorem wp_retryEach (setting : Setting) (rest : List (Str × Teardown)) (s : Sweeping)
    (w : Unit × Journal) :
    (retryEach setting rest).run.wp (Program.logged answer) (fun _ _ => True)
      (fun r _ w' => ∀ d, r = .ok d → Removed w'.2 →
        ∀ e ∈ rest, Torn e.1 e.2.volumes w'.2) s w := by
  induction rest generalizing s w with
  | nil => exact fun d _ _ e he => absurd he List.not_mem_nil
  | cons e rest ih =>
    -- what holds of the entries after the first holds of all once the first is torn down
    have hrest {w₁ : Unit × Journal} (s : Sweeping) {f : List Str × List Str → List Str × List Str}
        (hfirst : Removed w₁.2 → Torn e.1 e.2.volumes w₁.2) :
        (do return f (← retryEach setting rest) : Raising Sweeping (List Str × List Str)).run.wp
          (Program.logged answer) (fun _ _ => True) (fun r _ w' => ∀ d, r = .ok d → Removed w'.2 →
            ∀ e' ∈ e :: rest, Torn e'.1 e'.2.volumes w'.2) s w₁ := by
      rw [Program.wp_run_bind]
      refine Program.wp_of_extends (Program.wp_mono (ih s w₁) fun r s w' htorn hext => ?_)
      cases r with
      | error err => exact fun d hd => nomatch hd
      | ok pair =>
        intro d _ hremoved e' he'
        rcases List.mem_cons.mp he' with rfl | he'
        · exact (hfirst (hremoved.of_extends hext)).of_extends hext
        · exact htorn pair rfl hremoved e' he'
    rw [retryEach, Program.wp_run_bind]
    refine Program.wp_mono (wp_destroy setting e.1 e.2.jobId e.2.volumes s w) fun r s w₁ htorn => ?_
    cases r with
    | error err => exact fun d hd => nomatch hd
    | ok outcome =>
      rw [Program.handOn_ok]
      -- the table is written either way, and a write sends nothing
      by_cases hok : outcome.ok
      · rw [if_pos hok, Program.wp_run_bind, Raising.wp_modify, Program.handOn_ok]
        exact hrest _ (htorn outcome rfl)
      · rw [if_neg hok, Program.wp_run_bind, Raising.wp_modify, Program.handOn_ok]
        exact hrest _ (htorn outcome rfl)

/-- Where the removals succeed, every container that is not skipped is torn down, by induction on
the listing. -/
theorem wp_orphanEach (setting : Setting) (rest : List OwnContainer) (s : Sweeping)
    (w : Unit × Journal) :
    (orphanEach setting rest).run.wp (Program.logged answer) (fun _ _ => True)
      (fun r _ w' => ∀ d, r = .ok d → Removed w'.2 → ∀ c ∈ rest, !isRunning setting c →
        Torn (target c) (volumeNames c) w'.2) s w := by
  induction rest generalizing s w with
  | nil => exact fun d _ _ c hc => absurd hc List.not_mem_nil
  | cons c rest ih =>
    rw [orphanEach]
    -- a running container is passed over, and the statement asks nothing of it
    by_cases hrunning : isRunning setting c
    · rw [if_pos hrunning]
      refine Program.wp_mono (ih s w) fun r s w' htorn d hd hremoved c' hc' hnot => ?_
      rcases List.mem_cons.mp hc' with rfl | hc'
      · simp [hrunning] at hnot
      · exact htorn d hd hremoved c' hc' hnot
    · rw [if_neg hrunning, Program.wp_run_bind]
      refine Program.wp_mono (wp_destroy setting (target c) c.job (volumeNames c) s w)
        fun r s w₁ hfirst => ?_
      cases r with
      | error err => exact fun d hd => nomatch hd
      | ok outcome =>
        rw [Program.handOn_ok, Program.wp_run_bind]
        refine Program.wp_of_extends (Program.wp_mono (ih s w₁) fun r s w' htorn hext => ?_)
        cases r with
        | error err => exact fun d hd => nomatch hd
        | ok pair =>
          intro d _ hremoved c' hc' hnot
          rcases List.mem_cons.mp hc' with rfl | hc'
          · exact (hfirst outcome rfl (hremoved.of_extends hext)).of_extends hext
          · exact htorn pair rfl hremoved c' hc' hnot

/-- A command that is no listing. -/
def NoListing (c : Command) : Prop :=
  c.lists = false

theorem noListing_of_quiet {c : Command} (hc : c.quiet) : NoListing c := by
  cases c with
  | listOwn | listVolumes | listMounts => cases hc
  | _ => rfl

theorem within_destroy_noListing (setting : Setting) (name jobId : Str) (volumes : List Str) :
    TearsWithin NoListing setting name jobId volumes :=
  within_onShared (Containers.within_destroy (fun _ hc => noListing_of_quiet hc) (fun _ _ => rfl)
    (fun _ _ _ => trivial) setting.printable (fun _ _ _ => trivial) rfl rfl fun _ _ _ => rfl)

/-- The listings of a sweep and their answers. -/
def listings (log : Journal) : Journal :=
  log.filter (·.1.lists)

theorem listings_append (log : Journal) (e : Command × CommandResult) :
    listings (log ++ [e]) = listings log ++ if e.1.lists then [e] else [] := by
  rw [listings, List.filter_append, List.filter_singleton, Bool.cond_eq_ite]
  rfl

/-- A part of a program without listings. -/
theorem wp_listings {σ α : Type} {p : Task σ α} {s : σ} {w : Unit × Journal}
    (hp : p.within NoListing (fun _ => True) fun _ => True) :
    p.wp (Program.logged answer) (fun _ _ => True)
      (fun _ _ w' => listings w'.2 = listings w.2) s w := by
  refine Program.wp_mono (Program.wp_of_within (K := fun w' => listings w'.2 = listings w.2)
    (fun c o w₁ r w₂ hc hexec hw => ?_) (fun _ _ _ _ => trivial) hp trivial rfl)
    fun _ _ _ hpost => hpost.2.2
  have hnone : c.lists = false := hc
  rw [(reply_eq hexec).2, listings_append, hw]
  simp [hnone]

/-- `orphaned_containers` makes one listing, and tears down what it does not skip. -/
theorem wp_orphanedContainers_told (s : Sweeping) (w : Unit × Journal) :
    (orphanedContainers setting).run.wp (Program.logged answer) (fun _ _ => True)
      (fun r _ w' => ∀ d, r = .ok d → ∃ o,
        listings w'.2 = listings w.2 ++ [(.listOwn, o)] ∧ (o.ok → Removed w'.2 →
          ∀ c ∈ parseContainers o.stdout, !isRunning setting c →
            Torn (target c) (volumeNames c) w'.2)) s w := by
  simp only [orphanedContainers, ownContainers, Program.wp_run_bind, Raising.wp_await,
    Program.wp_bind, Program.wp_send, Program.wp_pure, Program.handOn_ok]
  refine ⟨trivial, fun o r w₁ hlisted => ?_⟩
  obtain ⟨rfl, hlog⟩ := reply_eq hlisted
  -- the listing is in the journal before anything is torn down
  have hlistings : listings w₁.2 = listings w.2 ++ [(.listOwn, o)] := by
    rw [hlog, listings_append]
    rfl
  by_cases hok : o.ok
  · simp only [hok, if_true, ne_eq, not_true_eq_false, if_false]
    have hwithin : (orphanEach setting (parseContainers o.stdout)).run.within NoListing
        (fun _ => True) fun _ => True :=
      within_orphanEach fun c _ _ => within_destroy_noListing setting _ _ _
    refine Program.wp_mono (Program.wp_and (wp_orphanEach setting _ s w₁) (wp_listings hwithin)) ?_
    rintro r s w' ⟨htorn, hsame⟩ d hd
    exact ⟨o, hsame.trans hlistings, fun _ => htorn d hd⟩
  · simp only [hok, Bool.false_eq_true, if_false]
    -- without a listing there is no container to speak of
    split_ifs
    · exact fun d _ => ⟨o, hlistings, fun h => absurd h hok⟩
    · exact fun d _ => ⟨o, hlistings, fun h => absurd h hok⟩

/-- `remove_stale_volumes` makes two listings, and removes what is not mounted. -/
theorem wp_removeStaleVolumes_told (s : Sweeping) (w : Unit × Journal) :
    (Containers.removeStaleVolumes setting.printable).wp (Program.logged answer) (fun _ _ => True)
      (fun _ _ w' => ∃ listed mounts,
        listings w'.2 = listings w.2 ++ [(.listVolumes, listed), (.listMounts, mounts)] ∧
          (listed.ok → mounts.ok → ∀ v ∈ Volumes.oursIn listed.stdout,
            v ∉ Volumes.mountedIn mounts.stdout → Sent (.removeVolume v) w'.2)) s w := by
  simp only [Containers.removeStaleVolumes, Program.wp_bind, Volumes.listOurs,
    Volumes.mountedVolumes, Program.wp_send, Program.wp_pure]
  refine ⟨trivial, fun o listed w₁ hlisted => ⟨trivial, fun o' mounts w₂ hmounts => ?_⟩⟩
  obtain ⟨rfl, hlog₁⟩ := reply_eq hlisted
  obtain ⟨rfl, hlog₂⟩ := reply_eq hmounts
  -- both listings are in the journal before the first removal
  have hlistings : listings w₂.2 = listings w.2 ++ [(.listVolumes, o), (.listMounts, o')] := by
    rw [hlog₂, listings_append, hlog₁, listings_append, List.append_assoc]
    rfl
  by_cases hmounted : o'.ok
  · simp only [hmounted, if_true]
    have hwithin : ∀ targets, (Program.forEach (fun removed name => do
        let outcome ← Volumes.destroy setting.printable name
        return if outcome.1 then removed ++ [name] else removed) targets [] :
          Task Sweeping (List Str)).within NoListing (fun _ => True) fun _ => True := by
      intro targets
      refine Program.within_forEach (fun name _ _ => ?_) []
      rw [Program.within_bind]
      exact Program.within_mono (Volumes.within_destroy _ fun _ => rfl) fun _ _ => trivial
    refine Program.wp_mono (Program.wp_and (wp_removeEach setting.printable _
      (fun removed name outcome => if outcome.1 then removed ++ [name] else removed) [] s w₂)
      (wp_listings (hwithin _))) ?_
    rintro removed s w' ⟨hall, hsame⟩
    refine ⟨o, o', hsame.trans hlistings, fun hok _ v hv hnot => hall v ?_ ?_⟩
    · rw [if_pos hok]
      exact List.mem_filter.mpr ⟨hv, by simpa using hnot⟩
    · exact (List.mem_filter.mp hv).2
  -- an unknown set of mounts removes nothing
  · simp only [hmounted, Bool.false_eq_true, if_false]
    exact ⟨o, o', hlistings, fun _ h => absurd h hmounted⟩

/-- Where the removals succeeded, everything that the table and the listings name was torn down. -/
def Told (setting : Setting) (entries : List (Str × Teardown)) (log : Journal) : Prop :=
  Removed log → (∀ e ∈ entries, Torn e.1 e.2.volumes log) ∧
    ∃ own listed mounts,
      listings log = [(.listOwn, own), (.listVolumes, listed), (.listMounts, mounts)] ∧
      (own.ok → ∀ c ∈ parseContainers own.stdout, !isRunning setting c →
        Torn (target c) (volumeNames c) log) ∧
      (listed.ok → mounts.ok → ∀ v ∈ Volumes.oursIn listed.stdout,
        v ∉ Volumes.mountedIn mounts.stdout → Sent (.removeVolume v) log)

/-- A sweep that touched nothing found everything clear: what was named was torn down. -/
theorem Told.clear (h : Told setting entries log) (hremoved : Removed log)
    (huntouched : Untouched setting rig entries log) : Clear setting rig entries log := by
  obtain ⟨hretried, own, listed, mounts, hlistings, horphaned, hstale⟩ := h hremoved
  -- a journal has one listing of each kind, so any of them is the one of this sweep
  have hmem : ∀ {c r}, (c, r) ∈ log → Command.lists c →
      (c, r) ∈ [(Command.listOwn, own), (.listVolumes, listed), (.listMounts, mounts)] := by
    intro c r hr hlists
    rw [← hlistings]
    exact List.mem_filter.mpr ⟨hr, hlists⟩
  constructor
  · exact fun e he => (hretried e he).free huntouched
  · intro r hr hok c hc hrunning
    have heq : r = own := by simpa using hmem hr rfl
    rw [heq] at hok hc
    exact (horphaned hok c hc hrunning).free huntouched
  · intro listed' mounts' hlisted' hmounts' hok hok' v hv hnot
    have heq : listed' = listed := by simpa using hmem hlisted' rfl
    have heq' : mounts' = mounts := by simpa using hmem hmounts' rfl
    rw [heq] at hok hv
    rw [heq'] at hok' hnot
    obtain ⟨r, hr⟩ := hstale hok hok' v hv hnot
    exact huntouched _ hr

/-- The steps after the retries. -/
theorem wp_afterRetries_told {retried failed : List Str} {s : Sweeping} {w : Unit × Journal}
    (hnone : listings w.2 = []) (hretried : Removed w.2 → ∀ e ∈ entries, Torn e.1 e.2.volumes w.2) :
    (afterRetries setting retried failed).run.wp (Program.logged answer) (fun _ _ => True)
      (fun r _ w' => ∀ d, r = .ok d → Told setting entries w'.2) s w := by
  rw [afterRetries, Program.wp_run_bind]
  refine Program.wp_of_extends (Program.wp_mono (wp_orphanedContainers_told s w) ?_)
  intro r s w₁ horphaned hext₁
  cases r with
  | error e => exact fun d hd => nomatch hd
  | ok orphaned =>
    obtain ⟨own, hlistings₁, htorn⟩ := horphaned orphaned rfl
    rw [Program.handOn_ok, Program.wp_run_bind, Raising.wp_await]
    refine Program.wp_of_extends (Program.wp_mono (wp_removeStaleVolumes_told s w₁) ?_)
    intro stale s w₂ hstale hext₂
    obtain ⟨listed, mounts, hlistings₂, hsent⟩ := hstale
    have hquiet : ∀ c : Command, c.quiet → NoListing c := fun _ => noListing_of_quiet
    -- what follows the stale volumes lists nothing
    refine Program.wp_of_extends (Program.wp_mono (wp_listings ?_) ?_)
    · refine Program.within_run_seq
        ((Raising.within_await _ _).mpr (within_danglingImages hquiet)) fun _ => ?_
      exact Program.within_run_seq (within_raiseLowLimits hquiet (fun _ _ => rfl) _)
        fun _ => trivial
    intro r s w₃ hsame hext₃ d hd hremoved
    -- each part says its own of the journal it ended with, which only grows
    have hext := hext₁.trans (hext₂.trans hext₃)
    refine ⟨fun e he => ?_, own, listed, mounts, ?_, fun hok c hc hrunning => ?_, ?_⟩
    · exact (hretried (hremoved.of_extends hext) e he).of_extends hext
    · rw [hsame, hlistings₂, hlistings₁, hnone]
      rfl
    · have hremoved₁ := hremoved.of_extends (hext₂.trans hext₃)
      exact (htorn hok hremoved₁ c hc hrunning).of_extends (hext₂.trans hext₃)
    · intro hok hok' v hv hnot
      obtain ⟨r, hr⟩ := hsent hok hok' v hv hnot
      exact ⟨r, hext₃.subset hr⟩

/-- A whole sweep, in the order of its parts. -/
theorem wp_sweep_told (s : Sweeping) :
    (sweep setting).run.wp (Program.logged answer) (fun _ _ => True)
      (fun r _ w' => ∀ d, r = .ok d → Told setting (entriesOf setting s) w'.2) s ((), []) := by
  rw [sweep]
  by_cases hretries : setting.retries
  -- with a retry table the entries come first; without one there are none
  · have hentries : entriesOf setting s = s.retries.forRig setting.rigId := if_pos hretries
    rw [if_pos hretries, Program.wp_run_bind, retryTeardowns, Program.wp_run_bind, Raising.wp_read,
      Program.handOn_ok, hentries]
    have hwithin : (retryEach setting (s.retries.forRig setting.rigId)).run.within NoListing
        (fun _ => True) fun _ => True :=
      within_retryEach fun e _ => within_destroy_noListing setting _ _ _
    refine Program.wp_mono (Program.wp_and (wp_retryEach setting _ s ((), []))
      (wp_listings hwithin)) ?_
    rintro r s' w ⟨htorn, hsame⟩
    cases r with
    | error e => exact fun d hd => nomatch hd
    | ok pair => exact wp_afterRetries_told hsame (htorn pair rfl)
  · have hentries : entriesOf setting s = [] := if_neg hretries
    rw [if_neg hretries, hentries]
    exact wp_afterRetries_told rfl fun _ e he => absurd he List.not_mem_nil

end Necessary

/-- **What a sweep leaves alone.** For every set of running jobs, every table of retries, and
whatever the rig answers: if neither the table nor the listings name anything of a running job, the
sweep sends no command that stops or removes a container of a running job or removes one of its
volumes. Conversely, when a sweep has come to its end, its stops and removals succeeded and it
touched nothing of a running job, then nothing of one was named. -/
theorem spares_running_iff (setting : Setting) (rig : Rig) (s : Sweeping)
    {replies : List CommandResult} {result : Except Exn SweepReport} {s' : Sweeping}
    {log : Journal}
    (hrun : (sweep setting).run.run (Program.logged answer) replies s ((), []) =
      some (result, s', (), log)) :
    (Clear setting rig (entriesOf setting s) log →
      Untouched setting rig (entriesOf setting s) log) ∧
    ∀ report, result = .ok report → Removed log →
      Untouched setting rig (entriesOf setting s) log →
        Clear setting rig (entriesOf setting s) log := by
  refine ⟨Program.run_of_wp (wp_sweep s) hrun, fun report hreport hremoved huntouched => ?_⟩
  exact (Program.run_of_wp (wp_sweep_told s) hrun report hreport).clear hremoved huntouched

/-- Job `a` runs in the container `mt-a` with the volume `mt-vol-a`. -/
def sampleRig : Rig where
  labelOf name := if name = "mt-a".toList then "a".toList else []
  volumesOf job := [volumePrefix ++ job]

/-- A sweep while job `a` is running. -/
def sampleSetting : Setting where
  printable _ := true
  rigId := "rig".toList
  running := ["a".toList]

/-- A command that ends well. -/
def success (stdout : String) : CommandResult :=
  { exitCode := 0, stdout := stdout.toList }

/-- The container of the job is listed with its label, and its volume is mounted. -/
def sampleReplies : List CommandResult :=
  [success "0123\tmt-a\ta\trunning\n", success "mt-vol-a\n", success "mt-vol-a\n", success ""]

/-- A teardown of the container of job `b` failed some time ago. -/
def otherTable : Sweeping where
  retries := { pending := [("mt-b".toList, ⟨"rig".toList, "b".toList, ["mt-vol-b".toList], 1, 0⟩)] }

/-- What is left of job `b` is torn down, and then job `a` is found. -/
def otherReplies : List CommandResult :=
  List.replicate 5 (success "") ++ sampleReplies

/-- The container of the other job is removed, and the running one is left alone. -/
theorem spares_running_iff_listed :
    ∃ result s' log, (sweep sampleSetting).run.run (Program.logged answer) otherReplies otherTable
        ((), []) = some (result, s', (), log) ∧
      (Command.removeWithVolumes "mt-b".toList, success "") ∈ log ∧
      (Command.listOwn, success "0123\tmt-a\ta\trunning\n") ∈ log ∧
      Untouched sampleSetting sampleRig (entriesOf sampleSetting otherTable) log := by
  -- the journal of a sweep that tries the teardown again and finds one running job
  have hlog : (((sweep sampleSetting).run.run (Program.logged answer) otherReplies otherTable
      ((), [])).map fun end_ => end_.2.2.2) =
        some [(.stop 15 "mt-b".toList, success ""),
          (.removeWithVolumes "mt-b".toList, success ""), (.queryApps, success ""),
          (.queryWedge, success ""), (.removeVolume "mt-vol-b".toList, success ""),
          (.listOwn, success "0123\tmt-a\ta\trunning\n"),
          (.listVolumes, success "mt-vol-a\n"), (.listMounts, success "mt-vol-a\n"),
          (.listDangling, success "")] := by
    decide +kernel
  obtain ⟨⟨result, s', _, log⟩, hrun, rfl⟩ := Option.map_eq_some_iff.mp hlog
  refine ⟨result, s', _, hrun, by simp, by simp, ?_⟩
  refine (spares_running_iff sampleSetting sampleRig otherTable hrun).1 ⟨?_, ?_, ?_⟩
  · -- the entry names nothing of job `a`
    have hfree : Free sampleSetting sampleRig (entriesOf sampleSetting otherTable) "mt-b".toList
        ["mt-vol-b".toList] := by
      intro _
      unfold Busy Kept
      decide +kernel
    intro e he
    obtain rfl := List.mem_singleton.mp he
    exact hfree
  · intro r hr _ c hc hrunning
    obtain rfl : r = success "0123\tmt-a\ta\trunning\n" := by simpa using hr
    have hall : ∀ c ∈ parseContainers (success "0123\tmt-a\ta\trunning\n").stdout,
        isRunning sampleSetting c = true := by
      decide +kernel
    simp [hall c hc] at hrunning
  · intro listed mounts hlisted hmounts _ _ v hv hnot
    obtain rfl : listed = success "mt-vol-a\n" := by simpa using hlisted
    obtain rfl : mounts = success "mt-vol-a\n" := by simpa using hmounts
    have hall : ∀ v ∈ Volumes.oursIn (success "mt-vol-a\n").stdout,
        v ∈ Volumes.mountedIn (success "mt-vol-a\n").stdout := by
      decide +kernel
    exact absurd (hall v hv) hnot

/-- A teardown of the container of job `a` failed some time ago, and the job was placed again. -/
def staleTable : Sweeping where
  retries := { pending := [("mt-a".toList, ⟨"rig".toList, "a".toList, ["mt-vol-a".toList], 1, 0⟩)] }

/-- The sweep stops the container of the running job, removes it and removes its volume. -/
theorem running_job_torn_down :
    ∃ result s' log, (sweep sampleSetting).run.run (Program.logged answer)
        (List.replicate 9 (success "")) staleTable ((), []) = some (result, s', (), log) ∧
      (Command.stop 15 "mt-a".toList, success "") ∈ log ∧
      (Command.removeWithVolumes "mt-a".toList, success "") ∈ log ∧
      (Command.removeVolume "mt-vol-a".toList, success "") ∈ log ∧
      ¬ Untouched sampleSetting sampleRig (entriesOf sampleSetting staleTable) log := by
  -- the journal of a sweep with an outdated entry for a job that runs
  have hlog : (((sweep sampleSetting).run.run (Program.logged answer)
      (List.replicate 9 (success "")) staleTable ((), [])).map fun end_ => end_.2.2.2) =
        some ([.stop 15 "mt-a".toList, .removeWithVolumes "mt-a".toList, .queryApps, .queryWedge,
          .removeVolume "mt-vol-a".toList, .listOwn, .listVolumes, .listMounts,
          .listDangling].map fun c => (c, success "")) := by
    decide +kernel
  obtain ⟨⟨result, s', _, log⟩, hrun, rfl⟩ := Option.map_eq_some_iff.mp hlog
  refine ⟨result, s', _, hrun, by simp, by simp, by simp, fun huntouched => ?_⟩
  refine huntouched (.stop 15 "mt-a".toList, success "") (by simp) (Or.inl ?_)
  decide +kernel

end ComputePool.Validator.Sweep
