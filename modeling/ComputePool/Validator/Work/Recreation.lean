import ComputePool.Validator.Session.Host
import ComputePool.Validator.Work.Footprints

/-!
# Recreating a container

`recreate` of `validator/work/containers.py` removes the container of a job before `create` looks at
the specification, so a specification that is not accepted costs the job its container.

* `wp_create_refused`: `create` refuses such a specification before it sends anything.
* `recreate_spares_iff`: `recreate` leaves the container alone exactly when there is none, or when
  `destroy` does not accept its name.
-/

namespace ComputePool.Validator.Containers

open Text

/-! ## Specifications that are not accepted -/

/-- The specification has a problem, or there is no usable secret for its encrypted volumes. -/
def Unacceptable (setting : Setting) (spec : JobSpec) : Prop :=
  spec.problems setting.printer.printable setting.allowlist ≠ [] ∨
    (∃ volume ∈ spec.volumes, volume.encrypted) ∧ setting.secretProblem ≠ none

/-- A creation has a problem if and only if the job is unacceptable. -/
theorem firstProblem_ne_none_iff {setting : Setting} {spec : JobSpec} :
    Creating.firstProblem setting spec ≠ none ↔ Unacceptable setting spec := by
  rw [Creating.firstProblem, Unacceptable]
  cases hproblems : spec.problems setting.printer.printable setting.allowlist with
  | cons problem problems => simp
  | nil =>
    by_cases hany : spec.volumes.any (·.encrypted)
    · have hsome := List.any_eq_true.mp hany
      simp [hany, hsome]
    · have hnone : ¬ ∃ volume ∈ spec.volumes, volume.encrypted := by simpa using hany
      simp [hany, hnone]

/-- What `recreate` makes of a specification before it uses it. -/
def forRecreation (spec : JobSpec) : JobSpec :=
  { spec with
    volumes := spec.volumes.map fun volume => { volume with create := false }
    devices := [] }

/-- What `recreate` does, with its early return written out. -/
theorem recreate_eq (setting : Setting) (spec : JobSpec) : recreate setting spec = (do
    let torn ← destroy setting.printer.printable spec.containerName
      { grace := stopGrace spec, pruneImages := false }
    if torn.ok then create { setting with inflight := false } (forRecreation spec)
    else return { ok := false, step := "destroy".toList, reason := torn.reason
                  container := spec.containerName }) := rfl

/-- It has the same problems. -/
theorem unacceptable_forRecreation {setting : Setting} {spec : JobSpec} :
    Unacceptable setting (forRecreation spec) ↔ Unacceptable setting spec := by
  have hproblems : (forRecreation spec).problems setting.printer.printable setting.allowlist =
      spec.problems setting.printer.printable setting.allowlist := by
    simp only [JobSpec.problems, forRecreation, List.flatMap_map]
    rfl
  have hencrypted : (∃ volume ∈ (forRecreation spec).volumes, volume.encrypted) ↔
      ∃ volume ∈ spec.volumes, volume.encrypted := by
    simp [forRecreation]
  rw [Unacceptable, hproblems, hencrypted, Unacceptable]

section Refusal

variable {ο ω : Type} {exec : Command → ο → ω → Option (CommandResult × ω)}
  {I : Shared → ω → Prop}

/-- A coroutine that ends with a result that is not a success. -/
def Fails (r : Except Exn CreateResult) : Prop :=
  ∃ result, r = .ok result ∧ result.ok = false

/-- `create` refuses before it sends anything. -/
theorem wp_create_refused {setting : Setting} {spec : JobSpec} {shared : Shared} {w : ω}
    (hflight : setting.inflight = false) (h : Unacceptable setting spec) :
    (create setting spec).run.wp exec I (fun r s w' => Fails r ∧ s = shared ∧ w' = w) shared w := by
  obtain ⟨problem, hproblem⟩ := Option.ne_none_iff_exists'.mp (firstProblem_ne_none_iff.mpr h)
  have hbody : (Creating.body setting).run.wp exec (fun t => I t.2)
      (fun r t w' => (∃ result, r = .error (.returned result) ∧ result.ok = false) ∧
        t = ({ spec }, shared) ∧ w' = w) ({ spec }, shared) w := by
    rw [Creating.body, Creating.prepare, Program.wp_run_bind, Program.wp_run_bind,
      Creating.validate, Creating.wp_locals_bind, hproblem]
    exact ⟨⟨_, rfl, rfl⟩, rfl, rfl⟩
  rw [create, hflight, Program.wp_run_bind]
  show (attempt setting spec).run.wp exec I _ shared w
  rw [attempt, Program.wp_run_bind, Raising.wp_await, Program.wp_withVars]
  refine Program.wp_mono hbody fun r t w' hended => ?_
  obtain ⟨⟨result, rfl, hok⟩, rfl, rfl⟩ := hended
  -- nothing is there to take back
  rw [Program.handOn_ok, Program.wp_run_bind, settle, wasCancelled, hflight]
  exact ⟨⟨result, rfl, hok⟩, rfl, rfl⟩

/-- The steps of `destroy` after the container raise nothing when there are no records to go
through. -/
theorem wp_clearAway_returns (printable : Char → Bool) {t : Teardown} (ht : t.records = false)
    (shared : Shared) (w : ω) :
    (clearAway printable t).run.wp exec (fun _ _ => True) (fun r _ _ => r = .ok ()) shared w := by
  rw [clearAway, ht, Bool.false_and, Program.wp_run_bind]
  refine Raising.wp_when (fun hrecords => nomatch hrecords) fun _ => ?_
  rw [Program.handOn_ok, Program.wp_run_bind, Raising.wp_await]
  refine Program.wp_mono (Program.wp_true _ _ _) fun _ shared w _ => ?_
  rw [Program.handOn_ok, Program.wp_run_bind]
  refine Program.wp_mono (Q := fun r _ _ => r = .ok ()) ?_ fun r shared w hr => ?_
  · exact Raising.wp_when (fun _ => ⟨trivial, fun _ _ _ _ => rfl⟩) fun _ => rfl
  rw [hr, Program.handOn_ok, Program.wp_run_bind, Raising.wp_await]
  refine Program.wp_mono (Program.wp_true _ _ _) fun _ shared w _ => ?_
  exact Raising.wp_when (fun _ => rfl) fun _ => rfl

/-- And so does `destroy`. -/
theorem wp_destroy_returns (printable : Char → Bool) (name : Str) {t : Teardown}
    (ht : t.records = false) (shared : Shared) (w : ω) :
    (destroy printable name t).run.wp exec (fun _ _ => True) (fun r _ _ => ∃ torn, r = .ok torn)
      shared w := by
  rw [destroy]
  split_ifs with hname
  · exact ⟨_, rfl⟩
  -- without records the caps are left alone, and nothing else raises
  · rw [Program.wp_run_bind, Raising.wp_send]
    refine ⟨trivial, fun o stop w _ => ?_⟩
    rw [Program.handOn_ok]
    split_ifs with hfailed
    · exact ⟨_, rfl⟩
    · rw [Program.wp_run_bind, Raising.wp_send]
      refine ⟨trivial, fun o removed w _ => ?_⟩
      rw [Program.handOn_ok]
      split_ifs with hgone
      · rw [Program.wp_run_bind]
        refine Program.wp_mono (wp_clearAway_returns printable ht shared w) fun r shared w hr => ?_
        rw [hr]
        exact ⟨_, rfl⟩
      · rw [Program.wp_run_bind, Raising.wp_await]
        exact Program.wp_mono (Program.wp_true _ _ _) fun _ _ _ _ => ⟨_, rfl⟩

/-- `recreate` refuses as well, after `destroy`. -/
theorem wp_recreate_refused {setting : Setting} {spec : JobSpec} {shared : Shared} {w : ω}
    (h : Unacceptable setting spec) :
    (recreate setting spec).run.wp exec (fun _ _ => True) (fun r _ _ => Fails r) shared w := by
  rw [recreate_eq, Program.wp_run_bind]
  refine Program.wp_mono (wp_destroy_returns _ _ rfl _ _) fun r shared w hr => ?_
  obtain ⟨torn, rfl⟩ := hr
  rw [Program.handOn_ok]
  split_ifs with htorn
  · have hrefused : Unacceptable { setting with inflight := false } (forRecreation spec) :=
      unacceptable_forRecreation.mpr h
    exact Program.wp_mono (wp_create_refused rfl hrefused) fun r _ _ hr => hr.1
  · exact ⟨_, rfl, rfl⟩

end Refusal

/-! ## The container that was there -/

/-- The command is one that stops or removes the container. -/
def Command.hits (container : Container) : Command → Bool
  | .stop _ target | .removeContainer target | .removeWithVolumes target =>
    container.answersTo target
  | .removeProbes => container.kind = "probe".toList
  | _ => false

/-- Every container of the name is left as it was: it is still there, and no command stopped or
removed it. -/
def Spared (name : Str) (before : Host) (w : Host × List (Command × Outcome)) : Prop :=
  ∀ container ∈ before.containers, container.answersTo name →
    container ∈ w.1.containers ∧ ∀ e ∈ w.2, e.2.took → Command.hits container e.1 = false

section Named

variable {setting : Setting} {spec : JobSpec} {shared : Shared} {h : Host}

/-- A name that `destroy` does not accept keeps everything as it is. -/
theorem wp_recreate_unnamed (hname : containerNamePattern spec.containerName = false) :
    (recreate setting spec).run.wp (Program.logged Host.exec) (fun _ _ => True)
      (fun _ _ w => Spared spec.containerName h w) shared (h, []) := by
  rw [recreate_eq, Program.wp_run_bind, destroy, if_pos (by simp [hname])]
  intro container hmem _
  exact ⟨hmem, fun e he => absurd he List.not_mem_nil⟩

/-- Otherwise the container is stopped first of all. -/
theorem not_wp_recreate_named {container : Container}
    (hname : containerNamePattern spec.containerName) (hmem : container ∈ h.containers)
    (hanswers : container.answersTo spec.containerName) :
    ¬ (recreate setting spec).run.wp (Program.logged Host.exec) (fun _ _ => True)
      (fun _ _ w => Spared spec.containerName h w) shared (h, []) := by
  have hcall : ∃ k, (recreate setting spec).run =
      .call (.stop (stopGrace spec) spec.containerName) k := by
    rw [recreate_eq, destroy, if_neg (by simp [hname])]
    exact ⟨_, rfl⟩
  obtain ⟨k, hk⟩ := hcall
  rw [hk]
  rintro ⟨-, hrest⟩
  -- the run in which the container is stopped, and whatever follows
  have hstop : Program.logged Host.exec (.stop (stopGrace spec) spec.containerName) (succeeds [])
      (h, []) = some ((succeeds []).result, h,
        [(.stop (stopGrace spec) spec.containerName, succeeds [])]) := rfl
  have htotal := Program.logged_total fun c h => ⟨_, _, Host.exec_timesOut c h⟩
  obtain ⟨_, _, w, hspared, hext⟩ := Program.exists_of_wp htotal
    (Program.wp_and (hrest _ _ _ hstop) (Program.wp_of_extends
      (Program.wp_mono (Program.wp_true _ _ _) fun _ _ _ _ hext => hext)))
  have hsent : (Command.stop (stopGrace spec) spec.containerName, succeeds []) ∈ w.2 :=
    hext.subset (List.mem_singleton_self _)
  have hmiss := (hspared container hmem hanswers).2 _ hsent rfl
  rw [Command.hits, hanswers] at hmiss
  exact Bool.noConfusion hmiss

end Named

/-- **When a recreation that is refused spares the container.** For every specification that is not
accepted and every rig, each run of `recreate` fails and leaves the containers of the job's name as
they were if and only if there are none, or `destroy` does not accept the name. -/
theorem recreate_spares_iff {setting : Setting} {spec : JobSpec} {shared : Shared} {h : Host}
    (hrefused : Unacceptable setting spec) :
    (∀ os r shared' w, (recreate setting spec).run.run (Program.logged Host.exec) os shared
      (h, []) = some (r, shared', w) → Fails r ∧ Spared spec.containerName h w) ↔
      containerNamePattern spec.containerName = false ∨
        ∀ container ∈ h.containers, container.answersTo spec.containerName = false := by
  -- otherwise the container that answers to the name is removed before anything is checked
  constructor
  · intro hall
    by_contra hcond
    rw [not_or, Bool.not_eq_false] at hcond
    push Not at hcond
    obtain ⟨hname, container, hmem, hanswers⟩ := hcond
    refine not_wp_recreate_named hname hmem (by simpa using hanswers)
      (Program.wp_of_run fun os r shared' w hrun => (hall os r shared' w hrun).2)
  · rintro hcond os r shared' w hrun
    refine ⟨Program.run_of_wp (wp_recreate_refused hrefused) hrun, ?_⟩
    rcases hcond with hname | hnone
    · have hspared := Program.run_of_wp (wp_recreate_unnamed hname) hrun
      exact hspared
    · intro container hmem hanswers
      rw [hnone container hmem] at hanswers
      exact Bool.noConfusion hanswers

/-- A rig on which the sample job runs. -/
def runningHost : Host where
  containers := [{ id := "c1".toList, name := sampleJob.containerName, job := sampleJob.jobId }]

/-- The image of the job has left the allowlist. -/
def delisted : Setting :=
  { sampleSetting with allowlist := [] }

theorem unacceptable_delisted : Unacceptable delisted sampleJob :=
  Or.inl (by decide +kernel)

/-- A rig on which another job runs. -/
def neighbourHost : Host where
  containers := [{ id := "c2".toList, name := "mt-j2".toList, job := "j2".toList }]

/-- The container of the other job does not answer to the name of the one that is recreated. -/
theorem recreate_spares_iff_elsewhere :
    neighbourHost.named "mt-j2".toList ∧
    ∀ os r shared' w, (recreate delisted sampleJob).run.run (Program.logged Host.exec) os {}
      (neighbourHost, []) = some (r, shared', w) →
        Fails r ∧ Spared sampleJob.containerName neighbourHost w := by
  have hother : ∀ container ∈ neighbourHost.containers,
      container.answersTo sampleJob.containerName = false := by decide +kernel
  exact ⟨by decide +kernel, (recreate_spares_iff unacceptable_delisted).mpr (Or.inr hother)⟩

/-- The running container of a job whose image has left the allowlist is removed, and the recreation
is refused. -/
theorem refused_recreation_removes :
    Unacceptable delisted sampleJob ∧ runningHost.named sampleJob.containerName ∧
      ((recreate delisted sampleJob).run.run (Program.logged Host.exec)
        (List.replicate 4 (succeeds [])) {} (runningHost, [])).any fun ended =>
          (match ended.1 with
            | .ok result => !result.ok
            | .error _ => false) && !ended.2.2.1.named sampleJob.containerName := by
  exact ⟨unacceptable_delisted, by decide +kernel, by decide +kernel⟩

end ComputePool.Validator.Containers
