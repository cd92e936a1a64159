import ComputePool.Validator.Session.Host
import ComputePool.Validator.Work.Footprints

/-!
# Containers that a failed creation leaves behind

`create` removes its container on the way out only if `launched` is set, and that happens only once
a `docker run` has reported success. A `docker run` that times out may have started the container
all the same; `docker_run` then gives up, and nobody takes the container away
(`failed_create_leaves_container`). The `docker rm -f` of the step `cleanup`, whose result nobody
looks at, is the other way to end with a container.

`failed_create_leaves_none_iff` says that these are the only two: a failed creation whose rollback
succeeds leaves a container exactly when a failed `docker run` made one that no later `docker rm -f`
removed, or when the one that was there before survived.
-/

namespace ComputePool.Validator

open Text

/-- The command starts and removes no container. -/
def Command.sparesContainers : Command → Bool
  | .removeContainer _ | .removeWithVolumes _ | .dockerRun _ | .removeProbes => false
  | _ => true

theorem Command.sparesContainers_of_quiet {c : Command} (h : c.quiet) : c.sparesContainers := by
  cases c with
  | removeContainer _ | removeWithVolumes _ | dockerRun _ | removeProbes => cases h
  | _ => rfl

theorem Command.sparesContainers_of_lists {c : Command} (h : c.lists) : c.sparesContainers := by
  cases c with
  | listOwn | listVolumes | listMounts => rfl
  | _ => cases h

namespace Host

/-- A new volume is no container. -/
@[simp]
theorem addVolume_containers (h : Host) (name : Str) :
    (h.addVolume name).containers = h.containers := by
  rw [addVolume]
  split_ifs
  · rfl
  · rfl

/-- Nor is one that goes. -/
@[simp]
theorem dropVolume_containers (h : Host) (name : Str) :
    (h.dropVolume name).containers = h.containers := by
  rw [dropVolume]
  split_ifs
  · rfl
  · rfl

theorem foldl_addVolume_containers (names : List Str) (h : Host) :
    (names.foldl addVolume h).containers = h.containers := by
  induction names generalizing h with
  | nil => rfl
  | cons name names ih => rw [List.foldl_cons, ih, addVolume_containers]

/-- A command that spares the containers changes none. -/
theorem effect_containers (h : Host) (id : Str) {c : Command} (hc : c.sparesContainers) :
    (h.effect id c).containers = h.containers := by
  cases c with
  | removeContainer _ | removeWithVolumes _ | dockerRun _ | removeProbes => cases hc
  | createVolume volume => exact addVolume_containers h volume.name
  | removeVolume name => exact dropVolume_containers h name
  | _ => rfl

/-- Nor does it when it fails. -/
theorem exec_containers {c : Command} {o : Outcome} {h h' : Host} {r : CommandResult}
    (hc : c.sparesContainers) (hexec : exec c o h = some (r, h')) :
    h'.containers = h.containers := by
  obtain ⟨-, -, -, rfl⟩ := exec_eq_some hexec
  split_ifs
  · exact effect_containers h o.newId hc
  · rfl

/-- A removal by name leaves no container of that name. -/
theorem named_filter_answersTo (h : Host) (name : Str) :
    named { h with containers := h.containers.filter (!·.answersTo name) } name = false := by
  simp only [named, List.any_filter, List.any_eq_false, Container.answersTo]
  intro c _
  by_cases hname : c.name = name
  · simp [hname]
  · simp [hname]

end Host

namespace Containers

/-- The commands that a rig was sent, and how they ended. -/
abbrev Journal := List (Command × Outcome)

/-! ## Reading the journal -/

section Journal

variable {name : Str} {log : Journal} {e : Command × Outcome}

/-- A `docker rm -f` of the container that had its effect. -/
def cleared (name : Str) (e : Command × Outcome) : Bool :=
  e.1 = .removeContainer name && e.2.took

/-- A `docker run` that made a container without reporting success. -/
def strayed (e : Command × Outcome) : Bool :=
  match e.1 with
  | .dockerRun _ => e.2.took && !e.2.result.ok
  | _ => false

/-- A removal of the probe containers that had its effect. -/
def probesRemoved (e : Command × Outcome) : Bool :=
  e.1 = .removeProbes && e.2.took

/-- A `docker run` that did not report success made a container, and no later `docker rm -f` removed
it. -/
def strays (name : Str) : Journal → Bool
  | [] => false
  | e :: log => strayed e && !log.any (cleared name) || strays name log

/-- A container from before that was not removed. -/
def survives (name : Str) (log : Journal) (c : Container) : Bool :=
  c.name = name && !log.any (cleared name) && !(c.kind = "probe".toList && log.any probesRemoved)

/-- There is a container of the name that `create` does not know of, where `before` are the
containers it found. -/
def leftover (name : Str) (before : List Container) (log : Journal) : Bool :=
  strays name log || before.any (survives name log)

/-- A stray container is there after a run that left one, until it is cleared. -/
theorem strays_snoc : strays name (log ++ [e]) =
    (strayed e || strays name log && !cleared name e) := by
  induction log with
  | nil => simp [strays]
  | cons first log ih =>
    simp only [List.cons_append, strays, ih, List.any_append, List.any_cons, List.any_nil,
      Bool.or_false, Bool.not_or]
    cases strayed first <;> cases strayed e <;> cases cleared name e <;> simp

/-- A container survives one command more, unless it is cleared, or a probe that is removed. -/
theorem survives_snoc (c : Container) : survives name (log ++ [e]) c =
    (survives name log c && !cleared name e &&
      !(c.kind = "probe".toList && probesRemoved e)) := by
  simp only [survives, List.any_append, List.any_cons, List.any_nil, Bool.or_false, Bool.not_or]
  cases decide (c.name = name) <;> cases log.any (cleared name) <;>
    cases decide (c.kind = "probe".toList) <;> cases log.any probesRemoved <;>
    cases cleared name e <;> cases probesRemoved e <;> rfl

/-- The containers that survive one command more. -/
theorem filter_survives_snoc (before : List Container) :
    before.filter (survives name (log ++ [e])) = (before.filter (survives name log)).filter fun c =>
      !cleared name e && !(c.kind = "probe".toList && probesRemoved e) := by
  rw [List.filter_filter]
  refine List.filter_congr fun c _ => ?_
  rw [survives_snoc, Bool.and_assoc, Bool.and_comm]

/-- A command that neither leaves nor clears anything changes nothing in what is left over. -/
theorem leftover_snoc (before : List Container) (hcleared : cleared name e = false)
    (hstrayed : strayed e = false) (hprobes : probesRemoved e = false) :
    leftover name before (log ++ [e]) = leftover name before log := by
  have hsurvives : survives name (log ++ [e]) = survives name log := by
    funext c
    rw [survives_snoc, hcleared, hprobes]
    simp
  rw [leftover, leftover, strays_snoc, hcleared, hstrayed, hsurvives]
  simp

/-- Commands that do not concern containers say nothing about it. -/
theorem leftover_snoc_of_spares (before : List Container) (h : e.1.sparesContainers) :
    leftover name before (log ++ [e]) = leftover name before log := by
  obtain ⟨c, o⟩ := e
  refine leftover_snoc before ?_ ?_ ?_
  · cases c <;> first | rfl | cases h
  · cases c <;> first | rfl | cases h
  · cases c <;> first | rfl | cases h

end Journal

/-! ## Before the container is started -/

section Phases

variable {name : Str} {before : List Container} {w w' : Host × Journal} {c : Command}
  {o : Outcome} {r : CommandResult}

/-- Until the first `docker run`, the containers of the name are those from before that survived. -/
structure Found (name : Str) (before : List Container) (w : Host × Journal) : Prop where
  strays : strays name w.2 = false
  containers : w.1.containers.filter (·.name = name) = before.filter (survives name w.2)

/-- From then on, a container that `create` does not know of is there if the journal says so. -/
def Traced (name : Str) (before : List Container) (w : Host × Journal) : Prop :=
  w.1.named name = leftover name before w.2

/-- At the start everything was found. -/
theorem Found.start (name : Str) (h : Host) : Found name h.containers (h, []) where
  strays := rfl
  containers := by
    refine List.filter_congr fun c _ => ?_
    simp [survives]

/-- Before the run, what is there was found. -/
theorem Found.traced (h : Found name before w) : Traced name before w := by
  have hany (p : Container → Bool) (cs : List Container) : cs.any p = !(cs.filter p).isEmpty := by
    induction cs with
    | nil => rfl
    | cons c cs ih => cases hp : p c <;> simp [hp, ih]
  rw [Traced, Host.named, leftover, h.strays, hany, hany, h.containers]
  rfl

/-- The commands of the steps before the first `docker run`. -/
def beforeRun (name : Str) (c : Command) : Prop :=
  c = .removeContainer name ∨ c = .removeProbes ∨ c.sparesContainers

/-- A command before the run clears at most. -/
theorem Found.step (hc : beforeRun name c)
    (hexec : Program.logged Host.exec c o w = some (r, w')) (h : Found name before w) :
    Found name before w' := by
  obtain ⟨hhost, hlog⟩ := Program.logged_eq_some hexec
  obtain ⟨-, -, -, heffect⟩ := Host.exec_eq_some hhost
  have hstray : strayed (c, o) = false := by
    obtain rfl | rfl | hspare := hc
    · rfl
    · rfl
    · cases c <;> first | rfl | cases hspare
  refine ⟨by rw [hlog, strays_snoc, hstray, h.strays]; rfl, ?_⟩
  -- what is left of the containers after the command, and what of those from before survived it
  rw [hlog, filter_survives_snoc, ← h.containers, List.filter_filter]
  obtain rfl | rfl | hspare := hc
  · by_cases htook : o.took
    · rw [heffect, if_pos htook, Host.effect, List.filter_filter]
      refine List.filter_congr fun c' _ => ?_
      by_cases hname : c'.name = name
      · simp [hname, cleared, htook, Container.answersTo]
      · simp [hname]
    · rw [heffect, if_neg htook]
      exact List.filter_congr fun c' _ => by simp [cleared, probesRemoved, htook]
  · by_cases htook : o.took
    · rw [heffect, if_pos htook, Host.effect, List.filter_filter]
      refine List.filter_congr fun c' _ => ?_
      simp [cleared, probesRemoved, htook, Bool.and_comm]
    · rw [heffect, if_neg htook]
      exact List.filter_congr fun c' _ => by simp [cleared, probesRemoved, htook]
  · rw [Host.exec_containers hspare hhost]
    refine List.filter_congr fun c' _ => ?_
    have hcleared : cleared name (c, o) = false := by cases c <;> first | rfl | cases hspare
    have hprobes : probesRemoved (c, o) = false := by cases c <;> first | rfl | cases hspare
    simp [hcleared, hprobes]

/-! ## The attempts to start it -/

/-- Commands that do not concern containers keep the account. -/
theorem Traced.step (hc : c.sparesContainers)
    (hexec : Program.logged Host.exec c o w = some (r, w')) (h : Traced name before w) :
    Traced name before w' := by
  obtain ⟨hhost, hlog⟩ := Program.logged_eq_some hexec
  rw [Traced, hlog, leftover_snoc_of_spares before hc, Host.named,
    Host.exec_containers hc hhost]
  exact h

/-- A `docker rm -f` takes away the container, known or not. -/
theorem Traced.remove (hexec : Program.logged Host.exec (.removeContainer name) o w = some (r, w'))
    (h : Traced name before w) : Traced name before w' := by
  obtain ⟨hhost, hlog⟩ := Program.logged_eq_some hexec
  obtain ⟨-, -, -, heffect⟩ := Host.exec_eq_some hhost
  by_cases htook : o.took
  -- whatever ran under the name is gone, and the journal has a removal that took
  · have hnone : w'.1.named name = false := by
      rw [heffect, if_pos htook]
      exact w.1.named_filter_answersTo name
    have hcleared : cleared name (.removeContainer name, o) = true := by simp [cleared, htook]
    rw [Traced, hnone, hlog, leftover, strays_snoc, hcleared]
    simp [strayed, survives_snoc, hcleared]
  · rw [Traced, heffect, if_neg htook, hlog, leftover_snoc before]
    · exact h
    · simp [cleared, htook]
    · rfl
    · rfl

/-- A `docker run` needs a free name. What it leaves without a success is in the journal, and with
a success there is nothing else. -/
theorem Traced.run {spec : JobSpec} (hname : spec.containerName = name)
    (hexec : Program.logged Host.exec (.dockerRun spec) o w = some (r, w'))
    (h : Traced name before w) :
    if r.ok then leftover name before w'.2 = false else Traced name before w' := by
  obtain ⟨hhost, hlog⟩ := Program.logged_eq_some hexec
  obtain ⟨rfl, hok, htrue, heffect⟩ := Host.exec_eq_some hhost
  -- `docker run` is refused while the name is in use
  have hfree : o.took → leftover name before w.2 = false := by
    intro htook
    have hnamed : w.1.named name = false := by
      simpa [Host.truthful, htook, hname] using htrue
    rw [← hnamed]
    exact h.symm
  by_cases hsuccess : o.result.ok
  · rw [if_pos hsuccess, hlog, leftover_snoc before]
    · exact hfree (hok hsuccess)
    · rfl
    · simp [strayed, hsuccess]
    · rfl
  · rw [if_neg hsuccess]
    -- a run that failed may have left its container behind
    by_cases htook : o.took
    · have hnamed : w'.1.named name = true := by
        rw [heffect, if_pos htook, Host.named, Host.effect, Host.addContainer]
        simp [hname]
      have hstrayed : strayed (.dockerRun spec, o) = true := by simp [strayed, htook, hsuccess]
      rw [Traced, hnamed, hlog, leftover, strays_snoc, hstrayed]
      simp
    · rw [Traced, heffect, if_neg htook, hlog, leftover_snoc before]
      · exact h
      · rfl
      · simp [strayed, htook]
      · rfl

/-- `docker_run`: with a success nothing unknown is there, without one what is there is in the
journal. -/
def Attempted (name : Str) (before : List Container) (ok : Bool) (w : Host × Journal) : Prop :=
  if ok then leftover name before w.2 = false else Traced name before w

/-- One run, which may make the container without saying so. -/
theorem wp_runOnce {σ : Type} {spec : JobSpec} (hname : spec.containerName = name)
    {busy : CommandResult → Task σ (Bool × Str)} {s : σ} (h : Traced name before w)
    (hbusy : ∀ result w, Traced name before w →
      (busy result).wp (Program.logged Host.exec) (fun _ _ => True)
        (fun r s' w => s' = s ∧ Attempted name before r.1 w) s w) :
    (runOnce spec busy).wp (Program.logged Host.exec) (fun _ _ => True)
      (fun r s' w => s' = s ∧ Attempted name before r.1 w) s w := by
  simp only [runOnce, Program.wp_bind, Program.wp_send]
  refine ⟨trivial, fun o result w' hexec => ?_⟩
  -- the run itself says whether something is left
  have hrun := h.run hname hexec
  by_cases hok : result.ok
  · rw [if_pos hok] at hrun
    rw [if_pos hok]
    exact ⟨rfl, hrun⟩
  · rw [if_neg hok] at hrun
    rw [if_neg hok]
    split_ifs
    · exact ⟨rfl, hrun⟩
    · exact hbusy result w' hrun
    · exact ⟨rfl, hrun⟩

/-- The tries, by induction on their number. -/
theorem wp_runLoop {σ : Type} {spec : JobSpec} (hname : spec.containerName = name) (retries : ℕ)
    {s : σ} (h : Traced name before w) :
    (runLoop spec retries).wp (Program.logged Host.exec) (fun _ _ => True)
      (fun r s' w => s' = s ∧ Attempted name before r.1 w) s w := by
  induction retries generalizing w with
  | zero => exact wp_runOnce hname h fun _ w hw => ⟨rfl, hw⟩
  | succ retries ih =>
    refine wp_runOnce hname h fun result w hw => ?_
    -- the container of the failed attempt is removed, or is in the journal
    simp only [Program.wp_bind, Program.wp_send, hname]
    refine ⟨trivial, fun o r w₁ hexec => ⟨trivial, fun o' r' w₂ hexec' => ?_⟩⟩
    exact ih ((hw.remove hexec).step rfl hexec')

/-- The run of a creation. -/
theorem wp_dockerRun {σ : Type} (setting : Setting) {spec : JobSpec}
    (hname : spec.containerName = name) {s : σ} (h : Traced name before w) :
    (dockerRun setting spec).run.wp (Program.logged Host.exec) (fun _ _ => True)
      (fun r s' w => s' = s ∧
        match r with
        | .ok attempt => Attempted name before attempt.1 w
        | .error _ => Traced name before w) s w := by
  have hcheck := within_checkCommand (σ := σ) (S := fun _ => False) (J := (· = s)) spec
  refine Program.wp_run_seq_of_within (fun _ _ _ _ _ hc => hc.elim) (fun _ _ _ _ => trivial)
    hcheck rfl h (fun e s' w hs hw => ⟨hs, hw⟩) fun _ s' w hs hw => ?_
  subst hs
  rw [Raising.wp_await]
  exact wp_runLoop hname setting.retries hw

end Phases

/-! ## The body of `create` -/

section Body

variable {name : Str} {before : List Container}

/-- The variables at some point of the body. -/
structure At (name : Str) (launched : Bool) (t : Locals × Shared) : Prop where
  name : t.1.spec.containerName = name
  launched : t.1.launched = launched
  succeeded : t.1.succeeded = false

/-- None of the variables spoken of is written by the steps between. -/
theorem At.steady (name : Str) (launched : Bool) : Steady (At name launched) where
  step _ _ _ h := ⟨h.name, h.launched, h.succeeded⟩
  ports _ _ _ h := ⟨h.name, h.launched, h.succeeded⟩
  devices _ _ _ h := ⟨h.name, h.launched, h.succeeded⟩
  records _ _ _ h := ⟨h.name, h.launched, h.succeeded⟩

/-- How the body of `create` ends. -/
structure Ended (name : Str) (before : List Container) (r : Except Stop CreateResult)
    (t : Locals × Shared) (w : Host × Journal) : Prop where
  account : Attempted name before t.1.launched w
  name : t.1.spec.containerName = name
  result : match r with
    | .ok result => result.ok = true
    | .error _ => t.1.succeeded = false

/-- A creation that ends before its run. -/
theorem Ended.of_found {e : Stop} {t : Locals × Shared} {w : Host × Journal}
    (ht : At name false t) (hw : Traced name before w) : Ended name before (.error e) t w where
  account := by
    rw [ht.launched]
    exact hw
  name := ht.name
  result := ht.succeeded

/-- A creation that ends after its run. -/
theorem Ended.of_launched {e : Stop} {t : Locals × Shared} {w : Host × Journal}
    (ht : At name true t) (hw : leftover name before w.2 = false) :
    Ended name before (.error e) t w where
  account := by
    rw [ht.launched]
    exact hw
  name := ht.name
  result := ht.succeeded

/-- Nothing comes to be left over by a command that spares the containers. -/
theorem spares_step {c : Command} {o : Outcome} {w w' : Host × Journal} {r : CommandResult}
    (hc : c.sparesContainers) (hexec : Program.logged Host.exec c o w = some (r, w'))
    (h : leftover name before w.2 = false) : leftover name before w'.2 = false := by
  obtain ⟨-, hlog⟩ := Program.logged_eq_some hexec
  rw [hlog, leftover_snoc_of_spares before hc]
  exact h

/-- The steps once the container is started know of every container. -/
theorem wp_conclude (setting : Setting) {t : Locals × Shared} {w : Host × Journal}
    (ht : At name true t) (hw : leftover name before w.2 = false) :
    (Creating.conclude setting).run.wp (Program.logged Host.exec) (fun _ _ => True)
      (Ended name before) t w := by
  have hstep : ∀ c o (w : Host × Journal) r w', Command.sparesContainers c = true →
      Program.logged Host.exec c o w = some (r, w') → leftover name before w.2 = false →
        leftover name before w'.2 = false := fun c o w r w' hc hexec h => spares_step hc hexec h
  have quiet (c : Command) (hc : c.quiet) : c.sparesContainers = true :=
    c.sparesContainers_of_quiet hc
  have steady := At.steady name true
  refine Program.wp_run_seq_of_within hstep (fun _ _ _ _ => trivial)
    (Creating.within_awaitRunning quiet steady setting) ht hw
    (fun e t w => Ended.of_launched) fun _ t w ht hw => ?_
  rw [Creating.wp_enter_bind, Creating.wp_locals_bind]
  refine Program.wp_run_seq_of_within hstep (fun _ _ _ _ => trivial)
    (Creating.within_mountEncrypted quiet setting _) (steady.step _ _ _ ht) hw
    (fun e t w => Ended.of_launched) fun _ t w ht hw => ?_
  rw [Creating.record, Creating.wp_locals_bind]
  refine Program.wp_run_seq_of_within hstep (fun _ _ _ _ => trivial)
    (Creating.within_checkpoint setting rfl) ht hw
    (fun e t w => Ended.of_launched) fun _ t w ht hw => ?_
  -- nothing is sent after the last checkpoint
  refine ⟨?_, ht.name, rfl⟩
  show Attempted name before t.1.launched w
  rw [ht.launched]
  exact hw

/-- The step `run`: the probes go, and the container is started or not. -/
theorem wp_launch (setting : Setting) {t : Locals × Shared} {w : Host × Journal}
    (ht : At name false t) (hw : Found name before w) :
    (Creating.launch setting).run.wp (Program.logged Host.exec) (fun _ _ => True)
      (fun r t w =>
        match r with
        | .ok _ => At name true t ∧ leftover name before w.2 = false
        | .error _ => At name false t ∧ Traced name before w) t w := by
  have hstep : ∀ c o w r w', beforeRun name c → Program.logged Host.exec c o w = some (r, w') →
      Found name before w → Found name before w' := fun c o w r w' hc hexec h => h.step hc hexec
  -- the probes and the checkpoint come before anything runs
  refine Program.wp_run_seq_of_within hstep (fun _ _ _ _ => trivial)
    (Creating.within_send (.inr (.inl rfl))) ht hw (fun e t w ht hw => ⟨ht, hw.traced⟩)
    fun _ t w ht hw => ?_
  rw [Creating.wp_locals_bind]
  refine Program.wp_run_seq_of_within hstep (fun _ _ _ _ => trivial)
    (Creating.within_checkpoint setting (.inr (.inr rfl))) ht hw
    (fun e t w ht hw => ⟨ht, hw.traced⟩) fun _ t w ht hw => ?_
  rw [Creating.wp_enter_bind, Creating.wp_locals_bind, Program.wp_run_bind]
  have ht' := (At.steady name false).step _ _ "run".toList ht
  refine Creating.wp_await ?_
  refine Program.wp_mono (wp_dockerRun setting ht'.name hw.traced) fun r t w hpost => ?_
  obtain ⟨rfl, hpost⟩ := hpost
  cases r with
  | error e => exact ⟨ht', hpost⟩
  | ok attempt =>
    have hattempt : Attempted name before attempt.1 w := hpost
    -- `launched` is set exactly when the run succeeded
    by_cases hok : attempt.1
    · rw [Attempted, if_pos hok] at hattempt
      simp only [Program.handOn_ok, if_pos hok]
      exact ⟨⟨ht'.name, rfl, ht'.succeeded⟩, hattempt⟩
    · rw [Attempted, if_neg hok] at hattempt
      simp only [Program.handOn_ok, if_neg hok]
      exact ⟨ht', hattempt⟩

/-- However the body ends, the journal tells what `create` does not know of. -/
theorem wp_body (setting : Setting) {t : Locals × Shared} {w : Host × Journal}
    (ht : At name false t) (hw : Found name before w) :
    (Creating.body setting).run.wp (Program.logged Host.exec) (fun _ _ => True)
      (Ended name before) t w := by
  have hstep : ∀ c o w r w', beforeRun name c → Program.logged Host.exec c o w = some (r, w') →
      Found name before w → Found name before w' := fun c o w r w' hc hexec h => h.step hc hexec
  have quiet (c : Command) (hc : c.quiet) : beforeRun name c :=
    .inr (.inr (c.sparesContainers_of_quiet hc))
  have lists (c : Command) (hc : c.lists) : beforeRun name c :=
    .inr (.inr (c.sparesContainers_of_lists hc))
  have steady := At.steady name false
  have hfound : ∀ (e : Stop) t w, At name false t → Found name before w →
      Ended name before (.error e) t w := fun e t w ht hw => Ended.of_found ht hw.traced
  -- up to the volumes nothing is run
  refine Program.wp_run_seq_of_within hstep (fun _ _ _ _ => trivial)
    (Creating.within_prepare quiet steady setting fun _ _ => .inr (.inr rfl)) ht hw hfound
    fun _ t w ht hw => ?_
  refine Program.wp_run_seq_of_within hstep (fun _ _ _ _ => trivial)
    (Creating.within_cleanup steady setting lists (fun t ht => .inl (by rw [ht.name]))
      fun _ _ => .inr (.inr rfl)) ht hw hfound fun _ t w ht hw => ?_
  refine Program.wp_run_seq_of_within hstep (fun _ _ _ _ => trivial)
    (Creating.within_provision quiet steady setting (fun _ _ _ _ _ => .inr (.inr rfl))
      (fun _ _ => .inr (.inr rfl)) (fun _ _ _ _ _ v shared h => ⟨h.name, h.launched, h.succeeded⟩)
      fun v shared h => ⟨h.name, h.launched, h.succeeded⟩) ht hw hfound fun _ t w ht hw => ?_
  rw [Program.wp_run_bind]
  refine Program.wp_mono (wp_launch setting ht hw) fun r t w hpost => ?_
  cases r with
  | ok _ => exact wp_conclude setting hpost.1 hpost.2
  | error e => exact Ended.of_found hpost.1 hpost.2

end Body

/-! ## The `finally` block -/

/-- Every removal of a container by `_rollback` in the journal succeeded. -/
def rollbackSucceeded (log : Journal) : Bool :=
  log.all fun e =>
    match e.1 with
    | .removeWithVolumes _ => e.2.result.ok
    | _ => true

section Settle

variable {name : Str} {before : List Container}

/-- If the removals of `_rollback` succeed, the journal tells what is left. -/
def Settled (name : Str) (before : List Container) (w : Host × Journal) : Prop :=
  rollbackSucceeded w.2 → Traced name before w

/-- What is settled stays so by a command that spares the containers. -/
theorem Settled.step {c : Command} {o : Outcome} {w w' : Host × Journal} {r : CommandResult}
    (hc : c.sparesContainers) (hexec : Program.logged Host.exec c o w = some (r, w'))
    (h : Settled name before w) : Settled name before w' := by
  intro hroll
  refine Traced.step hc hexec (h ?_)
  obtain ⟨-, hlog⟩ := Program.logged_eq_some hexec
  rw [hlog, rollbackSucceeded, List.all_append, Bool.and_eq_true] at hroll
  exact hroll.1

/-- The removal by `_rollback` leaves no container, if it succeeds. -/
theorem Settled.remove {o : Outcome} {w w' : Host × Journal} {r : CommandResult}
    (hexec : Program.logged Host.exec (.removeWithVolumes name) o w = some (r, w'))
    (h : leftover name before w.2 = false) : Settled name before w' := by
  intro hroll
  obtain ⟨hhost, hlog⟩ := Program.logged_eq_some hexec
  obtain ⟨-, hok, -, heffect⟩ := Host.exec_eq_some hhost
  rw [hlog, rollbackSucceeded, List.all_append, Bool.and_eq_true] at hroll
  have hsuccess : o.result.ok = true := by simpa using hroll.2
  rw [Traced, hlog, leftover_snoc before rfl rfl rfl, h, heffect, if_pos (hok hsuccess)]
  exact w.1.named_filter_answersTo name

/-- So does what a run has left. -/
theorem Attempted.step {launched : Bool} {c : Command} {o : Outcome} {w w' : Host × Journal}
    {r : CommandResult} (hc : c.sparesContainers)
    (hexec : Program.logged Host.exec c o w = some (r, w'))
    (h : Attempted name before launched w) : Attempted name before launched w' := by
  cases launched with
  | false => exact Traced.step hc hexec h
  | true => exact spares_step hc hexec h

/-- A rollback settles what a run has left. -/
theorem wp_rollback (printable : Char → Bool) (setting : Setting) {v : Locals} {shared : Shared}
    {w : Host × Journal} (hname : v.spec.containerName = name)
    (h : Attempted name before v.launched w) :
    (rollback printable setting v).run.wp (Program.logged Host.exec) (fun _ _ => True)
      (fun _ _ => Settled name before) shared w := by
  have quiet (c : Command) (hc : c.quiet) : c.sparesContainers = true :=
    c.sparesContainers_of_quiet hc
  -- taking back touches no container
  have hgive := within_giveBack (J := fun _ => True) (v := v) quiet (fun _ _ => rfl)
    (fun _ _ _ => trivial) printable setting fun _ _ _ => rfl
  have hrest : ∀ shared w, Settled name before w →
      (giveBack printable setting v).run.wp (Program.logged Host.exec) (fun _ _ => True)
        (fun _ _ => Settled name before) shared w := fun shared w hw =>
    Program.wp_mono (Program.wp_of_within (fun c o w r w' hc hexec h => h.step hc hexec)
      (fun _ _ _ _ => trivial) hgive trivial hw) fun r shared w hpost => hpost.2.2
  simp only [rollback, Program.wp_run_bind, Raising.wp_modify, Program.handOn_ok, hname]
  -- a launched container is removed first
  refine Raising.wp_when (fun hlaunched => ?_) fun hlaunched => ?_
  · rw [hlaunched] at h
    exact ⟨trivial, fun o r w' hexec => hrest _ w' (Settled.remove hexec h)⟩
  · rw [hlaunched] at h
    exact hrest _ w fun _ => h

/-- The `finally` block of a creation that did not succeed. -/
theorem wp_settle (setting : Setting) {v : Locals} {shared : Shared} {w : Host × Journal}
    (hname : v.spec.containerName = name) (hfailed : v.succeeded = false)
    (h : Attempted name before v.launched w) :
    (settle setting v).run.wp (Program.logged Host.exec) (fun _ _ => True)
      (fun _ _ => Settled name before) shared w := by
  -- asking whether it was cancelled touches no container either
  have hflag : (wasCancelled setting v.spec.jobId : Task Shared Bool).within
      (fun c => c.sparesContainers = true) (fun _ => True) fun _ => True := by
    rw [wasCancelled]
    split_ifs
    · exact ⟨rfl, fun _ => trivial⟩
    · trivial
  have hfinish : ∀ (shared : Shared) w, Settled name before w →
      (Raising.when setting.inflight (Raising.tell (.finishFlight v.spec.jobId))).run.wp
        (Program.logged Host.exec) (fun _ _ => True) (fun _ _ => Settled name before) shared w := by
    intro shared w hw
    refine Raising.wp_when (fun _ => ⟨trivial, fun o r w' hexec => ?_⟩) fun _ => hw
    exact hw.step rfl hexec
  rw [settle, Program.wp_run_bind, Raising.wp_await]
  refine Program.wp_mono (Program.wp_of_within (K := Attempted name before v.launched)
    (fun c o w r w' hc hexec h => Attempted.step hc hexec h) (fun _ _ _ _ => trivial) hflag trivial
    h) fun cancelled shared w hpost => ?_
  obtain ⟨-, -, hw⟩ := hpost
  rw [Program.handOn_ok]
  rw [Program.wp_run_bind]
  refine Raising.wp_when (fun _ => ?_) fun hskip => ?_
  · rw [Program.wp_run_bind]
    refine Program.wp_mono (wp_rollback _ setting hname hw) fun r shared w hsettled => ?_
    cases r with
    | error e => exact hsettled
    | ok _ =>
      refine Raising.wp_when (fun _ => hfinish _ w hsettled) fun _ => hfinish _ w hsettled
  · -- nothing was started, so the journal tells everything
    have hlaunched : v.launched = false := by
      simp only [hfailed, Locals.changed] at hskip
      simp only [Bool.not_false, Bool.true_or, Bool.true_and, Bool.or_eq_false_iff] at hskip
      exact hskip.1.1
    rw [hlaunched] at hw
    exact hfinish shared w fun _ => hw

end Settle

/-! ## A whole creation -/

section Create

variable {name : Str} {before : List Container}

/-- What is shown of a creation: if it fails, the journal tells what is left. -/
def Accounted (name : Str) (before : List Container) (r : Except Exn CreateResult)
    (w : Host × Journal) : Prop :=
  match r with
  | .ok result => result.ok = false → Settled name before w
  | .error _ => True

/-- How the end of the body becomes a result. -/
theorem wp_handle {v : Locals} {r : Except Stop CreateResult} {shared : Shared}
    {w : Host × Journal}
    (h : ∀ result, r = .ok result → result.ok = true)
    (hw : (∃ e, r = .error e) → Settled name before w) :
    (handle v r).run.wp (Program.logged Host.exec) (fun _ _ => True)
      (fun r _ => Accounted name before r) shared w := by
  -- success needs no account; every other result comes with one
  cases r with
  | ok result =>
    rw [handle, Program.wp_run_pure]
    exact fun hfailed => absurd (h result rfl) (by simp [hfailed])
  | error stop =>
    cases stop with
    | returned result =>
      rw [handle, Program.wp_run_pure]
      exact fun _ => hw ⟨_, rfl⟩
    | raised e =>
      cases e with
      | cancelled message =>
        rw [handle, Program.wp_run_pure]
        exact fun _ => hw ⟨_, rfl⟩
      | _ => trivial

/-- One attempt, from what was found to what is accounted for. -/
theorem wp_attempt (setting : Setting) (spec : JobSpec) {shared : Shared} {w : Host × Journal}
    (hw : Found spec.containerName before w) :
    (attempt setting spec).run.wp (Program.logged Host.exec) (fun _ _ => True)
      (fun r _ => Accounted spec.containerName before r) shared w := by
  have hbody := wp_body setting (t := ({ spec }, shared)) ⟨rfl, rfl, rfl⟩ hw
  rw [attempt, Program.wp_run_bind, Raising.wp_await, Program.wp_withVars]
  refine Program.wp_mono hbody fun r t w hended => ?_
  rw [Program.handOn_ok, Program.wp_run_bind]
  cases r with
  | ok result =>
    -- a creation that went well is not asked about
    refine Program.wp_mono (Program.wp_true _ _ _) fun r' shared w _ => ?_
    cases r' with
    | error e => trivial
    | ok _ =>
      refine wp_handle (fun _ h => ?_) fun h => ?_
      · obtain rfl := Except.ok.inj h
        exact hended.result
      · obtain ⟨e, h⟩ := h
        cases h
  | error stop =>
    refine Program.wp_mono (wp_settle setting hended.name hended.result hended.account)
      fun r' shared w hsettled => ?_
    cases r' with
    | error e => trivial
    | ok _ => exact wp_handle (fun _ h => by cases h) fun _ => hsettled

/-- The whole creation. -/
theorem wp_create (setting : Setting) (spec : JobSpec) {shared : Shared} {h : Host} :
    (create setting spec).run.wp (Program.logged Host.exec) (fun _ _ => True)
      (fun r _ => Accounted spec.containerName h.containers r) shared (h, []) := by
  have hfound := Found.start spec.containerName h
  rw [create, Program.wp_run_bind]
  refine Raising.wp_when (fun _ => ?_) fun _ => ?_
  · rw [Raising.wp_tell]
    refine ⟨trivial, fun o r w hexec => ?_⟩
    rw [Program.handOn_ok]
    -- the table of creations says nothing about containers
    exact wp_attempt setting spec (hfound.step (.inr (.inr rfl)) hexec)
  · rw [Program.handOn_ok]
    exact wp_attempt setting spec hfound

/-- A creation that fails, with a rollback that succeeds, leaves no container exactly when every
`docker run` that failed left none or was followed by a `docker rm -f` that removed it, and no
container of the name from before survived. -/
theorem failed_create_leaves_none_iff {setting : Setting} {spec : JobSpec} {os : List Outcome}
    {shared shared' : Shared} {h h' : Host} {log : Journal} {result : CreateResult}
    (hrun : (create setting spec).run.run (Program.logged Host.exec) os shared (h, []) =
      some (.ok result, shared', h', log))
    (hfailed : result.ok = false) (hrollback : rollbackSucceeded log) :
    h'.named spec.containerName = false ↔
      leftover spec.containerName h.containers log = false := by
  have htraced := Program.run_of_wp (wp_create setting spec) hrun hfailed hrollback
  rw [show h'.named spec.containerName = _ from htraced]

/-- A creation of the sample job on an empty rig that goes well until `docker run`, which ends with
`run`. -/
def sampleRun (run : Outcome) :
    Option (Except Exn CreateResult × Shared × Host × Journal) :=
  (create sampleSetting sampleJob).run.run (Program.logged Host.exec)
    -- up to the cleanup, the two listings, the devices, the probes and a checkpoint
    (List.replicate 7 (succeeds []) ++ [succeeds sampleProbe, succeeds [], succeeds [], run,
      succeeds [], succeeds []]) {} ({}, [])

/-- The creation came to its cleanup and failed without raising, its rollback succeeded, and then a
container of the name was there, or none. -/
def endsWith (named : Bool) : Option (Except Exn CreateResult × Shared × Host × Journal) → Bool
  | some (.ok result, _, h, log) =>
    !result.ok && log.any (·.1 = .removeContainer sampleJob.containerName) &&
      rollbackSucceeded log && h.named sampleJob.containerName = named
  | _ => false

/-- What a run that ends as asked has shown. -/
theorem of_endsWith {named : Bool}
    {run : Option (Except Exn CreateResult × Shared × Host × Journal)}
    (h : endsWith named run = true) : ∃ result shared' h' log,
      run = some (.ok result, shared', h', log) ∧ result.ok = false ∧
        (∃ o, (.removeContainer sampleJob.containerName, o) ∈ log) ∧
        rollbackSucceeded log ∧ h'.named sampleJob.containerName = named := by
  cases run with
  | none => simp [endsWith] at h
  | some next =>
    obtain ⟨r, shared', h', log⟩ := next
    cases r with
    | error e => simp [endsWith] at h
    | ok result =>
      simp only [endsWith, Bool.and_eq_true, Bool.not_eq_true', decide_eq_true_eq,
        List.any_eq_true] at h
      obtain ⟨⟨⟨hok, e, hmem, he⟩, hroll⟩, hnamed⟩ := h
      exact ⟨result, shared', h', log, rfl, hok, ⟨e.2, he ▸ hmem⟩, hroll, hnamed⟩

/-- A `docker run` that times out after it has started the container leaves it on the rig. -/
theorem failed_create_leaves_container : ¬ ∀ (setting : Setting) (spec : JobSpec)
    (os : List Outcome) (shared shared' : Shared) (h h' : Host) (log : Journal)
    (result : CreateResult),
    (create setting spec).run.run (Program.logged Host.exec) os shared (h, []) =
      some (.ok result, shared', h', log) →
    result.ok = false → (∃ o, (.removeContainer spec.containerName, o) ∈ log) →
    rollbackSucceeded log → h'.named spec.containerName = false := by
  intro hall
  have hends : endsWith true (sampleRun (timesOut true)) = true := by decide +kernel
  obtain ⟨result, shared', h', log, hrun, hok, hcleanup, hroll, hnamed⟩ := of_endsWith hends
  have hnone := hall _ _ _ _ shared' _ h' log result hrun hok hcleanup hroll
  exact absurd hnamed (by simp [hnone])

/-- Where it has not started the container, the creation fails and leaves nothing. -/
theorem failed_create_leaves_none_iff_timeout : ∃ result shared' h' log,
    sampleRun (timesOut false) = some (.ok result, shared', h', log) ∧ result.ok = false ∧
      rollbackSucceeded log ∧ (h'.named sampleJob.containerName = false ↔
        leftover sampleJob.containerName [] log = false) := by
  have hends : endsWith false (sampleRun (timesOut false)) = true := by decide +kernel
  obtain ⟨result, shared', h', log, hrun, hok, -, hroll, -⟩ := of_endsWith hends
  exact ⟨result, shared', h', log, hrun, hok, hroll, failed_create_leaves_none_iff hrun hok hroll⟩

end Create

end Containers

end ComputePool.Validator
