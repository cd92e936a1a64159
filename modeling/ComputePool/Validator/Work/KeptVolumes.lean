import ComputePool.Validator.Work.Leftovers
import ComputePool.Validator.Work.Ports
import ComputePool.Validator.Work.Recreation

/-!
# Volumes that a creation is given

`create` is given volumes to make and volumes to use as they are; `recreate` turns all volumes of a
specification into the second kind. In the middle of both, the step `cleanup` removes every volume
of the pool that no container mounts, and it does so after the container of the job has been taken
away: a volume that only this container mounted goes with it, with the data of the tenant.

* `Held.step`: a volume stays as long as a container that is not taken away mounts it.
* `Kept`: no run of a coroutine costs certain volumes.
* `CreationSpares.kept`, `RecreationSpares.kept`: what other containers mount is kept, and
  everything is kept by a creation that ends before the cleanup whatever the rig answers.
-/

namespace ComputePool.Validator

open Text Numeral

/-! ## A container that holds a volume -/

namespace Host

/-- A new volume takes no other away. -/
theorem mem_addVolume {h : Host} {volume : Volume} (name : Str) (hmem : volume ∈ h.volumes) :
    volume ∈ (h.addVolume name).volumes := by
  rw [addVolume]
  split_ifs
  · exact hmem
  · exact List.mem_append_left _ hmem

/-- New volumes take no other away. -/
theorem mem_foldl_addVolume {h : Host} {volume : Volume} (names : List Str)
    (hmem : volume ∈ h.volumes) : volume ∈ (names.foldl addVolume h).volumes := by
  induction names generalizing h with
  | nil => exact hmem
  | cons name names ih => exact ih (mem_addVolume name hmem)

/-- A volume of another name stays, and so does one that is mounted. -/
theorem mem_dropVolume {h : Host} {volume : Volume} {name : Str} (hmem : volume ∈ h.volumes)
    (hmounted : name = volume.name → h.mounted name) : volume ∈ (h.dropVolume name).volumes := by
  rw [dropVolume]
  by_cases hm : h.mounted name
  · rw [if_pos hm]
    exact hmem
  · rw [if_neg hm]
    have hname : volume.name ≠ name := fun heq => hm (hmounted heq.symm)
    exact List.mem_filter.mpr ⟨hmem, by simpa using hname⟩

end Host

namespace Containers

section Held

variable {name : Str} {guard : Container} {volume : Volume} {guarded : Prop}

/-- The volume is there, and so is the container that holds it, as long as it is needed. -/
structure Held (guard : Container) (volume : Volume) (guarded : Prop) (h : Host) : Prop where
  volume : volume ∈ h.volumes
  guard : guarded → guard ∈ h.containers

/-- The commands that take neither away: containers are removed by the name of the job, probes only
if the container is none or is not needed, and the volume only while the container holds it. -/
def Harmless (name : Str) (guard : Container) (volume : Volume) (guarded : Prop) : Command → Prop
  | .removeContainer target | .removeWithVolumes target => target = name
  | .removeProbes => guarded → guard.kind ≠ "probe".toList
  | .removeVolume removed => removed = volume.name → guarded
  | _ => True

theorem harmless_of_quiet {c : Command} (h : c.quiet) : Harmless name guard volume guarded c := by
  cases c with
  | removeContainer _ | removeWithVolumes _ | removeProbes | removeVolume _ => cases h
  | _ => trivial

theorem harmless_of_lists {c : Command} (h : c.lists) : Harmless name guard volume guarded c := by
  cases c with
  | removeContainer _ | removeWithVolumes _ | removeProbes | removeVolume _ => cases h
  | _ => trivial

/-- A harmless command leaves the volume and its guard where they are. -/
theorem Held.effect {h : Host} {c : Command} (id : Str)
    (hmounts : guarded → volume.name ∈ guard.mounts)
    (hother : guarded → guard.answersTo name = false) (hc : Harmless name guard volume guarded c)
    (hheld : Held guard volume guarded h) : Held guard volume guarded (h.effect id c) := by
  have hfilter (keep : Container → Bool) (hkeep : guarded → keep guard) :
      Held guard volume guarded { h with containers := h.containers.filter keep } :=
    ⟨hheld.volume, fun hg => List.mem_filter.mpr ⟨hheld.guard hg, hkeep hg⟩⟩
  -- only a removal takes something from the host, and each is known to spare the guard
  cases c with
  | removeContainer target | removeWithVolumes target =>
    obtain rfl : target = name := hc
    exact hfilter _ fun hg => by simp [hother hg]
  | removeProbes => exact hfilter _ fun hg => by simpa using hc hg
  | dockerRun spec =>
    refine ⟨Host.mem_foldl_addVolume _ hheld.volume, fun hg => ?_⟩
    refine List.mem_append_left _ ?_
    rw [Host.foldl_addVolume_containers]
    exact hheld.guard hg
  | createVolume made =>
    refine ⟨Host.mem_addVolume _ hheld.volume, fun hg => ?_⟩
    rw [Host.effect, Host.addVolume_containers]
    exact hheld.guard hg
  | removeVolume removed =>
    refine ⟨Host.mem_dropVolume hheld.volume fun hname => ?_, fun hg => ?_⟩
    · -- the container mounts it
      subst hname
      exact List.any_eq_true.mpr ⟨guard, hheld.guard (hc rfl), by simpa using hmounts (hc rfl)⟩
    · rw [Host.effect, Host.dropVolume_containers]
      exact hheld.guard hg
  | _ => exact ⟨hheld.volume, hheld.guard⟩

/-- So does every command that is harmless, whether or not it took effect. -/
theorem Held.step {c : Command} {o : Outcome} {h h' : Host} {r : CommandResult}
    (hmounts : guarded → volume.name ∈ guard.mounts)
    (hother : guarded → guard.answersTo name = false)
    (hc : Harmless name guard volume guarded c) (hexec : Host.exec c o h = some (r, h'))
    (hheld : Held guard volume guarded h) : Held guard volume guarded h' := by
  obtain ⟨-, -, -, rfl⟩ := Host.exec_eq_some hexec
  split_ifs
  · exact hheld.effect o.newId hmounts hother hc
  · exact hheld

end Held

/-! ## A creation beside the container -/

section Creation

variable {name : Str} {guard : Container} {volume : Volume}

/-- The variables of a creation that makes, and so takes back, a volume of this name only if the
container that holds it is no probe. -/
structure Careful (name : Str) (guard : Container) (volume : Volume) (t : Locals × Shared) :
    Prop where
  name : t.1.spec.containerName = name
  makes : ∀ other ∈ t.1.spec.volumes, other.create → other.name = volume.name →
    guard.kind ≠ "probe".toList
  made : volume.name ∈ t.1.createdVolumes → guard.kind ≠ "probe".toList

/-- Neither the name nor the volumes are written by the steps between. -/
theorem Careful.steady (name : Str) (guard : Container) (volume : Volume) :
    Steady (Careful name guard volume) where
  step _ _ _ h := ⟨h.name, h.makes, h.made⟩
  ports _ _ _ h := ⟨h.name, h.makes, h.made⟩
  devices _ _ _ h := ⟨h.name, h.makes, h.made⟩
  records _ _ _ h := ⟨h.name, h.makes, h.made⟩

/-- Until the probes are removed, the container holds the volume whatever its kind. -/
theorem wp_body_held (setting : Setting) {t : Locals × Shared} {h : Host}
    (hmounts : volume.name ∈ guard.mounts) (hother : guard.answersTo name = false)
    (ht : Careful name guard volume t) (hheld : Held guard volume True h) :
    (Creating.body setting).run.wp Host.exec (fun _ _ => True)
      (fun _ t w => Careful name guard volume t ∧
        Held guard volume (guard.kind ≠ "probe".toList) w) t h := by
  have hstep (guarded : Prop) : ∀ c o (w : Host) r w', Harmless name guard volume guarded c →
      Host.exec c o w = some (r, w') → Held guard volume guarded w →
        Held guard volume guarded w' := fun c o w r w' hc hexec h =>
    h.step (fun _ => hmounts) (fun _ => hother) hc hexec
  have quiet (guarded : Prop) (c : Command) (hc : c.quiet) :
      Harmless name guard volume guarded c := harmless_of_quiet hc
  have steady := Careful.steady name guard volume
  have hlater (w : Host) (hw : Held guard volume True w) :
      Held guard volume (guard.kind ≠ "probe".toList) w := ⟨hw.volume, fun _ => hw.guard trivial⟩
  refine Program.wp_run_seq_of_within (hstep True) (fun _ _ _ _ => trivial)
    (Creating.within_prepare (quiet True) steady setting fun _ _ => trivial) ht hheld
    (fun e t w ht hw => ⟨ht, hlater w hw⟩) fun _ t w ht hw => ?_
  refine Program.wp_run_seq_of_within (hstep True) (fun _ _ _ _ => trivial)
    (Creating.within_cleanup steady setting (fun _ => harmless_of_lists) (fun t ht => ht.name)
      fun _ _ _ => trivial) ht hw (fun e t w ht hw => ⟨ht, hlater w hw⟩) fun _ t w ht hw => ?_
  refine Program.wp_run_seq_of_within (hstep True) (fun _ _ _ _ => trivial)
    (Creating.within_provision (quiet True) steady setting (fun _ _ _ _ _ => trivial)
      (fun _ _ => trivial) (fun t ht made hmem hcreate v shared hv => ?_)
      fun v shared hv => ⟨hv.name, hv.makes, hv.made⟩) ht hw
    (fun e t w ht hw => ⟨ht, hlater w hw⟩) fun _ t w ht hw => ?_
  · refine ⟨hv.name, hv.makes, fun hin => ?_⟩
    rcases List.mem_append.mp hin with hin | hin
    · exact hv.made hin
    · exact ht.makes made hmem hcreate (List.mem_singleton.mp hin).symm
  -- from here on a probe may be gone, and the volume is not one that the creation takes back
  refine Program.wp_run_seq_of_within (hstep (guard.kind ≠ "probe".toList))
    (fun _ _ _ _ => trivial)
    (Creating.within_launch (quiet _) steady setting (fun hkind => hkind) (fun _ _ => trivial)
      (fun _ _ => trivial) (fun t ht => ht.name) fun v shared hv => ⟨hv.name, hv.makes, hv.made⟩)
    ht (hlater w hw) (fun e t w ht hw => ⟨ht, hw⟩) fun _ t w ht hw => ?_
  refine Program.wp_mono (Program.wp_of_within (hstep (guard.kind ≠ "probe".toList))
    (fun _ _ _ _ => trivial)
    (Creating.within_conclude (quiet _) steady setting (fun _ _ => trivial)
      (fun v shared _ hv => ⟨hv.name, hv.makes, hv.made⟩)
      fun v shared hv => ⟨hv.name, hv.makes, hv.made⟩) ht hw) fun r t w hpost => hpost.2

/-- What the `finally` block takes back leaves the volume alone. -/
theorem wp_settle_held (setting : Setting) {v : Locals} {shared shared' : Shared} {h : Host}
    (hmounts : volume.name ∈ guard.mounts) (hother : guard.answersTo name = false)
    (ht : Careful name guard volume (v, shared'))
    (hheld : Held guard volume (guard.kind ≠ "probe".toList) h) :
    (settle setting v).run.wp Host.exec (fun _ _ => True)
      (fun _ _ w => volume ∈ w.volumes) shared h := by
  have hsettle := within_settle (J := fun _ => True) (v := v)
    (S := Harmless name guard volume (guard.kind ≠ "probe".toList)) (fun _ => harmless_of_quiet)
    (fun _ _ => trivial) (fun _ _ _ => trivial) setting (fun _ _ _ => trivial)
    (fun _ _ _ => trivial) trivial trivial ht.name fun made hmade _ hname =>
      ht.made (hname ▸ hmade)
  refine Program.wp_mono (Program.wp_of_within
    (fun c o w r w' hc hexec h => Held.step (fun _ => hmounts) (fun _ => hother) hc hexec h)
    (fun _ _ _ _ => trivial) hsettle trivial hheld) fun r shared w hpost => hpost.2.2.volume

/-- The handlers of `create` send nothing. -/
theorem wp_handle_host {v : Locals} (r : Except Stop CreateResult) {shared : Shared} {h : Host}
    {K : Host → Prop} (hK : K h) :
    (handle v r).run.wp Host.exec (fun _ _ => True) (fun _ _ => K) shared h := by
  rcases r with (result | e) | result
  · exact hK
  · cases e with
    | _ => exact hK
  · exact hK

/-- A creation keeps a volume that a container of another name mounts. -/
theorem wp_create_held (setting : Setting) {spec : JobSpec} {shared : Shared} {h : Host}
    (hmounts : volume.name ∈ guard.mounts) (hother : guard.answersTo spec.containerName = false)
    (hmakes : ∀ other ∈ spec.volumes, other.create → other.name = volume.name →
      guard.kind ≠ "probe".toList) (hheld : Held guard volume True h) :
    (create setting spec).run.wp Host.exec (fun _ _ => True)
      (fun _ _ w => volume ∈ w.volumes) shared h := by
  -- the body and what settles it, from a host that holds the volume
  have hattempt (h : Host) (hheld : Held guard volume True h) :
      (attempt setting spec).run.wp Host.exec (fun _ _ => True)
        (fun _ _ w => volume ∈ w.volumes) shared h := by
    rw [attempt, Program.wp_run_bind, Raising.wp_await, Program.wp_withVars]
    have hcareful : Careful spec.containerName guard volume ({ spec }, shared) :=
      ⟨rfl, hmakes, fun hmem => absurd hmem List.not_mem_nil⟩
    refine Program.wp_mono (wp_body_held setting hmounts hother hcareful hheld)
      fun r t w hended => ?_
    rw [Program.handOn_ok, Program.wp_run_bind]
    refine Program.wp_mono (wp_settle_held setting hmounts hother hended.1 hended.2)
      fun r' shared w hw => ?_
    cases r' with
    | error e => exact hw
    | ok _ => exact wp_handle_host r hw
  rw [create, Program.wp_run_bind]
  refine Raising.wp_when (fun _ => ?_) fun _ => hattempt h hheld
  rw [Raising.wp_tell]
  -- registering the creation is harmless
  refine ⟨trivial, fun o r w hexec => ?_⟩
  have hc : Harmless spec.containerName guard volume True (.startFlight spec.jobId) := trivial
  exact hattempt w (hheld.step (fun _ => hmounts) (fun _ => hother) hc hexec)

end Creation

/-! ## Creations that end before the cleanup -/

section Refusal

variable {setting : Setting} {spec : JobSpec} {h : Host}

/-- The ports are given, none are asked for, or the range has enough of them. -/
def Portable (spec : JobSpec) : Prop :=
  spec.ports ≠ [] ∨ spec.containerPorts = [] ∨
    ∃ low high, HasRoom spec.portRange [] low high spec.containerPorts.length

/-- `create` ends before the step `cleanup`, whatever the rig answers. -/
def Refused (setting : Setting) (spec : JobSpec) : Prop :=
  Unacceptable setting spec ∨ ¬ Portable spec

theorem refused_forRecreation :
    Refused setting (forRecreation spec) ↔ Refused setting spec := by
  rw [Refused, unacceptable_forRecreation, Refused]
  rfl

/-- A range without room stays without when some of its ports are busy. -/
theorem assignPorts_eq_none (h : ¬ Portable spec) {busy : List ℤ} {low high : ℤ}
    (hrange : IsRange spec.portRange low high ∧ 1 ≤ low ∧ low ≤ high ∧ high ≤ 65535) :
    assignPorts busy high low spec.containerPorts = none := by
  rw [assignPorts_eq, if_neg]
  intro hroom
  refine h (.inr (.inr ⟨low, high, hrange.1, hrange.2.1, hrange.2.2.1, hrange.2.2.2, ?_⟩))
  rw [length_freeFrom] at hroom
  refine hroom.trans (Finset.card_le_card ?_)
  simp

theorem exec_idle {c : Command} {o : Outcome} {h' : Host} {r : CommandResult}
    (hidle : ∀ id, h.effect id c = h) (hexec : Host.exec c o h = some (r, h')) : h' = h := by
  obtain ⟨-, -, -, rfl⟩ := Host.exec_eq_some hexec
  rw [hidle, ite_self]

/-- Without room, no answer of the rig gives ports. -/
theorem wp_reservePorts_refused {σ : Type} (hports : ¬ Portable spec) (printable : Char → Bool)
    (s : σ) :
    (reservePorts printable spec).run.wp Host.exec (fun _ _ => True)
      (fun r s' w => (∀ ports, r ≠ .ok (.ok ports)) ∧ s' = s ∧ w = h) s h := by
  have hasks : ¬ (spec.ports ≠ [] ∨ spec.containerPorts = []) := fun hgiven =>
    hports (hgiven.elim .inl fun hnone => .inr (.inl hnone))
  rw [reservePorts, if_neg hasks, Program.wp_run_bind]
  refine wp_parseRange spec.portRange fun range hrange => ?_
  -- the range is no range, or it has too little room
  rcases range with e | _ | ⟨low, high⟩
  · exact ⟨by simp, rfl, rfl⟩
  · exact ⟨by simp, rfl, rfl⟩
  · rw [Program.handOn_ok, Program.wp_run_bind, usedPorts, Program.wp_run_bind, Raising.wp_send]
    refine ⟨trivial, fun o r w hexec => ?_⟩
    rw [exec_idle (fun _ => rfl) hexec, Program.handOn_ok, wp_portsIn]
    split
    · rw [Program.handOn_ok, assignPorts_eq_none hports ((hrange low high).mp rfl)]
      exact ⟨by simp, rfl, rfl⟩
    · exact ⟨by simp, rfl, rfl⟩

/-- The variables of a creation that has nothing to take back. -/
structure Untouched (spec : JobSpec) (t : Locals × Shared) : Prop where
  spec : t.1.spec = spec
  unchanged : t.1.changed = false

/-- A checkpoint changes nothing, and it may stop. -/
theorem wp_checkpoint {jobId : Str} {t : Locals × Shared}
    {Q : Except Stop Unit → Locals × Shared → Host → Prop} (h₁ : Q (.ok ()) t h)
    (h₂ : ∀ e, Q (.error e) t h) :
    (Creating.checkpoint setting jobId).run.wp Host.exec (fun _ _ => True) Q t h := by
  rw [Creating.checkpoint]
  split_ifs
  · rw [Creating.wp_send_bind]
    refine ⟨trivial, fun o r w hexec => ?_⟩
    rw [exec_idle (fun _ => rfl) hexec]
    split_ifs
    · exact h₁
    · exact h₂ _
  · exact h₁

/-- A creation that is refused ends in the steps before the cleanup. -/
theorem wp_prepare_refused (hrefused : Refused setting spec) {t : Locals × Shared}
    (ht : Untouched spec t) :
    (Creating.prepare setting).run.wp Host.exec (fun _ _ => True)
      (fun r t w => (∃ e, r = .error e) ∧ Untouched spec t ∧ w = h) t h := by
  rw [Creating.prepare, Program.wp_run_bind, Creating.validate, Creating.wp_locals_bind, ht.spec]
  cases hproblem : Creating.firstProblem setting spec with
  | some problem => exact ⟨⟨_, rfl⟩, ht, rfl⟩
  | none =>
    -- the specification is fine, so it is the ports
    have hports : ¬ Portable spec := by
      refine hrefused.resolve_left fun hbad => ?_
      exact firstProblem_ne_none_iff.mpr hbad hproblem
    refine wp_checkpoint ?_ fun e => ⟨⟨e, rfl⟩, ht, rfl⟩
    rw [Program.handOn_ok, Program.wp_run_bind, Creating.choosePorts, Creating.wp_enter_bind,
      Creating.wp_locals_bind, Program.wp_run_bind]
    refine Creating.wp_await ?_
    have hspec : ({ t.1 with step := "reserve ports".toList } : Locals).spec = spec := ht.spec
    rw [hspec]
    refine Program.wp_mono (wp_reservePorts_refused hports _ _) fun r t' w hpost => ?_
    obtain ⟨hnone, rfl, rfl⟩ := hpost
    have hend : Untouched spec ({ t.1 with step := "reserve ports".toList }, t.2) :=
      ⟨ht.spec, ht.unchanged⟩
    rcases r with e | reason | ports
    · exact ⟨⟨_, rfl⟩, hend, rfl⟩
    · exact ⟨⟨_, rfl⟩, hend, rfl⟩
    · exact absurd rfl (hnone ports)

/-- It leaves the rig as it was. -/
theorem wp_create_refused_host (hrefused : Refused setting spec) (shared : Shared) :
    (create setting spec).run.wp Host.exec (fun _ _ => True) (fun _ _ w => w = h) shared h := by
  -- the body stops before its first command, and nothing is taken back
  have hbody (shared : Shared) : (Creating.body setting).run.wp Host.exec (fun _ _ => True)
      (fun _ t w => Untouched spec t ∧ w = h) ({ spec }, shared) h := by
    rw [Creating.body, Program.wp_run_bind]
    refine Program.wp_mono (wp_prepare_refused hrefused ⟨rfl, rfl⟩) fun r t w hpost => ?_
    obtain ⟨⟨e, rfl⟩, hend⟩ := hpost
    exact hend
  have hsettle (v : Locals) (hv : v.changed = false) (shared : Shared) :
      (settle setting v).run.wp Host.exec (fun _ _ => True) (fun _ _ w => w = h) shared h := by
    have hflag : (wasCancelled setting v.spec.jobId).wp Host.exec (fun _ _ => True)
        (fun _ _ w => w = h) shared h := by
      rw [wasCancelled]
      split_ifs
      · exact ⟨trivial, fun o r w hexec => exec_idle (fun _ => rfl) hexec⟩
      · rfl
    rw [settle, Program.wp_run_bind, Raising.wp_await]
    refine Program.wp_mono hflag fun cancelled shared w hw => ?_
    subst hw
    rw [Program.handOn_ok, hv, Bool.and_false, Program.wp_run_bind]
    refine Raising.wp_when (fun hdo => Bool.noConfusion hdo) fun _ => ?_
    rw [Program.handOn_ok]
    exact Raising.wp_when (fun _ => ⟨trivial, fun o r w' hexec => exec_idle (fun _ => rfl) hexec⟩)
      fun _ => rfl
  have hattempt (shared : Shared) : (attempt setting spec).run.wp Host.exec (fun _ _ => True)
      (fun _ _ w => w = h) shared h := by
    rw [attempt, Program.wp_run_bind, Raising.wp_await, Program.wp_withVars]
    refine Program.wp_mono (hbody shared) fun r t w hend => ?_
    obtain ⟨hend, rfl⟩ := hend
    rw [Program.handOn_ok, Program.wp_run_bind]
    refine Program.wp_mono (hsettle t.1 hend.unchanged t.2) fun r' shared w' hw => ?_
    cases r' with
    | error e => exact hw
    | ok _ => exact wp_handle_host r hw
  rw [create, Program.wp_run_bind]
  refine Raising.wp_when (fun _ => ?_) fun _ => hattempt shared
  rw [Raising.wp_tell]
  refine ⟨trivial, fun o r w hexec => ?_⟩
  rw [exec_idle (fun _ => rfl) hexec]
  exact hattempt shared

end Refusal

/-! ## What keeps the volumes -/

/-- No run of the coroutine costs a volume whose name is meant. -/
def Kept {α : Type} (p : Raising Shared α) (meant : Str → Prop) (shared : Shared) (h : Host) :
    Prop :=
  ∀ os r shared' h', p.run.run Host.exec os shared h = some (r, shared', h') →
    ∀ volume ∈ h.volumes, meant volume.name → volume ∈ h'.volumes

/-- The names of the volumes that are to be used as they are. -/
def givenNames (spec : JobSpec) (name : Str) : Prop :=
  ∃ volume ∈ spec.volumes, volume.create = false ∧ volume.name = name

/-- The names of the volumes that are to be made. -/
def freshNames (spec : JobSpec) (name : Str) : Prop :=
  ∃ volume ∈ spec.volumes, volume.create = true ∧ volume.name = name

/-- The container mounts the volume, and a creation for the specification does not take it away
before it is done with the volume: it has another name, and if it is a probe, the volume is not one
that the creation also makes. -/
structure Holds (spec : JobSpec) (volume : Str) (container : Container) : Prop where
  other : container.answersTo spec.containerName = false
  mounts : volume ∈ container.mounts
  lasts : container.kind = "probe".toList → ¬ freshNames spec volume

/-- What keeps the volumes that a creation is to use. -/
def CreationSpares (setting : Setting) (spec : JobSpec) (h : Host) : Prop :=
  Refused setting spec ∨ ∀ volume ∈ h.volumes, givenNames spec volume.name →
    ∃ container ∈ h.containers, Holds spec volume.name container

/-- What keeps the volumes of a specification when its container is recreated. -/
def RecreationSpares (setting : Setting) (spec : JobSpec) (h : Host) : Prop :=
  Refused setting spec ∨ ∀ volume ∈ h.volumes, volume.name ∈ spec.volumes.map VolumeSpec.name →
    ∃ container ∈ h.containers, container.answersTo spec.containerName = false ∧
      volume.name ∈ container.mounts

theorem givenNames_forRecreation {spec : JobSpec} {name : Str} :
    givenNames (forRecreation spec) name ↔ name ∈ spec.volumes.map VolumeSpec.name := by
  simp [givenNames, forRecreation]

theorem not_freshNames_forRecreation {spec : JobSpec} {name : Str} :
    ¬ freshNames (forRecreation spec) name := by
  simp [freshNames, forRecreation]

/-- A creation that spares what is given keeps the volume. -/
theorem CreationSpares.wp_create {setting : Setting} {spec : JobSpec} {h : Host} {volume : Volume}
    (hspares : CreationSpares setting spec h) (hmem : volume ∈ h.volumes)
    (hgiven : givenNames spec volume.name) (shared : Shared) :
    (create setting spec).run.wp Host.exec (fun _ _ => True)
      (fun _ _ w => volume ∈ w.volumes) shared h := by
  rcases hspares with hrefused | hheld
  · refine Program.wp_mono (wp_create_refused_host hrefused shared) fun r s w hw => ?_
    rw [hw]
    exact hmem
  · obtain ⟨guard, hguard, hholds⟩ := hheld volume hmem hgiven
    refine wp_create_held setting hholds.mounts hholds.other (fun other hother hcreate hname => ?_)
      ⟨hmem, fun _ => hguard⟩
    exact fun hprobe => hholds.lasts hprobe ⟨other, hother, hcreate, hname⟩

/-- A creation keeps the volumes that others hold. -/
theorem CreationSpares.kept {setting : Setting} {spec : JobSpec} {h : Host}
    (hspares : CreationSpares setting spec h) (shared : Shared) :
    Kept (create setting spec) (givenNames spec) shared h := by
  intro os r shared' h' hrun volume hmem hgiven
  have hkept := Program.run_of_wp (hspares.wp_create hmem hgiven shared) hrun
  exact hkept

/-- `destroy` without volumes to remove takes away the container of the name, if anything. -/
theorem wp_destroy_held (printable : Char → Bool) {name : Str} {t : Teardown}
    (ht : t.volumeNames = []) {guard : Container} {volume : Volume} {shared : Shared} {h : Host}
    {guarded : Prop} (hmounts : guarded → volume.name ∈ guard.mounts)
    (hother : guarded → guard.answersTo name = false) (hheld : Held guard volume guarded h) :
    (destroy printable name t).run.wp Host.exec (fun _ _ => True)
      (fun _ _ => Held guard volume guarded) shared h := by
  have hdestroy : (destroy printable name t).run.within (Harmless name guard volume guarded)
      (fun _ => True) fun _ => True := by
    refine within_destroy (fun _ => harmless_of_quiet) (fun _ _ => trivial) (fun _ _ _ => trivial)
      printable (fun _ _ _ => trivial) trivial rfl fun removed hmem => ?_
    rw [ht] at hmem
    exact absurd hmem List.not_mem_nil
  exact Program.wp_mono (Program.wp_of_within
    (fun c o w r w' hc hexec h => Held.step hmounts hother hc hexec h) (fun _ _ _ _ => trivial)
    hdestroy trivial hheld) fun r shared w hpost => hpost.2.2

/-- A recreation keeps the volumes that others hold. -/
theorem RecreationSpares.kept {setting : Setting} {spec : JobSpec} {h : Host}
    (hspares : RecreationSpares setting spec h) (shared : Shared) :
    Kept (recreate setting spec) (· ∈ spec.volumes.map VolumeSpec.name) shared h := by
  intro os r shared' h' hrun volume hmem hname
  have hgiven : givenNames (forRecreation spec) volume.name := givenNames_forRecreation.mpr hname
  -- the container that holds the volume, unless nothing will be removed
  obtain ⟨guard, guarded, hmounts, hother, hheld, hafter⟩ : ∃ guard, ∃ guarded : Prop,
      (guarded → volume.name ∈ guard.mounts) ∧
      (guarded → guard.answersTo spec.containerName = false) ∧ Held guard volume guarded h ∧
      ∀ w, Held guard volume guarded w → ∀ shared,
        (create { setting with inflight := false } (forRecreation spec)).run.wp Host.exec
          (fun _ _ => True) (fun _ _ w => volume ∈ w.volumes) shared w := by
    rcases hspares with hrefused | hall
    · refine ⟨{ id := [], name := [] }, False, False.elim, False.elim, ⟨hmem, False.elim⟩,
        fun w hw shared => ?_⟩
      have hspares : CreationSpares { setting with inflight := false } (forRecreation spec) w :=
        .inl (refused_forRecreation.mpr hrefused)
      exact hspares.wp_create hw.volume hgiven shared
    · obtain ⟨guard, hguard, hother, hmounts⟩ := hall volume hmem hname
      refine ⟨guard, True, fun _ => hmounts, fun _ => hother, ⟨hmem, fun _ => hguard⟩,
        fun w hw shared => ?_⟩
      refine wp_create_held _ hmounts hother (fun made hmade hcreate heq => ?_) hw
      exact absurd ⟨made, hmade, hcreate, heq⟩ not_freshNames_forRecreation
  have hwp : (recreate setting spec).run.wp Host.exec (fun _ _ => True)
      (fun _ _ w => volume ∈ w.volumes) shared h := by
    rw [recreate_eq, Program.wp_run_bind]
    refine Program.wp_mono (wp_destroy_held _ rfl hmounts hother hheld) fun r shared w hw => ?_
    cases r with
    | error e => exact hw.volume
    | ok torn =>
      rw [Program.handOn_ok]
      split_ifs
      · exact hafter w hw shared
      · exact hw.volume
  have hkept := Program.run_of_wp hwp hrun
  exact hkept

end Containers

end ComputePool.Validator
