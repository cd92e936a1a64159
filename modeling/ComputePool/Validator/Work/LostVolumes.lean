import ComputePool.Validator.Work.Acceptance
import ComputePool.Validator.Work.KeptVolumes

/-!
# Volumes that a recreation loses

The rig `oblige` removes and lists what it is asked to, and makes nothing. On it a creation that is
not refused comes to its cleanup, and the cleanup removes every volume that only the container of
the job mounted.

* `wp_create_gone`, `wp_recreate_gone`: such a volume is gone in the end.
* `volumes_kept_iff`: a recreation keeps the volumes of its specification exactly when another
  container mounts each of them, or when it is refused before the cleanup; the same for a creation
  and the volumes it is to use.
-/

namespace ComputePool.Validator

open Text Numeral

namespace Containers

/-! ## A rig that obliges -/

/-- The names of volumes are made of the characters that docker allows, so that a listing can be
read back. -/
structure Plain (h : Host) : Prop where
  volumes : ∀ volume ∈ h.volumes, ∀ c ∈ volume.name, isNameChar c
  mounts : ∀ container ∈ h.containers, ∀ name ∈ container.mounts, startsWith name volumePrefix →
    ∀ c ∈ name, isNameChar c

/-- The names that `docker ps -a` lists. -/
def mountNames (h : Host) : List Str :=
  (h.containers.flatMap Container.mounts).filter (startsWith · volumePrefix)

/-- What a rig answers on which containers and volumes can be removed and listed, and nothing can be
made. -/
def wish (h : Host) : Command → Outcome
  | .stop _ _ | .removeContainer _ | .removeWithVolumes _ => succeeds []
  | .pull _ | .listPorts | .checkFlight _ => succeeds []
  | .listVolumes => succeeds (joinLines (h.volumes.map Volume.name))
  | .listMounts => succeeds (joinLines (mountNames h))
  | .removeVolume name => if h.mounted name then timesOut false else succeeds []
  | _ => timesOut false

/-- The answer, if it is a true one. -/
def answer (h : Host) (c : Command) : Outcome :=
  if h.truthful (wish h c) c then wish h c else timesOut false

/-- The rig that gives this answer and no other. -/
def oblige (c : Command) (o : Outcome) (h : Host) : Option (CommandResult × Host) :=
  if o = answer h c then Host.exec c o h else none

section Oblige

variable {h h' : Host} {c : Command} {o : Outcome} {r : CommandResult}

/-- An obliging host is a host. -/
theorem exec_of_oblige {next : CommandResult × Host} (h' : oblige c o h = some next) :
    Host.exec c o h = some next := by
  rw [oblige] at h'
  split_ifs at h'
  exact h'

/-- A host that obliges has an outcome for every command. -/
theorem oblige_total (c : Command) (h : Host) : ∃ o next, oblige c o h = some next := by
  refine ⟨answer h c, ?_⟩
  rw [oblige, if_pos rfl, answer]
  split_ifs with htrue
  -- an answer that says it succeeded has taken effect
  · have hout : (timesOut false).result.ok → (timesOut false).took := by decide
    have htook : (wish h c).result.ok → (wish h c).took := by
      cases c with
      | removeVolume name =>
        rw [wish]
        split_ifs
        · exact hout
        · exact fun _ => rfl
      | stop _ _ | removeContainer _ | removeWithVolumes _ | pull _ | listPorts =>
        exact fun _ => rfl
      | checkFlight _ | listVolumes | listMounts => exact fun _ => rfl
      | _ => exact hout
    exact ⟨_, if_pos ⟨htook, htrue⟩⟩
  -- where the wish would be a lie, the command times out
  · exact ⟨_, Host.exec_timesOut c h⟩

/-- What the rig does with a command that it can answer. -/
theorem oblige_eq (hexec : oblige c o h = some (r, h')) (htrue : h.truthful (wish h c) c) :
    r = (wish h c).result ∧ h' = if (wish h c).took then h.effect (wish h c).newId c else h := by
  rw [oblige] at hexec
  split_ifs at hexec with ho
  rw [answer, if_pos htrue] at ho
  subst ho
  obtain ⟨rfl, -, -, rfl⟩ := Host.exec_eq_some hexec
  exact ⟨rfl, rfl⟩

/-- It makes no container and no volume. -/
theorem oblige_subset (hexec : oblige c o h = some (r, h')) :
    h'.containers ⊆ h.containers ∧ h'.volumes ⊆ h.volumes := by
  have hsame : h.containers ⊆ h.containers ∧ h.volumes ⊆ h.volumes :=
    ⟨List.Subset.refl _, List.Subset.refl _⟩
  have ho : o = answer h c := by
    rw [oblige] at hexec
    split_ifs at hexec with ho
    exact ho
  obtain ⟨-, -, -, rfl⟩ := Host.exec_eq_some (exec_of_oblige hexec)
  by_cases htook : o.took
  · rw [if_pos htook]
    -- such a host never starts or makes anything
    have hnever (hwish : wish h c = timesOut false) : False := by
      rw [ho, answer, hwish, ite_self] at htook
      exact Bool.noConfusion htook
    -- a removal makes a list smaller, and no other command changes one
    cases c with
    | removeContainer _ | removeWithVolumes _ | removeProbes =>
      exact ⟨List.filter_sublist.subset, List.Subset.refl _⟩
    | dockerRun _ | createVolume _ => exact (hnever rfl).elim
    | removeVolume name =>
      rw [Host.effect, Host.dropVolume]
      split_ifs
      · exact hsame
      · exact ⟨List.Subset.refl _, List.filter_sublist.subset⟩
    | _ => exact hsame
  · rw [if_neg htook]
    exact hsame

/-- So names stay plain. -/
theorem Plain.oblige (hplain : Plain h) (hexec : oblige c o h = some (r, h')) : Plain h' := by
  obtain ⟨hcontainers, hvolumes⟩ := oblige_subset hexec
  exact ⟨fun volume hmem => hplain.volumes volume (hvolumes hmem),
    fun container hmem => hplain.mounts container (hcontainers hmem)⟩

/-! ### Its listings -/

/-- No character of a name is a space. -/
theorem isSpace_eq_false_of_isNameChar {c : Char} (h : isNameChar c) : isSpace c = false := by
  refine Bool.eq_false_iff.mpr fun hspace => ?_
  have hnone : ∀ n ∈ [0x9, 0xa, 0xb, 0xc, 0xd, 0x1c, 0x1d, 0x1e, 0x1f, 0x20, 0x85, 0xa0, 0x1680,
      0x2000, 0x2001, 0x2002, 0x2003, 0x2004, 0x2005, 0x2006, 0x2007, 0x2008, 0x2009, 0x200a,
      0x2028, 0x2029, 0x202f, 0x205f, 0x3000], isNameChar (Char.ofNat n) = false := by
    decide +kernel
  have hc := hnone c.toNat (of_decide_eq_true hspace)
  rw [Char.ofNat_toNat, h] at hc
  exact Bool.noConfusion hc

/-- A plain name is one line. -/
theorem oneLine_of_plain {name : Str} (h : ∀ c ∈ name, isNameChar c) : OneLine name := by
  intro c hc
  refine Bool.eq_false_iff.mpr fun hbreak => ?_
  have hspace := isSpace_of_isLineBreak hbreak
  rw [isSpace_eq_false_of_isNameChar (h c hc)] at hspace
  exact Bool.noConfusion hspace

theorem strip_plain {name : Str} (h : ∀ c ∈ name, isNameChar c) : strip name = name :=
  strip_eq_self fun c hc => isSpace_eq_false_of_isNameChar (h c hc)

/-- The listing of plain names is read back, as far as they are valid. -/
theorem oursIn_joinLines {names : List Str} (h : ∀ name ∈ names, ∀ c ∈ name, isNameChar c) :
    Volumes.oursIn (joinLines names) = names.filter validVolume := by
  have hstrip : names.map strip = names.map id :=
    List.map_congr_left fun name hmem => strip_plain (h name hmem)
  rw [List.map_id] at hstrip
  rw [Volumes.oursIn, splitLines_joinLines fun name hmem => oneLine_of_plain (h name hmem), hstrip]

/-- So is the listing of the mounts. -/
theorem mountedIn_joinLines {names : List Str} (h : ∀ name ∈ names, ∀ c ∈ name, isNameChar c) :
    Volumes.mountedIn (joinLines names) = names.filter (startsWith · volumePrefix) := by
  have hcomma (name : Str) (hname : ∀ c ∈ name, isNameChar c) : name.splitOn ',' = [name] :=
    List.splitOn_eq_singleton fun hmem => absurd (hname _ hmem) (by decide)
  have hpieces : names.flatMap (fun line => (line.splitOn ',').map strip) = names := by
    induction names with
    | nil => rfl
    | cons name names ih =>
      have hname := h name List.mem_cons_self
      rw [List.flatMap_cons, hcomma name hname, List.map_singleton, strip_plain hname,
        ih fun name' hmem => h name' (List.mem_cons_of_mem _ hmem), List.singleton_append]
  rw [Volumes.mountedIn, splitLines_joinLines fun name hmem => oneLine_of_plain (h name hmem),
    hpieces]

/-- What is mounted has a plain name. -/
theorem plain_mountNames (hplain : Plain h) : ∀ name ∈ mountNames h, ∀ c ∈ name, isNameChar c := by
  intro name hmem
  obtain ⟨hmem, hprefix⟩ := List.mem_filter.mp hmem
  obtain ⟨container, hcontainer, hname⟩ := List.mem_flatMap.mp hmem
  exact hplain.mounts container hcontainer name hname hprefix

/-- What the obliging host lists as volumes. -/
theorem oursIn_wish (hplain : Plain h) : Volumes.oursIn (wish h .listVolumes).result.stdout =
    (h.volumes.map Volume.name).filter validVolume := by
  refine oursIn_joinLines fun name hmem => ?_
  obtain ⟨volume, hvolume, rfl⟩ := List.mem_map.mp hmem
  exact hplain.volumes volume hvolume

/-- What it lists as mounted. -/
theorem mountedIn_wish (hplain : Plain h) :
    Volumes.mountedIn (wish h .listMounts).result.stdout = mountNames h := by
  refine (mountedIn_joinLines (plain_mountNames hplain)).trans ?_
  rw [mountNames, List.filter_filter]
  simp

/-- Where the names are plain, the volumes can be listed. -/
theorem oblige_listVolumes (hplain : Plain h) (hexec : oblige .listVolumes o h = some (r, h')) :
    h' = h ∧ r = (wish h .listVolumes).result := by
  refine (oblige_eq hexec ?_).symm
  rw [Host.truthful, oursIn_wish hplain]
  simp only [Bool.or_eq_true, Bool.and_eq_true, List.all_eq_true, List.any_eq_true,
    List.mem_filter, List.mem_map, decide_eq_true_eq, Bool.not_eq_true']
  right
  constructor
  · rintro _ ⟨⟨volume, hvolume, rfl⟩, -⟩
    exact ⟨volume, hvolume, rfl⟩
  · intro volume hvolume
    cases hvalid : validVolume volume.name with
    | false => exact Or.inl rfl
    | true => exact Or.inr ⟨⟨volume, hvolume, rfl⟩, rfl⟩

/-- And so can the mounts. -/
theorem oblige_listMounts (hplain : Plain h) (hexec : oblige .listMounts o h = some (r, h')) :
    h' = h ∧ r = (wish h .listMounts).result := by
  refine (oblige_eq hexec ?_).symm
  rw [Host.truthful, mountedIn_wish hplain]
  simp only [Bool.or_eq_true, Bool.and_eq_true, List.all_eq_true, decide_eq_true_eq,
    Bool.not_eq_true', mountNames, List.mem_filter, List.mem_flatMap, Host.mounted,
    List.any_eq_true]
  right
  constructor
  · rintro name ⟨⟨container, hcontainer, hname⟩, -⟩
    exact ⟨container, hcontainer, hname⟩
  · intro container hcontainer name hname
    cases hprefix : startsWith name volumePrefix with
    | false => exact Or.inl rfl
    | true => exact Or.inr ⟨⟨container, hcontainer, hname⟩, rfl⟩

end Oblige

/-! ## The cleanup on it -/

section Lost

variable {σ : Type} {setting : Setting} {spec : JobSpec} {volume : Str}

/-- No volume of the name is left. -/
def Gone (volume : Str) (h : Host) : Prop :=
  ∀ v ∈ h.volumes, v.name ≠ volume

theorem Gone.oblige {h h' : Host} {c : Command} {o : Outcome} {r : CommandResult}
    (hexec : oblige c o h = some (r, h')) (hgone : Gone volume h) : Gone volume h' :=
  fun v hv => hgone v ((oblige_subset hexec).2 hv)

/-- Once it is gone, it stays so. -/
theorem wp_gone {α : Type} (p : Program σ Command CommandResult α) {s : σ} {h : Host}
    (hgone : Gone volume h) :
    p.wp Containers.oblige (fun _ _ => True) (fun _ _ => Gone volume) s h :=
  Program.wp_mono (Program.wp_of_within (fun _ _ _ _ _ _ hexec hw => Gone.oblige hexec hw)
    (fun _ _ _ _ => trivial) p.within_true trivial hgone) fun _ _ _ hpost => hpost.2.2

/-- The names are plain, and no container mounts the volume but perhaps that of the job. -/
structure Unheld (name volume : Str) (h : Host) : Prop where
  plain : Plain h
  unheld : ∀ container ∈ h.containers, container.answersTo name = false → volume ∉ container.mounts

theorem Unheld.oblige {name : Str} {h h' : Host} {c : Command} {o : Outcome} {r : CommandResult}
    (hexec : Containers.oblige c o h = some (r, h')) (hw : Unheld name volume h) :
    Unheld name volume h' :=
  ⟨hw.plain.oblige hexec, fun container hmem =>
    hw.unheld container ((oblige_subset hexec).1 hmem)⟩

/-- No container mounts it. -/
structure Unmounted (volume : Str) (h : Host) : Prop where
  plain : Plain h
  unmounted : ∀ container ∈ h.containers, volume ∉ container.mounts

theorem Unmounted.oblige {h h' : Host} {c : Command} {o : Outcome} {r : CommandResult}
    (hexec : Containers.oblige c o h = some (r, h')) (hw : Unmounted volume h) :
    Unmounted volume h' :=
  ⟨hw.plain.oblige hexec, fun container hmem =>
    hw.unmounted container ((oblige_subset hexec).1 hmem)⟩

/-- A volume that is not mounted can be removed. -/
theorem oblige_removeVolume {h h' : Host} {o : Outcome} {r : CommandResult}
    (hexec : Containers.oblige (.removeVolume volume) o h = some (r, h'))
    (hw : Unmounted volume h) : Gone volume h' := by
  have hmounted : h.mounted volume = false := by
    simpa [Host.mounted] using hw.unmounted
  -- nothing mounts the volume, so its removal succeeds
  have hwish : wish h (.removeVolume volume) = succeeds [] := by
    rw [wish, hmounted]
    rfl
  have htrue : h.truthful (wish h (.removeVolume volume)) (.removeVolume volume) := by
    rw [Host.truthful, hmounted, Bool.and_false]
    rfl
  obtain ⟨-, rfl⟩ := oblige_eq hexec htrue
  intro v hv
  rw [hwish] at hv
  have hdrop : v ∈ (h.dropVolume volume).volumes := hv
  rw [Host.dropVolume, if_neg (by simp [hmounted])] at hdrop
  simpa using (List.mem_filter.mp hdrop).2

/-- `remove_stale_volumes` removes it. -/
theorem wp_removeStaleVolumes_gone (printable : Char → Bool) (hvalid : validVolume volume) {s : σ}
    {h : Host} (hw : Unmounted volume h) :
    (removeStaleVolumes printable).wp Containers.oblige (fun _ _ => True)
      (fun _ _ => Gone volume) s h := by
  by_cases hgone : Gone volume h
  · exact wp_gone _ hgone
  have hthere : volume ∈ h.volumes.map Volume.name := by
    simpa [Gone] using hgone
  simp only [removeStaleVolumes, Volumes.listOurs, Volumes.mountedVolumes, Program.wp_bind,
    Program.wp_send, Program.wp_pure]
  refine ⟨trivial, fun o r w hexec => ⟨trivial, fun o' r' w' hexec' => ?_⟩⟩
  obtain ⟨rfl, rfl⟩ := oblige_listVolumes hw.plain hexec
  obtain ⟨rfl, rfl⟩ := oblige_listMounts hw.plain hexec'
  have hlisted : (wish w' .listVolumes).result.ok = true ∧
      (wish w' .listMounts).result.ok = true := ⟨rfl, rfl⟩
  rw [if_pos hlisted.1, if_pos hlisted.2, oursIn_wish hw.plain, mountedIn_wish hw.plain]
  have hstale : volume ∈ ((w'.volumes.map Volume.name).filter validVolume).filter
      (· ∉ mountNames w') := by
    have hnot : volume ∉ mountNames w' := by
      simpa [mountNames] using fun container hmem hin =>
        absurd hin (hw.unmounted container hmem)
    exact List.mem_filter.mpr ⟨List.mem_filter.mpr ⟨hthere, hvalid⟩, by simpa using hnot⟩
  -- the volume is still to come, or it is gone
  refine Program.wp_mono (Program.wp_forEach
    (J := fun rest _ _ w => Unmounted volume w ∧ (volume ∈ rest ∨ Gone volume w))
    (fun name rest removed s w hinv => ?_) ⟨hw, Or.inl hstale⟩) fun _ _ _ hpost => ?_
  · rw [Program.wp_bind, Volumes.destroy]
    split_ifs with hname
    · refine ⟨hinv.1, hinv.2.imp_left fun hmem => ?_⟩
      rcases List.mem_cons.mp hmem with rfl | hmem
      · simp [hvalid] at hname
      · exact hmem
    · simp only [Program.wp_bind, Program.wp_send, Program.wp_pure]
      refine ⟨trivial, fun o r w' hexec => ⟨hinv.1.oblige hexec, ?_⟩⟩
      rcases hinv.2 with hmem | hgone
      · rcases List.mem_cons.mp hmem with rfl | hmem
        · exact Or.inr (oblige_removeVolume hexec hinv.1)
        · exact Or.inl hmem
      · exact Or.inr (Gone.oblige hexec hgone)
  · exact hpost.2.resolve_left List.not_mem_nil

/-- The step `cleanup` removes it, with the container of the job. -/
theorem wp_cleanup_gone (hvalid : validVolume volume) {t : Locals × Shared} {h : Host}
    (hw : Unheld t.1.spec.containerName volume h) :
    (Creating.cleanup setting).run.wp Containers.oblige (fun _ _ => True)
      (fun _ _ => Gone volume) t h := by
  rw [Creating.cleanup, Creating.wp_enter_bind, Creating.wp_locals_bind, Creating.wp_send_bind]
  refine ⟨trivial, fun o r w hexec => ?_⟩
  -- the container of the job is removed first, and nothing else holds the volume
  have hunmounted : Unmounted volume w := by
    refine ⟨hw.plain.oblige hexec, fun container hmem => ?_⟩
    obtain ⟨-, rfl⟩ := oblige_eq hexec rfl
    obtain ⟨hmem, hkept⟩ := List.mem_filter.mp hmem
    exact hw.unheld container hmem (by simpa using hkept)
  rw [Program.wp_run_bind]
  refine Creating.wp_await ?_
  rw [Raising.wp_await]
  refine Program.wp_mono (wp_removeStaleVolumes_gone _ hvalid hunmounted) fun _ _ _ hgone => ?_
  exact hgone

/-- The flag is not set. -/
theorem wp_checkpoint_passes {jobId : Str} {t : Locals × Shared} {h : Host}
    {Q : Except Stop Unit → Locals × Shared → Host → Prop} (hpass : Q (.ok ()) t h) :
    (Creating.checkpoint setting jobId).run.wp Containers.oblige (fun _ _ => True) Q t h := by
  rw [Creating.checkpoint]
  split_ifs
  · rw [Creating.wp_send_bind]
    refine ⟨trivial, fun o r w hexec => ?_⟩
    obtain ⟨rfl, rfl⟩ := oblige_eq hexec rfl
    exact hpass
  · exact hpass

/-- Ports are found, since no port is busy. -/
theorem wp_reservePorts_oblige (hports : Portable spec) (printable : Char → Bool) {s : σ}
    {h : Host} : (reservePorts printable spec).run.wp Containers.oblige (fun _ _ => True)
      (fun r s' w => (∃ ports, r = .ok (.ok ports)) ∧ s' = s ∧ w = h) s h := by
  rw [reservePorts]
  split_ifs with hgiven
  · exact ⟨⟨_, rfl⟩, rfl, rfl⟩
  -- no port is in use on such a host, so there is room
  · obtain ⟨low, high, hrange, hlow, hle, hhigh, hroom⟩ : ∃ low high,
        HasRoom spec.portRange [] low high spec.containerPorts.length := by
      simpa [Portable, not_or.mp hgiven] using hports
    rw [Program.wp_run_bind]
    refine wp_parseRange spec.portRange fun range hfound => ?_
    obtain rfl := (hfound low high).mpr ⟨hrange, hlow, hle, hhigh⟩
    rw [Program.handOn_ok, Program.wp_run_bind, usedPorts, Program.wp_run_bind, Raising.wp_send]
    refine ⟨trivial, fun o r w hexec => ?_⟩
    obtain ⟨rfl, rfl⟩ := oblige_eq hexec rfl
    have hbusy : busyIn (wish w .listPorts).result.stdout = some [] := rfl
    rw [Program.handOn_ok, wp_portsIn, ← busyIn, hbusy, Program.handOn_ok]
    have hassign : assignPorts [] high low spec.containerPorts =
        some (pairUp (freeFrom [] high low) spec.containerPorts) := by
      rw [assignPorts_eq, if_pos]
      rw [length_freeFrom]
      exact hroom
    rw [hassign]
    exact ⟨⟨_, rfl⟩, rfl, rfl⟩

/-- The steps before the cleanup go well. -/
theorem wp_prepare_oblige (hspec : ¬ Refused setting spec) {t : Locals × Shared} {h : Host}
    (ht : t.1.spec = spec) :
    (Creating.prepare setting).run.wp Containers.oblige (fun _ _ => True)
      (fun r t w => r = .ok () ∧ t.1.spec.containerName = spec.containerName ∧ w = h) t h := by
  obtain ⟨haccepted, hports⟩ := not_or.mp hspec
  have hproblem : Creating.firstProblem setting spec = none := by
    by_contra hsome
    exact haccepted (firstProblem_ne_none_iff.mp hsome)
  rw [Creating.prepare, Program.wp_run_bind, Creating.validate, Creating.wp_locals_bind, ht,
    hproblem]
  refine wp_checkpoint_passes ?_
  rw [Program.handOn_ok, Program.wp_run_bind, Creating.choosePorts, Creating.wp_enter_bind,
    Creating.wp_locals_bind, Program.wp_run_bind]
  refine Creating.wp_await ?_
  have hspec : ({ t.1 with step := "reserve ports".toList } : Locals).spec = spec := ht
  rw [hspec]
  refine Program.wp_mono (wp_reservePorts_oblige (not_not.mp hports) _) fun r t' w hpost => ?_
  obtain ⟨⟨ports, rfl⟩, rfl, rfl⟩ := hpost
  -- the ports are written to the specification, and the image is pulled
  simp only [Program.handOn_ok]
  rw [← Program.wp_run_bind, Creating.wp_assign_bind, Creating.pullImage, Creating.wp_enter_bind,
    Creating.wp_locals_bind, Creating.wp_send_bind]
  refine ⟨trivial, fun o r w' hexec => ?_⟩
  obtain ⟨rfl, rfl⟩ := oblige_eq hexec rfl
  refine wp_checkpoint_passes ⟨rfl, ?_, rfl⟩
  show t.1.spec.containerName = spec.containerName
  rw [ht]

/-- A creation loses the volume, unless another container mounts it. -/
theorem wp_create_gone (hspec : ¬ Refused setting spec) (hvalid : validVolume volume)
    {shared : Shared} {h : Host} (hw : Unheld spec.containerName volume h) :
    (create setting spec).run.wp Containers.oblige (fun _ _ => True)
      (fun _ _ => Gone volume) shared h := by
  -- the body reaches its cleanup, and what follows brings no volume back
  have hbody (h : Host) (hw : Unheld spec.containerName volume h) :
      (Creating.body setting).run.wp Containers.oblige (fun _ _ => True)
        (fun _ _ => Gone volume) ({ spec }, shared) h := by
    rw [Creating.body, Program.wp_run_bind]
    refine Program.wp_mono (wp_prepare_oblige hspec rfl) fun r t w hpost => ?_
    obtain ⟨rfl, hname, rfl⟩ := hpost
    rw [Program.handOn_ok, Program.wp_run_bind]
    rw [← hname] at hw
    refine Program.wp_mono (wp_cleanup_gone hvalid hw) fun r t w hgone => ?_
    cases r with
    | error e => exact hgone
    | ok _ => exact wp_gone _ hgone
  have hattempt (h : Host) (hw : Unheld spec.containerName volume h) :
      (attempt setting spec).run.wp Containers.oblige (fun _ _ => True)
        (fun _ _ => Gone volume) shared h := by
    rw [attempt, Program.wp_run_bind, Raising.wp_await, Program.wp_withVars]
    refine Program.wp_mono (hbody h hw) fun r t w hgone => ?_
    exact wp_gone _ hgone
  -- registering the creation changes nothing on the host
  rw [create, Program.wp_run_bind]
  refine Raising.wp_when (fun _ => ?_) fun _ => hattempt h hw
  rw [Raising.wp_tell]
  exact ⟨trivial, fun o r w hexec => hattempt w (hw.oblige hexec)⟩

/-- The name of a container is one that `destroy` accepts. -/
theorem containerNamePattern_of_jobId (h : jobIdPattern spec.jobId) :
    containerNamePattern spec.containerName := by
  -- the prefix of three characters fits into the longer bound
  have hword (jobId : Str) (hid : word isAlnum isNameChar 60 jobId) :
      word isAlnum isNameChar 80 (namePrefix ++ jobId) := by
    obtain ⟨c, cs, rfl, hc, hlength, hcs⟩ := word_iff.mp hid
    refine word_iff.mpr ⟨'m', 't' :: '-' :: c :: cs, rfl, by decide, ?_, ?_⟩
    · simp only [List.length_cons]
      omega
    · have hname : isNameChar c := by simp [isNameChar, hc]
      have hhead : isNameChar 't' ∧ isNameChar '-' := by decide
      simpa [hhead, hname] using hcs
  rw [jobIdPattern, matchesToEnd, Bool.or_eq_true, Bool.and_eq_true, decide_eq_true_eq] at h
  rw [containerNamePattern, matchesToEnd, Bool.or_eq_true, Bool.and_eq_true, decide_eq_true_eq,
    JobSpec.containerName]
  refine h.imp (hword spec.jobId) ?_
  -- `$` also matches before a line break at the end
  rintro ⟨hlast, hid⟩
  have hne : spec.jobId ≠ [] := by
    intro hnil
    rw [hnil] at hlast
    simp at hlast
  rw [List.getLast?_append_of_ne_nil _ hne, List.dropLast_append_of_ne_nil hne]
  exact ⟨hlast, hword _ hid⟩

/-- A job that is acceptable passed the checks. -/
theorem checked_of_acceptable (hspec : ¬ Unacceptable setting spec) :
    Checked spec setting.allowlist := by
  have hproblems : spec.problems setting.printer.printable setting.allowlist = [] := by
    by_contra hsome
    exact hspec (.inl hsome)
  exact problems_eq_nil_iff.mp hproblems

/-- `destroy` takes the container away, and a recreation goes on to lose the volume. -/
theorem wp_recreate_gone (hspec : ¬ Refused setting spec) (hvalid : validVolume volume)
    {shared : Shared} {h : Host} (hw : Unheld spec.containerName volume h) :
    (recreate setting spec).run.wp Containers.oblige (fun _ _ => True)
      (fun _ _ => Gone volume) shared h := by
  have hname : containerNamePattern spec.containerName :=
    containerNamePattern_of_jobId (checked_of_acceptable (not_or.mp hspec).1).jobId
  have hagain : ¬ Refused { setting with inflight := false } (forRecreation spec) :=
    fun hrefused => hspec (refused_forRecreation.mp hrefused)
  rw [recreate_eq, Program.wp_run_bind, destroy, if_neg (by simp [hname]), Program.wp_run_bind,
    Raising.wp_send]
  refine ⟨trivial, fun o stop w hstop => ?_⟩
  have hw₁ := hw.oblige hstop
  obtain ⟨rfl, -⟩ := oblige_eq hstop rfl
  have hstopped :
      (wish h (.stop (stopGrace spec) spec.containerName)).result.transportFailed = false := rfl
  rw [Program.handOn_ok, if_neg (by simp [hstopped]), Program.wp_run_bind, Raising.wp_send]
  refine ⟨trivial, fun o removed w' hremoved => ?_⟩
  have hw₂ := hw₁.oblige hremoved
  obtain ⟨rfl, -⟩ := oblige_eq hremoved rfl
  have hgone : goneAfter (wish w (.removeWithVolumes spec.containerName)).result := rfl
  rw [Program.handOn_ok, if_pos hgone, Program.wp_run_bind]
  -- what follows the removal raises nothing, and mounts nothing
  have hclear : (clearAway setting.printer.printable
      { grace := stopGrace spec, pruneImages := false }).run.wp Containers.oblige
        (fun _ _ => True) (fun r _ _ => r = .ok ()) shared w' :=
    wp_clearAway_returns setting.printer.printable rfl shared w'
  refine Program.wp_mono (Program.wp_and hclear (Program.wp_of_within
    (fun _ _ _ _ _ _ hexec hw => Unheld.oblige hexec hw) (fun _ _ _ _ => trivial)
    (Program.within_true _) trivial hw₂)) fun r shared w hpost => ?_
  obtain ⟨rfl, -, -, hw₃⟩ := hpost
  exact wp_create_gone hagain hvalid hw₃

/-- What some run of a coroutine loses is not kept. -/
theorem not_kept_of_gone {α : Type} {p : Raising Shared α} {meant : Str → Prop} {shared : Shared}
    {h : Host} {lost : Volume} (hmem : lost ∈ h.volumes) (hmeant : meant lost.name)
    (hgone : p.run.wp Containers.oblige (fun _ _ => True) (fun _ _ => Gone lost.name) shared h) :
    ¬ Kept p meant shared h := by
  intro hkept
  have hstays : p.run.wp Host.exec (fun _ _ => True) (fun _ _ w => lost ∈ w.volumes) shared h :=
    Program.wp_of_run fun os r shared' h' hrun => hkept os r shared' h' hrun lost hmem hmeant
  have hboth := Program.wp_and hgone
    (Program.wp_exec_mono (fun c o w next hexec => exec_of_oblige hexec) hstays)
  obtain ⟨_, _, w, hw, hin⟩ := Program.exists_of_wp oblige_total hboth
  exact hw lost hin rfl

end Lost

/-! ## The condition -/

/-- If a run in which everything succeeds keeps the volumes, the condition holds. -/
theorem recreationSpares_of_kept {setting : Setting} {spec : JobSpec} {shared : Shared} {h : Host}
    (hplain : Plain h)
    (hkept : Kept (recreate setting spec) (· ∈ spec.volumes.map VolumeSpec.name) shared h) :
    RecreationSpares setting spec h := by
  by_cases hrefused : Refused setting spec
  · exact .inl hrefused
  refine .inr fun volume hmem hname => ?_
  by_contra hnone
  refine not_kept_of_gone hmem hname (wp_recreate_gone hrefused ?_ ⟨hplain, ?_⟩) hkept
  · obtain ⟨wanted, hwanted, hname⟩ := List.mem_map.mp hname
    rw [← hname]
    exact (checked_of_acceptable (not_or.mp hrefused).1).volumeNames wanted hwanted
  · exact fun container hcontainer hother hmounts =>
      hnone ⟨container, hcontainer, hother, hmounts⟩

/-- Likewise for a creation. -/
theorem creationSpares_of_kept {setting : Setting} {spec : JobSpec} {shared : Shared} {h : Host}
    (hplain : Plain h) (hnames : ∀ name, givenNames spec name → ¬ freshNames spec name)
    (hkept : Kept (create setting spec) (givenNames spec) shared h) :
    CreationSpares setting spec h := by
  by_cases hrefused : Refused setting spec
  · exact .inl hrefused
  refine .inr fun volume hmem hgiven => ?_
  by_contra hnone
  refine not_kept_of_gone hmem hgiven (wp_create_gone hrefused ?_ ⟨hplain, ?_⟩) hkept
  · obtain ⟨wanted, hwanted, -, hname⟩ := hgiven
    rw [← hname]
    exact (checked_of_acceptable (not_or.mp hrefused).1).volumeNames wanted hwanted
  · exact fun container hcontainer hother hmounts =>
      hnone ⟨container, hcontainer, hother, hmounts, fun _ => hnames _ hgiven⟩

/-- **When a recreation keeps the volumes.** For every specification and every rig, no run of
`recreate` costs a volume of the specification, and none of `create` a volume that it is to use as
it is, if the specification is refused before the cleanup or each of these volumes is mounted by a
container of another name. On a rig with names that can be listed the condition is exact: for
`recreate` always, for `create` if no volume is both to be made and to be used. -/
theorem volumes_kept_iff (setting : Setting) (spec : JobSpec) (shared : Shared) (h : Host) :
    (RecreationSpares setting spec h →
      Kept (recreate setting spec) (· ∈ spec.volumes.map VolumeSpec.name) shared h) ∧
    (CreationSpares setting spec h → Kept (create setting spec) (givenNames spec) shared h) ∧
    (Plain h →
      (Kept (recreate setting spec) (· ∈ spec.volumes.map VolumeSpec.name) shared h →
        RecreationSpares setting spec h) ∧
      ((∀ name, givenNames spec name → ¬ freshNames spec name) →
        Kept (create setting spec) (givenNames spec) shared h → CreationSpares setting spec h)) :=
  ⟨fun hspares => hspares.kept shared, fun hspares => hspares.kept shared, fun hplain =>
    ⟨recreationSpares_of_kept hplain, creationSpares_of_kept hplain⟩⟩

/-- A job with a volume. -/
def volumeJob : JobSpec :=
  { sampleJob with
    volumes := [⟨"mt-vol-a".toList, "/data".toList, .fin 1, [], false, false, true⟩] }

/-- A rig on which it runs, and on which another job may use the same volume. -/
def volumeHost (shared : Bool) : Host where
  containers :=
    { id := "c1".toList, name := volumeJob.containerName, job := volumeJob.jobId
      mounts := ["mt-vol-a".toList] } ::
    if shared then [{ id := "c2".toList, name := "mt-j2".toList, mounts := ["mt-vol-a".toList] }]
    else []
  volumes := [⟨"mt-vol-a".toList, 0⟩]
  fresh := 1

/-- The volume that both jobs use is kept. -/
theorem volumes_kept_iff_shared :
    RecreationSpares sampleSetting volumeJob (volumeHost true) ∧
      Kept (recreate sampleSetting volumeJob) (· ∈ volumeJob.volumes.map VolumeSpec.name) {}
        (volumeHost true) := by
  have hspares : RecreationSpares sampleSetting volumeJob (volumeHost true) := by
    refine .inr fun volume hmem _ => ?_
    obtain rfl := List.mem_singleton.mp hmem
    exact ⟨_, List.mem_cons_of_mem _ List.mem_cons_self, by decide, by decide⟩
  exact ⟨hspares, (volumes_kept_iff _ _ _ _).1 hspares⟩

/-- The volume of a job that is alone with it is removed when its container is recreated. -/
theorem recreation_costs_volume : ¬ ∀ (setting : Setting) (spec : JobSpec) (shared : Shared)
    (h : Host), Kept (recreate setting spec) (· ∈ spec.volumes.map VolumeSpec.name) shared h := by
  intro hall
  -- the container is gone when the listings are made, and the probe for devices times out
  have hlost : ((recreate sampleSetting volumeJob).run.run Host.exec
      [succeeds [], succeeds [], timesOut false, timesOut false, succeeds [], succeeds [],
        succeeds "mt-vol-a\n".toList, succeeds [], succeeds [], timesOut false] {}
      (volumeHost false)).any (fun ended => ended.2.2.volumes = []) = true := by decide +kernel
  obtain ⟨⟨r, shared', h'⟩, hrun, hnone⟩ := (Option.any_eq_true _ _).mp hlost
  have hstays := hall sampleSetting volumeJob {} (volumeHost false) _ r shared' h' hrun
    ⟨"mt-vol-a".toList, 0⟩ List.mem_cons_self List.mem_cons_self
  rw [of_decide_eq_true hnone] at hstays
  exact List.not_mem_nil hstays

end Containers

end ComputePool.Validator
