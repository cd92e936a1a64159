import ComputePool.Validator.Work.Containers

/-!
# What the coroutines send

For each coroutine that `create` and `destroy` wait for, the commands it may send, whatever it is
answered. Most of them send quiet commands only; the others remove volumes, or set power limits.
None of them writes to the variables of its caller, so every predicate of the state is kept.
-/

namespace ComputePool.Validator

open Text Numeral

variable {σ : Type} {S : Command → Prop} {J : σ → Prop}

/-! ## Wedged cards -/

namespace GpuWedge

variable (quiet : ∀ c : Command, c.quiet → S c)
include quiet

/-- Looking for wedged cards is quiet. -/
theorem within_queryWedged : (queryWedged : Task σ (List Str × Str)).within S J fun _ => True := by
  have happs : S .queryApps := quiet _ rfl
  have hwedge : S .queryWedge := quiet _ rfl
  simp only [queryWedged, Program.within_bind, Program.within_send, Program.within_ite,
    Program.within_pure]
  exact ⟨happs, fun _ => ⟨hwedge, fun _ => by simp⟩⟩

/-- So is looking twice. -/
theorem within_wedgedGpus : (wedgedGpus : Task σ (List Str × Str)).within S J fun _ => True := by
  have hsleep : S .sleep := quiet _ rfl
  simp only [wedgedGpus, Program.within_bind]
  refine Program.within_mono (within_queryWedged quiet) fun first _ => ?_
  by_cases hfirst : first.2 ≠ [] || first.1 = []
  · rw [if_pos hfirst]
    trivial
  · simp only [if_neg hfirst, Program.within_bind, Program.within_send]
    refine ⟨hsleep, fun _ => ?_⟩
    exact Program.within_mono (within_queryWedged quiet) fun second _ => by split_ifs <;> trivial

/-- Curing a card is quiet. -/
theorem within_sweep : (sweep : Task σ SweepResult).within S J fun _ => True := by
  have hcure (uuid : Str) : S (.cure uuid) := quiet _ rfl
  simp only [sweep, Program.within_bind]
  refine Program.within_mono (within_wedgedGpus quiet) fun wedged _ => ?_
  split_ifs
  · trivial
  · trivial
  · rw [Program.within_bind]
    refine Program.within_mono (Program.within_forEach (fun uuid _ _ => ?_) ()) fun _ _ => ?_
    · exact ⟨hcure uuid, fun _ => trivial⟩
    · rw [Program.within_bind]
      exact Program.within_mono (within_queryWedged quiet) fun _ _ => trivial

end GpuWedge

/-! ## Volumes -/

namespace Volumes

/-- A name that is not valid is refused before anything is sent. -/
theorem within_destroy (printable : Char → Bool) {name : Str}
    (hvolume : validVolume name → S (.removeVolume name)) :
    (destroy printable name : Task σ (Bool × Str)).within S J fun _ => True := by
  rw [destroy, Program.within_ite]
  by_cases hname : !validVolume name
  · rw [if_pos hname]
    trivial
  · rw [if_neg hname]
    exact ⟨hvolume (by simpa using hname), fun _ => trivial⟩

/-- The one volume is created. -/
theorem within_create (printable : Char → Bool) {volume : VolumeSpec}
    (hvolume : S (.createVolume volume)) :
    (create printable volume : Raising σ (Bool × Str)).run.within S J fun _ => True := by
  rw [create]
  cases volume.problems printable with
  | cons problem problems => trivial
  | nil =>
    have hsize : (checkSize volume.sizeGb : Raising σ Unit).run.within S J fun _ => True := by
      cases volume.sizeGb with
      | fin q => trivial
      | inf negative => cases negative <;> trivial
      | nan => trivial
    exact Program.within_run_seq hsize fun _ => ⟨hvolume, fun _ => trivial⟩

theorem within_listOurs (hlist : S .listVolumes) :
    (listOurs : Task σ (List Str)).within S J fun _ => True :=
  ⟨hlist, fun _ => trivial⟩

theorem within_mountedVolumes (hlist : S .listMounts) :
    (mountedVolumes : Task σ (Option (List Str))).within S J fun _ => True :=
  ⟨hlist, fun _ => trivial⟩

variable (quiet : ∀ c : Command, c.quiet → S c)
include quiet

/-- Setting up encryption takes place inside the container. -/
theorem within_setupEncrypted (container : Str) (volume : VolumeSpec) (fresh : Bool) :
    (setupEncrypted container volume fresh : Raising σ (Bool × Str)).run.within S J
      fun _ => True := by
  have hnames : (requireNames volume : Raising σ Unit).run.within S J fun _ => True := by
    rw [requireNames]
    split_ifs
    · trivial
    · trivial
  -- the script is delivered and run, and the mount looked up, all with `docker exec`
  refine Program.within_run_seq hnames fun _ => ?_
  refine Program.within_run_seq ⟨quiet _ rfl, fun _ => trivial⟩ fun written => ?_
  split_ifs
  · trivial
  refine Program.within_run_seq ⟨quiet _ rfl, fun _ => trivial⟩ fun ran => ?_
  split_ifs
  · trivial
  · trivial
  · exact Program.within_run_seq ⟨quiet _ rfl, fun _ => trivial⟩ fun _ => trivial

/-- A command inside the container. -/
theorem within_grantWorkspace (container path user : Str) :
    (grantWorkspace container path user : Raising σ Bool).run.within S J fun _ => True := by
  rw [grantWorkspace]
  split_ifs
  · trivial
  · trivial
  · exact Program.within_run_seq ⟨quiet _ rfl, fun _ => trivial⟩ fun _ => trivial

end Volumes

/-! ## Power limits -/

section Power

variable (quiet : ∀ c : Command, c.quiet → S c) (power : ∀ uuid watts, S (.setPower uuid watts))

include quiet in
theorem within_readState (uuid : Str) :
    (readState uuid : Task σ (Option PowerState)).within S J fun _ => True :=
  ⟨quiet _ rfl, fun _ => trivial⟩

include quiet power

/-- The limit of one card. -/
theorem within_setLimit (uuid : Str) (watts : PyFloat) :
    (setLimit uuid watts : Raising σ (Option PowerState)).run.within S J fun _ => True := by
  have hwhole : (wholeWatts watts : Raising σ ℤ).run.within S J fun _ => True := by
    cases watts with
    | fin q => trivial
    | inf negative => trivial
    | nan => trivial
  refine Program.within_run_seq ⟨quiet _ rfl, fun _ => trivial⟩ fun _ => ?_
  refine Program.within_run_seq hwhole fun whole => ?_
  refine Program.within_run_seq ⟨power _ _, fun _ => trivial⟩ fun result => ?_
  split_ifs
  · trivial
  · have hread := within_readState quiet uuid (σ := σ) (J := J)
    refine Program.within_run_seq ((Raising.within_await _ _).mpr hread) fun state => ?_
    cases state with
    | none => trivial
    | some state => trivial

/-- The limits of the cards, each read before it is set. -/
theorem within_restoreCards (jobId : Str) (uuids restored : List Str) :
    (restoreCards jobId uuids restored).run.within S (fun _ => True) fun _ => True := by
  induction uuids generalizing restored with
  | nil => trivial
  | cons uuid uuids ih =>
    refine Program.within_run_seq (fun _ _ => trivial) fun records => ?_
    have hforget : (Raising.modify (·.forget uuid jobId) : Raising PowerRecords Unit).run.within S
        (fun _ => True) fun _ => True := fun _ _ => ⟨trivial, trivial⟩
    cases records.original uuid with
    | none => exact Program.within_run_seq hforget fun _ => ih restored
    | some original =>
      refine Program.within_run_seq (within_setLimit quiet power uuid original) fun state => ?_
      cases state with
      | none => exact ih restored
      | some state => exact Program.within_run_seq hforget fun _ => ih (restored ++ [uuid])

theorem within_restoreJob (jobId : Str) :
    (restoreJob jobId).run.within S (fun _ => True) fun _ => True :=
  Program.within_run_seq (fun _ _ => trivial) fun records =>
    within_restoreCards quiet power jobId (records.cardsOf jobId) []

/-- The limits of the cards, each recorded before it is set. -/
theorem within_applyCaps (jobId : Str) (caps : List (Str × PyFloat)) :
    (applyCards jobId caps).run.within S (fun _ => True) fun _ => True := by
  induction caps with
  | nil => trivial
  | cons cap caps ih =>
    obtain ⟨uuid, requested⟩ := cap
    have hrestore := within_restoreJob quiet power jobId
    have hread := within_readState quiet uuid (σ := PowerRecords) (J := fun _ => True)
    refine Program.within_run_seq ((Raising.within_await _ _).mpr hread) fun state => ?_
    cases state with
    -- a card that does not answer puts back the caps set so far
    | none => exact Program.within_run_seq hrestore fun _ => trivial
    | some state =>
      refine Program.within_run_seq (fun _ _ => ⟨trivial, trivial⟩) fun _ => ?_
      refine Program.within_run_seq (within_setLimit quiet power uuid _) fun after => ?_
      cases after with
      | none => exact Program.within_run_seq hrestore fun _ => trivial
      | some after => exact ih

end Power

/-! ## Containers -/

namespace Containers

/-- Nothing is sent to read a number. -/
theorem within_intOrRaise (text : Str) :
    (intOrRaise text : Raising σ ℤ).run.within S J fun _ => True := by
  rw [intOrRaise]
  cases intOf text with
  | none => trivial
  | some n => trivial

/-- Nor to read a range. -/
theorem within_parseRange (text : Str) :
    (parseRange text : Raising σ (Option (ℤ × ℤ))).run.within S J fun _ => True := by
  rw [parseRange]
  split
  · rename_i low high _
    split_ifs
    · trivial
    · refine Program.within_run_seq (within_intOrRaise low) fun _ => ?_
      exact Program.within_run_seq (within_intOrRaise high) fun _ => trivial
  · trivial

/-- Nor to read the ports. -/
theorem within_portsIn (tokens : List Str) :
    (portsIn tokens : Raising σ (List ℤ)).run.within S J fun _ => True := by
  induction tokens with
  | nil => trivial
  | cons token tokens ih =>
    rw [portsIn]
    cases portDigits token with
    | none => exact ih
    | some digits =>
      refine Program.within_run_seq (within_intOrRaise digits) fun _ => ?_
      exact Program.within_run_seq ih fun _ => trivial

/-- Nor to read the minors. -/
theorem within_minorsIn (lines : List Str) (minors : Dict Str ℤ) :
    (minorsIn lines minors : Raising σ (Dict Str ℤ)).run.within S J fun _ => True := by
  induction lines generalizing minors with
  | nil => trivial
  | cons line lines ih =>
    rw [minorsIn]
    cases minorLine line with
    | none => exact ih minors
    | some found =>
      exact Program.within_run_seq (within_intOrRaise found.2) fun minor => ih _

/-- Nor to read the state. -/
theorem within_stateIn (loads : Str → Except Exn Json) (stdout : Str) :
    (stateIn loads stdout : Raising σ (Option (Dict Str Json))).run.within S J fun _ => True := by
  rw [stateIn]
  split
  · trivial
  · split
    · trivial
    · trivial
    · trivial
    · trivial

/-- Nor to check the command. -/
theorem within_checkCommand (spec : JobSpec) :
    (checkCommand spec : Raising σ Unit).run.within S J fun _ => True := by
  unfold checkCommand
  dsimp only
  split_ifs
  · trivial
  · trivial
  · trivial

section

variable (quiet : ∀ c : Command, c.quiet → S c)
include quiet

/-- The ports in use are asked for. -/
theorem within_reservePorts (printable : Char → Bool) (spec : JobSpec) :
    (reservePorts printable spec : Raising σ (Except Str (List PortMapping))).run.within S J
      fun _ => True := by
  rw [reservePorts]
  split_ifs
  · trivial
  · refine Program.within_run_seq (within_parseRange spec.portRange) fun range => ?_
    cases range with
    | none => trivial
    | some range =>
      have hused : (usedPorts : Raising σ (List ℤ)).run.within S J fun _ => True :=
        Program.within_run_seq ⟨quiet _ rfl, fun _ => trivial⟩ fun _ => within_portsIn _
      refine Program.within_run_seq hused fun busy => ?_
      split
      · trivial
      · trivial

/-- The devices are asked for. -/
theorem within_deviceNodes (uuids : List Str) (wholeNode : Bool) :
    (deviceNodes uuids wholeNode : Raising σ (Except Str (List Str))).run.within S J
      fun _ => True := by
  refine Program.within_run_seq ⟨quiet _ rfl, fun _ => trivial⟩ fun result => ?_
  by_cases hfailed : result.transportFailed
  · rw [if_pos hfailed]
    trivial
  · rw [if_neg hfailed]
    have hparse : (parseDeviceProbe result.stdout :
        Raising σ (Dict Str Str × Dict Str ℤ × List Str)).run.within S J fun _ => True :=
      Program.within_run_seq (within_minorsIn _ _) fun _ => trivial
    exact Program.within_run_seq hparse fun _ => trivial

/-- The state is asked for. -/
theorem within_stateOf (loads : Str → Except Exn Json) (name : Str) :
    (stateOf loads name : Raising σ (Option (Dict Str Json))).run.within S J fun _ => True := by
  refine Program.within_run_seq ⟨quiet _ rfl, fun _ => trivial⟩ fun result => ?_
  split_ifs
  · trivial
  · exact within_stateIn loads result.stdout

theorem within_diagnostics (loads : Str → Except Exn Json) (name : Str) :
    (diagnostics loads name : Raising σ (Dict Str Json)).run.within S J fun _ => True := by
  refine Program.within_run_seq (within_stateOf quiet loads name) fun _ => ?_
  exact Program.within_run_seq ⟨quiet _ rfl, fun _ => trivial⟩ fun _ => trivial

/-- Polling the state, by induction on the polls. -/
theorem within_waitRunning (setting : Setting) (name : Str) (polls : ℕ) (last : Str) :
    (waitRunning setting name polls last : Raising σ (Bool × Str)).run.within S J
      fun _ => True := by
  induction polls generalizing last with
  | zero => trivial
  | succ polls ih =>
    have hsleep : (Raising.send .sleep : Raising σ CommandResult).run.within S J fun _ => True :=
      ⟨quiet _ rfl, fun _ => trivial⟩
    refine Program.within_run_seq (within_stateOf quiet setting.loads name) fun state => ?_
    cases state with
    | none => exact Program.within_run_seq hsleep fun _ => ih last
    | some state =>
      dsimp only
      split_ifs
      · trivial
      · trivial
      · exact Program.within_run_seq hsleep fun _ => ih _

end

/-- What is removed bears a valid name; what is listed is known from two listings. -/
theorem within_removeStaleVolumes (lists : ∀ c : Command, c.lists → S c)
    (volumes : ∀ name, validVolume name → S (.removeVolume name)) (printable : Char → Bool) :
    (removeStaleVolumes printable : Task σ (List Str)).within S J fun _ => True := by
  simp only [removeStaleVolumes, Program.within_bind]
  refine Program.within_mono (Volumes.within_listOurs (lists _ rfl)) fun ours _ => ?_
  refine Program.within_mono (Volumes.within_mountedVolumes (lists _ rfl)) fun mounted _ => ?_
  cases mounted with
  | none => trivial
  | some mounted =>
    refine Program.within_forEach (fun name _ removed => ?_) []
    rw [Program.within_bind]
    exact Program.within_mono (Volumes.within_destroy printable (volumes name)) fun _ _ => trivial

section

variable (quiet : ∀ c : Command, c.quiet → S c) {spec : JobSpec} (hrun : S (.dockerRun spec))
  (hremove : S (.removeContainer spec.containerName))

include hrun in
/-- One `docker run`, and what follows when a device is busy. -/
theorem within_runOnce {busy : CommandResult → Task σ (Bool × Str)}
    (hbusy : ∀ result, (busy result).within S J fun _ => True) :
    (runOnce spec busy).within S J fun _ => True := by
  simp only [runOnce, Program.within_bind, Program.within_send]
  refine ⟨hrun, fun result => ?_⟩
  split_ifs
  · trivial
  · trivial
  · exact hbusy result
  · trivial

include quiet hrun hremove

/-- A run that finds a device busy is tried again. -/
theorem within_runLoop (retries : ℕ) :
    (runLoop spec retries : Task σ (Bool × Str)).within S J fun _ => True := by
  induction retries with
  | zero => exact within_runOnce hrun fun _ => trivial
  | succ retries ih =>
    refine within_runOnce hrun fun _ => ?_
    simp only [Program.within_bind, Program.within_send]
    exact ⟨hremove, fun _ => ⟨quiet _ rfl, fun _ => ih⟩⟩

theorem within_dockerRun (setting : Setting) :
    (dockerRun setting spec : Raising σ (Bool × Str)).run.within S J fun _ => True := by
  refine Program.within_run_seq (within_checkCommand spec) fun _ => ?_
  exact (Raising.within_await _ _).mpr (within_runLoop quiet hrun hremove setting.retries)

end

/-! ## The steps of `create` -/

/-- A predicate that the steps of `create` keep which only look at the rig, or choose ports and
device nodes. -/
structure Steady (J : Locals × Shared → Prop) : Prop where
  step : ∀ v shared step, J (v, shared) → J ({ v with step }, shared)
  ports : ∀ v shared ports, J (v, shared) → J ({ v with spec := { v.spec with ports } }, shared)
  devices : ∀ v shared devices,
    J (v, shared) → J ({ v with spec := { v.spec with devices } }, shared)
  records : ∀ v shared records, J (v, shared) → J (v, { shared with records })

namespace Creating

variable {J : Locals × Shared → Prop} {α : Type}

/-- A coroutine that is awaited sends what it sends by itself. -/
theorem within_await {p : Raising (Locals × Shared) α} (h : p.run.within S J fun _ => True) :
    (await p).run.within S J fun _ => True := by
  refine (Program.within_bind _ _ _).mpr (Program.within_mono h fun r _ => ?_)
  cases r with
  | ok a => trivial
  | error e => trivial

theorem within_send {c : Command} (hc : S c) : (send c).run.within S J fun _ => True :=
  within_await ⟨hc, fun _ => trivial⟩

/-- What is done with the variables knows that `J` holds of them. -/
theorem within_locals {f : Locals → Creating α}
    (h : ∀ v shared, J (v, shared) → (f v).run.within S J fun _ => True) :
    (locals >>= f).run.within S J fun _ => True :=
  fun t hJ => h t.1 t.2 hJ

theorem within_assign {f : Locals → Locals} (h : ∀ v shared, J (v, shared) → J (f v, shared)) :
    (assign f).run.within S J fun _ => True :=
  fun t hJ => ⟨h t.1 t.2 hJ, trivial⟩

theorem within_failWith (reason container : Str) (diagnostics : Dict Str Json) :
    (failWith reason container diagnostics : Creating α).run.within S J fun _ => True :=
  fun _ _ => trivial

theorem within_fail (reason : Str) : (fail reason : Creating α).run.within S J fun _ => True :=
  within_failWith reason [] []

/-- A checkpoint looks at the flag of its own job. -/
theorem within_checkpoint (setting : Setting) {jobId : Str} (hflight : S (.checkFlight jobId)) :
    (checkpoint setting jobId).run.within S J fun _ => True := by
  rw [checkpoint]
  split_ifs
  · refine Program.within_run_seq (within_send hflight) fun flag => ?_
    split_ifs
    · trivial
    · trivial
  · trivial

variable (quiet : ∀ c : Command, c.quiet → S c) (steady : Steady J)

include steady in
theorem within_enter (step : String) : (enter step).run.within S J fun _ => True :=
  within_assign fun v shared h => steady.step v shared step.toList h

include quiet steady

/-- Before anything is made, the flag is looked at. -/
theorem within_prepare (setting : Setting)
    (hflight : ∀ t, J t → S (.checkFlight t.1.spec.jobId)) :
    (prepare setting).run.within S J fun _ => True := by
  have hvalidate : (validate setting).run.within S J fun _ => True := by
    refine within_locals fun v shared hJ => ?_
    cases firstProblem setting v.spec with
    | some problem => exact within_fail problem
    | none => exact within_checkpoint setting (hflight (v, shared) hJ)
  have hports : (choosePorts setting).run.within S J fun _ => True := by
    refine Program.within_run_seq (within_enter steady _) fun _ => ?_
    refine within_locals fun v shared hJ => ?_
    refine Program.within_run_seq (within_await (within_reservePorts quiet _ _)) fun found => ?_
    cases found with
    | error reason => exact within_fail reason
    | ok ports => exact within_assign fun v shared h => steady.ports v shared ports h
  have hpull : (pullImage setting).run.within S J fun _ => True := by
    refine Program.within_run_seq (within_enter steady _) fun _ => ?_
    refine within_locals fun v shared hJ => ?_
    refine Program.within_run_seq (within_send (quiet _ rfl)) fun pull => ?_
    by_cases hok : pull.ok
    · rw [if_pos hok]
      exact within_checkpoint setting (hflight (v, shared) hJ)
    · rw [if_neg hok]
      exact within_fail _
  -- the three phases, each with its own checkpoint
  exact Program.within_run_seq hvalidate fun _ => Program.within_run_seq hports fun _ => hpull

omit quiet in
/-- The old container of the name goes, and the volumes nobody mounts. -/
theorem within_cleanup (setting : Setting) (lists : ∀ c : Command, c.lists → S c)
    (hremove : ∀ t, J t → S (.removeContainer t.1.spec.containerName))
    (hvolumes : ∀ name, validVolume name → S (.removeVolume name)) :
    (cleanup setting).run.within S J fun _ => True := by
  refine Program.within_run_seq (within_enter steady _) fun _ => ?_
  refine within_locals fun v shared hJ => ?_
  refine Program.within_run_seq (within_send (hremove _ hJ)) fun _ => ?_
  refine Program.within_run_seq (within_await ?_) fun _ => trivial
  exact (Raising.within_await _ _).mpr (within_removeStaleVolumes lists hvolumes _)

omit quiet steady in
/-- The volumes are created one by one, and each is noted when it is. -/
theorem within_makeVolumes (setting : Setting) {volumes : List VolumeSpec}
    (hcreate : ∀ volume ∈ volumes, S (.createVolume volume))
    (hcreated : ∀ volume ∈ volumes, ∀ v shared, J (v, shared) →
      J ({ v with createdVolumes := v.createdVolumes ++ [volume.name] }, shared)) :
    (makeVolumes setting volumes).run.within S J fun _ => True := by
  induction volumes with
  | nil => trivial
  | cons volume volumes ih =>
    have hvolume := hcreate volume List.mem_cons_self
    refine Program.within_run_seq (within_await (Volumes.within_create _ hvolume)) fun made => ?_
    by_cases hok : made.1
    · simp only [if_pos hok]
      refine Program.within_run_seq (within_assign (hcreated volume List.mem_cons_self))
        fun _ => ?_
      exact ih (fun volume' hmem => hcreate volume' (List.mem_cons_of_mem _ hmem))
        fun volume' hmem => hcreated volume' (List.mem_cons_of_mem _ hmem)
    -- a volume that was refused is not recorded
    · simp only [if_neg hok]
      exact within_fail _

/-- Resolving the devices is quiet. -/
theorem within_resolveDevices : resolveDevices.run.within S J fun _ => True := by
  refine Program.within_run_seq (within_enter steady _) fun _ => ?_
  refine within_locals fun v shared hJ => ?_
  refine Program.within_run_seq (within_await (within_deviceNodes quiet _ _)) fun found => ?_
  cases found with
  | error reason => exact within_fail reason
  | ok devices => exact within_assign fun v shared h => steady.devices v shared devices h

/-- The caps are noted before they are applied. -/
theorem within_capPower (setting : Setting) (power : ∀ uuid watts, S (.setPower uuid watts))
    (hcapped : ∀ v shared, J (v, shared) → J ({ v with capped := true }, shared)) :
    (capPower setting).run.within S J fun _ => True := by
  refine Program.within_run_seq (within_enter steady _) fun _ => ?_
  refine within_locals fun v shared hJ => ?_
  split_ifs
  · trivial
  · exact within_fail _
  · have hcaps := within_applyCaps quiet power v.spec.jobId v.spec.powerCaps
    -- the caps work on the records alone
    refine Program.within_run_seq (within_await ?_) fun applied => ?_
    · exact Program.within_zoom (fun t records h => steady.records t.1 t.2 records h) hcaps
    · by_cases hok : applied.1
      · simp only [if_pos hok]
        exact within_assign hcapped
      · simp only [if_neg hok]
        exact within_fail _

/-- Volumes and caps. -/
theorem within_provision (setting : Setting)
    (hcreate : ∀ t, J t → ∀ volume ∈ t.1.spec.volumes, volume.create → S (.createVolume volume))
    (power : ∀ uuid watts, S (.setPower uuid watts))
    (hcreated : ∀ t, J t → ∀ volume ∈ t.1.spec.volumes, volume.create → ∀ v shared, J (v, shared) →
      J ({ v with createdVolumes := v.createdVolumes ++ [volume.name] }, shared))
    (hcapped : ∀ v shared, J (v, shared) → J ({ v with capped := true }, shared)) :
    (provision setting).run.within S J fun _ => True := by
  refine Program.within_run_seq (within_enter steady _) fun _ => ?_
  refine within_locals fun v shared hJ => ?_
  refine Program.within_run_seq (within_makeVolumes setting (fun volume hmem => ?_)
    fun volume hmem => ?_) fun _ => ?_
  -- only the volumes to be created reach the loop
  · obtain ⟨hmem, hflag⟩ := List.mem_filter.mp hmem
    exact hcreate (v, shared) hJ volume hmem hflag
  · obtain ⟨hmem, hflag⟩ := List.mem_filter.mp hmem
    exact hcreated (v, shared) hJ volume hmem hflag
  · exact Program.within_run_seq (within_resolveDevices quiet steady) fun _ =>
      within_capPower quiet steady setting power hcapped

/-- Waiting for the container is quiet. -/
theorem within_awaitRunning (setting : Setting) :
    (awaitRunning setting).run.within S J fun _ => True := by
  refine Program.within_run_seq (within_enter steady _) fun _ => ?_
  refine within_locals fun v shared hJ => ?_
  refine Program.within_run_seq (within_await (within_waitRunning quiet setting _ _ _))
    fun running => ?_
  by_cases hok : running.1
  · simp only [if_pos hok]
    trivial
  · simp only [if_neg hok]
    refine Program.within_run_seq (within_await (within_diagnostics quiet _ _)) fun _ => ?_
    exact within_failWith _ _ _

omit steady in
/-- So is mounting the volumes inside it. -/
theorem within_mountEncrypted (setting : Setting) (volumes : List VolumeSpec) :
    (mountEncrypted setting volumes).run.within S J fun _ => True := by
  induction volumes with
  | nil => trivial
  | cons volume volumes ih =>
    refine within_locals fun v shared hJ => ?_
    refine Program.within_run_seq (within_await (Volumes.within_setupEncrypted quiet _ _ _))
      fun mounted => ?_
    by_cases hok : !mounted.1
    -- a mount that fails reads the logs of the container before it gives up
    · simp only [if_pos hok]
      refine Program.within_run_seq (within_await (within_diagnostics quiet _ _)) fun _ => ?_
      exact within_failWith _ _ _
    · simp only [if_neg hok]
      split_ifs
      · exact ih
      · exact Program.within_run_seq (within_await (Volumes.within_grantWorkspace quiet _ _ _))
          fun _ => ih

/-- The probes go first, then the container is run. -/
theorem within_launch (setting : Setting) (hprobes : S .removeProbes)
    (hflight : ∀ t, J t → S (.checkFlight t.1.spec.jobId))
    (hrun : ∀ t, J t → S (.dockerRun t.1.spec))
    (hremove : ∀ t, J t → S (.removeContainer t.1.spec.containerName))
    (hlaunched : ∀ v shared, J (v, shared) → J ({ v with launched := true }, shared)) :
    (launch setting).run.within S J fun _ => True := by
  refine Program.within_run_seq (within_send hprobes) fun _ => ?_
  refine within_locals fun v shared hJ => ?_
  refine Program.within_run_seq (within_checkpoint setting (hflight _ hJ)) fun _ => ?_
  refine Program.within_run_seq (within_enter steady _) fun _ => ?_
  refine within_locals fun v shared hJ => ?_
  refine Program.within_run_seq
    (within_await (within_dockerRun quiet (hrun _ hJ) (hremove _ hJ) setting)) fun attempt => ?_
  by_cases hok : attempt.1
  · simp only [if_pos hok]
    exact within_assign hlaunched
  · simp only [if_neg hok]
    exact within_fail _

/-- The job is saved after the last look at the flag. -/
theorem within_conclude (setting : Setting)
    (hflight : ∀ t, J t → S (.checkFlight t.1.spec.jobId))
    (hsave : ∀ v shared store, J (v, shared) → J (v, { shared with store }))
    (hsucceeded : ∀ v shared, J (v, shared) → J ({ v with succeeded := true }, shared)) :
    (conclude setting).run.within S J fun _ => True := by
  -- nothing is sent after the last checkpoint
  refine Program.within_run_seq (within_awaitRunning quiet steady setting) fun _ => ?_
  refine Program.within_run_seq (within_enter steady _) fun _ => ?_
  refine within_locals fun v shared hJ => ?_
  refine Program.within_run_seq (within_mountEncrypted quiet setting _) fun _ => ?_
  refine within_locals fun v shared hJ => ?_
  refine Program.within_run_seq (within_checkpoint setting (hflight _ hJ)) fun _ => ?_
  refine Program.within_run_seq (within_enter steady _) fun _ => ?_
  have hstore : (saveSpec setting v.spec).run.within S J fun _ => True := by
    intro t hJ
    refine ⟨?_, trivial⟩
    by_cases hgiven : setting.store
    · simp only [if_pos hgiven]
      exact hsave t.1 t.2 _ hJ
    · simp only [if_neg hgiven]
      exact hJ
  refine Program.within_run_seq hstore fun _ => ?_
  exact Program.within_run_seq (within_assign hsucceeded) fun _ => trivial

end Creating

/-! ## `_rollback` and `destroy` -/

section

variable {J : Shared → Prop} (quiet : ∀ c : Command, c.quiet → S c)
  (power : ∀ uuid watts, S (.setPower uuid watts))
  (records : ∀ shared records, J shared → J { shared with records })
include quiet power records

theorem within_onRecords_restoreJob (jobId : Str) :
    (onRecords (restoreJob jobId)).run.within S J fun _ => True :=
  Program.within_zoom records (within_restoreJob quiet power jobId)

/-- What a teardown removes beside the container. -/
theorem within_clearAway (printable : Char → Bool) {t : Teardown}
    (store : ∀ shared store, J shared → J { shared with store })
    (hvolumes : ∀ volume ∈ t.volumeNames, validVolume volume → S (.removeVolume volume)) :
    (clearAway printable t).run.within S J fun _ => True := by
  -- the caps, the wedged cards, the unused images, the volumes, the record: in this order
  refine Program.within_run_seq (Raising.within_when fun _ => ?_) fun _ => ?_
  · exact Program.within_run_seq (within_onRecords_restoreJob quiet power records t.jobId)
      fun _ => trivial
  refine Program.within_run_seq
    ((Raising.within_await _ _).mpr (GpuWedge.within_sweep quiet)) fun _ => ?_
  refine Program.within_run_seq
    (Raising.within_when fun _ => ⟨quiet _ rfl, fun _ => trivial⟩) fun _ => ?_
  refine Program.within_run_seq ((Raising.within_await _ _).mpr ?_) fun _ => ?_
  · refine Program.within_forEach (fun volume hmem _ => ?_) ()
    rw [Program.within_bind]
    exact Program.within_mono (Volumes.within_destroy printable (hvolumes volume hmem))
      fun _ _ => trivial
  · exact Raising.within_when fun _ shared hJ => ⟨store shared _ hJ, trivial⟩

/-- The container is stopped and removed, then what it leaves is cleared away. -/
theorem within_destroy (printable : Char → Bool) {name : Str} {t : Teardown}
    (store : ∀ shared store, J shared → J { shared with store })
    (hstop : S (.stop t.grace name)) (hremove : S (.removeWithVolumes name))
    (hvolumes : ∀ volume ∈ t.volumeNames, validVolume volume → S (.removeVolume volume)) :
    (destroy printable name t).run.within S J fun _ => True := by
  rw [destroy]
  split_ifs
  · trivial
  refine Program.within_run_seq ⟨hstop, fun _ => trivial⟩ fun stop => ?_
  -- without an answer nothing more is sent
  by_cases hstop : stop.transportFailed
  · rw [if_pos hstop]
    trivial
  rw [if_neg hstop]
  refine Program.within_run_seq ⟨hremove, fun _ => trivial⟩ fun removed => ?_
  by_cases hgone : goneAfter removed
  · rw [if_pos hgone]
    exact Program.within_run_seq (within_clearAway quiet power records printable store hvolumes)
      fun _ => trivial
  -- a container that stays keeps its volumes
  · rw [if_neg hgone]
    exact Program.within_run_seq
      ((Raising.within_await _ _).mpr (GpuWedge.within_sweep quiet)) fun _ => trivial

/-- What a rollback removes beside the container. -/
theorem within_giveBack (printable : Char → Bool) (setting : Setting) {v : Locals}
    (hvolumes : ∀ volume ∈ v.createdVolumes, validVolume volume → S (.removeVolume volume)) :
    (giveBack printable setting v).run.within S J fun _ => True := by
  refine Program.within_run_seq (Raising.within_when fun _ => ?_) fun _ => ?_
  · exact Program.within_run_seq (within_onRecords_restoreJob quiet power records _)
      fun _ => trivial
  refine Program.within_run_seq ((Raising.within_await _ _).mpr ?_) fun _ => ?_
  · refine Program.within_forEach (fun volume hmem _ => ?_) ()
    rw [Program.within_bind]
    exact Program.within_mono (Volumes.within_destroy printable (hvolumes volume hmem))
      fun _ _ => trivial
  · exact Program.within_run_seq
      ((Raising.within_await _ _).mpr (GpuWedge.within_sweep quiet)) fun _ => trivial

/-- The end of a creation, with the rollback of one that failed. -/
theorem within_settle (setting : Setting) {v : Locals}
    (store : ∀ shared store, J shared → J { shared with store })
    (rollbacks : ∀ shared rollbacks, J shared → J { shared with rollbacks })
    (hcheck : S (.checkFlight v.spec.jobId)) (hfinish : S (.finishFlight v.spec.jobId))
    (hremove : S (.removeWithVolumes v.spec.containerName))
    (hvolumes : ∀ volume ∈ v.createdVolumes, validVolume volume → S (.removeVolume volume)) :
    (settle setting v).run.within S J fun _ => True := by
  have hflag : (wasCancelled setting v.spec.jobId : Task Shared Bool).within S J
      fun _ => True := by
    rw [wasCancelled]
    split_ifs
    · exact ⟨hcheck, fun _ => trivial⟩
    · trivial
  -- the rollback runs for whatever did not succeed, or was cancelled
  refine Program.within_run_seq ((Raising.within_await _ _).mpr hflag) fun cancelled => ?_
  refine Program.within_run_seq (Raising.within_when fun _ => ?_) fun _ => ?_
  · refine Program.within_run_seq ?_ fun _ => ?_
    · refine Program.within_run_seq (fun shared hJ => ⟨rollbacks shared _ hJ, trivial⟩) fun _ => ?_
      refine Program.within_run_seq
        (Raising.within_when fun _ => ⟨hremove, fun _ => trivial⟩) fun _ => ?_
      exact within_giveBack quiet power records _ setting hvolumes
    · exact Raising.within_when fun _ shared hJ => ⟨store shared _ hJ, trivial⟩
  · exact Raising.within_when fun _ => ⟨hfinish, fun _ => trivial⟩

end

end Containers

end ComputePool.Validator
