import ComputePool.Validator.Work.Footprints

/-!
# Cancelling a creation

`Inflight` of `validator/work/containers.py` is the table of creations that other coroutines may
cancel or wait for. `create` looks at its flag at four checkpoints and once more in its `finally`
block; between the last checkpoint and that block it does not wait, so a cancellation that was
accepted is seen by one of them.

* `exec`: a creation with what other coroutines do in the table while it waits, under every result
  of its commands.
* `Flying`: while the creation is under way, nobody who waits for it has been told that it is done,
  and the flag is set exactly if a cancellation was accepted.
* `cancelled_creation_taken_back`: a creation that was cancelled does not succeed, saves nothing,
  and hands to `_rollback` what was reported to it as made.

Power caps are handed over once `apply_caps` has reported success; an `apply_caps` that fails takes
back itself what it has set (`partial_caps_not_handed_over`).
-/

namespace ComputePool.Validator.Containers

open Text Numeral

/-! ## The table -/

/-- `Inflight`. An event is named by a number. -/
structure Inflight where
  cancelledIds : List Str := []
  done : Dict Str ℕ := []
  /-- The number of the next event. -/
  made : ℕ := 0
  /-- The events that are set. -/
  set : List ℕ := []
  done_lt : ∀ entry ∈ done, entry.2 < made := by simp
  set_lt : ∀ event ∈ set, event < made := by simp

namespace Inflight

/-- `start`. -/
def start (t : Inflight) (jobId : Str) : Inflight where
  cancelledIds := t.cancelledIds.filter (· ≠ jobId)
  done := t.done.set jobId t.made
  made := t.made + 1
  set := t.set
  done_lt entry hmem := by
    rcases Dict.mem_set.mp hmem with rfl | ⟨-, hmem⟩
    · exact Nat.lt_succ_self t.made
    · exact Nat.lt_succ_of_lt (t.done_lt entry hmem)
  set_lt event hmem := Nat.lt_succ_of_lt (t.set_lt event hmem)

/-- `finish`. -/
def finish (t : Inflight) (jobId : Str) : Inflight where
  cancelledIds := t.cancelledIds.filter (· ≠ jobId)
  done := t.done.pop jobId
  made := t.made
  set := (t.done.get? jobId).toList ++ t.set
  done_lt entry hmem := t.done_lt entry (Dict.mem_pop.mp hmem).2
  set_lt event hmem := by
    rcases List.mem_append.mp hmem with hmem | hmem
    · exact t.done_lt _ (Dict.mem_of_get? (Option.mem_toList.mp hmem))
    · exact t.set_lt event hmem

/-- `active`. -/
def active (t : Inflight) (jobId : Str) : Bool :=
  (t.done.get? jobId).isSome

/-- `cancel`. -/
def cancel (t : Inflight) (jobId : Str) : Bool × Inflight :=
  if t.active jobId then (true, { t with cancelledIds := jobId :: t.cancelledIds }) else (false, t)

/-- `cancelled`. -/
def cancelled (t : Inflight) (jobId : Str) : Bool :=
  jobId ∈ t.cancelledIds

end Inflight

/-! ## What happens beside a creation -/

/-- What happens, in order: a command of the creation ends, a call of `cancel` for its job returns,
a call of `wait` for its job returns. -/
inductive Happening
  | ended (c : Command) (r : CommandResult)
  | cancelled (accepted : Bool)
  | waited (value : Bool)
  deriving DecidableEq, Repr

/-- The table, the events that the calls of `wait` for the job are waiting for, and what has
happened. -/
structure Watch where
  table : Inflight
  waiting : List ℕ := []
  history : List Happening := []

/-- What another coroutine does: it calls `cancel` or `wait` for the job, or its call of `wait` goes
on, because the time is up or because the event is set. -/
inductive Visit
  | cancel
  | wait
  | timeOut (event : ℕ)
  | wake (event : ℕ)
  deriving DecidableEq, Repr

namespace Watch

/-- Something happens. -/
def add (w : Watch) (e : Happening) : Watch :=
  { w with history := w.history ++ [e] }

/-- `Inflight.cancel` and `Inflight.wait`, piece by piece. -/
def visit (jobId : Str) (w : Watch) : Visit → Option Watch
  | .cancel =>
    let (accepted, table) := w.table.cancel jobId
    some ({ w with table }.add (.cancelled accepted))
  | .wait =>
    match w.table.done.get? jobId with
    -- nobody creates the job, so there is nothing to wait for
    | none => some (w.add (.waited true))
    | some event => some { w with waiting := event :: w.waiting }
  | .timeOut event =>
    if event ∈ w.waiting then
      some ({ w with waiting := w.waiting.erase event }.add (.waited false))
    else none
  | .wake event =>
    if event ∈ w.waiting ∧ event ∈ w.table.set then
      some ({ w with waiting := w.waiting.erase event }.add (.waited true))
    else none

end Watch

/-- How a command ends: its result, and what other coroutines do until then. -/
structure Reply where
  result : CommandResult
  visits : List Visit := []
  deriving DecidableEq, Repr

/-- A command of the creation of `jobId`. Those that concern the table do not wait; every other one
may end with any result. -/
def flightExec (jobId : Str) (c : Command) (o : Reply) (w : Watch) :
    Option (CommandResult × Watch) :=
  match c with
  | .startFlight id =>
    if o.visits = [] then
      some (o.result, { w with table := w.table.start id }.add (.ended c o.result))
    else none
  | .checkFlight id =>
    if o.visits = [] ∧ o.result.ok = !w.table.cancelled id then
      some (o.result, w.add (.ended c o.result))
    else none
  | .finishFlight id =>
    if o.visits = [] then
      some (o.result, { w with table := w.table.finish id }.add (.ended c o.result))
    else none
  | _ => (o.visits.foldlM (Watch.visit jobId) w).map fun w => (o.result, w.add (.ended c o.result))

/-! ## A creation under way -/

/-- The creation is under way: its event is not set, whoever waits waits for it, nobody has been
told that it is done, and the flag is set exactly if a cancellation was accepted. -/
structure Flying (jobId : Str) (w : Watch) : Prop where
  event : ∃ event, w.table.done.get? jobId = some event ∧ event ∉ w.table.set ∧
    ∀ waited ∈ w.waiting, waited = event
  told : .waited true ∉ w.history
  flag : w.table.cancelled jobId = true ↔ .cancelled true ∈ w.history

section Flying

variable {jobId : Str} {w w' : Watch} {c : Command} {o : Reply} {r : CommandResult}

/-- A command that ends leaves the creation under way. -/
theorem Flying.ended (h : Flying jobId w) (c : Command) (r : CommandResult) :
    Flying jobId (w.add (.ended c r)) where
  event := h.event
  told := by simpa [Watch.add] using h.told
  flag := by simpa [Watch.add] using h.flag

/-- Nobody else ends the creation: others may cancel it, wait, and give up waiting. -/
theorem Flying.visit {v : Visit} (h : Flying jobId w) (hvisit : w.visit jobId v = some w') :
    Flying jobId w' := by
  obtain ⟨event, hevent, hset, hwaiting⟩ := h.event
  have herase (gone : ℕ) : ∀ waited ∈ w.waiting.erase gone, waited = event :=
    fun waited hmem => hwaiting waited (List.mem_of_mem_erase hmem)
  cases v with
  | cancel =>
    have hactive : w.table.active jobId = true := by
      rw [Inflight.active, hevent]
      rfl
    rw [Watch.visit, Inflight.cancel, if_pos hactive] at hvisit
    obtain rfl := Option.some.inj hvisit
    exact ⟨⟨event, hevent, hset, hwaiting⟩, by simpa [Watch.add] using h.told, by
      simp [Watch.add, Inflight.cancelled]⟩
  | wait =>
    rw [Watch.visit, hevent] at hvisit
    obtain rfl := Option.some.inj hvisit
    refine ⟨⟨event, hevent, hset, fun waited hmem => ?_⟩, h.told, h.flag⟩
    rcases List.mem_cons.mp hmem with rfl | hmem
    · rfl
    · exact hwaiting waited hmem
  | timeOut gone =>
    rw [Watch.visit] at hvisit
    split_ifs at hvisit
    obtain rfl := Option.some.inj hvisit
    exact ⟨⟨event, hevent, hset, herase gone⟩, by simpa [Watch.add] using h.told, by
      simpa [Watch.add] using h.flag⟩
  | wake gone =>
    -- the event is not set
    rw [Watch.visit] at hvisit
    split_ifs at hvisit with hwake
    rw [hwaiting gone hwake.1] at hwake
    exact absurd hwake.2 hset

/-- However many others come by. -/
theorem Flying.visits {visits : List Visit} (h : Flying jobId w)
    (hvisits : visits.foldlM (Watch.visit jobId) w = some w') : Flying jobId w' := by
  induction visits generalizing w with
  | nil =>
    obtain rfl := Option.some.inj hvisits
    exact h
  | cons v visits ih =>
    rw [List.foldlM_cons] at hvisits
    obtain ⟨next, hvisit, hrest⟩ := Option.bind_eq_some_iff.mp hvisits
    exact ih (h.visit hvisit) hrest

/-- Every command that does not concern the table leaves the creation under way, and so does a look
at the flag. -/
theorem Flying.exec (h : Flying jobId w) (hstart : ∀ id, c ≠ .startFlight id)
    (hfinish : ∀ id, c ≠ .finishFlight id) (hexec : flightExec jobId c o w = some (r, w')) :
    Flying jobId w' := by
  rw [flightExec.eq_def] at hexec
  split at hexec
  · exact absurd rfl (hstart _)
  · split_ifs at hexec
    obtain ⟨rfl, rfl⟩ := Prod.mk.inj (Option.some.inj hexec)
    exact h.ended _ _
  · exact absurd rfl (hfinish _)
  · obtain ⟨next, hvisits, hnext⟩ := Option.map_eq_some_iff.mp hexec
    obtain ⟨rfl, rfl⟩ := Prod.mk.inj hnext
    exact (h.visits hvisits).ended _ _

/-- What others do is no command of the creation. -/
theorem mem_visit {v : Visit} {r : CommandResult} (hvisit : w.visit jobId v = some w') :
    .ended c r ∈ w'.history ↔ .ended c r ∈ w.history := by
  cases v with
  | cancel =>
    obtain rfl := Option.some.inj hvisit
    simp [Watch.add]
  | wait =>
    rw [Watch.visit] at hvisit
    split at hvisit
    · obtain rfl := Option.some.inj hvisit
      simp [Watch.add]
    · obtain rfl := Option.some.inj hvisit
      rfl
  | timeOut _ | wake _ =>
    rw [Watch.visit] at hvisit
    split_ifs at hvisit
    obtain rfl := Option.some.inj hvisit
    simp [Watch.add]

/-- Nor is anything they do in a row. -/
theorem mem_visits {visits : List Visit} {r : CommandResult}
    (hvisits : visits.foldlM (Watch.visit jobId) w = some w') :
    .ended c r ∈ w'.history ↔ .ended c r ∈ w.history := by
  induction visits generalizing w with
  | nil =>
    obtain rfl := Option.some.inj hvisits
    rfl
  | cons v visits ih =>
    rw [List.foldlM_cons] at hvisits
    obtain ⟨next, hvisit, hrest⟩ := Option.bind_eq_some_iff.mp hvisits
    exact (ih hrest).trans (mem_visit hvisit)

/-- The history tells the commands and their results. -/
theorem mem_exec {c' : Command} {r' : CommandResult}
    (hexec : flightExec jobId c o w = some (r, w')) :
    .ended c' r' ∈ w'.history ↔ .ended c' r' ∈ w.history ∨ c' = c ∧ r' = r := by
  rw [flightExec.eq_def] at hexec
  split at hexec
  · split_ifs at hexec
    obtain ⟨rfl, rfl⟩ := Prod.mk.inj (Option.some.inj hexec)
    simp [Watch.add]
  · split_ifs at hexec
    obtain ⟨rfl, rfl⟩ := Prod.mk.inj (Option.some.inj hexec)
    simp [Watch.add]
  · split_ifs at hexec
    obtain ⟨rfl, rfl⟩ := Prod.mk.inj (Option.some.inj hexec)
    simp [Watch.add]
  · obtain ⟨next, hvisits, hnext⟩ := Option.map_eq_some_iff.mp hexec
    obtain ⟨rfl, rfl⟩ := Prod.mk.inj hnext
    simp [Watch.add, mem_visits hvisits]

end Flying

/-! ## What a creation knows of -/

/-- What the variables say there is to take back. -/
structure Taken where
  launched : Bool := false
  capped : Bool := false
  volumes : List Str := []

/-- The variables know of every container and every volume that was reported as made, and of the
power caps once `apply_caps` has reported success: the removal of the probes is the command that
follows it. -/
structure Noted (caps : Dict Str PyFloat) (taken : Taken) (w : Watch) : Prop where
  launched : ∀ job r, .ended (.dockerRun job) r ∈ w.history → r.ok → taken.launched
  capped : ∀ r, .ended .removeProbes r ∈ w.history → caps ≠ [] → taken.capped
  volumes : ∀ volume r, .ended (.createVolume volume) r ∈ w.history → r.ok →
    volume.name ∈ taken.volumes

/-- The creation is under way, and its variables know what there is. -/
structure Sound (spec : JobSpec) (taken : Taken) (w : Watch) : Prop where
  flying : Flying spec.jobId w
  noted : Noted spec.powerCaps taken w

/-- The commands that make nothing and do not change the entry in the table. -/
def makesNothing : Command → Bool
  | .dockerRun _ | .createVolume _ | .removeProbes => false
  | .startFlight _ | .finishFlight _ => false
  | _ => true

theorem makesNothing_of_quiet {c : Command} (h : c.quiet) : makesNothing c := by
  cases c with
  | dockerRun _ | createVolume _ | removeProbes | startFlight _ | finishFlight _ => cases h
  | _ => rfl

theorem makesNothing_of_lists {c : Command} (h : c.lists) : makesNothing c := by
  cases c with
  | listOwn | listVolumes | listMounts => rfl
  | _ => cases h

section Sound

variable {spec : JobSpec} {taken : Taken} {w w' : Watch} {c : Command} {o : Reply}
  {r : CommandResult}

/-- The account may have more in it than was made. -/
theorem Sound.mono {more : Taken} (h : Sound spec taken w)
    (hlaunched : taken.launched → more.launched) (hcapped : taken.capped → more.capped)
    (hvolumes : taken.volumes ⊆ more.volumes) : Sound spec more w :=
  ⟨h.flying, fun job r hmem hok => hlaunched (h.noted.launched job r hmem hok),
    fun r hmem hcaps => hcapped (h.noted.capped r hmem hcaps),
    fun volume r hmem hok => hvolumes (h.noted.volumes volume r hmem hok)⟩

/-- A command keeps the account if what it makes is already in it. -/
theorem Sound.exec (h : Sound spec taken w) (hstart : ∀ id, c ≠ .startFlight id)
    (hfinish : ∀ id, c ≠ .finishFlight id)
    (hrun : ∀ job, c = .dockerRun job → r.ok → taken.launched)
    (hprobes : c = .removeProbes → spec.powerCaps ≠ [] → taken.capped)
    (hcreate : ∀ volume, c = .createVolume volume → r.ok → volume.name ∈ taken.volumes)
    (hexec : flightExec spec.jobId c o w = some (r, w')) : Sound spec taken w' := by
  refine ⟨h.flying.exec hstart hfinish hexec, ?_, ?_, ?_⟩
  · intro job r' hmem hok
    rcases (mem_exec hexec).mp hmem with hmem | ⟨hc, rfl⟩
    · exact h.noted.launched job r' hmem hok
    · exact hrun job hc.symm hok
  · intro r' hmem hcaps
    rcases (mem_exec hexec).mp hmem with hmem | ⟨hc, rfl⟩
    · exact h.noted.capped r' hmem hcaps
    · exact hprobes hc.symm hcaps
  · intro volume r' hmem hok
    rcases (mem_exec hexec).mp hmem with hmem | ⟨hc, rfl⟩
    · exact h.noted.volumes volume r' hmem hok
    · exact hcreate volume hc.symm hok

/-- A command that makes nothing keeps the account. -/
theorem Sound.step (hc : makesNothing c) (hexec : flightExec spec.jobId c o w = some (r, w'))
    (h : Sound spec taken w) : Sound spec taken w' := by
  refine h.exec ?_ ?_ ?_ ?_ ?_ hexec
  · rintro id rfl
    cases hc
  · rintro id rfl
    cases hc
  · rintro job rfl
    cases hc
  · rintro rfl
    cases hc
  · rintro volume rfl
    cases hc

end Sound

/-! ## The steps of a creation -/

/-- Nobody has been told that the creation is done. -/
def Untold (_ : Locals × Shared) (w : Watch) : Prop :=
  .waited true ∉ w.history

section Steps

variable {spec : JobSpec} {before : Shared} {taken : Taken} {setting : Setting}
  {t : Locals × Shared} {w : Watch}

/-- The variables at some point of the body, and what the others share. -/
structure Here (spec : JobSpec) (before : Shared) (taken : Taken) (t : Locals × Shared) : Prop where
  jobId : t.1.spec.jobId = spec.jobId
  caps : t.1.spec.powerCaps = spec.powerCaps
  taken : taken = ⟨t.1.launched, t.1.capped, t.1.createdVolumes⟩
  succeeded : t.1.succeeded = false
  store : t.2.store = before.store
  rollbacks : t.2.rollbacks = before.rollbacks

/-- The variables that the account speaks of are not written by the steps between. -/
theorem Here.steady (spec : JobSpec) (before : Shared) (taken : Taken) :
    Steady (Here spec before taken) where
  step _ _ _ h := ⟨h.jobId, h.caps, h.taken, h.succeeded, h.store, h.rollbacks⟩
  ports _ _ _ h := ⟨h.jobId, h.caps, h.taken, h.succeeded, h.store, h.rollbacks⟩
  devices _ _ _ h := ⟨h.jobId, h.caps, h.taken, h.succeeded, h.store, h.rollbacks⟩
  records _ _ _ h := ⟨h.jobId, h.caps, h.taken, h.succeeded, h.store, h.rollbacks⟩

/-- The body has come this far, and what there is to take back is in its variables. -/
def Reached (spec : JobSpec) (before : Shared) (t : Locals × Shared) (w : Watch) : Prop :=
  ∃ taken, Here spec before taken t ∧ Sound spec taken w

/-- A part of the body that makes nothing. -/
theorem wp_seq_sound {α β : Type} {p : Creating α} {f : α → Creating β}
    {Q : Except Stop β → Locals × Shared → Watch → Prop}
    (h : p.run.within (fun c => makesNothing c = true) (Here spec before taken) fun _ => True)
    (ht : Here spec before taken t) (hw : Sound spec taken w)
    (herror : ∀ e t w, Reached spec before t w → Q (.error e) t w)
    (hrest : ∀ a t w, Here spec before taken t → Sound spec taken w →
      (f a).run.wp (flightExec spec.jobId) Untold Q t w) :
    (p >>= f).run.wp (flightExec spec.jobId) Untold Q t w :=
  Program.wp_run_seq_of_within (fun _ _ _ _ _ hc hexec hw => hw.step hc hexec)
    (fun _ _ _ hw => hw.flying.told) h ht hw (fun e t w ht hw => herror e t w ⟨taken, ht, hw⟩) hrest

/-- `volumes.create` makes the volume or reports a failure. -/
theorem wp_volumesCreate {σ : Type} {I : σ → Watch → Prop} (hI : ∀ s w, Flying spec.jobId w → I s w)
    (printable : Char → Bool) (volume : VolumeSpec) {s : σ} (hw : Sound spec taken w) :
    (Volumes.create printable volume).run.wp (flightExec spec.jobId) I
      (fun r s' w => s' = s ∧ Sound spec (match r with
        | .ok (true, _) => { taken with volumes := taken.volumes ++ [volume.name] }
        | _ => taken) w) s w := by
  rw [Volumes.create]
  cases volume.problems printable with
  | cons problem problems => exact ⟨rfl, hw⟩
  | nil =>
    -- both kinds of finite size end in the same command
    have hsend : (Raising.send (.createVolume volume) >>= fun result =>
        pure (if result.ok then (true, []) else (false, result.complaint 300)) :
          Raising σ (Bool × Str)).run.wp (flightExec spec.jobId) I
        (fun r s' w => s' = s ∧ Sound spec (match r with
          | .ok (true, _) => { taken with volumes := taken.volumes ++ [volume.name] }
          | _ => taken) w) s w := by
      rw [Program.wp_run_bind, Raising.wp_send]
      refine ⟨hI s w hw.flying, fun o r w' hexec => ?_⟩
      rw [Program.handOn_ok]
      by_cases hok : r.ok
      · simp only [if_pos hok]
        have hmore : Sound spec { taken with volumes := taken.volumes ++ [volume.name] } w :=
          hw.mono (fun h => h) (fun h => h) (List.subset_append_left _ _)
        refine ⟨rfl, hmore.exec (by simp) (by simp) (by simp) (by simp) ?_ hexec⟩
        intro made hmade _
        obtain rfl := Command.createVolume.inj hmade
        exact List.mem_append_right _ (List.mem_singleton_self _)
      · simp only [if_neg hok]
        refine ⟨rfl, hw.exec (by simp) (by simp) (by simp) (by simp) ?_ hexec⟩
        exact fun _ _ hmade => absurd hmade hok
    rw [Program.wp_run_bind]
    cases volume.sizeGb with
    | fin q => exact hsend
    -- a size that is not a number never reaches the command
    | nan => exact ⟨rfl, hw⟩
    | inf negative =>
      cases negative with
      | true => exact hsend
      | false => exact ⟨rfl, hw⟩

/-- A volume is in the variables as soon as it was created. -/
theorem wp_makeVolumes (volumes : List VolumeSpec) (ht : Here spec before taken t)
    (hw : Sound spec taken w) :
    (Creating.makeVolumes setting volumes).run.wp (flightExec spec.jobId) Untold
      (fun _ t w => Reached spec before t w) t w := by
  induction volumes generalizing taken t w with
  | nil => exact ⟨taken, ht, hw⟩
  | cons volume volumes ih =>
    rw [Creating.makeVolumes, Program.wp_run_bind]
    refine Creating.wp_await (Program.wp_mono
      (wp_volumesCreate (fun _ _ h => h.told) setting.printer.printable volume hw)
      fun r t' w' hpost => ?_)
    obtain ⟨rfl, hpost⟩ := hpost
    match r with
    | .error e => exact ⟨taken, ht, hpost⟩
    | .ok (false, reason) => exact ⟨taken, ht, hpost⟩
    | .ok (true, reason) =>
      refine ih ⟨ht.jobId, ht.caps, ?_, ht.succeeded, ht.store, ht.rollbacks⟩ hpost
      rw [ht.taken]

/-- Once the step `power` is passed, the caps are in the variables. -/
theorem wp_capPower (ht : Here spec before taken t) (hw : Sound spec taken w) :
    (Creating.capPower setting).run.wp (flightExec spec.jobId) Untold
      (fun r t w => Reached spec before t w ∧
        ∀ a, r = .ok a → spec.powerCaps ≠ [] → t.1.capped) t w := by
  have ht' := (Here.steady spec before taken).step _ _ "power".toList ht
  rw [Creating.capPower, Creating.wp_enter_bind, Creating.wp_locals_bind]
  dsimp only
  split_ifs with hcaps hrecords
  -- nothing is capped, and nothing had to be
  · refine ⟨⟨taken, ht', hw⟩, fun _ _ hsome => ?_⟩
    exact absurd (ht.caps.symm.trans hcaps) hsome
  · exact ⟨⟨taken, ht', hw⟩, fun _ h => nomatch h⟩
  · have happly := within_applyCaps (S := fun c => makesNothing c = true)
      (fun _ => makesNothing_of_quiet) (fun _ _ => rfl) t.1.spec.jobId t.1.spec.powerCaps
    refine wp_seq_sound (Creating.within_await ?_) ht' hw
      (fun e t w h => ⟨h, fun _ h => nomatch h⟩) fun applied t w ht hw => ?_
    · exact Program.within_zoom (fun t records h => (Here.steady spec before taken).records _ _ _ h)
        happly
    · by_cases hok : applied.1
      · simp only [if_pos hok]
        refine ⟨⟨{ taken with capped := true }, ⟨ht.jobId, ht.caps, ?_, ht.succeeded, ht.store,
          ht.rollbacks⟩, hw.mono (fun h => h) (fun _ => rfl) (List.Subset.refl _)⟩,
          fun _ _ _ => rfl⟩
        rw [ht.taken]
      · simp only [if_neg hok]
        exact ⟨⟨taken, ht, hw⟩, fun _ h => nomatch h⟩

/-- Volumes and caps: the caps are marked before they are applied. -/
theorem wp_provision (ht : Here spec before taken t) (hw : Sound spec taken w) :
    (Creating.provision setting).run.wp (flightExec spec.jobId) Untold
      (fun r t w => Reached spec before t w ∧
        ∀ a, r = .ok a → spec.powerCaps ≠ [] → t.1.capped) t w := by
  have ht' := (Here.steady spec before taken).step _ _ "volumes".toList ht
  rw [Creating.provision, Creating.wp_enter_bind, Creating.wp_locals_bind, Program.wp_run_bind]
  refine Program.wp_mono (wp_makeVolumes _ ht' hw) fun r t w hreached => ?_
  cases r with
  | error e => exact ⟨hreached, fun _ h => nomatch h⟩
  | ok _ =>
    obtain ⟨taken, ht, hw⟩ := hreached
    refine wp_seq_sound (Creating.within_resolveDevices (fun _ => makesNothing_of_quiet)
      (Here.steady spec before taken)) ht hw (fun e t w h => ⟨h, fun _ h => nomatch h⟩)
      fun _ t w ht hw => ?_
    exact wp_capPower ht hw

/-- `docker_run` reports success exactly if a `docker run` did. -/
theorem wp_runLoop_sound {σ : Type} {I : σ → Watch → Prop}
    (hI : ∀ s w, Flying spec.jobId w → I s w) (job : JobSpec) (retries : ℕ) {s : σ}
    (hw : Sound spec taken w) :
    (runLoop job retries).wp (flightExec spec.jobId) I
      (fun r s' w => s' = s ∧
        Sound spec (if r.1 then { taken with launched := true } else taken) w) s w := by
  -- one attempt, whatever is done about a busy port afterwards
  have hmore (w : Watch) (hw : Sound spec taken w) :
      Sound spec { taken with launched := true } w :=
    hw.mono (fun _ => rfl) (fun h => h) (List.Subset.refl _)
  have honce (busy : CommandResult → Task σ (Bool × Str)) (w : Watch) (hw : Sound spec taken w)
      (hbusy : ∀ result w, Sound spec taken w → (busy result).wp (flightExec spec.jobId) I
        (fun r s' w => s' = s ∧
          Sound spec (if r.1 then { taken with launched := true } else taken) w) s w) :
      (runOnce job busy).wp (flightExec spec.jobId) I
        (fun r s' w => s' = s ∧
          Sound spec (if r.1 then { taken with launched := true } else taken) w) s w := by
    simp only [runOnce, Program.wp_bind, Program.wp_send]
    refine ⟨hI s w hw.flying, fun o result w' hexec => ?_⟩
    by_cases hok : result.ok
    · rw [if_pos hok]
      refine ⟨rfl, (hmore w hw).exec (by simp) (by simp) (fun _ _ _ => rfl) (by simp) (by simp)
        hexec⟩
    · have hfailed : Sound spec taken w' :=
        hw.exec (by simp) (by simp) (fun _ _ h => absurd h hok) (by simp) (by simp) hexec
      rw [if_neg hok]
      split_ifs
      · exact ⟨rfl, hfailed⟩
      · exact hbusy result w' hfailed
      · exact ⟨rfl, hfailed⟩
  induction retries generalizing w with
  -- the last attempt gives up on a busy port
  | zero => exact honce _ w hw fun _ w hw => ⟨rfl, hw⟩
  | succ retries ih =>
    refine honce _ w hw fun _ w hw => ?_
    -- before the next attempt the port is cleaned and the loop sleeps, and neither makes anything
    simp only [Program.wp_bind, Program.wp_send]
    refine ⟨hI s w hw.flying, fun o r w₁ hexec => ?_⟩
    have hw₁ := hw.step rfl hexec
    exact ⟨hI s w₁ hw₁.flying, fun o' r' w₂ hexec' => ih (hw₁.step rfl hexec')⟩

/-- The step `run`. -/
theorem wp_launch_sound (ht : Here spec before taken t) (hw : Sound spec taken w)
    (hcapped : spec.powerCaps ≠ [] → taken.capped) :
    (Creating.launch setting).run.wp (flightExec spec.jobId) Untold
      (fun _ t w => Reached spec before t w) t w := by
  rw [Creating.launch, Creating.wp_send_bind]
  refine ⟨hw.flying.told, fun o r w hexec => ?_⟩
  -- the removal of the probes is where the caps must already be on record
  have hw := hw.exec (by simp) (by simp) (by simp) (fun _ => hcapped) (by simp) hexec
  rw [Creating.wp_locals_bind]
  refine wp_seq_sound (Creating.within_checkpoint setting rfl) ht hw (fun e t w h => h)
    fun _ t w ht hw => ?_
  rw [Creating.wp_enter_bind, Creating.wp_locals_bind, Program.wp_run_bind]
  have ht := (Here.steady spec before taken).step _ _ "run".toList ht
  refine Creating.wp_await ?_
  -- the command check sends only reading commands
  have hcheck := within_checkCommand (σ := Locals × Shared) (S := fun c => makesNothing c = true)
    (J := Here spec before taken) t.1.spec
  refine Program.wp_run_seq_of_within (K := Sound spec taken)
    (fun _ _ _ _ _ hc hexec hw => hw.step hc hexec) (fun _ _ _ hw => hw.flying.told) hcheck ht hw
    (fun e t w ht hw => ⟨taken, ht, hw⟩) fun _ t w ht hw => ?_
  rw [Raising.wp_await]
  refine Program.wp_mono (wp_runLoop_sound (fun _ _ h => h.told) _ setting.retries hw)
    fun attempt t' w hpost => ?_
  obtain ⟨rfl, hpost⟩ := hpost
  simp only [Program.handOn_ok]
  by_cases hok : attempt.1
  · rw [if_pos hok] at hpost
    simp only [if_pos hok]
    refine ⟨{ taken with launched := true }, ⟨ht.jobId, ht.caps, ?_, ht.succeeded, ht.store,
      ht.rollbacks⟩, hpost⟩
    rw [ht.taken]
  · rw [if_neg hok] at hpost
    simp only [if_neg hok]
    exact ⟨taken, ht, hpost⟩

/-- How the body ends: without a success its variables know what there is, and with one no
cancellation has been accepted. -/
def BodyEnded (spec : JobSpec) (before : Shared) (r : Except Stop CreateResult)
    (t : Locals × Shared) (w : Watch) : Prop :=
  match r with
  | .ok _ => t.1.spec.jobId = spec.jobId ∧ t.1.succeeded = true ∧ Flying spec.jobId w ∧
      w.table.cancelled spec.jobId = false
  | .error _ => Reached spec before t w

/-- The last checkpoint is passed only if the flag is not set, and nothing is waited for after it.
-/
theorem wp_record_sound (hflight : setting.inflight = true) (ht : Here spec before taken t)
    (hw : Sound spec taken w) :
    (Creating.record setting).run.wp (flightExec spec.jobId) Untold (BodyEnded spec before) t
      w := by
  rw [Creating.record, Creating.wp_locals_bind, Creating.checkpoint, if_pos hflight,
    Program.wp_run_bind, Creating.wp_send_bind]
  refine ⟨hw.flying.told, fun o r w' hexec => ?_⟩
  have hw' := hw.step rfl hexec
  -- the checkpoint answers whether the flight was cancelled, and it is the last one
  by_cases hok : r.ok
  · rw [if_pos hok]
    refine ⟨ht.jobId, rfl, hw'.flying, ?_⟩
    rw [flightExec] at hexec
    split_ifs at hexec with hcond
    obtain ⟨rfl, rfl⟩ := Prod.mk.inj (Option.some.inj hexec)
    have hflag := hcond.2
    rw [hok, ht.jobId] at hflag
    simpa [Watch.add] using hflag
  · rw [if_neg hok]
    exact ⟨taken, ht, hw'⟩

/-- The whole body, part by part. -/
theorem wp_body_sound (hflight : setting.inflight = true) (ht : Here spec before taken t)
    (hw : Sound spec taken w) :
    (Creating.body setting).run.wp (flightExec spec.jobId) Untold (BodyEnded spec before) t w := by
  -- the phases before the volumes and after the run make nothing
  have quiet (c : Command) (hc : c.quiet) : makesNothing c = true := makesNothing_of_quiet hc
  have lists (c : Command) (hc : c.lists) : makesNothing c = true := makesNothing_of_lists hc
  have herror : ∀ (e : Stop) t w, Reached spec before t w → BodyEnded spec before (.error e) t w :=
    fun _ _ _ h => h
  refine wp_seq_sound (Creating.within_prepare quiet (Here.steady spec before taken) setting
    fun _ _ => rfl) ht hw herror fun _ t w ht hw => ?_
  refine wp_seq_sound (Creating.within_cleanup (Here.steady spec before taken) setting lists
    (fun _ _ => rfl) fun _ _ => rfl) ht hw herror fun _ t w ht hw => ?_
  rw [Program.wp_run_bind]
  refine Program.wp_mono (wp_provision ht hw) fun r t w hpost => ?_
  obtain ⟨hreached, hcapped⟩ := hpost
  cases r with
  | error e => exact hreached
  | ok _ =>
    obtain ⟨taken, ht, hw⟩ := hreached
    -- the launch relies on caps that provisioning reported as set
    have hcaps : spec.powerCaps ≠ [] → taken.capped := by
      rw [ht.taken]
      exact hcapped () rfl
    rw [Program.handOn_ok, Program.wp_run_bind]
    refine Program.wp_mono (wp_launch_sound ht hw hcaps) fun r t w hreached => ?_
    cases r with
    | error e => exact hreached
    | ok _ =>
      obtain ⟨taken, ht, hw⟩ := hreached
      refine wp_seq_sound (Creating.within_awaitRunning quiet (Here.steady spec before taken)
        setting) ht hw herror fun _ t w ht hw => ?_
      rw [Creating.wp_enter_bind, Creating.wp_locals_bind]
      have ht := (Here.steady spec before taken).step _ _ "encrypted volumes".toList ht
      refine wp_seq_sound (Creating.within_mountEncrypted quiet setting _) ht hw herror
        fun _ t w ht hw => ?_
      exact wp_record_sound hflight ht hw

end Steps

/-! ## Results that end the body -/

section Results

variable {α β : Type} {setting : Setting}

/-- What ends the body early is no success. -/
def NoSuccess (r : Except Stop α) : Prop :=
  ∀ result, r = .error (.returned result) → result.ok = false

/-- A part of the body that returns no success early. -/
def FailsEarly (p : Creating α) : Prop :=
  p.run.within (fun _ => True) (fun _ => True) NoSuccess

/-- Parts that fail early can be run after one another. -/
theorem failsEarly_bind {p : Creating α} {f : α → Creating β} (hp : FailsEarly p)
    (hf : ∀ a, FailsEarly (f a)) : FailsEarly (p >>= f) := by
  refine (Program.within_run_bind _ _ _).mpr (Program.within_mono hp fun r hr => ?_)
  cases r with
  | ok a => exact hf a
  | error e =>
    intro result hresult
    exact hr result (by rw [Except.error.inj hresult])

theorem failsEarly_pure (a : α) : FailsEarly (pure a : Creating α) :=
  fun _ h => nomatch h

/-- An exception is no result. -/
theorem failsEarly_await (p : Raising (Locals × Shared) α) : FailsEarly (Creating.await p) := by
  refine (Program.within_bind _ _ _).mpr (Program.within_mono p.run.within_true fun r _ => ?_)
  cases r with
  | ok a => exact fun _ h => nomatch h
  | error e => exact fun _ h => nomatch h

theorem failsEarly_send (c : Command) : FailsEarly (Creating.send c) :=
  failsEarly_await _

theorem failsEarly_assign (f : Locals → Locals) : FailsEarly (Creating.assign f) :=
  fun _ _ => ⟨trivial, fun _ h => nomatch h⟩

theorem failsEarly_locals {f : Locals → Creating α} (hf : ∀ v, FailsEarly (f v)) :
    FailsEarly (Creating.locals >>= f) :=
  fun t _ => hf t.1

theorem failsEarly_failWith (reason container : Str) (diagnostics : Dict Str Json) :
    FailsEarly (Creating.failWith reason container diagnostics : Creating α) := by
  intro t _ result hresult
  obtain rfl := Stop.returned.inj (Except.error.inj hresult)
  rfl

/-- A branch between parts that fail early. -/
theorem failsEarly_ite {c : Prop} [Decidable c] {p q : Creating α} (hp : FailsEarly p)
    (hq : FailsEarly q) : FailsEarly (if c then p else q) := by
  split_ifs
  · exact hp
  · exact hq

theorem failsEarly_checkpoint (jobId : Str) : FailsEarly (Creating.checkpoint setting jobId) := by
  refine failsEarly_ite (failsEarly_bind (failsEarly_send _) fun flag => ?_) (failsEarly_pure _)
  exact failsEarly_ite (failsEarly_pure _) fun _ h => nomatch h

/-- Every check that fails ends the first part with a failure. -/
theorem failsEarly_prepare : FailsEarly (Creating.prepare setting) := by
  refine failsEarly_bind (failsEarly_locals fun v => ?_) fun _ => ?_
  · cases Creating.firstProblem setting v.spec with
    | some problem => exact failsEarly_failWith _ _ _
    | none => exact failsEarly_checkpoint _
  refine failsEarly_bind (failsEarly_bind (failsEarly_assign _) fun _ =>
    failsEarly_locals fun v => failsEarly_bind (failsEarly_await _) fun found => ?_) fun _ => ?_
  · cases found with
    | error reason => exact failsEarly_failWith _ _ _
    | ok ports => exact failsEarly_assign _
  refine failsEarly_bind (failsEarly_assign _) fun _ => failsEarly_locals fun v => ?_
  refine failsEarly_bind (failsEarly_send _) fun pull => ?_
  exact failsEarly_ite (failsEarly_checkpoint _) (failsEarly_failWith _ _ _)

/-- A volume that cannot be created ends the loop. -/
theorem failsEarly_makeVolumes (volumes : List VolumeSpec) :
    FailsEarly (Creating.makeVolumes setting volumes) := by
  induction volumes with
  | nil => exact failsEarly_pure _
  | cons volume volumes ih =>
    refine failsEarly_bind (failsEarly_await _) fun made => ?_
    exact failsEarly_ite (failsEarly_bind (failsEarly_assign _) fun _ => ih)
      (failsEarly_failWith _ _ _)

/-- Without the devices, or without the caps, there is no success. -/
theorem failsEarly_provision : FailsEarly (Creating.provision setting) := by
  refine failsEarly_bind (failsEarly_assign _) fun _ => failsEarly_locals fun v => ?_
  refine failsEarly_bind (failsEarly_makeVolumes _) fun _ => ?_
  refine failsEarly_bind (failsEarly_bind (failsEarly_assign _) fun _ =>
    failsEarly_locals fun v => failsEarly_bind (failsEarly_await _) fun found => ?_) fun _ => ?_
  · cases found with
    | error reason => exact failsEarly_failWith _ _ _
    | ok devices => exact failsEarly_assign _
  refine failsEarly_bind (failsEarly_assign _) fun _ => failsEarly_locals fun v => ?_
  refine failsEarly_ite (failsEarly_pure _) (failsEarly_ite (failsEarly_failWith _ _ _) ?_)
  refine failsEarly_bind (failsEarly_await _) fun applied => ?_
  exact failsEarly_ite (failsEarly_assign _) (failsEarly_failWith _ _ _)

/-- A container that cannot be run is a failure. -/
theorem failsEarly_launch : FailsEarly (Creating.launch setting) := by
  refine failsEarly_bind (failsEarly_send _) fun _ => failsEarly_locals fun v => ?_
  refine failsEarly_bind (failsEarly_checkpoint _) fun _ => ?_
  refine failsEarly_bind (failsEarly_assign _) fun _ => failsEarly_locals fun v => ?_
  refine failsEarly_bind (failsEarly_await _) fun attempt => ?_
  exact failsEarly_ite (failsEarly_assign _) (failsEarly_failWith _ _ _)

/-- A volume that cannot be mounted is a failure. -/
theorem failsEarly_mountEncrypted (volumes : List VolumeSpec) :
    FailsEarly (Creating.mountEncrypted setting volumes) := by
  induction volumes with
  | nil => exact failsEarly_pure _
  | cons volume volumes ih =>
    refine failsEarly_locals fun v => failsEarly_bind (failsEarly_await _) fun mounted => ?_
    refine failsEarly_ite (failsEarly_bind (failsEarly_await _) fun _ =>
      failsEarly_failWith _ _ _) (failsEarly_ite ih ?_)
    exact failsEarly_bind (failsEarly_await _) fun _ => ih

/-- A container that does not run ends the last part with a failure. -/
theorem failsEarly_conclude : FailsEarly (Creating.conclude setting) := by
  refine failsEarly_bind (failsEarly_bind (failsEarly_assign _) fun _ =>
    failsEarly_locals fun v => failsEarly_bind (failsEarly_await _) fun running => ?_) fun _ => ?_
  · exact failsEarly_ite (failsEarly_pure _) (failsEarly_bind (failsEarly_await _) fun _ =>
      failsEarly_failWith _ _ _)
  refine failsEarly_bind (failsEarly_assign _) fun _ => failsEarly_locals fun v => ?_
  refine failsEarly_bind (failsEarly_mountEncrypted _) fun _ => failsEarly_locals fun v => ?_
  refine failsEarly_bind (failsEarly_checkpoint _) fun _ => ?_
  refine failsEarly_bind (failsEarly_assign _) fun _ => ?_
  refine failsEarly_bind (fun _ _ => ⟨trivial, fun _ h => nomatch h⟩) fun _ => ?_
  exact failsEarly_bind (failsEarly_assign _) fun _ => failsEarly_pure _

/-- A result that ends the body early is no success. -/
theorem failsEarly_body : FailsEarly (Creating.body setting) := by
  refine failsEarly_bind failsEarly_prepare fun _ => ?_
  refine failsEarly_bind (failsEarly_bind (failsEarly_assign _) fun _ => failsEarly_locals fun v =>
    failsEarly_bind (failsEarly_send _) fun _ => failsEarly_bind (failsEarly_await _) fun _ =>
      failsEarly_pure _) fun _ => ?_
  refine failsEarly_bind failsEarly_provision fun _ => ?_
  exact failsEarly_bind failsEarly_launch fun _ => failsEarly_conclude

end Results

/-! ## The `finally` block -/

/-- What was reported to the creation as made has been handed to one call of `_rollback`. -/
structure Handed (spec : JobSpec) (before after : Shared) (w : Watch) : Prop where
  calls : (∃ call, after.rollbacks = before.rollbacks ++ [call] ∧ call.jobId = spec.jobId ∧
      Noted spec.powerCaps ⟨call.launched, call.capped, call.volumes⟩ w) ∨
    after.rollbacks = before.rollbacks ∧ Noted spec.powerCaps {} w
  /-- Nothing is saved. -/
  store : after.store = before.store ∨ after.store = before.store.pop spec.jobId

/-- How a creation ends: if a cancellation was accepted, what it made was handed over. -/
def Closed (spec : JobSpec) (before after : Shared) (w : Watch) : Prop :=
  .waited true ∉ w.history ∧ (.cancelled true ∈ w.history → Handed spec before after w)

section Settle

variable {spec : JobSpec} {before shared : Shared} {setting : Setting} {w w' : Watch}

/-- Commands that make nothing add nothing to the account. -/
theorem Noted.step {caps : Dict Str PyFloat} {taken : Taken} {c : Command} {o : Reply}
    {r : CommandResult} {jobId : Str} (hrun : ∀ job, c ≠ .dockerRun job)
    (hprobes : c ≠ .removeProbes) (hcreate : ∀ volume, c ≠ .createVolume volume)
    (hexec : flightExec jobId c o w = some (r, w')) (h : Noted caps taken w) :
    Noted caps taken w' := by
  refine ⟨fun job r' hmem => ?_, fun r' hmem => ?_, fun volume r' hmem => ?_⟩
  · exact h.launched job r' (((mem_exec hexec).mp hmem).resolve_right fun hc => hrun job hc.1.symm)
  · exact h.capped r' (((mem_exec hexec).mp hmem).resolve_right fun hc => hprobes hc.1.symm)
  · exact h.volumes volume r'
      (((mem_exec hexec).mp hmem).resolve_right fun hc => hcreate volume hc.1.symm)

/-- The end of the creation changes nothing of the account, and tells nobody yet. -/
theorem Closed.finish {id : Str} {o : Reply} {r : CommandResult}
    (hexec : flightExec spec.jobId (.finishFlight id) o w = some (r, w'))
    (h : Closed spec before shared w) : Closed spec before shared w' := by
  have hnoted (taken : Taken) (hn : Noted spec.powerCaps taken w) : Noted spec.powerCaps taken w' :=
    hn.step (by simp) (by simp) (by simp) hexec
  rw [flightExec] at hexec
  split_ifs at hexec
  obtain ⟨rfl, rfl⟩ := Prod.mk.inj (Option.some.inj hexec)
  refine ⟨by simpa [Watch.add] using h.1, fun haccepted => ?_⟩
  have hhanded := h.2 (by simpa [Watch.add] using haccepted)
  refine ⟨hhanded.calls.imp ?_ fun hnone => ⟨hnone.1, hnoted _ hnone.2⟩, hhanded.store⟩
  exact fun ⟨call, hcalls, hjob, hn⟩ => ⟨call, hcalls, hjob, hnoted _ hn⟩

/-- `_rollback` has been called with what the variables hold. -/
structure Rolled (before : Shared) (v : Locals) (after : Shared) : Prop where
  store : after.store = before.store
  rollbacks : after.rollbacks =
    before.rollbacks ++ [⟨v.spec.jobId, v.launched, v.capped, v.createdVolumes⟩]

/-- Nothing is made while it is taken back, and nobody is told that the creation is done. -/
theorem wp_rollback_sound {v : Locals} {taken : Taken} (ht : Here spec before taken (v, shared))
    (hw : Sound spec taken w) :
    (rollback setting.printer.printable setting v).run.wp (flightExec spec.jobId)
      (fun _ w => .waited true ∉ w.history)
      (fun _ after w => Rolled before v after ∧ Sound spec taken w) shared w := by
  -- taking back only removes, so it makes nothing
  have hgive := within_giveBack (J := Rolled before v) (S := fun c => makesNothing c = true)
    (v := v) (fun _ => makesNothing_of_quiet) (fun _ _ => rfl)
    (fun after records h => ⟨h.store, h.rollbacks⟩) setting.printer.printable setting
    fun _ _ _ => rfl
  have hrest (w : Watch) (hw : Sound spec taken w) (after : Shared)
      (hafter : Rolled before v after) :
      (giveBack setting.printer.printable setting v).run.wp (flightExec spec.jobId)
        (fun _ w => .waited true ∉ w.history)
        (fun _ after w => Rolled before v after ∧ Sound spec taken w) after w :=
    Program.wp_mono (Program.wp_of_within (fun _ _ _ _ _ hc hexec hw => hw.step hc hexec)
      (fun _ _ _ hw => hw.flying.told) hgive hafter hw) fun _ _ _ h => h.2
  rw [rollback, Program.wp_run_bind, Raising.wp_modify, Program.handOn_ok, Program.wp_run_bind]
  have hstart : Rolled before v { shared with rollbacks := shared.rollbacks ++
      [⟨v.spec.jobId, v.launched, v.capped, v.createdVolumes⟩] } :=
    ⟨ht.store, congrArg (· ++ _) ht.rollbacks⟩
  -- a container that may run is removed first, with the caps and the volumes after it
  refine Raising.wp_when (fun _ => ⟨hw.flying.told, fun o r w hexec => ?_⟩) fun _ => ?_
  · exact hrest w (hw.step rfl hexec) _ hstart
  · exact hrest w hw _ hstart

/-- The block after a body that ended without a success. -/
theorem wp_settle_failed {v : Locals} {taken : Taken} (hflight : setting.inflight = true)
    (ht : Here spec before taken (v, shared)) (hw : Sound spec taken w) :
    (settle setting v).run.wp (flightExec spec.jobId) (fun _ w => .waited true ∉ w.history)
      (fun _ after w => Closed spec before after w) shared w := by
  have hclose : ∀ after w, Closed spec before after w →
      (Raising.when setting.inflight (Raising.tell (.finishFlight v.spec.jobId))).run.wp
        (flightExec spec.jobId) (fun _ w => .waited true ∉ w.history)
        (fun _ after w => Closed spec before after w) after w := by
    intro after w hclosed
    exact Raising.wp_when (fun _ => ⟨hclosed.1, fun o r w' hexec => hclosed.finish hexec⟩)
      fun _ => hclosed
  rw [settle, Program.wp_run_bind, Raising.wp_await, wasCancelled, if_pos hflight]
  simp only [Program.wp_bind, Program.wp_send]
  refine ⟨hw.flying.told, fun o r w₁ hexec => ?_⟩
  have hw := hw.step rfl hexec
  rw [Program.wp_pure, Program.handOn_ok, Program.wp_run_bind]
  refine Raising.wp_when (fun _ => ?_) fun hskip => ?_
  · rw [Program.wp_run_bind]
    refine Program.wp_mono (wp_rollback_sound ht hw) fun r after w hpost => ?_
    obtain ⟨hafter, hw⟩ := hpost
    -- what the variables hold is what `_rollback` was given
    have hnoted : Noted spec.powerCaps ⟨v.launched, v.capped, v.createdVolumes⟩ w := by
      rw [← ht.taken]
      exact hw.noted
    have hhanded : Handed spec before after w :=
      ⟨Or.inl ⟨_, hafter.rollbacks, ht.jobId, hnoted⟩, Or.inl hafter.store⟩
    have hclosed : Closed spec before after w := ⟨hw.flying.told, fun _ => hhanded⟩
    cases r with
    | error e => exact hclosed
    | ok _ =>
      refine Raising.wp_when (fun _ => ?_) fun _ => hclose after w hclosed
      refine hclose _ w ⟨hw.flying.told, fun _ => ⟨hhanded.calls, Or.inr ?_⟩⟩
      show after.store.pop v.spec.jobId = _
      rw [hafter.store, ht.jobId]
  · -- nothing was made
    have hfailed : v.succeeded = false := ht.succeeded
    have hnone : taken = {} := by
      simp only [hfailed, Locals.changed, Bool.not_false, Bool.true_or, Bool.true_and,
        Bool.or_eq_false_iff, decide_eq_false_iff_not, not_not] at hskip
      rw [ht.taken, hskip.1.1, hskip.1.2, hskip.2]
    refine hclose shared w₁ ⟨hw.flying.told, fun _ => ⟨Or.inr ⟨ht.rollbacks, ?_⟩, Or.inl ht.store⟩⟩
    rw [← hnone]
    exact hw.noted

/-- The block after a body that ended with a success: no cancellation has been accepted. -/
theorem wp_settle_done {v : Locals} (hflight : setting.inflight = true)
    (hjob : v.spec.jobId = spec.jobId) (hdone : v.succeeded = true) (hw : Flying spec.jobId w)
    (hflag : w.table.cancelled spec.jobId = false) :
    (settle setting v).run.wp (flightExec spec.jobId) (fun _ w => .waited true ∉ w.history)
      (fun _ _ w => .waited true ∉ w.history ∧ .cancelled true ∉ w.history) shared w := by
  -- an accepted cancel would have set the flag that the last checkpoint read
  have hnone : .cancelled true ∉ w.history := fun hmem => by
    rw [hw.flag.mpr hmem] at hflag
    exact Bool.noConfusion hflag
  rw [settle, Program.wp_run_bind, Raising.wp_await, wasCancelled, if_pos hflight]
  simp only [Program.wp_bind, Program.wp_send]
  refine ⟨hw.told, fun o r w₁ hexec => ?_⟩
  have hw₁ := hw.exec (by simp) (by simp) hexec
  -- `wasCancelled` reads the flag again, with no await in between
  rw [flightExec] at hexec
  split_ifs at hexec with hcond
  obtain ⟨rfl, rfl⟩ := Prod.mk.inj (Option.some.inj hexec)
  have hok : o.result.ok = true := by
    rw [hcond.2, hjob, hflag]
    rfl
  rw [Program.wp_pure, Program.handOn_ok, Program.wp_run_bind, hdone, hok]
  -- a creation that succeeded is not rolled back
  refine Raising.wp_when (fun hroll => Bool.noConfusion hroll) fun _ => ?_
  rw [Program.handOn_ok]
  refine Raising.wp_when (fun _ => ⟨hw₁.told, fun o' r w₂ hexec => ?_⟩) fun hskip => ?_
  · rw [flightExec] at hexec
    split_ifs at hexec
    obtain ⟨rfl, rfl⟩ := Prod.mk.inj (Option.some.inj hexec)
    exact ⟨by simpa [Watch.add] using hw.told, by simpa [Watch.add] using hnone⟩
  · exact absurd hflight (by simp [hskip])

end Settle

/-! ## A whole creation -/

section Create

variable {spec : JobSpec} {before shared : Shared} {setting : Setting} {w : Watch}

/-- A creation that was cancelled does not succeed. -/
def Denied (r : Except Exn CreateResult) (w : Watch) : Prop :=
  .cancelled true ∈ w.history → ∀ result, r = .ok result → result.ok = false

/-- The handlers make no success of what ended the body early. -/
theorem wp_handle_stopped {v : Locals} {e : Stop}
    (he : NoSuccess (.error e : Except Stop CreateResult)) {after : Shared}
    (hw : Closed spec before after w) :
    (handle v (.error e)).run.wp (flightExec spec.jobId) (fun _ w => .waited true ∉ w.history)
      (fun r after w => Closed spec before after w ∧ Denied r w) after w := by
  cases e with
  | returned result =>
    refine ⟨hw, fun _ other hother => ?_⟩
    obtain rfl := Except.ok.inj hother
    exact he result rfl
  | raised exn =>
    cases exn with
    | cancelled message =>
      refine ⟨hw, fun _ other hother => ?_⟩
      obtain rfl := Except.ok.inj hother
      rfl
    | _ => exact ⟨hw, fun _ _ h => nomatch h⟩

/-- One attempt, with what it takes back. -/
theorem wp_attempt_sound (hflight : setting.inflight = true) (hw : Sound spec {} w) :
    (attempt setting spec).run.wp (flightExec spec.jobId) (fun _ w => .waited true ∉ w.history)
      (fun r after w => Closed spec shared after w ∧ Denied r w) shared w := by
  -- what the body reached, and that only its last line succeeds
  have hbody : (Creating.body setting).run.wp (flightExec spec.jobId) Untold
      (BodyEnded spec shared) ({ spec }, shared) w :=
    wp_body_sound hflight ⟨rfl, rfl, rfl, rfl, rfl, rfl⟩ hw
  have hearly : (Creating.body setting).run.wp (flightExec spec.jobId) (fun _ _ => True)
      (fun r _ _ => NoSuccess r ∧ True ∧ True) ({ spec }, shared) w :=
    Program.wp_of_within (K := fun _ => True) (fun _ _ _ _ _ _ _ h => h) (fun _ _ _ _ => trivial)
      failsEarly_body trivial trivial
  rw [attempt, Program.wp_run_bind, Raising.wp_await, Program.wp_withVars]
  refine Program.wp_mono (Program.wp_and hbody hearly) fun r t w hpost => ?_
  obtain ⟨hended, hr, -⟩ := hpost
  rw [Program.handOn_ok, Program.wp_run_bind]
  cases r with
  | ok result =>
    obtain ⟨hjob, hdone, hflying, hflag⟩ := hended
    refine Program.wp_mono (wp_settle_done hflight hjob hdone hflying hflag)
      fun r' after w hnone => ?_
    have hclosed (r : Except Exn CreateResult) : Closed spec shared after w ∧ Denied r w :=
      ⟨⟨hnone.1, fun h => absurd h hnone.2⟩, fun h => absurd h hnone.2⟩
    cases r' with
    | error e => exact hclosed _
    | ok _ => exact hclosed _
  | error stop =>
    obtain ⟨taken, ht, hw⟩ := hended
    refine Program.wp_mono (wp_settle_failed hflight ht hw) fun r' after w hclosed => ?_
    cases r' with
    | error e => exact ⟨hclosed, fun _ _ h => nomatch h⟩
    | ok _ => exact wp_handle_stopped hr hclosed

/-- The whole creation, its entry in the table included. -/
theorem wp_create_sound (hflight : setting.inflight = true) (table : Inflight) :
    (create setting spec).run.wp (flightExec spec.jobId) (fun _ w => .waited true ∉ w.history)
      (fun r after w => Closed spec shared after w ∧ Denied r w) shared { table } := by
  rw [create, Program.wp_run_bind]
  refine Raising.wp_when (fun _ => ?_) fun hskip => absurd hflight (by simp [hskip])
  rw [Raising.wp_tell]
  refine ⟨List.not_mem_nil, fun o r w hexec => wp_attempt_sound hflight ?_⟩
  rw [flightExec] at hexec
  split_ifs at hexec
  obtain ⟨rfl, rfl⟩ := Prod.mk.inj (Option.some.inj hexec)
  -- the event is a new one, and the flag has been taken back
  refine ⟨⟨⟨table.made, ?_, ?_, ?_⟩, ?_, ?_⟩, ?_, ?_, ?_⟩
  · simp [Watch.add, Inflight.start, Dict.get?_set]
  · exact fun hmem => absurd (table.set_lt _ hmem) (lt_irrefl _)
  · exact fun waited hmem => absurd hmem List.not_mem_nil
  · simp [Watch.add]
  · simp [Watch.add, Inflight.cancelled, Inflight.start]
  · simp [Watch.add]
  · simp [Watch.add]
  · simp [Watch.add]

/-- **A cancellation that was accepted takes effect.** For every job, every table and every
interleaving of its creation, at the commands it waits for, with calls of `cancel` and `wait` for
the job, under every result of its commands: if a call of `cancel` returned `True`, the creation
does not return a success, nothing of it is saved, and every container whose `docker run` reported
success, the power caps of an `apply_caps` that reported success and every volume whose creation
reported success were handed to one call of `_rollback`. Wherever the run is cut off, no call of
`wait` has returned `True`. -/
theorem cancelled_creation_taken_back {setting : Setting} {spec : JobSpec} {shared : Shared}
    {table : Inflight} (hflight : setting.inflight = true) :
    (∀ os r after w,
      (create setting spec).run.run (flightExec spec.jobId) os shared { table } =
        some (r, after, w) → .cancelled true ∈ w.history →
      (∀ result, r = .ok result → result.ok = false) ∧ Handed spec shared after w) ∧
    ∀ os after w,
      (create setting spec).run.after (flightExec spec.jobId) os shared { table } =
        some (after, w) → .waited true ∉ w.history := by
  constructor
  · intro os r after w hrun haccepted
    have hend := Program.run_of_wp (wp_create_sound hflight table) hrun
    exact ⟨hend.2 haccepted, hend.1.2 haccepted⟩
  · intro os after w hafter
    have htold := Program.after_of_wp (Program.wp_mono (wp_create_sound hflight table)
      fun _ _ _ hend => hend.1.1) hafter
    exact htold

/-- A job with caps for two cards. -/
def cappedJob : JobSpec :=
  { sampleJob with powerCaps := [("GPU-a".toList, .fin 200), ("GPU-b".toList, .fin 200)] }

/-- A command that ends well, with nobody beside it. -/
def reply (stdout : Str) : Reply where
  result := { exitCode := 0, stdout }

/-- A command that fails. -/
def failedReply : Reply where
  result := { exitCode := 1 }

/-- The first card is capped when the second turns out not to answer; the creation is cancelled
while it looks for its devices. -/
def cappedReplies : List Reply :=
  List.replicate 7 (reply []) ++ [{ reply sampleProbe with visits := [.wait, .cancel] },
    reply "300, 300, 100, 350, Enabled".toList, reply [], reply [],
    reply "200, 300, 100, 350, Enabled".toList, failedReply, reply [], reply [],
    reply "300, 300, 100, 350, Enabled".toList, failedReply, reply []]

/-- The run of a creation in which the cancellation is accepted and nothing is handed over. -/
def cappedRun : Option (Except Exn CreateResult × Shared × Watch) :=
  (create sampleSetting cappedJob).run.run (flightExec cappedJob.jobId) cappedReplies {}
    { table := {} }

theorem cappedRun_ends : cappedRun.any (fun ended =>
    decide (Happening.cancelled true ∈ ended.2.2.history) &&
      decide (Happening.ended (.setPower "GPU-a".toList 200) (reply []).result ∈
        ended.2.2.history) && decide (ended.2.1.rollbacks = [])) = true := by
  decide +kernel

/-- With every power limit that was set counted as an applied cap, not everything is handed to
`_rollback`: an `apply_caps` that fails puts back itself what it has set. -/
theorem partial_caps_not_handed_over : ¬ ∀ (setting : Setting) (spec : JobSpec) (shared : Shared)
    (table : Inflight) os r after w, setting.inflight = true →
    (create setting spec).run.run (flightExec spec.jobId) os shared { table } =
      some (r, after, w) → .cancelled true ∈ w.history →
    (∃ result, r = .ok result ∧ result.ok = false) ∧
    (∀ job result, .ended (.dockerRun job) result ∈ w.history → result.ok →
      ∃ call ∈ after.rollbacks, call.launched) ∧
    (∀ uuid watts result, .ended (.setPower uuid watts) result ∈ w.history → result.ok →
      ∃ call ∈ after.rollbacks, call.capped) ∧
    (∀ volume result, .ended (.createVolume volume) result ∈ w.history → result.ok →
      ∃ call ∈ after.rollbacks, volume.name ∈ call.volumes) ∧
    (after.store = shared.store ∨ after.store = shared.store.pop spec.jobId) ∧
    .waited true ∉ w.history := by
  intro hall
  -- the first card is capped, and nothing is handed over
  obtain ⟨⟨r, after, w⟩, hrun, hend⟩ := (Option.any_eq_true _ _).mp cappedRun_ends
  simp only [Bool.and_eq_true, decide_eq_true_eq] at hend
  obtain ⟨⟨haccepted, hset⟩, hnone⟩ := hend
  obtain ⟨-, -, hcaps, -⟩ := hall sampleSetting cappedJob {} {} cappedReplies r after w rfl hrun
    haccepted
  obtain ⟨call, hcall, -⟩ := hcaps _ _ _ hset rfl
  rw [hnone] at hcall
  exact List.not_mem_nil hcall

/-- The state of a container can be read, and it is running. -/
def startedSetting : Setting :=
  { sampleSetting with loads := fun _ => .ok (.dict [("Running".toList, .bool true)]) }

/-- The container is started, and the creation is cancelled while it looks whether it runs. -/
def startedReplies : List Reply :=
  List.replicate 7 (reply []) ++ [reply sampleProbe, reply [], reply [], reply [],
    { reply [] with visits := [.wait, .cancel] }, failedReply, failedReply, reply [], reply [],
    reply [], reply []]

/-- The run of a creation that is cancelled when its container runs. -/
def startedRun : Option (Except Exn CreateResult × Shared × Watch) :=
  (create startedSetting sampleJob).run.run (flightExec sampleJob.jobId) startedReplies {}
    { table := {} }

/-- The job with the device that the run has found for it. -/
def startedJob : JobSpec :=
  { sampleJob with devices := ["/dev/nvidia0".toList] }

theorem startedRun_ends : startedRun.any (fun ended =>
    decide (Happening.cancelled true ∈ ended.2.2.history) &&
      decide (Happening.ended (.dockerRun startedJob) (reply []).result ∈ ended.2.2.history) &&
      ended.2.1.rollbacks.any (·.launched)) = true := by
  decide +kernel

/-- The container that was started is handed over, and the creation is no success. -/
theorem cancelled_creation_taken_back_sample : ∃ r after w, startedRun = some (r, after, w) ∧
    .cancelled true ∈ w.history ∧
    .ended (.dockerRun startedJob) (reply []).result ∈ w.history ∧
    after.rollbacks.any (·.launched) = true ∧ (∀ result, r = .ok result → result.ok = false) ∧
    Handed sampleJob {} after w := by
  obtain ⟨⟨r, after, w⟩, hrun, hend⟩ := (Option.any_eq_true _ _).mp startedRun_ends
  simp only [Bool.and_eq_true, decide_eq_true_eq] at hend
  obtain ⟨⟨haccepted, hstarted⟩, hhanded⟩ := hend
  have hinflight : startedSetting.inflight = true := rfl
  exact ⟨r, after, w, hrun, haccepted, hstarted, hhanded,
    (cancelled_creation_taken_back hinflight).1 startedReplies r after w hrun haccepted⟩

end Create

end ComputePool.Validator.Containers
