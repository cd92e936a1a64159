import ComputePool.Validator.Recovery.GpuWedge
import ComputePool.Validator.Storage.Sweep
import ComputePool.Validator.Work.Containers

/-!
# Containers that lost their cards

`validator/recovery/device_cgroup.py`: a reload of systemd can take the devices of a running
container away. Every running container is asked for its cards; one whose answer shows a marker of
the loss is restarted, or recreated when its specification is in the store, and asked again.

A container that does not show the loss counts as repaired, also when it shows nothing at all; and
the one that is asked after a recreation has the name that belongs to the job, which need not be the
name the container was listed with. `repaired_on_evidence_iff` says when a sweep claims no more than
it saw.

* `Treatment`: what was done to a container, and the answer to the probe after it.
* `wp_repair`, `wp_detect`: what `repair` and `detect` send and conclude.
-/

namespace ComputePool.Validator.DeviceCgroup

open Text Containers
open GpuWedge (Log)
open Sweep (ownContainers target)
open Verify.Exclusivity (OwnContainer parseContainers)

/-- `LOSS_MARKERS`. -/
def lossMarkers : List Str :=
  ["operation not permitted".toList, "eperm".toList, "unknown error".toList,
    "failed to initialize nvml".toList]

/-- The answer lists a card. -/
def Healthy (r : CommandResult) : Prop :=
  r.exitCode = 0 ∧ contains r.stdout "GPU 0".toList

instance decidableHealthy (r : CommandResult) : Decidable (Healthy r) :=
  inferInstanceAs (Decidable (r.exitCode = 0 ∧ contains r.stdout "GPU 0".toList))

/-- `looks_wiped`. -/
def looksWiped (r : CommandResult) : Bool :=
  if Healthy r then false
  else
    let text := lower (r.stdout ++ '\n' :: r.stderr)
    lossMarkers.any fun marker => contains text marker

/-- `RepairReport`. -/
structure RepairReport where
  checked : ℕ := 0
  wiped : List Str := []
  repaired : List Str := []
  failed : Dict Str Str := []
  skipped : Str := []
  deriving DecidableEq, Repr

section

variable {σ : Type}

/-- `probe`; `none` when the connection broke. -/
def probe (c : OwnContainer) : Task σ (Option Bool) := do
  let result ← Program.send (.probeGpus (target c))
  return if result.transportFailed then none else some (looksWiped result)

/-- The loop of `detect`: the containers that look wiped, after those found so far. -/
def detectEach : List OwnContainer → List OwnContainer → Task σ (List OwnContainer × Str)
  | [], wiped => pure (wiped, [])
  | c :: rest, wiped => do
    match ← probe c with
    | none => return (wiped, "probe transport failed".toList)
    | some true => detectEach rest (wiped ++ [c])
    | some false => detectEach rest wiped

/-- `detect`: the running containers, those that look wiped, and why the sweep is skipped. -/
def detect : Task σ (List OwnContainer × List OwnContainer × Str) := do
  let (ours, error) ← ownContainers
  if error ≠ [] then return ([], [], error)
  let running := ours.filter fun c => c.state = [] || c.state = "running".toList
  let (wiped, error) ← detectEach running []
  return (running, wiped, error)

end

/-- `store.load(job)`, if there is a store and the container has a job. -/
def load (setting : Setting) (job : Str) : Raising Shared (Option (JobSpec × Str)) := do
  if !setting.store || job = [] then return none
  if !jobIdPattern job then throw .value
  return (← Raising.read).store.get? job

/-- The second probe of `repair`. -/
def recheck (c : OwnContainer) (what : Str) : Raising Shared (Bool × Str) := do
  let again ← Raising.await (probe c)
  return if again = some false then (true, [])
    else (false, "devices still unreachable after ".toList ++ what)

/-- `repair`. -/
def repair (setting : Setting) (c : OwnContainer) : Raising Shared (Bool × Str) := do
  match ← load setting c.job with
  | none =>
    let restarted ← Raising.send (.restart (target c))
    if !restarted.ok then
      return (false, "restart failed: ".toList ++ restarted.complaint 200)
    recheck c "restart".toList
  | some (spec, rigId) =>
    let outcome ← recreate { setting with rigId } spec
    if !outcome.ok then
      return (false, outcome.step ++ ": ".toList ++ outcome.reason)
    recheck { id := [], name := spec.containerName, job := spec.jobId
              state := "running".toList } "recreation".toList

/-- The report after the repair of a container. -/
def noted (report : RepairReport) (name : Str) (outcome : Bool × Str) : RepairReport :=
  if outcome.1 then { report with repaired := report.repaired ++ [name] }
  else { report with failed := report.failed.set name outcome.2 }

/-- The loop of `sweep`. -/
def repairEach (setting : Setting) : List OwnContainer → RepairReport → Raising Shared RepairReport
  | [], report => pure report
  | c :: rest, report => do
    let outcome ← repair setting c
    repairEach setting rest (noted report (target c) outcome)

/-- `sweep`. -/
def sweep (setting : Setting) : Raising Shared RepairReport := do
  let (running, wiped, error) ← Raising.await detect
  let report : RepairReport :=
    { checked := running.length, wiped := wiped.map target, skipped := error }
  if error ≠ [] then return report
  repairEach setting wiped report

/-! ## What a sweep saw -/

/-- What was sent to repair a container, and the answer of the container that was probed after
it. -/
structure Treatment where
  work : Log
  probed : Option (Str × CommandResult)

namespace Treatment

/-- All that was sent. -/
def log (t : Treatment) : Log :=
  t.work ++ t.probed.toList.map fun e => (.probeGpus e.1, e.2)

/-- There was an answer that does not show the loss. -/
def fixed (t : Treatment) : Bool :=
  t.probed.any fun e => !e.2.transportFailed && !looksWiped e.2

/-- The container was restarted, and probed if that succeeded. -/
def Restarts (c : OwnContainer) (t : Treatment) : Prop :=
  ∃ r, t.work = [(.restart (target c), r)] ∧ (t.probed.isSome ↔ r.ok) ∧
    ∀ e ∈ t.probed, e.1 = target c

/-- The container was recreated from the specification in the store, and probed if that
succeeded. -/
def Recreates (setting : Setting) (c : OwnContainer) (t : Treatment) : Prop :=
  ∃ spec rigId replies shared shared' result,
    shared.store.get? c.job = some (spec, rigId) ∧
    (recreate { setting with rigId } spec).run.run (Program.logged Program.echo) replies shared
      ((), []) = some (.ok result, shared', ((), t.work)) ∧
    (t.probed.isSome ↔ result.ok) ∧ ∀ e ∈ t.probed, e.1 = spec.containerName

/-- What `repair` does to a container. -/
def Treats (setting : Setting) (c : OwnContainer) (t : Treatment) : Prop :=
  t.Restarts c ∨ t.Recreates setting c

/-- It was the container of this name that was probed, and its answer lists a card. -/
def SawCard (name : Str) (t : Treatment) : Prop :=
  ∃ e ∈ t.probed, e.1 = name ∧ Healthy e.2

end Treatment

/-- What was asked to find the containers that look wiped. -/
def detection (listed : CommandResult) (probes : List (OwnContainer × CommandResult)) : Log :=
  (.listOwn, listed) :: probes.map fun e => (.probeGpus (target e.1), e.2)

/-- The containers that look wiped. -/
def wipedIn (probes : List (OwnContainer × CommandResult)) : List OwnContainer :=
  (probes.filter fun e => !e.2.transportFailed && looksWiped e.2).map Prod.fst

/-- The course of a sweep: the running containers are probed in order up to the first transport
failure, and without one those that look wiped are treated. -/
structure Course (setting : Setting) (log : Log) (listed : CommandResult)
    (probes : List (OwnContainer × CommandResult)) (treatments : List Treatment) : Prop where
  log_eq : log = detection listed probes ++ treatments.flatMap Treatment.log
  asked : probes.map Prod.fst <+:
    (parseContainers listed.stdout).filter fun c => c.state = [] || c.state = "running".toList
  treated : (∀ e ∈ probes, e.2.transportFailed = false) →
    List.Forall₂ (Treatment.Treats setting) (wipedIn probes) treatments
  untreated : (∃ e ∈ probes, e.2.transportFailed) → treatments = []

/-- A report claims what was seen, and says of each wiped container whether it is repaired. -/
structure Honest (report : RepairReport) (fates : List (Str × Treatment)) : Prop where
  repaired : ∀ name ∈ report.repaired, ∃ t, (name, t) ∈ fates ∧ t.SawCard name
  exactlyOne : ∀ name ∈ report.wiped, Xor (name ∈ report.repaired) (name ∈ report.failed.keys)

/-- The connection broke in a probe, and one before it had shown the loss. -/
def CutShort (probes : List (OwnContainer × CommandResult)) : Prop :=
  wipedIn probes ≠ [] ∧ ∃ e ∈ probes, e.2.transportFailed

/-- Where an answer after a treatment does not show the loss, the container that was treated was
asked, and lists a card. -/
def Evident (fates : List (Str × Treatment)) : Prop :=
  ∀ name t, (name, t) ∈ fates → t.fixed → ∃ t', (name, t') ∈ fates ∧ t'.SawCard name

/-- Containers listed under one name came out alike. -/
def Alike (fates : List (Str × Treatment)) : Prop :=
  ∀ name t t', (name, t) ∈ fates → (name, t') ∈ fates → t.fixed = t'.fixed

/-! ## What a sweep does -/

section

variable {shared : Shared} {w : Unit × Log}

/-- A probe is answered, or the connection broke. -/
theorem wp_probe {σ : Type} {s : σ} {c : OwnContainer} {Q : Option Bool → σ → Unit × Log → Prop}
    (h : ∀ r : CommandResult, Q (if r.transportFailed then none else some (looksWiped r)) s
      ((), w.2 ++ [(.probeGpus (target c), r)])) :
    (probe c : Task σ _).wp (Program.logged Program.echo) (fun _ _ => True) Q s w := by
  rw [probe, Program.wp_bind]
  exact Program.wp_send_echo h

/-- A container counts as fixed if and only if the probe was answered and does not show the loss. -/
theorem wp_recheck {c : OwnContainer} {what : Str}
    {Q : Except Exn (Bool × Str) → Shared → Unit × Log → Prop}
    (h : ∀ (r : CommandResult) (outcome : Bool × Str),
      outcome.1 = (!r.transportFailed && !looksWiped r) →
      Q (.ok outcome) shared ((), w.2 ++ [(.probeGpus (target c), r)])) :
    (recheck c what).run.wp (Program.logged Program.echo) (fun _ _ => True) Q shared w := by
  rw [recheck, Program.wp_run_bind, Raising.wp_await]
  refine wp_probe fun r => ?_
  rw [Program.handOn_ok]
  by_cases hbroke : r.transportFailed
  · exact h r _ (by simp [hbroke])
  · cases hlooks : looksWiped r with
    | true => simpa [hbroke, hlooks] using h r (false, _) (by simp [hlooks])
    | false => simpa [hbroke, hlooks] using h r (true, []) (by simp [hbroke, hlooks])

/-- A container without an identifier goes by its name. -/
theorem target_of_id_nil {c : OwnContainer} (hid : c.id = []) : target c = c.name := by
  rw [target, hid]
  split_ifs with hname
  · exact hname.symm
  · rfl

/-- Reading a saved job writes nothing; it may raise. -/
theorem wp_load {setting : Setting} {job : Str}
    {Q : Except Exn (Option (JobSpec × Str)) → Shared → Unit × Log → Prop}
    (herror : ∀ e shared' w', Q (.error e) shared' w')
    (h : ∀ found, (∀ saved, found = some saved → shared.store.get? job = some saved) →
      Q (.ok found) shared w) :
    (load setting job).run.wp (Program.logged Program.echo) (fun _ _ => True) Q shared w := by
  rw [load]
  split_ifs
  · exact h none (by simp)
  · exact herror _ _ _
  · exact h (shared.store.get? job) fun saved hsaved => hsaved

/-- A container is restarted or recreated, and counts as repaired if the probe after that does not
show the loss. -/
theorem wp_repair {setting : Setting} {c : OwnContainer}
    {Q : Except Exn (Bool × Str) → Shared → Unit × Log → Prop}
    (herror : ∀ e shared' w', Q (.error e) shared' w')
    (h : ∀ (t : Treatment) (outcome : Bool × Str) shared', t.Treats setting c →
      outcome.1 = t.fixed → Q (.ok outcome) shared' ((), w.2 ++ t.log)) :
    (repair setting c).run.wp (Program.logged Program.echo) (fun _ _ => True) Q shared w := by
  rw [repair, Program.wp_run_bind]
  refine wp_load (fun e s w => herror e s w) fun found hfound => ?_
  rw [Program.handOn_ok]
  -- without a saved job the container is restarted
  cases found with
  | none =>
    dsimp only
    rw [Program.wp_run_bind]
    refine Program.wp_send_echo fun restarted => ?_
    rw [Program.handOn_ok]
    cases hok : restarted.ok with
    | false =>
      rw [if_pos (by simp)]
      refine h ⟨[(.restart (target c), restarted)], none⟩ _ shared (Or.inl ⟨restarted, rfl, ?_⟩) rfl
      simp [hok]
    | true =>
      rw [if_neg (by simp)]
      refine wp_recheck fun r outcome houtcome => ?_
      have hgoal := h ⟨[(.restart (target c), restarted)], some (target c, r)⟩ outcome shared
        (Or.inl ⟨restarted, rfl, by simp [hok], by simp⟩) houtcome
      simpa [Treatment.log] using hgoal
  | some saved =>
    obtain ⟨spec, rigId⟩ := saved
    dsimp only
    rw [Program.wp_run_bind]
    -- with one it is recreated, in any way the model of that allows
    refine Program.wp_of_run_logged fun replies r shared' w' log hrun => ?_
    cases r with
    | error e => exact herror _ _ _
    | ok result =>
      have hrecreates (probed : Option (Str × CommandResult)) (hprobed : probed.isSome ↔ result.ok)
          (hname : ∀ e ∈ probed, e.1 = spec.containerName) :
          Treatment.Treats setting c ⟨log, probed⟩ :=
        Or.inr ⟨spec, rigId, replies, shared, shared', result, hfound _ rfl, hrun, hprobed, hname⟩
      rw [Program.handOn_ok]
      cases hok : result.ok with
      | false =>
        rw [if_pos (by simp)]
        have hgoal := h _ (false, result.step ++ ": ".toList ++ result.reason) shared'
          (hrecreates none (by simp [hok]) (by simp)) rfl
        simpa [Treatment.log] using hgoal
      -- the name that is probed is that of the saved job
      | true =>
        rw [if_neg (by simp)]
        refine wp_recheck fun r outcome houtcome => ?_
        rw [target_of_id_nil rfl]
        have hgoal := h _ outcome shared'
          (hrecreates (some (spec.containerName, r)) (by simp [hok]) (by simp)) houtcome
        simpa [Treatment.log] using hgoal

/-- The containers found are those that look wiped. -/
theorem wp_detectEach {σ : Type} {s : σ} {cs wiped : List OwnContainer}
    {Q : List OwnContainer × Str → σ → Unit × Log → Prop}
    (h : ∀ probes error, probes.map Prod.fst <+: cs →
      (error = [] → ∀ e ∈ probes, e.2.transportFailed = false) →
      (error ≠ [] → ∃ e ∈ probes, e.2.transportFailed) →
      Q (wiped ++ wipedIn probes, error) s
        ((), w.2 ++ probes.map fun e => (.probeGpus (target e.1), e.2))) :
    (detectEach cs wiped : Task σ _).wp (Program.logged Program.echo) (fun _ _ => True) Q s w := by
  induction cs generalizing wiped w with
  | nil =>
    rw [detectEach, Program.wp_pure]
    simpa [wipedIn] using h [] [] (by simp) (by simp) (by simp)
  | cons c cs ih =>
    rw [detectEach, Program.wp_bind]
    refine wp_probe fun r => ?_
    by_cases hbroke : r.transportFailed
    · simpa [hbroke, wipedIn] using h [(c, r)] "probe transport failed".toList (by simp)
        (by simp) (by simp [hbroke])
    · rw [if_neg hbroke]
      -- the probes of the rest come after this one
      have hrest (probes : List (OwnContainer × CommandResult)) (error : Str)
          (hasked : probes.map Prod.fst <+: cs)
          (hfine : error = [] → ∀ e ∈ probes, e.2.transportFailed = false)
          (hfailed : error ≠ [] → ∃ e ∈ probes, e.2.transportFailed) :=
        h ((c, r) :: probes) error (by simpa using hasked)
          (fun herror => by simpa [hbroke] using hfine herror)
          (fun herror => by simpa [hbroke] using hfailed herror)
      cases hlooks : looksWiped r with
      | true =>
        refine ih fun probes error hasked hfine hfailed => ?_
        simpa [wipedIn, hbroke, hlooks] using hrest probes error hasked hfine hfailed
      | false =>
        refine ih fun probes error hasked hfine hfailed => ?_
        simpa [wipedIn, hbroke, hlooks] using hrest probes error hasked hfine hfailed

/-- What the detection hands on: the containers are probed in the order they are listed, and when it
reports an error, no loss was found or a connection broke. -/
theorem wp_detect {σ : Type} {s : σ}
    {Q : List OwnContainer × List OwnContainer × Str → σ → Unit × Log → Prop}
    (h : ∀ listed probes running error,
      probes.map Prod.fst <+: (parseContainers listed.stdout).filter
        (fun c => c.state = [] || c.state = "running".toList) →
      (error = [] → ∀ e ∈ probes, e.2.transportFailed = false) →
      (error ≠ [] → wipedIn probes = [] ∨ ∃ e ∈ probes, e.2.transportFailed) →
      Q (running, wipedIn probes, error) s ((), w.2 ++ detection listed probes)) :
    (detect : Task σ _).wp (Program.logged Program.echo) (fun _ _ => True) Q s w := by
  rw [detect, Program.wp_bind, ownContainers, Program.wp_bind]
  refine Program.wp_send_echo fun listed => ?_
  rw [Program.wp_pure]
  -- without a listing nothing is asked
  cases hok : listed.ok with
  | false =>
    rw [if_neg (by simp)]
    dsimp only
    rw [Program.wp_ite]
    split_ifs with hnone
    · exact h listed [] [] _ (by simp) (by simp) fun _ => Or.inl rfl
    · rw [Program.wp_bind]
      refine wp_detectEach fun probes error hasked hfine hfailed => ?_
      obtain rfl : probes = [] := by simpa using hasked
      simpa [detection] using h listed [] _ error (by simp) (by simp) fun _ => Or.inl rfl
  | true =>
    rw [if_pos rfl]
    dsimp only
    rw [if_neg (by simp), Program.wp_bind]
    refine wp_detectEach fun probes error hasked hfine hfailed => ?_
    have hskipped (herror : error ≠ []) : wipedIn probes = [] ∨ ∃ e ∈ probes, e.2.transportFailed :=
      Or.inr (hfailed herror)
    simpa [detection] using h listed probes _ error hasked hfine hskipped

/-- What the loop of `sweep` adds to a report. -/
structure Told (report report' : RepairReport) (fates : List (Str × Treatment)) : Prop where
  wiped : report'.wiped = report.wiped
  repaired : ∀ name, name ∈ report'.repaired ↔
    name ∈ report.repaired ∨ ∃ t, (name, t) ∈ fates ∧ t.fixed
  failed : ∀ name, name ∈ report'.failed.keys ↔
    name ∈ report.failed.keys ∨ ∃ t, (name, t) ∈ fates ∧ t.fixed = false

/-- The fates under a name, the first one apart. -/
theorem exists_mem_cons {fates : List (Str × Treatment)} {name other : Str} {t : Treatment}
    {b : Bool} : (∃ t', (other, t') ∈ (name, t) :: fates ∧ t'.fixed = b) ↔
      (other = name ∧ t.fixed = b) ∨ ∃ t', (other, t') ∈ fates ∧ t'.fixed = b := by
  simp only [List.mem_cons, Prod.mk.injEq, or_and_right, exists_or]
  simp

/-- One more container in the report. -/
theorem Told.cons {report report' : RepairReport} {fates : List (Str × Treatment)} {name : Str}
    {outcome : Bool × Str} {t : Treatment} (houtcome : outcome.1 = t.fixed)
    (h : Told (noted report name outcome) report' fates) :
    Told report report' ((name, t) :: fates) := by
  obtain ⟨hwiped, hrepaired, hfailed⟩ := h
  -- the outcome goes to one of the two lists, and the rest adds to them
  cases hfixed : t.fixed with
  | true =>
    rw [noted, if_pos (houtcome.trans hfixed)] at hwiped hrepaired hfailed
    refine ⟨hwiped, fun other => ?_, fun other => ?_⟩
    · rw [hrepaired, exists_mem_cons, ← or_assoc]
      simp [hfixed]
    · rw [hfailed, exists_mem_cons]
      simp [hfixed]
  | false =>
    rw [noted, if_neg (by simp [houtcome, hfixed])] at hwiped hrepaired hfailed
    refine ⟨hwiped, fun other => ?_, fun other => ?_⟩
    · rw [hrepaired, exists_mem_cons]
      simp [hfixed]
    · rw [hfailed, exists_mem_cons, Dict.mem_keys_set]
      simp only [hfixed, and_true, or_assoc]
      exact or_left_comm

/-- The loop, by induction on the containers that lost their cards: each has its treatment, and the
report tells of all of them. -/
theorem wp_repairEach {setting : Setting} {cs : List OwnContainer} {report : RepairReport}
    {Q : Except Exn RepairReport → Shared → Unit × Log → Prop}
    (herror : ∀ e shared' w', Q (.error e) shared' w')
    (h : ∀ treatments report' shared', List.Forall₂ (Treatment.Treats setting) cs treatments →
      Told report report' ((cs.map target).zip treatments) →
      Q (.ok report') shared' ((), w.2 ++ treatments.flatMap Treatment.log)) :
    (repairEach setting cs report).run.wp (Program.logged Program.echo) (fun _ _ => True) Q
      shared w := by
  induction cs generalizing report shared w with
  | nil =>
    rw [repairEach, Program.wp_run_pure]
    simpa using h [] report shared .nil ⟨rfl, by simp, by simp⟩
  | cons c cs ih =>
    rw [repairEach, Program.wp_run_bind]
    refine wp_repair (fun e s w => herror e s w) fun t outcome shared' ht houtcome => ?_
    rw [Program.handOn_ok]
    -- the container first, then the others with the report that has it
    refine ih fun treatments report' shared'' htreats htold => ?_
    have hgoal := h (t :: treatments) report' shared'' (.cons ht htreats) (htold.cons houtcome)
    simpa using hgoal

end

/-! ## Claims and evidence -/

/-- A report on treatments is honest exactly when what they showed is evidence and unambiguous. -/
theorem Told.honest_iff {start report : RepairReport} {treatments : List Treatment}
    (hlength : start.wiped.length = treatments.length) (hrepaired : start.repaired = [])
    (hfailed : start.failed = []) (h : Told start report (start.wiped.zip treatments)) :
    Honest report (start.wiped.zip treatments) ↔
      Evident (start.wiped.zip treatments) ∧ Alike (start.wiped.zip treatments) := by
  have hmemRepaired (name : Str) : name ∈ report.repaired ↔
      ∃ t, (name, t) ∈ start.wiped.zip treatments ∧ t.fixed := by
    rw [h.repaired, hrepaired]
    simp
  have hmemFailed (name : Str) : name ∈ report.failed.keys ↔
      ∃ t, (name, t) ∈ start.wiped.zip treatments ∧ t.fixed = false := by
    rw [h.failed, hfailed]
    simp [Dict.keys]
  constructor
  · intro hhonest
    refine ⟨fun name t hmem hfixed => ?_, fun name t t' hmem hmem' => ?_⟩
    · exact hhonest.repaired name ((hmemRepaired name).mpr ⟨t, hmem, hfixed⟩)
    have hwiped : name ∈ report.wiped := h.wiped ▸ (List.of_mem_zip hmem).1
    by_contra hdiffer
    -- one of the two makes the name repaired, the other one failed
    have hboth : name ∈ report.repaired ∧ name ∈ report.failed.keys := by
      rw [hmemRepaired, hmemFailed]
      cases hfixed : t.fixed with
      | true => exact ⟨⟨t, hmem, hfixed⟩, t', hmem', by simpa [hfixed] using hdiffer⟩
      | false => exact ⟨⟨t', hmem', by simpa [hfixed] using hdiffer⟩, t, hmem, hfixed⟩
    rcases hhonest.exactlyOne name hwiped with hone | hone
    · exact hone.2 hboth.2
    · exact hone.2 hboth.1
  · rintro ⟨hevident, halike⟩
    refine ⟨fun name hname => ?_, fun name hname => ?_⟩
    · obtain ⟨t, hmem, hfixed⟩ := (hmemRepaired name).mp hname
      exact hevident name t hmem hfixed
    · rw [h.wiped] at hname
      obtain ⟨t, hmem⟩ : ∃ t, (name, t) ∈ start.wiped.zip treatments := by
        rw [← List.map_fst_zip hlength.le] at hname
        obtain ⟨⟨_, t⟩, hmem, rfl⟩ := List.mem_map.mp hname
        exact ⟨t, hmem⟩
      cases hfixed : t.fixed with
      | true =>
        refine Or.inl ⟨(hmemRepaired name).mpr ⟨t, hmem, hfixed⟩, fun hin => ?_⟩
        obtain ⟨t', hmem', hfixed'⟩ := (hmemFailed name).mp hin
        simp [halike name t t' hmem hmem', hfixed'] at hfixed
      | false =>
        refine Or.inr ⟨(hmemFailed name).mpr ⟨t, hmem, hfixed⟩, fun hin => ?_⟩
        obtain ⟨t', hmem', hfixed'⟩ := (hmemRepaired name).mp hin
        simp [halike name t t' hmem hmem', hfixed'] at hfixed

/-- Without treatments a report is honest exactly when no container is wiped. -/
theorem honest_untreated_iff {report : RepairReport} (hrepaired : report.repaired = [])
    (hfailed : report.failed = []) : Honest report [] ↔ report.wiped = [] := by
  constructor
  · intro hhonest
    refine List.eq_nil_iff_forall_not_mem.mpr fun name hname => ?_
    have hone := hhonest.exactlyOne name hname
    simp [hrepaired, hfailed, Dict.keys, Xor] at hone
  · intro hwiped
    exact ⟨by simp [hrepaired], by simp [hwiped]⟩

/-- A whole sweep: its course, and when its report is honest. -/
theorem wp_sweep {setting : Setting} {shared : Shared} :
    (sweep setting).run.wp (Program.logged Program.echo) (fun _ _ => True)
      (fun r _ w => ∀ report, r = .ok report → ∃ listed probes treatments,
        Course setting w.2 listed probes treatments ∧
        report.wiped = (wipedIn probes).map target ∧
        (Honest report (report.wiped.zip treatments) ↔ ¬ CutShort probes ∧
          Evident (report.wiped.zip treatments) ∧ Alike (report.wiped.zip treatments)))
      shared ((), []) := by
  rw [sweep, Program.wp_run_bind, Raising.wp_await]
  refine wp_detect fun listed probes running error hasked hfine hfailed => ?_
  rw [Program.handOn_ok]
  dsimp only
  split_ifs with herror
  · -- the sweep was skipped
    rintro report hreport
    obtain rfl := Except.ok.inj hreport
    refine ⟨listed, probes, [], ⟨by simp, hasked, fun hanswered => ?_, fun _ => rfl⟩, rfl, ?_⟩
    · have hnone : wipedIn probes = [] := by
        refine (hfailed herror).resolve_right fun ⟨e, he, hbroke⟩ => ?_
        simp [hanswered e he] at hbroke
      rw [hnone]
      exact .nil
    -- an untreated report is honest when it lists no container
    · rw [List.zip_nil_right, honest_untreated_iff rfl rfl, List.map_eq_nil_iff]
      constructor
      · intro hnone
        exact ⟨fun hcut => hcut.1 hnone, by simp [Evident], by simp [Alike]⟩
      · rintro ⟨hcut, -, -⟩
        by_contra hsome
        exact hcut ⟨hsome, (hfailed herror).resolve_left hsome⟩
  · have hanswered := hfine (not_not.mp herror)
    refine wp_repairEach (fun e s w report hreport => by simp at hreport)
      fun treatments report shared' htreats htold => ?_
    rintro _ hreport
    obtain rfl := Except.ok.inj hreport
    -- no probe lost its connection, so none was left out
    have hbroke : ¬ ∃ e ∈ probes, e.2.transportFailed := by
      rintro ⟨e, he, hbroke⟩
      simp [hanswered e he] at hbroke
    refine ⟨listed, probes, treatments,
      ⟨by simp, hasked, fun _ => htreats, fun h => absurd h hbroke⟩, htold.wiped, ?_⟩
    have hhonest := htold.honest_iff (by simpa using htreats.length_eq) rfl rfl
    rw [htold.wiped, hhonest]
    exact (and_iff_right fun hcut => hbroke hcut.2).symm

/-- **A sweep claims no more than it saw, except where the answers mislead it.** For every listing
and whatever the commands are answered: each container listed as repaired was seen to list a card
after it was restarted or recreated, and each wiped container is listed either as repaired or as
failed; if and only if no connection broke while containers looked wiped, the answers after the
treatments that do not show the loss are those of the listed container and list a card, and
containers of one name came out alike. -/
theorem repaired_on_evidence_iff {setting : Setting} {replies : List CommandResult}
    {shared shared' : Shared} {report : RepairReport} {log : Log}
    (hrun : (sweep setting).run.run (Program.logged Program.echo) replies shared ((), []) =
      some (.ok report, shared', ((), log))) :
    ∃ listed probes treatments, Course setting log listed probes treatments ∧
      report.wiped = (wipedIn probes).map target ∧
      (Honest report (report.wiped.zip treatments) ↔ ¬ CutShort probes ∧
        Evident (report.wiped.zip treatments) ∧ Alike (report.wiped.zip treatments)) := by
  have hpost := Program.run_of_wp wp_sweep hrun
  exact hpost report rfl

/-- A listing of one container, which has no job. -/
def oneListed : CommandResult where
  exitCode := 0
  stdout := "0a1b\tjob-a\t\trunning".toList

/-- The answer of a container that lost its cards. -/
def lostAnswer : CommandResult where
  exitCode := 255
  stderr := "Failed to initialize NVML: Unknown Error".toList

/-- The answer of a container that has a card. -/
def cardAnswer : CommandResult where
  exitCode := 0
  stdout := "GPU 0: NVIDIA A100".toList

/-- The answer of the daemon for a container that stopped again. -/
def stoppedAnswer : CommandResult where
  exitCode := 1
  stderr := "Error response from daemon: container 0a1b is not running".toList

/-- The run of a sweep without a store in which a wiped container is restarted and then answers as
given. -/
def restartRun (last : CommandResult) :
    Option (Except Exn RepairReport × Shared × Unit × Log) :=
  (sweep { sampleSetting with store := false }).run.run (Program.logged Program.echo)
    [oneListed, lostAnswer, { exitCode := 0 }, last] {} ((), [])

/-- What a run without an exception reports, and what was sent. -/
def reported (r : Except Exn RepairReport × Shared × Unit × Log) : Option (RepairReport × Log) :=
  match r.1 with
  | .ok report => some (report, r.2.2.2)
  | .error _ => none

/-- A run that reported ended with a report. -/
theorem exists_reported {r : Option (Except Exn RepairReport × Shared × Unit × Log)}
    {report : RepairReport} {log : Log} (h : r.bind reported = some (report, log)) :
    ∃ shared', r = some (.ok report, shared', ((), log)) := by
  obtain ⟨⟨outcome, shared', _, log'⟩, rfl, hreported⟩ := Option.bind_eq_some_iff.mp h
  cases outcome with
  | ok report' =>
    obtain ⟨rfl, rfl⟩ := Prod.mk.inj (Option.some.inj hreported)
    exact ⟨shared', rfl⟩
  | error e => simp [reported] at hreported

theorem repaired_on_evidence_iff_restarted : ∃ report shared' log listed probes treatments,
    restartRun cardAnswer = some (.ok report, shared', ((), log)) ∧
      report.repaired = ["job-a".toList] ∧
      Course { sampleSetting with store := false } log listed probes treatments ∧
      (Honest report (report.wiped.zip treatments) ↔ ¬ CutShort probes ∧
        Evident (report.wiped.zip treatments) ∧ Alike (report.wiped.zip treatments)) := by
  have hrun : ((restartRun cardAnswer).bind reported).map (fun r => r.1.repaired) =
      some ["job-a".toList] := by
    decide +kernel
  obtain ⟨⟨report, log⟩, hsome, hrepaired⟩ := Option.map_eq_some_iff.mp hrun
  obtain ⟨shared', hrun⟩ := exists_reported hsome
  obtain ⟨listed, probes, treatments, hcourse, -, hiff⟩ := repaired_on_evidence_iff hrun
  exact ⟨report, shared', log, listed, probes, treatments, hrun, hrepaired, hcourse, hiff⟩

/-- The container stopped after the restart, and is listed as repaired: no command of the run
listed a card. -/
theorem stopped_container_repaired : ∃ report shared' log,
    restartRun stoppedAnswer = some (.ok report, shared', ((), log)) ∧
      report.repaired = ["job-a".toList] ∧ report.failed = [] ∧ ∀ e ∈ log, ¬ Healthy e.2 := by
  have hrun : ((restartRun stoppedAnswer).bind reported).map (fun r =>
      (r.1.repaired, r.1.failed, r.2.all fun e => ¬ Healthy e.2)) =
        some (["job-a".toList], [], true) := by
    decide +kernel
  obtain ⟨⟨report, log⟩, hsome, hparts⟩ := Option.map_eq_some_iff.mp hrun
  obtain ⟨hrepaired, hfailed, hnone⟩ := by simpa using hparts
  obtain ⟨shared', hrun⟩ := exists_reported hsome
  exact ⟨report, shared', log, hrun, hrepaired, hfailed, by simpa using hnone⟩

end ComputePool.Validator.DeviceCgroup
