import Mathlib.Data.Finset.Erase
import Mathlib.Data.List.Perm.Subperm
import ComputePool.Validator.Schedule.Express
import ComputePool.Validator.Schedule.Limiter

/-!
# Rounds of the deep pass

`due_rigs`, `run_once` and `guarded` of `validator/schedule/deep.py`. A round asks the server for
the rigs that are due, adds those that the express lane wants early, and makes a task for each that
is not busy; the next round begins when all the tasks have ended. A task marks its rig as busy,
waits for the limiter, verifies the rig, and unmarks it on every way out. Between the awaits of all
of these, probes of the express lane end.

* `Scheduler.early_rigs_taken`: which rigs a round takes, and that none that is due early is lost.
* `Scheduler.round_from_scratch`: the marks and the permits are gone when a round begins.
* `Scheduler.no_rig_twice`: no rig is verified by two tasks at the same time.
-/

namespace ComputePool.Validator

open Text Transition
open Json (Printer Raised field)

/-- `VERIFIABLE_STATES`. -/
def verifiableStates : List Str :=
  ["validating", "probation", "active", "failed"].map String.toList

/-- `DEFAULT_INTERVAL`. -/
def defaultInterval : ℤ := 3600

/-- An exception that ends a round before it has begun. -/
inductive RoundError
  /-- `ServerError`. -/
  | server
  | raised (e : Raised)
  deriving DecidableEq

/-- `str(rig.get("state", ""))`. -/
def stateOf (p : Printer) (rig : Dict Str Json) : Str :=
  (field rig "state" (.str [])).toStr p

/-- `[rig for rig in answer.get("rigs") or [] if isinstance(rig, dict)]`. -/
def rigsIn (answer : Dict Str Json) : Except Raised (List (Dict Str Json)) := do
  let items ← ((field answer "rigs" .null).orElse (.list [])).iter
  return items.filterMap fun item => match item with
    | .dict fields => some fields
    | _ => none

/-- What a round takes from its surroundings: the text of values, the moments that
`datetime.fromisoformat` reads, in seconds and in UTC unless the text says otherwise, and
`settings.deep_seconds`. -/
structure Surroundings where
  printer : Printer
  isoMoment : Str → Option ℚ
  deepSeconds : ℤ

variable (env : Surroundings)

/-- `locally_due`, where `deep_seconds` is set and so is the interval. -/
def locallyDue (rig : Dict Str Json) (now : ℚ) : Except Raised Bool := do
  let p := env.printer
  if stateOf p rig ∉ verifiableStates ∨ ¬ (field rig "online" (.bool false)).truthy then
    return false
  let last ← ((field rig "last_pass" .null).orElse (.dict [])).get "at".toList (.str [])
  let text := last.textOr p
  if text = [] then return true
  match env.isoMoment text with
  | none => return true
  | some moment => return env.deepSeconds ≤ now - moment

/-- The answers of the server in a round, `none` for a `ServerError`, and the time. -/
structure Answers where
  roster : Option (Dict Str Json)
  due : Option (Dict Str Json)
  now : ℚ

/-- `due_rigs`, up to its last await: the rigs that are due, and the roster. -/
def dueBefore (answers : Answers) :
    Except RoundError (List (Dict Str Json) × List (Dict Str Json)) := do
  let roster ← answers.roster.elim (.error .server) .ok
  let rosterRigs ← (rigsIn roster).mapError .raised
  let _ ← (((field roster "deep_pass_seconds" (.int defaultInterval)).orElse
    (.int defaultInterval)).toInt).mapError .raised
  if env.deepSeconds ≠ 0 then
    let due ← (rosterRigs.filterM fun rig => locallyDue env rig answers.now).mapError .raised
    return (due, rosterRigs)
  else
    let answer ← answers.due.elim (.error .server) .ok
    let due ← (rigsIn answer).mapError .raised
    return (due, rosterRigs)

/-- The loop at the end of `due_rigs`: `chosen` are the names of the rigs in `due`. -/
def addEarly (early : Finset Str) : List (Dict Str Json) → List (Dict Str Json) → List Str →
    List (Dict Str Json)
  | [], due, _ => due
  | rig :: roster, due, chosen =>
    let rigId := rigIdOf env.printer rig
    if rigId ∈ early ∧ rigId ∉ chosen ∧ stateOf env.printer rig ∈ verifiableStates then
      addEarly early roster (due ++ [rig]) (rigId :: chosen)
    else addEarly early roster due chosen

/-- `due_rigs`. The rigs that are due early are taken when nothing can fail any more. -/
def dueRigs (answers : Answers) (lane : ExpressLane) :
    Except RoundError (List (Dict Str Json)) × ExpressLane :=
  match dueBefore env answers with
  | .error e => (.error e, lane)
  | .ok (due, roster) =>
    let (early, lane) := lane.takeEarlyDue
    (.ok (addEarly env early roster due (due.map (rigIdOf env.printer))), lane)

/-! ## Which rigs are due -/

section Due

variable {env}

/-- What the loop adds: rigs of the roster that are due early, each once, and none that was chosen
before. -/
theorem addEarly_eq (env : Surroundings) (early : Finset Str) (roster due : List (Dict Str Json))
    (chosen : List Str) :
    ∃ added : List (Dict Str Json), addEarly env early roster due chosen = due ++ added ∧
      added.Sublist roster ∧
      (added.map (rigIdOf env.printer)).Nodup ∧
      (∀ rig ∈ added, rigIdOf env.printer rig ∈ early ∧ rigIdOf env.printer rig ∉ chosen ∧
        stateOf env.printer rig ∈ verifiableStates) ∧
      ∀ rig ∈ roster, rigIdOf env.printer rig ∈ early →
        stateOf env.printer rig ∈ verifiableStates →
        rigIdOf env.printer rig ∈ chosen ++ added.map (rigIdOf env.printer) := by
  induction roster generalizing due chosen with
  | nil => exact ⟨[], by simp [addEarly], by simp, by simp, by simp, by simp⟩
  | cons rig roster ih =>
    rw [addEarly]
    by_cases hadd : rigIdOf env.printer rig ∈ early ∧ rigIdOf env.printer rig ∉ chosen ∧
        stateOf env.printer rig ∈ verifiableStates
    · rw [if_pos hadd]
      obtain ⟨added, heq, hsub, hnodup, hmem, hall⟩ :=
        ih (due ++ [rig]) (rigIdOf env.printer rig :: chosen)
      refine ⟨rig :: added, by simp [heq], hsub.cons_cons rig, ?_, ?_, ?_⟩
      -- what comes later was not chosen yet, so it is not this rig
      · rw [List.map_cons, List.nodup_cons]
        refine ⟨fun hrig => ?_, hnodup⟩
        obtain ⟨other, hother, hid⟩ := List.mem_map.mp hrig
        exact (hmem other hother).2.1 (by simp [hid])
      · rintro other (_ | ⟨_, hother⟩)
        · exact hadd
        · obtain ⟨hearly, hchosen, hstate⟩ := hmem other hother
          exact ⟨hearly, fun h => hchosen (List.mem_cons_of_mem _ h), hstate⟩
      · rintro other (_ | ⟨_, hother⟩) hearly hstate
        · simp
        · have := hall other hother hearly hstate
          simp only [List.cons_append, List.mem_cons, List.mem_append, List.map_cons] at this ⊢
          tauto
    · rw [if_neg hadd]
      obtain ⟨added, heq, hsub, hnodup, hmem, hall⟩ := ih due chosen
      refine ⟨added, heq, hsub.cons rig, hnodup, hmem, ?_⟩
      rintro other (_ | ⟨_, hother⟩) hearly hstate
      · by_cases hchosen : rigIdOf env.printer rig ∈ chosen
        · exact List.mem_append_left _ hchosen
        · exact absurd ⟨hearly, hchosen, hstate⟩ hadd
      · exact hall other hother hearly hstate

end Due

/-! ## Rounds -/

/-- The deep pass between two awaits, with the lane that it takes rigs from. -/
structure Scheduler where
  lane : ExpressLane
  /-- The tasks of the round that have not started yet. -/
  created : List (Dict Str Json)
  /-- The tasks that have come to the limiter. -/
  slots : Slots (Dict Str Json)
  busy : Finset Str

namespace Scheduler

/-- A validator that starts. -/
def init (maxInflight perMiner : ℤ) : Scheduler where
  lane := {}
  created := []
  slots := .init maxInflight perMiner
  busy := ∅

/-- Every task of the last round has ended, so that `gather` returns. -/
def Quiet (s : Scheduler) : Prop :=
  s.created = [] ∧ s.slots.AllLeft

instance decidableQuiet (s : Scheduler) : Decidable s.Quiet :=
  inferInstanceAs (Decidable (s.created = [] ∧ s.slots.AllLeft))

/-- A step of the validator. -/
inductive Action
  /-- A probe of the express lane ends. -/
  | probe (probe : Probe)
  /-- `run_once`, up to its `gather`. -/
  | round (answers : Answers)
  /-- The task at a place of `created` starts, and comes to the limiter. -/
  | start (k : ℕ)
  /-- It is cancelled before it has started. -/
  | drop (k : ℕ)
  /-- A task is let in by a semaphore. -/
  | enterMiner (i : ℕ)
  | enterGlobal (i : ℕ)
  /-- `verify` returns, raises or is cancelled. -/
  | leave (i : ℕ)
  /-- A task is cancelled while it waits for the limiter. -/
  | cancel (i : ℕ)

/-- A step of the limiter that ends a task: `busy.discard`. -/
def ended (s : Scheduler) (i : ℕ) (slots : Slots (Dict Str Json)) : Scheduler :=
  { s with
    slots
    busy := (s.slots.tasks[i]?).elim s.busy fun t => s.busy.erase (rigIdOf env.printer t.1) }

/-- `run_once` and `guarded`, step by step. -/
def step (s : Scheduler) : Action → Option Scheduler
  | .probe probe => some { s with lane := s.lane.probed env.printer probe }
  | .round answers =>
    -- the loop is one task: it asks again when the last `gather` has returned
    if s.Quiet then
      match dueRigs env answers s.lane with
      | (.error _, lane) => some { s with lane }
      | (.ok due, lane) =>
        some { s with lane, created := due.filter fun rig => rigIdOf env.printer rig ∉ s.busy }
    else none
  | .start k =>
    (s.created[k]?).bind fun rig =>
      (s.slots.step (DeepPass.ownerOf env.printer) (.arrive rig)).map fun slots =>
        { s with
          created := s.created.eraseIdx k
          busy := insert (rigIdOf env.printer rig) s.busy
          slots }
  | .drop k => (s.created[k]?).map fun _ => { s with created := s.created.eraseIdx k }
  | .enterMiner i =>
    (s.slots.step (DeepPass.ownerOf env.printer) (.enterMiner i)).map fun slots => { s with slots }
  | .enterGlobal i =>
    (s.slots.step (DeepPass.ownerOf env.printer) (.enterGlobal i)).map fun slots => { s with slots }
  | .leave i => (s.slots.step (DeepPass.ownerOf env.printer) (.leave i)).map (s.ended env i)
  | .cancel i => (s.slots.step (DeepPass.ownerOf env.printer) (.cancel i)).map (s.ended env i)

variable {env} {s t : Scheduler}

/-- What every step can do. -/
theorem step_cases {a : Action} (h : s.step env a = some t) :
    (∃ lane, t = { s with lane }) ∨
    (∃ answers due lane, a = .round answers ∧ s.Quiet ∧
      dueRigs env answers s.lane = (.ok due, lane) ∧
      t = { s with lane, created := due.filter fun rig => rigIdOf env.printer rig ∉ s.busy }) ∨
    (∃ k rig, a = .start k ∧ s.created[k]? = some rig ∧
      t = { s with
        created := s.created.eraseIdx k
        busy := insert (rigIdOf env.printer rig) s.busy
        slots := { s.slots with tasks := s.slots.tasks ++ [(rig, .waitingMiner)] } }) ∨
    (∃ k, a = .drop k ∧ t = { s with created := s.created.eraseIdx k }) ∨
    (∃ a slots i rig phase next, s.slots.step (DeepPass.ownerOf env.printer) a = some slots ∧
      s.slots.tasks[i]? = some (rig, phase) ∧ phase ≠ .left ∧ next ≠ .left ∧
      slots.tasks = s.slots.tasks.set i (rig, next) ∧ t = { s with slots }) ∨
    (∃ a slots i rig phase, s.slots.step (DeepPass.ownerOf env.printer) a = some slots ∧
      s.slots.tasks[i]? = some (rig, phase) ∧ phase ≠ .left ∧
      slots.tasks = s.slots.tasks.set i (rig, .left) ∧
      t = { s with slots, busy := s.busy.erase (rigIdOf env.printer rig) }) := by
  cases a with
  | probe probe => exact .inl ⟨_, (Option.some.inj h).symm⟩
  | round answers =>
    simp only [step] at h
    split_ifs at h with hquiet
    split at h
    · rename_i lane hdue
      exact .inl ⟨lane, (Option.some.inj h).symm⟩
    · rename_i due lane hdue
      exact .inr (.inl ⟨answers, due, lane, rfl, hquiet, hdue, (Option.some.inj h).symm⟩)
  | start k =>
    obtain ⟨rig, hrig, hslots⟩ := Option.bind_eq_some_iff.mp h
    obtain ⟨slots, hstep, rfl⟩ := Option.map_eq_some_iff.mp hslots
    obtain rfl := Option.some.inj hstep
    exact .inr (.inr (.inl ⟨k, rig, rfl, hrig, rfl⟩))
  | drop k =>
    obtain ⟨rig, hrig, rfl⟩ := Option.map_eq_some_iff.mp h
    exact .inr (.inr (.inr (.inl ⟨k, rfl, rfl⟩)))
  | enterMiner i =>
    obtain ⟨slots, hslots, rfl⟩ := Option.map_eq_some_iff.mp h
    obtain ⟨rig, phase, next, hi, hphase, hnext, htasks⟩ :=
      Slots.exists_of_enter _ (.inl rfl) hslots
    exact .inr (.inr (.inr (.inr (.inl
      ⟨_, slots, i, rig, phase, next, hslots, hi, hphase, hnext, htasks, rfl⟩))))
  | enterGlobal i =>
    obtain ⟨slots, hslots, rfl⟩ := Option.map_eq_some_iff.mp h
    obtain ⟨rig, phase, next, hi, hphase, hnext, htasks⟩ :=
      Slots.exists_of_enter _ (.inr rfl) hslots
    exact .inr (.inr (.inr (.inr (.inl
      ⟨_, slots, i, rig, phase, next, hslots, hi, hphase, hnext, htasks, rfl⟩))))
  | leave i =>
    obtain ⟨slots, hslots, rfl⟩ := Option.map_eq_some_iff.mp h
    obtain ⟨rig, phase, hi, hphase, htasks⟩ := Slots.exists_of_end _ (.inl rfl) hslots
    exact .inr (.inr (.inr (.inr (.inr
      ⟨_, slots, i, rig, phase, hslots, hi, hphase, htasks, by simp [ended, hi]⟩))))
  | cancel i =>
    obtain ⟨slots, hslots, rfl⟩ := Option.map_eq_some_iff.mp h
    obtain ⟨rig, phase, hi, hphase, htasks⟩ := Slots.exists_of_end _ (.inr rfl) hslots
    exact .inr (.inr (.inr (.inr (.inr
      ⟨_, slots, i, rig, phase, hslots, hi, hphase, htasks, by simp [ended, hi]⟩))))

/-! ### Marks and permits -/

/-- The limiter is balanced, and a mark belongs to a task that is under way. -/
structure Consistent (p : Printer) (total each : ℕ) (s : Scheduler) : Prop where
  slots : s.slots.Balanced (DeepPass.ownerOf p) total each
  busy : ∀ rigId ∈ s.busy, ∃ t ∈ s.slots.tasks, t.2 ≠ .left ∧ rigIdOf p t.1 = rigId

theorem consistent_init (p : Printer) (maxInflight perMiner : ℤ) :
    Consistent p (max 1 maxInflight).toNat (max 1 perMiner).toNat (init maxInflight perMiner) :=
  ⟨Slots.balanced_init maxInflight perMiner, by simp [init]⟩

/-- Every step keeps the limiter balanced and the marks on rigs under way. -/
theorem Consistent.kept {total each : ℕ} {a : Action} (hs : Consistent env.printer total each s)
    (h : s.step env a = some t) : Consistent env.printer total each t := by
  obtain ⟨lane, rfl⟩ | ⟨answers, due, lane, -, -, -, rfl⟩ | ⟨k, rig, -, -, rfl⟩ | ⟨k, -, rfl⟩ |
    ⟨a, slots, i, rig, phase, next, hslots, hi, hphase, hnext, htasks, rfl⟩ |
    ⟨a, slots, i, rig, phase, hslots, hi, hphase, htasks, rfl⟩ := step_cases h
  · exact ⟨hs.slots, hs.busy⟩
  · exact ⟨hs.slots, hs.busy⟩
  · refine ⟨hs.slots.kept (a := .arrive rig) rfl, fun rigId hid => ?_⟩
    rcases Finset.mem_insert.mp hid with rfl | hid
    · exact ⟨(rig, .waitingMiner), by simp, by simp, rfl⟩
    · obtain ⟨t, ht, hleft, hrig⟩ := hs.busy rigId hid
      exact ⟨t, List.mem_append_left _ ht, hleft, hrig⟩
  · exact ⟨hs.slots, hs.busy⟩
  · refine ⟨hs.slots.kept hslots, fun rigId hid => ?_⟩
    obtain ⟨before, behind, hsplit, hset⟩ := Tasks.exists_split hi
    obtain ⟨t, ht, hleft, hrig⟩ := hs.busy rigId hid
    simp only [htasks, hset]
    rw [hsplit] at ht
    -- the task that moves keeps its rig
    rcases List.mem_append.mp ht with ht | ht
    · exact ⟨t, List.mem_append_left _ ht, hleft, hrig⟩
    · rcases List.mem_cons.mp ht with rfl | ht
      · exact ⟨(rig, next), by simp, hnext, hrig⟩
      · exact ⟨t, by simp [ht], hleft, hrig⟩
  · refine ⟨hs.slots.kept hslots, fun rigId hid => ?_⟩
    obtain ⟨hne, hid⟩ := Finset.mem_erase.mp hid
    obtain ⟨before, behind, hsplit, hset⟩ := Tasks.exists_split hi
    obtain ⟨t, ht, hleft, hrig⟩ := hs.busy rigId hid
    simp only [htasks, hset]
    rw [hsplit] at ht
    -- the task that ends has the rig whose mark is taken away
    rcases List.mem_append.mp ht with ht | ht
    · exact ⟨t, List.mem_append_left _ ht, hleft, hrig⟩
    · rcases List.mem_cons.mp ht with rfl | ht
      · exact absurd hrig.symm hne
      · exact ⟨t, by simp [ht], hleft, hrig⟩

theorem Consistent.run {total each : ℕ} {actions : List Action}
    (hs : Consistent env.printer total each s) (h : exec (step env) s actions = some t) :
    Consistent env.printer total each t :=
  exec_invariant' (fun _ _ _ hs h => hs.kept h) hs h

/-- Between two rounds no rig is marked. -/
theorem Consistent.busy_eq_empty {p : Printer} {total each : ℕ} (hs : Consistent p total each s)
    (hquiet : s.Quiet) : s.busy = ∅ := by
  refine Finset.eq_empty_of_forall_notMem fun rigId hid => ?_
  obtain ⟨t, ht, hleft, -⟩ := hs.busy rigId hid
  exact hleft (hquiet.2 t ht)

/-- **A round begins from scratch.** In every run of the deep pass, with probes, failures of the
server and cancellations at any moment: at most `max(1, max_inflight)` rigs are being verified at
the same time, and at most `max(1, per_miner)` of one owner; and whenever the tasks of a round have
ended, no rig is marked as busy and every semaphore has its permits back, so that the next round
makes a task for each rig that is due. -/
theorem round_from_scratch {maxInflight perMiner : ℤ} {actions : List Action}
    (h : exec (step env) (init maxInflight perMiner) actions = some s) :
    (s.slots.insideCount : ℤ) ≤ max 1 maxInflight ∧
    (∀ key, (s.slots.insideOf (DeepPass.ownerOf env.printer) key : ℤ) ≤ max 1 perMiner) ∧
    (s.Quiet → s.busy = ∅ ∧ (s.slots.limiter.global : ℤ) = max 1 maxInflight ∧
      (∀ key, (s.slots.limiter.value key : ℤ) = max 1 perMiner) ∧
      ∀ answers due lane, dueRigs env answers s.lane = (.ok due, lane) →
        s.step env (.round answers) = some { s with lane, created := due }) := by
  have hs := (consistent_init env.printer maxInflight perMiner).run h
  refine ⟨?_, fun key => ?_, fun hquiet => ?_⟩
  · have hsum := hs.slots.global
    omega
  · have hle := hs.slots.insideOf_le key
    omega
  · have hbusy := hs.busy_eq_empty hquiet
    obtain ⟨hglobal, hvalue⟩ := hs.slots.full hquiet.2
    refine ⟨hbusy, by omega, fun key => ?_, fun answers due lane hdue => ?_⟩
    · have hkey := hvalue key
      omega
    · simp [step, hquiet, hdue, hbusy]

/-- A roster of three rigs, and of these the first as the one that is due. -/
def threeRigs : Answers :=
  let rig (name owner : String) : Json := .dict [("id".toList, .str name.toList),
    ("hotkey".toList, .str owner.toList), ("state".toList, .str "active".toList)]
  { roster := some [("rigs".toList, .list [rig "r1" "a", rig "r2" "b", rig "r3" "a"])]
    due := some [("rigs".toList, .list [rig "r1" "a"])]
    now := 0 }

/-- A probe of the second rig that fails. -/
def failedProbe : Probe where
  rig := [("id".toList, .str "r2".toList)]
  reply := .failed { kind := .sshTransport, detail := "no answer".toList }
  observed := 0
  recorded := 0

/-- What the server decides is due, and no text is a date. -/
def plainSurroundings : Surroundings where
  printer := Json.asciiPrinter
  isoMoment _ := none
  deepSeconds := 0

/-- The second rig fails three probes and joins the first one in a round; one is verified and the
other cancelled. -/
def oneRound : List Action :=
  [.probe failedProbe, .probe failedProbe, .probe failedProbe, .round threeRigs, .start 1, .start 0,
    .enterMiner 0, .enterMiner 1, .enterGlobal 1, .cancel 0, .leave 1]

theorem round_from_scratch_one : ∃ s : Scheduler,
    exec (step plainSurroundings) (init 1 1) oneRound = some s ∧
    (s.slots.insideCount : ℤ) ≤ max 1 1 ∧
    (∀ key, (s.slots.insideOf (DeepPass.ownerOf Json.asciiPrinter) key : ℤ) ≤ max 1 1) ∧
    (s.Quiet → s.busy = ∅ ∧ (s.slots.limiter.global : ℤ) = max 1 1 ∧
      (∀ key, (s.slots.limiter.value key : ℤ) = max 1 1) ∧
      ∀ answers due lane, dueRigs plainSurroundings answers s.lane = (.ok due, lane) →
        s.step plainSurroundings (.round answers) = some { s with lane, created := due }) := by
  have hsome : (exec (step plainSurroundings) (init 1 1) oneRound).isSome := by decide +kernel
  obtain ⟨s, hs⟩ := Option.isSome_iff_exists.mp hsome
  have hround := round_from_scratch hs
  have hprinter : plainSurroundings.printer = Json.asciiPrinter := rfl
  rw [hprinter] at hround
  exact ⟨s, hs, hround⟩

/-! ### One task for a rig -/

/-- The rigs of the tasks that have started and not ended. -/
def running (p : Printer) (s : Scheduler) : List Str :=
  (s.slots.tasks.filter (·.2 ≠ .left)).map fun t => rigIdOf p t.1

/-- The rigs of all tasks of the round that have not ended. -/
def underWay (p : Printer) (s : Scheduler) : List Str :=
  s.created.map (rigIdOf p) ++ s.running p

/-- The rigs that are due by the answers of a round, before the early ones are added. -/
def dueOf (env : Surroundings) (answers : Answers) : List (Dict Str Json) :=
  match dueBefore env answers with
  | .ok (due, _) => due
  | .error _ => []

/-- The server, or the roster, names each rig that is due once. -/
def NamesOnce (env : Surroundings) (_ : Scheduler) : Action → Prop
  | .round answers => ((dueOf env answers).map (rigIdOf env.printer)).Nodup
  | _ => True

instance decidableNamesOnce (env : Surroundings) (s : Scheduler) :
    (a : Action) → Decidable (NamesOnce env s a)
  | .round answers =>
    inferInstanceAs (Decidable ((dueOf env answers).map (rigIdOf env.printer)).Nodup)
  | .probe _ | .start _ | .drop _ | .enterMiner _ | .enterGlobal _ | .leave _ | .cancel _ =>
    isTrue trivial

/-- Each rig has one task, and the marked rigs are those whose task has started. -/
structure Single (p : Printer) (s : Scheduler) : Prop where
  nodup : (s.underWay p).Nodup
  busy : ∀ rigId, rigId ∈ s.busy ↔ rigId ∈ s.running p

/-- The rigs that are running, around one of them. -/
theorem running_of_split {p : Printer} {before behind : List (Dict Str Json × Phase)}
    {rig : Dict Str Json} {phase : Phase} (hphase : phase ≠ .left)
    (h : s.slots.tasks = before ++ (rig, phase) :: behind) :
    s.running p = ((before.filter (·.2 ≠ .left)).map fun t => rigIdOf p t.1) ++
      rigIdOf p rig :: (behind.filter (·.2 ≠ .left)).map fun t => rigIdOf p t.1 := by
  simp [running, h, hphase]

theorem running_eq_nil {p : Printer} (h : s.slots.AllLeft) : s.running p = [] := by
  simp only [running, List.map_eq_nil_iff, List.filter_eq_nil_iff]
  intro t ht
  simp [h t ht]

/-- The rigs of a round: those that were due, and more from the roster. -/
theorem dueRigs_eq_ok {answers : Answers} {lane lane' : ExpressLane} {due : List (Dict Str Json)}
    (h : dueRigs env answers lane = (.ok due, lane')) :
    ∃ roster, dueBefore env answers = .ok (dueOf env answers, roster) ∧
      lane' = lane.takeEarlyDue.2 ∧
      due = addEarly env lane.earlyDue roster (dueOf env answers)
        ((dueOf env answers).map (rigIdOf env.printer)) := by
  unfold dueRigs at h
  split at h
  · simp at h
  · rename_i base roster hbase
    simp only [Prod.mk.injEq, Except.ok.injEq] at h
    have hdue : dueOf env answers = base := by rw [dueOf, hbase]
    rw [hdue]
    exact ⟨roster, hbase, h.2.symm, h.1.symm⟩

/-- A round asks for a rig once: what is added is not among those that were due. -/
theorem nodup_due {answers : Answers} {lane lane' : ExpressLane} {due : List (Dict Str Json)}
    (hok : ((dueOf env answers).map (rigIdOf env.printer)).Nodup)
    (h : dueRigs env answers lane = (.ok due, lane')) :
    (due.map (rigIdOf env.printer)).Nodup := by
  obtain ⟨roster, -, -, rfl⟩ := dueRigs_eq_ok h
  obtain ⟨added, heq, -, hnodup, hmem, -⟩ := addEarly_eq env lane.earlyDue roster
    (dueOf env answers) ((dueOf env answers).map (rigIdOf env.printer))
  rw [heq, List.map_append]
  refine List.Nodup.append hok hnodup fun rigId hbase hadded => ?_
  obtain ⟨rig, hrig, rfl⟩ := List.mem_map.mp hadded
  exact (hmem rig hrig).2.1 hbase

/-- A task that starts takes the name of its rig from those that wait to those that run. -/
theorem Single.started {p : Printer} {k : ℕ} {rig : Dict Str Json} (hs : Single p s)
    (hrig : s.created[k]? = some rig) :
    Single p { s with
      created := s.created.eraseIdx k
      busy := insert (rigIdOf p rig) s.busy
      slots := { s.slots with tasks := s.slots.tasks ++ [(rig, .waitingMiner)] } } := by
  obtain ⟨before, behind, hsplit, herase⟩ := Tasks.exists_split_eraseIdx hrig
  have hrun : running p { s with
      created := s.created.eraseIdx k
      busy := insert (rigIdOf p rig) s.busy
      slots := { s.slots with tasks := s.slots.tasks ++ [(rig, .waitingMiner)] } } =
      s.running p ++ [rigIdOf p rig] := by
    simp [running]
  refine ⟨?_, fun rigId => ?_⟩
  · rw [underWay, hrun, herase]
    refine (List.Perm.nodup_iff ?_).mp hs.nodup
    rw [underWay, hsplit]
    simp only [List.map_append, List.map_cons, List.append_assoc, List.cons_append]
    refine List.Perm.trans List.perm_middle ?_
    have hlast := (List.perm_append_singleton (rigIdOf p rig)
      (before.map (rigIdOf p) ++ (behind.map (rigIdOf p) ++ s.running p))).symm
    simpa only [List.append_assoc] using hlast
  · rw [hrun, Finset.mem_insert, hs.busy, List.mem_append, List.mem_singleton, or_comm]

/-- A task that ends takes the mark of its rig away, which no other task has. -/
theorem Single.ended {p : Printer} {slots : Slots (Dict Str Json)} {i : ℕ} {rig : Dict Str Json}
    {phase : Phase} (hs : Single p s) (hi : s.slots.tasks[i]? = some (rig, phase))
    (hphase : phase ≠ .left) (htasks : slots.tasks = s.slots.tasks.set i (rig, .left)) :
    Single p { s with slots, busy := s.busy.erase (rigIdOf p rig) } := by
  obtain ⟨hnodup, hbusy⟩ := hs
  obtain ⟨before, behind, hsplit, hset⟩ := Tasks.exists_split hi
  have hrun := running_of_split (p := p) hphase hsplit
  have hend : running p { s with slots, busy := s.busy.erase (rigIdOf p rig) } =
      ((before.filter (·.2 ≠ .left)).map fun t => rigIdOf p t.1) ++
        (behind.filter (·.2 ≠ .left)).map fun t => rigIdOf p t.1 := by
    simp [running, htasks.trans (hset _)]
  rw [underWay, hrun] at hnodup
  rw [hrun] at hbusy
  refine ⟨?_, fun rigId => ?_⟩
  · rw [underWay, hend]
    exact hnodup.sublist ((List.Sublist.append_left (List.sublist_cons_self _ _) _).append_left _)
  · rw [hend, Finset.mem_erase, hbusy]
    have hmiddle := (List.perm_middle.nodup_iff.mp (List.nodup_append.mp hnodup).2.1)
    have hnot := (List.nodup_cons.mp hmiddle).1
    simp only [List.mem_append, List.mem_cons] at hnot ⊢
    constructor
    · rintro ⟨hne, h | h | h⟩
      exacts [.inl h, absurd h hne, .inr h]
    · rintro h
      exact ⟨fun heq => hnot (heq ▸ h), h.elim .inl fun h => .inr (.inr h)⟩

/-- Every step keeps one task for each rig. -/
theorem Single.kept {a : Action} (hs : Single env.printer s) (hok : NamesOnce env s a)
    (h : s.step env a = some t) : Single env.printer t := by
  obtain ⟨lane, rfl⟩ | ⟨answers, due, lane, rfl, hquiet, hdue, rfl⟩ | ⟨k, rig, rfl, hrig, rfl⟩ |
    ⟨k, rfl, rfl⟩ |
    ⟨a, slots, i, rig, phase, next, hslots, hi, hphase, hnext, htasks, rfl⟩ |
    ⟨a, slots, i, rig, phase, hslots, hi, hphase, htasks, rfl⟩ := step_cases h
  · exact ⟨hs.nodup, hs.busy⟩
  -- nothing is under way when a round begins
  · have hnil : running env.printer { s with
        lane, created := due.filter fun rig => rigIdOf env.printer rig ∉ s.busy } = [] :=
      running_eq_nil hquiet.2
    refine ⟨?_, ?_⟩
    · rw [underWay, hnil, List.append_nil]
      exact (nodup_due hok hdue).sublist (List.filter_sublist.map _)
    · rw [hnil]
      exact (running_eq_nil (p := env.printer) hquiet.2) ▸ hs.busy
  · exact hs.started hrig
  · refine ⟨hs.nodup.sublist ?_, hs.busy⟩
    exact ((List.eraseIdx_sublist _ k).map _).append_right _
  -- a task that moves keeps its rig
  · obtain ⟨before, behind, hsplit, hset⟩ := Tasks.exists_split hi
    have hrun : running env.printer { s with slots } = s.running env.printer := by
      rw [running_of_split hphase hsplit,
        running_of_split (s := { s with slots }) hnext (htasks.trans (hset _))]
    refine ⟨?_, fun rigId => by rw [hrun]; exact hs.busy rigId⟩
    rw [underWay, hrun]
    exact hs.nodup
  · exact hs.ended hi hphase htasks

/-- **No rig is verified twice at the same time.** In every run in which each answer of the server
names a rig that is due once: at every moment each rig has at most one task that has not ended, and
the rigs that are marked as busy are those whose task has started and not ended. -/
theorem no_rig_twice {maxInflight perMiner : ℤ} {actions : List Action}
    (hok : Meets (step env) (NamesOnce env) (init maxInflight perMiner) actions)
    (h : exec (step env) (init maxInflight perMiner) actions = some s) :
    (s.underWay env.printer).Nodup ∧
      ∀ rigId, rigId ∈ s.busy ↔ rigId ∈ s.running env.printer := by
  have hinit : Single env.printer (init maxInflight perMiner) :=
    ⟨List.nodup_nil, by simp [init, running, Slots.init]⟩
  have hs := exec_invariant (fun _ _ _ hs hok h => hs.kept hok h) hinit hok h
  exact ⟨hs.nodup, hs.busy⟩

theorem no_rig_twice_one : ∃ s : Scheduler,
    exec (step plainSurroundings) (init 1 1) oneRound = some s ∧
    (s.underWay Json.asciiPrinter).Nodup ∧
      ∀ rigId, rigId ∈ s.busy ↔ rigId ∈ s.running Json.asciiPrinter := by
  have hsome : (exec (step plainSurroundings) (init 1 1) oneRound).isSome := by decide +kernel
  obtain ⟨s, hs⟩ := Option.isSome_iff_exists.mp hsome
  have hmeets : Meets (step plainSurroundings) (NamesOnce plainSurroundings) (init 1 1)
      oneRound := by decide +kernel
  exact ⟨s, hs, no_rig_twice hmeets hs⟩

/-! ### Rigs that are due early -/

/-- What an action is to the express lane. A round takes the rigs that are due early if the server
has answered; that does not depend on the state. -/
def eventsOf (env : Surroundings) : Action → List ExpressLane.Event
  | .probe probe => [.probe probe]
  | .round answers =>
    match dueBefore env answers with
    | .ok _ => [.take]
    | .error _ => []
  | _ => []

/-- The lane sees a step as the events it is made of. -/
theorem lane_step {a : Action} (h : s.step env a = some t) :
    t.lane = (eventsOf env a).foldl (ExpressLane.step env.printer) s.lane := by
  cases a with
  | probe probe =>
    obtain rfl := Option.some.inj h
    rfl
  | round answers =>
    simp only [step] at h
    split_ifs at h
    unfold dueRigs at h
    cases hbefore : dueBefore env answers with
    | error e =>
      simp only [hbefore] at h
      obtain rfl := Option.some.inj h
      simp [eventsOf, hbefore]
    | ok due =>
      simp only [hbefore] at h
      obtain rfl := Option.some.inj h
      simp [eventsOf, hbefore, ExpressLane.step]
  | start k =>
    obtain ⟨rig, -, hslots⟩ := Option.bind_eq_some_iff.mp h
    obtain ⟨slots, -, rfl⟩ := Option.map_eq_some_iff.mp hslots
    rfl
  | drop k =>
    obtain ⟨rig, -, rfl⟩ := Option.map_eq_some_iff.mp h
    rfl
  | enterMiner i | enterGlobal i | leave i | cancel i =>
    obtain ⟨slots, -, rfl⟩ := Option.map_eq_some_iff.mp h
    rfl

/-- The lane remembers the events of the run. -/
theorem lane_exec {actions : List Action} (h : exec (step env) s actions = some t) :
    t.lane = (actions.flatMap (eventsOf env)).foldl (ExpressLane.step env.printer) s.lane := by
  induction actions generalizing s with
  | nil =>
    obtain rfl := Option.some.inj h
    rfl
  | cons a actions ih =>
    obtain ⟨u, hu, ht⟩ := exec_cons_eq_some h
    rw [ih ht, lane_step hu, List.flatMap_cons, List.foldl_append]

/-- **A rig that drops out is verified soon.** In every run of the deep pass, when a round has the
answers of the server: it makes a task for each rig that is due, and besides for each rig of the
roster that is in a verifiable state and of which, since the last such round, a probe was the third
in a row that failed; of these it makes one for each name that is not due. A round that fails leaves
everything as it was. -/
theorem early_rigs_taken {maxInflight perMiner : ℤ} {actions : List Action} {answers : Answers}
    (h : exec (step env) (init maxInflight perMiner) actions = some s)
    (hround : s.step env (.round answers) = some t) :
    (∀ e, dueBefore env answers = .error e → t = s) ∧
    ∀ due roster, dueBefore env answers = .ok (due, roster) →
      t.lane.earlyDue = ∅ ∧
      (∃ added : List (Dict Str Json), t.created = due ++ added ∧ added.Sublist roster ∧
        (added.map (rigIdOf env.printer)).Nodup ∧
        ∀ rig ∈ added, rigIdOf env.printer rig ∉ due.map (rigIdOf env.printer) ∧
          stateOf env.printer rig ∈ verifiableStates ∧
          ExpressLane.DueEarly env.printer (rigIdOf env.printer rig)
            (actions.flatMap (eventsOf env))) ∧
      ∀ rig ∈ roster, stateOf env.printer rig ∈ verifiableStates →
        ExpressLane.DueEarly env.printer (rigIdOf env.printer rig)
          (actions.flatMap (eventsOf env)) →
        rigIdOf env.printer rig ∈ t.created.map (rigIdOf env.printer) := by
  have hlane : s.lane = ExpressLane.after env.printer (actions.flatMap (eventsOf env)) :=
    lane_exec h
  have hearly (rigId : Str) : rigId ∈ s.lane.earlyDue ↔
      ExpressLane.DueEarly env.printer rigId (actions.flatMap (eventsOf env)) := by
    rw [hlane]
    exact (ExpressLane.after_eq env.printer _).2.1 rigId
  simp only [step] at hround
  split_ifs at hround with hquiet
  have hbusy := ((consistent_init env.printer maxInflight perMiner).run h).busy_eq_empty hquiet
  refine ⟨fun e he => ?_, fun due roster hok => ?_⟩
  · rw [dueRigs, he] at hround
    exact (Option.some.inj hround).symm
  · rw [dueRigs, hok] at hround
    obtain rfl := Option.some.inj hround
    obtain ⟨added, heq, hsub, hnodup, hmem, hall⟩ := addEarly_eq env s.lane.earlyDue roster
      due (due.map (rigIdOf env.printer))
    -- nothing is filtered out, since no rig is marked
    have hcreated : (addEarly env s.lane.earlyDue roster due
        (due.map (rigIdOf env.printer))).filter (fun rig => rigIdOf env.printer rig ∉ s.busy) =
        due ++ added := by
      rw [heq, hbusy]
      simp
    refine ⟨rfl, ⟨added, hcreated, hsub, hnodup, fun rig hrig => ?_⟩,
      fun rig hrig hstate hdue => ?_⟩
    · obtain ⟨hin, hchosen, hstate⟩ := hmem rig hrig
      exact ⟨hchosen, hstate, (hearly _).mp hin⟩
    · have hname := hall rig hrig ((hearly _).mpr hdue) hstate
      rw [← List.map_append, ← hcreated] at hname
      exact hname

theorem early_rigs_taken_one : ∃ s t : Scheduler,
    exec (step plainSurroundings) (init 1 1) (oneRound.take 3) = some s ∧
    s.step plainSurroundings (.round threeRigs) = some t ∧
    (∀ e, dueBefore plainSurroundings threeRigs = .error e → t = s) ∧
    ∀ due roster, dueBefore plainSurroundings threeRigs = .ok (due, roster) →
      t.lane.earlyDue = ∅ ∧
      (∃ added : List (Dict Str Json), t.created = due ++ added ∧ added.Sublist roster ∧
        (added.map (rigIdOf Json.asciiPrinter)).Nodup ∧
        ∀ rig ∈ added, rigIdOf Json.asciiPrinter rig ∉ due.map (rigIdOf Json.asciiPrinter) ∧
          stateOf Json.asciiPrinter rig ∈ verifiableStates ∧
          ExpressLane.DueEarly Json.asciiPrinter (rigIdOf Json.asciiPrinter rig)
            ((oneRound.take 3).flatMap (eventsOf plainSurroundings))) ∧
      ∀ rig ∈ roster, stateOf Json.asciiPrinter rig ∈ verifiableStates →
        ExpressLane.DueEarly Json.asciiPrinter (rigIdOf Json.asciiPrinter rig)
          ((oneRound.take 3).flatMap (eventsOf plainSurroundings)) →
        rigIdOf Json.asciiPrinter rig ∈ t.created.map (rigIdOf Json.asciiPrinter) := by
  have hsome : (exec (step plainSurroundings) (init 1 1) (oneRound.take 4)).isSome := by
    decide +kernel
  obtain ⟨t, ht⟩ := Option.isSome_iff_exists.mp hsome
  have hsplit : oneRound.take 4 = oneRound.take 3 ++ [.round threeRigs] := rfl
  rw [hsplit, exec_append] at ht
  obtain ⟨s, hs, hround⟩ := Option.bind_eq_some_iff.mp ht
  obtain ⟨u, hu, htu⟩ := exec_cons_eq_some hround
  obtain rfl := Option.some.inj htu
  exact ⟨s, u, hs, hu, early_rigs_taken hs hu⟩

end Scheduler

end ComputePool.Validator
