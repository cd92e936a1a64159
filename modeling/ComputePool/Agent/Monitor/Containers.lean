import ComputePool.Foundations.FixedPoint
import ComputePool.Foundations.Json
import ComputePool.Foundations.Transition
import ComputePool.Foundations.Window

/-!
# The container watcher

`ContainerWatcher` of `agent/monitor/containers.py`, with the callback of `run_monitor` in
`agent/main.py`. One thread notes the faults that the kernel reports, another one reads what Docker
says of the job containers and writes an event for each. A container that dies within two minutes of
a fault is said to have died of it, so the watcher keeps the faults of the last two minutes. The two
threads meet at a lock only: the moment from which on faults count is read before it is taken.

* `ContainerWatcher.step`: the steps of the two threads. Every reading of the clock is given.
* `ContainerWatcher.Prompt`: a fault is noted within the window in which it counts.
* `records_name_last_fault`: whatever the order of the steps and however the clock moves, an event
  is written with the last fault that was noted, of all of them, since the moment it asks about.
-/

namespace ComputePool.Agent.Monitor

open Text Numeral Transition
open Json (Printer Raised field)

/-! ## Faults -/

/-- `SEVERE_XIDS`. -/
def severeXids : Dict ℤ Str :=
  [(13, "graphics engine exception".toList),
    (31, "gpu memory page fault".toList),
    (32, "invalid or corrupted push buffer stream".toList),
    (43, "gpu stopped processing".toList),
    (45, "preemptive cleanup after a hang".toList),
    (48, "double bit ecc error".toList),
    (61, "internal micro-controller breakpoint".toList),
    (62, "internal micro-controller halt".toList),
    (63, "ecc page retirement or row remap".toList),
    (64, "ecc page retirement failure".toList),
    (68, "video processor exception".toList),
    (74, "nvlink error".toList),
    (79, "gpu has fallen off the bus".toList),
    (92, "high single bit ecc error rate".toList),
    (94, "contained ecc error".toList),
    (95, "uncontained ecc error".toList),
    (119, "gsp rpc timeout".toList),
    (120, "gsp error".toList),
    (140, "unrecoverable ecc error".toList)]

/-- `KernelFault`. -/
structure KernelFault where
  kind : Str
  message : Str
  pci : Str := []
  xid : Option ℤ := none
  severe : Bool := false
  seenAt : ℚ
  deriving DecidableEq

/-- `KernelFault.payload`. -/
def KernelFault.payload (fault : KernelFault) : Dict Str Json :=
  let meaning := severeXids.get? (if fault.xid.getD 0 = 0 then -1 else fault.xid.getD 0)
  [("kind".toList, .str fault.kind), ("message".toList, .str fault.message),
    ("pci".toList, .str fault.pci), ("xid".toList, (fault.xid.map Json.int).getD .null),
    ("severe".toList, .bool fault.severe), ("meaning".toList, .str (meaning.getD [])),
    ("seen_at".toList, .float (.fin (roundTo 3 fault.seenAt)))]

/-! ## Events of containers -/

/-- `JOB_LABEL`. -/
def jobLabel : String := "mt.job"

/-- `FAULT_WINDOW_SECONDS`. -/
def faultWindowSeconds : ℚ := 120

/-- `LIFECYCLE`. -/
def lifecycle : List Str :=
  ["start".toList, "stop".toList, "restart".toList, "kill".toList, "destroy".toList, "oom".toList,
    "die".toList, "pause".toList, "unpause".toList, "create".toList]

/-- `EXIT_REASONS`. -/
def exitReasons : Dict ℤ Str :=
  [(0, "purposely_stopped".toList), (1, "application_error".toList),
    (125, "container_failed_to_run".toList), (126, "command_invoke_error".toList),
    (127, "file_or_directory_not_found".toList), (128, "invalid_argument_on_exit".toList),
    (134, "abnormal_termination".toList), (137, "immediate_termination".toList),
    (139, "segmentation_fault".toList), (143, "graceful_termination".toList),
    (255, "exit_status_out_of_range".toList)]

/-- `exit_reason`. -/
def exitReason : Option ℤ → Str
  | none => "unknown".toList
  | some code => (exitReasons.get? code).getD
      (if 255 < code then "exit_status_out_of_range".toList
        else "exit_".toList ++ Json.intText code)

/-- The dictionary under a key, or an empty one. -/
def dictAt (fields : Dict Str Json) (key : String) : Dict Str Json :=
  match fields.get? key.toList with
  | some (.dict found) => found
  | _ => []

/-- The action of an event, without what follows a colon. -/
def actionOf (p : Printer) (event : Dict Str Json) : Str :=
  ((field event "Action" (.str [])).textOr p).takeWhile (· ≠ ':')

/-- The exit code of an event: an infinite one is not caught. -/
def exitCodeOf (attributes : Dict Str Json) : Except Raised (Option ℤ) :=
  match attributes.get? "exitCode".toList with
  | none | some .null | some (.str []) => .ok none
  | some raw =>
    match raw.toInt with
    | .ok code => .ok (some code)
    | .error .typeError | .error .valueError => .ok none
    | .error e => .error e

/-- The actions that `classify` looks for a fault at. -/
def endings : List Str :=
  ["die".toList, "oom".toList, "kill".toList]

/-- `classify` up to where it asks for a fault: the record so far, and the exit code. -/
def startOf (p : Printer) (event : Dict Str Json) :
    Except Raised (Dict Str Json × Option ℤ) := do
  let actor := dictAt event "Actor"
  let attributes := dictAt actor "Attributes"
  let code ← exitCodeOf attributes
  let text (fields : Dict Str Json) (key : String) : Str := (field fields key (.str [])).textOr p
  return ([("action".toList, .str (actionOf p event)),
    ("container".toList, .str (text attributes "name")),
    ("id".toList, .str ((text actor "ID").take 12)),
    ("image".toList, .str (text attributes "image")),
    ("job".toList, .str (text attributes jobLabel))], code)

/-- The rest of `classify`, with the fault it was told of. -/
def finishOf (action : Str) (record : Dict Str Json) (code : Option ℤ)
    (fault : Option KernelFault) : Dict Str Json :=
  let record := record.set "exit_code".toList ((code.map Json.int).getD .null)
  let record := record.set "reason".toList
    (.str (if action = "oom".toList then "oom_killed".toList else exitReason code))
  let record := record.set "gpu_error".toList (.bool fault.isSome)
  match fault with
  | none => record
  | some fault =>
    (record.set "reason".toList (.str "gpu_error".toList)).set "fault".toList (.dict fault.payload)

/-- What `handle_line` goes on with: an event of a container, with an action of its life. -/
def eventOfLine (loads : Str → Option Json) (p : Printer) (line : Str) : Option (Dict Str Json) :=
  match loads (strip line) with
  | some (.dict event) =>
    let ofContainer : Bool := match field event "Type" (.str "container".toList) with
      | .str type => type = "container".toList
      | _ => false
    if ofContainer ∧ actionOf p event ∈ lifecycle then some event else none
  | _ => none

/-! ## The two threads -/

/-- What has been written for a line: the event with the record of it, the moment since which faults
counted, if it asked for one, and how many faults had been noted by then. -/
structure Written where
  action : Str
  record : Dict Str Json
  code : Option ℤ
  asked : Option (ℚ × ℕ)
  fields : Dict Str Json

/-- An event that has been asked about, up to the lock. -/
structure Asking where
  action : Str
  record : Dict Str Json
  code : Option ℤ
  since : ℚ

/-- `ContainerWatcher`, with what the threads are about, and everything noted and written so far. -/
structure ContainerWatcher where
  /-- `_faults`. -/
  faults : List KernelFault := []
  /-- A fault that was seen and is not noted yet. -/
  seen : Option KernelFault := none
  /-- An event that waits for the lock. -/
  asking : Option Asking := none
  noted : List KernelFault := []
  written : List Written := []

/-- The steps of the threads. -/
inductive Action
  /-- The kernel has reported a fault. -/
  | see (fault : KernelFault)
  /-- `note_fault`, in its lock. -/
  | note (moment : ℚ)
  /-- `handle_line`, up to the lock of `recent_fault`. -/
  | handle (line : Str) (moment : ℚ)
  /-- The rest of `handle_line`, from the lock on. -/
  | answer
  /-- `classify` has raised, and the stream is started over. -/
  | handleRaises (line : Str)

namespace ContainerWatcher

variable (loads : Str → Option Json) (p : Printer)

/-- `handle_line` at `moment`. An event that is no ending asks for no fault. -/
def handleLine (s : ContainerWatcher) (line : Str) (moment : ℚ) : Option ContainerWatcher :=
  match eventOfLine loads p line with
  | none => some s
  | some event =>
    match startOf p event with
    | .error _ => none
    | .ok (record, code) =>
      let action := actionOf p event
      if action ∈ endings then
        some { s with asking := some ⟨action, record, code, moment - faultWindowSeconds⟩ }
      else some { s with written := s.written ++ [⟨action, record, code, none, record⟩] }

/-- A step; a thread that is not there does not take it. -/
def step (s : ContainerWatcher) : Action → Option ContainerWatcher
  | .see fault => if s.seen = none then some { s with seen := some fault } else none
  | .note moment =>
    s.seen.map fun fault =>
      { s with
        faults := Window.note KernelFault.seenAt (moment - faultWindowSeconds) fault s.faults
        seen := none
        noted := s.noted ++ [fault] }
  | .handle line moment => if s.asking.isNone then s.handleLine loads p line moment else none
  | .answer =>
    s.asking.map fun event =>
      -- `recent_fault`, in its lock
      let fault := Window.lastSince KernelFault.seenAt event.since s.faults
      { s with
        asking := none
        written := s.written ++ [⟨event.action, event.record, event.code,
          some (event.since, s.noted.length),
          finishOf event.action event.record event.code fault⟩] }
  | .handleRaises line =>
    match (eventOfLine loads p line).map (startOf p) with
    | some (.error _) => if s.asking.isNone then some s else none
    | _ => none

/-- A fault is noted within the window in which it counts. -/
def Prompt (s : ContainerWatcher) : Action → Prop
  | .note moment => ∀ fault ∈ s.seen, moment - faultWindowSeconds ≤ fault.seenAt
  | _ => True

end ContainerWatcher

/-! ## What is written -/

/-- The record is the one of all faults noted before it: it says that there was one since the moment
it asks about if there was, and names the last. -/
def Written.Told (noted : List KernelFault) (w : Written) : Prop :=
  match w.asked with
  | none => w.action ∉ endings ∧ w.fields = w.record
  | some (since, n) => w.action ∈ endings ∧ n ≤ noted.length ∧
      w.fields = finishOf w.action w.record w.code
        (Window.lastSince KernelFault.seenAt since (noted.take n)) ∧
      (w.fields.get? "gpu_error".toList = some (.bool true) ↔
        ∃ fault ∈ noted.take n, since ≤ fault.seenAt)

/-- A record tells what it told when more faults are noted later. -/
theorem Written.Told.snoc {noted : List KernelFault} {w : Written} (h : w.Told noted)
    (fault : KernelFault) : w.Told (noted ++ [fault]) := by
  unfold Told at h ⊢
  split at h
  case h_1 => exact h
  case h_2 since n =>
    obtain ⟨haction, hn, hfields, herror⟩ := h
    rw [List.take_append_of_le_length hn]
    exact ⟨haction, hn.trans (by simp), hfields, herror⟩

/-- A record says whether it was told of a fault. -/
theorem get?_gpuError (action : Str) (record : Dict Str Json) (code : Option ℤ)
    (fault : Option KernelFault) :
    (finishOf action record code fault).get? "gpu_error".toList = some (.bool fault.isSome) := by
  have hreason : "gpu_error".toList ≠ "reason".toList := by decide
  have hfault : "gpu_error".toList ≠ "fault".toList := by decide
  cases fault with
  | none => exact (Dict.get?_set ..).trans (if_pos rfl)
  | some fault =>
    rw [finishOf, Dict.get?_set, if_neg hfault, Dict.get?_set, if_neg hreason, Dict.get?_set,
      if_pos rfl]

namespace ContainerWatcher

variable {loads : Str → Option Json} {p : Printer} {s t : ContainerWatcher}

/-- The faults answer for all that were noted, and every record has its answer from them. -/
structure Faithful (s : ContainerWatcher) : Prop where
  faults : Window.Faithful KernelFault.seenAt s.faults s.noted
  asking : ∀ event ∈ s.asking, event.action ∈ endings
  written : ∀ w ∈ s.written, w.Told s.noted

/-- An end of a container waits for the lock; any other event is written without a word on faults.
-/
theorem Faithful.handleLine (hs : s.Faithful) {line : Str} {moment : ℚ}
    (h : s.handleLine loads p line moment = some t) : t.Faithful := by
  unfold ContainerWatcher.handleLine at h
  split at h
  · obtain rfl := Option.some.inj h
    exact hs
  · split at h
    · cases h
    · rename_i event _ record code _
      dsimp only at h
      split_ifs at h with hending
      · obtain rfl := Option.some.inj h
        exact ⟨hs.faults, fun asked hasked => Option.some.inj hasked ▸ hending, hs.written⟩
      · obtain rfl := Option.some.inj h
        refine ⟨hs.faults, hs.asking, fun w hw => ?_⟩
        rcases List.mem_append.mp hw with hw | hw
        · exact hs.written w hw
        · rw [List.mem_singleton.mp hw]
          exact ⟨hending, rfl⟩

/-- The record that is written after the lock. -/
theorem Faithful.told (hs : s.Faithful) {event : Asking} (hevent : s.asking = some event) :
    Written.Told s.noted ⟨event.action, event.record, event.code,
      some (event.since, s.noted.length),
      finishOf event.action event.record event.code
        (Window.lastSince KernelFault.seenAt event.since s.faults)⟩ := by
  refine ⟨hs.asking event hevent, le_rfl, ?_, ?_⟩
  · rw [List.take_length, hs.faults event.since]
  · rw [get?_gpuError, hs.faults event.since, List.take_length, ← Window.lastSince_isSome_iff]
    simp

/-- Every step of either thread keeps the records faithful. -/
theorem Faithful.step {a : Action} (hs : s.Faithful) (hprompt : s.Prompt a)
    (h : s.step loads p a = some t) : t.Faithful := by
  cases a with
  | see fault =>
    simp only [ContainerWatcher.step, Option.ite_none_right_eq_some, Option.some.injEq] at h
    obtain ⟨-, rfl⟩ := h
    exact ⟨hs.faults, hs.asking, hs.written⟩
  | note moment =>
    obtain ⟨fault, hseen, rfl⟩ := Option.map_eq_some_iff.mp h
    exact ⟨Window.faithful_note hs.faults (hprompt fault hseen), hs.asking,
      fun w hw => (hs.written w hw).snoc fault⟩
  | handle line moment =>
    simp only [ContainerWatcher.step, Option.ite_none_right_eq_some] at h
    exact hs.handleLine h.2
  | answer =>
    obtain ⟨event, hevent, rfl⟩ := Option.map_eq_some_iff.mp h
    refine ⟨hs.faults, by simp, fun w hw => ?_⟩
    rcases List.mem_append.mp hw with hw | hw
    · exact hs.written w hw
    · rw [List.mem_singleton.mp hw]
      exact hs.told hevent
  | handleRaises line =>
    unfold ContainerWatcher.step at h
    dsimp only at h
    split at h
    · split_ifs at h
      obtain rfl := Option.some.inj h
      exact hs
    · cases h

/-- **A container that ends is told the last fault there was.** In every run of the two threads in
which each fault is noted within two minutes, whatever the clock reads: an event of a container that
ends says that there was a fault if and only if one that was seen since two minutes before had been
noted, and names the last of these; and an event of any other kind says nothing of faults. The
faults that were dropped on the way are not missed. -/
theorem records_name_last_fault {actions : List Action}
    (hprompt : Meets (step loads p) Prompt {} actions)
    (h : exec (step loads p) {} actions = some s) : ∀ w ∈ s.written, w.Told s.noted := by
  have hinit : Faithful {} := ⟨Window.Faithful.refl [], by simp, by simp⟩
  exact (exec_invariant (fun _ _ _ hs hok h => hs.step hok h) hinit hprompt h).written

instance (s : ContainerWatcher) (a : Action) : Decidable (s.Prompt a) :=
  match a with
  | .note moment =>
    inferInstanceAs (Decidable (∀ fault ∈ s.seen, moment - faultWindowSeconds ≤ fault.seenAt))
  | .see _ | .handle .. | .answer | .handleRaises _ => isTrue trivial

/-- Every line is the end of a container. -/
def sampleLoads (_ : Str) : Option Json :=
  some (.dict [("Action".toList, .str "die".toList)])

/-- A fault at the moment given. -/
def sampleFault (seenAt : ℚ) : KernelFault where
  kind := "fallen_off_bus".toList
  message := []
  seenAt := seenAt

/-- A container ends while the third of three faults is noted, and the first one is dropped. -/
def sampleRun : List Action :=
  [.see (sampleFault 0), .note 1, .see (sampleFault 100), .note 100, .handle [] 110,
    .see (sampleFault 200), .note 201, .answer]

theorem records_name_last_fault_sample : ∃ s, exec (step sampleLoads Json.asciiPrinter) {}
      sampleRun = some s ∧ s.faults = [sampleFault 100, sampleFault 200] ∧
    ∀ w ∈ s.written, w.Told s.noted := by
  have hfaults : (exec (step sampleLoads Json.asciiPrinter) {} sampleRun).map
      ContainerWatcher.faults = some [sampleFault 100, sampleFault 200] := by decide +kernel
  have hprompt : Meets (step sampleLoads Json.asciiPrinter) Prompt {} sampleRun := by
    decide +kernel
  obtain ⟨s, hs, hkept⟩ := Option.map_eq_some_iff.mp hfaults
  exact ⟨s, hs, hkept, records_name_last_fault hprompt hs⟩

end ContainerWatcher

end ComputePool.Agent.Monitor
