import Mathlib.Data.List.Nodup
import Mathlib.Data.List.Perm.Subperm
import ComputePool.Foundations.Text
import ComputePool.Foundations.Transition

/-!
# The pool of measurements

`MetricsPool` of `agent/hardware/pool.py`. A call of `run` takes one of `in_flight` slots, hands its
function to an executor with `workers` threads, and awaits it with a timeout; whichever way the
await ends, the slot is given back. The function itself is not stopped by that: once a thread
executes it, it stays there until it returns.

* `MetricsPool.step`: calls, worker threads, timeouts and cancellations, in any order.
* `MetricsPool.executing_le_workers`: what the executor guarantees by itself.
* `MetricsPool.bounded_while_awaited`: the slots bound the executing functions as long as no call
  gives up on a function that is being executed, and when a call is turned away.
* `MetricsPool.fourth_measurement`: three calls that time out leave the slots free while their
  functions go on, and a fourth function is executed beside them.
-/

namespace ComputePool.Agent

open Text Transition

/-- `WORKERS`. -/
def workers : ℕ := 4

/-- `IN_FLIGHT`. -/
def inFlightLimit : ℕ := 3

/-- How `run` begins: it awaits its function, or it raises. -/
inductive Admission
  | awaiting
  /-- `PoolBusy`. -/
  | busy (message : Str)
  /-- The `RuntimeError` of an executor that was shut down. -/
  | closed
  deriving DecidableEq

/-- A pool whose calls have names in `ι`. -/
structure MetricsPool (ι : Type) where
  /-- The value of the semaphore. -/
  slots : ℕ
  /-- Calls whose function waits for a thread, oldest first. -/
  queue : List ι
  /-- Calls whose function is in a worker thread. -/
  executing : List ι
  /-- Calls that are awaiting their function, or about to go on after it. -/
  waiting : List ι
  inFlight : ℕ
  rejected : ℕ
  timedOut : ℕ
  /-- The executor takes no more work. -/
  closed : Bool
  deriving DecidableEq

/-- Something happens to the pool. -/
inductive PoolAction (ι : Type)
  | run (i : ι) (stage : Str)
  /-- A thread takes the oldest function of the queue. -/
  | start
  /-- A function returns or raises. -/
  | finish (i : ι)
  /-- A call goes on after its function has returned, or was dropped by `shutdown`. -/
  | resume (i : ι)
  /-- The timeout of a call runs out. -/
  | timeout (i : ι)
  /-- The task of a call is cancelled. -/
  | cancel (i : ι)
  | shutdown

namespace MetricsPool

variable {ι : Type} [DecidableEq ι]

/-- A new pool. -/
def init (limit : ℕ) : MetricsPool ι where
  slots := limit
  queue := []
  executing := []
  waiting := []
  inFlight := 0
  rejected := 0
  timedOut := 0
  closed := false

/-- The text of `PoolBusy`. -/
def busyMessage (stage : Str) : Str :=
  stage ++ ": too many measurements in flight".toList

/-- `run`, up to its await. An executor that was shut down raises before the `try`, with the slot
taken. -/
def run (s : MetricsPool ι) (i : ι) (stage : Str) : Admission × MetricsPool ι :=
  if s.slots = 0 then
    (.busy (busyMessage stage), { s with rejected := s.rejected + 1 })
  else
    let s := { s with slots := s.slots - 1, inFlight := s.inFlight + 1 }
    if s.closed then (.closed, s)
    else (.awaiting, { s with queue := s.queue ++ [i], waiting := i :: s.waiting })

/-- The `finally` of `run`. -/
def leave (s : MetricsPool ι) (i : ι) : MetricsPool ι :=
  { s with
    waiting := s.waiting.erase i
    inFlight := s.inFlight - 1
    slots := s.slots + 1 }

/-- The await of a call is broken off. A function that still waits for a thread is taken out of the
queue; one that is being executed cannot be cancelled. -/
def giveUp (s : MetricsPool ι) (i : ι) : MetricsPool ι :=
  { s with queue := s.queue.erase i }.leave i

/-- One step of the pool, its threads and its callers. -/
def step (workers : ℕ) (s : MetricsPool ι) : PoolAction ι → Option (MetricsPool ι)
  | .run i stage => if i ∈ s.waiting ∨ i ∈ s.executing then none else some (s.run i stage).2
  | .start =>
    match s.queue with
    | [] => none
    | i :: rest =>
      -- a worker is free
      if s.executing.length < workers then
        some { s with queue := rest, executing := i :: s.executing }
      else none
  | .finish i =>
    if i ∈ s.executing then some { s with executing := s.executing.erase i } else none
  | .resume i =>
    -- a caller goes on when its call is neither queued nor executing
    if i ∈ s.waiting ∧ i ∉ s.queue ∧ i ∉ s.executing then some (s.leave i) else none
  | .timeout i =>
    if i ∈ s.waiting then some ({ s with timedOut := s.timedOut + 1 }.giveUp i) else none
  | .cancel i => if i ∈ s.waiting then some (s.giveUp i) else none
  | .shutdown => some { s with queue := [], closed := true }

/-- What every step can do. -/
theorem step_cases {n : ℕ} {s t : MetricsPool ι} {a : PoolAction ι} (h : step n s a = some t) :
    (∃ i stage, a = .run i stage ∧ i ∉ s.waiting ∧ i ∉ s.executing ∧ t = (s.run i stage).2) ∨
    (∃ i rest, a = .start ∧ s.queue = i :: rest ∧ s.executing.length < n ∧
      t = { s with queue := rest, executing := i :: s.executing }) ∨
    (∃ i, a = .finish i ∧ i ∈ s.executing ∧ t = { s with executing := s.executing.erase i }) ∨
    (∃ i, a = .resume i ∧ i ∈ s.waiting ∧ i ∉ s.queue ∧ i ∉ s.executing ∧ t = s.leave i) ∨
    (∃ i, a = .timeout i ∧ i ∈ s.waiting ∧
      t = { s with timedOut := s.timedOut + 1 }.giveUp i) ∨
    (∃ i, a = .cancel i ∧ i ∈ s.waiting ∧ t = s.giveUp i) ∨
    (a = .shutdown ∧ t = { s with queue := [], closed := true }) := by
  cases a with
  | run i stage =>
    simp only [step, Option.ite_none_left_eq_some, Option.some.injEq, not_or] at h
    exact .inl ⟨i, stage, rfl, h.1.1, h.1.2, h.2.symm⟩
  | start =>
    simp only [step] at h
    split at h
    · cases h
    · rename_i i rest hqueue
      simp only [Option.ite_none_right_eq_some, Option.some.injEq] at h
      exact .inr (.inl ⟨i, rest, rfl, hqueue, h.1, h.2.symm⟩)
  | finish i =>
    simp only [step, Option.ite_none_right_eq_some, Option.some.injEq] at h
    exact .inr (.inr (.inl ⟨i, rfl, h.1, h.2.symm⟩))
  | resume i =>
    simp only [step, Option.ite_none_right_eq_some, Option.some.injEq] at h
    exact .inr (.inr (.inr (.inl ⟨i, rfl, h.1.1, h.1.2.1, h.1.2.2, h.2.symm⟩)))
  | timeout i =>
    simp only [step, Option.ite_none_right_eq_some, Option.some.injEq] at h
    exact .inr (.inr (.inr (.inr (.inl ⟨i, rfl, h.1, h.2.symm⟩))))
  | cancel i =>
    simp only [step, Option.ite_none_right_eq_some, Option.some.injEq] at h
    exact .inr (.inr (.inr (.inr (.inr (.inl ⟨i, rfl, h.1, h.2.symm⟩)))))
  | shutdown =>
    simp only [step, Option.some.injEq] at h
    exact .inr (.inr (.inr (.inr (.inr (.inr ⟨rfl, h.symm⟩)))))

omit [DecidableEq ι] in
/-- A call does not start its function itself. -/
@[simp]
theorem run_executing (s : MetricsPool ι) (i : ι) (stage : Str) :
    (s.run i stage).2.executing = s.executing := by
  unfold run
  dsimp only
  split_ifs <;> rfl

/-- In every run, the threads are what bounds the executing functions. -/
theorem executing_le_workers {n limit : ℕ} {actions : List (PoolAction ι)} {s : MetricsPool ι}
    (h : exec (step n) (init limit) actions = some s) : s.executing.length ≤ n := by
  refine exec_invariant' (I := fun s => s.executing.length ≤ n) ?_ (Nat.zero_le n) h
  intro s a t hs hstep
  obtain ⟨i, stage, rfl, -, -, rfl⟩ | ⟨i, rest, rfl, -, hroom, rfl⟩ | ⟨i, rfl, -, rfl⟩ |
    ⟨i, rfl, -, -, -, rfl⟩ | ⟨i, rfl, -, rfl⟩ | ⟨i, rfl, -, rfl⟩ | ⟨rfl, rfl⟩ := step_cases hstep
  · rwa [run_executing]
  · exact hroom
  · exact (List.length_erase_le).trans hs
  all_goals exact hs

/-! ## Slots and functions -/

/-- The slots account for the functions: a call in the queue or in a thread is awaited, and a slot
is taken for each awaiting call. A call of a pool that was shut down leaves with its slot taken. -/
structure Accounted (limit : ℕ) (s : MetricsPool ι) : Prop where
  waiting : s.waiting.Nodup
  live : (s.queue ++ s.executing).Nodup
  awaited : s.queue ++ s.executing ⊆ s.waiting
  slots : s.slots + s.waiting.length ≤ limit

/-- The step parts no function from its slot: it does not break off the await of a call whose
function is being executed. -/
def Attended (s : MetricsPool ι) : PoolAction ι → Prop
  | .timeout i => i ∉ s.executing
  | .cancel i => i ∉ s.executing
  | _ => True

instance decidableAttended (s : MetricsPool ι) : (a : PoolAction ι) → Decidable (Attended s a)
  | .timeout i => inferInstanceAs (Decidable (i ∉ s.executing))
  | .cancel i => inferInstanceAs (Decidable (i ∉ s.executing))
  | .run .. => isTrue trivial
  | .start => isTrue trivial
  | .finish _ => isTrue trivial
  | .resume _ => isTrue trivial
  | .shutdown => isTrue trivial

/-- Each of the slots belongs to a function that is being executed: none to one that waits for a
thread or has returned, and none to a call that came after `shutdown`. -/
def AllExecuting (limit : ℕ) (s : MetricsPool ι) : Prop :=
  s.waiting.length = limit ∧ ∀ i ∈ s.waiting, i ∈ s.executing

variable {limit : ℕ} {s t : MetricsPool ι} {i : ι}

omit [DecidableEq ι] in
theorem accounted_init : Accounted limit (init limit : MetricsPool ι) :=
  ⟨List.nodup_nil, List.nodup_nil, List.nil_subset _, le_refl limit⟩

omit [DecidableEq ι] in
/-- A call is turned away, leaves a pool that was shut down, or takes a slot with its function. -/
theorem Accounted.run (h : Accounted limit s) (hi : i ∉ s.waiting) (stage : Str) :
    Accounted limit (s.run i stage).2 := by
  unfold MetricsPool.run
  dsimp only
  split_ifs with hslots hshut
  · exact ⟨h.waiting, h.live, h.awaited, h.slots⟩
  · exact ⟨h.waiting, h.live, h.awaited,
      (Nat.add_le_add_right (Nat.sub_le _ _) _).trans h.slots⟩
  · have hlive : i ∉ s.queue ++ s.executing := fun hmem => hi (h.awaited hmem)
    -- the function goes to the end of the queue, which changes the order only
    have hperm : (s.queue ++ [i] ++ s.executing).Perm (i :: (s.queue ++ s.executing)) := by
      rw [List.append_assoc]
      exact List.perm_middle
    refine ⟨List.nodup_cons.mpr ⟨hi, h.waiting⟩, ?_, ?_, ?_⟩
    · exact hperm.nodup_iff.mpr (List.nodup_cons.mpr ⟨hlive, h.live⟩)
    · exact List.Subset.trans hperm.subset (List.cons_subset_cons i h.awaited)
    · have hsum := h.slots
      simp only [List.length_cons]
      omega

omit [DecidableEq ι] in
/-- A function goes from the queue to a thread. -/
theorem Accounted.start {rest : List ι} (h : Accounted limit s) (hqueue : s.queue = i :: rest) :
    Accounted limit { s with queue := rest, executing := i :: s.executing } := by
  have hperm : (rest ++ i :: s.executing).Perm (s.queue ++ s.executing) := by
    rw [hqueue]
    exact List.perm_middle
  exact ⟨h.waiting, hperm.nodup_iff.mpr h.live, List.Subset.trans hperm.subset h.awaited, h.slots⟩

/-- A function that is done leaves its thread; its call still has the slot. -/
theorem Accounted.finish (h : Accounted limit s) (i : ι) :
    Accounted limit { s with executing := s.executing.erase i } := by
  have hsub : (s.queue ++ s.executing.erase i).Sublist (s.queue ++ s.executing) :=
    List.Sublist.append_left List.erase_sublist s.queue
  exact ⟨h.waiting, h.live.sublist hsub, List.Subset.trans hsub.subset h.awaited, h.slots⟩

/-- A call whose function is neither waiting nor executing can go. -/
theorem Accounted.leave (h : Accounted limit s) (hi : i ∈ s.waiting)
    (hlive : i ∉ s.queue ++ s.executing) : Accounted limit (s.leave i) := by
  refine ⟨h.waiting.erase i, h.live, ?_, ?_⟩
  · intro j hj
    have hne : j ≠ i := fun heq => hlive (heq ▸ hj)
    exact (List.mem_erase_of_ne hne).mpr (h.awaited hj)
  · have hpos : 0 < s.waiting.length := List.length_pos_of_mem hi
    have hsum := h.slots
    simp only [MetricsPool.leave, List.length_erase_of_mem hi]
    omega

/-- A call that gives up takes its function out of the queue with it. -/
theorem Accounted.giveUp (h : Accounted limit s) (hi : i ∈ s.waiting) (hexec : i ∉ s.executing) :
    Accounted limit (s.giveUp i) := by
  have hsub : (s.queue.erase i ++ s.executing).Sublist (s.queue ++ s.executing) :=
    List.Sublist.append_right List.erase_sublist s.executing
  have hqueue : i ∉ s.queue.erase i := (List.nodup_append.mp h.live).1.not_mem_erase
  have herased : Accounted limit { s with queue := s.queue.erase i } :=
    ⟨h.waiting, h.live.sublist hsub, List.Subset.trans hsub.subset h.awaited, h.slots⟩
  exact herased.leave hi fun hmem => (List.mem_append.mp hmem).elim hqueue hexec

/-- Every step keeps the account of the slots. -/
theorem Accounted.step {n : ℕ} {a : PoolAction ι} (h : Accounted limit s) (hok : Attended s a)
    (hstep : step n s a = some t) : Accounted limit t := by
  obtain ⟨i, stage, rfl, hi, -, rfl⟩ | ⟨i, rest, rfl, hqueue, -, rfl⟩ | ⟨i, rfl, -, rfl⟩ |
    ⟨i, rfl, hi, hqueue, hexec, rfl⟩ | ⟨i, rfl, hi, rfl⟩ | ⟨i, rfl, hi, rfl⟩ | ⟨rfl, rfl⟩ :=
    step_cases hstep
  · exact h.run hi stage
  · exact h.start hqueue
  · exact h.finish i
  · exact h.leave hi fun hmem => (List.mem_append.mp hmem).elim hqueue hexec
  · have htimed : Accounted limit { s with timedOut := s.timedOut + 1 } :=
      ⟨h.waiting, h.live, h.awaited, h.slots⟩
    exact htimed.giveUp hi hok
  · exact h.giveUp hi hok
  · exact ⟨h.waiting, (List.nodup_append.mp h.live).2.1,
      fun j hj => h.awaited (List.mem_append_right _ hj), h.slots⟩

omit [DecidableEq ι] in
theorem Accounted.executing_subperm (h : Accounted limit s) : s.executing.Subperm s.waiting :=
  (List.nodup_append.mp h.live).2.1.subperm
    fun _ hj => h.awaited (List.mem_append_right _ hj)

omit [DecidableEq ι] in
/-- A call is turned away if and only if no slot is free. -/
theorem run_busy_iff (s : MetricsPool ι) (i : ι) (stage : Str) :
    (s.run i stage).1 = .busy (busyMessage stage) ↔ s.slots = 0 := by
  unfold run
  dsimp only
  split_ifs <;> simp_all

omit [DecidableEq ι] in
/-- When all slots are taken, as many functions are executed exactly if every slot is that of one.
-/
theorem Accounted.executing_eq_limit_iff (h : Accounted limit s) :
    s.executing.length = limit ↔ s.slots = 0 ∧ AllExecuting limit s := by
  have hle : s.executing.length ≤ s.waiting.length := h.executing_subperm.length_le
  have hsum := h.slots
  constructor
  · intro hlength
    -- the executed functions are awaited, so they are all that is awaited
    have hperm : s.executing.Perm s.waiting :=
      h.executing_subperm.perm_of_length_le (by omega)
    exact ⟨by omega, by omega, fun i hi => hperm.mem_iff.mpr hi⟩
  · rintro ⟨-, hall, hexecuting⟩
    have hge : s.waiting.length ≤ s.executing.length := (h.waiting.subperm hexecuting).length_le
    omega

/-- **The slots bound the measurements that are awaited.** In every run in which no call times out
or is cancelled while its function is being executed: at every moment at most `limit` functions are
being executed; and a call is turned away as busy exactly when that many are, if and only if each
slot, in case all are taken, belongs to a function that is being executed. -/
theorem bounded_while_awaited {n : ℕ} {actions : List (PoolAction ι)}
    (hok : Meets (step n) Attended (init limit) actions)
    (h : exec (step n) (init limit) actions = some s) :
    s.executing.length ≤ limit ∧
      ∀ i stage, ((s.run i stage).1 = .busy (busyMessage stage) ↔ s.executing.length = limit) ↔
        (s.slots = 0 → AllExecuting limit s) := by
  have hacc : Accounted limit s :=
    exec_invariant (fun _ _ _ hs hok hst => hs.step hok hst) accounted_init hok h
  refine ⟨?_, fun i stage => ?_⟩
  · have hle : s.executing.length ≤ s.waiting.length := hacc.executing_subperm.length_le
    have hsum := hacc.slots
    omega
  · rw [run_busy_iff, hacc.executing_eq_limit_iff, iff_self_and]

/-- One call gives up while its function waits for a thread, the function of another returns, and
three more are being executed at the end. -/
def threeMeasurements : List (PoolAction ℕ) :=
  [.run 0 [], .run 1 [], .start, .start, .run 2 [], .timeout 2, .finish 0, .resume 0, .run 3 [],
    .start, .run 4 [], .start]

theorem bounded_while_awaited_three : ∃ s : MetricsPool ℕ,
    exec (step workers) (init inFlightLimit) threeMeasurements = some s ∧
    s.executing.length ≤ inFlightLimit ∧
    ∀ i stage, (s.run i stage).1 = .busy (busyMessage stage) ↔
      s.executing.length = inFlightLimit := by
  have hall : (exec (step workers) (init inFlightLimit) threeMeasurements).map
      (fun s => (s.waiting, s.executing)) = some ([4, 3, 1], [4, 3, 1]) := by decide
  obtain ⟨s, hs, hlists⟩ := Option.map_eq_some_iff.mp hall
  obtain ⟨hwaiting, hexecuting⟩ := Prod.mk.inj hlists
  obtain ⟨hbound, hcalls⟩ := bounded_while_awaited (by decide) hs
  refine ⟨s, hs, hbound, fun i stage => (hcalls i stage).mpr fun _ => ?_⟩
  rw [AllExecuting, hwaiting, hexecuting]
  exact ⟨rfl, fun _ hi => hi⟩

/-- Three functions hang in their threads and their calls time out; a fourth call comes. -/
def hungMeasurements : List (PoolAction ℕ) :=
  [.run 0 [], .run 1 [], .run 2 [], .start, .start, .start, .timeout 0, .timeout 1, .timeout 2,
    .run 3 [], .start]

/-- After the timeouts the slots are free again while the three functions go on: the fourth call is
let in although three are being executed, and with it four are. -/
theorem fourth_measurement :
    (∃ s : MetricsPool ℕ,
      exec (step workers) (init inFlightLimit) (hungMeasurements.take 9) = some s ∧
      s.executing.length = inFlightLimit ∧ (s.run 3 []).1 ≠ .busy (busyMessage [])) ∧
    ∃ s : MetricsPool ℕ,
      exec (step workers) (init inFlightLimit) hungMeasurements = some s ∧
      ¬ s.executing.length ≤ inFlightLimit := by
  refine ⟨⟨_, rfl, by decide, by decide⟩, ⟨_, rfl, by decide⟩⟩

end MetricsPool

end ComputePool.Agent
