import ComputePool.Foundations.Dict
import ComputePool.Foundations.Tasks
import ComputePool.Foundations.Text
import ComputePool.Foundations.Transition

/-!
# The limiter of passes

`Limiter` of `validator/schedule/express.py`: a pass through `slot` first takes a permit of the
semaphore of its miner, then one of the global semaphore, and gives both back on its way out,
whether it returns, raises or is cancelled. The semaphore of a miner is made when the miner is first
seen.

The tasks that use a limiter stand in a list. A step of the system is taken by any of them; a task
that waits may be let in whenever the value of the semaphore is positive, so that the results hold
for any order in which the semaphore wakes its waiters.

* `Slots.within_limits`: how many passes there are at the same time, in all and of one miner.
* `Slots.completes`: nothing waits for ever, and every permit comes back.
-/

namespace ComputePool.Validator

open Text Transition

/-- The values of the semaphores of a `Limiter`. -/
structure Limiter where
  /-- `_per_miner`, at which the semaphore of a miner starts. -/
  perMiner : ℕ
  /-- The value of `_global`. -/
  global : ℕ
  /-- The values of the semaphores in `_miners`. -/
  miners : Dict Str ℕ
  deriving DecidableEq

/-- `owner or "-"`. -/
def slotKey (owner : Str) : Str :=
  if owner = [] then ['-'] else owner

namespace Limiter

/-- `Limiter.__init__`. -/
def new (maxInflight perMiner : ℤ) : Limiter where
  perMiner := (max 1 perMiner).toNat
  global := (max 1 maxInflight).toNat
  miners := []

/-- `_miner`: the value of the semaphore of a miner, which is made if it is not there. -/
def miner (l : Limiter) (key : Str) : ℕ × Limiter :=
  match l.miners.get? key with
  | some value => (value, l)
  | none => (l.perMiner, { l with miners := l.miners.set key l.perMiner })

/-- `acquire` of the semaphore of a miner, if it need not wait. -/
def acquireMiner (l : Limiter) (key : Str) : Option Limiter :=
  let (value, l) := l.miner key
  if value = 0 then none else some { l with miners := l.miners.set key (value - 1) }

/-- `release` of the semaphore of a miner. -/
def releaseMiner (l : Limiter) (key : Str) : Limiter :=
  let (value, l) := l.miner key
  { l with miners := l.miners.set key (value + 1) }

/-- `acquire` of the global semaphore, if it need not wait. -/
def acquireGlobal (l : Limiter) : Option Limiter :=
  if l.global = 0 then none else some { l with global := l.global - 1 }

/-- `release` of the global semaphore. -/
def releaseGlobal (l : Limiter) : Limiter :=
  { l with global := l.global + 1 }

/-- The permits that the semaphore of a miner has left, whether it was made already or not. -/
def value (l : Limiter) (key : Str) : ℕ :=
  (l.miners.get? key).getD l.perMiner

variable {l l' : Limiter} {key other : Str}

theorem miner_fst (l : Limiter) (key : Str) : (l.miner key).1 = l.value key := by
  unfold miner value
  cases l.miners.get? key <;> rfl

@[simp]
theorem global_miner (l : Limiter) (key : Str) : (l.miner key).2.global = l.global := by
  unfold miner
  cases l.miners.get? key <;> rfl

@[simp]
theorem perMiner_miner (l : Limiter) (key : Str) : (l.miner key).2.perMiner = l.perMiner := by
  unfold miner
  cases l.miners.get? key <;> rfl

/-- To make a semaphore changes no value. -/
@[simp]
theorem value_miner (l : Limiter) (key other : Str) :
    (l.miner key).2.value other = l.value other := by
  unfold miner
  cases h : l.miners.get? key with
  | some v => rfl
  | none =>
    simp only [value, Dict.get?_set]
    split_ifs with heq
    · subst heq
      simp [h]
    · rfl

/-- What `acquireMiner` does when it succeeds, and when that is. -/
theorem acquireMiner_eq_some (h : l.acquireMiner key = some l') :
    l.value key ≠ 0 ∧ l'.global = l.global ∧ l'.perMiner = l.perMiner ∧
      ∀ other, l'.value other = if other = key then l.value key - 1 else l.value other := by
  simp only [acquireMiner, miner_fst, Option.ite_none_left_eq_some, Option.some.injEq] at h
  obtain ⟨hpos, rfl⟩ := h
  refine ⟨hpos, global_miner l key, perMiner_miner l key, fun other => ?_⟩
  have hkeep := value_miner l key other
  simp only [value, Dict.get?_set, perMiner_miner] at hkeep ⊢
  split_ifs <;> simp_all

theorem acquireMiner_isSome (h : l.value key ≠ 0) : ∃ l', l.acquireMiner key = some l' := by
  simp [acquireMiner, miner_fst, h]

@[simp]
theorem global_releaseMiner (l : Limiter) (key : Str) :
    (l.releaseMiner key).global = l.global :=
  global_miner l key

@[simp]
theorem perMiner_releaseMiner (l : Limiter) (key : Str) :
    (l.releaseMiner key).perMiner = l.perMiner :=
  perMiner_miner l key

/-- A permit comes back to the owner it was taken of. -/
theorem value_releaseMiner (l : Limiter) (key other : Str) :
    (l.releaseMiner key).value other =
      if other = key then l.value key + 1 else l.value other := by
  have hkeep := value_miner l key other
  simp only [releaseMiner, miner_fst, value, Dict.get?_set, perMiner_miner] at hkeep ⊢
  split_ifs <;> simp_all

end Limiter

/-! ## Passes through the slots -/

/-- Where a task that uses `slot` stands. -/
inductive Phase
  /-- Awaiting the semaphore of its miner. -/
  | waitingMiner
  /-- Holding that one and awaiting the global one. -/
  | waitingGlobal
  /-- In the body. -/
  | inside
  /-- Out again, with nothing in its hands. -/
  | left
  deriving DecidableEq, Repr

/-- The steps a task has before it, if it is not cancelled. -/
def Phase.rank : Phase → ℕ
  | .waitingMiner => 3
  | .waitingGlobal => 2
  | .inside => 1
  | .left => 0

/-- Whether a task holds a permit of its miner. -/
def Phase.holds : Phase → Bool
  | .waitingGlobal | .inside => true
  | .waitingMiner | .left => false

/-- A limiter and the tasks that have come to `slot`, each with what it works on. -/
structure Slots (ι : Type) where
  limiter : Limiter
  tasks : List (ι × Phase)

/-- A step of one of the tasks. -/
inductive SlotAction (ι : Type)
  /-- A task comes to `slot`. -/
  | arrive (work : ι)
  /-- Task `i` gets the permit of its miner. -/
  | enterMiner (i : ℕ)
  /-- Task `i` gets the global permit and goes in. -/
  | enterGlobal (i : ℕ)
  /-- The body of task `i` returns, raises or is cancelled. -/
  | leave (i : ℕ)
  /-- Task `i` is cancelled while it waits. -/
  | cancel (i : ℕ)
  deriving Repr

/-- What a task does by itself, when nobody cancels it. -/
def SlotAction.Ordinary {ι : Type} : SlotAction ι → Prop
  | enterMiner _ | enterGlobal _ | leave _ => True
  | _ => False

namespace Slots

variable {ι : Type} (owner : ι → Str)

/-- Nobody has come yet. -/
def init (maxInflight perMiner : ℤ) : Slots ι where
  limiter := .new maxInflight perMiner
  tasks := []

/-- The key under which a task takes its first permit. -/
def keyOf (work : ι) : Str :=
  slotKey (owner work)

/-- `slot`, step by step: the semaphore of the miner first, the global one second, and both given
back in the opposite order without a wait between. -/
def step (s : Slots ι) : SlotAction ι → Option (Slots ι)
  | .arrive work => some { s with tasks := s.tasks ++ [(work, .waitingMiner)] }
  | .enterMiner i =>
    match s.tasks[i]? with
    | some (work, .waitingMiner) =>
      (s.limiter.acquireMiner (keyOf owner work)).map fun l =>
        ⟨l, s.tasks.set i (work, .waitingGlobal)⟩
    | _ => none
  | .enterGlobal i =>
    match s.tasks[i]? with
    | some (work, .waitingGlobal) =>
      s.limiter.acquireGlobal.map fun l => ⟨l, s.tasks.set i (work, .inside)⟩
    | _ => none
  | .leave i =>
    match s.tasks[i]? with
    | some (work, .inside) =>
      some ⟨s.limiter.releaseGlobal.releaseMiner (keyOf owner work), s.tasks.set i (work, .left)⟩
    | _ => none
  | .cancel i =>
    match s.tasks[i]? with
    | some (work, .waitingMiner) => some { s with tasks := s.tasks.set i (work, .left) }
    -- the permit of the miner is given back
    | some (work, .waitingGlobal) =>
      some ⟨s.limiter.releaseMiner (keyOf owner work), s.tasks.set i (work, .left)⟩
    | _ => none

/-- What every step can do. -/
theorem step_cases {s t : Slots ι} {a : SlotAction ι} (h : s.step owner a = some t) :
    (∃ work, a = .arrive work ∧ t = { s with tasks := s.tasks ++ [(work, .waitingMiner)] }) ∨
    (∃ i work l, a = .enterMiner i ∧ s.tasks[i]? = some (work, .waitingMiner) ∧
      s.limiter.acquireMiner (keyOf owner work) = some l ∧
      t = ⟨l, s.tasks.set i (work, .waitingGlobal)⟩) ∨
    (∃ i work, a = .enterGlobal i ∧ s.tasks[i]? = some (work, .waitingGlobal) ∧
      s.limiter.global ≠ 0 ∧
      t = ⟨{ s.limiter with global := s.limiter.global - 1 }, s.tasks.set i (work, .inside)⟩) ∨
    (∃ i work, a = .leave i ∧ s.tasks[i]? = some (work, .inside) ∧
      t = ⟨s.limiter.releaseGlobal.releaseMiner (keyOf owner work),
        s.tasks.set i (work, .left)⟩) ∨
    (∃ i work, a = .cancel i ∧ s.tasks[i]? = some (work, .waitingMiner) ∧
      t = { s with tasks := s.tasks.set i (work, .left) }) ∨
    (∃ i work, a = .cancel i ∧ s.tasks[i]? = some (work, .waitingGlobal) ∧
      t = ⟨s.limiter.releaseMiner (keyOf owner work), s.tasks.set i (work, .left)⟩) := by
  cases a with
  | arrive work => exact .inl ⟨work, rfl, (Option.some.inj h).symm⟩
  | enterMiner i =>
    simp only [step] at h
    split at h
    · rename_i work hi
      obtain ⟨l, hl, rfl⟩ := Option.map_eq_some_iff.mp h
      exact .inr (.inl ⟨i, work, l, rfl, hi, hl, rfl⟩)
    · cases h
  | enterGlobal i =>
    simp only [step] at h
    split at h
    · rename_i work hi
      obtain ⟨l, hl, rfl⟩ := Option.map_eq_some_iff.mp h
      simp only [Limiter.acquireGlobal, Option.ite_none_left_eq_some, Option.some.injEq] at hl
      obtain ⟨hpos, rfl⟩ := hl
      exact .inr (.inr (.inl ⟨i, work, rfl, hi, hpos, rfl⟩))
    · cases h
  | leave i =>
    simp only [step] at h
    split at h
    · rename_i work hi
      exact .inr (.inr (.inr (.inl ⟨i, work, rfl, hi, (Option.some.inj h).symm⟩)))
    · cases h
  | cancel i =>
    simp only [step] at h
    split at h
    · rename_i work hi
      exact .inr (.inr (.inr (.inr (.inl ⟨i, work, rfl, hi, (Option.some.inj h).symm⟩))))
    · rename_i work hi
      exact .inr (.inr (.inr (.inr (.inr ⟨i, work, rfl, hi, (Option.some.inj h).symm⟩))))
    · cases h

/-- A task that is let in stays under way. -/
theorem exists_of_enter {s t : Slots ι} {i : ℕ} {a : SlotAction ι}
    (ha : a = .enterMiner i ∨ a = .enterGlobal i) (h : s.step owner a = some t) :
    ∃ work phase next, s.tasks[i]? = some (work, phase) ∧ phase ≠ .left ∧ next ≠ .left ∧
      t.tasks = s.tasks.set i (work, next) := by
  rcases ha with rfl | rfl
  · simp only [step] at h
    split at h
    · rename_i work hi
      obtain ⟨l, -, rfl⟩ := Option.map_eq_some_iff.mp h
      exact ⟨work, .waitingMiner, .waitingGlobal, hi, by simp, by simp, rfl⟩
    · cases h
  · simp only [step] at h
    split at h
    · rename_i work hi
      obtain ⟨l, -, rfl⟩ := Option.map_eq_some_iff.mp h
      exact ⟨work, .waitingGlobal, .inside, hi, by simp, by simp, rfl⟩
    · cases h

/-- A task that leaves or is cancelled was under way. -/
theorem exists_of_end {s t : Slots ι} {i : ℕ} {a : SlotAction ι}
    (ha : a = .leave i ∨ a = .cancel i) (h : s.step owner a = some t) :
    ∃ work phase, s.tasks[i]? = some (work, phase) ∧ phase ≠ .left ∧
      t.tasks = s.tasks.set i (work, .left) := by
  rcases ha with rfl | rfl
  · simp only [step] at h
    split at h
    · rename_i work hi
      obtain rfl := Option.some.inj h
      exact ⟨work, .inside, hi, by simp, rfl⟩
    · cases h
  · simp only [step] at h
    split at h
    · rename_i work hi
      obtain rfl := Option.some.inj h
      exact ⟨work, .waitingMiner, hi, by simp, rfl⟩
    · rename_i work hi
      obtain rfl := Option.some.inj h
      exact ⟨work, .waitingGlobal, hi, by simp, rfl⟩
    · cases h

/-! ### Permits -/

/-- The number of passes in the body. -/
def insideCount (s : Slots ι) : ℕ :=
  s.tasks.countP fun t => t.2 = .inside

/-- The number of passes of one miner in the body. -/
def insideOf (s : Slots ι) (key : Str) : ℕ :=
  s.tasks.countP fun t => t.2 = .inside ∧ keyOf owner t.1 = key

/-- The number of permits of a miner that tasks hold. -/
def holding (s : Slots ι) (key : Str) : ℕ :=
  s.tasks.countP fun t => t.2.holds ∧ keyOf owner t.1 = key

/-- Every permit is in its semaphore or in the hands of a task: `total` of the global one, `each` of
every miner. -/
structure Balanced (total each : ℕ) (s : Slots ι) : Prop where
  perMiner : s.limiter.perMiner = each
  global : s.limiter.global + s.insideCount = total
  miners : ∀ key, s.limiter.value key + s.holding owner key = each

variable {owner} {total each : ℕ} {s t : Slots ι} {i : ℕ} {work : ι} {phase : Phase}

theorem insideCount_set (h : s.tasks[i]? = some (work, phase)) (l : Limiter) (next : Phase) :
    insideCount ⟨l, s.tasks.set i (work, next)⟩ + (if phase = .inside then 1 else 0) =
      s.insideCount + (if next = .inside then 1 else 0) := by
  simpa [insideCount] using Tasks.countP_set_add (fun t => t.2 = Phase.inside) h (work, next)

/-- The permits of an owner that are held, after one task has moved on. -/
theorem holding_set (owner : ι → Str) (h : s.tasks[i]? = some (work, phase)) (l : Limiter)
    (next : Phase) (key : Str) :
    holding owner ⟨l, s.tasks.set i (work, next)⟩ key +
        (if phase.holds ∧ keyOf owner work = key then 1 else 0) =
      s.holding owner key + (if next.holds ∧ keyOf owner work = key then 1 else 0) := by
  simpa [holding] using
    Tasks.countP_set_add (fun t => t.2.holds ∧ keyOf owner t.1 = key) h (work, next)

theorem balanced_init (maxInflight perMiner : ℤ) :
    Balanced owner (max 1 maxInflight).toNat (max 1 perMiner).toNat
      (init maxInflight perMiner) :=
  ⟨rfl, rfl, fun _ => rfl⟩

/-- A task that moves on takes and gives what its phases differ in. -/
theorem Balanced.set (hs : Balanced owner total each s) (hi : s.tasks[i]? = some (work, phase))
    {l : Limiter} {next : Phase} (hper : l.perMiner = s.limiter.perMiner)
    (hglobal : l.global + (if next = .inside then 1 else 0) =
      s.limiter.global + (if phase = .inside then 1 else 0))
    (hminers : ∀ key, l.value key + (if next.holds ∧ keyOf owner work = key then 1 else 0) =
      s.limiter.value key + (if phase.holds ∧ keyOf owner work = key then 1 else 0)) :
    Balanced owner total each ⟨l, s.tasks.set i (work, next)⟩ := by
  refine ⟨hper.trans hs.perMiner, ?_, fun key => ?_⟩
  · have hinside := insideCount_set hi l next
    have hsum := hs.global
    dsimp only
    omega
  · have hheld := holding_set owner hi l next key
    have hsum := hs.miners key
    have hkey := hminers key
    dsimp only
    omega

/-- Every step keeps the permits balanced, a cancellation included. -/
theorem Balanced.kept {a : SlotAction ι} (hs : Balanced owner total each s)
    (h : s.step owner a = some t) : Balanced owner total each t := by
  obtain ⟨work, rfl, rfl⟩ | ⟨i, work, l, rfl, hi, hl, rfl⟩ | ⟨i, work, rfl, hi, hpos, rfl⟩ |
    ⟨i, work, rfl, hi, rfl⟩ | ⟨i, work, rfl, hi, rfl⟩ | ⟨i, work, rfl, hi, rfl⟩ :=
      step_cases owner h
  -- a task that comes holds nothing
  · refine ⟨hs.perMiner, by simpa [insideCount] using hs.global, fun key => ?_⟩
    simpa [holding, Phase.holds] using hs.miners key
  · obtain ⟨hpos, hg, hp, hvalue⟩ := Limiter.acquireMiner_eq_some hl
    refine hs.set hi hp (by simp [hg]) fun key => ?_
    rw [hvalue]
    by_cases hkey : key = keyOf owner work
    · subst hkey
      simp [Phase.holds]
      omega
    · simp [Phase.holds, hkey, Ne.symm hkey]
  · refine hs.set hi rfl ?_ fun key => ?_
    · simp
      omega
    · simp [Phase.holds, Limiter.value]
  · refine hs.set hi (by simp [Limiter.releaseGlobal]) (by simp [Limiter.releaseGlobal])
      fun key => ?_
    rw [Limiter.value_releaseMiner]
    by_cases hkey : key = keyOf owner work
    · subst hkey
      simp [Phase.holds, Limiter.value, Limiter.releaseGlobal]
    · simp [Phase.holds, hkey, Ne.symm hkey, Limiter.value, Limiter.releaseGlobal]
  -- cancelled with nothing in its hands
  · exact hs.set hi rfl (by simp) fun key => by simp [Phase.holds]
  -- cancelled with the permit of its miner
  · refine hs.set hi (by simp) (by simp) fun key => ?_
    rw [Limiter.value_releaseMiner]
    by_cases hkey : key = keyOf owner work
    · subst hkey
      simp [Phase.holds]
    · simp [Phase.holds, hkey, Ne.symm hkey]

theorem Balanced.run {actions : List (SlotAction ι)} (hs : Balanced owner total each s)
    (h : exec (step owner) s actions = some t) : Balanced owner total each t :=
  exec_invariant' (fun _ _ _ hs h => hs.kept h) hs h

/-- A task in its body holds a permit of its owner. -/
theorem Balanced.insideOf_le (hs : Balanced owner total each s) (key : Str) :
    s.insideOf owner key ≤ each := by
  have hle : s.insideOf owner key ≤ s.holding owner key := by
    refine List.countP_mono_left fun t _ ht => ?_
    simp only [decide_eq_true_eq] at ht ⊢
    exact ⟨by rw [ht.1]; rfl, ht.2⟩
  have hsum := hs.miners key
  omega

/-- **The caps hold in every interleaving.** However passes come, wait, go in, return, fail and are
cancelled: at every moment at most `max(1, max_inflight)` of them are in their bodies, and at most
`max(1, per_miner)` of one owner. -/
theorem within_limits {maxInflight perMiner : ℤ} {actions : List (SlotAction ι)}
    (h : exec (step owner) (init maxInflight perMiner) actions = some s) :
    (s.insideCount : ℤ) ≤ max 1 maxInflight ∧
      ∀ key, (s.insideOf owner key : ℤ) ≤ max 1 perMiner := by
  have hs := (balanced_init maxInflight perMiner).run h
  refine ⟨?_, fun key => ?_⟩
  · have hsum := hs.global
    omega
  · have hle := hs.insideOf_le key
    omega

/-- Three passes of one miner and two of another come to two slots, one for each miner: one waits
for its miner until the first is out, and one is cancelled while it waits for a slot. -/
def fivePasses : List (SlotAction Str) :=
  [.arrive ['a'], .arrive ['a'], .enterMiner 0, .enterGlobal 0, .arrive ['b'], .arrive [],
    .enterMiner 2, .enterMiner 3, .enterGlobal 3, .cancel 2, .arrive ['b'], .leave 0,
    .enterMiner 1, .enterGlobal 1]

/-- Five passes under two slots. -/
theorem within_limits_five : ∃ s : Slots Str,
    exec (step id) (init 2 1) fivePasses = some s ∧
    ((s.insideCount : ℤ) ≤ max 1 2 ∧ ∀ key, (s.insideOf id key : ℤ) ≤ max 1 1) := by
  have hsome : (exec (step id) (init 2 1) fivePasses).isSome := by decide
  obtain ⟨s, hs⟩ := Option.isSome_iff_exists.mp hsome
  exact ⟨s, hs, within_limits hs⟩

/-! ### Progress -/

/-- Every task is out again. -/
def AllLeft (s : Slots ι) : Prop :=
  ∀ t ∈ s.tasks, t.2 = .left

instance decidableAllLeft (s : Slots ι) : Decidable s.AllLeft :=
  inferInstanceAs (Decidable (∀ t ∈ s.tasks, t.2 = .left))

/-- The steps that the tasks have before them. -/
def stepsLeft (s : Slots ι) : ℕ :=
  Tasks.weight (fun t => t.2.rank) s.tasks

/-- A task that moves on leaves fewer steps. -/
theorem stepsLeft_lt_of_set (h : s.tasks[i]? = some (work, phase)) {next : Phase}
    (ht : t.tasks = s.tasks.set i (work, next)) (hrank : next.rank < phase.rank) :
    t.stepsLeft < s.stepsLeft := by
  have hset := Tasks.weight_set (fun t : ι × Phase => t.2.rank) h (work, next)
  dsimp only at hset
  rw [stepsLeft, stepsLeft, ht]
  omega

/-- A step that no cancellation takes brings the tasks nearer to their ends. -/
theorem stepsLeft_lt {a : SlotAction ι} (ha : a.Ordinary) (h : s.step owner a = some t) :
    t.stepsLeft < s.stepsLeft := by
  obtain ⟨work, rfl, rfl⟩ | ⟨i, work, l, rfl, hi, hl, rfl⟩ | ⟨i, work, rfl, hi, hpos, rfl⟩ |
    ⟨i, work, rfl, hi, rfl⟩ | ⟨i, work, rfl, hi, rfl⟩ | ⟨i, work, rfl, hi, rfl⟩ :=
      step_cases owner h
  · exact absurd ha id
  · exact stepsLeft_lt_of_set hi rfl (by decide)
  · exact stepsLeft_lt_of_set hi rfl (by decide)
  · exact stepsLeft_lt_of_set hi rfl (by decide)
  · exact absurd ha id
  · exact absurd ha id

/-- With all tasks out, the semaphores are as they were made. -/
theorem Balanced.full (hs : Balanced owner total each s) (hleft : s.AllLeft) :
    s.limiter.global = total ∧ ∀ key, s.limiter.value key = each := by
  have hinside : s.insideCount = 0 := by
    refine List.countP_eq_zero.mpr fun t ht => ?_
    simp [hleft t ht]
  have hheld (key : Str) : s.holding owner key = 0 := by
    refine List.countP_eq_zero.mpr fun t ht => ?_
    simp [hleft t ht, Phase.holds]
  refine ⟨?_, fun key => ?_⟩
  · have hsum := hs.global
    omega
  · have hsum := hs.miners key
    have hzero := hheld key
    omega

/-- If some task counts, there is one. -/
theorem exists_phase_of_countP_pos {p : ι × Phase → Bool} (h : s.tasks.countP p ≠ 0) :
    ∃ (i : ℕ) (work : ι) (phase : Phase), s.tasks[i]? = some (work, phase) ∧ p (work, phase) := by
  obtain ⟨t, ht, hp⟩ := List.countP_pos_iff.mp (Nat.pos_of_ne_zero h)
  obtain ⟨i, hi⟩ := List.mem_iff_getElem?.mp ht
  exact ⟨i, t.1, t.2, hi, hp⟩

/-- While a task is not out, one of them can go on: one that is inside can leave; if none is, the
global semaphore has permits; and if nobody waits for that one, the miners' semaphores have. -/
theorem Balanced.progress (hs : Balanced owner total each s) (htotal : 0 < total) (heach : 0 < each)
    (hleft : ¬ s.AllLeft) : ∃ a t, SlotAction.Ordinary a ∧ s.step owner a = some t := by
  by_cases hinside : s.insideCount = 0
  · have hglobal : s.limiter.global ≠ 0 := by
      have hsum := hs.global
      omega
    by_cases hwaiting : (s.tasks.countP fun t => t.2 = .waitingGlobal) = 0
    · -- nobody holds a permit of a miner
      have hheld (key : Str) : s.holding owner key = 0 := by
        refine List.countP_eq_zero.mpr fun t ht => ?_
        have hw := List.countP_eq_zero.mp hwaiting t ht
        have hin := List.countP_eq_zero.mp hinside t ht
        simp only [decide_eq_true_eq] at hw hin ⊢
        cases hphase : t.2 <;> simp_all [Phase.holds]
      obtain ⟨t, ht, hne⟩ : ∃ t ∈ s.tasks, t.2 ≠ .left := by simpa [AllLeft] using hleft
      obtain ⟨i, hi⟩ := List.mem_iff_getElem?.mp ht
      have hphase : t.2 = .waitingMiner := by
        have hw := List.countP_eq_zero.mp hwaiting t ht
        have hin := List.countP_eq_zero.mp hinside t ht
        simp only [decide_eq_true_eq] at hw hin
        cases hphase : t.2 <;> simp_all
      have hvalue : s.limiter.value (keyOf owner t.1) ≠ 0 := by
        have hsum := hs.miners (keyOf owner t.1)
        have hzero := hheld (keyOf owner t.1)
        omega
      obtain ⟨l, hl⟩ := Limiter.acquireMiner_isSome hvalue
      have hi' : s.tasks[i]? = some (t.1, .waitingMiner) := by rw [hi, ← hphase]
      exact ⟨.enterMiner i, ⟨l, s.tasks.set i (t.1, .waitingGlobal)⟩, trivial, by
        simp [Slots.step, hi', hl]⟩
    · obtain ⟨i, work, phase, hi, hphase⟩ := exists_phase_of_countP_pos hwaiting
      obtain rfl : phase = .waitingGlobal := by simpa using hphase
      exact ⟨.enterGlobal i, _, trivial, by
        simp only [Slots.step, hi, Limiter.acquireGlobal, hglobal, ↓reduceIte, Option.map_some]
        rfl⟩
  · obtain ⟨i, work, phase, hi, hphase⟩ := exists_phase_of_countP_pos hinside
    obtain rfl : phase = .inside := by simpa using hphase
    exact ⟨.leave i, _, trivial, by
      simp only [Slots.step, hi]
      rfl⟩

/-- **Nothing waits for ever and no permit is lost.** In every state that passes can get to, by any
interleaving and any cancellations: they can all be brought to their ends without another
cancellation; however they go on, they do so in at most three steps each; until they are at their
ends, one of them can go on; and at their ends every semaphore has the permits it was made with. -/
theorem completes {maxInflight perMiner : ℤ} {actions : List (SlotAction ι)}
    (h : exec (step owner) (init maxInflight perMiner) actions = some s) :
    (∃ more u, (∀ a ∈ more, SlotAction.Ordinary a) ∧ exec (step owner) s more = some u ∧
      u.AllLeft) ∧
    ∀ more u, (∀ a ∈ more, SlotAction.Ordinary a) → exec (step owner) s more = some u →
      more.length ≤ 3 * s.tasks.length ∧
      (¬ u.AllLeft → ∃ a t, SlotAction.Ordinary a ∧ u.step owner a = some t) ∧
      (u.AllLeft → (u.limiter.global : ℤ) = max 1 maxInflight ∧
        ∀ key, (u.limiter.value key : ℤ) = max 1 perMiner) := by
  have htotal : 0 < (max 1 maxInflight).toNat := by omega
  have heach : 0 < (max 1 perMiner).toNat := by omega
  have hs := (balanced_init maxInflight perMiner).run h
  have hstep (s : Slots ι) (a : SlotAction ι) (t : Slots ι)
      (hs : Balanced owner (max 1 maxInflight).toNat (max 1 perMiner).toNat s)
      (ha : SlotAction.Ordinary a) (h : s.step owner a = some t) :
      Balanced owner (max 1 maxInflight).toNat (max 1 perMiner).toNat t ∧
        t.stepsLeft < s.stepsLeft :=
    ⟨hs.kept h, stepsLeft_lt ha h⟩
  refine ⟨exists_exec_done hstep (fun s hs hdone => hs.progress htotal heach hdone) hs, ?_⟩
  intro more u hmore hu
  obtain ⟨hbalanced, hlength⟩ := length_add_le hstep hs hmore hu
  have hrank (t : ι × Phase) : t.2.rank ≤ 3 := by cases t.2 <;> simp [Phase.rank]
  have hweight : s.stepsLeft ≤ 3 * s.tasks.length := Tasks.weight_le hrank s.tasks
  refine ⟨by omega, fun hleft => hbalanced.progress htotal heach hleft, fun hleft => ?_⟩
  obtain ⟨hglobal, hvalue⟩ := hbalanced.full hleft
  refine ⟨by omega, fun key => ?_⟩
  have hkey := hvalue key
  omega

/-- The five passes come to an end. -/
theorem completes_five : ∃ s : Slots Str,
    exec (step id) (init 2 1) fivePasses = some s ∧
    (∃ more u, (∀ a ∈ more, SlotAction.Ordinary a) ∧ exec (step id) s more = some u ∧
      u.AllLeft) ∧
    ∀ more u, (∀ a ∈ more, SlotAction.Ordinary a) → exec (step id) s more = some u →
      more.length ≤ 3 * s.tasks.length ∧
      (¬ u.AllLeft → ∃ a t, SlotAction.Ordinary a ∧ u.step id a = some t) ∧
      (u.AllLeft → (u.limiter.global : ℤ) = max 1 2 ∧
        ∀ key, (u.limiter.value key : ℤ) = max 1 1) := by
  have hsome : (exec (step id) (init 2 1) fivePasses).isSome := by decide
  obtain ⟨s, hs⟩ := Option.isSome_iff_exists.mp hsome
  exact ⟨s, hs, completes hs⟩

end Slots

end ComputePool.Validator
