import Mathlib.Algebra.Order.Ring.Rat
import ComputePool.Foundations.Dict
import ComputePool.Foundations.Text
import ComputePool.Foundations.Transition

/-!
# Teardowns to be tried again

`TeardownRetries` of `validator/storage/sweep.py`: the containers whose removal failed, in a table
that is saved after every change and read again when the validator starts. `retry_teardowns` takes
the entries of one rig, tries each of them again, and forgets it or records it once more. It waits
for the rig between two entries, so passes over several rigs, and other callers of `add`, run
interleaved.

An entry belongs to a rig and a container name, but the table is keyed by the name alone.

* `Ledger.step`: the operations, with the passes under way and the pairs of rig and name that are
  due: recorded, and not reported as destroyed since.
* `Ledger.Untaken`: a step works on a name that is not pending for another rig.
* `Ledger.due_pending`: in a run of such steps nothing that is due is lost, and no step for one rig
  changes the entries of another.
-/

namespace ComputePool.Validator

open Text Transition

/-- A container to be removed. -/
structure Teardown where
  rigId : Str
  jobId : Str
  volumes : List Str
  attempts : ℕ
  recordedAt : ℚ
  deriving DecidableEq, Repr

/-- `TeardownRetries` with its file, which holds the table as it was when it was last saved; `none`
when there is no file yet. A table comes back from its JSON text as it was, and a file that is there
can be read. -/
structure TeardownRetries where
  pending : Dict Str Teardown := []
  file : Option (Dict Str Teardown) := none
  deriving DecidableEq, Repr

namespace TeardownRetries

/-- `load`. -/
def load (t : TeardownRetries) : TeardownRetries :=
  match t.file with
  | none => t
  | some saved => { t with pending := saved }

/-- `save`; when the file cannot be written it raises, and the old one stays. -/
def save (t : TeardownRetries) (written : Bool) : TeardownRetries :=
  if written then { t with file := some t.pending } else t

/-- `add` at `now`. -/
def add (t : TeardownRetries) (rigId name jobId : Str) (volumeNames : List Str) (now : ℚ)
    (written : Bool) : TeardownRetries :=
  let attempts := ((Dict.get? t.pending name).map Teardown.attempts).getD 0 + 1
  let entry := { rigId, jobId, volumes := volumeNames, attempts, recordedAt := now }
  { t with pending := Dict.set t.pending name entry }.save written

/-- `forget`. -/
def forget (t : TeardownRetries) (name : Str) (written : Bool) : TeardownRetries :=
  if name ∈ Dict.keys t.pending then
    { t with pending := Dict.pop t.pending name }.save written
  else t

/-- `for_rig`. -/
def forRig (t : TeardownRetries) (rigId : Str) : Dict Str Teardown :=
  t.pending.filter fun e => e.2.rigId = rigId

/-- The name is not pending for another rig. -/
def Owns (t : TeardownRetries) (rigId name : Str) : Prop :=
  ∀ e ∈ t.pending, e.1 = name → e.2.rigId = rigId

instance (t : TeardownRetries) (rigId name : Str) : Decidable (t.Owns rigId name) :=
  inferInstanceAs (Decidable (∀ e ∈ t.pending, e.1 = name → e.2.rigId = rigId))

@[simp]
theorem pending_save (t : TeardownRetries) (written : Bool) :
    (t.save written).pending = t.pending := by
  unfold save
  split_ifs <;> rfl

theorem file_save (t : TeardownRetries) (written : Bool) :
    (t.save written).file = if written then some t.pending else t.file := by
  unfold save
  split_ifs <;> rfl

/-- A name that is forgotten is not pending, whether or not the file was written. -/
theorem pending_forget (t : TeardownRetries) (name : Str) (written : Bool) :
    (t.forget name written).pending = Dict.pop t.pending name := by
  unfold forget
  split_ifs with hname
  · exact pending_save _ _
  · refine (List.filter_eq_self.mpr fun e he => ?_).symm
    have hne : e.1 ≠ name := fun heq => hname (Dict.mem_keys.mpr ⟨e.2, heq ▸ he⟩)
    simpa using hne

/-- The file after `forget` is the old one, or holds the table. -/
theorem file_forget (t : TeardownRetries) (name : Str) (written : Bool) :
    (t.forget name written).file = t.file ∨
      (t.forget name written).file = some (t.forget name written).pending := by
  unfold forget
  split_ifs
  · rw [file_save, pending_save]
    cases written
    · exact Or.inl rfl
    · exact Or.inr rfl
  · exact Or.inl rfl

end TeardownRetries

/-! ## Passes and other callers -/

/-- A call of `retry_teardowns` that waits for the rig: the entries it still has to try, the one
being destroyed first. -/
structure RetryPass where
  rigId : Str
  left : List (Str × Teardown)
  deriving DecidableEq, Repr

/-- The table, the passes under way, and the pairs of rig and name that are due. -/
structure Ledger where
  retries : TeardownRetries := {}
  passes : List RetryPass := []
  due : List (Str × Str) := []
  deriving DecidableEq, Repr

/-- A step of the validator that concerns the table; `written` is false where `save` raises. -/
inductive LedgerAction
  /-- A caller records a teardown. -/
  | add (rigId name jobId : Str) (volumeNames : List Str) (now : ℚ) (written : Bool)
  /-- The table is saved. -/
  | save (written : Bool)
  /-- The table is read again. -/
  | load
  /-- The validator starts anew: nothing is under way, and the table is what the file has. -/
  | restart
  /-- `retry_teardowns` begins. -/
  | begin (rigId : Str)
  /-- The container a pass waits for is reported as destroyed. -/
  | destroyed (pass : ℕ) (written : Bool)
  /-- The container a pass waits for could not be destroyed. -/
  | notDestroyed (pass : ℕ) (now : ℚ) (written : Bool)
  /-- The destruction raises, and the pass ends. -/
  | abort (pass : ℕ)
  deriving DecidableEq, Repr

namespace Ledger

/-- The pass goes on to its next entry; where saving raised, it ends. -/
def advance (passes : List RetryPass) (i : ℕ) (written : Bool) : List RetryPass :=
  if written then passes.modify i fun pass => { pass with left := pass.left.tail }
  else passes.eraseIdx i

/-- The rig and the entry a pass waits for. -/
def waiting (s : Ledger) (i : ℕ) : Option (Str × Str × Teardown) := do
  let pass ← s.passes[i]?
  let entry ← pass.left.head?
  return (pass.rigId, entry)

/-- A teardown is recorded, by a caller or by a pass. -/
def record (s : Ledger) (rigId name jobId : Str) (volumeNames : List Str) (now : ℚ)
    (written : Bool) : Ledger :=
  { s with
    retries := s.retries.add rigId name jobId volumeNames now written
    -- where `save` raised, nothing has been recorded
    due := if written then (rigId, name) :: s.due else s.due }

/-- One step. -/
def step (s : Ledger) : LedgerAction → Option Ledger
  | .add rigId name jobId volumeNames now written =>
    some (s.record rigId name jobId volumeNames now written)
  | .save written => some { s with retries := s.retries.save written }
  | .load => some { s with retries := s.retries.load }
  | .restart =>
    some { s with retries := { s.retries with pending := [] }.load, passes := [] }
  | .begin rigId =>
    some { s with passes := s.passes ++ [⟨rigId, s.retries.forRig rigId⟩] }
  | .destroyed i written =>
    match s.waiting i with
    | none => none
    | some (rigId, name, _) =>
      some { retries := s.retries.forget name written
             -- a name that is not in the table any more needs no saving
             passes := advance s.passes i (written || name ∉ Dict.keys s.retries.pending)
             due := s.due.filter (· ≠ (rigId, name)) }
  | .notDestroyed i now written =>
    match s.waiting i with
    | none => none
    | some (rigId, name, entry) =>
      some { s.record rigId name entry.jobId entry.volumes now written with
             passes := advance s.passes i written }
  | .abort i => some { s with passes := s.passes.eraseIdx i }

/-- The rig and the name a step works on. -/
def target (s : Ledger) : LedgerAction → Option (Str × Str)
  | .add rigId name _ _ _ _ => some (rigId, name)
  | .destroyed i _ => (s.waiting i).map fun w => (w.1, w.2.1)
  | .notDestroyed i _ _ => (s.waiting i).map fun w => (w.1, w.2.1)
  | _ => none

/-- The name the step works on is not pending for another rig. -/
def Untaken (s : Ledger) (a : LedgerAction) : Prop :=
  ∀ pair ∈ s.target a, s.retries.Owns pair.1 pair.2

instance (s : Ledger) (a : LedgerAction) : Decidable (s.Untaken a) :=
  inferInstanceAs (Decidable (∀ pair ∈ s.target a, s.retries.Owns pair.1 pair.2))

/-! ## Nothing that is due is lost -/

/-- The table has an entry for the pair of rig and name. -/
def Recorded (table : Dict Str Teardown) (pair : Str × Str) : Prop :=
  ∃ e ∈ table, e.1 = pair.2 ∧ e.2.rigId = pair.1

/-- What is due is in the table and in the file. -/
structure Kept (s : Ledger) : Prop where
  inTable : ∀ pair ∈ s.due, Recorded s.retries.pending pair
  inFile : ∀ pair ∈ s.due, ∃ saved, s.retries.file = some saved ∧ Recorded saved pair

section Table

variable {table : Dict Str Teardown} {pair : Str × Str} {rigId name : Str}

/-- Writing an entry keeps the entries on record, when the one it replaces was of the same rig. -/
theorem Recorded.set (h : Recorded table pair)
    (howns : ∀ e ∈ table, e.1 = name → e.2.rigId = rigId) {entry : Teardown}
    (hentry : entry.rigId = rigId) : Recorded (Dict.set table name entry) pair := by
  obtain ⟨e, he, hname, hrig⟩ := h
  by_cases heq : e.1 = name
  · -- the entry that is replaced was of the same rig
    refine ⟨(name, entry), Dict.mem_set.mpr (Or.inl rfl), heq.symm.trans hname, ?_⟩
    exact (hentry.trans (howns e he heq).symm).trans hrig
  · exact ⟨e, Dict.mem_set.mpr (Or.inr ⟨heq, he⟩), hname, hrig⟩

/-- Removing the entry of one pair keeps those of the others. -/
theorem Recorded.pop (h : Recorded table pair)
    (howns : ∀ e ∈ table, e.1 = name → e.2.rigId = rigId) (hne : pair ≠ (rigId, name)) :
    Recorded (Dict.pop table name) pair := by
  obtain ⟨e, he, hname, hrig⟩ := h
  refine ⟨e, Dict.mem_pop.mpr ⟨fun heq => hne ?_, he⟩, hname, hrig⟩
  exact Prod.ext (hrig.symm.trans (howns e he heq)) (hname.symm.trans heq)

end Table

/-- A saved table has what the table has; one that could not be saved leaves the file. -/
theorem Kept.of_save {s t : Ledger} (h : s.Kept)
    (htable : ∀ pair ∈ t.due, Recorded t.retries.pending pair)
    (hfile : t.retries.file = some t.retries.pending ∨
      t.retries.file = s.retries.file ∧ ∀ pair ∈ t.due, pair ∈ s.due) : t.Kept where
  inTable := htable
  inFile := by
    intro pair hpair
    rcases hfile with hfile | ⟨hfile, hdue⟩
    · exact ⟨_, hfile, htable pair hpair⟩
    · rw [hfile]
      exact h.inFile pair (hdue pair hpair)

/-- What is recorded and saved is due from then on. -/
theorem Kept.record {s : Ledger} (h : s.Kept) {rigId name : Str}
    (howns : s.retries.Owns rigId name) (jobId : Str) (volumeNames : List Str) (now : ℚ)
    (written : Bool) : (s.record rigId name jobId volumeNames now written).Kept := by
  have hold : ∀ pair ∈ s.due,
      Recorded (s.record rigId name jobId volumeNames now written).retries.pending pair := by
    intro pair hpair
    simp only [Ledger.record, TeardownRetries.add, TeardownRetries.pending_save]
    exact (h.inTable pair hpair).set howns rfl
  cases written with
  | false => exact h.of_save hold (Or.inr ⟨rfl, fun pair hpair => hpair⟩)
  | true =>
    refine h.of_save (fun pair hpair => ?_) (Or.inl rfl)
    rcases List.mem_cons.mp hpair with rfl | hpair
    · exact ⟨_, Dict.mem_set.mpr (Or.inl rfl), rfl, rfl⟩
    · exact hold pair hpair

/-- What was destroyed is not due any more. -/
theorem Kept.destroyed {s : Ledger} (h : s.Kept) {rigId name : Str}
    (howns : s.retries.Owns rigId name) (written : Bool) (passes : List RetryPass) :
    Kept { retries := s.retries.forget name written, passes,
           due := s.due.filter (· ≠ (rigId, name)) } := by
  refine h.of_save (fun pair hpair => ?_) ?_
  · obtain ⟨hdue, hne⟩ := List.mem_filter.mp hpair
    rw [TeardownRetries.pending_forget]
    exact (h.inTable pair hdue).pop howns (by simpa using hne)
  · rcases s.retries.file_forget name written with hfile | hfile
    · exact Or.inr ⟨hfile, fun pair hpair => List.mem_of_mem_filter hpair⟩
    · exact Or.inl hfile

/-- The passes say nothing about what is due. -/
theorem Kept.congr {s t : Ledger} (h : s.Kept) (hretries : t.retries = s.retries)
    (hdue : t.due = s.due) : t.Kept :=
  ⟨by rw [hretries, hdue]; exact h.inTable, by rw [hretries, hdue]; exact h.inFile⟩

/-- Whatever the table was, after reading the file it has what is due. -/
theorem Kept.load {s t : Ledger} (h : s.Kept) (unsaved : Dict Str Teardown)
    (hretries : t.retries = TeardownRetries.load { s.retries with pending := unsaved })
    (hdue : t.due = s.due) : t.Kept := by
  cases hfile : s.retries.file with
  | none =>
    -- nothing can be due while there is no file
    have hnone : t.due = [] := by
      rw [hdue, List.eq_nil_iff_forall_not_mem]
      intro pair hpair
      obtain ⟨saved, hsaved, -⟩ := h.inFile pair hpair
      simp [hfile] at hsaved
    constructor <;> simp [hnone]
  | some saved =>
    have hload : ∀ pair ∈ t.due, Recorded saved pair := by
      intro pair hpair
      obtain ⟨saved', hsaved', hrecorded⟩ := h.inFile pair (hdue ▸ hpair)
      rw [hfile] at hsaved'
      exact Option.some.inj hsaved' ▸ hrecorded
    constructor
    · intro pair hpair
      simpa [hretries, TeardownRetries.load, hfile] using hload pair hpair
    · intro pair hpair
      exact ⟨saved, by simp [hretries, TeardownRetries.load, hfile], hload pair hpair⟩

/-- Every step that takes no name from another rig keeps what is due. -/
theorem Kept.step {s t : Ledger} {a : LedgerAction} (h : s.Kept) (hok : s.Untaken a)
    (hst : s.step a = some t) : t.Kept := by
  -- only what is recorded or destroyed touches an entry, and then its own
  cases a with
  | add rigId name jobId volumeNames now written =>
    exact Option.some.inj hst ▸ h.record (hok (rigId, name) rfl) jobId volumeNames now written
  | save written =>
    obtain rfl := Option.some.inj hst
    refine h.of_save (by simpa using h.inTable) ?_
    cases written
    · exact Or.inr ⟨rfl, fun pair hpair => hpair⟩
    · exact Or.inl rfl
  | load => exact Option.some.inj hst ▸ h.load s.retries.pending rfl rfl
  | restart => exact Option.some.inj hst ▸ h.load [] rfl rfl
  | begin rigId => exact Option.some.inj hst ▸ h.congr rfl rfl
  | destroyed i written =>
    simp only [Ledger.step] at hst
    split at hst
    -- a failed teardown is recorded again, with the new time
    · cases hst
    · rename_i rigId name entry hwaiting
      obtain rfl := Option.some.inj hst
      exact h.destroyed (hok (rigId, name) (by simp [target, hwaiting])) written _
  | notDestroyed i now written =>
    simp only [Ledger.step] at hst
    split at hst
    · cases hst
    · rename_i rigId name entry hwaiting
      obtain rfl := Option.some.inj hst
      have howns := hok (rigId, name) (by simp [target, hwaiting])
      exact (h.record howns entry.jobId entry.volumes now written).congr rfl rfl
  | abort i => exact Option.some.inj hst ▸ h.congr rfl rfl

/-! ## Entries of other rigs -/

/-- An entry of one rig is not among those of another. -/
theorem forRig_add (t : TeardownRetries) {rigId name other : Str} (howns : t.Owns rigId name)
    (hother : other ≠ rigId) (jobId : Str) (volumeNames : List Str) (now : ℚ) (written : Bool) :
    (t.add rigId name jobId volumeNames now written).forRig other = t.forRig other := by
  simp only [TeardownRetries.forRig, TeardownRetries.add, TeardownRetries.pending_save]
  refine Dict.filter_eq_of_filter_ne_eq (k := name) (fun e he hname => ?_) (fun e he hname => ?_)
    (Dict.filter_ne_set _ _ _)
  · rcases Dict.mem_set.mp he with rfl | ⟨hne, -⟩
    · simpa using hother.symm
    · exact absurd hname hne
  · simpa [howns e he hname] using hother.symm

/-- Forgetting an entry of one rig leaves those of another. -/
theorem forRig_forget (t : TeardownRetries) {rigId name other : Str} (howns : t.Owns rigId name)
    (hother : other ≠ rigId) (written : Bool) :
    (t.forget name written).forRig other = t.forRig other := by
  simp only [TeardownRetries.forRig, TeardownRetries.pending_forget]
  refine Dict.filter_eq_of_filter_ne_eq (k := name) (fun e he hname => ?_) (fun e he hname => ?_) ?_
  · exact absurd hname (Dict.mem_pop.mp he).1
  · simpa [howns e he hname] using hother.symm
  · rw [Dict.pop, List.filter_filter]
    simp

/-- A step for one rig leaves the entries of the others. -/
theorem forRig_step {s t : Ledger} {a : LedgerAction} {rigId name other : Str}
    (htarget : s.target a = some (rigId, name)) (hok : s.Untaken a) (hother : other ≠ rigId)
    (hst : s.step a = some t) : t.retries.forRig other = s.retries.forRig other := by
  have howns : s.retries.Owns rigId name := hok _ htarget
  -- the three actions that have a target; the others have none
  cases a with
  | add r n jobId volumeNames now written =>
    obtain ⟨rfl, rfl⟩ := Prod.mk.inj (Option.some.inj htarget)
    obtain rfl := Option.some.inj hst
    exact forRig_add s.retries howns hother jobId volumeNames now written
  | destroyed i written =>
    simp only [Ledger.step] at hst
    split at hst
    · cases hst
    · rename_i r n entry hwaiting
      obtain ⟨rfl, rfl⟩ : r = rigId ∧ n = name := by simpa [target, hwaiting] using htarget
      obtain rfl := Option.some.inj hst
      exact forRig_forget s.retries howns hother written
  | notDestroyed i now written =>
    simp only [Ledger.step] at hst
    split at hst
    · cases hst
    · rename_i r n entry hwaiting
      obtain ⟨rfl, rfl⟩ : r = rigId ∧ n = name := by simpa [target, hwaiting] using htarget
      obtain rfl := Option.some.inj hst
      exact forRig_add s.retries howns hother entry.jobId entry.volumes now written
  | save => cases htarget
  | load => cases htarget
  | restart => cases htarget
  | begin => cases htarget
  | abort => cases htarget

/-- **No pending teardown is lost, while names are not shared.** In every run in which each step
works on a name that is not pending for another rig: what is due on a rig is returned by `for_rig`,
and no such step for one rig changes what `for_rig` returns for another. -/
theorem due_pending {actions : List LedgerAction} {s : Ledger}
    (hok : Meets step Untaken {} actions) (h : exec step {} actions = some s) :
    (∀ rigId name, (rigId, name) ∈ s.due → name ∈ Dict.keys (s.retries.forRig rigId)) ∧
      ∀ a t rigId name, s.target a = some (rigId, name) → s.Untaken a → s.step a = some t →
        ∀ other, other ≠ rigId → t.retries.forRig other = s.retries.forRig other := by
  have hkept : s.Kept :=
    exec_invariant (fun _ _ _ hs hok hst => hs.step hok hst) ⟨by simp, by simp⟩ hok h
  refine ⟨fun rigId name hdue => ?_, fun a t rigId name htarget hun hst other hother =>
    forRig_step htarget hun hother hst⟩
  obtain ⟨e, he, hname, hrig⟩ := hkept.inTable _ hdue
  refine Dict.mem_keys.mpr ⟨e.2, List.mem_filter.mpr ⟨?_, by simpa using hrig⟩⟩
  rw [show (name, e.2) = e from Prod.ext hname.symm rfl]
  exact he

/-- A teardown on `rigId` of the container of job 1. -/
def addJob (rigId : String) : LedgerAction :=
  .add rigId.toList "mt-1".toList "1".toList [] 0 true

/-- One rig: a teardown fails, is tried again after a restart, and fails again. -/
def retriedOnce : List LedgerAction :=
  [addJob "a", .restart, .begin "a".toList, .notDestroyed 0 60 true]

theorem due_pending_retriedOnce : ∃ s, exec step {} retriedOnce = some s ∧
    "mt-1".toList ∈ Dict.keys (s.retries.forRig "a".toList) := by
  have hsome : ((exec step {} retriedOnce).map Ledger.due) =
      some [("a".toList, "mt-1".toList), ("a".toList, "mt-1".toList)] := by decide +kernel
  obtain ⟨s, hs, hdue⟩ := Option.map_eq_some_iff.mp hsome
  exact ⟨s, hs, (due_pending (by decide +kernel) hs).1 _ _ (by simp [hdue])⟩

/-- The job is placed on a second rig while its teardown on the first one is still pending. -/
theorem shared_name_lost : ∃ s, exec step {} [addJob "a", addJob "b"] = some s ∧
    ("a".toList, "mt-1".toList) ∈ s.due ∧ s.retries.forRig "a".toList = [] := by
  have hrun : (exec step {} [addJob "a", addJob "b"]).map (fun s => (s.due,
      s.retries.forRig "a".toList)) =
        some ([("b".toList, "mt-1".toList), ("a".toList, "mt-1".toList)], []) := by
    decide +kernel
  obtain ⟨s, hs, hpair⟩ := Option.map_eq_some_iff.mp hrun
  obtain ⟨hdue, hrig⟩ := Prod.mk.inj hpair
  exact ⟨s, hs, by simp [hdue], hrig⟩

end Ledger

end ComputePool.Validator
