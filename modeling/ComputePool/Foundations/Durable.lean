import ComputePool.Foundations.Transition

/-!
# Memory kept in a file

A program keeps its memory in a file: it writes a temporary file, puts it in the place of the old
one, and reads the file when it starts. It can stop at any point of this, and what it has written of
the temporary file by then can be anything.

* `Service.step`: the steps of the program, with the crashes.
* `file_eq_saved`: the file is always the one of a whole save.
* `exec_kept`: what holds of the memory holds of it after any number of crashes, if reading what was
  saved keeps it. It can depend on how often the file was read.
-/

namespace Durable

open Transition

variable {μ α β : Type*}

/-- How a memory is written, and what is read from the file, if there is one. -/
structure Format (μ β : Type*) where
  save : μ → β
  load : Option β → μ

/-- How far a save has come. -/
inductive Phase
  | idle
  /-- The temporary file is open. -/
  | writing
  /-- The temporary file is written. -/
  | written
  deriving DecidableEq

/-- A program with its two files. -/
structure Service (μ β : Type*) where
  memory : μ
  phase : Phase := .idle
  temp : Option β := none
  file : Option β := none
  /-- The memory at the last save that was completed. -/
  saved : Option μ := none
  restarts : ℕ := 0

/-- What can happen. -/
inductive Event (α β : Type*)
  /-- The program changes its memory. -/
  | act (a : α)
  | begin
  /-- Something of the memory is in the temporary file. -/
  | write (part : β)
  | finish
  | replace
  /-- An operation on the files raises, and the program goes on without the save. -/
  | fail
  /-- The program stops and is started again. -/
  | crash

namespace Service

variable (format : Format μ β) (act : μ → α → Option μ)

/-- A program that starts without a file. -/
def start : Service μ β where
  memory := format.load none

/-- A step. The memory does not change during a save. -/
def step (s : Service μ β) : Event α β → Option (Service μ β)
  | .act a =>
    if s.phase = .idle then (act s.memory a).map fun memory => { s with memory } else none
  | .begin => if s.phase = .idle then some { s with phase := .writing } else none
  | .write part => if s.phase = .writing then some { s with temp := some part } else none
  | .finish =>
    if s.phase = .writing then
      some { s with phase := .written, temp := some (format.save s.memory) }
    else none
  | .replace =>
    if s.phase = .written then
      some { s with phase := .idle, temp := none, file := s.temp, saved := some s.memory }
    else none
  | .fail => if s.phase ≠ .idle then some { s with phase := .idle } else none
  | .crash =>
    some { s with
      memory := format.load s.file
      phase := .idle
      restarts := s.restarts + 1 }

variable {format act}

/-- The file is of a whole save, and the temporary file is of the memory once it is written. -/
structure Whole (format : Format μ β) (s : Service μ β) : Prop where
  file : s.file = s.saved.map format.save
  temp : s.phase = .written → s.temp = some (format.save s.memory)

/-- One event keeps what is on the disk readable: a save that is cut off has written only the file
beside it, and the rename takes the whole of it. -/
theorem Whole.step {s t : Service μ β} (hs : s.Whole format) {e : Event α β}
    (h : s.step format act e = some t) : t.Whole format := by
  cases e with
  | act a =>
    simp only [Service.step, Option.ite_none_right_eq_some] at h
    obtain ⟨hidle, h⟩ := h
    obtain ⟨memory, -, rfl⟩ := Option.map_eq_some_iff.mp h
    exact ⟨hs.file, fun hwritten => by simp [hidle] at hwritten⟩
  | begin =>
    simp only [Service.step, Option.ite_none_right_eq_some, Option.some.injEq] at h
    obtain ⟨-, rfl⟩ := h
    exact ⟨hs.file, nofun⟩
  | write part =>
    simp only [Service.step, Option.ite_none_right_eq_some, Option.some.injEq] at h
    obtain ⟨hwriting, rfl⟩ := h
    exact ⟨hs.file, fun hwritten => by simp [hwriting] at hwritten⟩
  | finish =>
    simp only [Service.step, Option.ite_none_right_eq_some, Option.some.injEq] at h
    obtain ⟨-, rfl⟩ := h
    exact ⟨hs.file, fun _ => rfl⟩
  | replace =>
    simp only [Service.step, Option.ite_none_right_eq_some, Option.some.injEq] at h
    obtain ⟨hwritten, rfl⟩ := h
    exact ⟨hs.temp hwritten, nofun⟩
  | fail =>
    simp only [Service.step, Option.ite_none_right_eq_some, Option.some.injEq] at h
    obtain ⟨-, rfl⟩ := h
    exact ⟨hs.file, nofun⟩
  | crash =>
    obtain rfl := Option.some.inj h
    exact ⟨hs.file, nofun⟩

/-- At every moment the file is the one of a whole save. -/
theorem file_eq_saved {events : List (Event α β)} {s : Service μ β}
    (h : exec (step format act) (start format) events = some s) :
    s.file = s.saved.map format.save := by
  have hinit : (start format).Whole format := ⟨rfl, nofun⟩
  exact (exec_invariant' (fun _ _ _ hs h => hs.step h) hinit h).file

/-- A condition on the memory before it is changed. -/
def Allows (ok : μ → α → Prop) (s : Service μ β) : Event α β → Prop
  | .act a => ok s.memory a
  | _ => True

instance decidableAllows {ok : μ → α → Prop} [∀ m a, Decidable (ok m a)] (s : Service μ β)
    (e : Event α β) : Decidable (Allows ok s e) :=
  match e with
  | .act a => inferInstanceAs (Decidable (ok s.memory a))
  | .begin | .write _ | .finish | .replace | .fail | .crash => isTrue trivial

/-- What holds of a memory that was read `k` times holds of what is read from it once more. -/
structure Kept (format : Format μ β) (act : μ → α → Option μ) (ok : μ → α → Prop)
    (I : ℕ → μ → Prop) : Prop where
  none : ∀ k, I k (format.load none)
  some : ∀ k m, I k m → I (k + 1) (format.load (some (format.save m)))
  act : ∀ k m a m', I k m → ok m a → act m a = .some m' → I k m'
  mono : ∀ k m, I k m → I (k + 1) m

/-- Of every memory there is at the end of a run holds what is kept. -/
theorem exec_kept {ok : μ → α → Prop} {I : ℕ → μ → Prop} (hI : Kept format act ok I)
    {events : List (Event α β)} {s : Service μ β}
    (hok : Meets (step format act) (Allows ok) (start format) events)
    (h : exec (step format act) (start format) events = some s) :
    I s.restarts s.memory ∧ ∀ m ∈ s.saved, I s.restarts m := by
  have hstep (s : Service μ β) (e : Event α β) (t : Service μ β)
      (hs : s.Whole format ∧ I s.restarts s.memory ∧ ∀ m ∈ s.saved, I s.restarts m)
      (hok : s.Allows ok e) (h : s.step format act e = some t) :
      t.Whole format ∧ I t.restarts t.memory ∧ ∀ m ∈ t.saved, I t.restarts m := by
    obtain ⟨hwhole, hmemory, hsaved⟩ := hs
    refine ⟨hwhole.step h, ?_⟩
    cases e with
    | act a =>
      simp only [step, Option.ite_none_right_eq_some] at h
      obtain ⟨memory, hact, rfl⟩ := Option.map_eq_some_iff.mp h.2
      exact ⟨hI.act _ _ a memory hmemory hok hact, hsaved⟩
    | replace =>
      simp only [step, Option.ite_none_right_eq_some, Option.some.injEq] at h
      obtain ⟨-, rfl⟩ := h
      exact ⟨hmemory, fun m hm => Option.some.inj hm ▸ hmemory⟩
    | crash =>
      obtain rfl := Option.some.inj h
      refine ⟨?_, fun m hm => hI.mono _ m (hsaved m hm)⟩
      -- what is read is what was saved last
      dsimp only
      rw [hwhole.file]
      cases hlast : s.saved with
      | none => exact hI.none _
      | some m => exact hI.some _ m (hsaved m hlast)
    | begin | write | finish | fail =>
      simp only [step, Option.ite_none_right_eq_some, Option.some.injEq] at h
      obtain ⟨-, rfl⟩ := h
      exact ⟨hmemory, hsaved⟩
  have hinit : (start format).Whole format ∧ I 0 (start format).memory ∧
      ∀ m ∈ (start format).saved, I 0 m :=
    ⟨⟨rfl, nofun⟩, hI.none 0, nofun⟩
  exact (exec_invariant hstep hinit hok h).2

end Service

end Durable
