import Mathlib.Algebra.BigOperators.Group.List.Basic
import Mathlib.Algebra.GroupWithZero.Nat

/-!
# Tasks that change one at a time

The tasks of a system as a list, of which a step changes one entry or appends one. A weight of the
tasks is added up over the list; `weight_set` says how it changes with one entry, without a
subtraction. Counting the tasks in some phase is a weight too (`countP_set_add`).
-/

namespace Tasks

variable {α : Type*}

/-- The sum of a weight over the tasks. -/
def weight (w : α → ℕ) (tasks : List α) : ℕ :=
  (tasks.map w).sum

@[simp]
theorem weight_nil (w : α → ℕ) : weight w [] = 0 := rfl

@[simp]
theorem weight_cons (w : α → ℕ) (a : α) (tasks : List α) :
    weight w (a :: tasks) = w a + weight w tasks := by
  simp [weight]

@[simp]
theorem weight_append (w : α → ℕ) (tasks more : List α) :
    weight w (tasks ++ more) = weight w tasks + weight w more := by
  simp [weight]

/-- One task changes. -/
theorem weight_set (w : α → ℕ) {tasks : List α} {i : ℕ} {a : α} (h : tasks[i]? = some a) (b : α) :
    weight w (tasks.set i b) + w a = weight w tasks + w b := by
  induction tasks generalizing i with
  | nil => simp at h
  | cons c tasks ih =>
    cases i with
    | zero =>
      obtain rfl : c = a := by simpa using h
      simp only [List.set_cons_zero, weight_cons]
      omega
    | succ i =>
      have hrest := ih (i := i) (by simpa using h)
      simp only [List.set_cons_succ, weight_cons]
      omega

/-- A weight that is at most `n` for each task. -/
theorem weight_le {w : α → ℕ} {n : ℕ} (h : ∀ a, w a ≤ n) (tasks : List α) :
    weight w tasks ≤ n * tasks.length := by
  induction tasks with
  | nil => simp
  | cons a tasks ih =>
    have ha := h a
    rw [weight_cons, List.length_cons, Nat.mul_succ]
    omega

/-- Counting is a weight. -/
theorem countP_eq_weight (p : α → Bool) (tasks : List α) :
    tasks.countP p = weight (fun a => if p a then 1 else 0) tasks := by
  induction tasks with
  | nil => rfl
  | cons a tasks ih =>
    rw [List.countP_cons, weight_cons, ih, Nat.add_comm]

/-- One task changes, and the count changes by it alone. -/
theorem countP_set_add (p : α → Bool) {tasks : List α} {i : ℕ} {a : α} (h : tasks[i]? = some a)
    (b : α) :
    (tasks.set i b).countP p + (if p a then 1 else 0) =
      tasks.countP p + (if p b then 1 else 0) := by
  rw [countP_eq_weight, countP_eq_weight]
  exact weight_set _ h b

/-- The place of a task that changes. -/
theorem exists_split {tasks : List α} {i : ℕ} {a : α} (h : tasks[i]? = some a) :
    ∃ before behind, tasks = before ++ a :: behind ∧
      ∀ b, tasks.set i b = before ++ b :: behind := by
  obtain ⟨hi, rfl⟩ := List.getElem?_eq_some_iff.mp h
  refine ⟨tasks.take i, tasks.drop (i + 1), ?_, fun b => ?_⟩
  · rw [List.getElem_cons_drop, List.take_append_drop]
  · exact List.set_eq_take_append_cons_drop.trans (if_pos hi)

/-- The place of a task that is taken out. -/
theorem exists_split_eraseIdx {tasks : List α} {i : ℕ} {a : α} (h : tasks[i]? = some a) :
    ∃ before behind, tasks = before ++ a :: behind ∧ tasks.eraseIdx i = before ++ behind := by
  obtain ⟨hi, rfl⟩ := List.getElem?_eq_some_iff.mp h
  refine ⟨tasks.take i, tasks.drop (i + 1), ?_, List.eraseIdx_eq_take_drop_succ tasks i⟩
  rw [List.getElem_cons_drop, List.take_append_drop]

end Tasks
