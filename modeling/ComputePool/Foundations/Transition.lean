import Mathlib.Data.List.Infix

/-!
# Guarded transition systems

A system is given by a partial step function `step : σ → α → Option σ`; an action that is not
enabled in a state returns `none`. Runs are lists of actions, so every reachable state is the
end of some run and the states visited by a run are the ends of its prefixes.

* `exec step s as` is the state the run `as` ends in, if every action is enabled.
* `Meets step ok s as` says that each action of the run meets `ok` in the state it is taken
  from.
* `exec_invariant` derives an invariant of a whole run from one step.
* `length_add_le` and `exists_exec_done` are about actions that lower a measure: a run of them is
  no longer than the measure, and where one of them is always enabled it leads to the end.
-/

namespace Transition

variable {σ α : Type*} {step : σ → α → Option σ}

/-- The state reached from `s` by taking the actions of the list in turn. -/
def exec (step : σ → α → Option σ) (s : σ) : List α → Option σ
  | [] => some s
  | a :: as => (step s a).bind fun t => exec step t as

/-- Every action of the run meets `ok` in the state it is taken from. -/
def Meets (step : σ → α → Option σ) (ok : σ → α → Prop) : σ → List α → Prop
  | _, [] => True
  | s, a :: as => ok s a ∧ ∀ t ∈ step s a, Meets step ok t as

/-- Whether a given run meets a condition can be computed. -/
instance decidableMeets {ok : σ → α → Prop} [∀ s a, Decidable (ok s a)] :
    (s : σ) → (as : List α) → Decidable (Meets step ok s as)
  | _, [] => isTrue trivial
  | s, a :: as =>
    match h : step s a with
    | none => decidable_of_iff (ok s a) (by simp [Meets, h])
    | some t =>
      have : Decidable (Meets step ok t as) := decidableMeets t as
      decidable_of_iff (ok s a ∧ Meets step ok t as) (by simp [Meets, h])

@[simp]
theorem exec_nil (s : σ) : exec step s [] = some s := rfl

theorem exec_cons {s t : σ} {a : α} (as : List α) (h : step s a = some t) :
    exec step s (a :: as) = exec step t as := by
  simp [exec, h]

/-- A nonempty run that ends takes its first step. -/
theorem exec_cons_eq_some {s u : σ} {a : α} {as : List α}
    (h : exec step s (a :: as) = some u) :
    ∃ t, step s a = some t ∧ exec step t as = some u := by
  simpa [exec, Option.bind_eq_some_iff] using h

/-- A run can be cut anywhere. -/
theorem exec_append (s : σ) (as bs : List α) :
    exec step s (as ++ bs) = (exec step s as).bind fun t => exec step t bs := by
  induction as generalizing s with
  | nil => rfl
  | cons a as ih =>
    simp only [List.cons_append, exec, Option.bind_assoc]
    congr 1
    funext t
    exact ih t

/-- An invariant kept by every step that meets `ok` holds at the end of every run whose
steps all meet `ok`. -/
theorem exec_invariant {ok : σ → α → Prop} {I : σ → Prop}
    (hstep : ∀ s a t, I s → ok s a → step s a = some t → I t) {s u : σ} {as : List α}
    (hs : I s) (hok : Meets step ok s as) (h : exec step s as = some u) : I u := by
  induction as generalizing s with
  | nil => exact Option.some.inj h ▸ hs
  | cons a as ih =>
    obtain ⟨t, hst, htu⟩ := exec_cons_eq_some h
    exact ih (hstep s a t hs hok.1 hst) (hok.2 t hst) htu

/-- An invariant kept by every step holds at the end of every run. -/
theorem exec_invariant' {I : σ → Prop} (hstep : ∀ s a t, I s → step s a = some t → I t)
    {s u : σ} {as : List α} (hs : I s) (h : exec step s as = some u) : I u := by
  induction as generalizing s with
  | nil => exact Option.some.inj h ▸ hs
  | cons a as ih =>
    obtain ⟨t, hst, htu⟩ := exec_cons_eq_some h
    exact ih (hstep s a t hs hst) htu

/-! ## Progress -/

section Progress

variable {P : α → Prop} {I : σ → Prop} {μ : σ → ℕ}

/-- A run of actions that each lower a measure is no longer than the measure. -/
theorem length_add_le (hstep : ∀ s a t, I s → P a → step s a = some t → I t ∧ μ t < μ s)
    {s u : σ} {as : List α} (hs : I s) (hP : ∀ a ∈ as, P a) (h : exec step s as = some u) :
    I u ∧ μ u + as.length ≤ μ s := by
  induction as generalizing s with
  | nil =>
    obtain rfl := Option.some.inj h
    exact ⟨hs, le_rfl⟩
  | cons a as ih =>
    obtain ⟨t, hst, htu⟩ := exec_cons_eq_some h
    obtain ⟨ht, hlt⟩ := hstep s a t hs (hP a (by simp)) hst
    obtain ⟨hu, hle⟩ := ih ht (fun b hb => hP b (by simp [hb])) htu
    refine ⟨hu, ?_⟩
    rw [List.length_cons]
    omega

/-- Where some action that lowers the measure is enabled until the system is done, a run of such
actions gets it done. -/
theorem exists_exec_done {Done : σ → Prop}
    (hstep : ∀ s a t, I s → P a → step s a = some t → I t ∧ μ t < μ s)
    (hprogress : ∀ s, I s → ¬ Done s → ∃ a t, P a ∧ step s a = some t) {s : σ} (hs : I s) :
    ∃ as u, (∀ a ∈ as, P a) ∧ exec step s as = some u ∧ Done u := by
  by_cases hdone : Done s
  · exact ⟨[], s, by simp, rfl, hdone⟩
  · obtain ⟨a, t, ha, hst⟩ := hprogress s hs hdone
    obtain ⟨ht, hlt⟩ := hstep s a t hs ha hst
    obtain ⟨as, u, has, htu, hu⟩ := exists_exec_done hstep hprogress ht
    exact ⟨a :: as, u, List.forall_mem_cons.mpr ⟨ha, has⟩, (exec_cons as hst).trans htu, hu⟩
termination_by μ s

end Progress

end Transition
