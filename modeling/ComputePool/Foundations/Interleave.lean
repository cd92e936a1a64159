import ComputePool.Foundations.Program

/-!
# Coroutines that take turns

The coroutines of one process share a state and take turns: the one whose command is answered runs
on to its next command, or to its end, and no other one runs meanwhile. `settle` is such a turn of
a program, and a step of a system of coroutines is `settle` on one of them.

* `Untouched`: the program never writes the shared state; so a turn of it leaves the state as it is
  (`settle_snd`), and what is left of it never writes either (`settle_fst`).
-/

namespace Program

variable {σ κ ρ ε α β : Type}

/-- Run on to the next command, or to the end: what is left of the program, and the state. -/
def settle : Program σ κ ρ α → σ → Program σ κ ρ α × σ
  | ret a, s => (ret a, s)
  | get k, s => (k s).settle s
  | put t p, _ => p.settle t
  | call c k, s => (call c k, s)

/-- A turn of two programs, of which the first one ends in this turn. -/
theorem settle_bind_of_ret {p : Program σ κ ρ α} {s t : σ} {a : α} (h : p.settle s = (ret a, t))
    (f : α → Program σ κ ρ β) : (p >>= f).settle s = (f a).settle t := by
  induction p generalizing s with
  | ret b =>
    obtain ⟨hb, rfl⟩ := Prod.mk.inj h
    obtain rfl : b = a := by simpa [settle] using hb
    rfl
  | get k ih => exact ih s h
  | put u p ih => exact ih h
  | call c k ih => cases (Prod.mk.inj h).1

/-- The program never writes the shared state. -/
def Untouched : Program σ κ ρ α → Prop
  | ret _ => True
  | get k => ∀ s, (k s).Untouched
  | put _ _ => False
  | call _ k => ∀ r, (k r).Untouched

theorem untouched_pure (a : α) : (pure a : Program σ κ ρ α).Untouched :=
  trivial

/-- Programs that leave the state alone can be run after one another. -/
theorem Untouched.bind {p : Program σ κ ρ α} {f : α → Program σ κ ρ β} (hp : p.Untouched)
    (hf : ∀ a, (f a).Untouched) : (p >>= f).Untouched := by
  induction p with
  | ret a => exact hf a
  | get k ih => exact fun s => ih s (hp s)
  | put t p ih => exact hp.elim
  | call c k ih => exact fun r => ih r (hp r)

/-- Running on to the next call leaves the state alone. -/
theorem Untouched.settle_snd {p : Program σ κ ρ α} (h : p.Untouched) (s : σ) :
    (p.settle s).2 = s := by
  induction p with
  | ret a => rfl
  | get k ih => exact ih s (h s)
  | put t p ih => exact h.elim
  | call c k ih => rfl

/-- What is left of the program leaves the state alone too. -/
theorem Untouched.settle_fst {p : Program σ κ ρ α} (h : p.Untouched) (s : σ) :
    (p.settle s).1.Untouched := by
  induction p with
  | ret a => exact h
  | get k ih => exact ih s (h s)
  | put t p ih => exact h.elim
  | call c k ih => exact h

/-- Where an exception goes past the rest, the parts are looked at one by one. -/
theorem untouched_run_bind {p : ExceptT ε (Program σ κ ρ) α}
    {f : α → ExceptT ε (Program σ κ ρ) β} (hp : p.run.Untouched)
    (hf : ∀ a, (f a).run.Untouched) : (p >>= f).run.Untouched := by
  refine Untouched.bind hp fun r => ?_
  cases r with
  | ok a => exact hf a
  | error e => exact untouched_pure _

end Program
