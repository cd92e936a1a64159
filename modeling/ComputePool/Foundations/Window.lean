import Mathlib.Data.List.Basic
import Mathlib.Order.Lattice

/-!
# A pruned history

Items are noted one after another, each with a time, and at each note what is older than a cutoff is
forgotten. What was the last item since some moment can still be told: as long as no item is noted
so late that it is forgotten at once, the answer is the one of the whole history, for every moment
and whatever the cutoffs were.

* `since`: the items from a moment on.
* `note`: an item is added, and what is too old is dropped.
* `Faithful`: the last item since any moment is the same as in the history.
* `faithful_note`: noting an item in time keeps it.
-/

namespace Window

variable {α τ : Type*} [LinearOrder τ] (time : α → τ)

/-- The items since a moment. -/
def since (moment : τ) (items : List α) : List α :=
  items.filter fun x => moment ≤ time x

/-- The last item since a moment. -/
def lastSince (moment : τ) (items : List α) : Option α :=
  (since time moment items).getLast?

/-- An item is added, and what is older than the cutoff is forgotten. -/
def note (cutoff : τ) (x : α) (items : List α) : List α :=
  since time cutoff (items ++ [x])

variable {time}

theorem since_append (moment : τ) (items more : List α) :
    since time moment (items ++ more) = since time moment items ++ since time moment more :=
  List.filter_append ..

/-- Since a moment after the cutoff nothing is missing. -/
theorem since_since {cutoff moment : τ} (h : cutoff ≤ moment) (items : List α) :
    since time moment (since time cutoff items) = since time moment items := by
  rw [since, since, since, List.filter_filter]
  refine List.filter_congr fun x _ => ?_
  by_cases hx : moment ≤ time x
  · simp [hx, le_trans h hx]
  · simp [hx]

theorem lastSince_append_of_le {moment : τ} {x : α} (h : moment ≤ time x) (items : List α) :
    lastSince time moment (items ++ [x]) = some x := by
  have hx : since time moment [x] = [x] := by simp [since, h]
  rw [lastSince, since_append, hx, List.getLast?_concat]

theorem lastSince_append_of_lt {moment : τ} {x : α} (h : time x < moment) (items : List α) :
    lastSince time moment (items ++ [x]) = lastSince time moment items := by
  have hx : since time moment [x] = [] := by simp [since, h]
  rw [lastSince, since_append, hx, List.append_nil, lastSince]

theorem lastSince_isSome_iff {moment : τ} {items : List α} :
    (lastSince time moment items).isSome ↔ ∃ x ∈ items, moment ≤ time x := by
  rw [lastSince, List.getLast?_isSome, since, ne_eq, List.filter_eq_nil_iff]
  simp

/-- The last item since any moment is told as from the whole history. -/
def Faithful (time : α → τ) (items history : List α) : Prop :=
  ∀ moment, lastSince time moment items = lastSince time moment history

theorem Faithful.refl (items : List α) : Faithful time items items :=
  fun _ => rfl

/-- An item that is not forgotten at once is the last one since any moment before it, and changes
nothing since a moment after it. -/
theorem faithful_note {items history : List α} (h : Faithful time items history) {cutoff : τ}
    {x : α} (hx : cutoff ≤ time x) :
    Faithful time (note time cutoff x items) (history ++ [x]) := by
  have hkept : note time cutoff x items = since time cutoff items ++ [x] := by
    rw [note, since_append]
    simp [since, hx]
  intro moment
  rw [hkept]
  by_cases hmoment : moment ≤ time x
  · rw [lastSince_append_of_le hmoment, lastSince_append_of_le hmoment]
  · have hlt := not_le.mp hmoment
    rw [lastSince_append_of_lt hlt, lastSince_append_of_lt hlt, lastSince,
      since_since (le_trans hx hlt.le)]
    exact h moment

end Window
