import Mathlib.Data.List.Forall2

/-!
# Computations that raise

When a computation in `Except` ends with a value: its parts did, one after the other.
-/

namespace Fallible

variable {ε ε' α β : Type}

/-- Two computations in a row succeed if both do. -/
theorem bind_eq_ok {x : Except ε α} {f : α → Except ε β} {b : β} :
    x >>= f = .ok b ↔ ∃ a, x = .ok a ∧ f a = .ok b := by
  cases x with
  | error e => simp [bind, Except.bind]
  | ok a => simp [bind, Except.bind]

theorem map_eq_ok {f : α → β} {x : Except ε α} {b : β} :
    x.map f = .ok b ↔ ∃ a, x = .ok a ∧ f a = b := by
  cases x with
  | error e => simp [Except.map]
  | ok a => simp [Except.map]

theorem mapError_eq_ok {f : ε → ε'} {x : Except ε α} {a : α} :
    x.mapError f = .ok a ↔ x = .ok a := by
  cases x with
  | error e => simp [Except.mapError]
  | ok b => simp [Except.mapError]

/-- A loop that collects values ran once for each of them. -/
theorem mapM_eq_ok {f : α → Except ε β} {as : List α} {bs : List β} :
    as.mapM f = .ok bs ↔ List.Forall₂ (fun a b => f a = .ok b) as bs := by
  induction as generalizing bs with
  | nil =>
    rw [List.mapM_nil, List.forall₂_nil_left_iff]
    exact ⟨fun h => (Except.ok.inj h).symm, fun h => h ▸ rfl⟩
  | cons a as ih =>
    rw [List.mapM_cons, bind_eq_ok]
    constructor
    · rintro ⟨b, hb, h⟩
      obtain ⟨rest, hrest, h⟩ := bind_eq_ok.mp h
      obtain rfl := Except.ok.inj h
      exact List.Forall₂.cons hb (ih.mp hrest)
    · rintro (_ | @⟨_, b, _, rest, hb, hrest⟩)
      exact ⟨b, hb, bind_eq_ok.mpr ⟨rest, ih.mpr hrest, rfl⟩⟩

/-- A loop whose rounds can only end with the values of `g` collects them. -/
theorem eq_map_of_mapM_eq_ok {f : α → Except ε β} {g : α → β}
    (hf : ∀ a b, f a = .ok b → b = g a) {as : List α} {bs : List β}
    (h : as.mapM f = .ok bs) : bs = as.map g := by
  have hrounds := mapM_eq_ok.mp h
  clear h
  induction hrounds with
  | nil => rfl
  | cons hround _ ih => rw [hf _ _ hround, ih, List.map_cons]

end Fallible
