import Mathlib.Algebra.BigOperators.Group.Finset.Basic
import Mathlib.Data.List.Range

/-!
# Buffers with checked access

A buffer is the list of its cells. An access outside of it has no result, so a computation that
returns one made every access inside its buffers.

Loops and parallel launches that only write are given by the writes of each of their items: a
round of a loop, or a block of threads. When all writes of a cell agree, the order of the items
plays no role.

* `scatter_eq`: items that write `g k` into every cell `k`, in any order, leave the table of `g`.
* `foldlM_eq_some`: the rule for a loop whose body never fails.
-/

namespace Buffer

variable {α β ι σ : Type*}

/-- Read a cell. -/
def load (b : List α) (i : ℕ) : Option α :=
  b[i]?

/-- Write a cell. -/
def store (b : List α) (i : ℕ) (v : α) : Option (List α) :=
  if i < b.length then some (b.set i v) else none

/-- Make writes in turn. -/
def storeAll (b : List α) (writes : List (ℕ × α)) : Option (List α) :=
  writes.foldlM (fun b w => store b w.1 w.2) b

/-- Make the writes of each item in turn. -/
def scatter (writes : ι → Option (List (ℕ × α))) (items : List ι) (b : List α) :
    Option (List α) :=
  items.foldlM (fun b item => do storeAll b (← writes item)) b

/-- The buffer of `n` cells with `g k` in cell `k`. -/
def table (n : ℕ) (g : ℕ → α) : List α :=
  (List.range n).map g

@[simp]
theorem length_table (n : ℕ) (g : ℕ → α) : (table n g).length = n := by
  simp [table]

theorem load_table {n k : ℕ} (g : ℕ → α) (hk : k < n) : load (table n g) k = some (g k) := by
  simp [load, table, hk]

theorem getElem?_table {n k : ℕ} (g : ℕ → α) (hk : k < n) : (table n g)[k]? = some (g k) :=
  load_table g hk

/-! ## Loops -/

/-- A loop whose body never fails computes the fold of what the body computes. -/
theorem foldlM_eq_some {body : σ → ι → Option σ} {f : σ → ι → σ} {items : List ι} (s : σ)
    (h : ∀ s, ∀ i ∈ items, body s i = some (f s i)) :
    items.foldlM body s = some (items.foldl f s) := by
  induction items generalizing s with
  | nil => rfl
  | cons i items ih =>
    rw [List.foldlM_cons, h s i (by simp), Option.bind_eq_bind, Option.bind_some,
      ih _ fun s j hj => h s j (List.mem_cons_of_mem i hj), List.foldl_cons]

/-- Adding up in a loop is a sum. -/
theorem foldl_add_eq_sum {M : Type*} [AddCommMonoid M] (n : ℕ) (f : ℕ → M) (a : M) :
    (List.range n).foldl (fun acc k => acc + f k) a = a + ∑ k ∈ Finset.range n, f k := by
  induction n with
  | zero => simp
  | succ n ih => rw [List.range_succ, List.foldl_concat, ih, Finset.sum_range_succ, add_assoc]

/-- The items of a list computed one by one, none of them failing. -/
theorem mapM_eq_some {f : ι → Option β} {g : ι → β} {items : List ι}
    (h : ∀ i ∈ items, f i = some (g i)) : items.mapM f = some (items.map g) := by
  induction items with
  | nil => rfl
  | cons i items ih =>
    rw [List.mapM_cons, h i (by simp), ih fun j hj => h j (List.mem_cons_of_mem i hj)]
    rfl

/-! ## Scattered writes -/

theorem storeAll_cons {b : List α} {w : ℕ × α} {ws : List (ℕ × α)} (hw : w.1 < b.length) :
    storeAll b (w :: ws) = storeAll (b.set w.1 w.2) ws := by
  simp [storeAll, store, hw]

/-- Writes of `g` inside the buffer leave `g` in the cells they write and the other cells as they
are. -/
theorem storeAll_eq_some {g : ℕ → α} {ws : List (ℕ × α)} {b : List α}
    (h : ∀ w ∈ ws, w.1 < b.length ∧ w.2 = g w.1) :
    ∃ b', storeAll b ws = some b' ∧ b'.length = b.length ∧
      (∀ k ∈ ws.map Prod.fst, b'[k]? = some (g k)) ∧
      ∀ k ∉ ws.map Prod.fst, b'[k]? = b[k]? := by
  induction ws generalizing b with
  | nil => exact ⟨b, rfl, rfl, by simp, by simp⟩
  | cons w ws ih =>
    obtain ⟨hw, hg⟩ := h w (by simp)
    have hrest : ∀ v ∈ ws, v.1 < (b.set w.1 w.2).length ∧ v.2 = g v.1 := fun v hv => by
      simpa using h v (List.mem_cons_of_mem w hv)
    obtain ⟨b', hb', hlen, hwritten, hother⟩ := ih hrest
    refine ⟨b', by rw [storeAll_cons hw, hb'], by simpa using hlen, fun k hk => ?_, fun k hk => ?_⟩
    -- the last write to a cell is what it holds
    · by_cases hmem : k ∈ ws.map Prod.fst
      · exact hwritten k hmem
      · -- no later write touches the cell of `w`
        obtain rfl : k = w.1 := by simpa [hmem] using hk
        rw [hother _ hmem, List.getElem?_set_self hw, hg]
    · rw [List.map_cons, List.mem_cons, not_or] at hk
      rw [hother k hk.2, List.getElem?_set_ne (Ne.symm hk.1)]

/-- After some of the items, the cells they write hold `g` and the others are as before. -/
theorem scatter_eq_some {g : ℕ → α} {writes : ι → Option (List (ℕ × α))} {items : List ι}
    {b : List α} {ws : ι → List (ℕ × α)}
    (h : ∀ i ∈ items, writes i = some (ws i) ∧ ∀ w ∈ ws i, w.1 < b.length ∧ w.2 = g w.1) :
    ∃ b', scatter writes items b = some b' ∧ b'.length = b.length ∧
      (∀ i ∈ items, ∀ k ∈ (ws i).map Prod.fst, b'[k]? = some (g k)) ∧
      ∀ k, (∀ i ∈ items, k ∉ (ws i).map Prod.fst) → b'[k]? = b[k]? := by
  induction items generalizing b with
  | nil => exact ⟨b, rfl, rfl, by simp, by simp⟩
  | cons i items ih =>
    obtain ⟨hwrites, hws⟩ := h i (by simp)
    obtain ⟨b₁, hb₁, hlen₁, hwritten₁, hother₁⟩ := storeAll_eq_some hws
    have hrest : ∀ j ∈ items, writes j = some (ws j) ∧
        ∀ w ∈ ws j, w.1 < b₁.length ∧ w.2 = g w.1 := fun j hj => by
      rw [hlen₁]
      exact h j (List.mem_cons_of_mem i hj)
    obtain ⟨b', hb', hlen, hwritten, hother⟩ := ih hrest
    refine ⟨b', ?_, hlen.trans hlen₁, fun j hj k hk => ?_, fun k hk => ?_⟩
    · rw [scatter, List.foldlM_cons, hwrites, Option.bind_eq_bind, Option.bind_eq_bind,
        Option.bind_some, hb₁, Option.bind_some]
      exact hb'
    -- a later item may write the same cell, with the same value
    · by_cases hlater : ∃ j ∈ items, k ∈ (ws j).map Prod.fst
      · obtain ⟨l, hl, hmem⟩ := hlater
        exact hwritten l hl k hmem
      · have hlater : ∀ l ∈ items, k ∉ (ws l).map Prod.fst := fun l hl hmem => hlater ⟨l, hl, hmem⟩
        rcases List.mem_cons.mp hj with rfl | hj
        · rw [hother k hlater, hwritten₁ k hk]
        · exact absurd hk (hlater j hj)
    · rw [hother k fun j hj => hk j (List.mem_cons_of_mem i hj), hother₁ k (hk i (by simp))]

/-- Items that write `g k` into every cell `k` leave the table of `g`, in whatever order they
come. -/
theorem scatter_eq {g : ℕ → α} {writes : ι → Option (List (ℕ × α))} {items : List ι}
    {b : List α} {n : ℕ} (ws : ι → List (ℕ × α)) (hlen : b.length = n)
    (h : ∀ i ∈ items, writes i = some (ws i) ∧ ∀ w ∈ ws i, w.1 < n ∧ w.2 = g w.1)
    (hcover : ∀ k < n, ∃ i ∈ items, k ∈ (ws i).map Prod.fst) :
    scatter writes items b = some (table n g) := by
  subst hlen
  obtain ⟨b', hb', hlen', hwritten, -⟩ := scatter_eq_some h
  rw [hb']
  congr 1
  refine List.ext_getElem? fun k => ?_
  by_cases hk : k < b.length
  · obtain ⟨i, hi, hmem⟩ := hcover k hk
    rw [hwritten i hi k hmem, getElem?_table g hk]
  · rw [List.getElem?_eq_none (by omega), List.getElem?_eq_none (by simp; omega)]

/-! ## Sums -/

/-- Terms that are zero from `n` on add nothing. -/
theorem sum_range_eq_of_zero {M : Type*} [AddCommMonoid M] {n m : ℕ} {f : ℕ → M} (hnm : n ≤ m)
    (hzero : ∀ k, n ≤ k → f k = 0) :
    ∑ k ∈ Finset.range m, f k = ∑ k ∈ Finset.range n, f k := by
  obtain ⟨d, rfl⟩ := Nat.exists_eq_add_of_le hnm
  rw [Finset.sum_range_add, Finset.sum_eq_zero fun k _ => hzero (n + k) (by omega), add_zero]

end Buffer
