import Mathlib.Data.List.Basic
import Mathlib.Algebra.BigOperators.Group.List.Basic

/-!
# Insertion-ordered dictionaries

A Python `dict` as the list of its entries in insertion order. Assigning to a present key keeps
its position, assigning to a new one appends it, and `pop` with a default ignores absent keys.
Membership of entries is characterised for each operation, so proofs about dictionaries read
like proofs about sets of entries.
-/

/-- A dictionary: its entries in insertion order. -/
abbrev Dict (κ ν : Type*) := List (κ × ν)

namespace Dict

variable {κ ν : Type*} [DecidableEq κ]

/-- The keys in insertion order. -/
def keys (d : Dict κ ν) : List κ :=
  d.map Prod.fst

/-- `d.get(k)`. -/
def get? (d : Dict κ ν) (k : κ) : Option ν :=
  (d.find? (·.1 = k)).map Prod.snd

/-- `d[k] = v`. -/
def set (d : Dict κ ν) (k : κ) (v : ν) : Dict κ ν :=
  if k ∈ d.keys then d.map fun e => if e.1 = k then (k, v) else e else d ++ [(k, v)]

/-- `d.pop(k, None)`. -/
def pop (d : Dict κ ν) (k : κ) : Dict κ ν :=
  d.filter (·.1 ≠ k)

omit [DecidableEq κ] in
theorem mem_keys {d : Dict κ ν} {k : κ} : k ∈ d.keys ↔ ∃ v, (k, v) ∈ d := by
  simp [keys]

omit [DecidableEq κ] in
@[simp]
theorem keys_cons (e : κ × ν) (d : Dict κ ν) : keys (e :: d) = e.1 :: d.keys := rfl

theorem mem_of_get? {d : Dict κ ν} {k : κ} {v : ν} (h : d.get? k = some v) : (k, v) ∈ d := by
  obtain ⟨e, he, rfl⟩ := Option.map_eq_some_iff.mp h
  have hk : e.1 = k := by simpa using List.find?_some he
  exact hk ▸ List.mem_of_find?_eq_some he

omit [DecidableEq κ] in
/-- A comprehension that keeps the keys of some entries adds no key. -/
theorem mem_keys_of_mem_map_filter {μ : Type*} {d : Dict κ ν} {p : κ × ν → Bool}
    {f : κ × ν → μ} {k : κ} (h : k ∈ keys ((d.filter p).map fun e => (e.1, f e))) :
    k ∈ d.keys := by
  simp only [keys, List.map_map, List.mem_map, List.mem_filter, Function.comp] at h ⊢
  obtain ⟨e, ⟨he, -⟩, rfl⟩ := h
  exact ⟨e, he, rfl⟩

/-- An entry after an assignment is the assigned one, or an entry of another key. -/
theorem mem_set {d : Dict κ ν} {k : κ} {v : ν} {e : κ × ν} :
    e ∈ d.set k v ↔ e = (k, v) ∨ e.1 ≠ k ∧ e ∈ d := by
  unfold set
  split_ifs with hk
  -- the key is there: its value is replaced where it stands
  · obtain ⟨w, hw⟩ := mem_keys.mp hk
    constructor
    · intro he
      obtain ⟨f, hf, rfl⟩ := List.mem_map.mp he
      by_cases hfk : f.1 = k
      · exact Or.inl (by simp [hfk])
      · exact Or.inr (by simp [hfk, hf])
    · rintro (rfl | ⟨hne, he⟩)
      · exact List.mem_map.mpr ⟨(k, w), hw, by simp⟩
      · exact List.mem_map.mpr ⟨e, he, by simp [hne]⟩
  -- a new key comes last
  · constructor
    · intro he
      rcases List.mem_append.mp he with he | he
      · have hne : e.1 ≠ k := fun heq => hk (mem_keys.mpr ⟨e.2, by rwa [← heq]⟩)
        exact Or.inr ⟨hne, he⟩
      · exact Or.inl (List.mem_singleton.mp he)
    · rintro (rfl | ⟨-, he⟩)
      · simp
      · exact List.mem_append_left _ he

theorem mem_pop {d : Dict κ ν} {k : κ} {e : κ × ν} : e ∈ d.pop k ↔ e.1 ≠ k ∧ e ∈ d := by
  simp [pop, and_comm]

@[simp]
theorem mem_keys_set {d : Dict κ ν} {k j : κ} {v : ν} :
    j ∈ (d.set k v).keys ↔ j = k ∨ j ∈ d.keys := by
  simp only [mem_keys, mem_set, Prod.mk.injEq]
  by_cases hj : j = k <;> simp [hj]

@[simp]
theorem mem_keys_pop {d : Dict κ ν} {k j : κ} : j ∈ (d.pop k).keys ↔ j ≠ k ∧ j ∈ d.keys := by
  simp [mem_keys, mem_pop]

@[simp]
theorem get?_nil (k : κ) : get? ([] : Dict κ ν) k = none := rfl

/-- A lookup looks at the first entry first. -/
theorem get?_cons (e : κ × ν) (d : Dict κ ν) (k : κ) :
    get? (e :: d) k = if e.1 = k then some e.2 else d.get? k := by
  rw [get?, List.find?_cons]
  by_cases h : e.1 = k
  · simp [h]
  · simp [h, get?]

/-- A key is looked up exactly when it is present. -/
theorem get?_eq_none_iff {d : Dict κ ν} {k : κ} : d.get? k = none ↔ k ∉ d.keys := by
  induction d with
  | nil => simp [keys]
  | cons e d ih =>
    rw [get?_cons]
    by_cases h : e.1 = k
    · simp [h, keys]
    · simp only [h, ↓reduceIte, ih, keys, List.map_cons, List.mem_cons, not_or]
      exact ⟨fun hk => ⟨fun heq => h heq.symm, hk⟩, And.right⟩

/-- An assignment in place. -/
theorem get?_map_update (d : Dict κ ν) (k j : κ) (v : ν) :
    get? (d.map fun e => if e.1 = k then (k, v) else e) j =
      if j = k then (d.get? k).map fun _ => v else d.get? j := by
  induction d with
  | nil => simp
  | cons e d ih =>
    rw [List.map_cons, get?_cons, get?_cons, get?_cons, ih]
    -- the entry is the one that is replaced, or it stays
    by_cases he : e.1 = k
    · by_cases hj : j = k
      · simp [he, hj]
      · have hne : ¬ k = j := fun heq => hj heq.symm
        simp [he, hj, hne]
    · by_cases hj : j = k
      · subst hj
        simp [he]
      · simp [he, hj]

theorem get?_append (d e : Dict κ ν) (k : κ) :
    get? (d ++ e) k = (d.get? k).or (e.get? k) := by
  rw [get?, List.find?_append, Option.map_or]
  rfl

/-- What a lookup gives after an assignment. -/
@[simp]
theorem get?_set (d : Dict κ ν) (k j : κ) (v : ν) :
    (d.set k v).get? j = if j = k then some v else d.get? j := by
  rw [set]
  by_cases hk : k ∈ d.keys
  · rw [if_pos hk, get?_map_update]
    cases hget : d.get? k with
    | none => exact absurd hk (get?_eq_none_iff.mp hget)
    | some w => rfl
  · rw [if_neg hk, get?_append, get?_cons]
    by_cases hj : j = k
    · rw [hj, get?_eq_none_iff.mpr hk]
      simp
    · have hne : ¬ k = j := fun heq => hj heq.symm
      simp [hj, hne]

/-- What a lookup gives after a removal. -/
@[simp]
theorem get?_pop (d : Dict κ ν) (k j : κ) :
    (d.pop k).get? j = if j = k then none else d.get? j := by
  split_ifs with hj
  · rw [get?_eq_none_iff, mem_keys_pop]
    exact fun h => h.1 hj
  · rw [get?, get?, pop, List.find?_filter]
    congr 2
    funext e
    by_cases he : e.1 = j
    · simp [he, hj]
    · simp [he]

/-- Assignments never repeat a key. -/
theorem nodup_keys_set {d : Dict κ ν} (h : d.keys.Nodup) (k : κ) (v : ν) :
    (d.set k v).keys.Nodup := by
  rw [set]
  by_cases hk : k ∈ d.keys
  · have hkeys : keys (d.map fun e => if e.1 = k then (k, v) else e) = d.keys := by
      rw [keys, keys, List.map_map]
      refine List.map_congr_left fun e _ => ?_
      by_cases he : e.1 = k
      · simp [he]
      · simp [he]
    rwa [if_pos hk, hkeys]
  · rw [if_neg hk, keys, List.map_append]
    refine List.nodup_append.mpr ⟨h, by simp, fun j hj i hi heq => ?_⟩
    rw [List.mem_singleton.mp hi] at heq
    exact hk ((show j = k from heq) ▸ hj)

/-- Assignments double no key. -/
theorem nodup_keys_foldl_set {d : Dict κ ν} (h : d.keys.Nodup) (items : List (κ × ν)) :
    (items.foldl (fun d e => d.set e.1 e.2) d).keys.Nodup := by
  induction items generalizing d with
  | nil => exact h
  | cons e items ih => exact ih (nodup_keys_set h e.1 e.2)

/-- Without repeated keys, the entries are what is looked up. -/
theorem get?_eq_some_iff {d : Dict κ ν} (h : d.keys.Nodup) {k : κ} {v : ν} :
    d.get? k = some v ↔ (k, v) ∈ d := by
  refine ⟨mem_of_get?, fun hmem => ?_⟩
  induction d with
  | nil => simp at hmem
  | cons e d ih =>
    rw [keys_cons, List.nodup_cons] at h
    rw [get?_cons]
    rcases List.mem_cons.mp hmem with rfl | hmem
    · simp
    · have hne : e.1 ≠ k := fun heq => h.1 (heq ▸ mem_keys.mpr ⟨v, hmem⟩)
      rw [if_neg hne]
      exact ih h.2 hmem

/-- The later of two assignments counts. -/
theorem set_set (d : Dict κ ν) (k : κ) (v w : ν) : (d.set k v).set k w = d.set k w := by
  have hmem : k ∈ (d.set k v).keys := mem_keys_set.mpr (Or.inl rfl)
  rw [set, if_pos hmem, set, set]
  split_ifs with hk
  · rw [List.map_map]
    refine List.map_congr_left fun e _ => ?_
    by_cases he : e.1 = k
    · simp [he]
    · simp [he]
  · have hmap : d.map (fun e => if e.1 = k then (k, w) else e) = d.map id :=
      List.map_congr_left fun e he => by
        have hne : e.1 ≠ k := fun heq => hk (heq ▸ mem_keys.mpr ⟨e.2, he⟩)
        rw [if_neg hne, id]
    rw [List.map_append, hmap, List.map_id]
    simp

/-- Assigning what is there already changes nothing. -/
theorem set_eq_self {d : Dict κ ν} (h : d.keys.Nodup) {k : κ} {v : ν} (hget : d.get? k = some v) :
    d.set k v = d := by
  have hmap : d.map (fun e => if e.1 = k then (k, v) else e) = d.map id := by
    refine List.map_congr_left fun e he => ?_
    by_cases heq : e.1 = k
    · obtain ⟨j, w⟩ := e
      obtain rfl : j = k := heq
      have hw : d.get? j = some w := (get?_eq_some_iff h).mpr he
      rw [if_pos rfl, Option.some.inj (hget.symm.trans hw), id]
    · rw [if_neg heq, id]
  rw [set, if_pos (mem_keys.mpr ⟨v, mem_of_get? hget⟩), hmap, List.map_id]

/-- What is looked up does not depend on the order of the entries. -/
theorem get?_eq_of_perm {d e : Dict κ ν} (h : d.keys.Nodup) (hperm : d.Perm e) (k : κ) :
    d.get? k = e.get? k := by
  have he : e.keys.Nodup := (hperm.map Prod.fst).nodup_iff.mp h
  ext v
  rw [get?_eq_some_iff h, get?_eq_some_iff he]
  exact hperm.mem_iff

theorem length_pop_lt {d : Dict κ ν} {k : κ} (h : k ∈ d.keys) : (d.pop k).length < d.length := by
  obtain ⟨v, hmem⟩ := mem_keys.mp h
  exact List.length_filter_lt_length_iff_exists.mpr ⟨(k, v), hmem, by simp⟩

/-- `d[k] = d.get(k, 0) + x`. -/
def add [Zero ν] [Add ν] (d : Dict κ ν) (e : κ × ν) : Dict κ ν :=
  d.set e.1 ((d.get? e.1).getD 0 + e.2)

/-- A running total per key is the sum of what was added under the key. -/
theorem get?_foldl_add [AddCommMonoid ν] (entries : List (κ × ν)) (d : Dict κ ν) (k : κ) :
    (entries.foldl add d).get? k =
      if k ∈ keys entries then
        some ((d.get? k).getD 0 + ((entries.filter (·.1 = k)).map Prod.snd).sum)
      else d.get? k := by
  induction entries generalizing d with
  | nil => simp [keys]
  | cons e entries ih =>
    rw [List.foldl_cons, ih, add, get?_set]
    -- the first entry adds to its own key only
    by_cases he : k = e.1
    · subst he
      by_cases hmem : e.1 ∈ keys entries
      · simp [hmem, add_assoc]
      · have hnone : entries.filter (fun f => f.1 = e.1) = [] := by
          refine List.filter_eq_nil_iff.mpr fun f hf => ?_
          have hne : f.1 ≠ e.1 := fun heq => hmem (heq ▸ mem_keys.mpr ⟨f.2, hf⟩)
          simp [hne]
        simp [hmem, hnone]
    · have hne : ¬ e.1 = k := fun heq => he heq.symm
      simp [he, hne]

/-- What is left after a row of removals. -/
theorem mem_foldl_pop {d : Dict κ ν} {ks : List κ} {e : κ × ν} :
    e ∈ ks.foldl pop d ↔ e.1 ∉ ks ∧ e ∈ d := by
  induction ks generalizing d with
  | nil => simp
  | cons k ks ih => simp only [List.foldl_cons, ih, mem_pop, List.mem_cons, not_or]; tauto

/-! ## Mapping the entries -/

section Map

variable {κ' ν' : Type*} [DecidableEq κ'] {f : κ → κ'} {g : κ → ν → ν'}

/-- Assigning to a key and then renaming the keys, or the other way round. -/
theorem set_map_entries {d : Dict κ ν} {k : κ} (v : ν) (hf : ∀ j ∈ d.keys, f j = f k → j = k) :
    set (d.map fun e => (f e.1, g e.1 e.2)) (f k) (g k v) =
      (d.set k v).map fun e => (f e.1, g e.1 e.2) := by
  -- no other key is sent to `f k`
  have hkeys : f k ∈ keys (d.map fun e => (f e.1, g e.1 e.2)) ↔ k ∈ d.keys := by
    simp only [keys, List.map_map, List.mem_map, Function.comp]
    constructor
    · rintro ⟨e, he, hfe⟩
      have hek : e.1 = k := hf e.1 (List.mem_map_of_mem he) hfe
      exact ⟨e, he, hek⟩
    · rintro ⟨e, he, rfl⟩
      exact ⟨e, he, rfl⟩
  by_cases hk : k ∈ d.keys
  · rw [set, if_pos (hkeys.mpr hk), set, if_pos hk, List.map_map, List.map_map]
    refine List.map_congr_left fun e he => ?_
    by_cases hek : e.1 = k
    · simp [hek]
    · have hne : f e.1 ≠ f k := fun h => hek (hf e.1 (List.mem_map_of_mem he) h)
      simp [hek, hne]
  · rw [set, if_neg fun h => hk (hkeys.mp h), set, if_neg hk, List.map_append]
    rfl

/-- A lookup under renamed keys, when no other key is renamed to the one asked for. -/
theorem get?_map_entries {d : Dict κ ν} {k : κ} (hf : ∀ j ∈ d.keys, f j = f k → j = k) :
    get? (d.map fun e => (f e.1, g e.1 e.2)) (f k) = (d.get? k).map (g k) := by
  induction d with
  | nil => rfl
  | cons e d ih =>
    have hrest := ih fun j hj => hf j (List.mem_cons_of_mem _ hj)
    rw [List.map_cons, get?_cons, get?_cons, hrest]
    by_cases hek : e.1 = k
    · simp [hek]
    · have hne : f e.1 ≠ f k := fun h => hek (hf e.1 (by simp) h)
      simp [hek, hne]

end Map

/-- `{k: v for k, v in items}`: later entries overwrite earlier ones. -/
def ofItems (items : List (κ × ν)) : Dict κ ν :=
  items.foldl (fun d e => d.set e.1 e.2) []

/-- Assignments under different keys append their entries in order. -/
theorem foldl_set_of_nodup {items d : Dict κ ν} (h : (d ++ items).keys.Nodup) :
    items.foldl (fun d e => d.set e.1 e.2) d = d ++ items := by
  induction items generalizing d with
  | nil => simp
  | cons e items ih =>
    have hnew : e.1 ∉ d.keys := by
      intro hmem
      simp only [keys, List.map_append, List.map_cons] at h
      exact (List.nodup_append.mp h).2.2 e.1 hmem e.1 (by simp) rfl
    rw [List.foldl_cons, set, if_neg hnew, ih (by simpa using h), List.append_assoc,
      List.singleton_append]

/-- Items with distinct keys make a dictionary as they are. -/
theorem ofItems_of_nodup {items : Dict κ ν} (h : items.keys.Nodup) : ofItems items = items :=
  foldl_set_of_nodup (by simpa using h)

/-- An entry is the last one with its key. -/
def LastOf (items : List (κ × ν)) (k : κ) (v : ν) : Prop :=
  ∃ before after, items = before ++ (k, v) :: after ∧ k ∉ keys after

omit [DecidableEq κ] in
/-- The last item of a key is the first item only when no later one has the key. -/
theorem lastOf_cons {e : κ × ν} {items : List (κ × ν)} {k : κ} {v : ν} :
    LastOf (e :: items) k v ↔ (e = (k, v) ∧ k ∉ keys items) ∨ LastOf items k v := by
  constructor
  · rintro ⟨before, after, hitems, hafter⟩
    cases before with
    | nil =>
      obtain ⟨rfl, rfl⟩ := List.cons.inj hitems
      exact Or.inl ⟨rfl, hafter⟩
    | cons first before =>
      exact Or.inr ⟨before, after, (List.cons.inj hitems).2, hafter⟩
  · rintro (⟨rfl, hkeys⟩ | ⟨before, after, rfl, hafter⟩)
    · exact ⟨[], items, rfl, hkeys⟩
    · exact ⟨e :: before, after, rfl, hafter⟩

omit [DecidableEq κ] in
/-- The last item of a key among those made of rows is made of the last such row. -/
theorem lastOf_map {α : Type*} {f : α → κ × ν} {rows : List α} {k : κ} {v : ν} :
    LastOf (rows.map f) k v ↔
      ∃ before row after, rows = before ++ row :: after ∧ f row = (k, v) ∧
        ∀ later ∈ after, (f later).1 ≠ k := by
  constructor
  · rintro ⟨before, after, hitems, hafter⟩
    obtain ⟨before, rest, rfl, rfl, hrest⟩ := List.map_eq_append_iff.mp hitems
    obtain ⟨row, after, rfl, hrow, rfl⟩ := List.map_eq_cons_iff.mp hrest
    refine ⟨before, row, after, rfl, hrow, fun later hlater hk => hafter ?_⟩
    rw [← hk, keys, List.map_map]
    exact List.mem_map_of_mem hlater
  · rintro ⟨before, row, after, rfl, hrow, hafter⟩
    refine ⟨before.map f, after.map f, by simp [hrow], ?_⟩
    simpa [keys] using hafter

/-- A key that occurs has a last item. -/
theorem exists_lastOf {items : List (κ × ν)} {k : κ} (h : k ∈ keys items) :
    ∃ v, LastOf items k v := by
  induction items with
  | nil => simp [keys] at h
  | cons e items ih =>
    simp only [lastOf_cons]
    by_cases hk : k ∈ keys items
    · obtain ⟨v, hv⟩ := ih hk
      exact ⟨v, Or.inr hv⟩
    · obtain rfl : k = e.1 := by simpa [keys_cons, hk] using h
      exact ⟨e.2, Or.inl ⟨rfl, hk⟩⟩

/-- After a row of assignments a key has the value of its last one, or its old value. -/
theorem get?_foldl_set {items : List (κ × ν)} {d : Dict κ ν} {k : κ} {v : ν} :
    (items.foldl (fun d e => d.set e.1 e.2) d).get? k = some v ↔
      LastOf items k v ∨ (k ∉ keys items ∧ d.get? k = some v) := by
  induction items generalizing d with
  | nil => simp [LastOf, keys]
  | cons e items ih =>
    rw [List.foldl_cons, ih, lastOf_cons, get?_set, keys_cons, List.mem_cons, not_or]
    by_cases hk : k = e.1
    · have he : e = (k, v) ↔ e.2 = v := by
        rw [hk, Prod.ext_iff]
        simp
      rw [if_pos hk, he, Option.some.injEq]
      tauto
    · have he : e ≠ (k, v) := fun heq => hk (by rw [heq])
      simp [hk, he]

/-- The last entry with a key is the one that counts. -/
theorem get?_ofItems {items : List (κ × ν)} {k : κ} {v : ν} :
    (ofItems items).get? k = some v ↔ LastOf items k v := by
  rw [ofItems, get?_foldl_set]
  simp

/-- Two lists of one length, as a dictionary: each key has the value at its place. -/
theorem get?_zip {ks : List κ} {vs : List ν} (hks : ks.Nodup) {i : ℕ} {k : κ} {v : ν}
    (hk : ks[i]? = some k) (hv : vs[i]? = some v) : get? (ks.zip vs) k = some v := by
  induction ks generalizing vs i with
  | nil => simp at hk
  | cons j ks ih =>
    cases vs with
    | nil => simp at hv
    | cons w vs =>
      rw [List.nodup_cons] at hks
      rw [List.zip_cons_cons, get?_cons]
      -- the key stands first, or behind a different one
      cases i with
      | zero =>
        obtain ⟨rfl, rfl⟩ : j = k ∧ w = v := by simpa using And.intro hk hv
        simp
      | succ i =>
        have hmem : k ∈ ks := List.mem_of_getElem? hk
        have hne : j ≠ k := fun heq => hks.1 (heq ▸ hmem)
        rw [if_neg hne]
        exact ih hks.2 hk hv

/-! ## Totals and comprehensions -/

/-- A total is what a key has, and the total of the others. -/
theorem sum_eq_get?_add [AddCommMonoid ν] {d : Dict κ ν} (hkeys : d.keys.Nodup) (k : κ) :
    (d.map Prod.snd).sum =
      (d.get? k).getD 0 + ((d.filter fun e => e.1 ≠ k).map Prod.snd).sum := by
  induction d with
  | nil => simp
  | cons e d ih =>
    rw [keys_cons, List.nodup_cons] at hkeys
    rw [List.map_cons, List.sum_cons, ih hkeys.2, get?_cons]
    by_cases he : e.1 = k
    · -- the key does not come again
      have hnone : get? d k = none := get?_eq_none_iff.mpr (he ▸ hkeys.1)
      simp [he, hnone]
    · have hkeep : (e :: d).filter (fun f => f.1 ≠ k) = e :: d.filter fun f => f.1 ≠ k := by
        simp [he]
      rw [if_neg he, hkeep, List.map_cons, List.sum_cons]
      exact add_left_comm _ _ _

omit [DecidableEq κ] in
theorem nodup_keys_filter {d : Dict κ ν} (h : d.keys.Nodup) (p : κ × ν → Bool) :
    (keys (d.filter p)).Nodup :=
  h.sublist (List.filter_sublist.map Prod.fst)

omit [DecidableEq κ] in
/-- A comprehension that changes only the values. -/
theorem keys_map_values {μ : Type*} (d : Dict κ ν) (f : κ × ν → μ) :
    keys (d.map fun e => (e.1, f e)) = d.keys := by
  simp [keys, Function.comp_def]

theorem get?_map_values {μ : Type*} (d : Dict κ ν) (f : κ → ν → μ) (k : κ) :
    get? (d.map fun e => (e.1, f e.1 e.2)) k = (d.get? k).map (f k) :=
  get?_map_entries (f := id) fun _ _ h => h

/-- A comprehension with a condition on the entries. -/
theorem get?_filter {d : Dict κ ν} (hkeys : d.keys.Nodup) (p : κ × ν → Bool) (k : κ) :
    get? (d.filter p) k = (d.get? k).filter fun v => p (k, v) := by
  ext v
  rw [get?_eq_some_iff (nodup_keys_filter hkeys p), List.mem_filter, Option.filter_eq_some_iff,
    get?_eq_some_iff hkeys]

/-- An assignment changes nothing among the entries of other keys, their order included. -/
theorem filter_ne_set (d : Dict κ ν) (k : κ) (v : ν) :
    (d.set k v).filter (fun e => e.1 ≠ k) = d.filter fun e => e.1 ≠ k := by
  rw [set]
  by_cases hk : k ∈ d.keys
  · rw [if_pos hk, List.filter_map]
    -- replacing a value does not change which entries have the key
    have hsame : ((fun e : κ × ν => decide (e.1 ≠ k)) ∘ fun e => if e.1 = k then (k, v) else e) =
        fun e => decide (e.1 ≠ k) := by
      funext e
      by_cases he : e.1 = k
      · simp [he]
      · simp [he]
    have hid : ∀ e ∈ d.filter (fun e => e.1 ≠ k), (if e.1 = k then (k, v) else e) = id e := by
      intro e he
      have hne : e.1 ≠ k := by simpa using (List.mem_filter.mp he).2
      rw [if_neg hne]
      rfl
    rw [hsame]
    exact (List.map_congr_left hid).trans (List.map_id _)
  · rw [if_neg hk, List.filter_append]
    simp

omit [DecidableEq κ] in
/-- Two dictionaries that differ at one key agree on every selection that leaves that key out. -/
theorem filter_eq_of_filter_ne_eq [DecidableEq κ] {d d' : Dict κ ν} {k : κ} {p : κ × ν → Bool}
    (hd : ∀ e ∈ d, e.1 = k → p e = false) (hd' : ∀ e ∈ d', e.1 = k → p e = false)
    (h : (d.filter fun e => e.1 ≠ k) = d'.filter fun e => e.1 ≠ k) :
    d.filter p = d'.filter p := by
  have hskip {c : Dict κ ν} (hc : ∀ e ∈ c, e.1 = k → p e = false) :
      c.filter p = (c.filter fun e => e.1 ≠ k).filter p := by
    rw [List.filter_filter]
    refine List.filter_congr fun e he => ?_
    by_cases hk : e.1 = k
    · simp [hk, hc e he hk]
    · simp [hk]
  rw [hskip hd, hskip hd', h]

/-- An assignment changes the total by the change of one value. -/
theorem sum_set [AddCommGroup ν] {d : Dict κ ν} (hkeys : d.keys.Nodup) (k : κ) (v : ν) :
    ((d.set k v).map Prod.snd).sum = (d.map Prod.snd).sum - (d.get? k).getD 0 + v := by
  rw [sum_eq_get?_add (nodup_keys_set hkeys k v) k, sum_eq_get?_add hkeys k, get?_set,
    filter_ne_set]
  simp [add_comm]

end Dict
