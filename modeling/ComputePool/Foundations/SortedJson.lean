import Mathlib.Algebra.Order.BigOperators.Group.List
import Mathlib.Data.Char
import Mathlib.Data.List.Lex
import ComputePool.Foundations.Base64
import ComputePool.Foundations.Json

/-!
# JSON text with sorted keys

`json.dumps(value, separators=(",", ":"), sort_keys=True).encode()`: every object is written with
its keys in order. How long the text is does not depend on the order, and an object gets shorter
when the value of one of its keys does.

* `sortKeys`: the value that is written.
* `get?_sortedFields`: an object has the same fields under its keys.
* `length_dumpsSorted_set_le`: the length of an object and of the value of a key.
-/

namespace Json

open Text Base64

/-- The order of keys. -/
def keyLe (a b : Str × Json) : Bool :=
  a.1 ≤ b.1

mutual

/-- The value with the keys of every object in order. -/
def sortKeys : Json → Json
  | .list items => .list (sortItems items)
  | .dict fields => .dict ((sortValues fields).mergeSort keyLe)
  | value => value

/-- The items of a list, each with its keys in order. -/
def sortItems : List Json → List Json
  | [] => []
  | item :: rest => sortKeys item :: sortItems rest

/-- The entries of an object, each with the keys of its value in order. -/
def sortValues : List (Str × Json) → List (Str × Json)
  | [] => []
  | (key, value) :: rest => (key, sortKeys value) :: sortValues rest

end

/-- The entries of an object as they are written. -/
def sortedFields (fields : Dict Str Json) : Dict Str Json :=
  (sortValues fields).mergeSort keyLe

/-- `json.dumps(fields, separators=(",", ":"), sort_keys=True).encode()`. -/
def dumpsSorted (p : Printer) (fields : Dict Str Json) : Octets :=
  utf8 (dumps p (.dict (sortedFields fields)))

theorem sortKeys_dict (fields : Dict Str Json) :
    sortKeys (.dict fields) = .dict (sortedFields fields) := by
  rw [sortKeys, sortedFields]

/-- Below the top each value is sorted on its own. -/
theorem sortValues_eq_map (fields : Dict Str Json) :
    sortValues fields = fields.map fun e => (e.1, sortKeys e.2) := by
  induction fields with
  | nil => rfl
  | cons e rest ih =>
    obtain ⟨key, value⟩ := e
    rw [sortValues, ih, List.map_cons]

theorem sortedFields_perm (fields : Dict Str Json) :
    (sortedFields fields).Perm (fields.map fun e => (e.1, sortKeys e.2)) := by
  rw [sortedFields, sortValues_eq_map]
  exact List.mergeSort_perm _ _

/-- Sorting neither adds a key nor doubles one. -/
theorem nodup_keys_sortedFields {fields : Dict Str Json} (h : fields.keys.Nodup) :
    (sortedFields fields).keys.Nodup := by
  have hkeys : Dict.keys (fields.map fun e => (e.1, sortKeys e.2)) = fields.keys :=
    Dict.keys_map_values fields fun e => sortKeys e.2
  have hmap : (Dict.keys (fields.map fun e => (e.1, sortKeys e.2))).Nodup := hkeys ▸ h
  exact ((sortedFields_perm fields).map Prod.fst).nodup_iff.mpr hmap

/-- Under a key is the same value, with its keys in order. -/
theorem get?_sortedFields {fields : Dict Str Json} (h : fields.keys.Nodup) (key : Str) :
    (sortedFields fields).get? key = (fields.get? key).map sortKeys := by
  rw [Dict.get?_eq_of_perm (nodup_keys_sortedFields h) (sortedFields_perm fields)]
  exact Dict.get?_map_values fields (fun _ => sortKeys) key

/-- Sorting empties nothing and fills nothing. -/
theorem truthy_sortKeys (value : Json) : (sortKeys value).truthy = value.truthy := by
  cases value with
  | list items => cases items <;> simp [sortKeys, sortItems, truthy]
  | dict fields =>
    have hlength : (sortedFields fields).length = fields.length := by
      rw [(sortedFields_perm fields).length_eq, List.length_map]
    rw [sortKeys_dict, truthy, truthy]
    cases fields with
    | nil => simp [List.length_eq_zero_iff.mp hlength]
    | cons e rest =>
      have hne : sortedFields (e :: rest) ≠ [] := List.ne_nil_of_length_eq_add_one hlength
      simp [hne]
  | _ => simp [sortKeys]

/-! ## Length -/

/-- How many bytes a text is. -/
def size (s : Str) : ℕ :=
  (utf8 s).length

@[simp]
theorem size_nil : size [] = 0 := rfl

@[simp]
theorem size_append (s t : Str) : size (s ++ t) = size s + size t := by
  simp [size, utf8]

theorem size_cons {c : Char} (h : c.toNat < 0x80) (s : Str) : size (c :: s) = size s + 1 := by
  simp [size, utf8, utf8Char, h, Nat.add_comm]

/-- The length of an entry of an object, with the colon. -/
def entrySize (p : Printer) (e : Str × Json) : ℕ :=
  size (dumpsStr e.1) + 1 + size (dumps p e.2)

/-- The entries of an object are as long as each of them, and the commas between them. -/
theorem size_dumpsFields (p : Printer) (fields : Dict Str Json) :
    size (dumpsFields p fields) = (fields.map (entrySize p)).sum + (fields.length - 1) := by
  induction fields with
  | nil => rfl
  | cons e rest ih =>
    obtain ⟨key, value⟩ := e
    -- one entry stands without a comma; each further one adds a comma
    cases rest with
    | nil =>
      rw [dumpsFields, size_append, size_cons (by decide)]
      simp only [List.map_cons, List.map_nil, List.sum_cons, List.sum_nil, entrySize,
        List.length_cons, List.length_nil]
      omega
    | cons next rest =>
      rw [dumpsFields, List.append_assoc, size_append, List.cons_append, size_cons (by decide),
        size_append, size_cons (by decide), ih]
      simp only [List.map_cons, List.sum_cons, entrySize, List.length_cons]
      omega

theorem size_dumps_dict (p : Printer) (fields : Dict Str Json) :
    size (dumps p (.dict fields)) = (fields.map (entrySize p)).sum + (fields.length - 1) + 2 := by
  rw [dumps, List.cons_append, size_cons (by decide), size_append, size_dumpsFields,
    size_cons (by decide), size_nil]

/-- No object is shorter than the empty one. -/
theorem size_dumps_empty_le (p : Printer) (fields : Dict Str Json) :
    size (dumps p (sortKeys (.dict []))) ≤ size (dumps p (sortKeys (.dict fields))) := by
  have hnil : sortedFields [] = [] := List.length_eq_zero_iff.mp (sortedFields_perm []).length_eq
  rw [sortKeys_dict, sortKeys_dict, size_dumps_dict, size_dumps_dict, hnil]
  simp

/-- The length of the text is the sum of its entries, their commas and the two braces; the order of
the keys does not come into it. -/
theorem length_dumpsSorted (p : Printer) (fields : Dict Str Json) :
    (dumpsSorted p fields).length =
      (fields.map fun e => entrySize p (e.1, sortKeys e.2)).sum + (fields.length - 1) + 2 := by
  have hperm := sortedFields_perm fields
  have hsum := (hperm.map (entrySize p)).sum_eq
  rw [List.map_map] at hsum
  have hlength := hperm.length_eq
  rw [List.length_map] at hlength
  rw [dumpsSorted, ← size, size_dumps_dict, hsum, hlength]
  rfl

/-- The text of an object is no longer with a value that is no longer. -/
theorem length_dumpsSorted_set_le {p : Printer} {value value' : Json}
    (h : size (dumps p (sortKeys value)) ≤ size (dumps p (sortKeys value')))
    (fields : Dict Str Json) (key : Str) :
    (dumpsSorted p (fields.set key value)).length ≤
      (dumpsSorted p (fields.set key value')).length := by
  rw [length_dumpsSorted, length_dumpsSorted, Dict.set, Dict.set]
  -- the value is replaced, or the entry is new; nothing else changes
  split_ifs
  · rw [List.map_map, List.map_map, List.length_map, List.length_map]
    gcongr
    refine List.sum_le_sum fun e _ => ?_
    simp only [Function.comp_apply, entrySize]
    split_ifs
    · dsimp only
      omega
    · exact le_rfl
  · simp only [List.map_append, List.sum_append, List.map_cons, List.map_nil, List.sum_cons,
      List.sum_nil, List.length_append, List.length_cons, List.length_nil, entrySize]
    omega

theorem size_dumps_sortKeys_dict (p : Printer) (fields : Dict Str Json) :
    size (dumps p (sortKeys (.dict fields))) = (dumpsSorted p fields).length := by
  rw [sortKeys_dict, size, dumpsSorted]

/-- An object is at least as long as each of its values. -/
theorem size_le_length_dumpsSorted (p : Printer) {fields : Dict Str Json} {e : Str × Json}
    (h : e ∈ fields) : size (dumps p (sortKeys e.2)) ≤ (dumpsSorted p fields).length := by
  have hentry : entrySize p (e.1, sortKeys e.2) ≤
      (fields.map fun e => entrySize p (e.1, sortKeys e.2)).sum :=
    List.single_le_sum (by simp) _ (List.mem_map.mpr ⟨e, h, rfl⟩)
  rw [length_dumpsSorted]
  simp only [entrySize] at hentry ⊢
  omega

/-- Every character is written as something. -/
theorem dumpsChar_ne_nil (c : Char) : dumpsChar c ≠ [] := by
  unfold dumpsChar
  dsimp only
  split_ifs
  all_goals exact List.cons_ne_nil _ _

/-- A text has at least one byte for each character. -/
theorem length_le_size (s : Str) : s.length ≤ size s := by
  have hchar (c : Char) : 1 ≤ (utf8Char c).length := by
    unfold utf8Char
    dsimp only
    split_ifs
    all_goals simp only [List.length_cons, List.length_nil, Nat.le_add_left]
  induction s with
  | nil => exact Nat.zero_le _
  | cons c s ih =>
    have hc := hchar c
    rw [size] at ih ⊢
    rw [utf8, List.flatMap_cons, List.length_append, ← utf8, List.length_cons]
    omega

/-- A string is no shorter in JSON. -/
theorem length_le_size_dumpsStr (s : Str) : s.length ≤ size (dumpsStr s) := by
  have hbody : s.length ≤ (s.flatMap dumpsChar).length := by
    induction s with
    | nil => exact Nat.zero_le _
    | cons c s ih =>
      have hc : 0 < (dumpsChar c).length := List.length_pos_of_ne_nil (dumpsChar_ne_nil c)
      rw [List.flatMap_cons, List.length_append, List.length_cons]
      omega
  have hsize := length_le_size (s.flatMap dumpsChar)
  rw [dumpsStr, List.cons_append, size_cons (by decide), size_append]
  omega

end Json
