import ComputePool.Foundations.Fallible
import ComputePool.Foundations.SortedJson
import ComputePool.Protocol.Session

/-!
# The state of prefetching

`PrefetchState` of `agent/cache/prefetch.py`: a small JSON file that says which images were pulled
and what went wrong last. It is meant to stay within `STATE_LIMIT` bytes, so `save` drops the image
that was pulled first until the text is short enough or no image is left. What `json.loads` reads
is what `json.dumps` wrote, with the keys of every object in order.

* `evict`: the loop of `save`.
* `apply`: one call of `record` or `note_error`.
* `evict_eq_ok`: the loop keeps the images that were pulled last, as many as fit.
* `capped_iff`: the file stays within the limit exactly when what is not an image does.
* `long_reference_overflows`: the reference of an error has no limit.
-/

namespace ComputePool.Agent.Prefetch

open Text Numeral Protocol
open Json (Printer Raised field dumpsSorted sortedFields sortKeys)

/-- `STATE_LIMIT`. -/
def stateLimit : ℕ := 4096

/-- `REFERENCE`. -/
def referencePattern : Str → Bool :=
  matchesToEnd fun s =>
    let lower (c : Char) : Bool := ('a' ≤ c && c ≤ 'z') || c.isDigit
    let tagged (c : Char) : Bool := lower c || ('A' ≤ c && c ≤ 'Z') || c ∈ ['.', '_', '-']
    let name := s.takeWhile fun c => lower c || c ∈ ['.', '_', '/', '-']
    let rest := s.drop name.length
    let tag := (rest.drop 1).takeWhile tagged
    let rest := if rest.head? = some ':' && tag ≠ [] then rest.drop (1 + tag.length) else rest
    name.head?.any lower &&
      (rest = [] || "@sha256:".toList.isPrefixOf rest && hex64 (rest.drop 8))

/-- The dictionary that is read and written. -/
abbrev State := Dict Str Json

/-- `state.setdefault(key, value)`. -/
def setDefault (state : State) (key : String) (value : Json) : State :=
  if key.toList ∈ state.keys then state else state.set key.toList value

/-- `state["images"]`, once `load` has made sure that it is a dictionary. -/
def imagesOf (state : State) : Dict Str Json :=
  match state.get? "images".toList with
  | some (.dict images) => images
  | _ => []

/-- The state with other images. -/
def withImages (state : State) (images : Dict Str Json) : State :=
  state.set "images".toList (.dict images)

/-- `load`, given what `json.loads` makes of the file; `none` when there is no file or no JSON in
it. -/
def load (startedAt : ℚ) (file : Option Json) : State :=
  let parsed :=
    match file with
    | some (.dict fields) => fields
    | _ => []
  let parsed := setDefault parsed "started_at" (.float (.fin startedAt))
  let parsed := setDefault parsed "sweep_count" (.int 0)
  let parsed := setDefault parsed "images" (.dict [])
  match parsed.get? "images".toList with
  | some (.dict _) => parsed
  | _ => withImages parsed []

/-! ## Saving -/

/-- `float(image.get("pulled_at", 0) or 0)`. -/
def pulledAt (image : Json) : Except Raised PyFloat := do
  let value ← image.get "pulled_at".toList (.int 0)
  (value.orElse (.int 0)).toFloat

/-- The rest of `min`, after the best name so far and its moment. -/
def oldestFrom (best : Str × PyFloat) : Dict Str Json → Except Raised Str
  | [] => .ok best.1
  | (name, image) :: rest => do
    let moment ← pulledAt image
    oldestFrom (if moment.lt best.2 then (name, moment) else best) rest

/-- `min(images, key=…)`: the first of the names that were pulled first. -/
def oldestOf : Dict Str Json → Except Raised Str
  | [] => .error .valueError
  | (name, image) :: rest => do
    let moment ← pulledAt image
    oldestFrom (name, moment) rest

/-- The oldest image is the one begun with or one of those compared with it. -/
theorem oldestFrom_mem {best : Str × PyFloat} {images : Dict Str Json} {name : Str}
    (h : oldestFrom best images = .ok name) : name = best.1 ∨ name ∈ images.keys := by
  induction images generalizing best with
  | nil => exact Or.inl (Except.ok.inj h).symm
  | cons e rest ih =>
    obtain ⟨moment, -, hrest⟩ := Fallible.bind_eq_ok.mp h
    rcases ih hrest with heq | hmem
    · split_ifs at heq
      · exact Or.inr (by simp [heq])
      · exact Or.inl heq
    · exact Or.inr (List.mem_cons_of_mem _ hmem)

/-- The oldest image is one of the images, so eviction shortens the list. -/
theorem mem_keys_of_oldestOf {images : Dict Str Json} {name : Str}
    (h : oldestOf images = .ok name) : name ∈ images.keys := by
  cases images with
  | nil => cases h
  | cons e rest =>
    obtain ⟨moment, -, hrest⟩ := Fallible.bind_eq_ok.mp h
    rcases oldestFrom_mem hrest with heq | hmem
    · exact heq ▸ List.mem_cons_self
    · exact List.mem_cons_of_mem _ hmem

section Save

variable (p : Printer)

/-- The loop of `save`: while the text is too long and there are images, the oldest goes. -/
def evict (state : State) (images : Dict Str Json) : Except Raised State :=
  if stateLimit < (dumpsSorted p state).length ∧ images ≠ [] then
    match _h : oldestOf images with
    | .error e => .error e
    | .ok oldest => evict (withImages state (images.pop oldest)) (images.pop oldest)
  else .ok state
termination_by images.length
decreasing_by exact Dict.length_pop_lt (mem_keys_of_oldestOf _h)

/-- `int(state.get("sweep_count", 0) or 0)`. -/
def sweepCount (state : State) : Except Raised ℤ :=
  ((field state "sweep_count" (.int 0)).orElse (.int 0)).toInt

/-- What `save` does before its loop. -/
def prepare (startedAt savedAt : ℚ) (state : State) : Except Raised State := do
  let state := state.set "started_at".toList
    ((field state "started_at" .null).orElse (.float (.fin startedAt)))
  let count ← sweepCount state
  let state := state.set "sweep_count".toList (.int count)
  return state.set "updated_at".toList (.float (.fin savedAt))

/-! ## Calls -/

/-- What a call says. -/
inductive Change
  /-- `record(reference, **fields)`. -/
  | record (reference : Str) (fields : Dict Str Json)
  /-- `note_error(reference, error)`. -/
  | noteError (reference error : Str)

/-- A call, with what the clock says when the entry is made and when the state is saved. -/
structure Update where
  change : Change
  moment : ℚ
  savedAt : ℚ

/-- `{"pulled_at": moment, **fields}`. -/
def imageEntry (moment : ℚ) (fields : Dict Str Json) : Json :=
  .dict (fields.foldl (fun d e => Dict.set d e.1 e.2)
    [("pulled_at".toList, .float (.fin moment))])

/-- The state with the entry of a call. -/
def changed (state : State) (u : Update) : State :=
  match u.change with
  | .record reference fields =>
    withImages state ((imagesOf state).set reference (imageEntry u.moment fields))
  | .noteError reference error =>
    state.set "last_error".toList (.dict [("reference".toList, .str reference),
      ("error".toList, .str (error.take 300)), ("at".toList, .float (.fin u.moment))])

/-- The state of a call when the loop of `save` begins. -/
def pending (startedAt : ℚ) (file : Option Json) (u : Update) : Except Raised State := do
  let state := changed (load startedAt file) u
  let count ← sweepCount state
  prepare startedAt u.savedAt (state.set "sweep_count".toList (.int (count + 1)))

/-- A call: the state whose text it writes. -/
def apply (startedAt : ℚ) (file : Option Json) (u : Update) : Except Raised State := do
  let state ← pending startedAt file u
  evict p state (imagesOf state)

/-- What the file is read as after a number of calls, none at the start. -/
def fileAfter (startedAt : ℚ) (updates : List Update) : Except Raised (Option Json) :=
  updates.foldlM (fun file u => do
    let saved ← apply p startedAt file u
    return some (.dict (sortedFields saved))) none

end Save

/-! ## Sound states -/

/-- The moment of an image whose `pulled_at` is a number. -/
def momentOf (image : Json) : ℚ :=
  match pulledAt image with
  | .ok (.fin q) => q
  | _ => 0

/-- An image with a number as its `pulled_at`. -/
def Pulled (image : Json) : Prop :=
  ∃ fields : Dict Str Json, image = .dict fields ∧ fields.keys.Nodup ∧
    ∃ q, pulledAt image = .ok (.fin q)

/-- Images that can be ordered by their moments. -/
structure Ordered (images : Dict Str Json) : Prop where
  nodup : images.keys.Nodup
  pulled : ∀ e ∈ images, Pulled e.2

/-- A state whose images can be ordered and whose sweeps are counted. -/
structure Sound (state : State) : Prop where
  nodup : state.keys.Nodup
  images : ∃ images, state.get? "images".toList = some (.dict images) ∧ Ordered images
  sweeps : ∃ n, state.get? "sweep_count".toList = some (.int n)

theorem ordered_nil : Ordered [] :=
  ⟨List.nodup_nil, by simp⟩

theorem Ordered.pop {images : Dict Str Json} (h : Ordered images) (name : Str) :
    Ordered (images.pop name) where
  nodup := h.nodup.sublist (List.filter_sublist.map _)
  pulled e he := h.pulled e (List.mem_of_mem_filter he)

/-- An image with a moment can be recorded. -/
theorem Ordered.set {images : Dict Str Json} (h : Ordered images) (name : Str) {image : Json}
    (himage : Pulled image) : Ordered (images.set name image) where
  nodup := Dict.nodup_keys_set h.nodup name image
  pulled e he := by
    rcases Dict.mem_set.mp he with heq | ⟨-, hmem⟩
    · exact heq ▸ himage
    · exact h.pulled e hmem

/-- The images of a sound state can be read, and they are in order. -/
theorem Sound.get_images {state : State} (h : Sound state) :
    state.get? "images".toList = some (.dict (imagesOf state)) ∧ Ordered (imagesOf state) := by
  obtain ⟨images, hget, hordered⟩ := h.images
  have himages : imagesOf state = images := by rw [imagesOf, hget]
  exact ⟨himages ▸ hget, himages ▸ hordered⟩

/-- Another key may get any value. -/
theorem Sound.set {state : State} (h : Sound state) {key : Str} (value : Json)
    (himages : key ≠ "images".toList) (hsweeps : key ≠ "sweep_count".toList) :
    Sound (state.set key value) where
  nodup := Dict.nodup_keys_set h.nodup key value
  images := by
    rw [Dict.get?_set, if_neg himages.symm]
    exact h.images
  sweeps := by
    rw [Dict.get?_set, if_neg hsweeps.symm]
    exact h.sweeps

/-- The number of sweeps may be any integer. -/
theorem Sound.set_sweeps {state : State} (h : Sound state) (n : ℤ) :
    Sound (state.set "sweep_count".toList (.int n)) where
  nodup := Dict.nodup_keys_set h.nodup _ _
  images := by
    rw [Dict.get?_set, if_neg (by decide)]
    exact h.images
  sweeps := ⟨n, by rw [Dict.get?_set, if_pos rfl]⟩

/-- The images may be replaced by others that are in order. -/
theorem Sound.withImages {state : State} (h : Sound state) {images : Dict Str Json}
    (himages : Ordered images) : Sound (withImages state images) where
  nodup := Dict.nodup_keys_set h.nodup _ _
  images := ⟨images, by rw [Prefetch.withImages, Dict.get?_set, if_pos rfl], himages⟩
  sweeps := by
    rw [Prefetch.withImages, Dict.get?_set, if_neg (by decide)]
    exact h.sweeps

/-- The number of sweeps can be read. -/
theorem Sound.sweepCount {state : State} (h : Sound state) : ∃ n, sweepCount state = .ok n := by
  obtain ⟨n, hget⟩ := h.sweeps
  refine ⟨n, ?_⟩
  rw [Prefetch.sweepCount, field, hget, Option.getD_some, Json.orElse]
  by_cases hn : n = 0
  · simp [hn, Json.truthy, Json.toInt]
  · simp [hn, Json.truthy, Json.toInt]

/-! ### Reading the file -/

theorem pulledAt_dict (fields : Dict Str Json) : pulledAt (.dict fields) =
    (((fields.get? "pulled_at".toList).getD (.int 0)).orElse (.int 0)).toFloat := rfl

theorem toFloat_sortKeys (value : Json) : (sortKeys value).toFloat = value.toFloat := by
  cases value with
  | dict fields => rw [Json.sortKeys_dict, Json.toFloat, Json.toFloat]
  | _ => rw [sortKeys] <;> simp [Json.toFloat]

/-- The moment of an image stays when its keys are put in order. -/
theorem pulledAt_sortKeys {fields : Dict Str Json} (h : fields.keys.Nodup) :
    pulledAt (sortKeys (.dict fields)) = pulledAt (.dict fields) := by
  rw [Json.sortKeys_dict, pulledAt_dict, pulledAt_dict, Json.get?_sortedFields h]
  cases fields.get? "pulled_at".toList with
  | none => rfl
  | some value =>
    rw [Option.map_some, Option.getD_some, Option.getD_some, Json.orElse, Json.orElse,
      Json.truthy_sortKeys]
    split_ifs
    · exact toFloat_sortKeys value
    · rfl

/-- The order in which the keys are written does not matter to the images. -/
theorem Ordered.sorted {images : Dict Str Json} (h : Ordered images) :
    Ordered (sortedFields images) where
  nodup := Json.nodup_keys_sortedFields h.nodup
  pulled e he := by
    obtain ⟨e', he', rfl⟩ := List.mem_map.mp ((Json.sortedFields_perm images).mem_iff.mp he)
    obtain ⟨fields, hfields, hnodup, q, hq⟩ := h.pulled e' he'
    refine ⟨sortedFields fields, ?_, Json.nodup_keys_sortedFields hnodup, q, ?_⟩
    · rw [hfields, Json.sortKeys_dict]
    · rw [hfields, pulledAt_sortKeys hnodup, ← hfields, hq]

/-- Nor to the whole state. -/
theorem Sound.sorted {state : State} (h : Sound state) : Sound (sortedFields state) where
  nodup := Json.nodup_keys_sortedFields h.nodup
  images := by
    obtain ⟨images, hget, hordered⟩ := h.images
    refine ⟨sortedFields images, ?_, hordered.sorted⟩
    rw [Json.get?_sortedFields h.nodup, hget, Option.map_some, Json.sortKeys_dict]
  sweeps := by
    obtain ⟨n, hget⟩ := h.sweeps
    exact ⟨n, by rw [Json.get?_sortedFields h.nodup, hget]; simp [sortKeys]⟩

/-- The file was written by a call, or there is none. -/
def Written (file : Option Json) : Prop :=
  ∀ content ∈ file, ∃ state, Sound state ∧ content = .dict (sortedFields state)

theorem setDefault_of_get? {state : State} {key : String} {value : Json}
    (h : state.get? key.toList = some value) (fallback : Json) :
    setDefault state key fallback = state :=
  if_pos (Dict.mem_keys.mpr ⟨value, Dict.mem_of_get? h⟩)

/-- What is loaded is sound, with a file and without. -/
theorem sound_load (startedAt : ℚ) {file : Option Json} (h : Written file) :
    Sound (load startedAt file) := by
  cases file with
  | none =>
    -- without a file the state is the default one
    have hload : load startedAt none = [("started_at".toList, .float (.fin startedAt)),
        ("sweep_count".toList, .int 0), ("images".toList, .dict [])] := rfl
    rw [hload]
    have hkeys : ["started_at".toList, "sweep_count".toList, "images".toList].Nodup := by decide
    exact ⟨hkeys, ⟨[], rfl, ordered_nil⟩, ⟨0, rfl⟩⟩
  | some content =>
    obtain ⟨state, hstate, rfl⟩ := h content rfl
    -- a file that was written has its fields, so only `started_at` may be filled in
    have hdefault :
        Sound (setDefault (sortedFields state) "started_at" (.float (.fin startedAt))) := by
      unfold setDefault
      split_ifs
      · exact hstate.sorted
      · exact hstate.sorted.set _ (by decide) (by decide)
    obtain ⟨n, hsweeps⟩ := hdefault.sweeps
    obtain ⟨images, himages, -⟩ := hdefault.images
    unfold load
    dsimp only
    rw [setDefault_of_get? hsweeps, setDefault_of_get? himages, himages]
    exact hdefault

/-! ### Calls -/

/-- The recorded fields leave the moment of the image alone. -/
def Update.KeepsMoment (u : Update) : Prop :=
  match u.change with
  | .record _ fields => "pulled_at".toList ∉ fields.keys
  | .noteError _ _ => True

instance decidableKeepsMoment : (u : Update) → Decidable u.KeepsMoment
  | ⟨.record _ fields, _, _⟩ => inferInstanceAs (Decidable ("pulled_at".toList ∉ fields.keys))
  | ⟨.noteError _ _, _, _⟩ => isTrue trivial

/-- A new entry carries the moment it was made. -/
theorem pulled_imageEntry (moment : ℚ) {fields : Dict Str Json}
    (h : "pulled_at".toList ∉ fields.keys) : Pulled (imageEntry moment fields) := by
  have hget : (fields.foldl (fun d e => Dict.set d e.1 e.2)
      [("pulled_at".toList, .float (.fin moment))]).get? "pulled_at".toList =
        some (Json.float (.fin moment)) :=
    Dict.get?_foldl_set.mpr (Or.inr ⟨h, rfl⟩)
  refine ⟨_, rfl, Dict.nodup_keys_foldl_set (by simp [Dict.keys]) fields, moment, ?_⟩
  rw [imageEntry, pulledAt_dict, hget, Option.getD_some, Json.orElse]
  by_cases hzero : moment = 0
  · -- a moment of zero is read as missing, which means zero again
    have hint : (Json.int 0).toFloat = .ok (.fin 0) := by decide +kernel
    simp [hzero, Json.truthy, hint]
  · simp [hzero, Json.truthy, Json.toFloat]

/-- Each of the updates keeps the state sound. -/
theorem sound_changed {state : State} (h : Sound state) {u : Update} (hu : u.KeepsMoment) :
    Sound (changed state u) := by
  unfold changed
  unfold Update.KeepsMoment at hu
  split at hu
  · exact h.withImages (h.get_images.2.set _ (pulled_imageEntry u.moment hu))
  · exact h.set _ (by decide) (by decide)

/-- Every call gets as far as the loop of `save`. -/
theorem exists_pending (startedAt : ℚ) {file : Option Json} (h : Written file) {u : Update}
    (hu : u.KeepsMoment) : ∃ state, pending startedAt file u = .ok state ∧ Sound state := by
  have hchanged : Sound (changed (load startedAt file) u) :=
    sound_changed (sound_load startedAt h) hu
  obtain ⟨count, hcount⟩ := hchanged.sweepCount
  have hcounted := hchanged.set_sweeps (count + 1)
  have hstarted := @Sound.set _ hcounted "started_at".toList
    ((field (Dict.set (changed (load startedAt file) u) "sweep_count".toList (.int (count + 1)))
      "started_at" .null).orElse (.float (.fin startedAt))) (by decide) (by decide)
  obtain ⟨count', hcount'⟩ := hstarted.sweepCount
  have hsaved := @Sound.set _ (hstarted.set_sweeps count') "updated_at".toList
    (.float (.fin u.savedAt)) (by decide) (by decide)
  refine ⟨_, ?_, hsaved⟩
  simp only [pending, prepare, hcount, hcount', bind, Except.bind, pure, Except.pure]

/-! ## The loop -/

theorem Pulled.pulledAt {image : Json} (h : Pulled image) :
    pulledAt image = .ok (.fin (momentOf image)) := by
  obtain ⟨fields, -, -, q, hq⟩ := h
  rw [momentOf, hq]

/-- `min` ends with a name and its moment, and no moment is earlier. -/
theorem exists_oldestFrom {images : Dict Str Json} (h : ∀ e ∈ images, Pulled e.2)
    (name : Str) (moment : ℚ) :
    ∃ name' moment', oldestFrom (name, .fin moment) images = .ok name' ∧
      (name' = name ∧ moment' = moment ∨
        ∃ e ∈ images, name' = e.1 ∧ moment' = momentOf e.2) ∧
      moment' ≤ moment ∧ ∀ e ∈ images, moment' ≤ momentOf e.2 := by
  induction images generalizing name moment with
  | nil => exact ⟨name, moment, rfl, Or.inl ⟨rfl, rfl⟩, le_rfl, by simp⟩
  | cons e rest ih =>
    have hrest := ih fun d hd => h d (List.mem_cons_of_mem _ hd)
    have hhead := (h e (by simp)).pulledAt
    have hstep : oldestFrom (name, .fin moment) (e :: rest) =
        oldestFrom (if momentOf e.2 < moment then (e.1, .fin (momentOf e.2))
          else (name, .fin moment)) rest := by
      rw [oldestFrom, hhead]
      simp only [bind, Except.bind, PyFloat.lt, decide_eq_true_eq]
    rw [hstep]
    -- strictly earlier, so of several oldest images the first stays
    by_cases hearlier : momentOf e.2 < moment
    · obtain ⟨name', moment', heq, hfrom, hle, hall⟩ := hrest e.1 (momentOf e.2)
      rw [if_pos hearlier]
      refine ⟨name', moment', heq, Or.inr ?_, hle.trans hearlier.le, ?_⟩
      · rcases hfrom with ⟨rfl, rfl⟩ | ⟨d, hd, hname, hmoment⟩
        · exact ⟨e, by simp, rfl, rfl⟩
        · exact ⟨d, List.mem_cons_of_mem _ hd, hname, hmoment⟩
      · exact List.forall_mem_cons.mpr ⟨hle, hall⟩
    · obtain ⟨name', moment', heq, hfrom, hle, hall⟩ := hrest name moment
      rw [if_neg hearlier]
      refine ⟨name', moment', heq, ?_, hle, ?_⟩
      · rcases hfrom with hbest | ⟨d, hd, hname, hmoment⟩
        · exact Or.inl hbest
        · exact Or.inr ⟨d, List.mem_cons_of_mem _ hd, hname, hmoment⟩
      · exact List.forall_mem_cons.mpr ⟨hle.trans (not_lt.mp hearlier), hall⟩

/-- The name that goes is one of an image that no other was pulled before. -/
theorem exists_oldestOf {images : Dict Str Json} (h : Ordered images) (hne : images ≠ []) :
    ∃ e ∈ images, oldestOf images = .ok e.1 ∧ ∀ d ∈ images, momentOf e.2 ≤ momentOf d.2 := by
  cases images with
  | nil => exact absurd rfl hne
  | cons first rest =>
    obtain ⟨name, moment, heq, hfrom, hle, hall⟩ := exists_oldestFrom
      (fun d hd => h.pulled d (List.mem_cons_of_mem _ hd)) first.1 (momentOf first.2)
    have hold : oldestOf (first :: rest) = .ok name := by
      rw [oldestOf, (h.pulled first (by simp)).pulledAt]
      exact heq
    have hleast : ∀ d ∈ first :: rest, moment ≤ momentOf d.2 :=
      List.forall_mem_cons.mpr ⟨hle, hall⟩
    rcases hfrom with ⟨rfl, rfl⟩ | ⟨e, he, rfl, rfl⟩
    · exact ⟨first, by simp, hold, hleast⟩
    · exact ⟨e, List.mem_cons_of_mem _ he, hold, hleast⟩

variable {p : Printer}

/-- The text of a state with these images in it is short enough. -/
def Fits (p : Printer) (state : State) (images : Dict Str Json) : Prop :=
  (dumpsSorted p (withImages state images)).length ≤ stateLimit

/-- The images that are kept are those pulled last, as many as fit: none that goes was pulled after
one that stays, and with the last one that goes the text would be too long. -/
structure KeepsNewest (p : Printer) (state : State) (images kept : Dict Str Json) : Prop where
  sublist : kept.Sublist images
  newest : ∀ a ∈ kept, ∀ b ∈ images, b.1 ∉ kept.keys → momentOf b.2 ≤ momentOf a.2
  full : kept ≠ images → ∃ b ∈ images, b.1 ∉ kept.keys ∧
    (∀ c ∈ images, c.1 ∉ kept.keys → momentOf c.2 ≤ momentOf b.2) ∧
    ¬ Fits p state (images.filter fun e => e.1 ∈ kept.keys ∨ e.1 = b.1)

/-- A state that was not cut keeps the newest images. -/
theorem keepsNewest_refl (state : State) (images : Dict Str Json) :
    KeepsNewest p state images images where
  sublist := List.Sublist.refl images
  newest _ _ b hb hout := absurd (Dict.mem_keys.mpr ⟨b.2, hb⟩) hout
  full hne := absurd rfl hne

/-- What is kept of all but the oldest image is kept of all of them. -/
theorem KeepsNewest.of_pop {state : State} {images kept : Dict Str Json} (h : Ordered images)
    {oldest : Str × Json} (hmem : oldest ∈ images)
    (hleast : ∀ d ∈ images, momentOf oldest.2 ≤ momentOf d.2) (hlong : ¬ Fits p state images)
    (hkept : KeepsNewest p state (images.pop oldest.1) kept) :
    KeepsNewest p state images kept := by
  -- every image but the oldest is still there
  have hpop : ∀ e ∈ images, e.1 ≠ oldest.1 → e ∈ images.pop oldest.1 := fun e he hne =>
    Dict.mem_pop.mpr ⟨hne, he⟩
  have hsame : ∀ e ∈ images, e.1 = oldest.1 → e = oldest := by
    intro e he heq
    have hget := (Dict.get?_eq_some_iff h.nodup).mpr he
    have hget' := (Dict.get?_eq_some_iff h.nodup).mpr hmem
    rw [heq, hget'] at hget
    exact Prod.ext heq (Option.some.inj hget).symm
  -- and the oldest is never put back
  have hout : oldest.1 ∉ kept.keys := by
    intro hin
    obtain ⟨image, himage⟩ := Dict.mem_keys.mp hin
    exact (Dict.mem_pop.mp (hkept.sublist.subset himage)).1 rfl
  refine ⟨hkept.sublist.trans List.filter_sublist, ?_, fun _ => ?_⟩
  · intro a ha b hb hb'
    by_cases hname : b.1 = oldest.1
    · rw [hsame b hb hname]
      exact hleast a (Dict.mem_pop.mp (hkept.sublist.subset ha)).2
    · exact hkept.newest a ha b (hpop b hb hname) hb'
  · by_cases hall : kept = images.pop oldest.1
    · -- only the oldest one goes
      refine ⟨oldest, hmem, hout, fun c hc hc' => ?_, ?_⟩
      · have hname : c.1 = oldest.1 := by
          by_contra hne
          exact hc' (hall ▸ Dict.mem_keys.mpr ⟨c.2, hpop c hc hne⟩)
        rw [hsame c hc hname]
      · have hfilter : images.filter (fun e => e.1 ∈ kept.keys ∨ e.1 = oldest.1) = images := by
          refine List.filter_eq_self.mpr fun e he => decide_eq_true ?_
          by_cases hname : e.1 = oldest.1
          · exact Or.inr hname
          · exact Or.inl (hall ▸ Dict.mem_keys.mpr ⟨e.2, hpop e he hname⟩)
        rwa [hfilter]
    -- something else went too, and that one was the last to go
    · obtain ⟨b, hb, hb', hlast, hfull⟩ := hkept.full hall
      obtain ⟨hbname, hbmem⟩ := Dict.mem_pop.mp hb
      refine ⟨b, hbmem, hb', fun c hc hc' => ?_, ?_⟩
      · by_cases hname : c.1 = oldest.1
        · rw [hsame c hc hname]
          exact hleast b hbmem
        · exact hlast c (hpop c hc hname) hc'
      · have hfilter : (images.pop oldest.1).filter (fun e => e.1 ∈ kept.keys ∨ e.1 = b.1) =
            images.filter fun e => e.1 ∈ kept.keys ∨ e.1 = b.1 := by
          rw [Dict.pop, List.filter_filter]
          refine List.filter_congr fun e _ => ?_
          by_cases hname : e.1 = oldest.1
          · simp [hname, hout, Ne.symm hbname]
          · simp [hname]
        rwa [hfilter] at hfull

theorem evict_of_short {state : State} {images : Dict Str Json}
    (h : ¬ (stateLimit < (dumpsSorted p state).length ∧ images ≠ [])) :
    evict p state images = .ok state := by
  rw [evict, if_neg h]

/-- One round of the eviction. -/
theorem evict_of_long {state : State} {images : Dict Str Json} {oldest : Str}
    (h : stateLimit < (dumpsSorted p state).length ∧ images ≠ [])
    (hold : oldestOf images = .ok oldest) :
    evict p state images =
      evict p (withImages state (images.pop oldest)) (images.pop oldest) := by
  rw [evict, if_pos h]
  split
  · next e he => rw [hold] at he; cases he
  · next name hname => rw [hold] at hname; cases hname; rfl

theorem withImages_withImages (state : State) (images images' : Dict Str Json) :
    withImages (withImages state images) images' = withImages state images' :=
  Dict.set_set state _ _ _

/-- The loop ends with the newest images, and with a text that is short enough unless no image is
left. -/
theorem exists_evict (p : Printer) (state : State) {images : Dict Str Json} (h : Ordered images) :
    ∃ kept, evict p (withImages state images) images = .ok (withImages state kept) ∧
      KeepsNewest p state images kept ∧ (Fits p state kept ∨ kept = []) := by
  -- on the number of images: each turn drops one
  induction hlen : images.length using Nat.strong_induction_on generalizing images with
  | _ n ih =>
    by_cases hlong : stateLimit < (dumpsSorted p (withImages state images)).length ∧ images ≠ []
    · obtain ⟨oldest, hmem, hold, hleast⟩ := exists_oldestOf h hlong.2
      have hshorter : (images.pop oldest.1).length < n :=
        hlen ▸ Dict.length_pop_lt (Dict.mem_keys.mpr ⟨oldest.2, hmem⟩)
      obtain ⟨kept, heq, hkept, hfits⟩ := ih _ hshorter (h.pop oldest.1) rfl
      refine ⟨kept, ?_, hkept.of_pop h hmem hleast (not_le.mpr hlong.1), hfits⟩
      rw [evict_of_long hlong hold, withImages_withImages, heq]
    · refine ⟨images, evict_of_short hlong, keepsNewest_refl state images, ?_⟩
      by_cases hne : images = []
      · exact Or.inr hne
      · exact Or.inl (not_lt.mp fun hlt => hlong ⟨hlt, hne⟩)

/-- Images only make the text longer. -/
theorem Fits.empty {state : State} {images : Dict Str Json} (h : Fits p state images) :
    Fits p state [] :=
  (Json.length_dumpsSorted_set_le (Json.size_dumps_empty_le p images) state _).trans h

/-! ## Histories -/

theorem KeepsNewest.ordered {state : State} {images kept : Dict Str Json}
    (h : KeepsNewest p state images kept) (himages : Ordered images) : Ordered kept where
  nodup := himages.nodup.sublist (h.sublist.map _)
  pulled e he := himages.pulled e (h.sublist.subset he)

/-- A call on a file that was written by a call. -/
theorem exists_apply (p : Printer) (startedAt : ℚ) {file : Option Json} (hfile : Written file)
    {u : Update} (hu : u.KeepsMoment) :
    ∃ state kept, pending startedAt file u = .ok state ∧
      apply p startedAt file u = .ok (withImages state kept) ∧ Sound (withImages state kept) ∧
      KeepsNewest p state (imagesOf state) kept ∧ (Fits p state kept ∨ kept = []) := by
  obtain ⟨state, hpending, hstate⟩ := exists_pending startedAt hfile hu
  obtain ⟨hget, hordered⟩ := hstate.get_images
  obtain ⟨kept, hevict, hkept, hfits⟩ := exists_evict p state hordered
  have hself : withImages state (imagesOf state) = state := Dict.set_eq_self hstate.nodup hget
  rw [hself] at hevict
  refine ⟨state, kept, hpending, ?_, hstate.withImages (hkept.ordered hordered), hkept, hfits⟩
  rw [apply, hpending]
  exact hevict

/-- Every file is written by a call. -/
theorem exists_fileAfter (p : Printer) (startedAt : ℚ) {updates : List Update}
    (h : ∀ u ∈ updates, u.KeepsMoment) :
    ∃ file, fileAfter p startedAt updates = .ok file ∧ Written file := by
  induction updates using List.reverseRecOn with
  | nil => exact ⟨none, rfl, by simp [Written]⟩
  | append_singleton updates u ih =>
    obtain ⟨file, hbefore, hfile⟩ := ih fun v hv => h v (List.mem_append_left _ hv)
    obtain ⟨state, kept, -, happly, hsound, -⟩ := exists_apply p startedAt hfile (h u (by simp))
    refine ⟨some (.dict (sortedFields (withImages state kept))), ?_, ?_⟩
    · rw [fileAfter] at hbefore ⊢
      rw [List.foldlM_append, hbefore]
      simp [happly, bind, Except.bind, pure, Except.pure]
    · intro content hcontent
      exact ⟨withImages state kept, hsound, (Option.some.inj hcontent).symm⟩

/-- What is saved keeps the images that were pulled last, as many as fit, and is within the
limit. -/
def Capped (p : Printer) (state saved : State) : Prop :=
  ∃ kept, saved = withImages state kept ∧ KeepsNewest p state (imagesOf state) kept ∧
    (dumpsSorted p saved).length ≤ stateLimit

/-- **When the state stays within its limit.** After any calls of `record` and `note_error`, the
next one ends and writes a state: its text is within the limit, and its images are those that were
pulled last, as many as fit, if and only if the state without any image is within the limit. No
field that is recorded is to replace the moment of its image. -/
theorem capped_iff (p : Printer) (startedAt : ℚ) {updates : List Update} {u : Update}
    (h : ∀ v ∈ updates ++ [u], v.KeepsMoment) :
    ∃ file state saved, fileAfter p startedAt updates = .ok file ∧
      pending startedAt file u = .ok state ∧ apply p startedAt file u = .ok saved ∧
      (Capped p state saved ↔ Fits p state []) := by
  obtain ⟨file, hbefore, hfile⟩ :=
    exists_fileAfter p startedAt fun v hv => h v (List.mem_append_left _ hv)
  obtain ⟨state, kept, hpending, happly, -, hkept, hfits⟩ :=
    exists_apply p startedAt hfile (h u (by simp))
  refine ⟨file, state, _, hbefore, hpending, happly, ?_, fun hempty => ⟨kept, rfl, hkept, ?_⟩⟩
  -- with images the state fits only if it does without them
  · rintro ⟨kept', heq, -, hlimit⟩
    rw [heq] at hlimit
    exact Fits.empty hlimit
  · rcases hfits with hfits | rfl
    · exact hfits
    · exact hempty

/-- Two images are pulled, and a third one fails. -/
def threeUpdates : List Update :=
  [⟨.record "base:1".toList [("size_bytes".toList, .int 7)], 100, 100⟩,
    ⟨.record "tool:2".toList [], 200, 201⟩]

theorem capped_iff_three : ∃ file state saved,
    fileAfter Json.asciiPrinter 50 threeUpdates = .ok file ∧
      pending 50 file ⟨.noteError "last:3".toList "timed out".toList, 300, 300⟩ = .ok state ∧
      apply Json.asciiPrinter 50 file ⟨.noteError "last:3".toList "timed out".toList, 300, 300⟩ =
        .ok saved ∧
      (Capped Json.asciiPrinter state saved ↔ Fits Json.asciiPrinter state []) :=
  capped_iff Json.asciiPrinter 50 (by decide)

/-! ## A long reference -/

/-- The last error is written as it was noted. -/
theorem get?_last_error {startedAt : ℚ} {file : Option Json} {reference error : Str}
    {moment savedAt : ℚ} {state : State}
    (h : pending startedAt file ⟨.noteError reference error, moment, savedAt⟩ = .ok state) :
    state.get? "last_error".toList = some (.dict [("reference".toList, .str reference),
      ("error".toList, .str (error.take 300)), ("at".toList, .float (.fin moment))]) := by
  obtain ⟨count, -, hprepare⟩ := Fallible.bind_eq_ok.mp h
  obtain ⟨count', -, hstate⟩ := Fallible.bind_eq_ok.mp hprepare
  rw [← Except.ok.inj hstate]
  have hother : ∀ key ∈ ["updated_at".toList, "sweep_count".toList, "started_at".toList],
      "last_error".toList ≠ key := by decide
  rw [Dict.get?_set, if_neg (hother _ (by simp)), Dict.get?_set, if_neg (hother _ (by simp)),
    Dict.get?_set, if_neg (hother _ (by simp)), Dict.get?_set, if_neg (hother _ (by simp)), changed,
    Dict.get?_set, if_pos rfl]

/-- An error about an image whose name is longer than the limit does not fit. -/
theorem not_fits_of_long_reference (p : Printer) {startedAt : ℚ} {file : Option Json}
    {reference error : Str} {moment savedAt : ℚ} {state : State}
    (hlong : stateLimit < reference.length)
    (h : pending startedAt file ⟨.noteError reference error, moment, savedAt⟩ = .ok state) :
    ¬ Fits p state [] := by
  -- the reference of the last error is kept whole, and only the error is cut
  have hget : (withImages state []).get? "last_error".toList = some (.dict
      [("reference".toList, .str reference), ("error".toList, .str (error.take 300)),
        ("at".toList, .float (.fin moment))]) := by
    rw [withImages, Dict.get?_set, if_neg (by decide), get?_last_error h]
  -- the state is as long as its field, and the field as long as its reference
  have houter := Json.size_le_length_dumpsSorted p (Dict.mem_of_get? hget)
  rw [Json.size_dumps_sortKeys_dict] at houter
  have hmem : ("reference".toList, Json.str reference) ∈
      [("reference".toList, Json.str reference), ("error".toList, .str (error.take 300)),
        ("at".toList, .float (.fin moment))] := List.mem_cons_self
  have hinner := Json.size_le_length_dumpsSorted p hmem
  have hstr : Json.dumps p (sortKeys (.str reference)) = Json.dumpsStr reference := by
    simp [sortKeys, Json.dumps]
  dsimp only at hinner
  rw [hstr] at hinner
  have hreference := Json.length_le_size_dumpsStr reference
  rw [Fits]
  omega

/-- A name of an image with five thousand letters. -/
def longReference : Str := List.replicate 5000 'a'

/-- `warm` lets the name through, and the error that another pull holds the lock makes the file
longer than its limit. -/
theorem long_reference_overflows :
    referencePattern longReference ∧
    ∃ state saved,
      pending 50 none ⟨.noteError longReference "another pull holds the lock".toList, 100, 100⟩ =
        .ok state ∧
      apply Json.asciiPrinter 50 none
        ⟨.noteError longReference "another pull holds the lock".toList, 100, 100⟩ = .ok saved ∧
      stateLimit < (dumpsSorted Json.asciiPrinter saved).length ∧
      ¬ Capped Json.asciiPrinter state saved := by
  have hpattern : referencePattern longReference := by decide +kernel
  have hwritten : Written none := by simp [Written]
  obtain ⟨state, kept, hpending, happly, -, -, -⟩ := exists_apply Json.asciiPrinter 50 hwritten
    (u := ⟨.noteError longReference "another pull holds the lock".toList, 100, 100⟩) trivial
  -- one reference that is longer than the limit
  have hlong : stateLimit < longReference.length := by
    rw [longReference, List.length_replicate]
    decide
  have hfits := not_fits_of_long_reference Json.asciiPrinter hlong hpending
  refine ⟨hpattern, state, _, hpending, happly, ?_, ?_⟩
  · exact not_le.mp fun hle => hfits (Fits.empty hle)
  · rintro ⟨kept', heq, -, hlimit⟩
    rw [heq] at hlimit
    exact hfits (Fits.empty hlimit)

end ComputePool.Agent.Prefetch
