import ComputePool.Foundations.Json
import ComputePool.Validator.Work.JobSpec

/-!
# The store of jobs

`JobStore` of `validator/work/containers.py`, with the payloads of `JobSpec`, `PortMapping` and
`VolumeSpec`. A job is a file of its own in one directory. `save` writes a second file and renames
it, so that the first one is never half written.

* `JobSpec.fromPayload_payload`: a specification is read back as it was written.
* `represents_run`: after any saves and forgets, the directory has one file for every job that was
  saved and not forgotten, and no other file.
* `store_returns_saved`: what `load` and `all` give then.
-/

namespace ComputePool.Validator

open Text Numeral Json

/-! ## Payloads -/

/-- The fields of `PortMapping.payload`. -/
def PortMapping.fields (mapping : PortMapping) : Dict Str Json :=
  [("host".toList, .int mapping.host), ("container".toList, .int mapping.container),
    ("protocol".toList, .str mapping.protocol)]

/-- `PortMapping.payload`. -/
def PortMapping.payload (mapping : PortMapping) : Json :=
  .dict mapping.fields

/-- The fields of `VolumeSpec.payload`. -/
def VolumeSpec.fields (volume : VolumeSpec) : Dict Str Json :=
  [("name".toList, .str volume.name), ("mount_path".toList, .str volume.mountPath),
    ("size_gb".toList, .float volume.sizeGb), ("driver".toList, .str volume.driver),
    ("sparse".toList, .bool volume.sparse), ("encrypted".toList, .bool volume.encrypted),
    ("create".toList, .bool volume.create)]

/-- `VolumeSpec.payload`. -/
def VolumeSpec.payload (volume : VolumeSpec) : Json :=
  .dict volume.fields

/-- A list of texts. -/
def texts (items : List Str) : Json :=
  .list (items.map .str)

/-- The fields of `JobSpec.payload`. -/
def JobSpec.fields (spec : JobSpec) : Dict Str Json :=
  [("job_id".toList, .str spec.jobId), ("kind".toList, .str spec.kind),
    ("image".toList, .str spec.image), ("gpu_uuids".toList, texts spec.gpuUuids),
    ("owner".toList, .str spec.owner), ("memory_gb".toList, .float spec.memoryGb),
    ("cpus".toList, .float spec.cpus), ("storage_gb".toList, .float spec.storageGb),
    ("shm_size".toList, .str spec.shmSize),
    ("ports".toList, .list (spec.ports.map PortMapping.payload)),
    ("container_ports".toList, .list (spec.containerPorts.map .int)),
    ("port_range".toList, .str spec.portRange),
    ("env".toList, .dict (spec.env.map fun entry => (entry.1, .str entry.2))),
    ("command".toList, .str spec.command), ("entrypoint".toList, .str spec.entrypoint),
    ("volumes".toList, .list (spec.volumes.map VolumeSpec.payload)),
    ("whole_node".toList, .bool spec.wholeNode), ("devices".toList, texts spec.devices),
    ("isolation".toList, .bool spec.isolation),
    ("power_caps".toList, .dict (spec.powerCaps.map fun entry => (entry.1, .float entry.2))),
    ("quotas_supported".toList, .bool spec.quotasSupported),
    ("workspace_user".toList, .str spec.workspaceUser)]

/-- `JobSpec.payload`. -/
def JobSpec.payload (spec : JobSpec) : Json :=
  .dict spec.fields

section Reading

variable (p : Printer) (payload : Json) (key : String)

/-- `str(payload.get(key, ""))`. -/
def textField : Except Raised Str := do
  return (← payload.get key.toList (.str [])).toStr p

/-- `str(payload.get(key, default) or default)`. -/
def textFieldOr (fallback : Str) : Except Raised Str := do
  return ((← payload.get key.toList (.str fallback)).orElse (.str fallback)).toStr p

/-- `float(payload.get(key, 0.0) or 0.0)`. -/
def floatField : Except Raised PyFloat := do
  toFloat ((← payload.get key.toList (.float (.fin 0))).orElse (.float (.fin 0)))

/-- `int(payload.get(key, 0) or 0)`. -/
def intField : Except Raised ℤ := do
  toInt ((← payload.get key.toList (.int 0)).orElse (.int 0))

/-- `bool(payload.get(key, default))`. -/
def boolField (fallback : Bool) : Except Raised Bool := do
  return (← payload.get key.toList (.bool fallback)).truthy

/-- `[read(item) for item in payload.get(key) or []]`. -/
def listField {α : Type} (read : Json → Except Raised α) : Except Raised (List α) := do
  (← ((← payload.get key.toList .null).orElse (.list [])).iter).mapM read

/-- `{str(k): read(v) for k, v in (payload.get(key) or {}).items()}`. -/
def dictField {α : Type} (read : Json → Except Raised α) : Except Raised (Dict Str α) := do
  let entries ← ((← payload.get key.toList .null).orElse (.dict [])).items
  return Dict.ofItems (← entries.mapM fun entry => do return (entry.1, ← read entry.2))

end Reading

/-- `PortMapping.from_payload`. -/
def PortMapping.fromPayload (p : Printer) (payload : Json) : Except Raised PortMapping := do
  return {
    host := ← intField payload "host"
    container := ← intField payload "container"
    protocol := ← textFieldOr p payload "protocol" "tcp".toList }

/-- `VolumeSpec.from_payload`. -/
def VolumeSpec.fromPayload (p : Printer) (payload : Json) : Except Raised VolumeSpec := do
  return {
    name := ← textField p payload "name"
    mountPath := ← textField p payload "mount_path"
    sizeGb := ← floatField payload "size_gb"
    driver := ← textFieldOr p payload "driver" []
    sparse := ← boolField payload "sparse" false
    encrypted := ← boolField payload "encrypted" false
    create := ← boolField payload "create" true }

/-- `JobSpec.from_payload`. -/
def JobSpec.fromPayload (p : Printer) (payload : Json) : Except Raised JobSpec := do
  return {
    jobId := ← textField p payload "job_id"
    kind := ← textField p payload "kind"
    image := ← textField p payload "image"
    gpuUuids := ← listField payload "gpu_uuids" fun item => .ok (item.toStr p)
    owner := ← textFieldOr p payload "owner" []
    memoryGb := ← floatField payload "memory_gb"
    cpus := ← floatField payload "cpus"
    storageGb := ← floatField payload "storage_gb"
    shmSize := ← textFieldOr p payload "shm_size" "1g".toList
    ports := ← listField payload "ports" (PortMapping.fromPayload p)
    containerPorts := ← listField payload "container_ports" toInt
    portRange := ← textFieldOr p payload "port_range" []
    env := ← dictField payload "env" fun value => .ok (value.toStr p)
    command := ← textFieldOr p payload "command" []
    entrypoint := ← textFieldOr p payload "entrypoint" []
    volumes := ← listField payload "volumes" (VolumeSpec.fromPayload p)
    wholeNode := ← boolField payload "whole_node" false
    devices := ← listField payload "devices" fun item => .ok (item.toStr p)
    isolation := ← boolField payload "isolation" false
    powerCaps := ← dictField payload "power_caps" toFloat
    quotasSupported := ← boolField payload "quotas_supported" false
    workspaceUser := ← textFieldOr p payload "workspace_user" [] }

/-! ## Reading back what was written -/

/-- The field of an object. -/
def Holds (payload : Json) (key : String) (value : Json) : Prop :=
  ∀ fallback, payload.get key.toList fallback = .ok value

/-- A payload holds what stands at a place of it. -/
theorem holds_of_getElem? {fields : Dict Str Json} (hkeys : fields.keys.Nodup) {key : String}
    {value : Json} (i : ℕ) (h : fields[i]? = some (key.toList, value)) :
    Holds (.dict fields) key value := by
  intro fallback
  have hget := (Dict.get?_eq_some_iff hkeys).mpr (List.mem_of_getElem? h)
  rw [Json.get, hget, Option.getD_some]

section Fields

variable {p : Printer} {payload : Json} {key : String}

theorem textField_of_holds {s : Str} (h : Holds payload key (.str s)) :
    textField p payload key = .ok s := by
  rw [textField, h]
  rfl

/-- A text is read back unless it is empty and something else stands for it. -/
theorem textFieldOr_of_holds {s fallback : Str} (h : Holds payload key (.str s))
    (hempty : s = [] → fallback = []) : textFieldOr p payload key fallback = .ok s := by
  rw [textFieldOr, h]
  cases s with
  | nil =>
    rw [hempty rfl]
    rfl
  | cons c s => rfl

/-- A number that is held is read as it is. -/
theorem floatField_of_holds {x : PyFloat} (h : Holds payload key (.float x)) :
    floatField payload key = .ok x := by
  rw [floatField, h]
  by_cases hzero : x = .fin 0
  · rw [hzero]
    rfl
  · have hor : (Json.float x).orElse (.float (.fin 0)) = .float x := by
      simp [orElse, truthy, hzero]
    show toFloat ((Json.float x).orElse _) = _
    rw [hor]
    rfl

/-- An integer that is held is read as it is. -/
theorem intField_of_holds {n : ℤ} (h : Holds payload key (.int n)) :
    intField payload key = .ok n := by
  rw [intField, h]
  by_cases hzero : n = 0
  · rw [hzero]
    rfl
  · have hor : (Json.int n).orElse (.int 0) = .int n := by
      simp [orElse, truthy, hzero]
    show toInt ((Json.int n).orElse _) = _
    rw [hor]
    rfl

theorem boolField_of_holds {b fallback : Bool} (h : Holds payload key (.bool b)) :
    boolField payload key fallback = .ok b := by
  rw [boolField, h]
  rfl

/-- What is written item by item is read item by item. -/
theorem mapM_map_eq_ok {α β : Type} {write : α → β} {read : β → Except Raised α}
    {items : List α} (h : ∀ a ∈ items, read (write a) = .ok a) :
    (items.map write).mapM read = .ok items := by
  induction items with
  | nil => rfl
  | cons a items ih =>
    rw [List.forall_mem_cons] at h
    rw [List.map_cons, List.mapM_cons, h.1, ih h.2]
    rfl

/-- A list that is held is read as it was written. -/
theorem listField_of_holds {α : Type} {write : α → Json} {read : Json → Except Raised α}
    {items : List α} (h : Holds payload key (.list (items.map write)))
    (hread : ∀ a ∈ items, read (write a) = .ok a) : listField payload key read = .ok items := by
  rw [listField, h]
  -- an empty list is replaced by an empty list
  have hor : (Json.list (items.map write)).orElse (.list []) = .list (items.map write) := by
    cases items with
    | nil => rfl
    | cons a items => rfl
  show ((Json.list (items.map write)).orElse (.list [])).iter >>= _ = _
  rw [hor]
  exact mapM_map_eq_ok hread

/-- A table that is held is read as it was written. -/
theorem dictField_of_holds {α : Type} {write : α → Json} {read : Json → Except Raised α}
    {d : Dict Str α} (h : Holds payload key (.dict (d.map fun e => (e.1, write e.2))))
    (hkeys : d.keys.Nodup) (hread : ∀ a, read (write a) = .ok a) :
    dictField payload key read = .ok d := by
  rw [dictField, h]
  -- an empty dictionary is falsy, and `or {}` gives another empty one
  have hor : (Json.dict (d.map fun e => (e.1, write e.2))).orElse (.dict []) =
      .dict (d.map fun e => (e.1, write e.2)) := by
    cases d with
    | nil => rfl
    | cons e d => rfl
  -- each value is read back as it was written
  have hitems : (d.map fun e => (e.1, write e.2)).mapM (fun entry =>
      do return (entry.1, ← read entry.2)) = (.ok d : Except Raised (List (Str × α))) := by
    apply mapM_map_eq_ok
    intro e _
    rw [hread]
    rfl
  show ((Json.dict _).orElse (.dict [])).items >>= _ = _
  rw [hor]
  show ((d.map fun e => (e.1, write e.2)).mapM (fun entry =>
    do return (entry.1, ← read entry.2)) >>= _) = _
  rw [hitems]
  exact congrArg Except.ok (Dict.ofItems_of_nodup hkeys)

end Fields

/-- No key comes twice: the keys do not depend on the values. -/
theorem PortMapping.nodup_keys_fields (mapping : PortMapping) : mapping.fields.keys.Nodup := by
  show (fields ⟨0, 0, []⟩).keys.Nodup
  decide

theorem VolumeSpec.nodup_keys_fields (volume : VolumeSpec) : volume.fields.keys.Nodup := by
  show (fields { name := [], mountPath := [] }).keys.Nodup
  decide

theorem JobSpec.nodup_keys_fields (spec : JobSpec) : spec.fields.keys.Nodup := by
  show sampleJob.fields.keys.Nodup
  decide +kernel

/-- A port mapping with a protocol is read back. -/
theorem PortMapping.fromPayload_payload {p : Printer} {mapping : PortMapping}
    (h : mapping.protocol ≠ []) : fromPayload p mapping.payload = .ok mapping := by
  have hfield := @holds_of_getElem? _ mapping.nodup_keys_fields
  rw [fromPayload, payload, intField_of_holds (hfield 0 rfl), intField_of_holds (hfield 1 rfl),
    textFieldOr_of_holds (hfield 2 rfl) (absurd · h)]
  rfl

/-- A volume is read as it was written. -/
theorem VolumeSpec.fromPayload_payload {p : Printer} {volume : VolumeSpec} :
    fromPayload p volume.payload = .ok volume := by
  have hfield := @holds_of_getElem? _ volume.nodup_keys_fields
  rw [fromPayload, payload, textField_of_holds (hfield 0 rfl), textField_of_holds (hfield 1 rfl),
    floatField_of_holds (hfield 2 rfl), textFieldOr_of_holds (hfield 3 rfl) (fun _ => rfl),
    boolField_of_holds (hfield 4 rfl), boolField_of_holds (hfield 5 rfl),
    boolField_of_holds (hfield 6 rfl)]
  rfl

/-- A specification whose empty fields have no other value stand for them, with the keys of a
dictionary. -/
structure Storable (spec : JobSpec) : Prop where
  jobId : jobIdPattern spec.jobId
  shmSize : spec.shmSize ≠ []
  protocols : ∀ mapping ∈ spec.ports, mapping.protocol ≠ []
  envKeys : spec.env.keys.Nodup
  capKeys : spec.powerCaps.keys.Nodup

/-- A specification is read back as it was written. -/
theorem JobSpec.fromPayload_payload {p : Printer} {spec : JobSpec} (h : Storable spec) :
    fromPayload p spec.payload = .ok spec := by
  -- the keys differ, so each field finds the value that was written under its name
  have hfield := @holds_of_getElem? _ spec.nodup_keys_fields
  rw [fromPayload, payload, textField_of_holds (hfield 0 rfl), textField_of_holds (hfield 1 rfl),
    textField_of_holds (hfield 2 rfl), listField_of_holds (hfield 3 rfl) (fun _ _ => rfl),
    textFieldOr_of_holds (hfield 4 rfl) (fun _ => rfl), floatField_of_holds (hfield 5 rfl),
    floatField_of_holds (hfield 6 rfl), floatField_of_holds (hfield 7 rfl),
    textFieldOr_of_holds (hfield 8 rfl) (absurd · h.shmSize),
    listField_of_holds (hfield 9 rfl) fun mapping hmapping =>
      PortMapping.fromPayload_payload (h.protocols mapping hmapping),
    listField_of_holds (hfield 10 rfl) (fun _ _ => rfl),
    textFieldOr_of_holds (hfield 11 rfl) (fun _ => rfl),
    dictField_of_holds (hfield 12 rfl) h.envKeys (fun _ => rfl),
    textFieldOr_of_holds (hfield 13 rfl) (fun _ => rfl),
    textFieldOr_of_holds (hfield 14 rfl) (fun _ => rfl),
    listField_of_holds (hfield 15 rfl) (fun _ _ => VolumeSpec.fromPayload_payload),
    boolField_of_holds (hfield 16 rfl), listField_of_holds (hfield 17 rfl) (fun _ _ => rfl),
    boolField_of_holds (hfield 18 rfl), dictField_of_holds (hfield 19 rfl) h.capKeys (fun _ => rfl),
    boolField_of_holds (hfield 20 rfl), textFieldOr_of_holds (hfield 21 rfl) (fun _ => rfl)]
  rfl

/-! ## Files -/

namespace JobStore

/-- The files of the store by their names, once the directory exists. -/
abbrev Directory := Option (Dict Str Str)

/-- `path.stem`, of a file name. -/
def stemOf (name : Str) : Str :=
  match rfind name ['.'] with
  | some i => if 0 < i ∧ i < name.length - 1 then name.take i else name
  | none => name

/-- `path.with_suffix(suffix)`. -/
def withSuffix (name suffix : Str) : Str :=
  stemOf name ++ suffix

/-- The file of a job. -/
def fileName (jobId : Str) : Str :=
  jobId ++ ".json".toList

/-- `JobStore._file`. -/
def fileOf (jobId : Str) : Except Raised Str :=
  if jobIdPattern jobId then .ok (fileName jobId) else .error .valueError

/-- The body of a file. -/
def bodyOf (spec : JobSpec) (rigId : Str) (savedAt : PyFloat) : Json :=
  .dict [("rig_id".toList, .str rigId), ("saved_at".toList, .float savedAt),
    ("spec".toList, spec.payload)]

/-- `os.replace(temp, target)`. -/
def replaceFile (files : Dict Str Str) (temp target : Str) : Dict Str Str :=
  match files.get? temp with
  | some text => (files.pop temp).set target text
  | none => files

section Store

variable (p : Printer) (loads : Str → Option Json)

/-- `JobStore.save`. -/
def save (spec : JobSpec) (rigId : Str) (savedAt : PyFloat) (dir : Directory) :
    Except Raised Unit × Directory :=
  let files := dir.getD []
  match fileOf spec.jobId with
  | .error e => (.error e, some files)
  | .ok target =>
    let temp := withSuffix target ".tmp".toList
    let files := files.set temp (dumpsIndent p 0 (bodyOf spec rigId savedAt))
    (.ok (), some (replaceFile files temp target))

/-- `JobStore.load`; `json.loads` gives `none` for the `ValueError`. -/
def load (jobId : Str) (dir : Directory) : Except Raised (Option (JobSpec × Str)) := do
  let target ← fileOf jobId
  match (dir.getD []).get? target with
  | none => return none
  | some text =>
    match loads text with
    | none => return none
    | some body =>
      let payload ← body.get "spec".toList .null
      let spec ← JobSpec.fromPayload p (payload.orElse (.dict []))
      let rigId ← body.get "rig_id".toList (.str [])
      return some (spec, rigId.textOr p)

/-- `JobStore.forget`: a missing file and an id that is not accepted are passed over. -/
def forget (jobId : Str) (dir : Directory) : Directory :=
  match fileOf jobId with
  | .error _ => dir
  | .ok target => dir.map (·.pop target)

/-- The loop of `JobStore.all`. -/
def loadEach (dir : Directory) : List Str → Except Raised (List (JobSpec × Str))
  | [] => return []
  | name :: names => do
    let loaded ← load p loads (stemOf name) dir
    return loaded.toList ++ (← loadEach dir names)

/-- `JobStore.all`. -/
def all (dir : Directory) : Except Raised (List (JobSpec × Str)) :=
  match dir with
  | none => .ok []
  | some files =>
    loadEach p loads dir ((files.keys.filter (endsWith · ".json".toList)).mergeSort strLe)

/-! ## Runs -/

/-- What is done to the store. -/
inductive StoreOp
  | save (spec : JobSpec) (rigId : Str) (savedAt : PyFloat)
  | forget (jobId : Str)

/-- The job it is about. -/
def StoreOp.jobId : StoreOp → Str
  | .save spec _ _ => spec.jobId
  | .forget jobId => jobId

/-- The directory after it. -/
def StoreOp.apply (dir : Directory) : StoreOp → Directory
  | .save spec rigId savedAt => (JobStore.save p spec rigId savedAt dir).2
  | .forget jobId => JobStore.forget jobId dir

/-- The directory after a run, from the beginning on. -/
def runStore (ops : List StoreOp) : Directory :=
  ops.foldl (StoreOp.apply p) none

end Store

/-! ## What the store is for -/

/-- The jobs of the store: what was saved, where, and when. -/
abbrev Ledger := Str → Option (JobSpec × Str × PyFloat)

/-- The jobs after it. An id that is not accepted has no file. -/
def StoreOp.update (ledger : Ledger) : StoreOp → Ledger
  | .save spec rigId savedAt =>
    if jobIdPattern spec.jobId then
      Function.update ledger spec.jobId (some (spec, rigId, savedAt))
    else ledger
  | .forget jobId => Function.update ledger jobId none

/-- The jobs after a run. -/
def runLedger (ops : List StoreOp) : Ledger :=
  ops.foldl StoreOp.update fun _ => none

/-- There is one file for every job, and no other file. -/
structure Represents (p : Printer) (dir : Directory) (ledger : Ledger) : Prop where
  nodup : (dir.getD []).keys.Nodup
  accepted : ∀ id spec rest, ledger id = some (spec, rest) → jobIdPattern id ∧ spec.jobId = id
  files : ∀ name text, (dir.getD []).get? name = some text ↔ ∃ id spec rigId savedAt,
    ledger id = some (spec, rigId, savedAt) ∧ name = fileName id ∧
      text = dumpsIndent p 0 (bodyOf spec rigId savedAt)

/-! ## Names -/

theorem fileName_injective : Function.Injective fileName :=
  fun _ _ h => List.append_cancel_right h

theorem ne_nil_of_jobIdPattern {id : Str} (h : jobIdPattern id) : id ≠ [] := by
  rintro rfl
  exact absurd h (by decide)

/-- The dots of an id do not matter: the last dot of the name is the one of the suffix. -/
theorem stemOf_fileName {id : Str} (h : id ≠ []) : stemOf (fileName id) = id := by
  have hfind : rfind (fileName id) ['.'] = some id.length := by
    have hname : fileName id = id ++ ([] ++ ['.']) ++ "json".toList := by
      rw [fileName, List.append_assoc]
      rfl
    rw [hname]
    exact rfind_eq_some (by decide)
  have hlength : 0 < id.length ∧ id.length < (fileName id).length - 1 := by
    refine ⟨List.length_pos_of_ne_nil h, ?_⟩
    simp [fileName]
  rw [stemOf, hfind]
  dsimp only
  rw [if_pos hlength, fileName, List.take_left]

/-- The second file of a save is the file of no job. -/
theorem tmp_ne_fileName (id id' : Str) : id ++ ".tmp".toList ≠ fileName id' := by
  intro heq
  have hlast := congrArg List.getLast? heq
  simp [fileName] at hlast

/-! ## The directory after every step -/

section Steps

variable {p : Printer} {dir : Directory} {ledger : Ledger}

theorem represents_none : Represents p none fun _ => none where
  nodup := List.nodup_nil
  accepted := by simp
  files := by simp

/-- Only the files of jobs are there. -/
theorem Represents.get?_eq_none (h : Represents p dir ledger) {name : Str}
    (hname : ∀ id, name ≠ fileName id) : (dir.getD []).get? name = none := by
  rw [Option.eq_none_iff_forall_ne_some]
  intro text htext
  obtain ⟨id, _, _, _, -, heq, -⟩ := (h.files name text).mp htext
  exact hname id heq

/-- A save renames the second file to the file of the job. -/
theorem save_eq {spec : JobSpec} {rigId : Str} {savedAt : PyFloat} (hid : jobIdPattern spec.jobId) :
    let temp := spec.jobId ++ ".tmp".toList
    let text := dumpsIndent p 0 (bodyOf spec rigId savedAt)
    (save p spec rigId savedAt dir).2 =
      some ((((dir.getD []).set temp text).pop temp).set (fileName spec.jobId) text) := by
  have hfile : fileOf spec.jobId = .ok (fileName spec.jobId) := if_pos hid
  rw [save, hfile]
  dsimp only
  rw [withSuffix, stemOf_fileName (ne_nil_of_jobIdPattern hid), replaceFile, Dict.get?_set,
    if_pos rfl]

theorem save_refused {spec : JobSpec} {rigId : Str} {savedAt : PyFloat}
    (hid : ¬ jobIdPattern spec.jobId) :
    (save p spec rigId savedAt dir).2 = some (dir.getD []) := by
  rw [save, fileOf, if_neg hid]

/-- A step that changes the file of one job and nothing else. -/
theorem Represents.update (h : Represents p dir ledger) {dir' : Directory} {id : Str}
    {entry : Option (JobSpec × Str × PyFloat)} (hid : jobIdPattern id)
    (hnodup : (dir'.getD []).keys.Nodup)
    (hentry : ∀ spec rest, entry = some (spec, rest) → spec.jobId = id)
    (hget : ∀ name, (dir'.getD []).get? name =
      if name = fileName id then entry.map fun e => dumpsIndent p 0 (bodyOf e.1 e.2.1 e.2.2)
      else (dir.getD []).get? name) :
    Represents p dir' (Function.update ledger id entry) := by
  refine ⟨hnodup, fun id' spec rest hheld => ?_, fun name text => ?_⟩
  · rw [Function.update_apply] at hheld
    split_ifs at hheld with heq
    · exact ⟨heq ▸ hid, heq ▸ hentry spec rest hheld⟩
    · exact h.accepted id' spec rest hheld
  · rw [hget]
    split_ifs with hname
    · -- the file of the job: no other job has a file of this name
      subst hname
      constructor
      · intro htext
        obtain ⟨⟨spec, rigId, savedAt⟩, rfl, rfl⟩ := Option.map_eq_some_iff.mp htext
        exact ⟨id, spec, rigId, savedAt, by simp, rfl, rfl⟩
      · rintro ⟨id', spec, rigId, savedAt, hheld, heq, rfl⟩
        obtain rfl := fileName_injective heq
        rw [Function.update_self] at hheld
        rw [hheld, Option.map_some]
    -- any other file: its job is another one, whose entry stays
    · rw [h.files]
      have hother (id' : Str) (heq : name = fileName id') : id' ≠ id := by
        rintro rfl
        exact hname heq
      constructor
      · rintro ⟨id', spec, rigId, savedAt, hheld, heq, rfl⟩
        refine ⟨id', spec, rigId, savedAt, ?_, heq, rfl⟩
        rw [Function.update_of_ne (hother id' heq), hheld]
      · rintro ⟨id', spec, rigId, savedAt, hheld, heq, rfl⟩
        rw [Function.update_of_ne (hother id' heq)] at hheld
        exact ⟨id', spec, rigId, savedAt, hheld, heq, rfl⟩

/-- Saving writes one file, the one of its job. -/
theorem Represents.save (h : Represents p dir ledger) (spec : JobSpec) (rigId : Str)
    (savedAt : PyFloat) :
    Represents p (JobStore.save p spec rigId savedAt dir).2
      (StoreOp.update ledger (.save spec rigId savedAt)) := by
  rw [StoreOp.update]
  split_ifs with hid
  -- `get?` of a renamed, removed and written file, one after the other
  · rw [save_eq hid]
    apply h.update hid
    · exact Dict.nodup_keys_set (Dict.nodup_keys_filter (Dict.nodup_keys_set h.nodup _ _) _) _ _
    · intro spec' rest heq
      rw [(Prod.mk.inj (Option.some.inj heq)).1]
    · intro name
      rw [Option.getD_some, Dict.get?_set, Dict.get?_pop, Dict.get?_set]
      split_ifs with htarget htemp
      · rfl
      · rw [htemp, h.get?_eq_none (tmp_ne_fileName _)]
      · rfl
  · rw [save_refused hid]
    exact ⟨h.nodup, h.accepted, h.files⟩

/-- Forgetting removes one file, the one of its job. -/
theorem Represents.forget (h : Represents p dir ledger) (jobId : Str) :
    Represents p (JobStore.forget jobId dir) (StoreOp.update ledger (.forget jobId)) := by
  rw [JobStore.forget, fileOf, StoreOp.update]
  split_ifs with hid
  · have hfiles : (dir.map (·.pop (fileName jobId))).getD [] =
        (dir.getD []).pop (fileName jobId) := by
      cases dir with
      | none => rfl
      | some files => rfl
    apply h.update hid
    · rw [hfiles]
      exact Dict.nodup_keys_filter h.nodup _
    · simp
    · intro name
      rw [hfiles, Dict.get?_pop]
      rfl
  · -- there is no such job
    have habsent : ledger jobId = none := by
      rw [Option.eq_none_iff_forall_ne_some]
      rintro ⟨spec, rest⟩ hheld
      exact hid (h.accepted jobId spec rest hheld).1
    rw [← habsent, Function.update_eq_self]
    exact h

/-- After any saves and forgets, there is one file for every job that was saved and not forgotten,
and no other file. -/
theorem represents_run (p : Printer) (ops : List StoreOp) :
    Represents p (runStore p ops) (runLedger ops) := by
  rw [runStore, runLedger]
  have hrun {dir : Directory} {ledger : Ledger} (h : Represents p dir ledger) :
      Represents p (ops.foldl (StoreOp.apply p) dir) (ops.foldl StoreOp.update ledger) := by
    induction ops generalizing dir ledger with
    | nil => exact h
    | cons op ops ih =>
      apply ih
      cases op with
      | save spec rigId savedAt => exact h.save spec rigId savedAt
      | forget jobId => exact h.forget jobId
  exact hrun represents_none

/-! ## What is read -/

variable {loads : Str → Option Json}

/-- A job is loaded as it was saved. -/
theorem Represents.load (h : Represents p dir ledger) {id : Str} {spec : JobSpec} {rigId : Str}
    {savedAt : PyFloat} (hheld : ledger id = some (spec, rigId, savedAt))
    (hloads : loads (dumpsIndent p 0 (bodyOf spec rigId savedAt)) =
      some (bodyOf spec rigId savedAt)) (hspec : Storable spec) :
    JobStore.load p loads id dir = .ok (some (spec, rigId)) := by
  have hfile : fileOf id = .ok (fileName id) := if_pos (h.accepted id spec _ hheld).1
  have htext := (h.files (fileName id) _).mpr ⟨id, spec, rigId, savedAt, hheld, rfl, rfl⟩
  rw [JobStore.load, hfile]
  show (match (dir.getD []).get? (fileName id) with
    | none => _
    | some text => _) = _
  rw [htext]
  dsimp only
  rw [hloads]
  dsimp only
  -- the payload is never empty
  have hspecField : (bodyOf spec rigId savedAt).get "spec".toList .null = .ok spec.payload := rfl
  have hrigField : (bodyOf spec rigId savedAt).get "rig_id".toList (.str []) = .ok (.str rigId) :=
    rfl
  have hor : spec.payload.orElse (.dict []) = spec.payload := rfl
  rw [hspecField, hrigField]
  show (JobSpec.fromPayload p (spec.payload.orElse (.dict [])) >>= _) = _
  rw [hor, JobSpec.fromPayload_payload hspec]
  show Except.ok (some (spec, (Json.str rigId).textOr p)) = _
  cases rigId with
  | nil => rfl
  | cons c rigId => rfl

/-- The loop of `all` over files that are loaded. -/
theorem loadEach_eq {names : List Str}
    (h : ∀ name ∈ names, ∃ spec rigId, name = fileName spec.jobId ∧ spec.jobId ≠ [] ∧
      JobStore.load p loads spec.jobId dir = .ok (some (spec, rigId))) :
    ∃ found, loadEach p loads dir names = .ok found ∧
      found.map (fun pair => fileName pair.1.jobId) = names ∧
      ∀ pair ∈ found, JobStore.load p loads pair.1.jobId dir = .ok (some pair) := by
  -- on the files, in the order of the directory
  induction names with
  | nil => exact ⟨[], rfl, rfl, by simp⟩
  | cons name names ih =>
    rw [List.forall_mem_cons] at h
    obtain ⟨⟨spec, rigId, rfl, hid, hload⟩, hrest⟩ := h
    obtain ⟨found, hfound, hnames, hloaded⟩ := ih hrest
    refine ⟨(spec, rigId) :: found, ?_, by rw [List.map_cons, hnames], ?_⟩
    · rw [loadEach, stemOf_fileName hid, hload, hfound]
      rfl
    · rw [List.forall_mem_cons]
      exact ⟨hload, hloaded⟩

end Steps

/-! ## Jobs that were saved and not forgotten -/

/-- The last thing done about a job is that it was saved, and its id was accepted. -/
def Standing (ops : List StoreOp) (spec : JobSpec) (rigId : Str) : Prop :=
  jobIdPattern spec.jobId ∧ ∃ before savedAt after,
    ops = before ++ .save spec rigId savedAt :: after ∧ ∀ op ∈ after, op.jobId ≠ spec.jobId

/-- An operation about a job decides what is held of it. -/
theorem update_jobId_eq_some_iff {op : StoreOp} {ledger : Ledger} (hid : jobIdPattern op.jobId)
    {entry : JobSpec × Str × PyFloat} :
    op.update ledger op.jobId = some entry ↔ op = .save entry.1 entry.2.1 entry.2.2 := by
  obtain ⟨spec', rigId', savedAt'⟩ := entry
  cases op with
  | save spec rigId savedAt =>
    rw [StoreOp.jobId] at hid
    rw [StoreOp.update, StoreOp.jobId, if_pos hid, Function.update_self]
    simp
  | forget jobId =>
    rw [StoreOp.update, StoreOp.jobId, Function.update_self]
    simp

/-- It leaves the other jobs alone. -/
theorem update_of_ne {op : StoreOp} {ledger : Ledger} {id : Str} (h : id ≠ op.jobId) :
    op.update ledger id = ledger id := by
  cases op with
  | save spec rigId savedAt =>
    rw [StoreOp.update]
    split_ifs
    · exact Function.update_of_ne h _ _
    · rfl
  | forget jobId => exact Function.update_of_ne h _ _

/-- The ledger has what the last operation on the job saved. -/
theorem foldl_update_eq_some_iff {ops : List StoreOp} {ledger : Ledger} {id : Str}
    (hid : jobIdPattern id) {entry : JobSpec × Str × PyFloat} :
    ops.foldl StoreOp.update ledger id = some entry ↔
      Dict.LastOf (ops.map fun op => (op.jobId, op)) id (.save entry.1 entry.2.1 entry.2.2) ∨
        (id ∉ Dict.keys (ops.map fun op => (op.jobId, op)) ∧ ledger id = some entry) := by
  induction ops generalizing ledger with
  | nil => simp [Dict.LastOf, Dict.keys]
  | cons op ops ih =>
    rw [List.foldl_cons, ih, List.map_cons, Dict.lastOf_cons, Dict.keys_cons, List.mem_cons, not_or,
      Prod.mk.injEq]
    -- the last operation on a job decides, and any other leaves its entry alone
    by_cases hop : id = op.jobId
    · subst hop
      rw [update_jobId_eq_some_iff hid]
      tauto
    · rw [update_of_ne hop]
      have hne : op.jobId ≠ id := fun heq => hop heq.symm
      tauto

/-- A job that is held was saved, and nothing was done about it since. -/
theorem exists_save_of_held {ops : List StoreOp} {spec : JobSpec} {rigId : Str} {savedAt : PyFloat}
    (hid : jobIdPattern spec.jobId) (h : runLedger ops spec.jobId = some (spec, rigId, savedAt)) :
    ∃ before after, ops = before ++ .save spec rigId savedAt :: after ∧
      ∀ op ∈ after, op.jobId ≠ spec.jobId := by
  rw [runLedger, foldl_update_eq_some_iff hid] at h
  rcases h with hlast | ⟨-, hnone⟩
  · obtain ⟨before, op, after, rfl, hop, hafter⟩ := Dict.lastOf_map.mp hlast
    obtain ⟨-, rfl⟩ := Prod.mk.inj hop
    exact ⟨before, after, rfl, hafter⟩
  · exact absurd hnone (by simp)

/-- The jobs after a run are those whose last save stands. -/
theorem standing_iff {ops : List StoreOp} {spec : JobSpec} {rigId : Str}
    (hid : jobIdPattern spec.jobId) :
    Standing ops spec rigId ↔
      ∃ savedAt, runLedger ops spec.jobId = some (spec, rigId, savedAt) := by
  constructor
  · rintro ⟨-, before, savedAt, after, rfl, hafter⟩
    rw [runLedger]
    refine ⟨savedAt, (foldl_update_eq_some_iff hid).mpr (Or.inl ?_)⟩
    exact Dict.lastOf_map.mpr ⟨before, _, after, rfl, rfl, hafter⟩
  · rintro ⟨savedAt, hheld⟩
    obtain ⟨before, after, hops, hafter⟩ := exists_save_of_held hid hheld
    exact ⟨hid, before, savedAt, after, hops, hafter⟩

/-- The files are read in the order of their names. -/
theorem all_eq (p : Printer) (loads : Str → Option Json) (dir : Directory) :
    all p loads dir = loadEach p loads dir
      (((dir.getD []).keys.filter (endsWith · ".json".toList)).mergeSort strLe) := by
  cases dir with
  | none =>
    simp only [Option.getD_none, Dict.keys, List.map_nil, List.filter_nil, List.mergeSort_nil]
    rfl
  | some files => rfl

section Saved

variable {p : Printer} {loads : Str → Option Json} {ops : List StoreOp}

/-- The bodies that are saved in a run survive the way through JSON. -/
def RoundTrips (p : Printer) (loads : Str → Option Json) (ops : List StoreOp) : Prop :=
  ∀ spec rigId savedAt, .save spec rigId savedAt ∈ ops →
    loads (dumpsIndent p 0 (bodyOf spec rigId savedAt)) = some (bodyOf spec rigId savedAt)

/-- What stands is loaded. -/
theorem load_of_standing (hloads : RoundTrips p loads ops) {spec : JobSpec} {rigId : Str}
    (hspec : Storable spec) (h : Standing ops spec rigId) :
    load p loads spec.jobId (runStore p ops) = .ok (some (spec, rigId)) := by
  obtain ⟨savedAt, hheld⟩ := (standing_iff h.1).mp h
  obtain ⟨before, after, hops, -⟩ := exists_save_of_held h.1 hheld
  exact (represents_run p ops).load hheld (hloads _ _ savedAt (by rw [hops]; simp)) hspec

/-- The files that `all` goes through are those of the jobs whose last save stands. -/
theorem mem_jobFiles {name : Str} :
    name ∈ ((runStore p ops).getD []).keys.filter (endsWith · ".json".toList) ↔
      ∃ spec rigId, name = fileName spec.jobId ∧ Standing ops spec rigId := by
  have hrep := represents_run p ops
  rw [List.mem_filter]
  constructor
  -- a file belongs to a job whose last operation was a save
  · rintro ⟨hkeys, -⟩
    obtain ⟨text, hmem⟩ := Dict.mem_keys.mp hkeys
    obtain ⟨id, spec, rigId, savedAt, hheld, rfl, -⟩ :=
      (hrep.files name text).mp ((Dict.get?_eq_some_iff hrep.nodup).mpr hmem)
    obtain ⟨hid, rfl⟩ := hrep.accepted id spec _ hheld
    exact ⟨spec, rigId, rfl, (standing_iff hid).mpr ⟨savedAt, hheld⟩⟩
  · rintro ⟨spec, rigId, rfl, h⟩
    obtain ⟨savedAt, hheld⟩ := (standing_iff h.1).mp h
    have htext := (hrep.files _ _).mpr ⟨_, spec, rigId, savedAt, hheld, rfl, rfl⟩
    exact ⟨Dict.mem_keys.mpr ⟨_, Dict.mem_of_get? htext⟩, endsWith_iff.mpr ⟨_, rfl⟩⟩

/-- **The store gives back what was saved.** After any run of saves and forgets, `load` gives for
every job that was saved and not forgotten the same specification and rig, and `all` gives these
pairs, one for each job. -/
theorem store_returns_saved (hloads : RoundTrips p loads ops) :
    (∀ spec rigId, Storable spec → Standing ops spec rigId →
      load p loads spec.jobId (runStore p ops) = .ok (some (spec, rigId))) ∧
    ((∀ spec rigId, Standing ops spec rigId → Storable spec) →
      ∃ found, all p loads (runStore p ops) = .ok found ∧
        (found.map fun pair => pair.1.jobId).Nodup ∧
        ∀ spec rigId, (spec, rigId) ∈ found ↔ Standing ops spec rigId) := by
  refine ⟨fun spec rigId hspec h => load_of_standing hloads hspec h, fun hstorable => ?_⟩
  have hmem (name : Str) : name ∈ (((runStore p ops).getD []).keys.filter
      (endsWith · ".json".toList)).mergeSort strLe ↔
        ∃ spec rigId, name = fileName spec.jobId ∧ Standing ops spec rigId := by
    rw [List.mem_mergeSort, mem_jobFiles]
  have hnodup : ((((runStore p ops).getD []).keys.filter
      (endsWith · ".json".toList)).mergeSort strLe).Nodup := by
    rw [(List.mergeSort_perm _ _).nodup_iff]
    exact (represents_run p ops).nodup.filter _
  rw [all_eq]
  generalize (((runStore p ops).getD []).keys.filter (endsWith · ".json".toList)).mergeSort strLe =
    names at hmem hnodup ⊢
  have hload : ∀ name ∈ names, ∃ spec rigId, name = fileName spec.jobId ∧ spec.jobId ≠ [] ∧
      load p loads spec.jobId (runStore p ops) = .ok (some (spec, rigId)) := by
    intro name hname
    obtain ⟨spec, rigId, rfl, h⟩ := (hmem name).mp hname
    exact ⟨spec, rigId, rfl, ne_nil_of_jobIdPattern h.1,
      load_of_standing hloads (hstorable spec rigId h) h⟩
  obtain ⟨found, hfound, hnames, hloaded⟩ := loadEach_eq hload
  -- a job that is found under an id is the one that stands
  have hsame {spec spec' : JobSpec} {rigId rigId' : Str} (hpair : (spec, rigId) ∈ found)
      (h : Standing ops spec' rigId') (heq : spec.jobId = spec'.jobId) :
      (spec, rigId) = (spec', rigId') := by
    have hfirst := hloaded _ hpair
    rw [heq, load_of_standing hloads (hstorable spec' rigId' h) h] at hfirst
    exact (Option.some.inj (Except.ok.inj hfirst)).symm
  refine ⟨found, hfound, ?_, fun spec rigId => ⟨fun hpair => ?_, fun h => ?_⟩⟩
  · rw [← hnames] at hnodup
    apply List.Nodup.of_map fileName
    rwa [List.map_map]
  · have hname : fileName spec.jobId ∈ names := by
      rw [← hnames]
      exact List.mem_map_of_mem hpair
    obtain ⟨spec', rigId', heq, h⟩ := (hmem _).mp hname
    obtain ⟨rfl, rfl⟩ := Prod.mk.inj (hsame hpair h (fileName_injective heq))
    exact h
  · have hname := (hmem (fileName spec.jobId)).mpr ⟨spec, rigId, rfl, h⟩
    rw [← hnames] at hname
    obtain ⟨⟨spec', rigId'⟩, hpair, heq⟩ := List.mem_map.mp hname
    exact hsame hpair h (fileName_injective heq) ▸ hpair

end Saved

/-- One job is saved, another one is forgotten. -/
def sampleOps : List StoreOp :=
  [.save sampleJob "rig-1".toList (.fin 1000), .forget "j2".toList]

/-- `json.loads`, on the file of this job. -/
def sampleLoads (text : Str) : Option Json :=
  let body := bodyOf sampleJob "rig-1".toList (.fin 1000)
  if text = dumpsIndent asciiPrinter 0 body then some body else none

theorem store_returns_saved_sample :
    RoundTrips asciiPrinter sampleLoads sampleOps ∧
    load asciiPrinter sampleLoads sampleJob.jobId (runStore asciiPrinter sampleOps) =
      .ok (some (sampleJob, "rig-1".toList)) ∧
    ∃ found, all asciiPrinter sampleLoads (runStore asciiPrinter sampleOps) = .ok found ∧
      (sampleJob, "rig-1".toList) ∈ found := by
  -- there is one save in the list
  have honly {spec : JobSpec} {rigId : Str} {savedAt : PyFloat}
      (h : .save spec rigId savedAt ∈ sampleOps) :
      spec = sampleJob ∧ rigId = "rig-1".toList ∧ savedAt = .fin 1000 := by
    simpa [sampleOps] using h
  have hloads : RoundTrips asciiPrinter sampleLoads sampleOps := by
    intro spec rigId savedAt hsave
    obtain ⟨rfl, rfl, rfl⟩ := honly hsave
    rw [sampleLoads]
    simp only [if_true]
  have hstorable : Storable sampleJob :=
    ⟨by decide, by decide, by decide, by decide, by decide⟩
  have hstanding : Standing sampleOps sampleJob "rig-1".toList :=
    ⟨by decide, [], .fin 1000, [.forget "j2".toList], rfl, by decide⟩
  have hsaved := store_returns_saved hloads
  obtain ⟨found, hfound, -, hmem⟩ := hsaved.2 fun spec rigId h => by
    obtain ⟨-, before, savedAt, after, hops, -⟩ := h
    have hsave : .save spec rigId savedAt ∈ sampleOps := by
      rw [hops]
      simp
    exact (honly hsave).1 ▸ hstorable
  exact ⟨hloads, hsaved.1 _ _ hstorable hstanding, found, hfound, (hmem _ _).mpr hstanding⟩

end JobStore

end ComputePool.Validator
