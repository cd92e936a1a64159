import ComputePool.Foundations.Json
import ComputePool.Validator.Verify.Fernet

/-!
# The scrape payload

`validator/verify/payloads/scrape.py`, the program the validator sends to a rig: what it reads of
each card through NVML, the dictionary it collects and the line it prints.

The names of a card's fields are the constants `F_*` at the top of the payload. The validator
rewrites these before it sends the payload, so everything here is a function of what the
constants are (`F : Field → Str`). A card is put together by a list of writes that does not
depend on them; `card_eq_embed` says that the names of the constants only show up as the keys of
the card and of its map of errors.

A read through NVML is its value or the code of its failure. What the payload finds out about
the host beside the cards goes into the dictionary as it is.
-/

namespace ComputePool.Validator.Verify.ScrapePayload

open Text Base64 Numeral

/-! ## The fields -/

/-- The constants `F_*`. -/
inductive Field
  | index | name | uuid | serial | memoryTotal | memoryUsed | capability | powerLimit
  | powerDefault | powerMin | powerMax | clockGraphics | clockSm | clockMemory | pcieWidth
  | pcieGeneration | utilization | memoryUtilization | migMode | virtualization | hostVgpu | ecc
  | pciBus | minor | processes | errors
  deriving DecidableEq, Repr

/-- `FIELDS`. -/
def fields : List Field :=
  [.index, .name, .uuid, .serial, .memoryTotal, .memoryUsed, .capability, .powerLimit,
    .powerDefault, .powerMin, .powerMax, .clockGraphics, .clockSm, .clockMemory, .pcieWidth,
    .pcieGeneration, .utilization, .memoryUtilization, .migMode, .virtualization, .hostVgpu, .ecc,
    .pciBus, .minor, .processes, .errors]

/-- The lines that declare the constants, in the order of the payload: the field, its constant
and its value. -/
def declarations : List (Field × Str × Str) :=
  [(.index, "F_INDEX".toList, "index".toList),
    (.name, "F_NAME".toList, "name".toList),
    (.uuid, "F_UUID".toList, "uuid".toList),
    (.serial, "F_SERIAL".toList, "serial".toList),
    (.memoryTotal, "F_MEMORY_TOTAL".toList, "memory_total_mb".toList),
    (.memoryUsed, "F_MEMORY_USED".toList, "memory_used_mb".toList),
    (.capability, "F_CAPABILITY".toList, "compute_capability".toList),
    (.powerLimit, "F_POWER_LIMIT".toList, "power_limit_w".toList),
    (.powerDefault, "F_POWER_DEFAULT".toList, "power_default_w".toList),
    (.powerMin, "F_POWER_MIN".toList, "power_min_w".toList),
    (.powerMax, "F_POWER_MAX".toList, "power_max_w".toList),
    (.clockGraphics, "F_CLOCK_GRAPHICS".toList, "clock_graphics_mhz".toList),
    (.clockSm, "F_CLOCK_SM".toList, "clock_sm_mhz".toList),
    (.clockMemory, "F_CLOCK_MEMORY".toList, "clock_memory_mhz".toList),
    (.pcieWidth, "F_PCIE_WIDTH".toList, "pcie_width".toList),
    (.pcieGeneration, "F_PCIE_GENERATION".toList, "pcie_generation".toList),
    (.utilization, "F_UTILIZATION".toList, "utilization".toList),
    (.memoryUtilization, "F_MEMORY_UTILIZATION".toList, "memory_utilization".toList),
    (.migMode, "F_MIG_MODE".toList, "mig_mode".toList),
    (.virtualization, "F_VIRTUALIZATION".toList, "virtualization".toList),
    (.hostVgpu, "F_HOST_VGPU".toList, "host_vgpu_mode".toList),
    (.ecc, "F_ECC".toList, "ecc_mode".toList),
    (.pciBus, "F_PCI_BUS".toList, "pci_bus_id".toList),
    (.minor, "F_MINOR".toList, "minor".toList),
    (.processes, "F_PROCESSES".toList, "processes".toList),
    (.errors, "F_ERRORS".toList, "errors".toList)]

/-- The position of a field in `FIELDS`. -/
def Field.position (f : Field) : ℕ :=
  fields.idxOf f

/-- The constant of a field. -/
def Field.constant (f : Field) : Str :=
  (declarations.getD f.position (f, [], [])).2.1

/-- The value the payload declares for a field. -/
def Field.plain (f : Field) : Str :=
  (declarations.getD f.position (f, [], [])).2.2

/-! ## Reading the cards -/

/-- `NVML_NAMES`. -/
def nvmlNames : List (ℤ × String) :=
  [(0, "SUCCESS"), (1, "UNINITIALIZED"), (2, "INVALID_ARGUMENT"), (3, "NOT_SUPPORTED"),
    (4, "NO_PERMISSION"), (5, "ALREADY_INITIALIZED"), (6, "NOT_FOUND"), (7, "INSUFFICIENT_SIZE"),
    (8, "INSUFFICIENT_POWER"), (9, "DRIVER_NOT_LOADED"), (10, "TIMEOUT"), (11, "IRQ_ISSUE"),
    (12, "LIBRARY_NOT_FOUND"), (13, "FUNCTION_NOT_FOUND"), (14, "CORRUPTED_INFOROM"),
    (15, "GPU_IS_LOST"), (16, "RESET_REQUIRED"), (17, "OPERATING_SYSTEM"),
    (18, "LIB_RM_VERSION_MISMATCH"), (19, "IN_USE"), (20, "MEMORY"), (21, "NO_DATA"),
    (22, "VGPU_ECC_NOT_SUPPORTED"), (23, "INSUFFICIENT_RESOURCES"), (24, "FREQ_NOT_SUPPORTED"),
    (25, "ARGUMENT_VERSION_MISMATCH"), (26, "DEPRECATED"), (27, "NOT_READY"),
    (28, "GPU_NOT_FOUND"), (29, "INVALID_STATE"), (999, "UNKNOWN")]

/-- `NvmlFailure(code, …).name`. -/
def failureName (code : ℤ) : Str :=
  match Dict.get? nvmlNames code with
  | some name => name.toList
  | none => "CODE_".toList ++ Json.intText code

/-- Why a read inside `attempt` failed. -/
inductive ReadError
  | nvml (code : ℤ)
  | other (type : Str)
  deriving DecidableEq, Repr

/-- What `attempt` writes into the map of errors. -/
def ReadError.text : ReadError → Str
  | .nvml code => failureName code
  | .other type => "PY_".toList ++ type

/-- An entry of NVML's list of processes, with what `/proc` says about it. -/
structure GpuProcess where
  pid : ℕ
  usedGpuMemory : ℕ
  gpuInstance : ℕ
  computeInstance : ℕ
  comm : Str
  cmdline : Str
  uid : ℤ
  container : Str
  alive : Bool
  deriving DecidableEq, Repr

/-- `describe_process`. -/
def describeProcess (kind : Str) (p : GpuProcess) : Json :=
  let memory : ℤ :=
    if p.usedGpuMemory = 0xFFFFFFFFFFFFFFFF then -1 else p.usedGpuMemory / (1024 * 1024)
  .dict [("pid".toList, .int p.pid), ("kind".toList, .str kind), ("memory_mb".toList, .int memory),
    ("comm".toList, .str p.comm), ("cmdline".toList, .str p.cmdline), ("uid".toList, .int p.uid),
    ("container".toList, .str p.container), ("gpu_instance".toList, .int p.gpuInstance),
    ("compute_instance".toList, .int p.computeInstance), ("alive".toList, .bool p.alive)]

/-- What NVML answers for one card. The lists of processes fail with a code, or with `none` when
the library has no such function. -/
structure CardReadings where
  handle : Except ℤ Unit
  name : Except ReadError Str
  uuid : Except ReadError Str
  serial : Except ReadError Str
  memory : Except ℤ (ℕ × ℕ)
  capability : Except ReadError (ℤ × ℤ)
  powerLimit : Except ReadError ℕ
  powerDefault : Except ReadError ℕ
  constraints : Except ℤ (ℕ × ℕ)
  clockGraphics : Except ReadError ℕ
  clockSm : Except ReadError ℕ
  clockMemory : Except ReadError ℕ
  pcieWidth : Except ReadError ℕ
  pcieGeneration : Except ReadError ℕ
  utilization : Except ℤ (ℕ × ℕ)
  migMode : Except ReadError (ℕ × ℕ)
  virtualization : Except ReadError ℕ
  hostVgpu : Except ReadError ℕ
  ecc : Except ReadError ℕ
  pciBus : Except ReadError Str
  minor : Except ReadError ℕ
  compute : Except (Option ℤ) (List GpuProcess)
  graphics : Except (Option ℤ) (List GpuProcess)

/-- A key of a card's map of errors: the constant of a field, or a fixed text. -/
inductive ErrorKey
  | field (f : Field)
  | text (s : Str)
  deriving DecidableEq, Repr

/-- What `scrape_gpu` does to the card it builds: assign a field, enter an error, or note an
error for the whole scrape. -/
inductive Write
  | put (f : Field) (value : Json)
  | fail (key : ErrorKey) (name : Str)
  | note (name : Str)

/-- A fixed key of the map of errors. -/
def fixedKey (s : String) : ErrorKey :=
  .text s.toList

/-- `attempt`. -/
def attempt (f : Field) : Except ReadError Json → List Write
  | .ok value => [.put f value]
  | .error e => [.put f .null, .fail (.field f) e.text]

/-- `value / 1000.0`. -/
def thousandths (n : ℕ) : Json :=
  .float (.fin (n / 1000))

/-- The text of a virtualization mode. -/
def virtualizationName (mode : ℕ) : Str :=
  match mode with
  | 0 => "NONE".toList
  | 1 => "PASSTHROUGH".toList
  | 2 => "VGPU".toList
  | 3 => "HOST_VGPU".toList
  | 4 => "HOST_VSGA".toList
  | _ => "MODE_".toList ++ natText mode

/-- Two fields that one read fills, with what to do when it fails. -/
def both (first second : Field) (key : String) (noted : Bool) (reading : Except ℤ (Json × Json)) :
    List Write :=
  match reading with
  | .ok (a, b) => [.put first a, .put second b]
  | .error code =>
    (if noted then [.note (failureName code)] else []) ++
      [.put first .null, .put second .null, .fail (fixedKey key) (failureName code)]

/-- `running_processes`: the entries, and the writes of its failure. -/
def runningProcesses (kind key : String) (listing : Except (Option ℤ) (List GpuProcess)) :
    List (ℕ × Json) × List Write :=
  match listing with
  | .ok found => (found.map fun p => (p.pid, describeProcess kind.toList p), [])
  | .error none => ([], [.fail (fixedKey key) "FUNCTION_NOT_FOUND".toList])
  | .error (some code) =>
    ([], [.note (failureName code), .fail (fixedKey key) (failureName code)])

/-- The processes of a card: those of the second list whose pid the first does not have follow. -/
def processWrites (r : CardReadings) : List Write :=
  let (compute, computeWrites) := runningProcesses "compute" "compute_processes" r.compute
  let (graphics, graphicsWrites) := runningProcesses "graphics" "graphics_processes" r.graphics
  let others := graphics.filter fun e => e.1 ∉ compute.map (·.1)
  computeWrites ++ graphicsWrites ++ [.put .processes (.list ((compute ++ others).map (·.2)))]

/-- The first reads made through `attempt`. -/
def identityReads (r : CardReadings) : List (Field × Except ReadError Json) :=
  [(.name, r.name.map .str), (.uuid, r.uuid.map .str), (.serial, r.serial.map .str)]

/-- Those after the memory. -/
def powerReads (r : CardReadings) : List (Field × Except ReadError Json) :=
  [(.capability, r.capability.map fun c =>
      .str (Json.intText c.1 ++ '.' :: Json.intText c.2)),
    (.powerLimit, r.powerLimit.map thousandths),
    (.powerDefault, r.powerDefault.map thousandths)]

/-- Those after the constraints of the power limit. -/
def linkReads (r : CardReadings) : List (Field × Except ReadError Json) :=
  [(.clockGraphics, r.clockGraphics.map fun n : ℕ => .int n),
    (.clockSm, r.clockSm.map fun n : ℕ => .int n),
    (.clockMemory, r.clockMemory.map fun n : ℕ => .int n),
    (.pcieWidth, r.pcieWidth.map fun n : ℕ => .int n),
    (.pcieGeneration, r.pcieGeneration.map fun n : ℕ => .int n)]

/-- Those after the utilization. -/
def modeReads (r : CardReadings) : List (Field × Except ReadError Json) :=
  [(.migMode, r.migMode.map fun m =>
      .dict [("current".toList, .int m.1), ("pending".toList, .int m.2)]),
    (.virtualization, r.virtualization.map fun n : ℕ => .str (virtualizationName n)),
    (.hostVgpu, r.hostVgpu.map fun n : ℕ => .int n),
    (.ecc, r.ecc.map fun n : ℕ => .int n),
    (.pciBus, r.pciBus.map .str),
    (.minor, r.minor.map fun n : ℕ => .int n)]

/-- A list of reads through `attempt`. -/
def attemptAll (reads : List (Field × Except ReadError Json)) : List Write :=
  reads.flatMap fun e => attempt e.1 e.2

/-- The body of `scrape_gpu`, after the two entries a card starts with. -/
def cardWrites (r : CardReadings) : List Write :=
  match r.handle with
  | .error code => [.note (failureName code), .fail (fixedKey "handle") (failureName code)]
  | .ok () =>
    attemptAll (identityReads r) ++
    both .memoryTotal .memoryUsed "memory" true (r.memory.map fun m =>
      (.int (m.1 / (1024 * 1024)), .int (m.2 / (1024 * 1024)))) ++
    attemptAll (powerReads r) ++
    both .powerMin .powerMax "power_constraints" false (r.constraints.map fun c =>
      (thousandths c.1, thousandths c.2)) ++
    attemptAll (linkReads r) ++
    both .utilization .memoryUtilization "utilization" false (r.utilization.map fun u =>
      (.int u.1, .int u.2)) ++
    attemptAll (modeReads r) ++
    processWrites r

/-! ## The card -/

/-- The text of a key of the map of errors. -/
def ErrorKey.toText (F : Field → Str) : ErrorKey → Str
  | .field f => F f
  | .text s => s

/-- One write, on the card itself. -/
def Write.apply (F : Field → Str) (card : Dict Str Json) : Write → Dict Str Json
  | .put f value => card.set (F f) value
  | .fail key name =>
    match card.get? (F .errors) with
    | some (.dict errors) =>
      card.set (F .errors) (.dict (Dict.set errors (key.toText F) (.str name)))
    | _ => card
  | .note _ => card

/-- `scrape_gpu`: the card. -/
def scrapeGpu (F : Field → Str) (index : ℕ) (r : CardReadings) : Dict Str Json :=
  (cardWrites r).foldl (Write.apply F)
    (Dict.set (Dict.set [] (F .index) (.int index)) (F .errors) (.dict []))

/-- `nvml.note`. -/
def noteError (noted : List Str) (name : Str) : List Str :=
  if name ∈ noted then noted else noted ++ [name]

/-- The errors the cards note. -/
def cardNotes (r : CardReadings) : List Str :=
  (cardWrites r).filterMap fun w => match w with
    | .note name => some name
    | _ => none

/-! ## The dictionary -/

/-- How far NVML got on the rig. -/
inductive NvmlRun
  | missing
  | unloadable (path error : Str)
  | uninitialised (path : Str) (hashes : Json) (code : ℤ) (error : Str)
  | ready (path : Str) (hashes : Json) (driver version cuda : Str)
      (cards : Except ℤ (List CardReadings))

/-- The cards that were read. -/
def NvmlRun.cards : NvmlRun → List CardReadings
  | .ready _ _ _ _ _ (.ok cards) => cards
  | _ => []

/-- The dictionary of `scrape_nvml` without its cards. -/
def nvmlFacts (library : Str) (hashes : Json) (errors : List Str) (driver cuda version : Str)
    (count : ℕ) : Dict Str Json :=
  [("library".toList, .str library), ("hashes".toList, hashes),
    ("errors".toList, .list (errors.map .str)), ("driver".toList, .str driver),
    ("cuda".toList, .str cuda), ("nvml_version".toList, .str version),
    ("count".toList, .int count)]

/-- `scrape_nvml`, after `pop("gpus")`. -/
def scrapeNvml : NvmlRun → Dict Str Json
  | .missing => nvmlFacts [] (.dict []) ["LIBRARY_NOT_FOUND".toList] [] [] [] 0
  | .unloadable path error =>
    nvmlFacts path (.dict []) ["LIBRARY_NOT_FOUND".toList] [] [] [] 0 ++
      [("load_error".toList, .str error)]
  | .uninitialised path hashes code error =>
    nvmlFacts path hashes [failureName code] [] [] [] 0 ++ [("init_error".toList, .str error)]
  | .ready path hashes driver version cuda (.error code) =>
    nvmlFacts path hashes [failureName code] driver cuda version 0
  | .ready path hashes driver version cuda (.ok cards) =>
    nvmlFacts path hashes ((cards.flatMap cardNotes).foldl noteError []) driver cuda version
      cards.length

/-- What `main` puts into the dictionary beside the cards. -/
structure Findings where
  nvml : NvmlRun
  collectedAt : Json
  elapsedMs : Json
  host : Json
  docker : Json
  probes : Json
  hashes : Json

/-- The variable `payload` of `main`, around a list of cards. -/
def payloadOf (found : Findings) (gpus : List Json) : Dict Str Json :=
  [("version".toList, .int 1), ("collected_at".toList, found.collectedAt),
    ("elapsed_ms".toList, found.elapsedMs), ("gpus".toList, .list gpus),
    ("nvml".toList, .dict (scrapeNvml found.nvml)), ("host".toList, found.host),
    ("docker".toList, found.docker), ("probes".toList, found.probes),
    ("hashes".toList, found.hashes)]

/-- The dictionary `main` collects. -/
def collect (F : Field → Str) (found : Findings) : Dict Str Json :=
  payloadOf found ((found.nvml.cards.mapIdx (scrapeGpu F)).map .dict)

/-- `derive_key`. -/
def deriveKey (sha : Fernet.Sha256) (F : Field → Str) : Str :=
  encode (sha.digest (utf8 (fields.flatMap F)))

/-- What `main` prints, given `json.dumps` with its encoding, the random bytes and the clock. -/
def printed (sha : Fernet.Sha256) (dumps : Json → Octets) (iv : Octets) (now : UInt64)
    (F : Field → Str) (found : Findings) : Str :=
  Fernet.fernetEncrypt sha (deriveKey sha F) iv now (dumps (.dict (collect F found))) ++ ['\n']

/-! ## A card without the names of its fields -/

/-- The keys the map of errors can have. -/
def errorKeys : List ErrorKey :=
  ([.name, .uuid, .serial, .capability, .powerLimit, .powerDefault, .clockGraphics, .clockSm,
    .clockMemory, .pcieWidth, .pcieGeneration, .migMode, .virtualization, .hostVgpu, .ecc, .pciBus,
    .minor] : List Field).map .field ++
  (["handle", "memory", "power_constraints", "utilization", "compute_processes",
    "graphics_processes"] : List String).map fixedKey

/-- The constants tell the fields apart, and the keys of the map of errors. -/
structure Naming (F : Field → Str) : Prop where
  injective : Function.Injective F
  injOn_errorKeys : ∀ j ∈ errorKeys, ∀ k ∈ errorKeys, j.toText F = k.toText F → j = k

/-- A card with the fields themselves as keys, and its map of errors beside them. -/
structure AbstractCard where
  fields : Dict Field Json
  errors : Dict ErrorKey Json

/-- One write, on the abstract card. -/
def AbstractCard.write (c : AbstractCard) : Write → AbstractCard
  | .put f value => { c with fields := c.fields.set f value }
  | .fail key name => { c with errors := c.errors.set key (.str name) }
  | .note _ => c

/-- The value of a field under given constants: for `errors` it is the map of errors. -/
def embedValue (F : Field → Str) (errors : Dict ErrorKey Json) (f : Field) (value : Json) : Json :=
  if f = .errors then .dict (errors.map fun e => (e.1.toText F, e.2)) else value

/-- The card under given constants. -/
def AbstractCard.embed (F : Field → Str) (c : AbstractCard) : Dict Str Json :=
  c.fields.map fun e => (F e.1, embedValue F c.errors e.1 e.2)

/-- `scrape_gpu`, without the names of the fields. -/
def abstractCard (index : ℕ) (r : CardReadings) : AbstractCard :=
  (cardWrites r).foldl AbstractCard.write
    { fields := [(.index, .int index), (.errors, .dict [])], errors := [] }

/-- The map of errors is only written through `fail`, and only under the keys above. -/
def Write.WellFormed : Write → Prop
  | .put f _ => f ≠ .errors
  | .fail key _ => key ∈ errorKeys
  | .note _ => True

/-- A reading that fails is noted under its field. -/
theorem wellFormed_attemptAll {reads : List (Field × Except ReadError Json)}
    (h : ∀ f ∈ reads.map Prod.fst, .field f ∈ errorKeys) :
    ∀ w ∈ attemptAll reads, w.WellFormed := by
  intro w hw
  obtain ⟨e, he, hw⟩ := List.mem_flatMap.mp hw
  have hkey := h e.1 (List.mem_map_of_mem he)
  have hne : e.1 ≠ .errors := fun heq => absurd (heq ▸ hkey) (by decide)
  cases hr : e.2 with
  | ok value =>
    obtain rfl : w = .put e.1 value := by simpa [hr, attempt] using hw
    exact hne
  | error err =>
    rw [hr, attempt, List.mem_cons, List.mem_singleton] at hw
    rcases hw with rfl | rfl
    exacts [hne, hkey]

/-- Two fields are read at once, and what fails is noted under a key of their own. -/
theorem wellFormed_both {first second : Field} {key : String} {noted : Bool}
    {reading : Except ℤ (Json × Json)} (h₁ : first ≠ .errors) (h₂ : second ≠ .errors)
    (hkey : fixedKey key ∈ errorKeys) :
    ∀ w ∈ both first second key noted reading, w.WellFormed := by
  intro w hw
  cases reading with
  | ok pair =>
    -- a reading puts both fields; a failure puts two empty ones, and says so
    simp only [both, List.mem_cons, List.not_mem_nil, or_false] at hw
    rcases hw with rfl | rfl
    exacts [h₁, h₂]
  | error code =>
    simp only [both, List.mem_append, List.mem_cons, List.not_mem_nil, or_false] at hw
    rcases hw with hw | rfl | rfl | rfl
    · cases noted with
      | true =>
        obtain rfl : w = .note (failureName code) := by simpa using hw
        trivial
      | false => simp at hw
    exacts [h₁, h₂, hkey]

/-- A listing that fails is noted under the key of its kind. -/
theorem wellFormed_runningProcesses {kind key : String}
    {listing : Except (Option ℤ) (List GpuProcess)} (hkey : fixedKey key ∈ errorKeys) :
    ∀ w ∈ (runningProcesses kind key listing).2, w.WellFormed := by
  intro w hw
  match listing with
  | .ok found => simp [runningProcesses] at hw
  | .error none =>
    obtain rfl := List.mem_singleton.mp hw
    exact hkey
  | .error (some code) =>
    simp only [runningProcesses, List.mem_cons, List.not_mem_nil, or_false] at hw
    rcases hw with rfl | rfl
    exacts [trivial, hkey]

/-- Both listings of processes. -/
theorem wellFormed_processWrites (r : CardReadings) : ∀ w ∈ processWrites r, w.WellFormed := by
  intro w hw
  simp only [processWrites, List.mem_append, List.mem_singleton] at hw
  rcases hw with (hw | hw) | rfl
  · exact wellFormed_runningProcesses (by decide) w hw
  · exact wellFormed_runningProcesses (by decide) w hw
  · exact fun h => Field.noConfusion h

/-- Every write of `scrape_gpu` keeps the map of errors a map with these keys. -/
theorem wellFormed_cardWrites (r : CardReadings) : ∀ w ∈ cardWrites r, w.WellFormed := by
  intro w hw
  rw [cardWrites] at hw
  -- a card without a handle stops at once
  cases hhandle : r.handle with
  | error code =>
    simp only [hhandle, List.mem_cons, List.not_mem_nil, or_false] at hw
    rcases hw with rfl | rfl
    · trivial
    · show fixedKey "handle" ∈ errorKeys
      decide
  | ok =>
    simp only [hhandle, List.mem_append] at hw
    -- the eight groups of fields, in the order of the payload
    rcases hw with ((((((hw | hw) | hw) | hw) | hw) | hw) | hw) | hw
    · refine wellFormed_attemptAll ?_ w hw
      show ∀ f ∈ ([.name, .uuid, .serial] : List Field), .field f ∈ errorKeys
      decide
    · exact wellFormed_both (by decide) (by decide) (by decide) w hw
    · refine wellFormed_attemptAll ?_ w hw
      show ∀ f ∈ ([.capability, .powerLimit, .powerDefault] : List Field), .field f ∈ errorKeys
      decide
    · exact wellFormed_both (by decide) (by decide) (by decide) w hw
    · refine wellFormed_attemptAll ?_ w hw
      show ∀ f ∈ ([.clockGraphics, .clockSm, .clockMemory, .pcieWidth, .pcieGeneration] :
        List Field), .field f ∈ errorKeys
      decide
    · exact wellFormed_both (by decide) (by decide) (by decide) w hw
    · refine wellFormed_attemptAll ?_ w hw
      show ∀ f ∈ ([.migMode, .virtualization, .hostVgpu, .ecc, .pciBus, .minor] : List Field),
        .field f ∈ errorKeys
      decide
    · exact wellFormed_processWrites r w hw

/-! ### The names show up as keys only -/

section Embedding

variable {F : Field → Str}

/-- One write on the card is the write on the abstract card. -/
theorem apply_embed (hF : Naming F) {c : AbstractCard} {w : Write}
    (herrors : .errors ∈ c.fields.keys) (hkeys : ∀ k ∈ c.errors.keys, k ∈ errorKeys)
    (hw : w.WellFormed) : w.apply F (c.embed F) = (c.write w).embed F := by
  have hfield (f : Field) : ∀ g ∈ c.fields.keys, F g = F f → g = f :=
    fun _ _ h => hF.injective h
  cases w with
  | put f value =>
    have hset := Dict.set_map_entries (g := embedValue F c.errors) value (hfield f)
    rw [embedValue, if_neg hw] at hset
    exact hset
  | fail key name =>
    -- the map of errors as it stands in the card, and after the entry is made
    have hget : (c.embed F).get? (F .errors) =
        some (.dict (c.errors.map fun e => (e.1.toText F, e.2))) := by
      rw [AbstractCard.embed, Dict.get?_map_entries (hfield .errors)]
      cases hmem : c.fields.get? .errors with
      | none => exact absurd herrors (Dict.get?_eq_none_iff.mp hmem)
      | some value => rfl
    have hset : Dict.set (c.errors.map fun e => (e.1.toText F, e.2)) (key.toText F) (.str name) =
        (c.errors.set key (.str name)).map fun e => (e.1.toText F, e.2) :=
      Dict.set_map_entries (g := fun _ value => value) (.str name)
        fun j hj => hF.injOn_errorKeys j (hkeys j hj) key hw
    have hpresent : F .errors ∈ (c.embed F).keys := by
      by_contra hnot
      rw [Dict.get?_eq_none_iff.mpr hnot] at hget
      exact absurd hget (by simp)
    simp only [Write.apply, hget, hset]
    rw [Dict.set, if_pos hpresent, AbstractCard.embed, AbstractCard.embed, List.map_map]
    refine List.map_congr_left fun e _ => ?_
    by_cases he : e.1 = .errors
    · simp [AbstractCard.write, he, embedValue]
    · have hne : F e.1 ≠ F .errors := fun h => he (hF.injective h)
      simp [he, hne, embedValue]
  | note name => rfl

/-- Renaming the fields commutes with writing them, whatever is written. -/
theorem foldl_apply_embed (hF : Naming F) {ws : List Write} {c : AbstractCard}
    (herrors : .errors ∈ c.fields.keys) (hkeys : ∀ k ∈ c.errors.keys, k ∈ errorKeys)
    (hws : ∀ w ∈ ws, w.WellFormed) :
    ws.foldl (Write.apply F) (c.embed F) = (ws.foldl AbstractCard.write c).embed F := by
  induction ws generalizing c with
  | nil => rfl
  | cons w ws ih =>
    have hw : w.WellFormed := hws w (by simp)
    rw [List.foldl_cons, List.foldl_cons, apply_embed hF herrors hkeys hw]
    refine ih ?_ ?_ fun v hv => hws v (List.mem_cons_of_mem w hv)
    -- a write keeps `errors` among the fields
    · cases w with
      | put f value => exact Dict.mem_keys_set.mpr (Or.inr herrors)
      | fail key name => exact herrors
      | note name => exact herrors
    -- and names no field as an error that is not one of the keys
    · cases w with
      | put f value => exact hkeys
      | fail key name =>
        intro k hk
        rcases Dict.mem_keys_set.mp hk with rfl | hk
        exacts [hw, hkeys k hk]
      | note name => exact hkeys

/-- The card under any constants that tell the fields apart is the abstract card under them. -/
theorem card_eq_embed (hF : Naming F) (index : ℕ) (r : CardReadings) :
    scrapeGpu F index r = (abstractCard index r).embed F := by
  have hne : F .errors ≠ F .index := fun h => absurd (hF.injective h) (by decide)
  have hstart : Dict.set (Dict.set [] (F .index) (.int index)) (F .errors) (.dict []) =
      AbstractCard.embed F
        { fields := [(.index, .int index), (.errors, .dict [])], errors := [] } := by
    simp [Dict.set, Dict.keys, AbstractCard.embed, embedValue, hne]
  rw [scrapeGpu, hstart]
  exact foldl_apply_embed hF (by simp) (by simp [Dict.keys]) (wellFormed_cardWrites r)

/-- A field is assigned once in a card, whatever is written to it later. -/
theorem nodup_keys_abstractCard (index : ℕ) (r : CardReadings) :
    (abstractCard index r).fields.keys.Nodup := by
  have hrun (ws : List Write) (c : AbstractCard) (hc : c.fields.keys.Nodup) :
      (ws.foldl AbstractCard.write c).fields.keys.Nodup := by
    induction ws generalizing c with
    | nil => exact hc
    | cons w ws ih =>
      refine ih (c.write w) ?_
      cases w with
      | put f value => exact Dict.nodup_keys_set hc f value
      | fail key name => exact hc
      | note name => exact hc
  exact hrun _ _ (by simp [Dict.keys])

/-- The entry of the errors stays in a card. -/
theorem errors_mem_abstractCard (index : ℕ) (r : CardReadings) :
    .errors ∈ (abstractCard index r).fields.keys := by
  have hrun (ws : List Write) (c : AbstractCard) (hc : .errors ∈ c.fields.keys) :
      .errors ∈ (ws.foldl AbstractCard.write c).fields.keys := by
    induction ws generalizing c with
    | nil => exact hc
    | cons w ws ih =>
      refine ih (c.write w) ?_
      cases w with
      | put f value => exact Dict.mem_keys_set.mpr (Or.inr hc)
      | fail key name => exact hc
      | note name => exact hc
  exact hrun _ _ (by simp)

end Embedding

/-! ### Which errors a card has -/

/-- An error stands under a key if and only if some write failed there. -/
theorem mem_keys_errors_foldl {ws : List Write} {c : AbstractCard} {k : ErrorKey} :
    k ∈ (ws.foldl AbstractCard.write c).errors.keys ↔
      k ∈ c.errors.keys ∨ ∃ name, .fail k name ∈ ws := by
  induction ws generalizing c with
  | nil => simp
  | cons w ws ih =>
    rw [List.foldl_cons, ih]
    cases w with
    | put f value => simp [AbstractCard.write]
    | fail key name =>
      simp only [AbstractCard.write, Dict.mem_keys_set, List.mem_cons, Write.fail.injEq]
      constructor
      · rintro ((rfl | hk) | ⟨n, hn⟩)
        · exact Or.inr ⟨name, Or.inl ⟨rfl, rfl⟩⟩
        · exact Or.inl hk
        · exact Or.inr ⟨n, Or.inr hn⟩
      · rintro (hk | ⟨n, ⟨rfl, -⟩ | hn⟩)
        · exact Or.inl (Or.inr hk)
        · exact Or.inl (Or.inl rfl)
        · exact Or.inr ⟨n, hn⟩
    | note name => simp [AbstractCard.write]

/-- The reads of a card that go through `attempt`. -/
def attempts (r : CardReadings) : List (Field × Except ReadError Json) :=
  identityReads r ++ powerReads r ++ linkReads r ++ modeReads r

/-- The card has a handle and one of the reads made through `attempt` fails. -/
def attemptFails (r : CardReadings) : Bool :=
  r.handle.isOk && (attempts r).any fun e => !e.2.isOk

/-- Which of the single readings failed. -/
theorem fail_mem_attemptAll {reads : List (Field × Except ReadError Json)} {f : Field}
    {name : Str} :
    .fail (.field f) name ∈ attemptAll reads ↔
      ∃ e, (f, .error e) ∈ reads ∧ name = ReadError.text e := by
  simp only [attemptAll, List.mem_flatMap]
  constructor
  · rintro ⟨⟨g, reading⟩, hmem, hw⟩
    cases reading with
    | ok value => simp [attempt] at hw
    | error e =>
      obtain ⟨rfl, rfl⟩ : f = g ∧ name = e.text := by simpa [attempt] using hw
      exact ⟨e, hmem, rfl⟩
  · rintro ⟨e, hmem, rfl⟩
    exact ⟨(f, .error e), hmem, by simp [attempt]⟩

/-- The other reads enter their failures under fixed keys. -/
theorem fail_not_mem_both {first second f : Field} {key : String} {noted : Bool} {name : Str}
    {reading : Except ℤ (Json × Json)} :
    .fail (.field f) name ∉ both first second key noted reading := by
  cases reading with
  | ok pair => simp [both]
  | error code => cases noted <;> simp [both, fixedKey]

/-- The listings note their errors under no field. -/
theorem fail_not_mem_processWrites {r : CardReadings} {f : Field} {name : Str} :
    .fail (.field f) name ∉ processWrites r := by
  have hlisting (kind key : String) (listing : Except (Option ℤ) (List GpuProcess)) :
      .fail (.field f) name ∉ (runningProcesses kind key listing).2 := by
    match listing with
    | .ok found => simp [runningProcesses]
    | .error none => simp [runningProcesses, fixedKey]
    | .error (some code) => simp [runningProcesses, fixedKey]
  simp only [processWrites, List.mem_append, List.mem_singleton, reduceCtorEq, or_false, not_or]
  exact ⟨hlisting _ _ _, hlisting _ _ _⟩

/-- A card's map of errors has the constant of a field in it exactly when a read fails inside
`attempt`. -/
theorem exists_field_mem_errors_iff (index : ℕ) (r : CardReadings) :
    (∃ f, .field f ∈ (abstractCard index r).errors.keys) ↔ attemptFails r = true := by
  -- an error is named by a write that failed
  have hwrites : (∃ f, .field f ∈ (abstractCard index r).errors.keys) ↔
      ∃ f name, .fail (.field f) name ∈ cardWrites r := by
    have hnil (k : ErrorKey) : k ∉ Dict.keys ([] : Dict ErrorKey Json) := by simp [Dict.keys]
    simp only [abstractCard, mem_keys_errors_foldl, hnil, false_or]
  have hreads : (attempts r).any (fun e => !e.2.isOk) = true ↔
      ∃ f e, (f, Except.error e) ∈ attempts r := by
    simp only [List.any_eq_true]
    constructor
    · rintro ⟨⟨f, reading⟩, hmem, hbad⟩
      cases reading with
      | ok value => simp [Except.isOk, Except.toBool] at hbad
      | error e => exact ⟨f, e, hmem⟩
    · rintro ⟨f, e, hmem⟩
      exact ⟨(f, .error e), hmem, rfl⟩
  rw [hwrites, attemptFails, Bool.and_eq_true, hreads]
  -- without a handle nothing is attempted
  cases hhandle : r.handle with
  | error code => simp [cardWrites, hhandle, fixedKey, Except.isOk, Except.toBool]
  | ok =>
    simp only [cardWrites, hhandle, List.mem_append, fail_mem_attemptAll, fail_not_mem_both,
      fail_not_mem_processWrites, or_false, Except.isOk, Except.toBool, true_and, attempts]
    constructor
    · rintro ⟨f, name, ((⟨e, he, -⟩ | ⟨e, he, -⟩) | ⟨e, he, -⟩) | ⟨e, he, -⟩⟩
      · exact ⟨f, e, by simp [he]⟩
      · exact ⟨f, e, by simp [he]⟩
      · exact ⟨f, e, by simp [he]⟩
      · exact ⟨f, e, by simp [he]⟩
    · rintro ⟨f, e, ((he | he) | he) | he⟩
      · exact ⟨f, e.text, Or.inl (Or.inl (Or.inl ⟨e, he, rfl⟩))⟩
      · exact ⟨f, e.text, Or.inl (Or.inl (Or.inr ⟨e, he, rfl⟩))⟩
      · exact ⟨f, e.text, Or.inl (Or.inr ⟨e, he, rfl⟩)⟩
      · exact ⟨f, e.text, Or.inr ⟨e, he, rfl⟩⟩

end ComputePool.Validator.Verify.ScrapePayload
