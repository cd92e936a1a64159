import ComputePool.Foundations.Fallible
import ComputePool.Protocol.Failures
import ComputePool.Validator.Data.GpuTable

/-!
# The cards of a rig

`validator/verify/specs.py` and `validator/verify/duplicates.py`: the cards the scrape saw are held
against the cards the rig is enrolled with, and against those of every other rig.

* `mem_keys_cardsOf`: the cards are filed under their uuids.
* `check_eq_ok`: the first check passes only without a problem.
* `seen_of_check`: so every enrolled card was seen.
-/

namespace ComputePool.Validator.Verify.Specs

open Text Numeral Protocol
open Json (Printer Raised caught field)

/-- `FATAL_NVML`. -/
def fatalNvml : List Str :=
  ["DRIVER_NOT_LOADED", "GPU_IS_LOST", "GPU_NOT_FOUND", "MEMORY", "LIBRARY_NOT_FOUND",
    "UNINITIALIZED", "LIB_RM_VERSION_MISMATCH", "RESET_REQUIRED", "IRQ_ISSUE",
    "FUNCTION_NOT_FOUND", "UNKNOWN"].map String.toList

/-- `CORE_FIELDS`. -/
def coreFields : List Str :=
  ["handle", "name", "uuid", "memory"].map String.toList

/-- One round of `enrolled_cards` and `seen_cards`: a card with a uuid is filed under it. -/
def fileCard (p : Printer) (found : Dict Str (Dict Str Json)) (card : Json) :
    Dict Str (Dict Str Json) :=
  match card with
  | .dict fields =>
    let uuid := field fields "uuid" .null
    if uuid.truthy then found.set (uuid.toStr p) fields else found
  | _ => found

/-- `enrolled_cards` of a rig and `seen_cards` of a scrape. -/
def cardsOf (p : Printer) (data : Dict Str Json) : Except Raised (Dict Str (Dict Str Json)) := do
  let cards ← ((field data "gpus" .null).orElse (.list [])).iter
  return cards.foldl (fileCard p) []

/-- `enrolled_tier`. -/
def enrolledTier (p : Printer) (card : Dict Str Json) : Option Tier :=
  Tier.ofText ((field card "tier" (.str [])).textOr p)

/-- The problem with a core field that could not be read. -/
def coreProblem (p : Printer) (uuid : Str) (errors : Json) (name : Str) :
    Except Raised (Option Str) := do
  return (← errors.itemIfIn name).map fun error =>
    uuid ++ ": NVML_ERROR_".toList ++ error.toStr p ++ " reading ".toList ++ name

/-- The problem with the model and the memory of a card. -/
def modelProblems (p : Printer) (uuid : Str) (enrolled seen : Dict Str Json) :
    Except Raised (List Str) := do
  let declared := normalizeModel ((field enrolled "model" (.str [])).textOr p)
  let observed := normalizeModel ((field seen "name" (.str [])).textOr p)
  -- a card that reads differently from how it is enrolled
  let renamed := if declared = observed then [] else
    [uuid ++ ": enrolled as ".toList ++
      (if declared ≠ [] then declared else "unknown".toList) ++ ", reads ".toList ++
      (if observed ≠ [] then observed else "unnamed".toList)]
  let totalMb ← caught (.fin 0) ((field seen "memory_total_mb" .null).orElse (.int 0)).toFloat
  -- a model that the table does not have, or in another tier than enrolled
  let sized := match GpuTable.matchCard observed totalMb with
    | none => [uuid ++ ": ".toList ++ GpuTable.mismatchReason observed totalMb]
    | some matched => match enrolledTier p enrolled, matched.tier with
      | some declared, some tier =>
        if tier = declared then []
        else [uuid ++ ": enrolled in the ".toList ++ declared.value ++ " tier, reads as ".toList ++
          tier.value]
      | _, _ => []
  return renamed ++ sized

/-- The problems with the modes of a card. -/
def modeProblems (p : Printer) (uuid : Str) (seen : Dict Str Json) : Except Raised (List Str) := do
  let mig ← match field seen "mig_mode" .null with
    | .dict mig => do
      let current ← ((field mig "current" .null).orElse (.int 0)).toInt
      pure (if current = 1 then [uuid ++ ": MIG mode is enabled".toList] else [])
    | _ => pure []
  let virtualization := field seen "virtualization" .null
  let virtual := match virtualization with
    | .null => []
    | .str s => if s = [] ∨ s = "NONE".toList then []
        else [uuid ++ ": virtualization mode ".toList ++ s]
    | value => [uuid ++ ": virtualization mode ".toList ++ value.toStr p]
  let sriov := if (field seen "host_vgpu_mode" .null).eqInt 1
    then [uuid ++ ": SR-IOV host vGPU mode".toList] else []
  return mig ++ virtual ++ sriov

/-- `card_problems`. -/
def cardProblems (p : Printer) (uuid : Str) (enrolled seen : Dict Str Json) :
    Except Raised (List Str) := do
  let errors := (field seen "errors" .null).orElse (.dict [])
  let core := (← coreFields.mapM (coreProblem p uuid errors)).reduceOption
  if core ≠ [] then return core
  return (← modelProblems p uuid enrolled seen) ++ (← modeProblems p uuid seen)

/-- The entry of a card in the evidence. -/
def cardEntry (uuid : Str) (card : Dict Str Json) : Json :=
  .dict [("uuid".toList, .str uuid),
    ("model".toList, field card "name" .null),
    ("memory_mb".toList, field card "memory_total_mb" .null),
    ("mig".toList, match field card "mig_mode" .null with
      | .dict mig => field mig "current" .null
      | _ => .null),
    ("virtualization".toList, field card "virtualization" .null),
    ("errors".toList, (field card "errors" .null).orElse (.dict []))]

/-- A mismatch. -/
def mismatch (detail seed : Str) (evidence failureEvidence : Dict Str Json) : Verdict where
  check := "specs".toList
  failure := some { kind := .specMismatch, detail, seed, evidence := failureEvidence }
  evidence := evidence

/-- The enrolled cards that were not seen, sorted. -/
def missingCards (enrolled seen : Dict Str (Dict Str Json)) : List Str :=
  sortedSet (enrolled.keys.filter (· ∉ seen.keys))

/-- The problems with the cards: those that are absent, then those of each card that was seen. -/
def problemsOf (p : Printer) (enrolled seen : Dict Str (Dict Str Json)) :
    Except Raised (List Str) := do
  let missing := missingCards enrolled seen
  let absent := if missing = [] then []
    else ["enrolled cards absent: ".toList ++ ", ".toList.intercalate missing]
  let common := sortedSet (enrolled.keys.filter (· ∈ seen.keys))
  let problems ← common.mapM fun uuid =>
    cardProblems p uuid ((enrolled.get? uuid).getD []) ((seen.get? uuid).getD [])
  return absent ++ problems.flatten

/-- `check`. -/
def check (p : Printer) (data rig : Dict Str Json) (seed : Str) : Except Raised Verdict := do
  let nvml := (field data "nvml" .null).orElse (.dict [])
  let listed ← ((← nvml.get "errors".toList .null).orElse (.list [])).iter
  let errors := listed.map (·.toStr p)
  let enrolled ← cardsOf p rig
  let seen ← cardsOf p data
  let evidence := [("enrolled".toList, Json.int enrolled.length),
    ("seen".toList, .int seen.length),
    ("nvml_errors".toList, .list (errors.map .str)),
    ("driver".toList, ← nvml.get "driver".toList (.str [])),
    ("cuda".toList, ← nvml.get "cuda".toList (.str [])),
    ("cards".toList, .list (seen.map fun e => cardEntry e.1 e.2))]
  -- an error of the driver is fatal before any card is compared
  match errors.filter (· ∈ fatalNvml) with
  | first :: _ =>
    return mismatch ("NVML_ERROR_".toList ++ first) seed evidence
      [("errors".toList, .list (errors.map .str))]
  | [] =>
    let problems ← problemsOf p enrolled seen
    -- a card that is not enrolled is noted, and is no problem
    let extra := sortedSet (seen.keys.filter (· ∉ enrolled.keys))
    let evidence := evidence ++ [("unenrolled".toList, .list (extra.map .str))]
    match problems with
    | first :: _ =>
      return mismatch (first.take 300) seed
        (evidence ++ [("problems".toList, .list (problems.map .str))])
        [("problems".toList, .list ((problems.take 20).map .str))]
    | [] =>
      return {
        check := "specs".toList
        evidence := evidence ++ [("summary".toList, .str (natText enrolled.length ++
          " cards as enrolled".toList ++
          if extra = [] then [] else ", ".toList ++ natText extra.length ++
            " unenrolled".toList))] }

/-! ## What the check lets through -/

/-- The uuid a card is filed under, if it has one. -/
def uuidOf (p : Printer) (card : Json) : Option Str :=
  match card with
  | .dict fields =>
    let uuid := field fields "uuid" .null
    if uuid.truthy then some (uuid.toStr p) else none
  | _ => none

/-- A card is filed under its uuid. -/
theorem mem_keys_fileCard {p : Printer} {found : Dict Str (Dict Str Json)} {card : Json}
    {uuid : Str} :
    uuid ∈ (fileCard p found card).keys ↔ uuid ∈ found.keys ∨ uuidOf p card = some uuid := by
  unfold fileCard uuidOf
  split
  · dsimp only
    split_ifs
    · simp [or_comm, eq_comm]
    · simp
  · simp

/-- The keys are the uuids of the cards. -/
theorem mem_keys_foldl_fileCard {p : Printer} {cards : List Json}
    {found : Dict Str (Dict Str Json)} {uuid : Str} :
    uuid ∈ (cards.foldl (fileCard p) found).keys ↔
      uuid ∈ found.keys ∨ ∃ card ∈ cards, uuidOf p card = some uuid := by
  induction cards generalizing found with
  | nil => simp
  | cons card cards ih =>
    rw [List.foldl_cons, ih, mem_keys_fileCard, or_assoc]
    simp

/-- Without a problem, no enrolled card is missing. -/
theorem mem_keys_of_problemsOf_eq_nil {p : Printer} {enrolled seen : Dict Str (Dict Str Json)}
    (h : problemsOf p enrolled seen = .ok []) {uuid : Str} (huuid : uuid ∈ enrolled.keys) :
    uuid ∈ seen.keys := by
  obtain ⟨problems, -, h⟩ := Fallible.bind_eq_ok.mp h
  have habsent := (List.append_eq_nil_iff.mp (Except.ok.inj h)).1
  by_contra hseen
  have hmissing : uuid ∈ missingCards enrolled seen := by
    rw [missingCards, mem_sortedSet, List.mem_filter]
    exact ⟨huuid, by simpa using hseen⟩
  have hne : missingCards enrolled seen ≠ [] := List.ne_nil_of_mem hmissing
  simp [hne] at habsent

/-- The check names itself, and it passes only without a problem. -/
theorem check_eq_ok {p : Printer} {data rig : Dict Str Json} {seed : Str} {verdict : Verdict}
    (h : check p data rig seed = .ok verdict) :
    verdict.check = "specs".toList ∧ ∃ enrolled seen, cardsOf p rig = .ok enrolled ∧
      cardsOf p data = .ok seen ∧
      (verdict.failure = none → problemsOf p enrolled seen = .ok []) := by
  unfold check at h
  dsimp only at h
  -- each conversion went through
  obtain ⟨errors, -, h⟩ := Fallible.bind_eq_ok.mp h
  obtain ⟨listed, -, h⟩ := Fallible.bind_eq_ok.mp h
  obtain ⟨enrolled, henrolled, h⟩ := Fallible.bind_eq_ok.mp h
  obtain ⟨seen, hseen, h⟩ := Fallible.bind_eq_ok.mp h
  obtain ⟨driver, -, h⟩ := Fallible.bind_eq_ok.mp h
  obtain ⟨cuda, -, h⟩ := Fallible.bind_eq_ok.mp h
  suffices hverdict : verdict.check = "specs".toList ∧
      (verdict.failure = none → problemsOf p enrolled seen = .ok []) from
    ⟨hverdict.1, enrolled, seen, henrolled, hseen, hverdict.2⟩
  split at h
  · obtain rfl := Except.ok.inj h
    exact ⟨rfl, nofun⟩
  · obtain ⟨problems, hproblems, h⟩ := Fallible.bind_eq_ok.mp h
    split at h
    · obtain rfl := Except.ok.inj h
      exact ⟨rfl, nofun⟩
    · obtain rfl := Except.ok.inj h
      exact ⟨rfl, fun _ => hproblems⟩

/-- The cards of a rig or a scrape are filed under their uuids. -/
theorem mem_keys_cardsOf {p : Printer} {data : Dict Str Json} {cards : List Json}
    {found : Dict Str (Dict Str Json)} (hcards : cardsOf p data = .ok found)
    (hiter : ((field data "gpus" .null).orElse (.list [])).iter = .ok cards) {uuid : Str} :
    uuid ∈ found.keys ↔ ∃ card ∈ cards, uuidOf p card = some uuid := by
  obtain ⟨cards', hcards', h⟩ := Fallible.bind_eq_ok.mp hcards
  obtain rfl := Except.ok.inj (hiter.symm.trans hcards')
  obtain rfl := Except.ok.inj h
  have hkeys := @mem_keys_foldl_fileCard p cards [] uuid
  simpa [Dict.keys] using hkeys

/-- When the check passes, the scrape saw a card with the uuid of each enrolled card. -/
theorem seen_of_check {p : Printer} {data rig : Dict Str Json} {seed : Str} {verdict : Verdict}
    (h : check p data rig seed = .ok verdict) (hpassed : verdict.failure = none)
    {enrolled seen : List Json}
    (henrolled : ((field rig "gpus" .null).orElse (.list [])).iter = .ok enrolled)
    (hseen : ((field data "gpus" .null).orElse (.list [])).iter = .ok seen) {uuid : Str}
    (huuid : ∃ card ∈ enrolled, uuidOf p card = some uuid) :
    ∃ card ∈ seen, uuidOf p card = some uuid := by
  obtain ⟨-, filed, found, hfiled, hfound, hproblems⟩ := check_eq_ok h
  rw [← mem_keys_cardsOf hfiled henrolled] at huuid
  rw [← mem_keys_cardsOf hfound hseen]
  exact mem_keys_of_problemsOf_eq_nil (hproblems hpassed) huuid

end ComputePool.Validator.Verify.Specs

namespace ComputePool.Validator.Verify.Duplicates

open Text Protocol
open Json (Printer Raised field)

/-- The uuid of an enrolled card, if it is a dictionary that has one. -/
def enrolledUuid (p : Printer) (card : Json) : Option Str :=
  match card with
  | .dict fields =>
    let uuid := (field fields "uuid" (.str [])).textOr p
    if uuid = [] then none else some uuid
  | _ => none

/-- `index.setdefault(uuid, []).append(rig_id)`. -/
def enroll (rigId : Str) (index : Dict Str (List Str)) (uuid : Str) : Dict Str (List Str) :=
  index.set uuid ((index.get? uuid).getD [] ++ [rigId])

/-- One round of `enrolment_index`. -/
def indexRig (p : Printer) (excludeRig : Str) (index : Dict Str (List Str))
    (rig : Dict Str Json) : Except Raised (Dict Str (List Str)) := do
  let rigId := (field rig "id" (.str [])).textOr p
  if rigId = [] ∨ rigId = excludeRig then return index
  if (field rig "state" (.str [])).textOr p = "removed".toList then return index
  let cards ← ((field rig "gpus" .null).orElse (.list [])).iter
  return (cards.filterMap (enrolledUuid p)).foldl (enroll rigId) index

/-- `enrolment_index`: the other rigs each card is enrolled on. -/
def enrolmentIndex (p : Printer) (roster : List (Dict Str Json)) (excludeRig : Str) :
    Except Raised (Dict Str (List Str)) :=
  roster.foldlM (indexRig p excludeRig) []

/-- The uuid of a card that was seen. -/
def seenUuid (p : Printer) (card : Dict Str Json) : Str :=
  (field card "uuid" (.str [])).textOr p

/-- The loop of `check`: the cards that are enrolled elsewhere. -/
def duplicatesOf (p : Printer) (index : Dict Str (List Str)) (gpus : List (Dict Str Json)) :
    Dict Str (List Str) :=
  gpus.foldl (fun found card =>
    let uuid := seenUuid p card
    match if uuid = [] then none else index.get? uuid with
    | some rigs => found.set uuid rigs
    | none => found) []

/-- A dictionary of lists of texts, as JSON. -/
def duplicatesJson (found : Dict Str (List Str)) : Json :=
  .dict (found.map fun e => (e.1, .list (e.2.map .str)))

/-- `check`. -/
def check (p : Printer) (gpus : List (Dict Str Json)) (rigId : Str)
    (roster : List (Dict Str Json)) (seed : Str) : Except Raised Verdict := do
  let index ← enrolmentIndex p roster rigId
  let found := duplicatesOf p index gpus
  let evidence := [("scanned".toList, Json.int gpus.length),
    ("other_rigs".toList, .int ((index.flatMap (·.2)).dedup.length)),
    ("duplicates".toList, duplicatesJson found),
    ("summary".toList, .str (if found = [] then "no card enrolled elsewhere".toList
      else natText found.length ++ " cards enrolled elsewhere".toList))]
  -- the first duplicate is the failure
  match found with
  | [] => return { check := "duplicates".toList, evidence }
  | (uuid, rigs) :: _ => return {
      check := "duplicates".toList
      failure := some {
        kind := .duplicateUuid
        detail := uuid ++ " is enrolled on rig ".toList ++ rigs.headD []
        seed
        evidence := [("duplicates".toList, duplicatesJson found)] }
      evidence }

/-- Whatever is found, the verdict is one on duplicates. -/
theorem check_check {p : Printer} {gpus roster : List (Dict Str Json)} {rigId seed : Str}
    {verdict : Verdict} (h : check p gpus rigId roster seed = .ok verdict) :
    verdict.check = "duplicates".toList := by
  obtain ⟨index, -, h⟩ := Fallible.bind_eq_ok.mp h
  dsimp only at h
  split at h
  · obtain rfl := Except.ok.inj h
    rfl
  · obtain rfl := Except.ok.inj h
    rfl

end ComputePool.Validator.Verify.Duplicates
