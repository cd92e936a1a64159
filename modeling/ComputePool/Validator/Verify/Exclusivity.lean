import ComputePool.Foundations.Fallible
import ComputePool.Protocol.Failures
import ComputePool.Protocol.Session

/-!
# Exclusivity

`validator/verify/exclusivity.py`: every process the scrape found on a card is held against the
jobs of the pool's ledger and against the containers the rig's own docker lists with the owner
label.

`LedgerAuthorised` says what the ledger alone allows: the pid of a job, or a container that is one
of a job. The check asks for less. It takes the names of a listed container whether or not a job of
the ledger is behind it, and it compares texts where one has to be the beginning of the other.
`check_passes_only_if_ledgerAuthorised_iff` says for which inputs that makes no difference.
-/

namespace ComputePool.Validator.Verify.Exclusivity

open Text Protocol
open Json (Printer Raised)

/-- `OwnContainer`: a container the rig lists with the owner label. -/
structure OwnContainer where
  id : Str
  name : Str
  job : Str
  state : Str := []
  deriving DecidableEq, Repr

/-- One line of the listing, cut at the tabs. -/
def parseLine (line : Str) : Option OwnContainer :=
  match line.splitOn '\t' with
  | id :: name :: rest =>
    if strip id = [] then none
    else some {
      id := strip id
      name := (strip name).dropWhile (· = '/')
      job := strip (rest.getD 0 [])
      state := strip (rest.getD 1 []) }
  | _ => none

/-- `parse_containers`. -/
def parseContainers (stdout : Str) : List OwnContainer :=
  (splitLines stdout).filterMap parseLine

/-- `JobRecord.from_payload`: a pid that is not a number counts as none, an infinite one raises. -/
def recordOf (p : Printer) (payload : Json) : Except Raised JobRecord := do
  let raw ← payload.get "pid".toList (.int 0)
  let pid ← match (raw.orElse (.int 0)).toInt with
    | .error .typeError | .error .valueError => .ok 0
    | other => other
  let jobId ← payload.get "job_id".toList (.str [])
  let kind ← payload.get "kind".toList (.str [])
  let gpuUuid ← payload.get "gpu_uuid".toList (.str [])
  let container ← payload.get "container".toList (.str [])
  pure {
    jobId := jobId.toStr p, kind := kind.toStr p, pid, gpuUuid := gpuUuid.textOr p
    container := container.textOr p }

/-- `payload.setdefault("job_id", job.get("id", ""))`. -/
def withJobId (fields : Dict Str Json) : Dict Str Json :=
  if "job_id".toList ∈ fields.keys then fields
  else fields.set "job_id".toList ((fields.get? "id".toList).getD (.str []))

/-- `jobs_of`: the jobs the server reports for a rig. -/
def jobsOf (p : Printer) (rig : Dict Str Json) : Except Raised (List JobRecord) := do
  let jobs ← (((rig.get? "jobs".toList).getD .null).orElse (.list [])).iter
  (jobs.filterMap fun job => match job with
    | .dict fields => some (.dict (withJobId fields))
    | _ => none).mapM (recordOf p)

/-- `container_matches`: the same text, or one the start of the other. -/
def containerMatches (container : Str) (known : List Str) : Bool :=
  container ≠ [] && known.any fun candidate =>
    candidate ≠ [] &&
      (container = candidate || startsWith container candidate || startsWith candidate container)

/-- A process of a card as the loop reads it. -/
structure Process where
  uuid : Str
  pid : ℤ
  container : Str
  raw : Json

/-- One round of the inner loop: `pid` and `container`. -/
def readProcess (p : Printer) (uuid : Str) (raw : Json) : Except Raised Process := do
  let value ← raw.get "pid".toList (.int 0)
  let pid ← match (value.orElse (.int 0)).toInt with
    | .error .typeError | .error .valueError => .ok 0
    | other => other
  let container ← raw.get "container".toList (.str [])
  pure { uuid, pid, container := container.textOr p, raw }

/-- The processes of one card. -/
def processesOf (p : Printer) (card : Dict Str Json) : Except Raised (List Process) := do
  let uuid := ((card.get? "uuid".toList).getD (.str [])).textOr p
  let processes ← (((card.get? "processes".toList).getD .null).orElse (.list [])).iter
  processes.mapM (readProcess p uuid)

/-- The processes of all cards, in order. -/
def allProcesses (p : Printer) (gpus : List (Dict Str Json)) : Except Raised (List Process) := do
  return (← gpus.mapM (processesOf p)).flatten

/-- The names a listed container goes by. -/
def OwnContainer.names (c : OwnContainer) : List Str :=
  c.id :: c.name :: if c.job = [] then [] else ["mt-".toList ++ c.job]

/-- `job_pids`. -/
def jobPids (jobs : List JobRecord) : List ℤ :=
  (jobs.filter (0 < ·.pid)).map (·.pid)

/-- `job_containers`. -/
def jobContainers (jobs : List JobRecord) : List Str :=
  (jobs.filter (·.container ≠ [])).map (·.container)

/-- `known = job_containers | our_names`. -/
def knownNames (jobs : List JobRecord) (ours : List OwnContainer) : List Str :=
  jobContainers jobs ++ ours.flatMap (·.names)

/-- The test of the loop: `pid in job_pids or container_matches(container, known)`. -/
def authorised (jobs : List JobRecord) (ours : List OwnContainer) (process : Process) : Bool :=
  process.pid ∈ jobPids jobs || containerMatches process.container (knownNames jobs ours)

/-- The entry of a process in `foreign`. -/
def foreignEntry (p : Printer) (process : Process) : Dict Str Json :=
  let field (key : String) (fallback : Json) : Json :=
    match process.raw with
    | .dict fields => (Dict.get? fields key.toList).getD fallback
    | _ => fallback
  [("uuid".toList, .str process.uuid),
    ("pid".toList, .int process.pid),
    ("comm".toList, field "comm" (.str [])),
    ("cmdline".toList, .str (((field "cmdline" (.str [])).textOr p).take 120)),
    ("container".toList, .str (process.container.take 12)),
    ("kind".toList, field "kind" (.str [])),
    ("memory_mb".toList, field "memory_mb" .null)]

/-- `running_containers`. -/
def runningContainers (ours : List OwnContainer) : List Str :=
  let running := ours.filter fun c => c.state = [] || c.state = "running".toList
  running.map (·.id) ++ running.map (·.name)

/-- The entry of a job in `dead`, if its process or container is gone. -/
def deadEntry (seenPids : List ℤ) (alivePids : Option (List ℤ)) (running : List Str)
    (job : JobRecord) : Option (Dict Str Json) :=
  let head := [("job_id".toList, Json.str job.jobId), ("kind".toList, .str job.kind)]
  if 0 < job.pid then
    if job.pid ∉ seenPids ∧ (∀ alive ∈ alivePids, job.pid ∉ alive) then
      some (head ++ [("pid".toList, .int job.pid), ("reason".toList, .str "no process".toList)])
    else none
  else if job.container ≠ [] ∧ containerMatches job.container running = false then
    some (head ++ [("container".toList, .str (job.container.take 20)),
      ("reason".toList, .str "container not running".toList)])
  else none

/-- The evidence of a verdict. -/
def evidenceOf (jobs : List JobRecord) (ours : List OwnContainer) (placed : ℕ)
    (foreign dead : List (Dict Str Json)) : Dict Str Json :=
  [("jobs".toList, .int jobs.length),
    ("own_containers".toList, .int ours.length),
    ("authorised_processes".toList, .int placed),
    ("foreign_processes".toList, .list ((foreign.take 20).map .dict)),
    ("dead_jobs".toList, .list (dead.map .dict)),
    ("summary".toList, .str (natText placed ++ " placed, ".toList ++ natText foreign.length ++
      " foreign, ".toList ++ natText dead.length ++ " dead jobs".toList))]

/-- The text of the failure, about the first process that is not placed. -/
def foreignDetail (p : Printer) (process : Process) : Str :=
  let comm := ((foreignEntry p process).get? "comm".toList).getD .null
  "pid ".toList ++ Json.intText process.pid ++ " (".toList ++
    (comm.orElse (.str "unknown".toList)).toStr p ++ ") on ".toList ++
    (if process.uuid = [] then "a card".toList else process.uuid) ++
    " is not placed by the pool".toList

/-- `check`. -/
def check (p : Printer) (gpus : List (Dict Str Json)) (jobs : List JobRecord)
    (ours : List OwnContainer) (seed : Str) (alivePids : Option (List ℤ)) :
    Except Raised Verdict := do
  -- a process that matches no job and no container of ours is foreign
  let seen ← allProcesses p gpus
  let unplaced := seen.filter fun process => !authorised jobs ours process
  let foreign := unplaced.map (foreignEntry p)
  -- a job whose process is gone is noted, and is no failure
  let dead := jobs.filterMap
    (deadEntry (seen.map (·.pid)) alivePids (runningContainers ours))
  let evidence := evidenceOf jobs ours (seen.length - unplaced.length) foreign dead
  match unplaced with
  | [] => pure { check := "exclusivity".toList, evidence }
  | first :: _ => pure {
      check := "exclusivity".toList
      failure := some {
        kind := .unauthorisedWork
        detail := foreignDetail p first
        seed
        evidence := [("processes".toList, .list ((foreign.take 10).map .dict))] }
      evidence }

/-- Whatever is found, the verdict is one on exclusivity. -/
theorem check_check {p : Printer} {gpus : List (Dict Str Json)} {jobs : List JobRecord}
    {ours : List OwnContainer} {seed : Str} {alivePids : Option (List ℤ)} {verdict : Verdict}
    (h : check p gpus jobs ours seed alivePids = .ok verdict) :
    verdict.check = "exclusivity".toList := by
  obtain ⟨seen, -, h⟩ := Fallible.bind_eq_ok.mp h
  dsimp only at h
  split at h
  · obtain rfl := Except.ok.inj h
    rfl
  · obtain rfl := Except.ok.inj h
    rfl

/-! ## What the ledger allows -/

section Ledger

variable {p : Printer} {jobs : List JobRecord} {ours : List OwnContainer}

/-- The label of a listed container names a job of the ledger. -/
def backed (jobs : List JobRecord) (c : OwnContainer) : Bool :=
  c.job ≠ [] && jobs.any (·.jobId = c.job)

/-- A text stands for the container of an id as docker resolves it: it is the id, or the name the
container is listed with, or its first twelve digits where no container has that name. -/
def Denotes (ours : List OwnContainer) (text id : Str) : Prop :=
  text = id ∨ (∃ c ∈ ours, c.id = id ∧ c.name = text) ∨
    (text = id.take 12 ∧ ∀ c ∈ ours, c.name ≠ text)

/-- A job of the ledger has the container on record. -/
def Recorded (jobs : List JobRecord) (ours : List OwnContainer) (id : Str) : Prop :=
  ∃ job ∈ jobs, job.container ≠ [] ∧ Denotes ours job.container id

/-- The process has the pid of a job of the ledger, or runs in a container of one: the one that the
job has on record, or a listed one whose label names a job. -/
def LedgerAuthorised (jobs : List JobRecord) (ours : List OwnContainer) (process : Process) :
    Prop :=
  process.pid ∈ jobPids jobs ∨
    process.container ≠ [] ∧ (Recorded jobs ours process.container ∨
      ∃ c ∈ ours, c.id = process.container ∧ backed jobs c = true)

/-- The container is listed, and neither a record nor its label leads to a job of the ledger. -/
def Unbacked (jobs : List JobRecord) (ours : List OwnContainer) (id : Str) : Prop :=
  ¬ Recorded jobs ours id ∧ (∃ c ∈ ours, c.id = id) ∧
    ∀ c ∈ ours, c.id = id → backed jobs c = false

/-- One of the names is the beginning of the text, or begins with it. -/
def Resembles (names : List Str) (text : Str) : Prop :=
  ∃ name ∈ names, name ≠ [] ∧ (name <+: text ∨ text <+: name)

/-- The container is neither listed nor on record, and its id looks like one of the known names. -/
def Lookalike (jobs : List JobRecord) (ours : List OwnContainer) (id : Str) : Prop :=
  ¬ Recorded jobs ours id ∧ (∀ c ∈ ours, c.id ≠ id) ∧ Resembles (knownNames jobs ours) id

instance (text id : Str) : Decidable (Denotes ours text id) :=
  inferInstanceAs (Decidable (_ ∨ _ ∨ _))

instance (id : Str) : Decidable (Recorded jobs ours id) :=
  inferInstanceAs (Decidable (∃ job ∈ jobs, job.container ≠ [] ∧ Denotes ours job.container id))

instance (process : Process) : Decidable (LedgerAuthorised jobs ours process) :=
  inferInstanceAs (Decidable (_ ∨ _ ∧ (_ ∨ ∃ c ∈ ours, c.id = process.container ∧ _)))

instance (names : List Str) (text : Str) : Decidable (Resembles names text) :=
  inferInstanceAs (Decidable (∃ name ∈ names, name ≠ [] ∧ (name <+: text ∨ text <+: name)))

instance (id : Str) : Decidable (Unbacked jobs ours id) :=
  inferInstanceAs (Decidable (¬ _ ∧ (∃ c ∈ ours, _) ∧ ∀ c ∈ ours, _))

instance (id : Str) : Decidable (Lookalike jobs ours id) :=
  inferInstanceAs (Decidable (¬ _ ∧ (∀ c ∈ ours, _) ∧ _))

/-- The names of the ledger and of the listing. -/
theorem mem_knownNames {name : Str} :
    name ∈ knownNames jobs ours ↔
      (∃ job ∈ jobs, job.container ≠ [] ∧ job.container = name) ∨
        ∃ c ∈ ours, name ∈ c.names := by
  simp [knownNames, jobContainers, and_assoc]

theorem mem_names_id (c : OwnContainer) : c.id ∈ c.names :=
  List.mem_cons_self

/-- The matcher asks for a known name that is the beginning of the id, or begins with it. -/
theorem containerMatches_iff {container : Str} {known : List Str} :
    containerMatches container known = true ↔ container ≠ [] ∧ Resembles known container := by
  simp only [containerMatches, Resembles, Bool.and_eq_true, List.any_eq_true, Bool.or_eq_true,
    decide_eq_true_eq, startsWith, List.isPrefixOf_iff_prefix]
  refine and_congr_right fun _ => exists_congr fun name => and_congr_right fun _ =>
    and_congr_right fun _ => ?_
  constructor
  · rintro ((rfl | h) | h)
    · exact Or.inl (List.prefix_refl _)
    · exact Or.inl h
    · exact Or.inr h
  · rintro (h | h)
    · exact Or.inl (Or.inr h)
    · exact Or.inr h

/-- A container on record resembles a known name. -/
theorem Recorded.resembles {id : Str} (hid : id ≠ []) (h : Recorded jobs ours id) :
    Resembles (knownNames jobs ours) id := by
  obtain ⟨job, hjob, hne, hdenotes⟩ := h
  have hknown : job.container ∈ knownNames jobs ours :=
    mem_knownNames.mpr (Or.inl ⟨job, hjob, hne, rfl⟩)
  rcases hdenotes with heq | ⟨c, hc, rfl, -⟩ | ⟨hshort, -⟩
  · exact ⟨_, hknown, hne, Or.inl (heq ▸ List.prefix_refl _)⟩
  · exact ⟨c.id, mem_knownNames.mpr (Or.inr ⟨c, hc, mem_names_id c⟩), hid,
      Or.inl (List.prefix_refl _)⟩
  · exact ⟨_, hknown, hne, Or.inl (hshort ▸ List.take_prefix 12 id)⟩

/-- A listed container resembles a known name. -/
theorem resembles_of_listed {c : OwnContainer} (hc : c ∈ ours) (hid : c.id ≠ []) :
    Resembles (knownNames jobs ours) c.id :=
  ⟨c.id, mem_knownNames.mpr (Or.inr ⟨c, hc, mem_names_id c⟩), hid, Or.inl (List.prefix_refl _)⟩

/-- What the test of the loop lets through: what the ledger allows, and two kinds of containers
besides. -/
theorem authorised_iff {process : Process} :
    authorised jobs ours process = true ↔ LedgerAuthorised jobs ours process ∨
      process.container ≠ [] ∧ (Unbacked jobs ours process.container ∨
        Lookalike jobs ours process.container) := by
  rw [authorised, Bool.or_eq_true, decide_eq_true_eq, containerMatches_iff]
  constructor
  · rintro (hpid | ⟨hne, hresembles⟩)
    · exact Or.inl (Or.inl hpid)
    by_cases hledger : LedgerAuthorised jobs ours process
    · exact Or.inl hledger
    -- no job is behind the container, be it listed or not
    obtain ⟨-, hnot⟩ := not_or.mp hledger
    obtain ⟨hrecorded, hbacked⟩ := not_or.mp (not_and.mp hnot hne)
    refine Or.inr ⟨hne, ?_⟩
    by_cases hlisted : ∃ c ∈ ours, c.id = process.container
    · refine Or.inl ⟨hrecorded, hlisted, fun c hc hid => ?_⟩
      exact Bool.eq_false_iff.mpr fun hb => hbacked ⟨c, hc, hid, hb⟩
    · exact Or.inr ⟨hrecorded, fun c hc hid => hlisted ⟨c, hc, hid⟩, hresembles⟩
  · rintro ((hpid | ⟨hne, hrecorded | ⟨c, hc, hid, -⟩⟩) | ⟨hne, ⟨-, ⟨c, hc, hid⟩, -⟩ | ⟨-, -, h⟩⟩)
    · exact Or.inl hpid
    · exact Or.inr ⟨hne, hrecorded.resembles hne⟩
    · exact Or.inr ⟨hne, hid ▸ resembles_of_listed hc (hid ▸ hne)⟩
    · exact Or.inr ⟨hne, hid ▸ resembles_of_listed hc (hid ▸ hne)⟩
    · exact Or.inr ⟨hne, h⟩

/-- A container of one of the two kinds is none of the ledger. -/
theorem not_ledgerAuthorised {process : Process} (hpid : process.pid ∉ jobPids jobs)
    (h : Unbacked jobs ours process.container ∨ Lookalike jobs ours process.container) :
    ¬ LedgerAuthorised jobs ours process := by
  rintro (hledger | ⟨-, hrecorded | ⟨c, hc, hid, hbacked⟩⟩)
  · exact hpid hledger
  · exact h.elim (fun h => h.1 hrecorded) fun h => h.1 hrecorded
  · rcases h with ⟨-, -, hnone⟩ | ⟨-, hunlisted, -⟩
    · exact absurd (hbacked.symm.trans (hnone c hc hid)) (by simp)
    · exact hunlisted c hc hid

variable {gpus : List (Dict Str Json)} {seed : Str} {alivePids : Option (List ℤ)}

/-- The check passes exactly when it can read every process and its test holds of each. -/
theorem check_passed_iff :
    (∃ verdict, check p gpus jobs ours seed alivePids = .ok verdict ∧ verdict.passed = true) ↔
      ∃ seen, allProcesses p gpus = .ok seen ∧
        ∀ process ∈ seen, authorised jobs ours process = true := by
  cases hread : allProcesses p gpus with
  | error e => simp [check, hread, bind, Except.bind]
  | ok seen =>
    have hunplaced : seen.filter (fun process => !authorised jobs ours process) = [] ↔
        ∀ process ∈ seen, authorised jobs ours process = true := by
      simp [List.filter_eq_nil_iff]
    simp only [check, hread, bind, Except.bind, Except.ok.injEq, exists_eq_left', ← hunplaced]
    cases seen.filter fun process => !authorised jobs ours process with
    | nil => simp [pure, Except.pure, Verdict.passed]
    | cons first rest => simp [pure, Except.pure, Verdict.passed]

/-- **When the ledger is the reference.** The check passes only with every process authorised by the
ledger, exactly for those scrapes in which some process has no pid of a job and is in no container
that looks like a known name, or in which every process without the pid of a job is in a container
of neither kind: listed with no job behind it, or not listed and like a known name. -/
theorem check_passes_only_if_ledgerAuthorised_iff (p : Printer) (gpus : List (Dict Str Json))
    (jobs : List JobRecord) (ours : List OwnContainer) (seed : Str)
    (alivePids : Option (List ℤ)) :
    (∀ verdict, check p gpus jobs ours seed alivePids = .ok verdict → verdict.passed = true →
      ∀ seen, allProcesses p gpus = .ok seen →
        ∀ process ∈ seen, LedgerAuthorised jobs ours process) ↔
    ∀ seen, allProcesses p gpus = .ok seen →
      (∃ process ∈ seen, process.pid ∉ jobPids jobs ∧
        (process.container = [] ∨ ¬ Resembles (knownNames jobs ours) process.container)) ∨
      ∀ process ∈ seen, process.pid ∉ jobPids jobs →
        ¬ Unbacked jobs ours process.container ∧ ¬ Lookalike jobs ours process.container := by
  have hforeign {process : Process} : authorised jobs ours process = false ↔
      process.pid ∉ jobPids jobs ∧
        (process.container = [] ∨ ¬ Resembles (knownNames jobs ours) process.container) := by
    rw [← Bool.not_eq_true, authorised, Bool.or_eq_true, decide_eq_true_eq, containerMatches_iff,
      not_or, not_and_or, not_not]
  constructor
  · intro honly seen hread
    by_cases hall : ∀ process ∈ seen, authorised jobs ours process = true
    · -- the check passes, so the ledger authorises every process
      have hpasses : ∃ verdict, check p gpus jobs ours seed alivePids = .ok verdict ∧
          verdict.passed = true := check_passed_iff.mpr ⟨seen, hread, hall⟩
      obtain ⟨verdict, hcheck, hpassed⟩ := hpasses
      refine Or.inr fun process hmem hpid => not_or.mp fun hkind => ?_
      exact not_ledgerAuthorised hpid hkind (honly verdict hcheck hpassed seen hread process hmem)
    -- a process that looks like nothing fails the check
    · push Not at hall
      obtain ⟨process, hmem, hnot⟩ := hall
      exact Or.inl ⟨process, hmem, hforeign.mp (Bool.eq_false_iff.mpr hnot)⟩
  · intro hcond verdict hcheck hpassed seen hread process hmem
    obtain ⟨seen', hread', hall⟩ := check_passed_iff.mp ⟨verdict, hcheck, hpassed⟩
    obtain rfl : seen = seen' := Except.ok.inj (hread.symm.trans hread')
    rcases hcond seen hread with ⟨foreign, hfmem, hnone⟩ | hkinds
    · -- a process that looks like nothing would have failed the check
      exact absurd (hall foreign hfmem) (Bool.eq_false_iff.mp (hforeign.mpr hnone))
    · by_cases hpid : process.pid ∈ jobPids jobs
      · exact Or.inl hpid
      obtain ⟨hunbacked, hlookalike⟩ := hkinds process hmem hpid
      rcases authorised_iff.mp (hall process hmem) with h | ⟨-, h | h⟩
      · exact h
      · exact absurd h hunbacked
      · exact absurd h hlookalike

end Ledger

/-- A card whose one process runs in the given container. -/
def cardOf (container : Str) : Dict Str Json :=
  [("uuid".toList, .str "GPU-1".toList),
    ("processes".toList, .list [.dict [("pid".toList, .int 4242),
      ("container".toList, .str container)]])]

/-- A container of a job, and an idle one that the rig's owner started under the owner label. -/
def mixedListing : Str :=
  List.replicate 64 'b' ++ "\tmt-job-a\tjob-a\trunning\n".toList ++
    List.replicate 64 'a' ++ "\tminer\t\trunning\n".toList

/-- The ledger of that rig. -/
def mixedJobs : List JobRecord :=
  [{ jobId := "job-a".toList, kind := "inference".toList }]

/-- The process in the container of the job passes, and the ledger is behind it. -/
theorem check_passes_only_if_ledgerAuthorised_iff_mixed :
    (∃ verdict, check Json.asciiPrinter [cardOf (List.replicate 64 'b')] mixedJobs
        (parseContainers mixedListing) [] none = .ok verdict ∧ verdict.passed = true) ∧
    ∀ verdict, check Json.asciiPrinter [cardOf (List.replicate 64 'b')] mixedJobs
        (parseContainers mixedListing) [] none = .ok verdict → verdict.passed = true →
      ∀ seen, allProcesses Json.asciiPrinter [cardOf (List.replicate 64 'b')] = .ok seen →
        ∀ process ∈ seen, LedgerAuthorised mixedJobs (parseContainers mixedListing) process := by
  refine ⟨⟨_, rfl, by decide +kernel⟩, ?_⟩
  refine (check_passes_only_if_ledgerAuthorised_iff _ _ _ _ _ _).mpr fun seen hseen => Or.inr ?_
  obtain rfl := Except.ok.inj hseen
  decide +kernel

/-- A container the rig's owner started under the owner label, with no job in it. -/
def rogueListing : Str :=
  List.replicate 64 'a' ++ "\tminer\t\trunning\n".toList

/-- The label alone lets the process through, with an empty ledger. -/
theorem rogue_container_passes :
    ∃ verdict, check Json.asciiPrinter [cardOf (List.replicate 64 'a')] []
        (parseContainers rogueListing) [] none = .ok verdict ∧ verdict.passed = true ∧
      ∃ seen, allProcesses Json.asciiPrinter [cardOf (List.replicate 64 'a')] = .ok seen ∧
        ∃ process ∈ seen, ¬ LedgerAuthorised [] (parseContainers rogueListing) process := by
  refine ⟨_, rfl, by decide +kernel, _, rfl, _, List.mem_singleton_self _, by decide +kernel⟩

end ComputePool.Validator.Verify.Exclusivity
