import ComputePool.Foundations.Dict
import ComputePool.Protocol.Session
import ComputePool.Validator.Scoring.LocalScores

/-!
# Placement

`validator/work/placement.py`: which rig and which cards a new job gets. A job takes free cards
first, then cards it may share, then cards whose jobs it displaces. Only inference is shared, and
only with inference; a rental is never displaced and never shares.

* `mem_occupancy` says which jobs are on a card, `mem_usable` what each of the three lists of
  cards holds, and `consider_spec` what a rig offers.
* `choose_sound` is the result about every placement that is made.
-/

namespace ComputePool.Validator

open Text Protocol

/-! ## Rigs and kinds -/

/-- An entry of `kinds` in the eligibility record of a rig. -/
structure Eligibility where
  eligible : Bool := false
  reasons : List Str := []
  deriving DecidableEq, Repr

/-- What placement reads of a rig beside the fields scoring reads. -/
structure WorkRig extends Rig where
  /-- Whether the record has a state at all. -/
  stateGiven : Bool := true
  draining : Bool := false
  eligibility : Dict Str Eligibility := []
  reliability : ℚ := 0
  deriving DecidableEq, Repr

/-- The state of a rig as text. -/
def RigState.text : RigState → Str
  | .probation => "probation".toList
  | .active => "active".toList
  | .other text => text

/-- `kind_of`. -/
def kindOf (text : Str) : Option WorkKind :=
  priority.find? (·.value = text)

/-- `RANK`: the place of a kind in `PRIORITY`. -/
def WorkKind.rank (kind : WorkKind) : ℕ :=
  priority.idxOf kind

/-- `kind in SENSITIVE`. -/
def WorkKind.sensitive (kind : WorkKind) : Bool :=
  kind = .rental

/-- `kind in CUSTOMER`. -/
def WorkKind.customer (kind : WorkKind) : Bool :=
  kind = .inference

/-- `ineligible_reason`; empty when the rig may take the work. -/
def ineligibleReason (rig : WorkRig) (kind : WorkKind) : Str :=
  if !rig.state.verified then
    "rig is ".toList ++ if rig.stateGiven then rig.state.text else "unknown".toList
  else if !rig.online then "rig is offline".toList
  else if rig.draining then "rig is draining".toList
  else if kind = .rental && rig.rentalOptOut then "rental declined by the owner".toList
  else
    match rig.eligibility.get? kind.value with
    | none => "no eligibility record for ".toList ++ kind.value
    | some entry =>
      if !entry.eligible then
        "not eligible for ".toList ++ kind.value ++ ": ".toList ++
          entry.reasons.head?.getD "unspecified".toList
      else []

/-! ## The cards of a rig -/

/-- The uuids of the cards of a rig, without the empty ones. -/
def WorkRig.uuids (rig : WorkRig) : List Str :=
  (rig.gpus.map Card.uuid).filter (· ≠ [])

/-- `table[uuid].append(job)`. -/
def occupy (job : JobRecord) (table : Dict Str (List JobRecord)) (uuid : Str) :
    Dict Str (List JobRecord) :=
  table.set uuid ((table.get? uuid).getD [] ++ [job])

/-- The cards a job is on: the one it names, or all of them when it names none or one the rig does
not have. -/
def targets (uuids : List Str) (job : JobRecord) : List Str :=
  if job.gpuUuid ≠ [] ∧ job.gpuUuid ∈ uuids then [job.gpuUuid] else uuids

/-- `occupancy`: the jobs on each card. -/
def occupancy (rig : WorkRig) (jobs : List JobRecord) : Dict Str (List JobRecord) :=
  let empty : Dict Str (List JobRecord) := rig.uuids.foldl (fun table uuid => table.set uuid []) []
  jobs.foldl (fun table job => (targets rig.uuids job).foldl (occupy job) table) empty

/-- `can_share`. -/
def canShare (existing : List JobRecord) (kind : WorkKind) : Bool :=
  if existing = [] then true
  else
    let kinds := existing.map (kindOf ·.kind)
    if kind.sensitive || kinds.any (·.any WorkKind.sensitive) then false
    else if kind.customer then kinds.all (·.any WorkKind.customer)
    else false

/-- The check `can_displace` makes of each job. -/
def displaceable (kind : WorkKind) (job : JobRecord) : Bool :=
  match kindOf job.kind with
  | none => false
  | some current => !(current.rank ≤ kind.rank) && !(current.sensitive || current.customer)

/-- `can_displace`. -/
def canDisplace (existing : List JobRecord) (kind : WorkKind) : Bool :=
  existing ≠ [] && existing.all (displaceable kind)

/-! ## The choice -/

/-- `Placement`. -/
structure Placement where
  rigId : Str := []
  gpuUuids : List Str := []
  displaced : List Str := []
  reason : Str := []
  deriving DecidableEq, Repr

/-- `Placement.ok`. -/
def Placement.ok (p : Placement) : Bool :=
  p.rigId ≠ [] && p.gpuUuids ≠ []

/-- `rank_rig`; lower is better. -/
def rankRig (rig : WorkRig) (free : ℤ) (displaced : ℕ) (ledger : Option UptimeLedger) : List ℚ :=
  [displaced, -rig.reliability, -(ledger.map (·.uptimeDays rig.id)).getD 0, -free]

/-- `a <= b` on tuples. -/
def tupleLe : List ℚ → List ℚ → Bool
  | [], _ => true
  | _ :: _, [] => false
  | a :: as, b :: bs => a < b || (a = b && tupleLe as bs)

/-- The cards of the table whose jobs meet `p`. -/
def usable (table : Dict Str (List JobRecord)) (p : List JobRecord → Bool) : List Str :=
  (table.filter (p ·.2)).map Prod.fst

/-- One round of the loop of `choose`: what a rig offers, with its rank, or why it offers
nothing. -/
def consider (kind : WorkKind) (needed : ℕ) (jobsByRig : Dict Str (List JobRecord))
    (ledger : Option UptimeLedger) (wholeNode : Bool) (rig : WorkRig) :
    Except Str (List ℚ × Placement) :=
  let reason := ineligibleReason rig kind
  if reason ≠ [] then .error (rig.id ++ ": ".toList ++ reason)
  else
    let table := occupancy rig ((jobsByRig.get? rig.id).getD [])
    if wholeNode && table.length ≠ needed then
      .error (rig.id ++ ": whole node has ".toList ++ natText table.length ++ " cards, ".toList ++
        natText needed ++ " requested".toList)
    else
      let free := usable table (· = [])
      let shareable := usable table fun existing => existing ≠ [] && canShare existing kind
      let displaceable := usable table fun existing => existing ≠ [] && canDisplace existing kind
      -- a list is only opened while cards are missing, so each slice may be empty
      let own := free.take needed
      let shared := shareable.take (needed - own.length)
      let taken := displaceable.take (needed - (own ++ shared).length)
      let chosen := own ++ shared ++ taken
      let displaced := taken.flatMap fun uuid => ((table.get? uuid).getD []).map JobRecord.jobId
      if chosen.length < needed then
        .error (rig.id ++ ": only ".toList ++ natText chosen.length ++ " of ".toList ++
          natText needed ++ " cards available".toList)
      else
        .ok (rankRig rig ((free.length : ℤ) - chosen.length) displaced.length ledger,
          { rigId := rig.id, gpuUuids := chosen, displaced := sortedSet displaced })

/-- The message of a result that is an error. -/
def failure? {α : Type} : Except Str α → Option Str
  | .error reason => some reason
  | .ok _ => none

/-- `choose`. `printable` is `str.isprintable` of a character, which the message about an unknown
kind depends on. -/
def choose (printable : Char → Bool) (kindText : Str) (gpuCount : ℤ) (roster : List WorkRig)
    (jobsByRig : Dict Str (List JobRecord)) (ledger : Option UptimeLedger) (wholeNode : Bool) :
    Placement :=
  match kindOf kindText with
  | none => { reason := "unknown work kind ".toList ++ pyRepr printable kindText }
  | some kind =>
    let needed := (max 1 gpuCount).toNat
    let outcomes := roster.map (consider kind needed jobsByRig ledger wholeNode)
    let reasons := outcomes.filterMap failure?
    let candidates := outcomes.filterMap Except.toOption
    -- the sort is stable, so of equal ranks the first rig of the roster is taken
    match candidates.insertionSort fun a b => tupleLe a.1 b.1 with
    | [] =>
      { reason :=
          if reasons = [] then "no rigs in the roster".toList
          else "; ".toList.intercalate (reasons.take 8) }
    | best :: _ => best.2

/-! ## Who is on a card -/

/-- The job is on the card of the rig. -/
def OnCard (rig : WorkRig) (job : JobRecord) (uuid : Str) : Prop :=
  uuid ∈ targets rig.uuids job

instance (rig : WorkRig) (job : JobRecord) (uuid : Str) : Decidable (OnCard rig job uuid) :=
  inferInstanceAs (Decidable (_ ∈ _))

/-- A job is on cards of the rig. -/
theorem targets_subset (uuids : List Str) (job : JobRecord) : targets uuids job ⊆ uuids := by
  intro uuid h
  rw [targets] at h
  split_ifs at h with hnamed
  · rw [List.mem_singleton.mp h]
    exact hnamed.2
  · exact h

/-- Entering a job doubles no card. -/
theorem nodup_keys_foldl_occupy (job : JobRecord) (uuids : List Str)
    {table : Dict Str (List JobRecord)} (h : table.keys.Nodup) :
    (uuids.foldl (occupy job) table).keys.Nodup := by
  induction uuids generalizing table with
  | nil => exact h
  | cons uuid uuids ih => exact ih (Dict.nodup_keys_set h _ _)

/-- Entering a job adds its cards. -/
theorem mem_keys_foldl_occupy (job : JobRecord) {uuids : List Str}
    {table : Dict Str (List JobRecord)} {uuid : Str} :
    uuid ∈ (uuids.foldl (occupy job) table).keys ↔ uuid ∈ uuids ∨ uuid ∈ table.keys := by
  induction uuids generalizing table with
  | nil => simp
  | cons u uuids ih =>
    rw [List.foldl_cons, ih, occupy, Dict.mem_keys_set, List.mem_cons]
    tauto

/-- The job is added to the cards of the list and to no other. -/
theorem mem_foldl_occupy (job : JobRecord) {uuids : List Str} {table : Dict Str (List JobRecord)}
    {uuid : Str} {other : JobRecord} :
    other ∈ ((uuids.foldl (occupy job) table).get? uuid).getD [] ↔
      (other = job ∧ uuid ∈ uuids) ∨ other ∈ (table.get? uuid).getD [] := by
  induction uuids generalizing table with
  | nil => simp
  | cons u uuids ih =>
    rw [List.foldl_cons, ih, occupy, Dict.get?_set]
    by_cases hu : uuid = u
    · subst hu
      simp only [↓reduceIte, Option.getD_some, List.mem_append, List.mem_cons, true_or, and_true]
      tauto
    · simp [hu]

section Occupancy

variable {rig : WorkRig} {jobs : List JobRecord}

/-- The invariant of the loop of `occupancy`, with the jobs it has `seen`. -/
structure IsTable (uuids : List Str) (seen : List JobRecord) (table : Dict Str (List JobRecord)) :
    Prop where
  nodup : table.keys.Nodup
  keys : ∀ uuid, uuid ∈ table.keys ↔ uuid ∈ uuids
  jobs : ∀ uuid job, job ∈ (table.get? uuid).getD [] ↔ job ∈ seen ∧ uuid ∈ targets uuids job

/-- At the start no card has a job. -/
theorem isTable_empty (uuids : List Str) :
    IsTable uuids [] (uuids.foldl (fun table uuid => table.set uuid []) []) := by
  -- along the list, the keys are the cards seen and nobody is on them
  suffices h : ∀ (rest : List Str) (table : Dict Str (List JobRecord)), table.keys.Nodup →
      (∀ uuid, (table.get? uuid).getD [] = []) →
      (rest.foldl (fun table uuid => table.set uuid []) table).keys.Nodup ∧
      (∀ uuid, uuid ∈ (rest.foldl (fun table uuid => table.set uuid []) table).keys ↔
        uuid ∈ rest ∨ uuid ∈ table.keys) ∧
      ∀ uuid, ((rest.foldl (fun table uuid => table.set uuid []) table).get? uuid).getD [] = [] by
    obtain ⟨hnodup, hkeys, hjobs⟩ := h uuids [] (by simp [Dict.keys]) (by simp)
    exact ⟨hnodup, fun uuid => by rw [hkeys]; simp [Dict.keys], fun uuid job => by simp [hjobs]⟩
  intro rest
  induction rest with
  | nil => exact fun table hnodup hjobs => ⟨hnodup, by simp, hjobs⟩
  | cons u rest ih =>
    intro table hnodup hjobs
    obtain ⟨hnodup', hkeys', hjobs'⟩ := ih (table.set u []) (Dict.nodup_keys_set hnodup _ _) (by
      intro uuid
      rw [Dict.get?_set]
      split_ifs
      · rfl
      · exact hjobs uuid)
    refine ⟨hnodup', fun uuid => ?_, hjobs'⟩
    rw [List.foldl_cons, hkeys', Dict.mem_keys_set, List.mem_cons]
    tauto

/-- One job more in the table, under each of its cards. -/
theorem IsTable.step {uuids : List Str} {seen : List JobRecord}
    {table : Dict Str (List JobRecord)} (h : IsTable uuids seen table) (job : JobRecord) :
    IsTable uuids (seen ++ [job]) ((targets uuids job).foldl (occupy job) table) where
  nodup := nodup_keys_foldl_occupy job _ h.nodup
  keys uuid := by
    rw [mem_keys_foldl_occupy, h.keys]
    exact ⟨fun hor => hor.elim (fun hmem => targets_subset _ _ hmem) id, Or.inr⟩
  jobs uuid other := by
    rw [mem_foldl_occupy, h.jobs, List.mem_append, List.mem_singleton]
    -- the job comes behind those seen before, on each of its targets
    constructor
    · rintro (⟨rfl, hmem⟩ | ⟨hseen, hmem⟩)
      · exact ⟨Or.inr rfl, hmem⟩
      · exact ⟨Or.inl hseen, hmem⟩
    · rintro ⟨hseen | rfl, hmem⟩
      · exact Or.inr ⟨hseen, hmem⟩
      · exact Or.inl ⟨rfl, hmem⟩

/-- The occupancy of a rig is the table of all its jobs. -/
theorem isTable_occupancy (rig : WorkRig) (jobs : List JobRecord) :
    IsTable rig.uuids jobs (occupancy rig jobs) := by
  suffices h : ∀ (rest seen : List JobRecord) (table : Dict Str (List JobRecord)),
      IsTable rig.uuids seen table → IsTable rig.uuids (seen ++ rest)
        (rest.foldl (fun table job => (targets rig.uuids job).foldl (occupy job) table) table) by
    exact h jobs [] _ (isTable_empty rig.uuids)
  intro rest
  induction rest with
  | nil => exact fun seen table h => by simpa using h
  | cons job rest ih =>
    intro seen table h
    have hrest := ih (seen ++ [job]) _ (h.step job)
    rwa [List.append_assoc, List.singleton_append] at hrest

/-- The jobs listed for a card are those on it. -/
theorem mem_occupancy {uuid : Str} {existing : List JobRecord}
    (h : (uuid, existing) ∈ occupancy rig jobs) {job : JobRecord} :
    job ∈ existing ↔ job ∈ jobs ∧ OnCard rig job uuid := by
  have htable := isTable_occupancy rig jobs
  rw [OnCard, ← htable.jobs, (Dict.get?_eq_some_iff htable.nodup).mpr h, Option.getD_some]

/-- The cards of a list `usable` makes, with the jobs on them. -/
theorem mem_usable {p : List JobRecord → Bool} {uuid : Str} :
    uuid ∈ usable (occupancy rig jobs) p ↔
      ∃ existing, (uuid, existing) ∈ occupancy rig jobs ∧ p existing = true := by
  simp [usable]

/-- Lists for conditions that exclude each other have no card in common. -/
theorem usable_disjoint {p q : List JobRecord → Bool}
    (hpq : ∀ existing, p existing = true → q existing = false) {uuid : Str}
    (hp : uuid ∈ usable (occupancy rig jobs) p) : uuid ∉ usable (occupancy rig jobs) q := by
  intro hq
  obtain ⟨existing, hmem, hpe⟩ := mem_usable.mp hp
  obtain ⟨existing', hmem', hqe⟩ := mem_usable.mp hq
  have hnodup := (isTable_occupancy rig jobs).nodup
  have heq := (Dict.get?_eq_some_iff hnodup).mpr hmem
  rw [(Dict.get?_eq_some_iff hnodup).mpr hmem', Option.some.injEq] at heq
  rw [heq, hpq existing hpe] at hqe
  exact Bool.noConfusion hqe

theorem nodup_usable (p : List JobRecord → Bool) :
    (usable (occupancy rig jobs) p).Nodup :=
  (isTable_occupancy rig jobs).nodup.sublist (List.Sublist.map _ List.filter_sublist)

theorem mem_uuids_of_mem_usable {p : List JobRecord → Bool} {uuid : Str}
    (h : uuid ∈ usable (occupancy rig jobs) p) : uuid ∈ rig.uuids := by
  obtain ⟨existing, hmem, -⟩ := mem_usable.mp h
  exact ((isTable_occupancy rig jobs).keys uuid).mp (Dict.mem_keys.mpr ⟨existing, hmem⟩)

end Occupancy

/-! ## Sharing and displacing -/

/-- Work shares a card only if it and everything on the card is inference. -/
theorem inference_of_canShare {existing : List JobRecord} {kind : WorkKind}
    (hne : existing ≠ []) (h : canShare existing kind) :
    kind = .inference ∧ ∀ job ∈ existing, kindOf job.kind = some .inference := by
  rw [canShare, if_neg hne] at h
  dsimp only at h
  split_ifs at h with hsensitive hcustomer
  refine ⟨by simpa [WorkKind.customer] using hcustomer, fun job hjob => ?_⟩
  have hany := List.all_eq_true.mp h _ (List.mem_map_of_mem hjob)
  obtain ⟨current, hcurrent, hinference⟩ := (Option.any_eq_true _ _).mp hany
  rw [hcurrent, of_decide_eq_true hinference]

/-- A job that work of this kind may displace. -/
def MayDisplace (kind : WorkKind) (job : JobRecord) : Prop :=
  ∃ current, kindOf job.kind = some current ∧ kind.rank < current.rank ∧ current ≠ .rental ∧
    current ≠ .inference

/-- When work may displace a job. -/
theorem displaceable_iff {kind : WorkKind} {job : JobRecord} :
    displaceable kind job ↔ MayDisplace kind job := by
  rw [displaceable, MayDisplace]
  cases kindOf job.kind with
  | none => simp
  | some current =>
    simp [WorkKind.sensitive, WorkKind.customer]

/-- A card is displaceable when each of its jobs is. -/
theorem mayDisplace_of_canDisplace {existing : List JobRecord} {kind : WorkKind}
    (h : canDisplace existing kind) : ∀ job ∈ existing, MayDisplace kind job := by
  intro job hjob
  rw [canDisplace, Bool.and_eq_true] at h
  exact displaceable_iff.mp (List.all_eq_true.mp h.2 job hjob)

/-- No work both shares a card and displaces what is on it. -/
theorem not_canDisplace_of_canShare {existing : List JobRecord} {kind : WorkKind}
    (hne : existing ≠ []) (h : canShare existing kind) : canDisplace existing kind = false := by
  refine Bool.eq_false_iff.mpr fun hdisplace => ?_
  obtain ⟨job, hjob⟩ := List.exists_mem_of_ne_nil existing hne
  obtain ⟨current, hcurrent, -, -, hinference⟩ := mayDisplace_of_canDisplace hdisplace job hjob
  rw [(inference_of_canShare hne h).2 job hjob] at hcurrent
  exact hinference (Option.some.inj hcurrent).symm

/-- A rig that is not ineligible. -/
structure Eligible (rig : WorkRig) (kind : WorkKind) : Prop where
  verified : rig.state.verified = true
  online : rig.online = true
  notDraining : rig.draining = false
  record : ∃ entry, rig.eligibility.get? kind.value = some entry ∧ entry.eligible = true
  rental : kind = .rental → rig.rentalOptOut = false

/-- Every reason against a rig was looked at. -/
theorem eligible_of_ineligibleReason {rig : WorkRig} {kind : WorkKind}
    (h : ineligibleReason rig kind = []) : Eligible rig kind := by
  rw [ineligibleReason] at h
  -- each reason is a text that is not empty
  split_ifs at h with hstate hgiven honline hdraining hrental
  · simp at h
  · simp at h
  · simp at h
  · simp at h
  · simp at h
  · cases hentry : rig.eligibility.get? kind.value with
    | none =>
      rw [hentry] at h
      simp at h
    | some entry =>
      rw [hentry] at h
      dsimp only at h
      split_ifs at h with heligible
      · simp at h
      · exact
          { verified := by simpa using hstate
            online := by simpa using honline
            notDraining := by simpa using hdraining
            record := ⟨entry, hentry, by simpa using heligible⟩
            rental := by simpa using hrental }

/-! ## Every placement -/

/-- What a placement of work of kind `kind` on `rig` must be, where `jobs` are the jobs of the rig
and `victims` the ones that make room. -/
structure Sound (kind : WorkKind) (gpuCount : ℤ) (rig : WorkRig) (jobs victims : List JobRecord)
    (p : Placement) : Prop where
  rigId : p.rigId = rig.id
  eligible : Eligible rig kind
  /-- Exactly the number of cards asked for, and no card twice. -/
  count : (p.gpuUuids.length : ℤ) = max 1 gpuCount
  nodup : p.gpuUuids.Nodup
  cards : ∀ uuid ∈ p.gpuUuids, uuid ∈ rig.uuids
  /-- What stays on a chosen card is inference, beside inference. -/
  left : ∀ uuid ∈ p.gpuUuids, ∀ job ∈ jobs, OnCard rig job uuid → job ∉ victims →
    kindOf job.kind = some .inference ∧ kind = .inference
  noRental : ∀ uuid ∈ p.gpuUuids, ∀ job ∈ jobs, OnCard rig job uuid →
    kindOf job.kind ≠ some .rental
  /-- The victims are the displaced jobs. -/
  displaced : ∀ jobId, jobId ∈ p.displaced ↔ ∃ job ∈ victims, job.jobId = jobId
  victims : ∀ job ∈ victims, job ∈ jobs ∧ (∃ uuid ∈ p.gpuUuids, OnCard rig job uuid) ∧
    MayDisplace kind job

section Slices

variable {kind : WorkKind} {rig : WorkRig} {jobs : List JobRecord}

/-- The cards nobody is on. -/
def freeCards (rig : WorkRig) (jobs : List JobRecord) : List Str :=
  usable (occupancy rig jobs) (· = [])

/-- The cards the work may share. -/
def shareableCards (kind : WorkKind) (rig : WorkRig) (jobs : List JobRecord) : List Str :=
  usable (occupancy rig jobs) fun existing => existing ≠ [] && canShare existing kind

/-- The cards the work may take over. -/
def displaceableCards (kind : WorkKind) (rig : WorkRig) (jobs : List JobRecord) : List Str :=
  usable (occupancy rig jobs) fun existing => existing ≠ [] && canDisplace existing kind

/-- A free card has no job. -/
theorem not_onCard_of_mem_freeCards {uuid : Str} (h : uuid ∈ freeCards rig jobs) :
    ∀ job ∈ jobs, ¬ OnCard rig job uuid := by
  intro job hjob hon
  obtain ⟨existing, hentry, hnil⟩ := mem_usable.mp h
  have hmem := (mem_occupancy hentry).mpr ⟨hjob, hon⟩
  rw [of_decide_eq_true hnil] at hmem
  exact List.not_mem_nil hmem

/-- A shareable card has nothing but inference, and the work is inference. -/
theorem inference_of_mem_shareableCards {uuid : Str} (h : uuid ∈ shareableCards kind rig jobs) :
    ∀ job ∈ jobs, OnCard rig job uuid →
      kindOf job.kind = some .inference ∧ kind = .inference := by
  intro job hjob hon
  obtain ⟨existing, hentry, hcond⟩ := mem_usable.mp h
  simp only [Bool.and_eq_true, decide_eq_true_eq] at hcond
  obtain ⟨hkind, hall⟩ := inference_of_canShare hcond.1 hcond.2
  exact ⟨hall job ((mem_occupancy hentry).mpr ⟨hjob, hon⟩), hkind⟩

/-- All jobs of a displaceable card may be displaced. -/
theorem mayDisplace_of_mem_displaceableCards {uuid : Str}
    (h : uuid ∈ displaceableCards kind rig jobs) :
    ∀ job ∈ jobs, OnCard rig job uuid → MayDisplace kind job := by
  intro job hjob hon
  obtain ⟨existing, hentry, hcond⟩ := mem_usable.mp h
  simp only [Bool.and_eq_true, decide_eq_true_eq] at hcond
  exact mayDisplace_of_canDisplace hcond.2 job ((mem_occupancy hentry).mpr ⟨hjob, hon⟩)

/-- The three lists have no card in common. -/
theorem nodup_cards : (freeCards rig jobs ++ shareableCards kind rig jobs ++
    displaceableCards kind rig jobs).Nodup := by
  rw [List.nodup_append, List.nodup_append]
  refine ⟨⟨nodup_usable _, nodup_usable _, ?_⟩, nodup_usable _, ?_⟩
  · rintro uuid hfree _ hshare rfl
    exact usable_disjoint (fun existing hnil => by simp [of_decide_eq_true hnil]) hfree hshare
  · rintro uuid hmem _ htake rfl
    rcases List.mem_append.mp hmem with hfree | hshare
    · exact usable_disjoint (fun existing hnil => by simp [of_decide_eq_true hnil]) hfree htake
    · refine usable_disjoint (fun existing hcond => ?_) hshare htake
      simp only [Bool.and_eq_true, decide_eq_true_eq] at hcond
      rw [not_canDisplace_of_canShare hcond.1 hcond.2, Bool.and_false]

/-- The placement on the first cards of each list is sound, if these are enough. -/
theorem sound_of_takes {gpuCount : ℤ} {own shared taken : List Str}
    (heligible : Eligible rig kind)
    (hown : own.Sublist (freeCards rig jobs))
    (hshared : shared.Sublist (shareableCards kind rig jobs))
    (htaken : taken.Sublist (displaceableCards kind rig jobs))
    (hcount : ((own ++ shared ++ taken).length : ℤ) = max 1 gpuCount) :
    Sound kind gpuCount rig jobs
      (taken.flatMap fun uuid => ((occupancy rig jobs).get? uuid).getD [])
      { rigId := rig.id
        gpuUuids := own ++ shared ++ taken
        displaced := sortedSet (taken.flatMap fun uuid =>
          (((occupancy rig jobs).get? uuid).getD []).map JobRecord.jobId) } := by
  -- the victims are the jobs on the cards that are taken away
  have hvictim {job : JobRecord} : job ∈ taken.flatMap (fun uuid =>
      ((occupancy rig jobs).get? uuid).getD []) ↔
        ∃ uuid ∈ taken, job ∈ jobs ∧ OnCard rig job uuid := by
    simp only [List.mem_flatMap, (isTable_occupancy rig jobs).jobs, OnCard]
  constructor
  case rigId => rfl
  case eligible => exact heligible
  case count => exact hcount
  case nodup => exact nodup_cards.sublist ((hown.append hshared).append htaken)
  case cards =>
    intro uuid hmem
    simp only [List.mem_append] at hmem
    rcases hmem with (hmem | hmem) | hmem
    · exact mem_uuids_of_mem_usable (hown.subset hmem)
    · exact mem_uuids_of_mem_usable (hshared.subset hmem)
    · exact mem_uuids_of_mem_usable (htaken.subset hmem)
  case left =>
    intro uuid hmem job hjob hon hleft
    simp only [List.mem_append] at hmem
    -- a free card has no job; a shared one only work it may share; the rest is displaced
    rcases hmem with (hmem | hmem) | hmem
    · exact absurd hon (not_onCard_of_mem_freeCards (hown.subset hmem) job hjob)
    · exact inference_of_mem_shareableCards (hshared.subset hmem) job hjob hon
    · exact absurd (hvictim.mpr ⟨uuid, hmem, hjob, hon⟩) hleft
  case noRental =>
    intro uuid hmem job hjob hon hrental
    simp only [List.mem_append] at hmem
    rcases hmem with (hmem | hmem) | hmem
    · exact not_onCard_of_mem_freeCards (hown.subset hmem) job hjob hon
    -- neither a shared nor a displaced job is a rental
    · have hinference := (inference_of_mem_shareableCards (hshared.subset hmem) job hjob hon).1
      rw [hrental] at hinference
      exact absurd (Option.some.inj hinference) (by decide)
    · obtain ⟨current, hcurrent, -, hne, -⟩ :=
        mayDisplace_of_mem_displaceableCards (htaken.subset hmem) job hjob hon
      rw [hrental] at hcurrent
      exact hne (Option.some.inj hcurrent).symm
  case displaced =>
    intro jobId
    simp only [mem_sortedSet, List.mem_flatMap, List.mem_map]
    constructor
    · rintro ⟨uuid, hmem, job, hjob, rfl⟩
      exact ⟨job, ⟨uuid, hmem, hjob⟩, rfl⟩
    · rintro ⟨job, ⟨uuid, hmem, hjob⟩, rfl⟩
      exact ⟨uuid, hmem, job, hjob, rfl⟩
  case victims =>
    intro job hjob
    obtain ⟨uuid, hmem, hjobs, hon⟩ := hvictim.mp hjob
    exact ⟨hjobs, ⟨uuid, List.mem_append_right _ hmem, hon⟩,
      mayDisplace_of_mem_displaceableCards (htaken.subset hmem) job hjobs hon⟩

end Slices

/-- What a rig offers is sound. -/
theorem consider_spec {kind : WorkKind} {gpuCount : ℤ} {jobsByRig : Dict Str (List JobRecord)}
    {ledger : Option UptimeLedger} {wholeNode : Bool} {rig : WorkRig} {rank : List ℚ}
    {p : Placement}
    (h : consider kind (max 1 gpuCount).toNat jobsByRig ledger wholeNode rig = .ok (rank, p)) :
    ∃ victims, Sound kind gpuCount rig ((jobsByRig.get? rig.id).getD []) victims p := by
  rw [consider] at h
  dsimp only at h
  split_ifs at h with hreason hnode hcount
  obtain ⟨-, rfl⟩ := Prod.mk.inj (Except.ok.inj h)
  refine ⟨_, sound_of_takes (eligible_of_ineligibleReason (not_not.mp hreason))
    (List.take_sublist _ _) (List.take_sublist _ _) (List.take_sublist _ _) ?_⟩
  -- the slices add up to at most what is needed, and the last guard says they are not fewer
  simp only [List.length_append, List.length_take] at hcount ⊢
  omega

/-- Where a job id names one kind of work, every job with a displaced id may be displaced. -/
theorem Sound.mayDisplace {kind : WorkKind} {gpuCount : ℤ} {rig : WorkRig}
    {jobs victims : List JobRecord} {p : Placement} (h : Sound kind gpuCount rig jobs victims p)
    (hids : ∀ job ∈ jobs, ∀ other ∈ jobs, job.jobId = other.jobId → job.kind = other.kind) :
    ∀ job ∈ jobs, job.jobId ∈ p.displaced → MayDisplace kind job := by
  intro job hjob hdisplaced
  obtain ⟨victim, hvictim, hid⟩ := (h.displaced job.jobId).mp hdisplaced
  obtain ⟨hmem, -, hmay⟩ := h.victims victim hvictim
  rw [MayDisplace, hids job hjob victim hmem hid.symm]
  exact hmay

/-- **Every placement is sound.** For every kind, number of cards, roster and table of jobs, a
placement that is made is on an eligible rig of the roster and on as many different cards of it as
asked for. What stays on these cards is inference beside inference, none of them carries a rental,
and what makes room has a known kind of strictly lower priority and is neither rental nor
inference. Where a job id names one kind of work, this holds of every job with a displaced id. -/
theorem choose_sound {printable : Char → Bool} {kindText : Str} {gpuCount : ℤ}
    {roster : List WorkRig} {jobsByRig : Dict Str (List JobRecord)}
    {ledger : Option UptimeLedger} {wholeNode : Bool} {p : Placement}
    (hp : choose printable kindText gpuCount roster jobsByRig ledger wholeNode = p)
    (hok : p.ok) :
    ∃ kind, kindOf kindText = some kind ∧ ∃ rig ∈ roster,
      ∃ jobs, (jobsByRig.get? rig.id).getD [] = jobs ∧
      (∃ victims, Sound kind gpuCount rig jobs victims p) ∧
      ((∀ job ∈ jobs, ∀ other ∈ jobs, job.jobId = other.jobId → job.kind = other.kind) →
        ∀ job ∈ jobs, job.jobId ∈ p.displaced → MayDisplace kind job) := by
  rw [choose] at hp
  cases hkind : kindOf kindText with
  | none =>
    rw [hkind] at hp
    rw [← hp] at hok
    simp [Placement.ok] at hok
  | some kind =>
    rw [hkind] at hp
    dsimp only at hp
    refine ⟨kind, rfl, ?_⟩
    split at hp
    · -- no candidate
      rw [← hp] at hok
      simp [Placement.ok] at hok
    -- the best offer was made by some rig of the roster
    · next best rest hsorted =>
      have hbest : best ∈ (roster.map (consider kind (max 1 gpuCount).toNat jobsByRig ledger
          wholeNode)).filterMap Except.toOption := by
        rw [← List.mem_insertionSort (fun a b => tupleLe a.1 b.1), hsorted]
        exact List.mem_cons_self
      simp only [List.mem_filterMap, List.mem_map] at hbest
      obtain ⟨_, ⟨rig, hrig, rfl⟩, hsome⟩ := hbest
      cases hconsider : consider kind (max 1 gpuCount).toNat jobsByRig ledger wholeNode rig with
      | error reason =>
        rw [hconsider] at hsome
        exact absurd hsome (by simp [Except.toOption])
      | ok offer =>
        rw [hconsider] at hsome
        obtain rfl := Option.some.inj hsome
        obtain ⟨victims, hsound⟩ := consider_spec hconsider
        rw [hp] at hsound
        exact ⟨rig, hrig, _, rfl, ⟨victims, hsound⟩, hsound.mayDisplace⟩

/-- A rig with a free card and one that a miner is on. -/
def WorkRig.halfBusy : WorkRig where
  id := "r".toList
  state := .active
  online := true
  gpus := [{ uuid := "g0".toList }, { uuid := "g1".toList }]
  eligibility := [("shaping".toList, { eligible := true })]

/-- The miner. -/
def JobRecord.miner : JobRecord where
  jobId := "m".toList
  kind := "mining".toList
  gpuUuid := "g0".toList

theorem choose_sound_halfBusy :
    ∃ p, choose (fun _ => true) "shaping".toList 2 [WorkRig.halfBusy]
        [("r".toList, [JobRecord.miner])] none false = p ∧
      p.ok ∧ p.gpuUuids.length = 2 ∧ p.displaced = ["m".toList] := by
  have hok : (choose (fun _ => true) "shaping".toList 2 [WorkRig.halfBusy]
      [("r".toList, [JobRecord.miner])] none false).ok := by decide +kernel
  obtain ⟨kind, -, rig, -, jobs, -, ⟨victims, hsound⟩, -⟩ := choose_sound rfl hok
  refine ⟨_, rfl, hok, ?_, by decide +kernel⟩
  have hcount := hsound.count
  omega

end ComputePool.Validator
