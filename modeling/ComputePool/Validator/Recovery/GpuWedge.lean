import ComputePool.Validator.Session.Runner

/-!
# Wedged cards

`validator/recovery/gpu_wedge.py`: a card that shows full utilisation without memory in use and
without a process is opened and closed once. Each sample is two queries that `asyncio.gather` runs
together; they are sent one after the other here.

The last sample of a sweep is read like the others, but why it was skipped is thrown away, so a
sample that could not be taken shows no card either. `cured_on_evidence_iff` says that a sweep
claims only what it saw exactly when the last sample could be taken, if one was needed.
-/

namespace ComputePool.Validator.GpuWedge

open Text Numeral

variable {σ : Type}

/-- `UTILISATION_MIN`. -/
def utilisationMin : PyFloat := .fin 95

/-- `SWEEP_MEMORY_MAX_MIB`. -/
def sweepMemoryMaxMib : PyFloat := .fin 16

/-- `looks_wedged`. -/
def looksWedged (utilisation memoryUsedMib : PyFloat) : Bool :=
  (utilisationMin.lt utilisation || utilisation = utilisationMin) &&
    (memoryUsedMib.lt sweepMemoryMaxMib || memoryUsedMib = sweepMemoryMaxMib)

/-- The card a line of the sample shows as wedged. -/
def wedgedIn (line : Str) : Option Str :=
  match (line.splitOn ',').map strip with
  | [uuid, utilisation, memory] =>
    if !startsWith uuid "GPU-".toList then none
    else do
      let utilisation ← floatOf utilisation
      let memory ← floatOf memory
      if looksWedged utilisation memory then some uuid else none
  | _ => none

/-- `parse_query`. -/
def parseQuery (stdout : Str) : List Str :=
  (splitLines stdout).filterMap wedgedIn

/-- `query_wedged`: the wedged cards, or why the sample was skipped. -/
def queryWedged : Task σ (List Str × Str) := do
  let apps ← Program.send .queryApps
  let sample ← Program.send .queryWedge
  if !apps.ok || !sample.ok then
    let complaint (r : CommandResult) := if r.error ≠ [] then r.error else r.stderrTail 200
    return ([], strip ("query failed: ".toList ++ complaint apps ++ [' '] ++ complaint sample))
  if strip apps.stdout ≠ [] then
    return ([], "compute processes present, wedge signature cannot apply".toList)
  return (parseQuery sample.stdout, [])

/-- `wedged_gpus`. -/
def wedgedGpus : Task σ (List Str × Str) := do
  let (first, skipped) ← queryWedged
  if skipped ≠ [] || first = [] then return ([], skipped)
  let _ ← Program.send .sleep
  let (second, skipped) ← queryWedged
  if skipped ≠ [] then return ([], skipped)
  return (first.filter (· ∈ second), [])

/-- `CURE_MARKER`. -/
def cureMarker : Str := "ctx open/close OK".toList

/-- `cure`. -/
def cure (uuid : Str) : Task σ Bool := do
  let result ← Program.send (.cure uuid)
  return result.ok && contains result.stdout cureMarker

/-- `SweepResult`. -/
structure SweepResult where
  wedged : List Str := []
  cured : List Str := []
  stillWedged : List Str := []
  skipped : Str := []
  deriving DecidableEq, Repr

/-- `sweep`. -/
def sweep : Task σ SweepResult := do
  let (wedged, skipped) ← wedgedGpus
  if skipped ≠ [] then return { skipped }
  if wedged = [] then return {}
  Program.forEach (fun _ uuid => do let _ ← cure uuid) wedged ()
  let (remaining, _) ← queryWedged
  let still := wedged.filter (· ∈ remaining)
  return { wedged, cured := wedged.filter (· ∉ still), stillWedged := still }

/-! ## What a sweep saw -/

/-- A sample that could be taken: both queries ended well, and no process was listed. -/
def usable (apps sample : CommandResult) : Bool :=
  apps.ok && sample.ok && strip apps.stdout = []

/-- A sample shows the signature for a card. -/
def Shows (apps sample : CommandResult) (uuid : Str) : Prop :=
  usable apps sample ∧ uuid ∈ parseQuery sample.stdout

/-- What a run sent, and what it was answered. -/
abbrev Log := List (Command × CommandResult)

/-- The two samples at the start of a sweep. -/
def samples (apps₁ sample₁ slept apps₂ sample₂ : CommandResult) : Log :=
  [(.queryApps, apps₁), (.queryWedge, sample₁), (.sleep, slept), (.queryApps, apps₂),
    (.queryWedge, sample₂)]

/-- Both samples before the cure show the signature for a card. -/
def ShownTwice (log : Log) (uuid : Str) : Prop :=
  ∃ apps₁ sample₁ slept apps₂ sample₂ rest,
    log = samples apps₁ sample₁ slept apps₂ sample₂ ++ rest ∧
      Shows apps₁ sample₁ uuid ∧ Shows apps₂ sample₂ uuid

/-- A sample after the cure of a card could be taken and does not show the signature for it. -/
def ClearedLater (log : Log) (uuid : Str) : Prop :=
  ∃ before result between apps sample rest,
    log = before ++ (.cure uuid, result) :: between ++
      (.queryApps, apps) :: (.queryWedge, sample) :: rest ∧
      usable apps sample ∧ uuid ∉ parseQuery sample.stdout

/-- A sweep claims what it saw. -/
structure Honest (result : SweepResult) (log : Log) : Prop where
  cured : ∀ uuid ∈ result.cured, ShownTwice log uuid ∧ ClearedLater log uuid
  union : ∀ uuid, uuid ∈ result.wedged ↔ uuid ∈ result.cured ∨ uuid ∈ result.stillWedged
  disjoint : ∀ uuid ∈ result.cured, uuid ∉ result.stillWedged
  treated : ∀ uuid r, (.cure uuid, r) ∈ log → ShownTwice log uuid

/-- If a card shows the signature in both samples, the sample at the end could be taken. -/
def Rechecked (replies : List CommandResult) : Prop :=
  ∀ apps₁ sample₁ slept apps₂ sample₂ between apps₃ sample₃,
    replies = [apps₁, sample₁, slept, apps₂, sample₂] ++ between ++ [apps₃, sample₃] →
      (∃ uuid, Shows apps₁ sample₁ uuid ∧ Shows apps₂ sample₂ uuid) → usable apps₃ sample₃

/-! ## What a sweep does -/

variable {s : σ} {w : Unit × Log}

/-- A sample is taken, or there is a reason why not. -/
theorem wp_queryWedged {Q : List Str × Str → σ → Unit × Log → Prop}
    (h : ∀ apps sample found skipped,
      (usable apps sample = true → found = parseQuery sample.stdout ∧ skipped = []) →
      (usable apps sample = false → found = [] ∧ skipped ≠ []) →
      Q (found, skipped) s ((), w.2 ++ [(.queryApps, apps), (.queryWedge, sample)])) :
    (queryWedged : Task σ _).wp (Program.logged Program.echo) (fun _ _ => True) Q s w := by
  rw [queryWedged, Program.wp_bind]
  refine Program.wp_send_echo fun apps => ?_
  rw [Program.wp_bind]
  refine Program.wp_send_echo fun sample => ?_
  rw [List.append_assoc]
  split_ifs with hfailed hprocesses
  -- a query that failed says why, also when its own reason is empty
  · have hreason (rest : Str) : strip ("query failed: ".toList ++ rest) ≠ [] := by
      refine strip_ne_nil (c := 'q') ?_ (by decide)
      exact List.mem_append_left _ (by decide)
    refine h apps sample _ _ (fun husable => ?_) fun _ => ⟨rfl, ?_⟩
    · simp_all [usable]
    · simpa only [List.append_assoc] using hreason _
  · refine h apps sample _ _ (fun husable => ?_) fun _ => ⟨rfl, by decide⟩
    simp_all [usable]
  · refine h apps sample _ _ (fun _ => ⟨rfl, rfl⟩) fun husable => ?_
    simp_all [usable]

/-- The two samples: the cards that both show, unless there is none or a sample was skipped. -/
theorem wp_wedgedGpus {Q : List Str × Str → σ → Unit × Log → Prop}
    (hnone : ∀ skipped log, log.length ≤ 5 → (∀ uuid r, (Command.cure uuid, r) ∉ log) →
      Q ([], skipped) s ((), w.2 ++ log))
    (hsome : ∀ apps₁ sample₁ slept apps₂ sample₂, usable apps₁ sample₁ → usable apps₂ sample₂ →
      Q ((parseQuery sample₁.stdout).filter (· ∈ parseQuery sample₂.stdout), []) s
        ((), w.2 ++ samples apps₁ sample₁ slept apps₂ sample₂)) :
    (wedgedGpus : Task σ _).wp (Program.logged Program.echo) (fun _ _ => True) Q s w := by
  rw [wedgedGpus, Program.wp_bind]
  refine wp_queryWedged fun apps₁ sample₁ first skipped₁ husable₁ hskipped₁ => ?_
  dsimp only
  split_ifs with hstop
  · exact hnone skipped₁ _ (by simp) (by simp)
  · -- a sample that was skipped has a reason
    have hused₁ : usable apps₁ sample₁ = true := by
      by_contra hnot
      simp [(hskipped₁ (by simpa using hnot)).2] at hstop
    rw [Program.wp_bind]
    refine Program.wp_send_echo fun slept => ?_
    rw [Program.wp_bind]
    refine wp_queryWedged fun apps₂ sample₂ second skipped₂ husable₂ hskipped₂ => ?_
    simp only [List.append_assoc]
    -- the second sample is skipped or usable, like the first
    split_ifs with hstop₂
    · exact hnone skipped₂ _ (by simp) (by simp)
    · have hused₂ : usable apps₂ sample₂ = true := by
        by_contra hnot
        exact hstop₂ (hskipped₂ (by simpa using hnot)).2
      obtain ⟨rfl, -⟩ := husable₁ hused₁
      obtain ⟨rfl, -⟩ := husable₂ hused₂
      exact hsome apps₁ sample₁ slept apps₂ sample₂ hused₁ hused₂

/-- Every card of the list is treated once, in order. -/
theorem wp_cures {Q : Unit → σ → Unit × Log → Prop} {uuids : List Str}
    (h : ∀ log : Log, log.map Prod.fst = uuids.map .cure → Q () s ((), w.2 ++ log)) :
    (Program.forEach (fun _ uuid => do let _ ← cure uuid) uuids () : Task σ Unit).wp
      (Program.logged Program.echo) (fun _ _ => True) Q s w := by
  -- what was cured and what is left make up the list
  refine Program.wp_mono (Program.wp_forEach (J := fun rest _ s' w' =>
    s' = s ∧ ∃ log : Log, w'.2 = w.2 ++ log ∧ uuids.map .cure = log.map Prod.fst ++ rest.map .cure)
    ?_ ⟨rfl, [], by simp, by simp⟩) ?_
  · rintro uuid rest - s' w' ⟨rfl, log, hlog, hdone⟩
    rw [Program.wp_bind, cure, Program.wp_bind]
    refine Program.wp_send_echo fun result => ?_
    refine ⟨rfl, log ++ [(.cure uuid, result)], by simp [hlog], ?_⟩
    simpa using hdone
  · rintro - s' w' ⟨rfl, log, hlog, hdone⟩
    have hw : w' = ((), w.2 ++ log) := by rw [← hlog]
    rw [hw]
    exact h log (by simpa using hdone.symm)

/-- A sweep that had nothing to do. -/
def Idle (result : SweepResult) (log : Log) : Prop :=
  result.wedged = [] ∧ result.cured = [] ∧ result.stillWedged = [] ∧ log.length ≤ 5 ∧
    ∀ uuid r, (Command.cure uuid, r) ∉ log

/-- A sweep that treated the cards both samples show. What a last sample does not show counts as
cured, and one that could not be taken shows nothing. -/
def Treated (result : SweepResult) (log : Log) : Prop :=
  ∃ apps₁ sample₁ slept apps₂ sample₂, ∃ cures : Log, ∃ apps₃ sample₃,
    usable apps₁ sample₁ ∧ usable apps₂ sample₂ ∧
    result.wedged = (parseQuery sample₁.stdout).filter (· ∈ parseQuery sample₂.stdout) ∧
    result.wedged ≠ [] ∧ cures.map Prod.fst = result.wedged.map .cure ∧
    log = samples apps₁ sample₁ slept apps₂ sample₂ ++ cures ++
      [(.queryApps, apps₃), (.queryWedge, sample₃)] ∧
    let remaining := if usable apps₃ sample₃ then parseQuery sample₃.stdout else []
    result.stillWedged = result.wedged.filter (· ∈ remaining) ∧
      result.cured = result.wedged.filter (· ∉ result.stillWedged)

/-- A sweep stops after a sample that shows no card or cannot be used, or it treats the cards that
both samples show. -/
theorem wp_sweep :
    (sweep : Task σ SweepResult).wp (Program.logged Program.echo) (fun _ _ => True)
      (fun result _ w => Idle result w.2 ∨ Treated result w.2) s ((), []) := by
  rw [sweep, Program.wp_bind]
  refine wp_wedgedGpus (fun skipped log hlength hcure => ?_) ?_
  · dsimp only
    rw [if_pos rfl]
    split_ifs
    · exact Or.inl ⟨rfl, rfl, rfl, hlength, hcure⟩
    · exact Or.inl ⟨rfl, rfl, rfl, hlength, hcure⟩
  · intro apps₁ sample₁ slept apps₂ sample₂ husable₁ husable₂
    dsimp only
    rw [if_neg (by simp)]
    -- no card shows in both samples, and nothing is cured
    split_ifs with hnone
    · exact Or.inl ⟨rfl, rfl, rfl, by simp [samples], by simp [samples]⟩
    · rw [Program.wp_bind]
      refine wp_cures fun cures hcures => ?_
      rw [Program.wp_bind]
      refine wp_queryWedged fun apps₃ sample₃ remaining skipped husable₃ hskipped₃ => ?_
      -- a last sample that was skipped shows no card
      have hremaining : remaining =
          if usable apps₃ sample₃ then parseQuery sample₃.stdout else [] := by
        split_ifs with husable
        · exact (husable₃ husable).1
        · exact (hskipped₃ (by simpa using husable)).1
      refine Or.inr ⟨apps₁, sample₁, slept, apps₂, sample₂, cures, apps₃, sample₃, husable₁,
        husable₂, rfl, hnone, hcures, by simp, ?_⟩
      rw [hremaining]
      exact ⟨rfl, rfl⟩

/-! ## Claims and evidence -/

variable {result : SweepResult} {log : Log}

/-- A sweep that treats nothing says nothing it has no evidence for. -/
theorem Idle.honest (h : Idle result log) : Honest result log := by
  obtain ⟨hwedged, hcured, hstill, -, hcure⟩ := h
  refine ⟨?_, ?_, ?_, fun uuid r hmem => absurd hmem (hcure uuid r)⟩
  · simp [hcured]
  · simp [hwedged, hcured, hstill]
  · simp [hcured]

/-- There is no last sample to look at. -/
theorem Idle.rechecked (h : Idle result log) : Rechecked (log.map Prod.snd) := by
  intro apps₁ sample₁ slept apps₂ sample₂ between apps₃ sample₃ hreplies
  have hlength := congrArg List.length hreplies
  have hshort := h.2.2.2.1
  simp at hlength
  omega

/-- The command treats a card. -/
def isCure : Command → Bool
  | .cure _ => true
  | _ => false

/-- What stands behind an item that stops the search is not skipped. -/
theorem mem_dropWhile_of_mem_tail {α : Type} {p : α → Bool} {before tail : List α} {a b : α}
    (ha : p a = false) (hb : b ∈ tail) : b ∈ (before ++ a :: tail).dropWhile p := by
  induction before with
  | nil => simp [ha, hb]
  | cons c before ih =>
    rw [List.cons_append, List.dropWhile_cons]
    split_ifs
    · exact ih
    · simp [hb]

/-- After a cure, only the last sample is taken. -/
theorem eq_last_sample {apps₁ sample₁ slept apps₂ sample₂ apps₃ sample₃ : CommandResult}
    {cures : Log} (hcures : ∀ e ∈ cures, isCure e.1) (hne : cures ≠ []) {before tail : Log}
    {uuid : Str} {r : CommandResult}
    (h : samples apps₁ sample₁ slept apps₂ sample₂ ++ cures ++
      [(.queryApps, apps₃), (.queryWedge, sample₃)] = before ++ (.cure uuid, r) :: tail)
    {e : Command × CommandResult} (he : e ∈ tail) (hcure : isCure e.1 = false) :
    e = (.queryApps, apps₃) ∨ e = (.queryWedge, sample₃) := by
  -- no command before the cures is one
  have hsamples : ∀ e ∈ samples apps₁ sample₁ slept apps₂ sample₂, (!isCure e.1) = true := by
    simp [samples, isCure]
  have hdrop : (samples apps₁ sample₁ slept apps₂ sample₂ ++ cures ++
      [(Command.queryApps, apps₃), (.queryWedge, sample₃)]).dropWhile (fun e => !isCure e.1) =
      cures ++ [(.queryApps, apps₃), (.queryWedge, sample₃)] := by
    rw [List.append_assoc, List.dropWhile_append_of_pos hsamples]
    obtain ⟨first, rest, rfl⟩ := List.exists_cons_of_ne_nil hne
    simp [hcures first List.mem_cons_self]
  -- what comes after a cure is another cure or the last sample
  have hmem : e ∈ cures ++ [(.queryApps, apps₃), (.queryWedge, sample₃)] := by
    rw [← hdrop, h]
    exact mem_dropWhile_of_mem_tail rfl he
  rcases List.mem_append.mp hmem with hmem | hmem
  · simp [hcures e hmem] at hcure
  · simpa using hmem

/-- A sweep that treated cards: two usable samples, a cure of each card that both show, and a last
sample that says which of them are wedged still. -/
structure Treatment (result : SweepResult) (log : Log)
    (apps₁ sample₁ slept apps₂ sample₂ : CommandResult) (cures : Log)
    (apps₃ sample₃ : CommandResult) : Prop where
  usable₁ : usable apps₁ sample₁
  usable₂ : usable apps₂ sample₂
  wedged : result.wedged = (parseQuery sample₁.stdout).filter (· ∈ parseQuery sample₂.stdout)
  nonempty : result.wedged ≠ []
  each : cures.map Prod.fst = result.wedged.map .cure
  log : log = samples apps₁ sample₁ slept apps₂ sample₂ ++ cures ++
    [(.queryApps, apps₃), (.queryWedge, sample₃)]
  still : result.stillWedged = result.wedged.filter
    (· ∈ if usable apps₃ sample₃ then parseQuery sample₃.stdout else [])
  cured : result.cured = result.wedged.filter (· ∉ result.stillWedged)

namespace Treatment

variable {apps₁ sample₁ slept apps₂ sample₂ apps₃ sample₃ : CommandResult} {cures : Log}
  {uuid : Str}

/-- A card that counts as wedged was shown in both samples. -/
theorem shownTwice (h : Treatment result log apps₁ sample₁ slept apps₂ sample₂ cures apps₃ sample₃)
    (huuid : uuid ∈ result.wedged) : ShownTwice log uuid := by
  rw [h.wedged, List.mem_filter] at huuid
  exact ⟨apps₁, sample₁, slept, apps₂, sample₂, _, by rw [h.log, List.append_assoc],
    ⟨h.usable₁, huuid.1⟩, h.usable₂, by simpa using huuid.2⟩

/-- The wedged cards are treated and no others. -/
theorem mem_cures_iff
    (h : Treatment result log apps₁ sample₁ slept apps₂ sample₂ cures apps₃ sample₃) :
    (∃ r, (Command.cure uuid, r) ∈ cures) ↔ uuid ∈ result.wedged := by
  have hfst : (∃ r, (Command.cure uuid, r) ∈ cures) ↔ Command.cure uuid ∈ cures.map Prod.fst := by
    simp
  rw [hfst, h.each]
  simp

/-- The treatments issue nothing but cures. -/
theorem isCure_of_mem
    (h : Treatment result log apps₁ sample₁ slept apps₂ sample₂ cures apps₃ sample₃) :
    ∀ e ∈ cures, isCure e.1 := by
  intro e he
  have hfst := List.mem_map_of_mem (f := Prod.fst) he
  rw [h.each] at hfst
  obtain ⟨uuid, -, huuid⟩ := List.mem_map.mp hfst
  rw [← huuid]
  rfl

/-- Some card is treated. -/
theorem cures_ne_nil
    (h : Treatment result log apps₁ sample₁ slept apps₂ sample₂ cures apps₃ sample₃) :
    cures ≠ [] := by
  intro hnil
  have hwedged := h.each
  rw [hnil] at hwedged
  exact h.nonempty (List.map_eq_nil_iff.mp hwedged.symm)

/-- The wedged cards that the last sample does not show count as cured. -/
theorem mem_cured_iff
    (h : Treatment result log apps₁ sample₁ slept apps₂ sample₂ cures apps₃ sample₃) :
    uuid ∈ result.cured ↔ uuid ∈ result.wedged ∧ uuid ∉ result.stillWedged := by
  rw [h.cured]
  simp

/-- Without a usable last sample every card counts as cured, and no evidence for it was seen. -/
theorem usable_of_honest
    (h : Treatment result log apps₁ sample₁ slept apps₂ sample₂ cures apps₃ sample₃)
    (hhonest : Honest result log) : usable apps₃ sample₃ := by
  by_contra hskipped
  obtain ⟨uuid, huuid⟩ := List.exists_mem_of_ne_nil _ h.nonempty
  have hclaimed : uuid ∈ result.cured :=
    h.mem_cured_iff.mpr ⟨huuid, by simp [h.still, hskipped]⟩
  obtain ⟨before, r, between, apps, sample, rest, heq, husable, -⟩ :=
    (hhonest.cured uuid hclaimed).2
  -- the sample that shows the cure is the last one
  rw [h.log, List.append_assoc before] at heq
  have hlast {e : Command × CommandResult}
      (he : e ∈ between ++ (.queryApps, apps) :: (.queryWedge, sample) :: rest) :=
    eq_last_sample h.isCure_of_mem h.cures_ne_nil heq he
  have happs : apps = apps₃ := by simpa using hlast (e := (.queryApps, apps)) (by simp) rfl
  have hsample : sample = sample₃ := by
    simpa using hlast (e := (.queryWedge, sample)) (by simp) rfl
  exact hskipped (happs ▸ hsample ▸ husable)

/-- With a usable last sample the sweep claims what it saw. -/
theorem honest_of_usable
    (h : Treatment result log apps₁ sample₁ slept apps₂ sample₂ cures apps₃ sample₃)
    (husable : usable apps₃ sample₃) : Honest result log := by
  refine ⟨fun uuid huuid => ?_, fun uuid => ?_, fun uuid huuid => (h.mem_cured_iff.mp huuid).2, ?_⟩
  · obtain ⟨hin, hout⟩ := h.mem_cured_iff.mp huuid
    refine ⟨h.shownTwice hin, ?_⟩
    -- the cure of the card is followed by the last sample
    obtain ⟨r, hentry⟩ := h.mem_cures_iff.mpr hin
    obtain ⟨before, between, rfl⟩ := List.append_of_mem hentry
    refine ⟨samples apps₁ sample₁ slept apps₂ sample₂ ++ before, r, between, apps₃, sample₃, [],
      by simp [h.log], husable, fun hshows => hout ?_⟩
    rw [h.still, if_pos husable, List.mem_filter]
    exact ⟨hin, by simpa using hshows⟩
  · rw [h.mem_cured_iff, h.still]
    by_cases hshown : uuid ∈ parseQuery sample₃.stdout
    · simp [husable, hshown]
    · simp [husable, hshown]
  · intro uuid r hentry
    rw [h.log] at hentry
    exact h.shownTwice (h.mem_cures_iff.mp ⟨r, by simpa [samples] using hentry⟩)

end Treatment

/-- A sweep that treated cards claims what it saw exactly when the last sample, as its replies tell,
could be taken. -/
theorem Treated.honest_iff (h : Treated result log) :
    Honest result log ↔ Rechecked (log.map Prod.snd) := by
  obtain ⟨apps₁, sample₁, slept, apps₂, sample₂, cures, apps₃, sample₃, husable₁, husable₂,
    hwedged, hne, hcures, hlog, hstill, hcured⟩ := h
  have htreatment : Treatment result log apps₁ sample₁ slept apps₂ sample₂ cures apps₃ sample₃ :=
    ⟨husable₁, husable₂, hwedged, hne, hcures, hlog, hstill, hcured⟩
  have hhonest : Honest result log ↔ usable apps₃ sample₃ :=
    ⟨htreatment.usable_of_honest, htreatment.honest_of_usable⟩
  rw [hhonest, hlog, List.map_append, List.map_append]
  constructor
  · intro husable₃ apps₁' sample₁' slept' apps₂' sample₂' between apps₃' sample₃' heq _
    -- the replies tell which samples are meant, whatever the commands
    have hlast := (List.append_inj' heq rfl).2
    obtain ⟨rfl, rfl⟩ : apps₃ = apps₃' ∧ sample₃ = sample₃' := by simpa using hlast
    exact husable₃
  · intro hrechecked
    refine hrechecked apps₁ sample₁ slept apps₂ sample₂ (cures.map Prod.snd) apps₃ sample₃ rfl ?_
    -- at least one card was cured, and it shows in both samples
    obtain ⟨uuid, huuid⟩ := List.exists_mem_of_ne_nil _ hne
    rw [hwedged, List.mem_filter] at huuid
    exact ⟨uuid, ⟨husable₁, huuid.1⟩, husable₂, by simpa using huuid.2⟩

/-- **A sweep claims what it saw exactly when it could look again.** Whatever the commands are
answered: a card is listed as cured only if both samples before the cure show the signature for it
and a sample after the cure could be taken and does not, the wedged cards are those cured and those
still wedged, none in both, and only cards that both samples show are treated; if and only if the
last sample could be taken whenever there was a card to treat. -/
theorem cured_on_evidence_iff {replies : List CommandResult} {s s' : σ}
    (hrun : (sweep : Task σ SweepResult).run (Program.logged Program.echo) replies s ((), []) =
      some (result, s', ((), log))) :
    Honest result log ↔ Rechecked replies := by
  have hreplies : log.map Prod.snd = replies := by
    simpa using Program.outcomes_of_run_logged hrun
  rw [← hreplies]
  have hcases := Program.run_of_wp wp_sweep hrun
  rcases hcases with hidle | htreated
  · exact iff_of_true hidle.honest hidle.rechecked
  · exact htreated.honest_iff

/-- A sample that shows one card as wedged. -/
def wedgedSample : CommandResult where
  exitCode := 0
  stdout := "GPU-a, 100, 3".toList

/-- A sample that shows it as well again. -/
def clearSample : CommandResult where
  exitCode := 0
  stdout := "GPU-a, 0, 3".toList

/-- The replies to a sweep that treats one card, up to the last sample. -/
def treatedReplies (last : List CommandResult) : List CommandResult :=
  let fine : CommandResult := { exitCode := 0 }
  [fine, wedgedSample, fine, fine, wedgedSample, fine] ++ last

/-- The run of the sweep on given replies. -/
def sweepOn (replies : List CommandResult) : Option (SweepResult × Unit × Unit × Log) :=
  (sweep : Task Unit SweepResult).run (Program.logged Program.echo) replies () ((), [])

theorem cured_on_evidence_iff_clear : ∃ result log,
    sweepOn (treatedReplies [{ exitCode := 0 }, clearSample]) = some (result, (), ((), log)) ∧
      result.cured = ["GPU-a".toList] ∧ Honest result log := by
  have hrun : (sweepOn (treatedReplies [{ exitCode := 0 }, clearSample])).map (fun r => r.1.cured) =
      some ["GPU-a".toList] := by
    decide +kernel
  obtain ⟨⟨result, s', w', log⟩, hsome, hcured⟩ := Option.map_eq_some_iff.mp hrun
  refine ⟨result, log, hsome, hcured, (cured_on_evidence_iff hsome).mpr ?_⟩
  intro apps₁ sample₁ slept apps₂ sample₂ between apps₃ sample₃ hreplies _
  have hlast : [{ exitCode := 0 }, clearSample] = [apps₃, sample₃] :=
    (List.append_inj' hreplies rfl).2
  obtain ⟨rfl, rfl⟩ : ({ exitCode := 0 } : CommandResult) = apps₃ ∧ clearSample = sample₃ := by
    simpa using hlast
  decide +kernel

/-- The last sample fails, and the card is listed as cured. -/
theorem failed_sample_cures : ∃ result log,
    sweepOn (treatedReplies [{ exitCode := 9 }, { exitCode := 9 }]) =
      some (result, (), ((), log)) ∧ result.cured = ["GPU-a".toList] ∧ ¬ Honest result log := by
  -- both queries of the last sample fail
  have hrun : (sweepOn (treatedReplies [{ exitCode := 9 }, { exitCode := 9 }])).map
      (fun r => r.1.cured) = some ["GPU-a".toList] := by
    decide +kernel
  obtain ⟨⟨result, s', w', log⟩, hsome, hcured⟩ := Option.map_eq_some_iff.mp hrun
  have hcured : result.cured = ["GPU-a".toList] := hcured
  refine ⟨result, log, hsome, hcured, ?_⟩
  have hreplies : log.map Prod.snd = treatedReplies [{ exitCode := 9 }, { exitCode := 9 }] := by
    simpa using Program.outcomes_of_run_logged hsome
  have hcases := Program.run_of_wp wp_sweep hsome
  rcases hcases with hidle | htreated
  · simp [hidle.2.1] at hcured
  · rw [htreated.honest_iff, hreplies]
    intro hrechecked
    -- the card shows in the first two samples
    have hshows : Shows { exitCode := 0 } wedgedSample "GPU-a".toList := by
      refine ⟨by decide +kernel, by decide +kernel⟩
    have husable := hrechecked _ _ _ _ _ [{ exitCode := 0 }] _ _ rfl ⟨_, hshows, hshows⟩
    exact absurd husable (by decide +kernel)

end ComputePool.Validator.GpuWedge
