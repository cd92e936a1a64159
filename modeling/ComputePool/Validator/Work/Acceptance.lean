import ComputePool.Validator.Work.JobSpec

/-!
# What a job specification is accepted for

`JobSpec.problems` of `validator/work/containers.py` against what its expressions declare. An
expression that ends in `$` lets one newline through after what it describes, and no check looks at
two volumes at once.

* `problems_eq_nil_iff`: a specification without problems passes every check.
* `inGrammar_iff`: its texts are what the expressions declare exactly when none of them ends in a
  newline.
* `mountPlaces_nodup_iff`: its volumes are mounted at different places exactly when their mount
  paths differ, at most one of them is encrypted, and none is mounted where the ciphertext of an
  encrypted one is.
-/

namespace ComputePool.Validator

open Text Numeral Protocol

/-- Every check of `JobSpec.problems`. -/
structure Checked (spec : JobSpec) (allowlist : List Str) : Prop where
  jobId : jobIdPattern spec.jobId
  kind : ∃ kind ∈ priority, kind.value = spec.kind
  imageRef : imageRefPattern spec.image
  digest : wellFormedDigest (spec.image.reverse.takeWhile (· ≠ '@')).reverse
  allowed : spec.image ∈ allowlist
  someGpu : spec.gpuUuids ≠ []
  fewGpus : spec.gpuUuids.length ≤ maxGpus
  gpuUuids : ∀ uuid ∈ spec.gpuUuids, gpuUuidPattern uuid
  isolated : spec.kind = WorkKind.rental.value → spec.isolation
  envKeys : ∀ key ∈ spec.env.keys, envKeyPattern key
  shmSize : shmSizePattern spec.shmSize
  volumeNames : ∀ volume ∈ spec.volumes, validVolume volume.name
  mountPaths : ∀ volume ∈ spec.volumes, validMountPath volume.mountPath
  plaintext : ∀ volume ∈ spec.volumes, volume.encrypted → volume.mountPath ≠ cipherPath
  quota : spec.storageGb.positive → spec.quotasSupported

/-- An image without problems is a reference with a digest, and it is on the list. -/
theorem imageProblems_eq_nil_iff {printable : Char → Bool} {image : Str} {allowlist : List Str} :
    imageProblems printable image allowlist = [] ↔ imageRefPattern image ∧
      wellFormedDigest (image.reverse.takeWhile (· ≠ '@')).reverse ∧ image ∈ allowlist := by
  rw [imageProblems]
  generalize (image.reverse.takeWhile (· ≠ '@')).reverse = digest
  split_ifs with hpinned hlisted
  · refine iff_of_false (by simp) fun h => ?_
    simp [h.1, h.2.1] at hpinned
  · refine iff_of_true rfl ?_
    simpa [hlisted] using hpinned
  · exact iff_of_false (by simp) fun h => hlisted h.2.2

/-- A volume without problems. -/
theorem VolumeSpec.problems_eq_nil_iff {printable : Char → Bool} {volume : VolumeSpec} :
    volume.problems printable = [] ↔ validVolume volume.name ∧ validMountPath volume.mountPath ∧
      (volume.encrypted → volume.mountPath ≠ cipherPath) := by
  simp only [problems, List.append_eq_nil_iff, ite_eq_left_iff, ite_eq_right_iff, List.cons_ne_nil,
    imp_false, Bool.not_eq_true, Bool.not_eq_false, Bool.and_eq_true, decide_eq_true_eq, not_and,
    and_assoc, ne_eq]

/-- A specification without problems passes every check. -/
theorem problems_eq_nil_iff {printable : Char → Bool} {spec : JobSpec} {allowlist : List Str} :
    spec.problems printable allowlist = [] ↔ Checked spec allowlist := by
  simp only [JobSpec.problems, List.append_eq_nil_iff, List.flatMap_eq_nil_iff,
    List.map_eq_nil_iff, List.filter_eq_nil_iff, imageProblems_eq_nil_iff,
    VolumeSpec.problems_eq_nil_iff, ite_eq_left_iff, ite_eq_right_iff, List.cons_ne_nil, imp_false]
  constructor
  -- the list of problems is empty when each of its parts is
  · rintro ⟨⟨⟨⟨⟨⟨⟨⟨⟨⟨hid, hkind⟩, himage⟩, hsome⟩, hfew⟩, huuids⟩, hisolated⟩, hkeys⟩, hshm⟩,
      hvolumes⟩, hquota⟩
    constructor
    case jobId => simpa using hid
    case kind => simpa using hkind
    case imageRef => exact himage.1
    case digest => exact himage.2.1
    case allowed => exact himage.2.2
    case someGpu => exact hsome
    case fewGpus => simpa using hfew
    case gpuUuids => simpa using huuids
    case isolated => simpa using hisolated
    case envKeys => simpa using hkeys
    case shmSize => simpa using hshm
    case volumeNames => exact fun volume hmem => (hvolumes volume hmem).1
    case mountPaths => exact fun volume hmem => (hvolumes volume hmem).2.1
    case plaintext => exact fun volume hmem => (hvolumes volume hmem).2.2
    case quota => simpa using hquota
  · intro h
    refine ⟨⟨⟨⟨⟨⟨⟨⟨⟨⟨?_, ?_⟩, ?_⟩, ?_⟩, ?_⟩, ?_⟩, ?_⟩, ?_⟩, ?_⟩, ?_⟩, ?_⟩
    · simpa using h.jobId
    · simpa using h.kind
    · exact ⟨h.imageRef, h.digest, h.allowed⟩
    · exact h.someGpu
    · simpa using h.fewGpus
    · simpa using h.gpuUuids
    · simpa using h.isolated
    · simpa using h.envKeys
    · simpa using h.shmSize
    · exact fun volume hmem =>
        ⟨h.volumeNames volume hmem, h.mountPaths volume hmem, h.plaintext volume hmem⟩
    · simpa using h.quota

/-! ## What the expressions declare -/

/-- A character of the class `first`, then at most `more` of the class `rest`. -/
def IsWord (first rest : Char → Bool) (more : ℕ) (s : Str) : Prop :=
  ∃ c cs, s = c :: cs ∧ first c ∧ cs.length ≤ more ∧ ∀ d ∈ cs, rest d

/-- `GPU-[0-9a-f-]{36}`. -/
def IsGpuUuid (s : Str) : Prop :=
  ∃ body, s = "GPU-".toList ++ body ∧ body.length = 36 ∧ ∀ c ∈ body, isHex c ∨ c = '-'

/-- `[0-9]+[kmgKMG]?`. -/
def IsShmSize (s : Str) : Prop :=
  ∃ digits unit, s = digits ++ unit ∧ digits ≠ [] ∧ (∀ c ∈ digits, isDigit c) ∧
    (unit = [] ∨ ∃ u ∈ ['k', 'm', 'g', 'K', 'M', 'G'], unit = [u])

/-- `mt-vol-[A-Za-z0-9][A-Za-z0-9_.-]{0,60}`. -/
def IsVolumeName (s : Str) : Prop :=
  ∃ rest, s = volumePrefix ++ rest ∧ IsWord isAlnum isNameChar 60 rest

/-- `MOUNT_PATH`: a slash, then one to 200 letters, digits and `_`, `.`, `/`, `-`. -/
def IsPathText (s : Str) : Prop :=
  ∃ rest, s = '/' :: rest ∧ rest ≠ [] ∧ rest.length ≤ 200 ∧
    ∀ c ∈ rest, isAlnum c ∨ c ∈ ['_', '.', '/', '-']

/-- A path without `..`. -/
def IsMountPath (s : Str) : Prop :=
  IsPathText s ∧ ¬ contains s "..".toList

/-- The texts of a specification are what the expressions declare. -/
structure InGrammar (spec : JobSpec) : Prop where
  jobId : IsWord isAlnum isNameChar 60 spec.jobId
  envKeys : ∀ key ∈ spec.env.keys,
    IsWord (fun c => isLetter c || c = '_') (fun c => isAlnum c || c = '_') 63 key
  gpuUuids : ∀ uuid ∈ spec.gpuUuids, IsGpuUuid uuid
  shmSize : IsShmSize spec.shmSize
  volumeNames : ∀ volume ∈ spec.volumes, IsVolumeName volume.name
  mountPaths : ∀ volume ∈ spec.volumes, IsMountPath volume.mountPath

/-- The texts that the expressions are about. -/
def JobSpec.checkedTexts (spec : JobSpec) : List Str :=
  spec.jobId :: spec.shmSize :: (spec.env.keys ++ spec.gpuUuids ++
    spec.volumes.map VolumeSpec.name ++ spec.volumes.map VolumeSpec.mountPath)

/-- The text ends in a newline. -/
def EndsInNewline (s : Str) : Prop :=
  s.getLast? = some '\n'

/-- What an expression with `$` accepts is what it describes, or has a newline at the end. -/
theorem shape_iff_of_matchesToEnd {accepts : Str → Bool} {Shape : Str → Prop} {s : Str}
    (haccepts : ∀ s, accepts s ↔ Shape s) (hclean : ∀ s, Shape s → '\n' ∉ s)
    (h : matchesToEnd accepts s) : Shape s ↔ ¬ EndsInNewline s := by
  constructor
  · intro hshape hends
    exact hclean s hshape (List.mem_of_getLast? hends)
  · intro hends
    rw [matchesToEnd, Bool.or_eq_true, Bool.and_eq_true, decide_eq_true_eq] at h
    rcases h with haccepted | ⟨hlast, -⟩
    · exact (haccepts s).mp haccepted
    · exact absurd hlast hends

/-- The pattern of a word, spelled out. -/
theorem word_iff {first rest : Char → Bool} {more : ℕ} {s : Str} :
    word first rest more s ↔ IsWord first rest more s := by
  cases s with
  | nil => simp [word, IsWord]
  | cons c cs => simp [word, IsWord, and_assoc]

/-- A word has no newline when neither of its kinds of characters is one. -/
theorem newline_not_mem_word {first rest : Char → Bool} {more : ℕ} {s : Str}
    (hfirst : first '\n' = false) (hrest : rest '\n' = false) (h : IsWord first rest more s) :
    '\n' ∉ s := by
  obtain ⟨c, cs, rfl, hc, -, hcs⟩ := h
  intro hmem
  rcases List.mem_cons.mp hmem with rfl | hmem
  · rw [hfirst] at hc
    exact Bool.noConfusion hc
  · have hnewline := hcs _ hmem
    rw [hrest] at hnewline
    exact Bool.noConfusion hnewline

/-- What `$` lets through beyond a word is a newline at the end. -/
theorem isWord_iff_of_pattern {first rest : Char → Bool} {more : ℕ} {s : Str}
    (hfirst : first '\n' = false) (hrest : rest '\n' = false)
    (h : matchesToEnd (word first rest more) s) : IsWord first rest more s ↔ ¬ EndsInNewline s :=
  shape_iff_of_matchesToEnd (fun _ => word_iff)
    (fun _ => newline_not_mem_word hfirst hrest) h

/-- What `$` lets through beyond the grammar is a newline at the end. -/
theorem isGpuUuid_iff_of_pattern {s : Str} (h : gpuUuidPattern s) :
    IsGpuUuid s ↔ ¬ EndsInNewline s := by
  refine shape_iff_of_matchesToEnd (fun t => ?_) (fun t ht => ?_) h
  · simp only [Bool.and_eq_true, List.isPrefixOf_iff_prefix, decide_eq_true_eq, List.all_eq_true,
      Bool.or_eq_true]
    constructor
    · rintro ⟨⟨⟨body, rfl⟩, hlength⟩, hbody⟩
      exact ⟨body, rfl, by simpa using hlength, hbody⟩
    · rintro ⟨body, rfl, hlength, hbody⟩
      exact ⟨⟨⟨body, rfl⟩, by simpa using hlength⟩, hbody⟩
  · obtain ⟨body, rfl, -, hbody⟩ := ht
    rw [List.mem_append, not_or]
    refine ⟨by decide, fun hmem => ?_⟩
    exact absurd (hbody _ hmem) (by decide)

/-- Likewise for the sizes of shared memory. -/
theorem isShmSize_iff_of_pattern {s : Str} (h : shmSizePattern s) :
    IsShmSize s ↔ ¬ EndsInNewline s := by
  refine shape_iff_of_matchesToEnd (fun t => ?_) (fun t ht => ?_) h
  · have hsplit : t.drop (t.takeWhile isDigit).length = t.dropWhile isDigit := by
      calc t.drop (t.takeWhile isDigit).length
          = (t.takeWhile isDigit ++ t.dropWhile isDigit).drop (t.takeWhile isDigit).length := by
            rw [List.takeWhile_append_dropWhile]
        _ = t.dropWhile isDigit := List.drop_left
    simp only [hsplit, Bool.and_eq_true, Bool.or_eq_true, decide_eq_true_eq, List.any_eq_true]
    constructor
    · rintro ⟨hdigits, hunit⟩
      exact ⟨_, _, (List.takeWhile_append_dropWhile).symm, hdigits,
        fun c hc => List.mem_takeWhile_imp hc, hunit⟩
    · rintro ⟨digits, unit, rfl, hne, hdigits, hunit⟩
      -- no unit is a digit, so the digits are all that is taken
      have hstop : unit.takeWhile isDigit = [] ∧ unit.dropWhile isDigit = unit := by
        rcases hunit with rfl | ⟨u, hu, rfl⟩
        · simp
        · have hunits : ['k', 'm', 'g', 'K', 'M', 'G'].all (!isDigit ·) := by decide
          have hdigit : isDigit u = false := by simpa using List.all_eq_true.mp hunits u hu
          simp [hdigit]
      rw [List.takeWhile_append_of_pos hdigits, List.dropWhile_append_of_pos hdigits, hstop.1,
        hstop.2, List.append_nil]
      exact ⟨hne, hunit⟩
  · obtain ⟨digits, unit, rfl, -, hdigits, hunit⟩ := ht
    rw [List.mem_append, not_or]
    refine ⟨fun hmem => absurd (hdigits _ hmem) (by decide), ?_⟩
    rcases hunit with rfl | ⟨u, hu, rfl⟩
    · simp
    · rw [List.mem_singleton]
      rintro rfl
      exact absurd hu (by decide)

/-- Likewise for the names of volumes. -/
theorem isVolumeName_iff_of_valid {s : Str} (h : validVolume s) :
    IsVolumeName s ↔ ¬ EndsInNewline s := by
  refine shape_iff_of_matchesToEnd (fun t => ?_) (fun t ht => ?_) h
  · simp only [Bool.and_eq_true, List.isPrefixOf_iff_prefix, word_iff]
    constructor
    · rintro ⟨⟨rest, rfl⟩, hword⟩
      exact ⟨rest, rfl, hword⟩
    · rintro ⟨rest, rfl, hword⟩
      exact ⟨⟨rest, rfl⟩, hword⟩
  · obtain ⟨rest, rfl, hword⟩ := ht
    rw [List.mem_append, not_or]
    exact ⟨by decide, newline_not_mem_word (by decide) (by decide) hword⟩

/-- Likewise for the paths of mounts. -/
theorem isMountPath_iff_of_valid {s : Str} (h : validMountPath s) :
    IsMountPath s ↔ ¬ EndsInNewline s := by
  rw [validMountPath, Bool.and_eq_true, Bool.not_eq_true'] at h
  rw [IsMountPath, h.2, and_iff_left (by simp)]
  refine shape_iff_of_matchesToEnd (fun t => ?_) (fun t ht => ?_) h.1
  -- a path starts with a slash
  · rw [IsPathText]
    split
    · next rest =>
      simp [and_assoc]
    · next hslash =>
      refine iff_of_false (by simp) ?_
      rintro ⟨rest, rfl, -⟩
      exact hslash rest rfl
  -- and no character behind it is a line break
  · obtain ⟨rest, rfl, -, -, hrest⟩ := ht
    rw [List.mem_cons, not_or]
    exact ⟨by decide, fun hmem => absurd (hrest _ hmem) (by decide)⟩

/-- **The grammar is met up to a newline at the end.** For every specification without problems, all
of the job id, of the environment keys, of the uuids, of the size of shared memory and of the names
and mount paths of volumes is what its expression declares if and only if none of these texts ends
in a newline. -/
theorem inGrammar_iff {printable : Char → Bool} {spec : JobSpec} {allowlist : List Str}
    (h : spec.problems printable allowlist = []) :
    InGrammar spec ↔ ∀ text ∈ spec.checkedTexts, ¬ EndsInNewline text := by
  have hchecked := problems_eq_nil_iff.mp h
  -- each pattern, up to the line break that `$` lets pass
  have hjobId := isWord_iff_of_pattern (by decide) (by decide) hchecked.jobId
  have hshm := isShmSize_iff_of_pattern hchecked.shmSize
  have hkeys (key : Str) (hkey : key ∈ spec.env.keys) :=
    isWord_iff_of_pattern (by decide) (by decide) (hchecked.envKeys key hkey)
  have huuids (uuid : Str) (huuid : uuid ∈ spec.gpuUuids) :=
    isGpuUuid_iff_of_pattern (hchecked.gpuUuids uuid huuid)
  have hnames (volume : VolumeSpec) (hvolume : volume ∈ spec.volumes) :=
    isVolumeName_iff_of_valid (hchecked.volumeNames volume hvolume)
  have hpaths (volume : VolumeSpec) (hvolume : volume ∈ spec.volumes) :=
    isMountPath_iff_of_valid (hchecked.mountPaths volume hvolume)
  simp only [JobSpec.checkedTexts, List.forall_mem_cons, List.forall_mem_append,
    List.forall_mem_map]
  constructor
  · intro hg
    exact ⟨hjobId.mp hg.jobId, hshm.mp hg.shmSize, ⟨⟨fun key hkey =>
      (hkeys key hkey).mp (hg.envKeys key hkey), fun uuid huuid =>
      (huuids uuid huuid).mp (hg.gpuUuids uuid huuid)⟩, fun volume hvolume =>
      (hnames volume hvolume).mp (hg.volumeNames volume hvolume)⟩, fun volume hvolume =>
      (hpaths volume hvolume).mp (hg.mountPaths volume hvolume)⟩
  · rintro ⟨hid, hsize, ⟨⟨hkey, huuid⟩, hname⟩, hpath⟩
    constructor
    case jobId => exact hjobId.mpr hid
    case envKeys => exact fun key hmem => (hkeys key hmem).mpr (hkey key hmem)
    case gpuUuids => exact fun uuid hmem => (huuids uuid hmem).mpr (huuid uuid hmem)
    case shmSize => exact hshm.mpr hsize
    case volumeNames => exact fun volume hmem => (hnames volume hmem).mpr (hname volume hmem)
    case mountPaths => exact fun volume hmem => (hpaths volume hmem).mpr (hpath volume hmem)

theorem inGrammar_iff_sample : sampleJob.problems (fun _ => true) [sampleJob.image] = [] ∧
    InGrammar sampleJob := by
  have h : sampleJob.problems (fun _ => true) [sampleJob.image] = [] := by decide +kernel
  refine ⟨h, (inGrammar_iff h).mpr ?_⟩
  simp only [EndsInNewline]
  decide +kernel

/-- A job id with a newline at its end is accepted. -/
theorem newline_in_jobId_accepted :
    ({ sampleJob with jobId := "j1\n".toList } : JobSpec).problems (fun _ => true)
        [sampleJob.image] = [] ∧
      ¬ InGrammar { sampleJob with jobId := "j1\n".toList } := by
  refine ⟨by decide +kernel, fun h => ?_⟩
  exact newline_not_mem_word (by decide) (by decide) h.jobId (by decide)

/-! ## Where volumes are mounted -/

/-- `VolumeSpec.container_target`. -/
def VolumeSpec.containerTarget (volume : VolumeSpec) : Str :=
  if volume.encrypted then cipherPath else volume.mountPath

/-- The places in the container at which something is mounted: the target of every volume, and the
mount path of every encrypted one, where its plaintext appears. -/
def JobSpec.mountPlaces (spec : JobSpec) : List Str :=
  spec.volumes.map VolumeSpec.containerTarget ++
    (spec.volumes.filter (·.encrypted)).map VolumeSpec.mountPath

/-- The directory that a path without `..` means: the names in it, without empty ones and `.`. -/
def directoryOf (path : Str) : List Str :=
  (path.splitOn '/').filter fun name => name ≠ [] && name ≠ ['.']

/-- An encrypted volume takes up the ciphertext path beside its own. -/
theorem perm_mountPlaces (volumes : List VolumeSpec) :
    List.Perm (volumes.map VolumeSpec.containerTarget ++
        (volumes.filter (·.encrypted)).map VolumeSpec.mountPath)
      (volumes.map VolumeSpec.mountPath ++
        List.replicate (volumes.filter (·.encrypted)).length cipherPath) := by
  induction volumes with
  | nil => exact List.Perm.refl _
  | cons volume volumes ih =>
    cases hencrypted : volume.encrypted with
    | false =>
      rw [List.filter_cons_of_neg (by simp [hencrypted]), List.map_cons, List.map_cons,
        VolumeSpec.containerTarget, hencrypted]
      exact ih.cons _
    | true =>
      rw [List.filter_cons_of_pos hencrypted, List.map_cons, List.map_cons, List.map_cons,
        List.length_cons, List.replicate_succ, VolumeSpec.containerTarget, hencrypted, if_pos rfl]
      -- both sides start with the two places of this volume
      refine ((List.perm_middle.cons _).trans (List.Perm.swap _ _ _)).trans ?_
      exact ((ih.cons _).trans List.perm_middle.symm).cons _

/-- Under any reading of paths, the places differ exactly when the mount paths do, at most one
volume is encrypted, and no volume is mounted where the ciphertext of one is. -/
theorem nodup_mountPlaces_iff {α : Type} (place : Str → α) (spec : JobSpec) :
    (spec.mountPlaces.map place).Nodup ↔ (spec.volumes.map fun v => place v.mountPath).Nodup ∧
      (spec.volumes.filter (·.encrypted)).length ≤ 1 ∧
      ((∃ v ∈ spec.volumes, v.encrypted) →
        ∀ v ∈ spec.volumes, place v.mountPath ≠ place cipherPath) := by
  -- each encrypted volume is mounted at one more place, which is the same for all
  have hsome : (spec.volumes.filter (·.encrypted)).length ≠ 0 ↔
      ∃ v ∈ spec.volumes, v.encrypted := by
    simp [List.length_eq_zero_iff]
  rw [JobSpec.mountPlaces, ((perm_mountPlaces spec.volumes).map place).nodup_iff, List.map_append,
    List.map_map, List.map_replicate, List.nodup_append', List.nodup_replicate, ← hsome]
  refine and_congr Iff.rfl (and_congr Iff.rfl ?_)
  constructor
  · intro hdisjoint hne volume hvolume heq
    refine hdisjoint (List.mem_map_of_mem hvolume) ?_
    rw [List.mem_replicate]
    exact ⟨hne, heq⟩
  · intro h text htext hcipher
    obtain ⟨volume, hvolume, rfl⟩ := List.mem_map.mp htext
    obtain ⟨hne, heq⟩ := List.mem_replicate.mp hcipher
    exact h hne volume hvolume heq

/-- **When volumes are mounted apart.** For every specification without problems, the places at
which its volumes are mounted are pairwise different texts if and only if their mount paths are, at
most one of them is encrypted, and where one is, no other has the ciphertext path. They are pairwise
different directories under the same conditions on the directories. -/
theorem mountPlaces_nodup_iff {printable : Char → Bool} {spec : JobSpec} {allowlist : List Str}
    (h : spec.problems printable allowlist = []) :
    (spec.mountPlaces.Nodup ↔ (spec.volumes.map VolumeSpec.mountPath).Nodup ∧
      (spec.volumes.filter (·.encrypted)).length ≤ 1 ∧
      ((∃ v ∈ spec.volumes, v.encrypted) →
        ∀ v ∈ spec.volumes, v.encrypted = false → v.mountPath ≠ cipherPath)) ∧
    ((spec.mountPlaces.map directoryOf).Nodup ↔
      (spec.volumes.map fun v => directoryOf v.mountPath).Nodup ∧
      (spec.volumes.filter (·.encrypted)).length ≤ 1 ∧
      ((∃ v ∈ spec.volumes, v.encrypted) →
        ∀ v ∈ spec.volumes, directoryOf v.mountPath ≠ directoryOf cipherPath)) := by
  refine ⟨?_, nodup_mountPlaces_iff directoryOf spec⟩
  have htexts := nodup_mountPlaces_iff id spec
  rw [List.map_id] at htexts
  refine htexts.trans (and_congr Iff.rfl (and_congr Iff.rfl (imp_congr_right fun _ => ?_)))
  -- an encrypted volume has its own path checked against that place
  refine ⟨fun hall v hv _ => hall v hv, fun hplain v hv => ?_⟩
  cases hencrypted : v.encrypted with
  | false => exact hplain v hv hencrypted
  | true => exact (problems_eq_nil_iff.mp h).plaintext v hv hencrypted

/-- A job with encrypted volumes. -/
def encryptedJob (names : List String) : JobSpec :=
  { sampleJob with
    volumes := names.map fun name =>
      { name := volumePrefix ++ name.toList, mountPath := '/' :: name.toList, encrypted := true } }

/-- A job with an encrypted volume and a plain one. -/
def mixedJob : JobSpec :=
  { sampleJob with
    volumes := (encryptedJob ["a"]).volumes ++
      [{ name := volumePrefix ++ "data".toList, mountPath := "/data".toList }] }

theorem mountPlaces_nodup_iff_single :
    mixedJob.problems (fun _ => true) [sampleJob.image] = [] ∧ mixedJob.mountPlaces.Nodup := by
  have h : mixedJob.problems (fun _ => true) [sampleJob.image] = [] := by decide +kernel
  exact ⟨h, (mountPlaces_nodup_iff h).1.mpr (by decide +kernel)⟩

/-- Two encrypted volumes are accepted, and both are mounted at the ciphertext path. -/
theorem ciphertexts_share_a_place :
    (encryptedJob ["a", "b"]).problems (fun _ => true) [sampleJob.image] = [] ∧
      ¬ (encryptedJob ["a", "b"]).mountPlaces.Nodup := by
  decide +kernel

end ComputePool.Validator
