import ComputePool.Foundations.Json
import ComputePool.Foundations.Shlex
import ComputePool.Validator.Work.Acceptance

/-!
# The command that runs a job

`user_tokens` and `run_command` of `validator/work/containers.py`, with `mount_args` of
`validator/storage/volumes.py`. The text of a specification reaches the shell in the values of
options, in the image and after it; every word is quoted.

* `split_runCommand`: the shell splits the command into exactly the words it was built from.
* `keepsTokens_iff`: when the words after the image are those of the entry point and of the
  command.
-/

namespace ComputePool.Validator

open Text Numeral Json

/-! ## The words -/

/-- `OWNER_LABEL`. -/
def ownerLabel : Str := "mt.owner=validator".toList

/-- `PortMapping.token`. -/
def PortMapping.token (mapping : PortMapping) : Str :=
  intText mapping.host ++ ':' :: intText mapping.container ++
    if mapping.protocol = "tcp".toList then [] else '/' :: mapping.protocol

/-- `volumes.mount_args`, with the check of the name and of the path in front. -/
def mountArgs (volume : VolumeSpec) : Except Raised (List Str) :=
  if !validVolume volume.name || !validMountPath volume.mountPath then .error .valueError
  else .ok (["-v".toList, volume.name ++ ':' :: volume.containerTarget] ++
    if volume.encrypted then ["--device".toList, "/dev/fuse".toList] else [])

/-- `user_tokens`. -/
def userTokens (text : Str) : Option (List Str) :=
  if strip text = [] then some [] else Shlex.split text

/-- An option for a size in whole units; an infinite size cannot be converted. -/
def sizeArgs (wanted : Bool) (size : PyFloat) (flag : Str) (text : ℤ → Str) :
    Except Raised (List Str) :=
  if wanted then do
    let size ← toInt (.float size)
    return [flag, text size]
  else return []

/-- The option for memory. -/
def memoryArgs (spec : JobSpec) : Except Raised (List Str) :=
  sizeArgs spec.memoryGb.positive (spec.memoryGb.times 1024) "--memory".toList
    fun size => intText size ++ ['m']

/-- The option for storage. -/
def storageArgs (spec : JobSpec) : Except Raised (List Str) :=
  sizeArgs (spec.storageGb.positive && spec.quotasSupported) spec.storageGb "--storage-opt".toList
    fun size => "size=".toList ++ intText size ++ ['G']

/-- The options in front of those for memory. -/
def firstArgs (spec : JobSpec) : List Str :=
  ["--name".toList, spec.containerName, "--restart".toList, "unless-stopped".toList] ++
  (if spec.isolation then ["--runtime".toList, "sysbox-runc".toList] else []) ++
  ["--gpus".toList, "\x22device=".toList ++ [','].intercalate spec.gpuUuids ++ ['\x22']] ++
  spec.devices.flatMap (fun device =>
    ["--device".toList, device ++ ':' :: device ++ ":rwm".toList]) ++
  ["--cap-add".toList, "NET_ADMIN".toList, "--sysctl".toList,
    "net.ipv4.conf.all.src_valid_mark=1".toList]

/-- The options between those for storage and those for volumes. -/
def labelArgs (spec : JobSpec) : List Str :=
  ["--shm-size".toList, spec.shmSize] ++
  spec.ports.flatMap (fun mapping => ["-p".toList, mapping.token]) ++
  ["--label".toList, "mt.job=".toList ++ spec.jobId, "--label".toList,
    "mt.kind=".toList ++ spec.kind, "--label".toList, ownerLabel] ++
  (if spec.owner ≠ [] then ["--label".toList, "mt.tenant=".toList ++ spec.owner] else []) ++
  ["-e".toList, "NVIDIA_DRIVER_CAPABILITIES=all".toList] ++
  (spec.env.mergeSort fun a b => strLe a.1 b.1).flatMap fun entry =>
    ["-e".toList, entry.1 ++ '=' :: entry.2]

/-- The options after those of the volumes. -/
def closingArgs (spec : JobSpec) (entrypoint : List Str) : List Str :=
  (if spec.volumes.any (·.encrypted) && !spec.isolation then
    ["--cap-add".toList, "SYS_ADMIN".toList, "--security-opt".toList,
      "apparmor=unconfined".toList] else []) ++
  match entrypoint with
  | [] => []
  | program :: _ => ["--entrypoint".toList, program]

/-- The words of `run_command`. The result `None` of `user_tokens` counts as no words. -/
def runWords (spec : JobSpec) : Except Raised (List Str) := do
  let memory ← memoryArgs spec
  let cpus := if spec.cpus.positive then ["--cpus".toList, spec.cpus.generalText] else []
  let storage ← storageArgs spec
  let mounts ← spec.volumes.mapM mountArgs
  let entrypoint := (userTokens spec.entrypoint).getD []
  let command := (userTokens spec.command).getD []
  return ["docker".toList, "run".toList, "-d".toList] ++
    (firstArgs spec ++ memory ++ cpus ++ storage ++ labelArgs spec ++ mounts.flatten ++
      closingArgs spec entrypoint) ++ spec.image :: (entrypoint.drop 1 ++ command)

/-- `run_command`. -/
def runCommand (spec : JobSpec) : Except Raised Str :=
  (runWords spec).map fun words => Shlex.join (words.map Shlex.quote)

/-- The shell splits the command into exactly the words it was built from. -/
theorem split_runCommand {spec : JobSpec} {text : Str} (h : runCommand spec = .ok text) :
    ∃ words, runWords spec = .ok words ∧ Shlex.split text = some words := by
  rw [runCommand] at h
  cases hwords : runWords spec with
  | error e =>
    rw [hwords] at h
    simp [Except.map] at h
  | ok words =>
    rw [hwords] at h
    obtain rfl : _ = text := by simpa [Except.map] using h
    exact ⟨words, rfl, Shlex.split_join_quote words⟩

theorem runCommand_of_runWords {spec : JobSpec} {words : List Str} (h : runWords spec = .ok words) :
    runCommand spec = .ok (Shlex.join (words.map Shlex.quote)) := by
  rw [runCommand, h]
  rfl

/-! ## The options -/

/-- The options with a value. -/
def valueFlags : List Str :=
  ["--name".toList, "--restart".toList, "--runtime".toList, "--gpus".toList, "--device".toList,
    "--cap-add".toList, "--sysctl".toList, "--memory".toList, "--cpus".toList,
    "--storage-opt".toList, "--shm-size".toList, "-p".toList, "--label".toList, "-e".toList,
    "-v".toList, "--security-opt".toList, "--entrypoint".toList]

/-- Words that are fixed options, each with its value behind it. -/
inductive Options : List Str → Prop
  | nil : Options []
  | cons {flag value : Str} {rest : List Str} (hflag : flag ∈ valueFlags) (hrest : Options rest) :
    Options (flag :: value :: rest)

namespace Options

theorem pair {flag value : Str} (h : flag ∈ valueFlags) : Options [flag, value] :=
  .cons h .nil

/-- Options after options. -/
theorem append {args rest : List Str} (h : Options args) (hrest : Options rest) :
    Options (args ++ rest) := by
  induction h with
  | nil => exact hrest
  | cons hflag _ ih => exact .cons hflag ih

theorem ite {c : Prop} [Decidable c] {args : List Str} (h : Options args) :
    Options (if c then args else []) := by
  split_ifs
  · exact h
  · exact .nil

/-- Options of each item. -/
theorem flatMap {α : Type} {f : α → List Str} (h : ∀ a, Options (f a)) (items : List α) :
    Options (items.flatMap f) := by
  induction items with
  | nil => exact .nil
  | cons a items ih => exact (h a).append ih

/-- Where options end: a word that is no option and follows them is found at one place only. -/
theorem append_cons_inj {args args' : List Str} {word : Str} {rest rest' : List Str}
    (h : Options args) (h' : Options args') (hword : word ∉ valueFlags)
    (heq : args ++ word :: rest = args' ++ word :: rest') : args = args' ∧ rest = rest' := by
  -- on the options: a flag with its value is never the word
  induction h generalizing args' with
  | nil =>
    cases h' with
    | nil => exact ⟨rfl, (List.cons.inj heq).2⟩
    | cons hflag _ => exact absurd ((List.cons.inj heq).1 ▸ hflag) hword
  | cons hflag _ ih =>
    cases h' with
    | nil => exact absurd ((List.cons.inj heq).1 ▸ hflag) hword
    | cons _ hrest' =>
      simp only [List.cons_append, List.cons.injEq] at heq
      obtain ⟨rfl, rfl, htail⟩ := heq
      obtain ⟨rfl, rfl⟩ := ih hrest' htail
      exact ⟨rfl, rfl⟩

end Options

/-- The first words are options. -/
theorem options_firstArgs (spec : JobSpec) : Options (firstArgs spec) := by
  rw [firstArgs]
  refine .append (.append (.append (.append ?_ ?_) ?_) ?_) ?_
  · exact .cons (by decide) (.pair (by decide))
  · exact .ite (.pair (by decide))
  · exact .pair (by decide)
  · exact .flatMap (fun _ => .pair (by decide)) _
  · exact .cons (by decide) (.pair (by decide))

/-- The labels are options. -/
theorem options_labelArgs (spec : JobSpec) : Options (labelArgs spec) := by
  rw [labelArgs]
  refine .append (.append (.append (.append (.append ?_ ?_) ?_) ?_) ?_) ?_
  · exact .pair (by decide)
  · exact .flatMap (fun _ => .pair (by decide)) _
  · exact .cons (by decide) (.cons (by decide) (.pair (by decide)))
  · exact .ite (.pair (by decide))
  · exact .pair (by decide)
  · exact .flatMap (fun _ => .pair (by decide)) _

/-- The last words before the image are options. -/
theorem options_closingArgs (spec : JobSpec) (entrypoint : List Str) :
    Options (closingArgs spec entrypoint) := by
  unfold closingArgs
  refine .append (.ite (.cons (by decide) (.pair (by decide)))) ?_
  cases entrypoint with
  | nil => exact .nil
  | cons program _ => exact .pair (by decide)

/-- The mounts of a job that was accepted are options. -/
theorem options_mounts {volumes : List VolumeSpec}
    (hnames : ∀ volume ∈ volumes, validVolume volume.name)
    (hpaths : ∀ volume ∈ volumes, validMountPath volume.mountPath) :
    ∃ mounts, volumes.mapM mountArgs = .ok mounts ∧ Options mounts.flatten := by
  induction volumes with
  | nil => exact ⟨[], rfl, .nil⟩
  | cons volume volumes ih =>
    rw [List.forall_mem_cons] at hnames hpaths
    obtain ⟨mounts, hmounts, hoptions⟩ := ih hnames.2 hpaths.2
    -- the mount itself, and the device of an encrypted volume
    have hargs : ∃ args, mountArgs volume = .ok args ∧ Options args := by
      rw [mountArgs, hnames.1, hpaths.1]
      exact ⟨_, rfl, .append (.pair (by decide)) (.ite (.pair (by decide)))⟩
    obtain ⟨args, hargs, hown⟩ := hargs
    refine ⟨args :: mounts, ?_, hown.append hoptions⟩
    rw [List.mapM_cons, hargs, hmounts]
    rfl

/-! ## The words of a specification without problems -/

/-- The sizes of memory and storage, where they are used, are finite numbers. -/
structure FiniteSizes (spec : JobSpec) : Prop where
  memory : spec.memoryGb.positive → ∃ q, spec.memoryGb.times 1024 = .fin q
  storage : spec.storageGb.positive && spec.quotasSupported → ∃ q, spec.storageGb = .fin q

/-- A size is written, or it is wanted and is not a finite number. -/
theorem sizeArgs_cases {flag : Str} (hflag : flag ∈ valueFlags) (wanted : Bool) (size : PyFloat)
    (text : ℤ → Str) :
    ((wanted → ∃ q, size = .fin q) ∧
      ∃ args, sizeArgs wanted size flag text = .ok args ∧ Options args) ∨
    (¬ (wanted → ∃ q, size = .fin q) ∧ ∃ e, sizeArgs wanted size flag text = .error e) := by
  cases wanted with
  | false => exact Or.inl ⟨by simp, [], rfl, .nil⟩
  | true =>
    cases size with
    | fin q => exact Or.inl ⟨fun _ => ⟨q, rfl⟩, _, rfl, .pair hflag⟩
    | inf negative => exact Or.inr ⟨by simp, _, rfl⟩
    | nan => exact Or.inr ⟨by simp, _, rfl⟩

/-- The memory is an option, unless the number of megabytes is not finite. -/
theorem memoryArgs_cases (spec : JobSpec) :
    ((spec.memoryGb.positive → ∃ q, spec.memoryGb.times 1024 = .fin q) ∧
      ∃ args, memoryArgs spec = .ok args ∧ Options args) ∨
    (¬ (spec.memoryGb.positive → ∃ q, spec.memoryGb.times 1024 = .fin q) ∧
      ∃ e, memoryArgs spec = .error e) :=
  sizeArgs_cases (by decide) _ _ _

/-- The storage is an option, unless it is not finite. -/
theorem storageArgs_cases (spec : JobSpec) :
    ((spec.storageGb.positive && spec.quotasSupported → ∃ q, spec.storageGb = .fin q) ∧
      ∃ args, storageArgs spec = .ok args ∧ Options args) ∨
    (¬ (spec.storageGb.positive && spec.quotasSupported → ∃ q, spec.storageGb = .fin q) ∧
      ∃ e, storageArgs spec = .error e) :=
  sizeArgs_cases (by decide) _ _ _

/-- What `run_command` makes of a specification without problems: options, the image and the words
behind it, unless a size is infinite. -/
theorem runWords_cases {spec : JobSpec} {allowlist : List Str} (h : Checked spec allowlist) :
    (FiniteSizes spec ∧ ∃ options, Options options ∧
      runWords spec = .ok (["docker".toList, "run".toList, "-d".toList] ++ options ++
        spec.image :: (((userTokens spec.entrypoint).getD []).drop 1 ++
          (userTokens spec.command).getD []))) ∨
    (¬ FiniteSizes spec ∧ ∃ e, runWords spec = .error e) := by
  obtain ⟨mounts, hmounts, hmountOptions⟩ := options_mounts h.volumeNames h.mountPaths
  rw [runWords]
  -- `int` of an infinite size raises, for the memory first and then for the storage
  rcases memoryArgs_cases spec with
    ⟨hmemory, memory, hmemoryArgs, hmemoryOptions⟩ | ⟨hmemory, e, hmemoryArgs⟩
  · rcases storageArgs_cases spec with
      ⟨hstorage, storage, hstorageArgs, hstorageOptions⟩ | ⟨hstorage, e, hstorageArgs⟩
    · refine Or.inl ⟨⟨hmemory, hstorage⟩, _, ?_, by
        rw [hmemoryArgs, hstorageArgs, hmounts]; rfl⟩
      -- every group before the image consists of options
      refine .append (.append (.append (.append (.append (.append ?_ ?_) ?_) ?_) ?_) ?_) ?_
      · exact options_firstArgs spec
      · exact hmemoryOptions
      · exact .ite (.pair (by decide))
      · exact hstorageOptions
      · exact options_labelArgs spec
      · exact hmountOptions
      · exact options_closingArgs spec _
    · refine Or.inr ⟨fun hfinite => hstorage hfinite.storage, e, ?_⟩
      rw [hmemoryArgs, hstorageArgs]
      rfl
  · refine Or.inr ⟨fun hfinite => hmemory hfinite.memory, e, ?_⟩
    rw [hmemoryArgs]
    rfl

/-- An image on the list begins with a letter or a digit, so it is no option. -/
theorem image_not_flag {spec : JobSpec} {allowlist : List Str} (h : Checked spec allowlist) :
    spec.image ∉ valueFlags := by
  intro hflag
  have hnone : ∀ flag ∈ valueFlags, imageRefPattern flag = false := by decide +kernel
  have himage := h.imageRef
  rw [hnone _ hflag] at himage
  exact Bool.noConfusion himage

/-! ## The words of the entry point and of the command -/

/-- What the shell should make of the command that runs a job: options, the image, and the words of
the entry point and of the command. Without these words the job is refused. -/
def KeepsTokens (spec : JobSpec) : Prop :=
  match Shlex.split spec.entrypoint, Shlex.split spec.command with
  | some entrypoint, some command =>
    ∃ text options, runCommand spec = .ok text ∧ Options options ∧
      Shlex.split text = some (["docker".toList, "run".toList, "-d".toList] ++ options ++
        spec.image :: (entrypoint.drop 1 ++ command))
  | _, _ => ∀ text, runCommand spec ≠ .ok text

/-- White space that is no blank to the shell is dropped, so its words are missed. -/
structure KeepsWhiteSpace (spec : JobSpec) : Prop where
  entrypoint : strip spec.entrypoint = [] →
    ∀ words, Shlex.split spec.entrypoint = some words → words.length ≤ 1
  command : strip spec.command = [] → ∀ c ∈ spec.command, Shlex.isBlank c

/-- The entry point and the command can be split into words. -/
def Tokenises (spec : JobSpec) : Prop :=
  (Shlex.split spec.entrypoint).isSome ∧ (Shlex.split spec.command).isSome

/-- The words of a text of the user, none for one of spaces. -/
theorem userTokens_getD {text : Str} {words : List Str} (h : Shlex.split text = some words) :
    (userTokens text).getD [] = if strip text = [] then [] else words := by
  rw [userTokens]
  split_ifs
  · rfl
  · rw [h, Option.getD_some]

/-- A list with the words of two lists, of which each is kept or dropped, has them all only when the
dropped ones are empty. -/
theorem append_eq_ite_iff {α : Type} {xs ys : List α} {p q : Prop} [Decidable p] [Decidable q] :
    ((if p then [] else xs) ++ (if q then [] else ys) = xs ++ ys) ↔
      (p → xs = []) ∧ (q → ys = []) := by
  constructor
  -- the lengths are equal only if nothing was left out
  · intro heq
    have hlength := congrArg List.length heq
    rw [List.length_append, List.length_append] at hlength
    constructor
    · intro hp
      rw [if_pos hp, List.length_nil] at hlength
      apply List.length_eq_zero_iff.mp
      split_ifs at hlength
      · rw [List.length_nil] at hlength
        omega
      · omega
    · intro hq
      rw [if_pos hq, List.length_nil] at hlength
      apply List.length_eq_zero_iff.mp
      split_ifs at hlength
      · rw [List.length_nil] at hlength
        omega
      · omega
  · rintro ⟨hxs, hys⟩
    split_ifs with hp hq hq
    · simp [hxs hp, hys hq]
    · simp [hxs hp]
    · simp [hys hq]
    · rfl

section Accepted

variable {spec : JobSpec} {allowlist : List Str}

/-- A specification without problems is refused exactly when a size is infinite. -/
theorem runCommand_refuses_iff (h : Checked spec allowlist) :
    (∀ text, runCommand spec ≠ .ok text) ↔ ¬ FiniteSizes spec := by
  rcases runWords_cases h with ⟨hfinite, options, -, hwords⟩ | ⟨hinfinite, e, hwords⟩
  · refine iff_of_false (fun hrefuses => ?_) fun hinfinite => hinfinite hfinite
    exact hrefuses _ (runCommand_of_runWords hwords)
  · refine iff_of_true (fun text => ?_) hinfinite
    rw [runCommand, hwords]
    simp [Except.map]

/-- The words behind the image, when the entry point and the command have words. -/
theorem exists_runCommand_iff (h : Checked spec allowlist) {entrypoint command : List Str}
    (hentrypoint : Shlex.split spec.entrypoint = some entrypoint)
    (hcommand : Shlex.split spec.command = some command) :
    (∃ text options, runCommand spec = .ok text ∧ Options options ∧
      Shlex.split text = some (["docker".toList, "run".toList, "-d".toList] ++ options ++
        spec.image :: (entrypoint.drop 1 ++ command))) ↔
      ((strip spec.entrypoint = [] → entrypoint.drop 1 = []) ∧
        (strip spec.command = [] → command = [])) ∧ FiniteSizes spec := by
  -- what is dropped of the words
  have hdrop : (if strip spec.entrypoint = [] then [] else entrypoint).drop 1 =
      if strip spec.entrypoint = [] then [] else entrypoint.drop 1 := by
    split_ifs
    · rfl
    · rfl
  rw [← append_eq_ite_iff]
  rcases runWords_cases h with ⟨hfinite, options, hoptions, hwords⟩ | ⟨hinfinite, e, hwords⟩
  · rw [userTokens_getD hentrypoint, userTokens_getD hcommand, hdrop] at hwords
    rw [and_iff_left hfinite]
    constructor
    · rintro ⟨text, options', htext, hoptions', hsplit⟩
      obtain ⟨words, hwords', hsplit'⟩ := split_runCommand htext
      rw [hwords] at hwords'
      rw [hsplit', ← Except.ok.inj hwords', Option.some.injEq, List.append_assoc,
        List.append_assoc] at hsplit
      have hsame := List.append_cancel_left hsplit
      exact (hoptions.append_cons_inj hoptions' (image_not_flag h) hsame).2
    · intro htail
      rw [htail] at hwords
      exact ⟨_, options, runCommand_of_runWords hwords, hoptions, Shlex.split_join_quote _⟩
  · refine iff_of_false ?_ fun hboth => hinfinite hboth.2
    rintro ⟨text, -, htext, -⟩
    exact (runCommand_refuses_iff h).mpr hinfinite text htext

/-- When nothing is lost on a text of spaces. -/
theorem keepsWhiteSpace_iff {entrypoint command : List Str}
    (hentrypoint : Shlex.split spec.entrypoint = some entrypoint)
    (hcommand : Shlex.split spec.command = some command) :
    KeepsWhiteSpace spec ↔ (strip spec.entrypoint = [] → entrypoint.drop 1 = []) ∧
      (strip spec.command = [] → command = []) := by
  have hblank : (∀ c ∈ spec.command, Shlex.isBlank c) ↔ command = [] := by
    rw [← Shlex.split_eq_nil_iff, hcommand, Option.some.injEq]
  rw [List.drop_eq_nil_iff, ← hblank]
  constructor
  · exact fun h => ⟨fun hstrip => h.entrypoint hstrip entrypoint hentrypoint, h.command⟩
  · rintro ⟨hfirst, hsecond⟩
    refine ⟨fun hstrip words hwords => ?_, hsecond⟩
    rw [hentrypoint] at hwords
    exact Option.some.inj hwords ▸ hfirst hstrip

/-- The command of a specification without problems has exactly the words of the entry point and of
the command behind the image if and only if both can be split into words, no white space is dropped
that the shell takes for words, and the sizes are finite. A text that cannot be split is refused
only when a size is infinite. -/
theorem keepsTokens_iff {printable : Char → Bool}
    (haccepted : spec.problems printable allowlist = []) :
    KeepsTokens spec ↔
      (Tokenises spec ∧ KeepsWhiteSpace spec ∧ FiniteSizes spec) ∨
        (¬ Tokenises spec ∧ ¬ FiniteSizes spec) := by
  have hchecked := problems_eq_nil_iff.mp haccepted
  rw [KeepsTokens, Tokenises]
  cases hentrypoint : Shlex.split spec.entrypoint with
  | none => simp [runCommand_refuses_iff hchecked]
  | some entrypoint =>
    cases hcommand : Shlex.split spec.command with
    | none => simp [runCommand_refuses_iff hchecked]
    | some command =>
      simp only [exists_runCommand_iff hchecked hentrypoint hcommand, Option.isSome_some, and_self,
        not_true, false_and, or_false, true_and, keepsWhiteSpace_iff hentrypoint hcommand]

end Accepted

/-- A job with a command. -/
def echoJob : JobSpec :=
  { sampleJob with command := "echo 'hello world'".toList }

theorem keepsTokens_iff_echo :
    echoJob.problems (fun _ => true) [echoJob.image] = [] ∧ KeepsTokens echoJob := by
  have haccepted : echoJob.problems (fun _ => true) [echoJob.image] = [] := by decide +kernel
  refine ⟨haccepted, (keepsTokens_iff haccepted).mpr (Or.inl ⟨?_, ⟨?_, ?_⟩, ⟨?_, ?_⟩⟩)⟩
  · rw [Tokenises]
    decide
  · intro _ words hwords
    obtain rfl : [] = words := by simpa [echoJob, sampleJob, Shlex.split, Shlex.scan] using hwords
    simp
  · intro hstrip
    exact absurd hstrip (by decide)
  · intro hpositive
    exact absurd hpositive (by decide)
  · intro hpositive
    exact absurd hpositive (by decide)

/-- A job whose command has an open quote. -/
def unclosedJob : JobSpec :=
  { sampleJob with command := "echo 'hello".toList }

/-- It is accepted, its command has no words, and it is run without it: the image is the last
word. -/
theorem unclosed_command_dropped :
    unclosedJob.problems (fun _ => true) [unclosedJob.image] = [] ∧
    Shlex.split unclosedJob.command = none ∧
    (runWords unclosedJob).toOption.bind List.getLast? = some unclosedJob.image ∧
    ¬ KeepsTokens unclosedJob := by
  -- the quote is never closed
  have hsplit : Shlex.split unclosedJob.command = none := by decide
  have hentrypoint : Shlex.split unclosedJob.entrypoint = some [] := by decide
  refine ⟨by decide +kernel, hsplit, by decide +kernel, ?_⟩
  rw [KeepsTokens, hsplit, hentrypoint]
  intro hrefuses
  -- the command is made all the same
  have hruns : (runCommand unclosedJob).isOk := by decide +kernel
  cases htext : runCommand unclosedJob with
  | error e =>
    rw [htext] at hruns
    exact absurd hruns (by simp [Except.isOk, Except.toBool])
  | ok text => exact hrefuses text htext

end ComputePool.Validator
