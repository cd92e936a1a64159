import ComputePool.Agent.Updater.Watchtower
import ComputePool.Foundations.Program

/-!
# Updates of the agent

`Updater` of `agent/updater/watchtower.py`: a check asks the server for a release, pulls the image
it names and starts a helper that brings the agent up with it. Whatever the server, docker and the
files answer is a reply of the log; a check that ends with an exception counts as a failure and the
next one waits longer.

* `rewriteEnv`: the file with the digest that compose reads.
* `checkOnce`: one check, call by call.
* `rounds_authorised`: at every moment of a run, what was started is an image that a validator has
  released and that docker has pulled, and so is the image in the file.
-/

namespace ComputePool.Agent.Updater

open Text Protocol
open Json (Printer)

/-! ## The file of the environment -/

/-- `"AGENT_IMAGE_SHA256="`. -/
def imageKey : Str := "AGENT_IMAGE_SHA256=".toList

/-- The text that `rewrite_env` writes, given the one it has read; `none` if there is no file. -/
def rewriteEnv (env : Option Str) (digest : Str) : Str :=
  let lines := (env.map splitLines).getD []
  joinLines (lines.filter (fun line => ¬ startsWith line imageKey) ++ [imageKey ++ digest])

/-! ## Calls -/

/-- Something the updater asks of its surroundings. -/
inductive Call
  /-- `client.release()`. -/
  | release
  /-- The clock and the active validators, when `verify_release` runs. -/
  | moment
  | docker (args : List Str)
  /-- `/proc/self/mountinfo` and the host's name, in `own_container_id`. -/
  | container
  /-- Whether the compose file is there. -/
  | composeFile
  /-- The reads and writes of `rewrite_env`. -/
  | rewrite (digest : Str)
  /-- The clock, for the name of the helper. -/
  | helperTime
  deriving DecidableEq

/-- A reply: a call looks at the part that belongs to it. -/
structure Reply where
  /-- The text of an exception that the call raises. -/
  raised : Option Str := none
  /-- The text of an `OSError` that `rewrite_env` raises. -/
  osError : Option Str := none
  payload : Json := .null
  now : ℚ := 0
  validators : List Str := []
  code : ℤ := 0
  out : Str := []
  mountinfo : Option Str := none
  hostname : Str := []
  flag : Bool := false
  deriving Inhabited

/-- What the updater takes from its settings and from the libraries it calls. -/
structure Config where
  repository : Str
  /-- `settings.image_digest`. -/
  imageDigest : Str
  composeFile : Str
  envFile : Str
  verify : Str → Bytes → Bytes → Bool
  /-- `json.loads`. -/
  loads : Str → Option Json
  printer : Printer
  /-- The texts of the exceptions of the interpreter. -/
  raisedText : Json.Raised → Str

/-- What the updater keeps: the text of the file, and its failures in a row. -/
structure State where
  env : Option Str
  failures : ℕ := 0

/-- A part of the updater, which may end with an exception. -/
abbrev Task (α : Type) := ExceptT Str (Program State Call Reply) α

/-- What was asked, and the replies. -/
abbrev Log := List (Call × Reply)

/-- A call that may raise. -/
def ask (c : Call) : Task Reply := do
  let r ← ExceptT.lift (Program.send c)
  match r.raised with
  | some text => throw text
  | none => return r

/-- `_docker`. -/
def docker (args : List Str) : Task (ℤ × Str) := do
  let r ← ask (.docker args)
  return (r.code, r.out)

/-- The 64 letters after `/docker/containers/`, if a `/` follows them. -/
def containerIdAt (s : Str) : Option Str :=
  let tag := "/docker/containers/".toList
  let rest := s.drop tag.length
  if startsWith s tag ∧ hex64 (rest.take 64) ∧ (rest.drop 64).head? = some '/' then
    some (rest.take 64)
  else none

/-- `^[0-9a-f]{12,64}$`. -/
def hostPattern : Str → Bool :=
  matchesToEnd fun s => s.all isHex && 12 ≤ s.length && s.length ≤ 64

/-- `own_container_id`. -/
def containerId (mountinfo : Option Str) (hostname : Str) : Str :=
  let found := ((mountinfo.map splitLines).getD []).findSome? fun line =>
    line.tails.findSome? containerIdAt
  found.getD (if hostPattern hostname then hostname else [])

/-- `own_container_id()`. -/
def ownContainerId : Task Str := do
  let r ← ask .container
  return containerId r.mountinfo r.hostname

/-- `settings.image_reference`. -/
def imageReference (cfg : Config) (digest : Str) : Str :=
  cfg.repository ++ '@' :: digest

/-- `json.loads(out.strip().splitlines()[-1])`; `none` for a `ValueError` or an `IndexError`. -/
def lastJson (cfg : Config) (out : Str) : Option Json :=
  (splitLines (strip out)).getLast?.bind cfg.loads

/-- The entries of a list; any other value counts as an empty one. -/
def entriesOf : Json → List Json
  | .list items => items
  | _ => []

/-- `image inspect --format {{json .RepoDigests}}`. -/
def inspectDigests (image : Str) : List Str :=
  ["image".toList, "inspect".toList, "--format".toList, "\x7b\x7bjson .RepoDigests\x7d\x7d".toList,
    image]

/-- `s[-n:]`. -/
def lastChars (n : ℕ) (s : Str) : Str :=
  s.drop (s.length - n)

/-- The text after the first `@`, if there is one. -/
def afterAt (text : Str) : Option Str :=
  if '@' ∈ text then some ((text.dropWhile (· ≠ '@')).drop 1) else none

variable (cfg : Config)

/-- `running_image_digest`. -/
def runningImageDigest : Task Str := do
  let container ← ownContainerId
  if container = [] then return cfg.imageDigest
  else
    let (code, out) ← docker ["inspect".toList, "--format".toList,
      "\x7b\x7b.Image\x7d\x7d".toList, container]
    let image := if code = 0 then strip out else []
    if image = [] then return cfg.imageDigest
    else
      let (code, out) ← docker (inspectDigests image)
      let entries := entriesOf ((lastJson cfg out).getD (.list []))
      let found := if code = 0 then
          entries.findSome? fun entry => afterAt (entry.toStr cfg.printer)
        else none
      return found.getD cfg.imageDigest

/-- The text of a failed docker command. -/
def failedText (what : String) (code : ℤ) (out : Str) : Str :=
  what.toList ++ " (".toList ++ Json.intText code ++ "): ".toList ++ lastChars 300 (strip out)

/-- `pull_and_verify`: what is wrong, or the empty text. -/
def pullAndVerify (digest : Str) : Task Str := do
  let reference := imageReference cfg digest
  let (code, out) ← docker ["pull".toList, reference]
  if code ≠ 0 then return failedText "pull failed" code out
  else
    let (code, out) ← docker (inspectDigests reference)
    if code ≠ 0 then return failedText "inspect failed" code out
    else
      match lastJson cfg out with
      | none => return "inspect returned no digests".toList
      | some digests =>
        match digests.iter with
        | .error e => throw (cfg.raisedText e)
        | .ok _ =>
          if (entriesOf digests).any fun entry => endsWith (entry.toStr cfg.printer) ('@' :: digest)
          then return []
          else return "pulled image does not carry the authorised digest".toList

/-- `compose_project`. -/
def composeProject : Task Str := do
  let container ← ownContainerId
  if container = [] then return []
  else
    let (code, out) ← docker ["inspect".toList, "--format".toList,
      "\x7b\x7bindex .Config.Labels \"com.docker.compose.project\"\x7d\x7d".toList, container]
    return if code = 0 then strip out else []

/-- The arguments that start the helper. -/
def helperArgs (digest helper container project : Str) : List Str :=
  ["run".toList, "-d".toList, "--name".toList, helper, "--entrypoint".toList, "docker".toList,
    "-v".toList, "/var/run/docker.sock:/var/run/docker.sock".toList] ++
  (if container = [] then [] else ["--volumes-from".toList, container]) ++
  [imageReference cfg digest] ++
  ["compose".toList, "-f".toList, cfg.composeFile, "--env-file".toList, cfg.envFile] ++
  (if project = [] then [] else ["-p".toList, project]) ++
  ["up".toList, "-d".toList, "--no-deps".toList, "--timeout".toList, "10".toList, "agent".toList]

/-- The lines of `restart` after the file has been written. -/
def startHelper (digest : Str) : Task Str := do
  let container ← ownContainerId
  let project ← composeProject
  let time ← ask .helperTime
  let helper := "rig-agent-update-".toList ++ Json.intText time.now.floor
  let (code, out) ← docker (helperArgs cfg digest helper container project)
  if code ≠ 0 then return failedText "could not start the update helper" code out
  else
    let (code, out) ← docker ["wait".toList, helper]
    let exitCode := ((splitLines (strip out)).getLast?).getD []
    let (_, logs) ← docker ["logs".toList, "--tail".toList, "40".toList, helper]
    let _ ← docker ["rm".toList, "-f".toList, helper]
    if code ≠ 0 ∨ exitCode ≠ ['0'] then
      let shown := if exitCode = [] then Json.intText code else exitCode
      return "update helper exited ".toList ++ shown ++ ": ".toList ++ lastChars 400 (strip logs)
    else return []

/-- `restart`: what is wrong, or the empty text. -/
def restart (digest : Str) : Task Str := do
  let notMounted := "compose file ".toList ++ pyRepr cfg.printer.printable cfg.composeFile ++
    " is not mounted".toList
  if cfg.composeFile = [] then return notMounted
  else
    let there ← ask .composeFile
    if there.flag = false then return notMounted
    else
      let written ← ask (.rewrite digest)
      match written.osError with
      | some text => return "could not write ".toList ++ cfg.envFile ++ ": ".toList ++ text
      | none =>
        ExceptT.lift (Program.modify fun s => { s with env := some (rewriteEnv s.env digest) })
        startHelper cfg digest

/-- What a check ends with. -/
inductive Outcome
  | refused (reason : String)
  /-- The authorised image is running already. -/
  | current (digest : Str)
  | applied (digest : Str)
  deriving DecidableEq

/-- `check_once`. -/
def checkOnce : Task Outcome := do
  let answer ← ask .release
  let moment ← ask .moment
  match verifyRelease cfg.verify cfg.printer answer.payload moment.validators moment.now with
  | .error e => throw (cfg.raisedText e)
  | .ok (.error problem) => return .refused problem
  | .ok (.ok release) =>
    let running ← runningImageDigest cfg
    if running = release.digest then return .current running
    else
      let problem ← pullAndVerify cfg release.digest
      if problem ≠ [] then throw problem
      else
        let problem ← restart cfg release.digest
        if problem ≠ [] then throw problem
        else return .applied release.digest

/-- `MAX_BACKOFF`. -/
def maxBackoff : ℚ := 3600

/-- One turn of the loop of `run`: the time until the next one. -/
def round (updateSeconds : ℚ) : Program State Call Reply ℚ := do
  let outcome ← (checkOnce cfg).run
  match outcome with
  | .ok outcome =>
    Program.modify fun s => { s with failures := 0 }
    match outcome with
    | .applied _ => return max updateSeconds 120
    | .refused _ | .current _ => return updateSeconds
  | .error _ =>
    Program.modify fun s => { s with failures := s.failures + 1 }
    let s ← Program.read
    return min (updateSeconds * 2 ^ min s.failures 6) maxBackoff

/-- The loop of `run`, for a number of turns: the times it slept. -/
def rounds (updateSeconds : ℚ) (n : ℕ) : Program State Call Reply (List ℚ) :=
  Program.forEach (fun delays _ => do
    let delay ← round cfg updateSeconds
    return delays ++ [delay]) (List.range n) []

/-! ## The lines of the file -/

/-- The lines that give the image. -/
def assignments (env : Option Str) : List Str :=
  ((env.map splitLines).getD []).filter fun line => startsWith line imageKey

/-- The other lines. -/
def otherLines (env : Option Str) : List Str :=
  ((env.map splitLines).getD []).filter fun line => ¬ startsWith line imageKey

/-- A digest that is let through is one word; a newline may follow it. -/
theorem exists_of_wellFormedDigest {digest : Str} (h : wellFormedDigest digest) :
    (∀ c ∈ strip digest, isSpace c = false) ∧
      (digest = strip digest ∨ digest = strip digest ++ ['\n']) := by
  have hword {s : Str} (hs : digestPattern s) : ∀ c ∈ s, isSpace c = false := by
    simp only [digestPattern, Bool.and_eq_true, List.isPrefixOf_iff_prefix] at hs
    obtain ⟨⟨rest, rfl⟩, hhex⟩ := hs
    rw [List.drop_left] at hhex
    intro c hc
    rcases List.mem_append.mp hc with hc | hc
    · have htag : (sha256Tag.all fun c => isSpace c = false) = true := by decide +kernel
      simpa using List.all_eq_true.mp htag c hc
    · exact isSpace_eq_false_of_isHex (isHex_of_hex64 hhex c hc)
  simp only [wellFormedDigest, matchesToEnd, Bool.or_eq_true, Bool.and_eq_true,
    decide_eq_true_eq] at h
  rcases h with h | ⟨hlast, h⟩
  · rw [strip_eq_self (hword h)]
    exact ⟨hword h, .inl rfl⟩
  · obtain ⟨core, rfl⟩ := List.getLast?_eq_some_iff.mp hlast
    rw [List.dropLast_concat] at h
    rw [strip_concat (hword h) (by decide)]
    exact ⟨hword h, .inr rfl⟩

/-- A text without spaces is one line. -/
theorem oneLine_of_not_isSpace {s : Str} (h : ∀ c ∈ s, isSpace c = false) : OneLine s := by
  intro c hc
  by_contra hbreak
  have hspace := isSpace_of_isLineBreak (by simpa using hbreak)
  simp [h c hc] at hspace

/-- The lines of the file that `rewrite_env` has written. -/
theorem splitLines_rewriteEnv (env : Option Str) {digest : Str} (h : wellFormedDigest digest) :
    ∃ blank, (blank = [] ∨ blank = [[]]) ∧ splitLines (rewriteEnv env digest) =
      ((env.map splitLines).getD []).filter (fun line => ¬ startsWith line imageKey) ++
        (imageKey ++ strip digest) :: blank := by
  obtain ⟨hword, hdigest⟩ := exists_of_wellFormedDigest h
  have hletters : imageKey.all (isSpace · = false) = true := by decide
  have hkey : OneLine imageKey :=
    oneLine_of_not_isSpace fun c hc => by simpa using List.all_eq_true.mp hletters c hc
  have hline : OneLine (imageKey ++ strip digest) := hkey.append (oneLine_of_not_isSpace hword)
  have hkept : ∀ line ∈ ((env.map splitLines).getD []).filter
      (fun line => ¬ startsWith line imageKey), OneLine line := by
    intro line hmem
    cases env with
    | none => simp at hmem
    | some text => exact oneLine_of_mem_splitLines (List.mem_of_mem_filter hmem)
  have hall (blank : List Str) (hblank : blank = [] ∨ blank = [[]]) :
      ∀ line ∈ ((env.map splitLines).getD []).filter (fun line => ¬ startsWith line imageKey) ++
        (imageKey ++ strip digest) :: blank, OneLine line := by
    intro line hmem
    rcases List.mem_append.mp hmem with hmem | hmem
    · exact hkept line hmem
    · rcases List.mem_cons.mp hmem with rfl | hmem
      · exact hline
      · rcases hblank with rfl | rfl
        · simp at hmem
        · rw [List.mem_singleton.mp hmem]
          intro c hc
          simp at hc
  rcases hdigest with hdigest | hdigest
  · refine ⟨[], .inl rfl, ?_⟩
    rw [rewriteEnv, hdigest, strip_strip]
    exact splitLines_joinLines (hall [] (.inl rfl))
  -- the newline of the digest ends the line, and an empty one follows
  · refine ⟨[[]], .inr rfl, ?_⟩
    rw [← splitLines_joinLines (hall [[]] (.inr rfl))]
    congr 1
    have hstrip : strip (strip digest ++ ['\n']) = strip digest :=
      strip_concat hword (by decide)
    rw [rewriteEnv, hdigest]
    simp [joinLines, hstrip]

theorem startsWith_imageKey (rest : Str) : startsWith (imageKey ++ rest) imageKey = true := by
  simp [startsWith]

theorem not_startsWith_nil : startsWith [] imageKey = false := by
  decide +kernel

/-- After a rewrite, one line of the file gives the image, and it gives this one. -/
theorem assignments_rewriteEnv (env : Option Str) {digest : Str} (h : wellFormedDigest digest) :
    assignments (some (rewriteEnv env digest)) = [imageKey ++ strip digest] := by
  obtain ⟨blank, hblank, hlines⟩ := splitLines_rewriteEnv env h
  have hnone : blank.filter (fun line => startsWith line imageKey) = [] := by
    rcases hblank with rfl | rfl <;> simp [not_startsWith_nil]
  rw [assignments, Option.map_some, Option.getD_some, hlines, List.filter_append,
    List.filter_filter, List.filter_cons, startsWith_imageKey, hnone]
  simp

/-- The other lines stay; a digest that ends in a newline adds an empty one. -/
theorem otherLines_rewriteEnv (env : Option Str) {digest : Str} (h : wellFormedDigest digest) :
    ∃ n, otherLines (some (rewriteEnv env digest)) = otherLines env ++ List.replicate n [] := by
  obtain ⟨blank, hblank, hlines⟩ := splitLines_rewriteEnv env h
  have hempty : ∃ n, blank.filter (fun line => ¬ startsWith line imageKey) =
      List.replicate n [] := by
    rcases hblank with rfl | rfl
    · exact ⟨0, rfl⟩
    · exact ⟨1, by simp [not_startsWith_nil]⟩
  obtain ⟨n, hn⟩ := hempty
  refine ⟨n, ?_⟩
  rw [otherLines, Option.map_some, Option.getD_some, hlines, List.filter_append,
    List.filter_filter, List.filter_cons_of_neg (by simp [startsWith_imageKey]), hn, otherLines]
  simp

/-! ## What may be started -/

/-- The call starts a container. -/
def Call.Starts : Call → Prop
  | .docker args => args.head? = some "run".toList
  | _ => False

/-- Docker has pulled the image with the digest and lists it under this digest. -/
def Pulled (log : Log) (digest : Str) : Prop :=
  (∃ pull, (Call.docker ["pull".toList, imageReference cfg digest], pull) ∈ log ∧
    pull.code = 0) ∧
  ∃ seen digests entry,
    (Call.docker (inspectDigests (imageReference cfg digest)), seen) ∈ log ∧ seen.code = 0 ∧
      lastJson cfg seen.out = some (.list digests) ∧ entry ∈ digests ∧
      endsWith (entry.toStr cfg.printer) ('@' :: digest)

/-- A validator that was active has released the image, the release was fresh when it was looked at,
and after that docker has pulled the image. -/
def Cleared (log : Log) (release : Release) : Prop :=
  ∃ earlier answer moment later,
    log = earlier ++ (.release, answer) :: (.moment, moment) :: later ∧
      verifyRelease cfg.verify cfg.printer answer.payload moment.validators moment.now =
        .ok (.ok release) ∧
      wellFormedDigest release.digest ∧ release.validator ∈ moment.validators ∧
      |moment.now - (release.timestamp : ℚ)| ≤ (releaseSkewSeconds : ℚ) ∧
      verifyHotkey cfg.verify release.validator release.message release.signature ∧
      Pulled cfg later release.digest

/-- The file is the one from before, or the image in it is a cleared one and its other lines are
those from before, with empty lines after them perhaps. -/
def FileCleared (env : Option Str) (now : Option Str) (log : Log) : Prop :=
  now = env ∨ ∃ release, Cleared cfg log release ∧
    assignments now = [imageKey ++ strip release.digest] ∧
    ∃ n, otherLines now = otherLines env ++ List.replicate n []

/-- What is started is the helper, with an image that was cleared before; and so is the image in the
file. -/
structure Authorised (env : Option Str) (s : State) (log : Log) : Prop where
  started : ∀ (k : ℕ) c r, log[k]? = some (c, r) → c.Starts →
    ∃ release helper container project, Cleared cfg (log.take k) release ∧
      c = .docker (helperArgs cfg release.digest helper container project)
  file : FileCleared cfg env s.env log

variable {cfg} {env : Option Str} {s : State} {log : Log}

theorem Pulled.mono {digest : Str} {more : Log} (hsub : log ⊆ more) (h : Pulled cfg log digest) :
    Pulled cfg more digest := by
  obtain ⟨⟨pull, hpull, hcode⟩, seen, digests, entry, hseen, hrest⟩ := h
  exact ⟨⟨pull, hsub hpull, hcode⟩, seen, digests, entry, hsub hseen, hrest⟩

/-- What a release was cleared by stays in the log. -/
theorem Cleared.mono {release : Release} {more : Log} (h : Cleared cfg log release) :
    Cleared cfg (log ++ more) release := by
  obtain ⟨earlier, answer, moment, later, rfl, hverify, hdigest, hvalidator, hskew, hsign,
    hpulled⟩ := h
  exact ⟨earlier, answer, moment, later ++ more, by simp, hverify, hdigest, hvalidator, hskew,
    hsign, hpulled.mono (List.subset_append_left _ _)⟩

theorem FileCleared.mono {now : Option Str} {more : Log} (h : FileCleared cfg env now log) :
    FileCleared cfg env now (log ++ more) :=
  h.imp id fun ⟨release, hcleared, hlines⟩ => ⟨release, hcleared.mono, hlines⟩

/-- One more call, which starts nothing unless it is the helper with a cleared image. -/
theorem Authorised.call (h : Authorised cfg env s log) {c : Call} (r : Reply)
    (hc : c.Starts → ∃ release helper container project, Cleared cfg log release ∧
      c = .docker (helperArgs cfg release.digest helper container project)) :
    Authorised cfg env s (log ++ [(c, r)]) := by
  refine ⟨fun k d q hk hd => ?_, h.file.mono⟩
  rcases Nat.lt_trichotomy k log.length with hlt | rfl | hgt
  · rw [List.getElem?_append_left hlt] at hk
    rw [List.take_append_of_le_length hlt.le]
    exact h.started k d q hk hd
  · obtain ⟨rfl, rfl⟩ : c = d ∧ r = q := by simpa using hk
    rw [List.take_left]
    exact hc hd
  · rw [List.getElem?_eq_none (by simp; omega)] at hk
    cases hk

/-- The checks that a release has passed. -/
theorem checked_of_verifyRelease {verify : Str → Bytes → Bytes → Bool} {p : Printer}
    {payload : Json} {validators : List Str} {now : ℚ} {release : Release}
    (h : verifyRelease verify p payload validators now = .ok (.ok release)) :
    release.validator ∈ validators ∧
      |now - (release.timestamp : ℚ)| ≤ (releaseSkewSeconds : ℚ) := by
  unfold verifyRelease at h
  dsimp only at h
  split at h
  · rename_i fields _
    cases hrelease : Release.fromPayload p (.dict fields) with
    | error e => simp [hrelease, bind, Except.bind] at h
    | ok read =>
      rw [hrelease] at h
      change checkRelease verify read validators now = .ok (.ok release) at h
      unfold checkRelease at h
      split_ifs at h with hdigest hvalidator hoverflow hskew hverify
      all_goals try simp at h
      subst h
      simp only [not_or, not_not] at hvalidator
      exact ⟨hvalidator.2, not_lt.mp hskew⟩
  · cases h

/-! ## Calls that start nothing -/

/-- A part of a check that starts nothing and leaves the file alone. -/
def Quiet {α : Type} (p : Task α) : Prop :=
  ∀ s, p.run.within (fun c => ¬ c.Starts) (fun t => t = s) fun _ => True

/-- A call that starts no container is quiet. -/
theorem quiet_ask {c : Call} (hc : ¬ c.Starts) : Quiet (ask c) := by
  intro s
  refine Program.within_run_seq ⟨hc, fun _ => trivial⟩ fun r => ?_
  cases r.raised with
  | none => trivial
  | some text => trivial

theorem Quiet.bind {α β : Type} {p : Task α} {f : α → Task β} (hp : Quiet p)
    (hf : ∀ a, Quiet (f a)) : Quiet (p >>= f) :=
  fun s => Program.within_run_seq (hp s) fun a => hf a s

theorem quiet_pure {α : Type} (a : α) : Quiet (pure a) :=
  fun _ => trivial

theorem quiet_docker {command : Str} {args : List Str} (hcommand : command ≠ "run".toList) :
    Quiet (docker (command :: args)) :=
  (quiet_ask (c := .docker (command :: args)) fun h => hcommand (Option.some.inj h)).bind
    fun _ => quiet_pure _

theorem quiet_inspectDigests (image : Str) : Quiet (docker (inspectDigests image)) :=
  quiet_docker (by decide +kernel)

theorem quiet_ownContainerId : Quiet ownContainerId :=
  (quiet_ask (c := .container) id).bind fun _ => quiet_pure _

/-- Looking for the running image starts no container. -/
theorem quiet_runningImageDigest : Quiet (runningImageDigest cfg) := by
  refine quiet_ownContainerId.bind fun container => ?_
  split_ifs
  · exact quiet_pure _
  · refine (quiet_docker (by decide +kernel)).bind fun inspected => ?_
    dsimp only
    split_ifs
    all_goals first
      | exact quiet_pure _
      | exact (quiet_inspectDigests _).bind fun _ => quiet_pure _

/-- Looking for the project starts no container. -/
theorem quiet_composeProject : Quiet composeProject := by
  refine quiet_ownContainerId.bind fun container => ?_
  split_ifs
  · exact quiet_pure _
  · exact (quiet_docker (by decide +kernel)).bind fun _ => quiet_pure _

variable (cfg env) in
/-- However the calls of a part of a check end, `Authorised` holds at each of them, and the part
ends in `Q`. -/
abbrev Keeps {α : Type} (p : Task α) (Q : Except Str α → State → Log → Prop) (s : State)
    (log : Log) : Prop :=
  p.run.wp (Program.logged Program.echo) (fun s w => Authorised cfg env s w.2)
    (fun r s w => Q r s w.2) s ((), log)

/-- The rule for such a part: what came before it stays, and it is followed by what it has asked. -/
theorem Quiet.seq {α β : Type} {p : Task α} {f : α → Task β} (hp : Quiet p)
    {Q : Except Str β → State → Log → Prop} (h : Authorised cfg env s log)
    (herror : ∀ e later, Authorised cfg env s (log ++ later) → Q (.error e) s (log ++ later))
    (hrest : ∀ a later, Authorised cfg env s (log ++ later) →
      Keeps cfg env (f a) Q s (log ++ later)) :
    Keeps cfg env (p >>= f) Q s log := by
  refine Program.wp_run_seq_of_within
    (K := fun w => ∃ later, w.2 = log ++ later ∧ Authorised cfg env s w.2) (J := fun t => t = s)
    ?_ ?_ (hp s) rfl ⟨[], by simp, h⟩ ?_ ?_
  · intro c o w r w' hc hexec hw
    obtain ⟨later, hlog, hauth⟩ := hw
    obtain ⟨-, hnext⟩ := Program.logged_eq_some hexec
    refine ⟨later ++ [(c, o)], by rw [hnext, hlog, List.append_assoc], ?_⟩
    rw [hnext]
    exact hauth.call o fun hstarts => absurd hstarts hc
  · rintro t w rfl ⟨-, -, hauth⟩
    exact hauth
  · rintro e t w rfl ⟨later, hlog, hauth⟩
    rw [hlog] at hauth ⊢
    exact herror e later hauth
  · rintro a t w rfl ⟨later, hlog, hauth⟩
    obtain rfl : w = ((), log ++ later) := Prod.ext rfl hlog
    exact hrest a later hauth

/-- The rule for two parts, one after the other. -/
theorem Keeps.bind {α β : Type} {p : Task α} {f : α → Task β}
    {Q : Except Str α → State → Log → Prop} {R : Except Str β → State → Log → Prop}
    (hp : Keeps cfg env p Q s log) (herror : ∀ e s log, Q (.error e) s log → R (.error e) s log)
    (hrest : ∀ a s log, Q (.ok a) s log → Keeps cfg env (f a) R s log) :
    Keeps cfg env (p >>= f) R s log := by
  rw [Keeps, Program.wp_run_bind]
  refine Program.wp_mono hp fun r t w hw => ?_
  cases r with
  | ok a => exact hrest a t w.2 hw
  | error e => exact herror e t w.2 hw

/-- The rule for one call: it raises, or its reply goes on. -/
theorem keeps_ask {β : Type} {c : Call} {f : Reply → Task β}
    {Q : Except Str β → State → Log → Prop} (h : Authorised cfg env s log)
    (hc : c.Starts → ∃ release helper container project, Cleared cfg log release ∧
      c = .docker (helperArgs cfg release.digest helper container project))
    (herror : ∀ e r, Authorised cfg env s (log ++ [(c, r)]) → Q (.error e) s (log ++ [(c, r)]))
    (hrest : ∀ r, Authorised cfg env s (log ++ [(c, r)]) →
      Keeps cfg env (f r) Q s (log ++ [(c, r)])) :
    Keeps cfg env (ask c >>= f) Q s log := by
  rw [Keeps, Program.wp_run_bind, ask, Program.wp_run_bind, Program.wp_run_lift]
  refine Program.wp_send_echo_of h fun r => ?_
  have hcall := h.call r hc
  rw [Program.handOn_ok]
  cases r.raised with
  | none => exact hrest r hcall
  | some text => exact herror text r hcall

/-- The rule for one call of docker. -/
theorem keeps_docker {β : Type} {args : List Str} {f : ℤ × Str → Task β}
    {Q : Except Str β → State → Log → Prop} (h : Authorised cfg env s log)
    (hc : (Call.docker args).Starts → ∃ release helper container project,
      Cleared cfg log release ∧
        Call.docker args = .docker (helperArgs cfg release.digest helper container project))
    (herror : ∀ e r, Authorised cfg env s (log ++ [(.docker args, r)]) →
      Q (.error e) s (log ++ [(.docker args, r)]))
    (hrest : ∀ r : Reply, Authorised cfg env s (log ++ [(.docker args, r)]) →
      Keeps cfg env (f (r.code, r.out)) Q s (log ++ [(.docker args, r)])) :
    Keeps cfg env (docker args >>= f) Q s log := by
  rw [Keeps, Program.wp_run_bind, docker]
  exact keeps_ask (Q := fun r s log => Program.handOn (Program.logged Program.echo)
    (fun s w => Authorised cfg env s w.2) f (fun r s w => Q r s w.2) r s ((), log)) h hc herror
    fun r hr => hrest r hr

/-! ## One check -/

theorem failedText_ne_nil {what : String} (h : what.toList ≠ []) (code : ℤ) (out : Str) :
    failedText what code out ≠ [] := by
  simp [failedText, h]

theorem not_starts_docker {command : Str} (args : List Str) (h : command ≠ "run".toList) :
    ¬ (Call.docker (command :: args)).Starts :=
  fun hstarts => h (Option.some.inj hstarts)

/-- What a pull leaves behind, from the log before it. -/
def AfterPull (cfg : Config) (env : Option Str) (digest : Str) (s : State) (log : Log)
    (r : Except Str Str) (t : State) (now : Log) : Prop :=
  ∃ later, now = log ++ later ∧ t = s ∧ Authorised cfg env s now ∧
    (r = .ok [] → Pulled cfg later digest)

theorem Authorised.failed {digest what : Str} {later : Log}
    (h : Authorised cfg env s (log ++ later)) (hwhat : what ≠ []) :
    AfterPull cfg env digest s log (.ok what) s (log ++ later) :=
  ⟨later, rfl, rfl, h, fun hnil => absurd (Except.ok.inj hnil) hwhat⟩

theorem Authorised.raised {digest e : Str} {later : Log}
    (h : Authorised cfg env s (log ++ later)) :
    AfterPull cfg env digest s log (.error e) s (log ++ later) :=
  ⟨later, rfl, rfl, h, fun hnil => by cases hnil⟩

/-- If nothing is wrong after a pull, docker has pulled the image. -/
theorem keeps_pullAndVerify (digest : Str) (h : Authorised cfg env s log) :
    Keeps cfg env (pullAndVerify cfg digest) (AfterPull cfg env digest s log) s log := by
  refine keeps_docker h
    (fun hstarts => absurd hstarts (not_starts_docker _ (by decide +kernel)))
    (fun e r => Authorised.raised) fun pull hpull => ?_
  dsimp only
  split_ifs with hcode
  · exact hpull.failed (failedText_ne_nil (by decide) _ _)
  refine keeps_docker hpull
    (fun hstarts => absurd hstarts (not_starts_docker _ (by decide +kernel)))
    (fun e r hauth => ?_) fun seen hseen => ?_
  all_goals rw [List.append_assoc] at *
  · exact hauth.raised
  dsimp only
  split_ifs with hinspect
  · exact hseen.failed (failedText_ne_nil (by decide) _ _)
  cases hjson : lastJson cfg seen.out with
  | none => exact hseen.failed (by decide)
  | some digests =>
    dsimp only
    cases digests.iter with
    | error e => exact hseen.raised
    | ok items =>
      dsimp only
      split_ifs with hany
      · refine ⟨_, rfl, rfl, hseen, fun _ => ?_⟩
        -- an entry with the digest is found only in a list
        cases digests with
        | list entries =>
          obtain ⟨entry, hentry, hends⟩ := List.any_eq_true.mp hany
          exact ⟨⟨pull, by simp, not_not.mp hcode⟩, seen, entries, entry, by simp,
            not_not.mp hinspect, hjson, hentry, hends⟩
        | _ => simp [entriesOf] at hany
      · exact hseen.failed (by decide)

/-- The helper is started with the image that was cleared. -/
theorem keeps_startHelper {release : Release} (h : Authorised cfg env s log)
    (hcleared : Cleared cfg log release) :
    Keeps cfg env (startHelper cfg release.digest) (fun _ => Authorised cfg env) s log := by
  refine quiet_ownContainerId.seq h (fun _ _ => id) fun container found hfound => ?_
  refine quiet_composeProject.seq hfound (fun _ _ => id) fun project labels hlabels => ?_
  refine keeps_ask hlabels False.elim (fun _ _ => id) fun time htime => ?_
  refine keeps_docker htime
    (fun _ => ⟨release, _, _, _, hcleared.mono.mono.mono, rfl⟩) (fun _ _ => id)
    fun started hstarted => ?_
  dsimp only
  split_ifs
  · exact hstarted
  refine (quiet_docker (by decide +kernel)).seq hstarted (fun _ _ => id) fun waited _ hwaited => ?_
  refine (quiet_docker (by decide +kernel)).seq hwaited (fun _ _ => id) fun logs _ hlogs => ?_
  refine (quiet_docker (by decide +kernel)).seq hlogs (fun _ _ => id) fun _ _ hremoved => ?_
  split_ifs
  all_goals exact hremoved

/-- The image that was cleared is written to the file, and the helper is started with it. -/
theorem keeps_restart {release : Release} (h : Authorised cfg env s log)
    (hcleared : Cleared cfg log release) :
    Keeps cfg env (restart cfg release.digest) (fun _ => Authorised cfg env) s log := by
  rw [restart]
  split_ifs
  · exact h
  refine keeps_ask h False.elim (fun _ _ => id) fun there hthere => ?_
  split_ifs
  · exact hthere
  refine keeps_ask hthere False.elim (fun _ _ => id) fun written hwritten => ?_
  cases written.osError with
  | some text => exact hwritten
  | none =>
    have hcleared' : Cleared cfg
        (log ++ [(.composeFile, there)] ++ [(.rewrite release.digest, written)]) release :=
      hcleared.mono.mono
    have hdigest : wellFormedDigest release.digest := by
      obtain ⟨_, _, _, _, -, -, hdigest, -⟩ := hcleared
      exact hdigest
    refine keeps_startHelper ⟨hwritten.started, .inr ⟨release, hcleared', ?_, ?_⟩⟩ hcleared'
    · exact assignments_rewriteEnv s.env hdigest
    · obtain ⟨n, hlines⟩ := otherLines_rewriteEnv s.env hdigest
      rcases hwritten.file with hsame | ⟨_, -, -, k, hother⟩
      · exact ⟨n, hsame ▸ hlines⟩
      · exact ⟨k + n, by rw [hlines, hother, List.append_assoc, List.replicate_add]⟩

/-- Whatever a check is answered, it keeps `Authorised`. -/
theorem keeps_checkOnce (h : Authorised cfg env s log) :
    Keeps cfg env (checkOnce cfg) (fun _ => Authorised cfg env) s log := by
  refine keeps_ask h False.elim (fun _ _ => id) fun answer hanswer => ?_
  refine keeps_ask hanswer False.elim (fun _ _ => id) fun moment hmoment => ?_
  cases hverify : verifyRelease cfg.verify cfg.printer answer.payload moment.validators
      moment.now with
  | error e => exact hmoment
  | ok checked =>
    cases checked with
    | error problem => exact hmoment
    | ok release =>
      refine quiet_runningImageDigest.seq hmoment (fun _ _ => id) fun running asked hasked => ?_
      split_ifs
      · exact hasked
      refine (keeps_pullAndVerify release.digest hasked).bind ?_ fun problem t now hafter => ?_
      · rintro e t now ⟨later, -, rfl, hauth, -⟩
        exact hauth
      obtain ⟨later, rfl, rfl, hlater, hpulled⟩ := hafter
      split_ifs with hproblem
      · exact hlater
      obtain rfl : problem = [] := not_not.mp hproblem
      have hcleared : Cleared cfg
          (log ++ [(.release, answer)] ++ [(.moment, moment)] ++ asked ++ later) release := by
        obtain ⟨hdigest, hsign⟩ := verifies_of_verifyRelease hverify
        obtain ⟨hvalidator, hskew⟩ := checked_of_verifyRelease hverify
        exact ⟨log, answer, moment, asked ++ later, by simp, hverify, hdigest, hvalidator, hskew,
          hsign, (hpulled rfl).mono (List.subset_append_right _ _)⟩
      refine (keeps_restart hlater hcleared).bind (fun _ _ _ => id) fun problem t now hnow => ?_
      split_ifs
      · exact hnow
      · exact hnow

/-! ## The loop -/

/-- A turn of the loop keeps it, whether the check ends or raises. -/
theorem keeps_round (updateSeconds : ℚ) (h : Authorised cfg env s log) :
    (round cfg updateSeconds).wp (Program.logged Program.echo)
      (fun s w => Authorised cfg env s w.2) (fun _ s w => Authorised cfg env s w.2) s
      ((), log) := by
  rw [round, Program.wp_bind]
  refine Program.wp_mono (keeps_checkOnce h) fun outcome t w hw => ?_
  cases outcome with
  | error e => exact ⟨hw.started, hw.file⟩
  | ok outcome =>
    cases outcome with
    | refused reason => exact ⟨hw.started, hw.file⟩
    | current digest => exact ⟨hw.started, hw.file⟩
    | applied digest => exact ⟨hw.started, hw.file⟩

/-- Any number of rounds, by induction from one. -/
theorem keeps_rounds (updateSeconds : ℚ) (n : ℕ) (h : Authorised cfg env s log) :
    (rounds cfg updateSeconds n).wp (Program.logged Program.echo)
      (fun s w => Authorised cfg env s w.2) (fun _ s w => Authorised cfg env s w.2) s
      ((), log) := by
  refine Program.wp_forEach (J := fun _ _ s (w : Unit × Log) => Authorised cfg env s w.2) ?_ h
  intro _ _ delays t w hw
  rw [Program.wp_bind]
  exact keeps_round updateSeconds hw

theorem authorised_nil (s : State) : Authorised cfg s.env s [] :=
  ⟨fun k c r hk => by simp at hk, .inl rfl⟩

/-- However long the updater runs, whatever it is answered, and wherever it is cut off: it has
started nothing but the helper, with an image that a validator active at that time had released and
that docker had pulled before; and the file is the one from before, or has one line with such an
image, and its other lines are those from before. -/
theorem rounds_authorised {updateSeconds : ℚ} {n : ℕ} {replies : List Reply} {s s' : State}
    {log : Log} (h : (rounds cfg updateSeconds n).after (Program.logged Program.echo) replies s
      ((), []) = some (s', (), log)) :
    Authorised cfg s.env s' log :=
  Program.after_of_wp (I := fun t (w : Unit × Log) => Authorised cfg s.env t w.2)
    (keeps_rounds updateSeconds n (authorised_nil s)) h

/-- A digest. -/
def sampleDigest : Str :=
  "sha256:".toList ++ List.replicate 64 'a'

/-- A configuration with one signature, which reads a list of one text without escapes. -/
def sampleConfig : Config where
  repository := "repo/agent".toList
  imageDigest := []
  composeFile := "/c.yml".toList
  envFile := "/c.env".toList
  verify := fun _ _ bytes => bytes = [0xab]
  loads := fun text => some (.list [.str ((text.drop 2).take (text.length - 4))])
  printer := Json.asciiPrinter
  raisedText := fun _ => []

/-- The server has a release, docker pulls it and starts the helper. -/
def sampleReplies : List Reply :=
  [{ payload := .dict [("release".toList, .dict [("digest".toList, .str sampleDigest),
      ("timestamp".toList, .int 1000), ("signature".toList, .str "ab".toList),
      ("validator".toList, .str "hk".toList)])] },
    { now := 1100, validators := ["hk".toList] }, {}, {},
    { out := "[\"repo/agent@".toList ++ sampleDigest ++ "\"]\n".toList }, { flag := true }, {},
    {}, {}, { now := 1100 }, {}, { out := "0\n".toList }, {}, {}]

theorem rounds_authorised_update :
    ∃ (s : State) (log : Log),
      (rounds sampleConfig 3600 1).after (Program.logged Program.echo) sampleReplies
        { env := some "A=1\nAGENT_IMAGE_SHA256=old".toList } ((), []) = some (s, (), log) ∧
      (∃ c r, log[10]? = some (c, r) ∧ c.Starts) ∧
      Authorised sampleConfig (some "A=1\nAGENT_IMAGE_SHA256=old".toList) s log := by
  have hrun : (((rounds sampleConfig 3600 1).after (Program.logged Program.echo) sampleReplies
      { env := some "A=1\nAGENT_IMAGE_SHA256=old".toList } ((), [])).map fun r =>
        (r.2.2[10]?).map Prod.fst) = some (some (.docker (helperArgs sampleConfig sampleDigest
          "rig-agent-update-1100".toList [] []))) := by
    decide +kernel
  obtain ⟨⟨s, u, log⟩, hafter, hlog⟩ := Option.map_eq_some_iff.mp hrun
  obtain ⟨⟨c, r⟩, hk, hc⟩ := Option.map_eq_some_iff.mp hlog
  refine ⟨s, log, hafter, ⟨c, r, hk, ?_⟩, rounds_authorised hafter⟩
  rw [show c = _ from hc]
  rfl

end ComputePool.Agent.Updater
