import ComputePool.Challenge.Cuda
import ComputePool.Foundations.FixedPoint
import ComputePool.Foundations.Hex
import ComputePool.Validator.Verify.ChallengeCheck

/-!
# The challenge runner

`validator/verify/payloads/challenge_runner.py`, which the check uploads to a rig and starts there
once for every card, and the check together with a rig that does what it is asked.

What a machine brings along is a parameter: its files, the libraries that they are, and the clock.
The signal handlers are left out; a runner that is killed prints something else. An argument that is
a negative number, which the check never passes, is refused here as one that is no number.

* `main`: the words of the command line are read, and one object is printed.
* `split_commandFor`: the words of the command are those the check means, whatever they contain.
* `run_able`: a rig whose cards compute what they are asked passes, with the uploaded library or
  with the reference.
-/

namespace ComputePool.Validator.Verify.ChallengeRunner

open Text Numeral Json ChallengeCheck
open Challenge (Heap argsOk)
open Challenge.Python (referenceDigest)

/-! ## The machine -/

/-- A shared library, by what its functions return. -/
structure Library where
  /-- `mt_challenge_version`. -/
  version : ℤ
  /-- `mt_challenge_build`. -/
  build : Str
  /-- `mt_challenge_last_error`, after a function has failed. -/
  lastError : Str
  /-- `mt_challenge_solve`: the code of a failure or the digest; `none` ends the process. -/
  solve : BitVec 64 → BitVec 64 → ℕ → ℕ → Option (Except ℤ (BitVec 64))
  /-- `mt_challenge_benchmark`: the code of a failure, or operations, bandwidth and time. -/
  benchmark : ℕ → ℕ → Except ℤ (PyFloat × PyFloat × PyFloat)

/-- What the runner finds on a machine. -/
structure Machine where
  sha : Fernet.Sha256
  files : Str → Option Base64.Octets
  /-- `ctypes.CDLL` of a file with these bytes; the error is the text of the exception. -/
  load : Base64.Octets → Except Str Library
  /-- The text of the exception for a file that is missing. -/
  missing : Str → Str
  /-- `import numpy`; the error is the text of the exception where it is not installed. -/
  numpy : Except Str Unit
  /-- What the clock measures around the solution, in milliseconds. -/
  elapsed : PyFloat

/-! ## What is printed -/

/-- The object of an answer. -/
def answerOf (answer : ChallengeAnswer) (mode librarySha256 : Str) : Dict Str Json :=
  [("digest".toList, .str answer.digest), ("elapsed_ms".toList, .float answer.elapsedMs),
    ("gops".toList, .float answer.gops), ("gbps".toList, .float answer.gbps),
    ("benchmark_ms".toList, .float answer.benchmarkMs), ("build".toList, .str answer.build),
    ("version".toList, .int answer.version), ("error".toList, .str answer.error),
    ("mode".toList, .str mode), ("library_sha256".toList, .str librarySha256)]

/-- The object of a runner that got nowhere. -/
def failed (error : Str) : Dict Str Json :=
  [("digest".toList, .str []), ("elapsed_ms".toList, .float (.fin 0)),
    ("error".toList, .str error)]

/-- `f"{digest:016x}"`. -/
def digestText (digest : ℕ) : Str :=
  (Nat.toDigits 16 digest).leftpad 16 '0'

/-- `run_reference`; the error is the text of an exception. -/
def runReference (m : Machine) (seed cipher n rounds : ℕ) : Except Str (Dict Str Json) :=
  m.numpy.map fun _ =>
    answerOf {
        digest := digestText (referenceDigest seed cipher n rounds)
        elapsedMs := m.elapsed.roundTo 3
        build := "python-reference".toList
        version := 1 } Mode.reference.value []

/-- `f"{stage} failed with {code}: {last_error()}"`. -/
def failedWith (lib : Library) (stage : String) (code : ℤ) : Str :=
  stage.toList ++ " failed with ".toList ++ intText code ++ ": ".toList ++ lib.lastError

/-- `run_library`; the error is the text of an exception. -/
def runLibrary (m : Machine) (path : Str) (seed cipher n rounds benchmarkN iterations : ℕ) :
    Option (Except Str (Dict Str Json)) :=
  match m.files path with
  | none => some (.error (m.missing path))
  | some bytes =>
    let librarySha256 := Base64.hexText (m.sha.digest bytes)
    match m.load bytes with
    | .error text => some (.error text)
    | .ok lib =>
      -- the numbers are converted to the C types of the parameters
      (lib.solve (BitVec.ofNat 64 seed) (BitVec.ofNat 64 cipher) (n % 2 ^ 32)
          (rounds % 2 ^ 32)).map fun solved =>
        let answer : ChallengeAnswer := {
          digest := []
          elapsedMs := m.elapsed.roundTo 3
          build := lib.build
          version := lib.version }
        .ok <| (answerOf · Mode.library.value librarySha256) <|
          match solved with
          | .error code => { answer with error := failedWith lib "solve" code }
          | .ok digest =>
            let answer := { answer with digest := digestText digest.toNat }
            match lib.benchmark (benchmarkN % 2 ^ 32) (iterations % 2 ^ 32) with
            | .error code => { answer with error := failedWith lib "benchmark" code }
            | .ok (gops, gbps, benchmarkMs) => { answer with
                gops := gops.roundTo 3
                gbps := gbps.roundTo 3
                benchmarkMs := benchmarkMs.roundTo 3 }

/-- `int(value)`, of a number that is not negative. -/
def numberOf (text : Str) : Option ℕ :=
  (intOf text).bind fun n => if 0 ≤ n then some n.toNat else none

/-- The end of `main`: the object that is printed, and the exit code. -/
def endOf : Except Str (Dict Str Json) → Dict Str Json × ℤ
  | .error text => (failed text, 1)
  | .ok answer => (answer, if ((answer.get? "error".toList).getD .null).truthy then 1 else 0)

/-- `main`; `none` if the process dies. -/
def main (m : Machine) (argv : List Str) : Option (Dict Str Json × ℤ) :=
  match argv with
  | [_, path, seed, cipher, n, rounds, benchmarkN, iterations] =>
    match [seed, cipher, n, rounds, benchmarkN, iterations].mapM numberOf with
    | some [seed, cipher, n, rounds, benchmarkN, iterations] =>
      let answered :=
        if path = Mode.reference.value then some (runReference m seed cipher n rounds)
        else runLibrary m path seed cipher n rounds benchmarkN iterations
      answered.map endOf
    | _ => some (failed "numeric arguments required".toList, 2)
  | _ => some (failed
      "usage: runner <lib|reference> seed cipher n rounds benchmark_n iterations".toList, 2)

/-- What the validator gets of a runner, through the session. -/
def resultOf (p : Printer) (printed : Dict Str Json × ℤ) : CommandResult where
  exitCode := printed.2
  stdout := dumps p (.dict printed.1) ++ ['\n']

/-! ## What is read of it -/

section Read

variable {p : Printer}

/-- The object is the last line that is one, and is read as it was printed. -/
theorem lastJsonObject_dumps (hfloat : ∀ x, ∀ c ∈ p.floatText x, Printable c)
    {loads : Str → Except Exn Json} {fields : Dict Str Json}
    (hloads : loads (dumps p (.dict fields)) = .ok (.dict fields)) :
    lastJsonObject loads (dumps p (.dict fields) ++ ['\n']) = .ok (some fields) := by
  have hprintable : ∀ c ∈ dumps p (.dict fields), Printable c :=
    forall_mem_dumps (fun _ hc => hc) hfloat _
  -- no line break is among the characters that are printed
  have hline : OneLine (dumps p (.dict fields)) := by
    intro c hc
    obtain ⟨hlow, hhigh⟩ := hprintable c hc
    simp only [isLineBreak, decide_eq_false_iff_not, List.mem_cons, List.not_mem_nil, or_false,
      not_or]
    omega
  have hlines : splitLines (dumps p (.dict fields) ++ ['\n']) = [dumps p (.dict fields)] := by
    simpa [joinLines] using splitLines_joinLines
      (show ∀ line ∈ [dumps p (.dict fields)], OneLine line by simpa using hline)
  have hbraces : dumps p (.dict fields) = ['\x7b'] ++ (dumpsFields p fields ++ ['\x7d']) := by
    simp [dumps]
  have hstrip : strip (dumps p (.dict fields)) = dumps p (.dict fields) := by
    rw [hbraces]
    exact strip_append_append _ (by simp) (by simp) (by simp [isSpace]) (by simp [isSpace])
  have hopen : startsWith (dumps p (.dict fields)) ['\x7b'] = true := by
    rw [hbraces]
    rfl
  have hclose : endsWith (dumps p (.dict fields)) ['\x7d'] = true :=
    endsWith_iff.mpr ⟨'\x7b' :: dumpsFields p fields, by simp [dumps]⟩
  rw [lastJsonObject, hlines, List.reverse_singleton, lastObject]
  simp [hstrip, hopen, hclose, hloads]

/-- A number that is read of an answer is the one that was printed. -/
theorem fieldOr_answerOf (answer : ChallengeAnswer) (mode librarySha256 : Str) :
    let fields := answerOf answer mode librarySha256
    fieldOr fields "digest" (.str []) = .str answer.digest ∧
      fieldOr fields "elapsed_ms" (.float (.fin 0)) = .float answer.elapsedMs ∧
      fieldOr fields "gops" (.float (.fin 0)) = .float answer.gops ∧
      fieldOr fields "gbps" (.float (.fin 0)) = .float answer.gbps ∧
      fieldOr fields "benchmark_ms" (.float (.fin 0)) = .float answer.benchmarkMs ∧
      fieldOr fields "build" (.str []) = .str answer.build ∧
      fieldOr fields "version" (.int 0) = .int answer.version ∧
      fieldOr fields "error" (.str []) = .str answer.error ∧
      fieldOr fields "library_sha256" (.str []) = .str librarySha256 := by
  have htext (s : Str) : (Json.str s).orElse (.str []) = .str s := by
    by_cases hs : s = [] <;> simp [orElse, truthy, hs]
  have hfloat (x : PyFloat) : (Json.float x).orElse (.float (.fin 0)) = .float x := by
    by_cases hx : x = .fin 0 <;> simp [orElse, truthy, hx]
  have hint (n : ℤ) : (Json.int n).orElse (.int 0) = .int n := by
    by_cases hn : n = 0 <;> simp [orElse, truthy, hn]
  exact ⟨htext _, hfloat _, hfloat _, hfloat _, hfloat _, htext _, hint _, htext _, htext _⟩

/-- The validator reads the answer as the runner prints it. -/
theorem fromPayload_answerOf (p : Printer) (answer : ChallengeAnswer)
    (mode librarySha256 : Str) :
    ChallengeAnswer.fromPayload p (answerOf answer mode librarySha256) = .ok answer := by
  obtain ⟨hdigest, helapsed, hgops, hgbps, hbenchmark, hbuild, hversion, herror, -⟩ :=
    fieldOr_answerOf answer mode librarySha256
  simp only [ChallengeAnswer.fromPayload, real, hdigest, helapsed, hgops, hgbps, hbenchmark, hbuild,
    hversion, herror]
  rfl

end Read

/-! ## The command -/

/-- The setting of `CUDA_VISIBLE_DEVICES` in front of the command. -/
def visibleDevices (uuid : Str) : List Str :=
  if uuid ≠ [] then ["CUDA_VISIBLE_DEVICES=".toList ++ uuid] else []

/-- What the runner is called with. -/
def argumentsOf (c : Context) : List Str :=
  c.prepared.libraryArg ::
    [c.request.seed, c.request.cipher, c.request.n, c.request.rounds, c.request.benchmarkN,
      c.request.iterations].map natText

/-- The words of a command that starts the runner. -/
def wordsOf (c : Context) (uuid : Str) (arguments : List Str) : List Str :=
  "cd".toList :: c.sessionDir :: "&&".toList ::
    (visibleDevices uuid ++ c.settings.python :: "-I".toList :: runnerName :: arguments)

/-- A number needs no quotes. -/
theorem quote_natText (n : ℕ) : Shlex.quote (natText n) = natText n := by
  refine Shlex.quote_eq_self (natText_ne_nil n) fun c hc => ?_
  have hdigit := isDigit_of_mem_natText hc
  simp only [Char.isDigit, Bool.and_eq_true, decide_eq_true_eq] at hdigit
  simp only [Shlex.isSafe, Bool.or_eq_true, Bool.and_eq_true, decide_eq_true_eq]
  exact Or.inl (Or.inr hdigit)

/-- The words of the command are those that are meant, whatever characters are in them. -/
theorem split_commandFor (c : Context) (uuid : Str) :
    Shlex.split (c.commandFor uuid) = some (wordsOf c uuid (argumentsOf c)) := by
  have hcd (rest : Str) : Shlex.split ("cd ".toList ++ rest) =
      (Shlex.split rest).map ("cd".toList :: ·) :=
    Shlex.split_quote_append "cd".toList rest
  have hand (rest : Str) : Shlex.split ("&& ".toList ++ rest) =
      (Shlex.split rest).map ("&&".toList :: ·) := by
    simp [Shlex.split, Shlex.scan, Shlex.isBlank]
  have hvisible (rest : Str) :
      Shlex.split ((if uuid ≠ [] then "CUDA_VISIBLE_DEVICES=".toList ++ Shlex.quote uuid ++ [' ']
        else []) ++ rest) = (Shlex.split rest).map (visibleDevices uuid ++ ·) := by
    rw [visibleDevices]
    split_ifs with huuid
    · have hname : Shlex.quote "CUDA_VISIBLE_DEVICES=".toList = "CUDA_VISIBLE_DEVICES=".toList :=
        Shlex.quote_eq_self (by decide) (List.all_eq_true.mp (by decide))
      rw [← hname, List.append_assoc, List.append_assoc, Shlex.split, Shlex.scan_quote,
        Shlex.scan_word_quote, hname, List.singleton_append, Shlex.scan_word_space]
      rfl
    · simp
  -- the parts that are not quoted need no quotes
  have hparts : [Shlex.quote c.settings.python, "-I".toList, runnerName,
      Shlex.quote c.prepared.libraryArg] ++
      [c.request.seed, c.request.cipher, c.request.n, c.request.rounds, c.request.benchmarkN,
        c.request.iterations].map natText =
      (c.settings.python :: "-I".toList :: runnerName :: argumentsOf c).map Shlex.quote := by
    have hflag : Shlex.quote "-I".toList = "-I".toList := by decide
    have hname : Shlex.quote runnerName = runnerName := by decide
    simp only [argumentsOf, List.map_cons, List.map_nil, hflag, hname, quote_natText,
      List.cons_append, List.nil_append]
  rw [Context.commandFor, hparts]
  simp only [List.append_assoc]
  have hspace : " && ".toList = ' ' :: "&& ".toList := rfl
  rw [hcd, hspace, List.cons_append, Shlex.split_quote_append, hand]
  have hrest := hvisible (Shlex.join
    ((c.settings.python :: "-I".toList :: runnerName :: argumentsOf c).map Shlex.quote))
  simp only [List.append_assoc] at hrest
  rw [hrest, Shlex.split_join_quote]
  rfl

/-- The words of a command tell what the runner is called with. -/
theorem wordsOf_injective (c : Context) (uuid : Str) : Function.Injective (wordsOf c uuid) := by
  intro arguments arguments' h
  simpa [wordsOf] using h

/-- The numbers of a request fit the C types they are converted to. -/
structure Fits (request : ChallengeRequest) : Prop where
  seed : request.seed < 2 ^ 64
  cipher : request.cipher < 2 ^ 64
  sizes : argsOk request.n request.rounds
  benchmarkN : request.benchmarkN < 2 ^ 32
  iterations : request.iterations < 2 ^ 32

/-- A number below 2^64 is read as it was written. -/
theorem numberOf_natText {n : ℕ} (h : n < 2 ^ 64) : numberOf (natText n) = some n := by
  have hlength : (natText n).length ≤ maxDigits :=
    (length_natText_le (k := 20) (by decide) (by omega)).trans (by decide)
  rw [numberOf, intOf_natText hlength]
  simp

/-- The runner reads its arguments. -/
theorem main_argumentsOf (m : Machine) {c : Context} (h : Fits c.request) :
    main m (runnerName :: argumentsOf c) =
      (if c.prepared.libraryArg = Mode.reference.value then
        some (runReference m c.request.seed c.request.cipher c.request.n c.request.rounds)
      else runLibrary m c.prepared.libraryArg c.request.seed c.request.cipher c.request.n
        c.request.rounds c.request.benchmarkN c.request.iterations).map endOf := by
  obtain ⟨hn, hrounds⟩ := Challenge.Python.lt_of_argsOk h.sizes
  have hbenchmark := h.benchmarkN
  have hiterations := h.iterations
  have hnumbers : [natText c.request.seed, natText c.request.cipher, natText c.request.n,
      natText c.request.rounds, natText c.request.benchmarkN,
      natText c.request.iterations].mapM numberOf =
        some [c.request.seed, c.request.cipher, c.request.n, c.request.rounds,
          c.request.benchmarkN, c.request.iterations] := by
    simp only [List.mapM_cons, List.mapM_nil, numberOf_natText h.seed, numberOf_natText h.cipher,
      numberOf_natText (n := c.request.n) (by omega),
      numberOf_natText (n := c.request.rounds) (by omega),
      numberOf_natText (n := c.request.benchmarkN) (by omega),
      numberOf_natText (n := c.request.iterations) (by omega)]
    rfl
  simp only [argumentsOf, List.map_cons, List.map_nil, main, hnumbers]

/-! ## A rig that does what it is asked -/

/-- A library is the CUDA build, on a device. -/
def Library.RunsOn (lib : Library) (device : Challenge.Cuda.Device) (heap : Heap) : Prop :=
  ∀ seed cipher n rounds, lib.solve seed cipher n rounds =
    (Challenge.Cuda.mtChallengeSolve device heap seed cipher n rounds).map
      fun solved => solved.mapError Challenge.Code.value

/-- The library on a machine is the one that was uploaded, nothing on its device fails, and the
benchmark reaches the floors of the tier. -/
structure Equipped (c : Context) (m : Machine) (raw : Base64.Octets) : Prop where
  uploaded : m.files c.prepared.libraryArg = some raw
  loaded : ∃ lib device heap gops gbps benchmarkMs, m.load raw = .ok lib ∧
    lib.RunsOn device heap ∧ device.Ok c.request.rounds ∧
    lib.benchmark c.request.benchmarkN c.request.iterations = .ok (gops, gbps, benchmarkMs) ∧
    (PyFloat.fin (gopsFloor c.chosenTier)).le gops ∧ (PyFloat.fin (gbpsFloor c.chosenTier)).le gbps

/-- A machine that can answer: in time, and with what the mode takes. -/
structure Able (c : Context) (m : Machine) : Prop where
  sha : m.sha = c.settings.sha
  prompt : c.settings.challengeMaxMs.lt (m.elapsed.roundTo 3) = false
  equipped : ∀ raw, c.settings.agentLibrary = some raw → Equipped c m raw
  numpy : c.settings.agentLibrary = none → m.numpy = .ok ()

/-- The commands that the check sends start the runner, with the arguments among their words, on
machines that can answer; and what it prints comes back, and is read as it was printed. -/
def Honest (c : Context) : Prop :=
  ∀ (i : ℕ) (uuid : Str) (arguments : List Str),
    Shlex.split (c.commandFor uuid) = some (wordsOf c uuid arguments) →
    ∃ m, Able c m ∧ ∀ printed, main m (runnerName :: arguments) = some printed →
      c.rig.reply i (c.commandFor uuid) = .ok (resultOf c.settings.printer printed) ∧
      c.settings.loads (dumps c.settings.printer (.dict printed.1)) = .ok (.dict printed.1)

section Able

variable {c : Context} {m : Machine}

/-- What the check has prepared. -/
theorem prepare_eq_ok {rig : ChallengeCheck.Rig} {settings : Settings} {sessionDir : Str}
    {prepared : Prepared} (h : prepare rig settings sessionDir = .ok prepared) :
    (∃ raw, settings.agentLibrary = some raw ∧
      prepared = ⟨.library, settings.hexdigest raw, sessionDir ++ '/' :: libraryName⟩) ∨
      (settings.agentLibrary = none ∧ prepared = ⟨.reference, [], Mode.reference.value⟩) := by
  unfold prepare at h
  obtain ⟨-, -, h⟩ := Fallible.bind_eq_ok.mp h
  cases hlibrary : settings.agentLibrary with
  | some raw =>
    rw [hlibrary] at h
    obtain ⟨-, -, h⟩ := Fallible.bind_eq_ok.mp h
    exact Or.inl ⟨raw, rfl, (Except.ok.inj h).symm⟩
  | none =>
    simp only [hlibrary] at h
    split_ifs at h
    exact Or.inr ⟨rfl, (Except.ok.inj h).symm⟩

/-- What is expected is the digest of the challenge. -/
theorem expected_eq (hfits : Fits c.request)
    (h : Challenge.Python.expectedDigest c.settings.challengeLibrary c.request.seed c.request.cipher
      c.request.n c.request.rounds = some (.ok (c.expected, c.method))) :
    c.expected = (Challenge.digest (BitVec.ofNat 64 c.request.seed)
      (BitVec.ofNat 64 c.request.cipher) c.request.n c.request.rounds).toNat := by
  have hseed : (BitVec.ofNat 64 c.request.seed).toNat = c.request.seed := by
    rw [BitVec.toNat_ofNat, Nat.mod_eq_of_lt hfits.seed]
  have hcipher : (BitVec.ofNat 64 c.request.cipher).toNat = c.request.cipher := by
    rw [BitVec.toNat_ofNat, Nat.mod_eq_of_lt hfits.cipher]
  have hreference := Challenge.Python.referenceDigest_eq (BitVec.ofNat 64 c.request.seed)
    (BitVec.ofNat 64 c.request.cipher) hfits.sizes
  rw [hseed, hcipher] at hreference
  cases hlibrary : c.settings.challengeLibrary with
  | absent =>
    rw [hlibrary, Challenge.Python.expectedDigest, hreference] at h
    exact (congrArg Prod.fst (Except.ok.inj (Option.some.inj h))).symm
  | unloadable path error =>
    rw [hlibrary, Challenge.Python.expectedDigest] at h
    cases Option.some.inj h
  | installed heap =>
    rw [hlibrary, Challenge.Python.expectedDigest] at h
    -- without memory for its buffers, the library would have failed
    by_cases hheap : heap.allocated
    · have hcomputed := Challenge.Python.libraryDigest_eq hheap (BitVec.ofNat 64 c.request.seed)
        (BitVec.ofNat 64 c.request.cipher) hfits.sizes
      rw [hseed, hcipher] at hcomputed
      rw [hcomputed] at h
      exact (congrArg Prod.fst (Except.ok.inj (Option.some.inj h))).symm
    · obtain ⟨hn, hrounds⟩ := Challenge.Python.lt_of_argsOk hfits.sizes
      have hsolve : Challenge.Reference.mtChallengeSolve heap (BitVec.ofNat 64 c.request.seed)
          (BitVec.ofNat 64 c.request.cipher) (c.request.n % 2 ^ 32) (c.request.rounds % 2 ^ 32) =
            some (.error .alloc) := by
        rw [Nat.mod_eq_of_lt hn, Nat.mod_eq_of_lt hrounds, Challenge.Reference.mtChallengeSolve,
          if_neg (by simp [hfits.sizes]), if_pos (by simp [hheap])]
      rw [Challenge.Python.libraryDigest, hsolve] at h
      simp [Except.map] at h

/-- An answer without an error that no rejection applies to is accepted. -/
theorem judge_of_accepted {uuid : Str} {payload entry : Dict Str Json} {answer : ChallengeAnswer}
    (herror : answer.error = []) (h : c.Accepted payload answer) :
    (c.judge uuid payload answer entry).2 = none := by
  have hfloor : ¬ (c.prepared.mode = .library ∧
      (answer.gops.lt (.fin (gopsFloor c.chosenTier)) ∨
        answer.gbps.lt (.fin (gbpsFloor c.chosenTier)))) := by
    rintro ⟨hmode, hlow | hlow⟩
    · exact h.gops hmode hlow
    · exact h.gbps hmode hlow
  have hloaded : ¬ (c.prepared.mode = .library ∧
      toStr c.settings.printer (fieldOr payload "library_sha256" (.str [])) ≠
        c.prepared.librarySha256) := fun hmode => hmode.2 (h.loaded hmode.1)
  unfold Context.judge
  dsimp only
  rw [if_neg (not_not.mpr herror), if_neg hloaded, if_neg (not_not.mpr h.digest),
    if_neg h.elapsed, if_neg hfloor]

/-- The floors are integers, so that rounding takes nothing below them. -/
theorem exists_gopsFloor (tier : Tier) : ∃ floor : ℤ, gopsFloor tier = floor := by
  cases tier with
  | entry => exact ⟨50, rfl⟩
  | standard => exact ⟨200, rfl⟩
  | professional => exact ⟨400, rfl⟩
  | flagship => exact ⟨1000, rfl⟩

/-- The floor of every tier is a whole number. -/
theorem exists_gbpsFloor (tier : Tier) : ∃ floor : ℤ, gbpsFloor tier = floor := by
  cases tier with
  | entry => exact ⟨100, rfl⟩
  | standard => exact ⟨300, rfl⟩
  | professional => exact ⟨400, rfl⟩
  | flagship => exact ⟨1000, rfl⟩

/-- The path of the library has a slash, so it is not taken for the word. -/
theorem libraryArg_ne_reference (sessionDir : Str) :
    sessionDir ++ '/' :: libraryName ≠ Mode.reference.value := by
  intro heq
  have hslash : '/' ∈ Mode.reference.value := heq ▸ by simp
  exact absurd hslash (by decide)

/-- In library mode an equipped machine answers with the digest of the challenge, and with what the
benchmark gave. -/
theorem runLibrary_equipped {raw : Base64.Octets} (hfits : Fits c.request)
    (h : Equipped c m raw)
    (hexpected : c.expected = (Challenge.digest (BitVec.ofNat 64 c.request.seed)
      (BitVec.ofNat 64 c.request.cipher) c.request.n c.request.rounds).toNat) :
    ∃ (gops gbps benchmarkMs : PyFloat) (build : Str) (version : ℤ),
      (PyFloat.fin (gopsFloor c.chosenTier)).le gops ∧
      (PyFloat.fin (gbpsFloor c.chosenTier)).le gbps ∧
      runLibrary m c.prepared.libraryArg c.request.seed c.request.cipher c.request.n
        c.request.rounds c.request.benchmarkN c.request.iterations =
          some (.ok (answerOf {
            digest := digestText c.expected
            elapsedMs := m.elapsed.roundTo 3
            gops := gops.roundTo 3
            gbps := gbps.roundTo 3
            benchmarkMs := benchmarkMs.roundTo 3
            build
            version } Mode.library.value (Base64.hexText (m.sha.digest raw)))) := by
  obtain ⟨huploaded, lib, device, heap, gops, gbps, benchmarkMs, hload, hruns, hok, hbenchmark,
    hgops, hgbps⟩ := h
  obtain ⟨hn, hrounds⟩ := Challenge.Python.lt_of_argsOk hfits.sizes
  obtain ⟨result, hsolve, -, hdigest⟩ := Challenge.Cuda.mtChallengeSolve_eq device heap
    (BitVec.ofNat 64 c.request.seed) (BitVec.ofNat 64 c.request.cipher) hfits.sizes
  refine ⟨gops, gbps, benchmarkMs, lib.build, lib.version, hgops, hgbps, ?_⟩
  rw [runLibrary, huploaded]
  dsimp only
  rw [hload]
  dsimp only
  -- the numbers fit their types, so they are passed on as they are
  rw [Nat.mod_eq_of_lt hn, Nat.mod_eq_of_lt hrounds, Nat.mod_eq_of_lt hfits.benchmarkN,
    Nat.mod_eq_of_lt hfits.iterations, hruns, hsolve, hdigest hok, hbenchmark, hexpected]
  rfl

/-- In reference mode a machine with numpy answers with the digest of the challenge. -/
theorem runReference_eq (hfits : Fits c.request) (hnumpy : m.numpy = .ok ())
    (hexpected : c.expected = (Challenge.digest (BitVec.ofNat 64 c.request.seed)
      (BitVec.ofNat 64 c.request.cipher) c.request.n c.request.rounds).toNat) :
    runReference m c.request.seed c.request.cipher c.request.n c.request.rounds =
      .ok (answerOf {
        digest := digestText c.expected
        elapsedMs := m.elapsed.roundTo 3
        build := "python-reference".toList
        version := 1 } Mode.reference.value []) := by
  have hdigest := Challenge.Python.referenceDigest_eq (BitVec.ofNat 64 c.request.seed)
    (BitVec.ofNat 64 c.request.cipher) hfits.sizes
  rw [BitVec.toNat_ofNat, BitVec.toNat_ofNat, Nat.mod_eq_of_lt hfits.seed,
    Nat.mod_eq_of_lt hfits.cipher, ← hexpected] at hdigest
  rw [runReference, hnumpy, hdigest]
  rfl

/-- What a machine prints that can answer, and that it is accepted. -/
theorem main_able (hfits : Fits c.request) (hable : Able c m)
    (hprepared : prepare c.rig c.settings c.sessionDir = .ok c.prepared)
    (hexpected : c.expected = (Challenge.digest (BitVec.ofNat 64 c.request.seed)
      (BitVec.ofNat 64 c.request.cipher) c.request.n c.request.rounds).toNat) :
    ∃ answer mode librarySha256, main m (runnerName :: argumentsOf c) =
        some (answerOf answer mode librarySha256, 0) ∧ answer.error = [] ∧
      c.Accepted (answerOf answer mode librarySha256) answer := by
  rw [main_argumentsOf m hfits]
  rcases prepare_eq_ok hprepared with ⟨raw, hraw, hlibrary⟩ | ⟨hraw, hreference⟩
  · obtain ⟨gops, gbps, benchmarkMs, build, version, hgops, hgbps, hanswer⟩ :=
      runLibrary_equipped hfits (hable.equipped raw hraw) hexpected
    have hpath : c.prepared.libraryArg ≠ Mode.reference.value := by
      rw [hlibrary]
      exact libraryArg_ne_reference c.sessionDir
    rw [if_neg hpath, hanswer]
    refine ⟨_, _, _, rfl, rfl, ?_⟩
    exact {
      digest := hexOf_leftpad c.expected 16
      elapsed := by simp [hable.prompt]
      gops := fun _ => by
        obtain ⟨floor, hfloor⟩ := exists_gopsFloor c.chosenTier
        rw [hfloor] at hgops ⊢
        simp [PyFloat.not_lt_of_le_roundTo 3 hgops]
      gbps := fun _ => by
        obtain ⟨floor, hfloor⟩ := exists_gbpsFloor c.chosenTier
        rw [hfloor] at hgbps ⊢
        simp [PyFloat.not_lt_of_le_roundTo 3 hgbps]
      loaded := fun _ => by
        rw [(fieldOr_answerOf _ _ _).2.2.2.2.2.2.2.2, hable.sha, hlibrary]
        rfl }
  · have hmode : c.prepared.mode ≠ .library := by
      rw [hreference]
      decide
    have hpath : c.prepared.libraryArg = Mode.reference.value := by rw [hreference]
    rw [if_pos hpath, runReference_eq hfits (hable.numpy hraw) hexpected]
    refine ⟨_, _, _, rfl, rfl, ?_⟩
    exact {
      digest := hexOf_leftpad c.expected 16
      elapsed := by simp [hable.prompt]
      gops := fun h => absurd h hmode
      gbps := fun h => absurd h hmode
      loaded := fun h => absurd h hmode }

/-- The round of a card ends without a failure. -/
theorem round_able (hfits : Fits c.request)
    (hprepared : prepare c.rig c.settings c.sessionDir = .ok c.prepared)
    (hexpected : c.expected = (Challenge.digest (BitVec.ofNat 64 c.request.seed)
      (BitVec.ofNat 64 c.request.cipher) c.request.n c.request.rounds).toNat)
    (hfloat : ∀ x, ∀ d ∈ c.settings.printer.floatText x, Printable d) (hhonest : Honest c) (i : ℕ)
    (uuid : Str) : ∃ entry, c.round i uuid = .ok ⟨some entry, none, false⟩ := by
  obtain ⟨m, hable, hreply⟩ := hhonest i uuid (argumentsOf c) (split_commandFor c uuid)
  obtain ⟨answer, mode, librarySha256, hmain, herror, haccepted⟩ :=
    main_able hfits hable hprepared hexpected
  obtain ⟨hresult, hloads⟩ := hreply _ hmain
  have hread : lastJsonObject c.settings.loads
      (resultOf c.settings.printer (answerOf answer mode librarySha256, 0)).stdout =
        .ok (some (answerOf answer mode librarySha256)) :=
    lastJsonObject_dumps hfloat hloads
  have htransport : (resultOf c.settings.printer
      (answerOf answer mode librarySha256, 0)).transportFailed = false := rfl
  have hfailure : (c.judge uuid (answerOf answer mode librarySha256) answer
      [("uuid".toList, .str uuid)]).2 = none := judge_of_accepted herror haccepted
  refine ⟨(c.judge uuid (answerOf answer mode librarySha256) answer
    [("uuid".toList, .str uuid)]).1, ?_⟩
  rw [Context.round, hresult]
  refine Fallible.bind_eq_ok.mpr ⟨_, hread, ?_⟩
  rw [htransport, if_neg Bool.false_ne_true]
  refine Fallible.bind_eq_ok.mpr ⟨answer, fromPayload_answerOf _ _ _ _, ?_⟩
  rw [← hfailure]
  rfl

/-- When the round of each card ends without a failure, so does the loop over the cards. -/
theorem eachCard_able {entries : ℕ → Str → Dict Str Json}
    (h : ∀ i uuid, c.round i uuid = .ok ⟨some (entries i uuid), none, false⟩) (uuids : List Str)
    (i : ℕ) (tally : Context.Tally) :
    ∃ final, c.eachCard i uuids tally = .ok final ∧ final.failures = tally.failures := by
  induction uuids generalizing i tally with
  | nil => exact ⟨tally, rfl, rfl⟩
  | cons uuid uuids ih =>
    obtain ⟨final, hfinal, hfailures⟩ := ih (i + 1) (tally.add ⟨some (entries i uuid), none, false⟩)
    refine ⟨final, ?_, by simpa [Context.Tally.add] using hfailures⟩
    rw [Context.eachCard]
    exact Fallible.bind_eq_ok.mpr ⟨_, h i uuid, hfinal⟩

/-- **A rig that does what it is asked passes.** If the check could prepare the rig and knows what
it expects, the numbers of the request fit their types, and the commands that it sends start the
runner on machines that can answer, then the check passes, and the entry of every card says that its
digest was right; whatever characters are in the paths and the names of the cards, in whatever order
the blocks of the device run, and with the library as well as with the reference. -/
theorem run_able {gpuUuids : List Str} (hfits : Fits c.request)
    (hprepared : prepare c.rig c.settings c.sessionDir = .ok c.prepared)
    (hexpected : Challenge.Python.expectedDigest c.settings.challengeLibrary c.request.seed
      c.request.cipher c.request.n c.request.rounds = some (.ok (c.expected, c.method)))
    (hfloat : ∀ x, ∀ d ∈ c.settings.printer.floatText x, Printable d) (hhonest : Honest c) :
    ∃ (verdict : Protocol.Verdict) (cards : List (Dict Str Json)),
      run c.rig c.settings c.sessionDir c.request c.tier gpuUuids = some (.ok verdict) ∧
      verdict.failure = none ∧
      verdict.evidence.get? "gpus".toList = some (.list (cards.map .dict)) ∧
      ∀ uuid ∈ targetsOf gpuUuids, ∃ entry ∈ cards,
        entry.get? "uuid".toList = some (.str uuid) ∧
          entry.get? "digest_ok".toList = some (.bool true) := by
  have hdigest := expected_eq hfits hexpected
  choose entries hentries using round_able hfits hprepared hdigest hfloat hhonest
  obtain ⟨final, hfinal, hfailures⟩ := eachCard_able hentries (targetsOf gpuUuids) 0 {}
  obtain ⟨-, hvouched⟩ := Context.eachCard_vouched hfinal hfailures
  refine ⟨{
      check := "challenge".toList
      failure := final.failures.head?
      evidence := c.evidence (targetsOf gpuUuids).length final },
    final.gpus, ?_, ?_, ?_, fun uuid huuid => ?_⟩
  · rw [Context.run_eq c hprepared hexpected, hfinal]
  · rw [hfailures]
    rfl
  · rfl
  · obtain ⟨entry, hentry, huuid, hok, -⟩ := hvouched uuid huuid
    exact ⟨entry, hentry, huuid, hok⟩

end Able

/-! ### A rig with a library -/

/-- A heap of zeros. -/
def sampleHeap : Heap where
  a _ := 0#32
  c _ := 0#32
  rows _ := 0#64

/-- The CUDA build on a device that runs the blocks of a launch last to first. -/
def sampleLibrary : Library where
  version := 1
  build := "miner-cuda".toList
  lastError := []
  solve seed cipher n rounds :=
    (Challenge.Cuda.mtChallengeSolve Challenge.Cuda.reversed sampleHeap seed cipher n rounds).map
      fun solved => solved.mapError Challenge.Code.value
  benchmark _ _ := .ok (.fin 60, .fin 200, .fin 30)

/-- A machine on which every file is that library. -/
def sampleMachine : Machine where
  sha := Fernet.sha256
  files _ := some [0x7f]
  load _ := .ok sampleLibrary
  missing := id
  numpy := .error "ModuleNotFoundError: No module named 'numpy'".toList
  elapsed := .fin 120

/-- What the runner is asked. -/
def sampleArguments : List Str :=
  ["/tmp/it's/libmtchallenge.so".toList, ['1'], ['2'], ['8'], ['1'], "2048".toList, "32".toList]

/-- What a runner prints that does not die. -/
def printedBy (m : Machine) (argv : List Str) : Dict Str Json × ℤ :=
  (main m argv).getD ([], 0)

theorem printedBy_eq {m : Machine} {argv : List Str} {printed : Dict Str Json × ℤ}
    (h : main m argv = some printed) : printedBy m argv = printed := by
  rw [printedBy, h, Option.getD_some]

/-- What it prints. -/
def samplePrinted : Dict Str Json × ℤ :=
  printedBy sampleMachine (runnerName :: sampleArguments)

/-- A session in which every command prints this. -/
def printing (printed : Dict Str Json × ℤ) : ChallengeCheck.Rig where
  upload _ := none
  reply _ _ := .ok (resultOf asciiPrinter printed)

/-- A `json.loads` for what this prints. -/
def loadsPrinted (printed : Dict Str Json × ℤ) (text : Str) : Except Exn Json :=
  if text = dumps asciiPrinter (.dict printed.1) then .ok (.dict printed.1) else .error .value

/-- It comes back, and is read as it was printed. -/
theorem printing_read (printed : Dict Str Json × ℤ) (i : ℕ) (command : Str) :
    (printing printed).reply i command = .ok (resultOf asciiPrinter printed) ∧
      loadsPrinted printed (dumps asciiPrinter (.dict printed.1)) = .ok (.dict printed.1) :=
  ⟨rfl, if_pos rfl⟩

/-- The check of a rig with such a machine, with a quote in the path. -/
def sampleContext : Context where
  rig := printing samplePrinted
  settings := {
    printer := asciiPrinter
    loads := loadsPrinted samplePrinted
    sha := Fernet.sha256
    python := "python3".toList
    agentLibrary := some [0x7f]
    agentLibraryPath := "libmtchallenge.so".toList
    allowReferenceChallenge := false
    challengeLibrary := .absent
    challengeMaxMs := .fin 15000 }
  sessionDir := "/tmp/it's".toList
  request := { seed := 1, cipher := 2, n := 8, rounds := 1 }
  tier := none
  prepared := ⟨.library, Base64.hexText (Fernet.sha256.digest [0x7f]),
    "/tmp/it's/libmtchallenge.so".toList⟩
  expected := referenceDigest 1 2 8 1
  method := .reference

/-- The sample machine can run the challenge. -/
theorem able_sampleMachine : Able sampleContext sampleMachine where
  sha := rfl
  prompt := by decide +kernel
  equipped raw hraw := by
    obtain rfl := Option.some.inj hraw
    exact ⟨rfl, sampleLibrary, Challenge.Cuda.reversed, sampleHeap, .fin 60, .fin 200, .fin 30, rfl,
      fun _ _ _ _ => rfl, ⟨rfl, rfl, rfl, rfl, rfl, rfl, rfl, rfl⟩, rfl, by decide +kernel,
      by decide +kernel⟩
  numpy hraw := absurd hraw (by simp [sampleContext])

/-- A session that gives what the runner prints on a machine that can answer. -/
theorem honest_of_printing {c : Context} {m : Machine} {printed : Dict Str Json × ℤ}
    (hable : Able c m) (hmain : printedBy m (runnerName :: argumentsOf c) = printed)
    (hrig : c.rig = printing printed) (hprinter : c.settings.printer = asciiPrinter)
    (hloads : c.settings.loads = loadsPrinted printed) : Honest c := by
  intro i uuid arguments hsplit
  obtain rfl : argumentsOf c = arguments :=
    wordsOf_injective c uuid (Option.some.inj ((split_commandFor c uuid).symm.trans hsplit))
  refine ⟨m, hable, fun printed' hprinted => ?_⟩
  obtain rfl : printed' = printed := (printedBy_eq hprinted).symm.trans hmain
  rw [hrig, hprinter, hloads]
  exact printing_read printed' i _

/-- The host of the sample context is honest. -/
theorem honest_sampleContext : Honest sampleContext := by
  have harguments : argumentsOf sampleContext = sampleArguments := by decide +kernel
  have hmain : printedBy sampleMachine (runnerName :: argumentsOf sampleContext) =
      samplePrinted := by
    rw [harguments]
    rfl
  exact honest_of_printing able_sampleMachine hmain rfl rfl rfl

/-- What is printed of a float, besides its digits. -/
theorem printable_of_mem_words {word : Str}
    (h : word ∈ [".0".toList, "-inf".toList, "inf".toList, "nan".toList]) :
    ∀ d ∈ word, Printable d := by
  have hall : [".0".toList, "-inf".toList, "inf".toList, "nan".toList].all (fun word =>
      word.all fun d => decide (Printable d)) = true := by decide
  intro d hd
  exact of_decide_eq_true (List.all_eq_true.mp (List.all_eq_true.mp hall word h) d hd)

/-- A number is printed in printable characters. -/
theorem printable_of_mem_floatText (x : PyFloat) :
    ∀ d ∈ asciiPrinter.floatText x, Printable d := by
  intro d hd
  cases x with
  | fin q =>
    rcases List.mem_append.mp hd with hd | hd
    · exact printable_of_mem_intText hd
    · exact printable_of_mem_words (by simp) d hd
  | inf negative =>
    cases negative with
    | true => exact @printable_of_mem_words "-inf".toList (by simp) d hd
    | false => exact @printable_of_mem_words "inf".toList (by simp) d hd
  | nan => exact @printable_of_mem_words "nan".toList (by simp) d hd

/-- Without a library of its own, the validator expects what the reference computes. -/
theorem expectedDigest_absent (seed cipher n rounds : ℕ) :
    Challenge.Python.expectedDigest .absent seed cipher n rounds =
      some (.ok (referenceDigest seed cipher n rounds, .reference)) :=
  rfl

theorem run_able_sample :
    ∃ (verdict : Protocol.Verdict) (cards : List (Dict Str Json)),
      run sampleContext.rig sampleContext.settings sampleContext.sessionDir sampleContext.request
        sampleContext.tier ["GPU-a".toList, "GPU-b".toList] = some (.ok verdict) ∧
      verdict.failure = none ∧
      verdict.evidence.get? "gpus".toList = some (.list (cards.map .dict)) ∧
      ∀ uuid ∈ targetsOf ["GPU-a".toList, "GPU-b".toList], ∃ entry ∈ cards,
        entry.get? "uuid".toList = some (.str uuid) ∧
          entry.get? "digest_ok".toList = some (.bool true) := by
  have hprepared : prepare sampleContext.rig sampleContext.settings sampleContext.sessionDir =
      .ok sampleContext.prepared := rfl
  have hexpected : Challenge.Python.expectedDigest sampleContext.settings.challengeLibrary
      sampleContext.request.seed sampleContext.request.cipher sampleContext.request.n
      sampleContext.request.rounds =
        some (.ok (sampleContext.expected, sampleContext.method)) :=
    expectedDigest_absent 1 2 8 1
  have hfits : Fits sampleContext.request :=
    ⟨by decide, by decide, by decide, by decide, by decide⟩
  exact run_able hfits hprepared hexpected printable_of_mem_floatText honest_sampleContext

end ComputePool.Validator.Verify.ChallengeRunner
