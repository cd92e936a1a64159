import ComputePool.Validator.Session.Client
import ComputePool.Validator.Verify.Scrape

/-!
# The scrape check

`run` of `validator/verify/scrape.py`: the rewritten payload is run on the rig, the last token it
prints under the key of this run is decrypted, and the specification of the rig is made of what it
says. How tokens and cards are read is in `Validator/Verify/Scrape.lean`.

* `restore_cards`: the cards of a scrape are dictionaries.
* `run_eq_ok`: when the check passes there is a scrape.
-/

namespace ComputePool.Validator.Verify.ScrapeCheck

open Text Numeral Base64 Protocol Scrape
open Json (Printer Raised field)
open ChallengeCheck (Settings CheckExn classify)

/-! ## Errors of the payload -/

/-- The loop of `error_line`, over the lines from the last one on. -/
def errorFrom (settings : Settings) : List Str → Except Exn Str
  | [] => .ok []
  | line :: lines =>
    let clean := strip line
    if startsWith clean "\x7b\x22error\x22:".toList then
      match settings.loads clean with
      | .ok (.dict fields) => match Dict.get? fields "error".toList with
        | some error => .ok (error.toStr settings.printer)
        | none => errorFrom settings lines
      | .ok _ | .error .value => errorFrom settings lines
      | .error e => .error e
    else errorFrom settings lines

/-- `error_line`. -/
def errorLine (settings : Settings) (stdout : Str) : Except Exn Str :=
  errorFrom settings (splitLines (stdout.drop (stdout.length - scanBytes))).reverse

/-- `decrypt`, with the exceptions of `json.loads` that it does not catch. -/
def decryptRaising (fernet : Str → Str → Option Octets) (loads : Octets → Except Exn Json)
    (key : Str) : List Str → Except Exn (Option (Dict Str Json))
  | [] => .ok none
  | token :: tokens =>
    match (fernet key token).map loads with
    | some (.ok (.dict parsed)) => .ok (some parsed)
    | none | some (.ok _) | some (.error .value) => decryptRaising fernet loads key tokens
    | some (.error e) => .error e

/-! ## The specification -/

/-- A part of a dotted address: up to three digits without a zero in front. -/
def octetOf (part : Str) : Option ℕ :=
  if part ≠ [] ∧ part.length ≤ 3 ∧ part.all Char.isDigit ∧
      (part = ['0'] ∨ part.head? ≠ some '0') then
    (intOf part).bind fun n => if n ≤ 255 then some n.toNat else none
  else none

/-- `ipaddress.ip_address(address)`, if that is an address of version 4. -/
def ipv4Of (address : Str) : Option ℕ :=
  match address.splitOn '.' with
  | [a, b, c, d] => do
    return ((← octetOf a) * 256 + (← octetOf b)) * 65536 + (← octetOf c) * 256 + (← octetOf d)
  | _ => none

/-- `PRIVATE_NETWORKS`: the first address and the bits in front that count. -/
def privateNetworks : List (ℕ × ℕ) :=
  [(0x0a000000, 8), (0xac100000, 12), (0xc0a80000, 16), (0x64400000, 10), (0x7f000000, 8),
    (0xa9fe0000, 16)]

/-- `is_public`. -/
def isPublic (address : Str) : Bool :=
  match ipv4Of address with
  | none => false
  | some ip => privateNetworks.all fun network =>
      ip / 2 ^ (32 - network.2) ≠ network.1 / 2 ^ (32 - network.2)

/-- `value.get(key) or {}`. -/
def part (value : Json) (key : String) : Except Raised Json := do
  return (← value.get key.toList .null).orElse (.dict [])

/-- `str(value.get(key, "") or "")`. -/
def textOf (p : Printer) (value : Json) (key : String) : Except Raised Json := do
  return .str ((← value.get key.toList (.str [])).textOr p)

/-- `bool(value.get(key, False))`. -/
def flagOf (value : Json) (key : String) : Except Raised Json := do
  return .bool (← value.get key.toList (.bool false)).truthy

/-- `int(value.get(key) or 0)`. -/
def countOf (value : Json) (key : String) : Except Raised Json := do
  return .int (← ((← value.get key.toList .null).orElse (.int 0)).toInt)

/-- The cards of a scrape: `restore` leaves only dictionaries in the list. -/
def cardsIn (data : Dict Str Json) : List (Dict Str Json) :=
  match field data "gpus" .null with
  | .list items => items.filterMap fun item => match item with
    | .dict card => some card
    | _ => none
  | _ => []

/-- The entry of a card in the specification, if it has a uuid. -/
def specCard (p : Printer) (card : Dict Str Json) : Except Raised (Option Json) := do
  let uuid := field card "uuid" .null
  if !uuid.truthy then return none
  return some (.dict [("model".toList, ← textOf p (.dict card) "name"),
    ("memory_mb".toList, ← countOf (.dict card) "memory_total_mb"),
    ("uuid".toList, .str (uuid.toStr p))])

/-- `build_spec`. -/
def buildSpec (p : Printer) (data : Dict Str Json) (address portRange : Str) :
    Except Raised (Dict Str Json) := do
  let host := (field data "host" .null).orElse (.dict [])
  let nvml := (field data "nvml" .null).orElse (.dict [])
  let docker := (field data "docker" .null).orElse (.dict [])
  let probes := (field data "probes" .null).orElse (.dict [])
  -- the disk of Docker, or that of the root when there is none
  let disk ← part host "disk"
  let volume := ((← disk.get "docker_root".toList .null).orElse
    (← disk.get "root".toList .null)).orElse (.dict [])
  let gpus := (← (cardsIn data).mapM (specCard p)).reduceOption
  let sysbox ← flagOf (← part probes "sysbox") "ok"
  let idmapped ← flagOf (← part probes "idmapped") "idmapped"
  let rotational ← volume.get "rotational".toList .null
  let os ← part host "os"
  return [("gpus".toList, .list gpus),
    ("cpu_cores".toList, ← countOf (← part host "cpu") "count"),
    ("ram_mb".toList, ← countOf (← part host "memory") "total_mb"),
    ("disk_gb".toList, .float (← ((← volume.get "total_gb".toList .null).orElse
      (.float (.fin 0))).toFloat)),
    -- a disk is taken for an SSD unless it says that it rotates
    ("disk_ssd".toList, .bool (match rotational with
      | .bool b => !b
      | _ => true)),
    ("os".toList, ← textOf p os "id"),
    ("os_version".toList, ← textOf p os "version"),
    ("kernel".toList, ← textOf p host "kernel"),
    ("arch".toList, ← textOf p host "arch"),
    ("driver".toList, ← textOf p nvml "driver"),
    ("cuda".toList, ← textOf p nvml "cuda"),
    ("isolation".toList, .dict [("sysbox".toList, sysbox), ("idmapped".toList, idmapped)]),
    ("storage_quota".toList, ← flagOf (← part probes "storage_quota") "ok"),
    ("hostname".toList, ← textOf p host "hostname"),
    ("public_ipv4".toList, .bool (isPublic address)),
    ("port_range".toList, .str portRange),
    ("docker_runtimes".toList, .list (← ((← docker.get "runtimes".toList .null).orElse
      (.list [])).iter))]

/-! ## The check -/

/-- `ScrapeResult`; the names are not looked at again. -/
structure ScrapeResult where
  verdict : Verdict
  data : Option (Dict Str Json) := none
  spec : Option (Dict Str Json) := none

/-- A result without data. -/
def failed (evidence : Dict Str Json) (failure : Failure) : ScrapeResult where
  verdict := { check := "scrape".toList, failure := some failure, evidence }

/-- What the validator takes from elsewhere for the scrape: the decryption of a token, and
`json.loads` of what it decrypts to. -/
structure Reader where
  fernet : Str → Str → Option Octets
  loads : Octets → Except Exn Json

/-- The lines of `run` about data that could be decrypted. -/
def received (settings : Settings) (session : Session) (names : Dict Str Str)
    (evidence : Dict Str Json) (tokens : ℕ) (data : Dict Str Json) :
    Except Raised ScrapeResult := do
  let restored ← restore data names
  let spec ← buildSpec settings.printer restored session.address session.grant.portRange
  let nvml ← part (.dict restored) "nvml"
  let errors ← ((← nvml.get "errors".toList .null).orElse (.list [])).iter
  let cards ← (field spec "gpus" .null).len
  let driver := (field spec "driver" .null).textOr settings.printer
  return {
    verdict := {
      check := "scrape".toList
      evidence := evidence ++ [("summary".toList, .str (natText cards ++ " cards, driver ".toList ++
          if driver ≠ [] then driver else "unknown".toList)),
        ("elapsed_ms".toList, field restored "elapsed_ms" .null),
        ("candidates".toList, .int tokens),
        ("nvml_errors".toList, .list errors)] }
    data := some restored
    spec := some spec }

/-- The failure of a command that ended well, but printed nothing that decrypts. -/
def unread (result : CommandResult) (tokens : List Str) (seed : Str) : Failure where
  kind := .agentCrash
  detail := if tokens = [] then
      "the scrape produced no output the validator could decrypt".toList
    else "no scrape token decrypted with the job key".toList
  seed := seed
  evidence := [("candidates".toList, .int tokens.length),
    ("stderr".toList, .str (result.stderrTail 400))]

/-- `run`, given the result of the command on the rewritten payload. -/
def run (settings : Settings) (reader : Reader) (session : Session) (prepared : Obfuscated)
    (reply : Str → Str → CommandResult) (seed : Str) : Except PassExn ScrapeResult := do
  let result := reply (Shlex.quote session.python ++ " -I -".toList) prepared.source
  let evidence := [("stdout_bytes".toList, Json.int result.stdout.length)]
  -- a failure of the transport comes first, then what the payload reports
  if result.transportFailed then
    return failed evidence { kind := .sshTransport, detail := result.error, seed }
  let reported ← (errorLine settings result.stdout).mapError fun e => .check (.exn e)
  if reported ≠ [] then
    return failed evidence {
      kind := .agentCrash
      detail := "the scrape reported: ".toList ++ reported.take 300
      seed }
  let tokens := candidates result.stdout
  let data ← (decryptRaising reader.fernet reader.loads prepared.key tokens).mapError
    fun e => .check (.exn e)
  -- without a token that decrypts, the exit of the command says why
  match data with
  | none =>
    return failed evidence ((classify result seed).getD (unread result tokens seed))
  | some data =>
    (received settings session prepared.names evidence tokens.length data).mapError .raised

/-! ## What the check hands on -/

/-- The list of a restored scrape is that of its cards. -/
theorem restore_cards {found data : Dict Str Json} {names : Dict Str Str}
    (h : restore found names = .ok data) :
    field data "gpus" .null = .list ((cardsIn data).map .dict) := by
  obtain ⟨items, -, h⟩ := Fallible.bind_eq_ok.mp h
  obtain rfl := Except.ok.inj h
  have hcards : field (found.set "gpus".toList (.list (items.filterMap (restoreItem names)))) "gpus"
      .null = .list (items.filterMap (restoreItem names)) := by
    rw [field, Dict.get?_set, if_pos rfl, Option.getD_some]
  rw [cardsIn, hcards]
  dsimp only
  rw [List.filterMap_filterMap, List.map_filterMap]
  congr 2
  funext item
  cases item <;> rfl

/-- The check names itself, and when it passes there is a scrape and a specification. -/
theorem run_eq_ok {settings : Settings} {reader : Reader} {session : Session}
    {prepared : Obfuscated} {reply : Str → Str → CommandResult} {seed : Str}
    {result : ScrapeResult} (h : run settings reader session prepared reply seed = .ok result) :
    result.verdict.check = "scrape".toList ∧
      (result.verdict.failure = none → ∃ data spec, result.data = some data ∧
        result.spec = some spec ∧ field data "gpus" .null = .list ((cardsIn data).map .dict)) := by
  unfold run at h
  dsimp only at h
  -- every way out without data is a failure
  split_ifs at h
  · obtain rfl := Except.ok.inj h
    exact ⟨rfl, nofun⟩
  · obtain ⟨reported, -, h⟩ := Fallible.bind_eq_ok.mp h
    split_ifs at h
    · obtain rfl := Except.ok.inj h
      exact ⟨rfl, nofun⟩
    · obtain ⟨data, -, h⟩ := Fallible.bind_eq_ok.mp h
      cases data with
      | none =>
        obtain rfl := Except.ok.inj h
        exact ⟨rfl, nofun⟩
      | some data =>
        -- the verdict on data has no failure
        have h := Fallible.mapError_eq_ok.mp h
        obtain ⟨restored, hrestored, h⟩ := Fallible.bind_eq_ok.mp h
        obtain ⟨spec, -, h⟩ := Fallible.bind_eq_ok.mp h
        obtain ⟨nvml, -, h⟩ := Fallible.bind_eq_ok.mp h
        obtain ⟨listed, -, h⟩ := Fallible.bind_eq_ok.mp h
        obtain ⟨errors, -, h⟩ := Fallible.bind_eq_ok.mp h
        obtain ⟨cards, -, h⟩ := Fallible.bind_eq_ok.mp h
        obtain rfl := Except.ok.inj h
        exact ⟨rfl, fun _ => ⟨restored, spec, rfl, rfl, restore_cards hrestored⟩⟩

end ComputePool.Validator.Verify.ScrapeCheck
