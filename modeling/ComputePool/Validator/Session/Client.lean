import ComputePool.Validator.Verify.ChallengeCheck

/-!
# Sessions on a rig

`AgentClient` and `Session` of `validator/session/client.py`, with `SessionGrant.from_payload` of
`protocol/session.py` and `Attestation.from_payload` of `protocol/attestation.py`. What an agent
answers to a request is a parameter: an object, or the `AgentError` of the call. So is the error
of the connection, if there is one.
-/

namespace ComputePool.Validator

open Text Numeral Protocol Base64
open Json (Printer Raised caught field)
open Verify (Fernet.Sha256)
open Verify.ChallengeCheck (SshError CheckExn fieldOr)

/-- `AgentError`. -/
structure AgentError where
  kind : FailureClass
  detail : Str

/-- `AgentError.failure`. -/
def AgentError.failure (e : AgentError) (seed : Str) : Failure where
  kind := e.kind
  detail := e.detail
  seed := seed

/-- The exceptions of a deep pass. -/
inductive PassExn
  | agent (e : AgentError)
  | check (e : CheckExn)
  | raised (e : Raised)
  /-- The verify library has left its memory. -/
  | died

/-! ## Reaching the agent -/

/-- What `connection_of` returns. -/
structure Connection where
  address : Str
  apiPort : ℤ
  sshPort : ℤ

/-- A port of the connection; what is not a number counts as none. -/
def portOf (connection : Json) (key : String) : Except Raised ℤ := do
  let raw ← connection.get key.toList (.int 0)
  caught 0 (raw.orElse (.int 0)).toInt

/-- `connection_of`. -/
def connectionOf (p : Printer) (rig : Dict Str Json) : Except Raised Connection := do
  let connection := (field rig "connection" .null).orElse (.dict [])
  let address ← connection.get "address".toList (.str [])
  let apiPort ← portOf connection "api_port"
  let sshPort ← portOf connection "ssh_port"
  return { address := address.textOr p, apiPort, sshPort }

/-- `AgentClient.call`: without an address on record nobody is asked. -/
def call (p : Printer) (rig : Dict Str Json) (answer : Except AgentError (Dict Str Json)) :
    Except Raised (Except AgentError (Dict Str Json)) := do
  let connection ← connectionOf p rig
  if connection.address = [] ∨ connection.apiPort = 0 then
    return .error ⟨.sshTransport, "the rig has no address or api port on record".toList⟩
  return answer

/-! ## Grants and attestations -/

/-- `SessionGrant.from_payload`. -/
def grantOf (p : Printer) (payload : Dict Str Json) :
    Except Raised (SessionGrant Str (Dict Str Json)) := do
  let text (key : String) : Str := (field payload key (.str [])).toStr p
  -- `int` of the port is the one conversion that may raise
  let sshPort ← (fieldOr payload "ssh_port" (.int 22)).toInt
  return {
    sshUsername := text "ssh_username"
    sshPort
    sshHostKey := text "ssh_host_key"
    pythonPath := (fieldOr payload "python_path" (.str "python3".toList)).toStr p
    rootDir := (fieldOr payload "root_dir" (.str "/tmp".toList)).toStr p
    portRange := text "port_range"
    validator := text "validator"
    expiresAt := text "expires_at"
    gpuAttestation := match field payload "gpu_attestation" .null with
      | .dict attestation => attestation
      | _ => []
    tdxQuote := (field payload "tdx_quote" (.str [])).textOr p
    sessionId := (field payload "session_id" (.str [])).textOr p }

/-- `GpuEvidence`, without the texts that nothing reads. -/
structure GpuEvidence where
  uuid : Str
  memoryMb : ℤ
  index : ℤ

/-- `GpuEvidence.from_payload`. -/
def gpuEvidenceOf (p : Printer) (payload : Dict Str Json) : Except Raised GpuEvidence := do
  let number (key : String) : Except Raised ℤ := caught 0 (fieldOr payload key (.int 0)).toInt
  let memoryMb ← number "memory_mb"
  let index ← number "index"
  return { uuid := (field payload "uuid" (.str [])).toStr p, memoryMb, index }

/-- `Attestation`, without the evidence that nothing reads. -/
structure Attestation where
  nonce : Str
  agentVersion : Str
  hostname : Str
  gpus : List GpuEvidence
  driver : Str
  cuda : Str
  machineId : Str
  bootId : Str
  reportDataHex : Str
  tdxQuote : Str
  generatedAt : PyFloat

/-- `Attestation.from_payload`. -/
def attestationOf (p : Printer) (payload : Dict Str Json) : Except Raised Attestation := do
  -- entries that are no dictionaries are left out
  let gpus ← match field payload "gpus" .null with
    | .list items => (items.filterMap fun item => match item with
      | .dict card => some card
      | _ => none).mapM (gpuEvidenceOf p)
    | _ => .ok []
  let generatedAt ← caught (.fin 0) (fieldOr payload "generated_at" (.float (.fin 0))).toFloat
  let text (key : String) : Str := (field payload key (.str [])).textOr p
  return {
    nonce := (field payload "nonce" (.str [])).toStr p
    agentVersion := (field payload "agent_version" (.str [])).toStr p
    hostname := (field payload "hostname" (.str [])).toStr p
    gpus
    driver := text "driver"
    cuda := text "cuda"
    machineId := text "machine_id"
    bootId := text "boot_id"
    reportDataHex := text "report_data"
    tdxQuote := text "tdx_quote"
    generatedAt }

/-- `Attestation.bound_to`. -/
def Attestation.boundTo (attestation : Attestation) (nonce : Str) : Bool :=
  nonce ≠ [] && attestation.nonce = nonce

/-- The white space of `bytes.fromhex`. -/
def isHexBlank (c : Char) : Bool :=
  c = ' ' || (0x9 ≤ c.toNat && c.toNat ≤ 0xd)

/-- The value of an ASCII digit in base 16. -/
def hexDigit (c : Char) : Option ℕ :=
  if c.toNat < 0x80 then digitValue 16 c else none

/-- `bytes.fromhex(text)`: pairs of digits, with white space between the pairs; `none` for the
`ValueError`. -/
def fromHex : Str → Option Octets
  | [] => some []
  | [c] => if isHexBlank c then some [] else none
  | c :: d :: rest =>
    if isHexBlank c then fromHex (d :: rest)
    else do
      let high ← hexDigit c
      let low ← hexDigit d
      return (16 * high + low) :: (← fromHex rest)

/-- `report_data`. -/
def reportData (sha : Fernet.Sha256) (hostKey nonceHex : Str) : Octets :=
  let identity := sha.digest (utf8 ("SSH_HOST_KEY:".toList ++ strip hostKey))
  let freshness := (fromHex nonceHex).getD []
  identity ++ if freshness.length = 32 then freshness else List.replicate 32 0

/-- `report_data_matches`. -/
def reportDataMatches (sha : Fernet.Sha256) (data : Octets) (hostKey nonceHex : Str) : Bool :=
  64 ≤ data.length && data.take 64 = reportData sha hostKey nonceHex

/-! ## The session -/

/-- `Session`. -/
structure Session where
  address : Str
  grant : SessionGrant Str (Dict Str Json)
  nonce : Str
  attestation : Attestation
  bound : Bool
  reportDataOk : Option Bool

namespace Session

/-- `Session.python`. -/
def python (session : Session) : Str :=
  if session.grant.pythonPath ≠ [] then session.grant.pythonPath else "python3".toList

/-- `attestation_summary`. -/
def attestationSummary (session : Session) : Dict Str Json :=
  let a := session.attestation
  [("bound".toList, .bool session.bound),
    ("report_data_ok".toList, match session.reportDataOk with
      | some ok => .bool ok
      | none => .null),
    ("nonce_matches".toList, .bool (a.nonce = session.nonce)),
    ("agent_version".toList, .str a.agentVersion),
    ("hostname".toList, .str a.hostname),
    ("gpus".toList, .int a.gpus.length),
    ("driver".toList, .str a.driver),
    ("cuda".toList, .str a.cuda),
    ("machine_id".toList, .str a.machineId),
    ("boot_id".toList, .str a.bootId),
    ("tdx_quote".toList, .bool (a.tdxQuote ≠ [] ∨ session.grant.tdxQuote ≠ [])),
    ("session_id".toList, .str session.grant.sessionId),
    ("expires_at".toList, .str session.grant.expiresAt)]

/-- `attestation_verdict`. -/
def attestationVerdict (session : Session) (seed : Str) : Verdict where
  check := "attestation".toList
  failure :=
    if !session.bound then some {
      kind := .specMismatch
      detail := "the attestation is not bound to the session nonce".toList
      seed
      evidence := [("attestation_nonce".toList, .str (session.attestation.nonce.take 16)),
        ("expected".toList, .str (session.nonce.take 16))] }
    else if session.reportDataOk = some false then some {
      kind := .specMismatch
      detail := "the attestation report data does not match the host key and nonce".toList
      seed }
    else none
  evidence := session.attestationSummary ++ [("summary".toList,
    .str (if session.bound then "bound to the session nonce".toList else "not bound".toList))]

end Session

/-- `AgentClient.open`, up to where the session is handed over. -/
def openSession (p : Printer) (sha : Fernet.Sha256) (rig : Dict Str Json) (nonce : Str)
    (answer : Except AgentError (Dict Str Json)) (connect : Option SshError) :
    Except PassExn Session := do
  let connection ← (connectionOf p rig).mapError .raised
  let answer ← (← (call p rig answer).mapError .raised).mapError .agent
  let grant ← (grantOf p answer).mapError .raised
  -- the grant is judged before its attestation is read
  if grant.sshUsername = [] then
    throw (.agent ⟨.sshTransport, "the grant names no ssh user".toList⟩)
  if grant.sshHostKey = [] then
    throw (.agent ⟨.sshTransport, "the grant carries no host key".toList⟩)
  let attestation ← (attestationOf p grant.gpuAttestation).mapError .raised
  let reportDataOk := if attestation.reportDataHex = [] then none
    else some (((fromHex attestation.reportDataHex).map fun data =>
      reportDataMatches sha data grant.sshHostKey nonce).getD false)
  -- the connection comes last
  match connect with
  | some e => throw (.agent ⟨e.kind, e.detail⟩)
  | none => return {
      address := connection.address
      grant
      nonce
      attestation
      bound := attestation.boundTo nonce
      reportDataOk }

end ComputePool.Validator
