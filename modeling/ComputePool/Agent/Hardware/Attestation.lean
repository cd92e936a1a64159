import ComputePool.Validator.Session.Client

/-!
# The attestation of a rig

`build` of `agent/hardware/attestation.py`: what an agent says of its hardware when a session is
opened, tied to the nonce of the session and to the host key of its ssh server. What it reads from
the hardware, from the files of the host and from the quoting service is given.

* `build` and `payload`: the attestation, and what goes over the wire.
* `attestationOf_payload`: what the validator reads is what the agent wrote.
-/

namespace ComputePool.Agent.Hardware

open Text Numeral Protocol Base64
open Json (Printer Raised caught field)
open ComputePool.Validator (reportData)
open ComputePool.Validator.Verify (Fernet.Sha256)

/-- `GpuEvidence`. -/
structure GpuEvidence where
  uuid : Str
  model : Str
  memoryMb : ℤ
  index : ℤ := 0
  serial : Str := []
  pciBusId : Str := []
  migMode : Str := []
  virtualization : Str := []
  driver : Str := []
  cuda : Str := []

/-- `GpuEvidence.payload`. -/
def GpuEvidence.payload (g : GpuEvidence) : Dict Str Json :=
  [("uuid".toList, .str g.uuid), ("model".toList, .str g.model),
    ("memory_mb".toList, .int g.memoryMb), ("index".toList, .int g.index),
    ("serial".toList, .str g.serial), ("pci_bus_id".toList, .str g.pciBusId),
    ("mig_mode".toList, .str g.migMode), ("virtualization".toList, .str g.virtualization),
    ("driver".toList, .str g.driver), ("cuda".toList, .str g.cuda)]

/-- `GpuEvidence.from_payload`. -/
def GpuEvidence.fromPayload (p : Printer) (payload : Dict Str Json) :
    Except Raised GpuEvidence := do
  let number (key : String) := caught 0 ((field payload key (.int 0)).orElse (.int 0)).toInt
  let text (key : String) : Str := (field payload key (.str [])).textOr p
  let memoryMb ← number "memory_mb"
  let index ← number "index"
  return {
    uuid := (field payload "uuid" (.str [])).toStr p
    model := (field payload "model" (.str [])).toStr p
    memoryMb, index
    serial := text "serial"
    pciBusId := text "pci_bus_id"
    migMode := text "mig_mode"
    virtualization := text "virtualization"
    driver := text "driver"
    cuda := text "cuda" }

/-- `Attestation`. -/
structure Attestation where
  nonce : Str
  agentVersion : Str
  hostname : Str
  gpus : List GpuEvidence := []
  driver : Str := []
  cuda : Str := []
  machineId : Str := []
  bootId : Str := []
  hostKey : Str := []
  reportDataHex : Str := []
  tdxQuote : Str := []
  gpuEvidence : Dict Str Json := []
  generatedAt : ℚ := 0

/-- `Attestation.payload`. -/
def Attestation.payload (a : Attestation) : Dict Str Json :=
  [("nonce".toList, .str a.nonce), ("agent_version".toList, .str a.agentVersion),
    ("hostname".toList, .str a.hostname),
    ("gpus".toList, .list (a.gpus.map fun gpu => .dict gpu.payload)),
    ("driver".toList, .str a.driver), ("cuda".toList, .str a.cuda),
    ("machine_id".toList, .str a.machineId), ("boot_id".toList, .str a.bootId),
    ("host_key".toList, .str a.hostKey), ("report_data".toList, .str a.reportDataHex),
    ("tdx_quote".toList, .str a.tdxQuote), ("gpu_evidence".toList, .dict a.gpuEvidence),
    ("generated_at".toList, .float (.fin a.generatedAt))]

/-- What `build` finds on its host. -/
structure Host where
  agentVersion : Str
  hostname : Str
  /-- The cards of `nvml.inventory()`. -/
  cards : List (Dict Str Json) := []
  driver : Str := []
  cuda : Str := []
  machineId : Str := []
  bootId : Str := []
  /-- `host_key_line(settings.ssh_host_key)`. -/
  hostKey : Str := []
  /-- `tdx_quote`. -/
  tdxQuote : Octets → Str := fun _ => []
  /-- `gpu_evidence`. -/
  gpuEvidence : Str → Dict Str Json := fun _ => []
  now : ℚ := 0

/-- `build`: the nonce is looked at once more. -/
def build (p : Printer) (sha : Fernet.Sha256) (host : Host) (nonce hostKey : Str) :
    Except Raised (Option Attestation) :=
  let nonce := (strip nonce).map Char.toLower
  if wellFormedNonce nonce then do
    let keyLine := if hostKey = [] then host.hostKey else hostKey
    let data := reportData sha keyLine nonce
    let gpus ← host.cards.mapM (GpuEvidence.fromPayload p)
    return some {
      nonce
      agentVersion := host.agentVersion
      hostname := host.hostname
      gpus
      driver := host.driver
      cuda := host.cuda
      machineId := host.machineId
      bootId := host.bootId
      hostKey := keyLine
      reportDataHex := hexText data
      tdxQuote := host.tdxQuote data
      gpuEvidence := host.gpuEvidence nonce
      generatedAt := host.now }
  else return none

/-! ## Over the wire -/

variable {p : Printer}

/-- What a validator keeps of a card. -/
def GpuEvidence.seen (g : GpuEvidence) : Validator.GpuEvidence where
  uuid := g.uuid
  memoryMb := g.memoryMb
  index := g.index

/-- What a validator keeps of an attestation. -/
def Attestation.seen (a : Attestation) : Validator.Attestation where
  nonce := a.nonce
  agentVersion := a.agentVersion
  hostname := a.hostname
  gpus := a.gpus.map GpuEvidence.seen
  driver := a.driver
  cuda := a.cuda
  machineId := a.machineId
  bootId := a.bootId
  reportDataHex := a.reportDataHex
  tdxQuote := a.tdxQuote
  generatedAt := .fin a.generatedAt

/-- An integer is read back, zero through the default. -/
theorem toInt_orElse (n : ℤ) : ((Json.int n).orElse (.int 0)).toInt = .ok n := by
  by_cases hn : n = 0
  · subst hn
    rfl
  · simp [Json.orElse, Json.truthy, hn, Json.toInt]

/-- `float(value or 0.0)` of a finite number. -/
theorem toFloat_orElse (q : ℚ) :
    ((Json.float (.fin q)).orElse (.float (.fin 0))).toFloat = .ok (.fin q) := by
  by_cases hq : q = 0
  · subst hq
    rfl
  · simp [Json.orElse, Json.truthy, hq, Json.toFloat]

/-- What the agent sends of a card is what the validator reads of it. -/
theorem gpuEvidenceOf_payload (g : GpuEvidence) :
    Validator.gpuEvidenceOf p g.payload = .ok g.seen := by
  have hmemory : Validator.Verify.ChallengeCheck.fieldOr g.payload "memory_mb" (.int 0) =
      (Json.int g.memoryMb).orElse (.int 0) := rfl
  have hindex : Validator.Verify.ChallengeCheck.fieldOr g.payload "index" (.int 0) =
      (Json.int g.index).orElse (.int 0) := rfl
  simp only [Validator.gpuEvidenceOf, hmemory, hindex, toInt_orElse]
  rfl

/-- Likewise for the whole list of cards. -/
theorem mapM_gpuEvidenceOf (gpus : List GpuEvidence) :
    (gpus.map GpuEvidence.payload).mapM (Validator.gpuEvidenceOf p) =
      .ok (gpus.map GpuEvidence.seen) := by
  induction gpus with
  | nil => rfl
  | cons gpu gpus ih =>
    rw [List.map_cons, List.mapM_cons, gpuEvidenceOf_payload, ih]
    rfl

/-- Each card of the payload is a dictionary, so none is left out. -/
theorem filterMap_cards {cards : Json → Option (Dict Str Json)}
    (hcards : ∀ card, cards (.dict card) = some card) (gpus : List GpuEvidence) :
    (gpus.map fun gpu => Json.dict gpu.payload).filterMap cards =
      gpus.map GpuEvidence.payload := by
  induction gpus with
  | nil => rfl
  | cons gpu gpus ih =>
    rw [List.map_cons, List.filterMap_cons_some (hcards gpu.payload), ih, List.map_cons]

/-- A validator reads what the agent has written. -/
theorem attestationOf_payload (a : Attestation) :
    Validator.attestationOf p a.payload = .ok a.seen := by
  have hgpus : field a.payload "gpus" .null = .list (a.gpus.map fun gpu => .dict gpu.payload) := rfl
  have hgenerated : Validator.Verify.ChallengeCheck.fieldOr a.payload "generated_at"
      (.float (.fin 0)) = (Json.float (.fin a.generatedAt)).orElse (.float (.fin 0)) := rfl
  -- the texts that may be missing
  have hdriver : field a.payload "driver" (.str []) = .str a.driver := rfl
  have hcuda : field a.payload "cuda" (.str []) = .str a.cuda := rfl
  have hmachine : field a.payload "machine_id" (.str []) = .str a.machineId := rfl
  have hboot : field a.payload "boot_id" (.str []) = .str a.bootId := rfl
  have hreport : field a.payload "report_data" (.str []) = .str a.reportDataHex := rfl
  have hquote : field a.payload "tdx_quote" (.str []) = .str a.tdxQuote := rfl
  rw [Validator.attestationOf, hgpus, hgenerated, toFloat_orElse]
  dsimp only
  rw [filterMap_cards fun _ => rfl, mapM_gpuEvidenceOf, hdriver, hcuda, hmachine, hboot, hreport,
    hquote]
  simp only [Json.textOr_str]
  rfl

end ComputePool.Agent.Hardware
