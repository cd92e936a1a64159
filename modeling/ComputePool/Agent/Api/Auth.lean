import ComputePool.Foundations.Numeral
import ComputePool.Protocol.Session

/-!
# Signed requests

`agent/api/auth.py`: a request carries the hotkey of a validator, a timestamp and a signature
over method, path, timestamp and body. `check_request` accepts it when the hotkey is one of the
active validators, the timestamp is inside the window around the clock of the agent, and the
signature verifies. The signature scheme itself is the parameter `verify`, which stands for
`Keypair(ss58_address=hotkey).verify(message, signature)`.
-/

namespace ComputePool.Agent

open Text Numeral Protocol

/-- `fresh` at `moment`. The difference of two clock readings that near is exact in the binary
format. -/
def fresh (timestamp : Str) (window moment : ℚ) : Bool :=
  match floatOf timestamp with
  | some (.fin stamped) => |moment - stamped| ≤ window
  | _ => false

/-- The white space `bytes.fromhex` skips. -/
def isAsciiSpace (c : Char) : Bool :=
  c.toNat ∈ [0x9, 0xa, 0xb, 0xc, 0xd, 0x20]

/-- `bytes.fromhex`: pairs of hexadecimal digits with ASCII white space between the pairs. -/
def bytesFromHex : Str → Option Bytes
  | [] => some []
  | [c] => if isAsciiSpace c then some [] else none
  | c :: d :: rest =>
    if isAsciiSpace c then bytesFromHex (d :: rest)
    else if c.toNat < 0x80 ∧ d.toNat < 0x80 then do
      let high ← digitValue 16 c
      let low ← digitValue 16 d
      return UInt8.ofNat (16 * high + low) :: (← bytesFromHex rest)
    else none

/-- The text a signature is read from: without white space around it and without its `0x`. -/
def signatureText (signature : Str) : Str :=
  let raw := strip signature
  if (raw.take 2).map Char.toLower = "0x".toList then raw.drop 2 else raw

section Verify

-- whether the signature scheme accepts the signature bytes of a hotkey for a message
variable (verify : Str → Bytes → Bytes → Bool)

/-- `verify_hotkey`. -/
def verifyHotkey (hotkey : Str) (message : Bytes) (signature : Str) : Bool :=
  if hotkey = [] ∨ signature = [] then false
  else
    match bytesFromHex (signatureText signature) with
    | none => false
    | some signatureBytes => verify hotkey message signatureBytes

/-- `signer`: the first hotkey the signature verifies for, or the empty text. -/
def signer (hotkeys : List Str) (message : Bytes) (signature : Str) : Str :=
  (hotkeys.find? fun hotkey => verifyHotkey verify hotkey message signature).getD []

/-- A request as `check_request` sees it; a header that is missing is the empty text. -/
structure Request where
  method : Str
  path : Str
  hotkey : Str
  timestamp : Str
  signature : Str
  body : Bytes
  deriving DecidableEq, Repr

/-- `AuthFailure`. -/
structure AuthFailure where
  status : ℕ
  detail : String
  deriving DecidableEq, Repr

/-- `check_request` at `moment`, with the validators active then. -/
def checkRequest (validators : List Str) (r : Request) (window moment : ℚ) :
    Except AuthFailure Str :=
  let hotkey := strip r.hotkey
  let timestamp := strip r.timestamp
  let signature := strip r.signature
  if hotkey = [] ∨ timestamp = [] ∨ signature = [] then
    .error ⟨401, "validator signature headers required"⟩
  else if hotkey ∉ validators then
    .error ⟨403, "not an active compute validator"⟩
  else if !fresh timestamp window moment then
    .error ⟨401, "timestamp outside the signature window"⟩
  else if !verifyHotkey verify hotkey (signingBytes r.method r.path timestamp r.body) signature then
    .error ⟨401, "signature does not verify"⟩
  else .ok hotkey

/-- An accepted request is fresh. -/
theorem fresh_of_checkRequest {validators : List Str} {r : Request} {window moment : ℚ}
    {hotkey : Str} (h : checkRequest verify validators r window moment = .ok hotkey) :
    fresh (strip r.timestamp) window moment := by
  unfold checkRequest at h
  dsimp only at h
  split_ifs at h with hheaders hvalidator hfresh hverify
  simpa using hfresh

end Verify

/-- A fresh timestamp is a finite number at most `window` away. -/
theorem exists_stamp_of_fresh {timestamp : Str} {window moment : ℚ}
    (h : fresh timestamp window moment) :
    ∃ stamped, floatOf timestamp = some (.fin stamped) ∧ |moment - stamped| ≤ window := by
  unfold fresh at h
  split at h
  case h_1 stamped hstamp => exact ⟨stamped, hstamp, by simpa using h⟩
  case h_2 => cases h

end ComputePool.Agent
