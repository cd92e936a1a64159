import ComputePool.Agent.Access.Grants
import ComputePool.Foundations.Json

/-!
# Sessions over HTTP

`/session/open` and `/session/close` of `agent/api/routes.py`, with the bodies of
`agent/api/models.py`: the request is checked, its body is read and handed to `SessionGrants`, and
the result is the response. The reader of JSON, the text of a failed validation and the text of a
moment are given.
-/

namespace ComputePool.Agent.Api

open Text Protocol

/-- `HTTPException`. -/
structure HttpError where
  status : ℕ
  detail : String
  deriving DecidableEq

/-- What the routes take from their libraries. -/
structure Library where
  /-- `json.loads`; `none` for a `ValueError`. -/
  loads : Bytes → Option Json
  /-- The first error of the validation of a model. -/
  invalid : String → Dict Str Json → String
  /-- `_iso`. -/
  iso : ℚ → Str

/-- `SessionOpenBody`. -/
structure SessionOpenBody where
  publicKey : Str
  nonce : Str
  signature : Str

/-- `SessionCloseBody`. -/
structure SessionCloseBody where
  publicKey : Str
  sessionId : Str

/-- A text with bounds on its length. -/
def textField (data : Dict Str Json) (key : String) (least most : ℕ) : Option Str :=
  match data.get? key.toList with
  | some (.str s) => if least ≤ s.length ∧ s.length ≤ most then some s else none
  | _ => none

/-- `SessionOpenBody.model_validate`. -/
def SessionOpenBody.validate (data : Dict Str Json) : Option SessionOpenBody := do
  let publicKey ← textField data "public_key" 1 4096
  let nonce ← textField data "nonce" 64 64
  let signature ← textField data "signature" 1 512
  return { publicKey, nonce, signature }

/-- A text that may be left out. -/
def optionalText (data : Dict Str Json) (key : String) (most : ℕ) : Option Str :=
  match data.get? key.toList with
  | none => some []
  | some (.str s) => if s.length ≤ most then some s else none
  | some _ => none

/-- `SessionCloseBody.model_validate`. -/
def SessionCloseBody.validate (data : Dict Str Json) : Option SessionCloseBody := do
  let publicKey ← optionalText data "public_key" 4096
  let sessionId ← optionalText data "session_id" 64
  return { publicKey, sessionId }

variable (lib : Library)

/-- `parse(request, model)`. -/
def parse {α : Type} (model : String) (validate : Dict Str Json → Option α) (body : Bytes) :
    Except HttpError α :=
  match lib.loads (if body = [] then encode "\x7b\x7d".toList else body) with
  | none => .error ⟨400, "body must be JSON"⟩
  | some (.dict data) =>
    match validate data with
    | some body => .ok body
    | none => .error ⟨422, lib.invalid model data⟩
  | some _ => .error ⟨422, "body must be a JSON object"⟩

/-- `SessionGrantResponse`. -/
def grantResponse (grant : SessionGrant ℚ (Dict Str Json)) : Dict Str Json :=
  [("ssh_username".toList, .str grant.sshUsername), ("ssh_port".toList, .int grant.sshPort),
    ("ssh_host_key".toList, .str grant.sshHostKey), ("python_path".toList, .str grant.pythonPath),
    ("root_dir".toList, .str grant.rootDir), ("port_range".toList, .str grant.portRange),
    ("gpu_attestation".toList, .dict grant.gpuAttestation),
    ("tdx_quote".toList, .str grant.tdxQuote), ("validator".toList, .str grant.validator),
    ("expires_at".toList, .str (lib.iso grant.expiresAt)),
    ("session_id".toList, .str grant.sessionId)]

/-- `session_open`. A call that takes too long goes on in its thread. -/
def sessionOpen (verify : Str → Bytes → Bytes → Bool) (settings : Settings) (window : ℚ)
    (validators : List Str) (s : SessionGrants) (request : Request) (moment : ℚ)
    (env : OpenEnv (Dict Str Json)) (timedOut : Bool) :
    Except HttpError (Dict Str Json) × SessionGrants :=
  match checkRequest verify validators request window moment with
  | .error e => (.error ⟨e.status, e.detail⟩, s)
  | .ok validator =>
    match parse lib "SessionOpenBody" SessionOpenBody.validate request.body with
    | .error e => (.error e, s)
    | .ok body =>
      let opening := SessionOpen.fromPayload body.publicKey body.nonce body.signature
      let hotkeys := validator :: validators.filter (· ≠ validator)
      let (outcome, s) := s.openSession verify settings opening hotkeys env
      if timedOut then (.error ⟨504, "session open timed out at attestation"⟩, s)
      else
        match outcome with
        | .ok grant => (.ok (grantResponse lib grant), s)
        | .error (.refused e) => (.error ⟨e.status, e.detail⟩, s)
        | .error .raised => (.error ⟨500, "Internal Server Error"⟩, s)

/-- `session_close`. -/
def sessionClose (verify : Str → Bytes → Bytes → Bool) (window : ℚ) (validators : List Str)
    (s : SessionGrants) (request : Request) (moment : ℚ) (fault : Fault) :
    Except HttpError (Dict Str Json) × SessionGrants :=
  match checkRequest verify validators request window moment with
  | .error e => (.error ⟨e.status, e.detail⟩, s)
  | .ok _ =>
    match parse lib "SessionCloseBody" SessionCloseBody.validate request.body with
    | .error e => (.error e, s)
    | .ok body =>
      let closing : SessionClose :=
        { publicKey := strip body.publicKey, sessionId := body.sessionId }
      if closing.publicKey = [] ∧ closing.sessionId = [] then
        (.error ⟨422, "public_key or session_id required"⟩, s)
      else
        match s.close closing fault with
        | (some revoked, s) => (.ok [("revoked".toList, .int revoked)], s)
        | (none, s) => (.error ⟨500, "Internal Server Error"⟩, s)

end ComputePool.Agent.Api
