import ComputePool.Agent.Access.Nonce
import ComputePool.Agent.Access.SshKeys
import ComputePool.Agent.Api.Auth

/-!
# Session grants

`SessionGrants` of `agent/access/grants.py`, with calls made one at a time. An open session is
recorded twice, in the dictionary `_open` and as a line of `authorized_keys`; a call that raises
between the two updates leaves them out of step, and `sweep` brings them back together.

What the outside world decides is an argument of each call: clock readings, the outcome of the
attestation, and which operation on the key file raises an `OSError`. Writing the event log never
raises and touches neither store, so it does not appear.
-/

namespace ComputePool.Agent

open Text Protocol SshKeys

/-- `OpenSession`. -/
structure OpenSession where
  sessionId : Str
  publicKey : Str
  validator : Str
  nonce : Str
  openedAt : ℚ
  expiresAt : ℚ
  deriving DecidableEq, Repr

/-- `GrantError`: the refusal a caller is answered with. -/
structure GrantError where
  status : ℕ
  detail : String
  deriving DecidableEq, Repr

/-- How a call of `open` ends without a grant: refused, or by an exception it does not handle. -/
inductive OpenFailure
  | refused (error : GrantError)
  | raised
  deriving DecidableEq, Repr

/-- The settings a grant repeats. -/
structure Settings where
  sshUser : Str
  sshPort : ℤ
  pythonPath : Str
  rootDir : Str
  portRange : Str
  deriving DecidableEq, Repr

/-- What `attestation.build` collects, as far as `open` reads it. -/
structure Evidence (ε : Type) where
  payload : ε
  tdxQuote : Str
  deriving DecidableEq, Repr

/-- What the outside world decides during one call of `open`. -/
structure OpenEnv (ε : Type) where
  /-- The clock when the nonce is checked. -/
  acceptAt : ℚ
  /-- The clock after the nonce is accepted. -/
  now : ℚ
  /-- The text of the `OSError` raised while the key is installed, if one is. -/
  installError : Option String := none
  /-- The host key and the evidence; `none` when collecting them raises. -/
  attestation : Option (Str × Evidence ε)

/-- Which operation on the key file raises, counted from the first of the call. -/
abbrev Fault := Option ℕ

namespace Fault

/-- One of the next `n` operations raises. -/
def within (fault : Fault) (n : ℕ) : Bool :=
  fault.any (· < n)

/-- The part of a loop that runs before the fault, one operation for each item. -/
def before {α : Type*} (fault : Fault) (items : List α) : List α :=
  match fault with
  | none => items
  | some k => items.take k

/-- The fault as seen after `n` operations that did not raise. -/
def after (fault : Fault) (n : ℕ) : Fault :=
  fault.map (· - n)

theorem mem_of_mem_before {α : Type*} {fault : Fault} {items : List α} {x : α}
    (h : x ∈ fault.before items) : x ∈ items := by
  cases fault with
  | none => exact h
  | some k => exact List.mem_of_mem_take h

end Fault

/-- `SessionGrants` with the file it manages. The constructor is given an empty nonce book, which
is falsy, and so replaces it by one of its own with the default lifetime. -/
structure SessionGrants where
  ttl : ℚ := nonceTtlSeconds
  nonces : NonceBook := {}
  opened : Dict Str OpenSession := []
  file : KeyFile := none
  deriving Repr

namespace SessionGrants

/-! ## Opening -/

/-- The checks of `open` up to the nonce, which is used up: the canonical key and the validator
the signature verifies for. -/
def admitOpen (verify : Str → Bytes → Bytes → Bool) (s : SessionGrants) (request : SessionOpen)
    (hotkeys : List Str) (moment : ℚ) : Except GrantError (Str × Str) × SessionGrants :=
  if request.problems ≠ [] then (.error ⟨422, "; ".intercalate request.problems⟩, s)
  else
    match canonical request.publicKey with
    | none => (.error ⟨422, "public_key is not an accepted OpenSSH key"⟩, s)
    | some key =>
      let validator := signer verify hotkeys request.blob request.signature
      if validator = [] then
        (.error ⟨403, "signature does not verify against any active validator hotkey"⟩, s)
      else
        let (accepted, nonces) := s.nonces.accept request.nonce moment
        let s := { s with nonces }
        if accepted then (.ok (key, validator), s)
        else (.error ⟨403, "nonce already used or malformed"⟩, s)

/-- The id of the session a nonce opens. -/
def sessionIdOf (nonce : Str) : Str :=
  nonce.take 16

/-- The installation of the key in `open`. -/
def install (s : SessionGrants) (key sessionId : Str) (error : Option String) :
    Except GrantError Unit × SessionGrants :=
  match error with
  | some exc => (.error ⟨500, "could not install the key: " ++ exc⟩, s)
  | none =>
    match grant key sessionId s.file with
    | .error exc => (.error ⟨500, "could not install the key: " ++ exc⟩, s)
    | .ok (_, file) => (.ok (), { s with file })

/-- Whether `attestation.build` returns evidence at all: it looks at the nonce once more. -/
def attests (nonce : Str) : Bool :=
  wellFormedNonce ((strip nonce).map Char.toLower)

/-- The locked section of `open` that records the session. -/
def record (s : SessionGrants) (request : SessionOpen) (key validator : Str) (now : ℚ) :
    SessionGrants :=
  let sessionId := sessionIdOf request.nonce
  let session : OpenSession :=
    { sessionId, publicKey := key, validator, nonce := request.nonce, openedAt := now,
      expiresAt := now + s.ttl }
  { s with opened := s.opened.set sessionId session }

/-- What `open` does once the nonce is accepted. -/
def openAdmitted {ε : Type} (settings : Settings) (s : SessionGrants) (request : SessionOpen)
    (key validator : Str) (env : OpenEnv ε) :
    Except OpenFailure (SessionGrant ℚ ε) × SessionGrants :=
  let sessionId := sessionIdOf request.nonce
  match s.install key sessionId env.installError with
  | (.error e, s) => (.error (.refused e), s)
  | (.ok _, s) =>
    -- an attestation that raises is not caught, and the line stays
    match env.attestation with
    | none => (.error .raised, s)
    | some (hostKey, evidence) =>
      if !attests request.nonce then
        (.error (.refused ⟨422, "nonce must be 32 bytes as 64 lowercase hex characters"⟩),
          { s with file := (revoke sessionId s.file).2 })
      else
        (.ok
          { sshUsername := settings.sshUser, sshPort := settings.sshPort, sshHostKey := hostKey,
            pythonPath := settings.pythonPath, rootDir := settings.rootDir,
            portRange := settings.portRange, validator, expiresAt := env.now + s.ttl,
            gpuAttestation := evidence.payload, tdxQuote := evidence.tdxQuote, sessionId },
          s.record request key validator env.now)

/-- `open`. -/
def openSession {ε : Type} (verify : Str → Bytes → Bytes → Bool) (settings : Settings)
    (s : SessionGrants) (request : SessionOpen) (hotkeys : List Str) (env : OpenEnv ε) :
    Except OpenFailure (SessionGrant ℚ ε) × SessionGrants :=
  match s.admitOpen verify request hotkeys env.acceptAt with
  | (.error e, s) => (.error (.refused e), s)
  | (.ok (key, validator), s) => s.openAdmitted settings request key validator env

/-! ## Closing and sweeping -/

/-- `_matching`. -/
def matching (s : SessionGrants) (request : SessionClose) : List Str :=
  let key := if request.publicKey = [] then none else canonical request.publicKey
  let found := Dict.keys <| s.opened.filter fun (sessionId, session) =>
    (request.sessionId ≠ [] && sessionId = request.sessionId) ||
      (key ≠ none && key = some session.publicKey)
  if request.sessionId ≠ [] && request.sessionId ∉ found then found ++ [request.sessionId]
  else found

/-- One round of the loop of `close`. -/
def closeOne (acc : ℕ × SessionGrants) (sessionId : Str) : ℕ × SessionGrants :=
  let (revoked, s) := acc
  let (hit, file) := revoke sessionId s.file
  (if hit then revoked + 1 else revoked, { s with file, opened := s.opened.pop sessionId })

/-- `close`: the number of lines revoked, or `none` when it raises. -/
def close (s : SessionGrants) (request : SessionClose) (fault : Fault) : Option ℕ × SessionGrants :=
  let ids := s.matching request
  let (revoked, s) := (fault.before ids).foldl closeOne (0, s)
  (if fault.within ids.length then none else some revoked, s)

/-- The sessions that are due at `moment`. -/
def expired (s : SessionGrants) (moment : ℚ) : List Str :=
  Dict.keys (s.opened.filter fun e => e.2.expiresAt ≤ moment)

/-- The locked section of `sweep`: the sessions that are due are forgotten. -/
def dropExpired (s : SessionGrants) (moment : ℚ) : SessionGrants :=
  { s with opened := (s.expired moment).foldl Dict.pop s.opened }

/-- One revocation of a loop of `sweep`. -/
def revokeOne (acc : ℕ × KeyFile) (sessionId : Str) : ℕ × KeyFile :=
  let (revoked, file) := acc
  let (hit, file) := revoke sessionId file
  (if hit then revoked + 1 else revoked, file)

/-- The sessions with a line in the file that are not among the known ones. -/
def orphans (known : List Str) (file : KeyFile) : List Str :=
  (activeSessions file).filter (· ∉ known)

/-- `sweep` at `moment`: the number of lines revoked, or `none` when it raises. -/
def sweep (s : SessionGrants) (moment : ℚ) (fault : Fault) : Option ℕ × SessionGrants :=
  let due := s.expired moment
  let s := s.dropExpired moment
  let (revoked, file) := (fault.before due).foldl revokeOne (0, s.file)
  let s := { s with file }
  -- the reading of the file by `active_sessions` is an operation that can raise, too
  if fault.within (due.length + 1) then (none, s)
  else
    let fault := fault.after (due.length + 1)
    let ids := orphans s.opened.keys s.file
    let (revoked, file) := (fault.before ids).foldl revokeOne (revoked, s.file)
    let s := { s with file }
    if fault.within ids.length then (none, s)
    else (some revoked, { s with nonces := s.nonces.expire moment })

/-- `revoke_all`: the number of lines removed, or `none` when it raises. -/
def revokeAll (s : SessionGrants) (fault : Fault) : Option ℕ × SessionGrants :=
  let s := { s with opened := [] }
  if fault.within 1 then (none, s)
  else
    let (removed, file) := revokeAllSessions s.file
    (some removed, { s with file })

/-! ## Runs of calls -/

/-- A call of one of the operations, with what the outside world decides during it. -/
inductive Call (ε : Type)
  | openSession (request : SessionOpen) (hotkeys : List Str) (env : OpenEnv ε)
  | close (request : SessionClose) (fault : Fault)
  | sweep (moment : ℚ) (fault : Fault)
  | revokeAll (fault : Fault)

variable {ε : Type} (verify : Str → Bytes → Bytes → Bool) (settings : Settings)

/-- The grants after a call. -/
def act (s : SessionGrants) : Call ε → SessionGrants
  | .openSession request hotkeys env => (s.openSession verify settings request hotkeys env).2
  | .close request fault => (s.close request fault).2
  | .sweep moment fault => (s.sweep moment fault).2
  | .revokeAll fault => (s.revokeAll fault).2

/-- The grants after calls made one after another. -/
def run (s : SessionGrants) (calls : List (Call ε)) : SessionGrants :=
  calls.foldl (act verify settings) s

end SessionGrants

end ComputePool.Agent
