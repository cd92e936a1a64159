import ComputePool.Agent.Access.Independence
import ComputePool.Agent.Api.Routes
import ComputePool.Agent.Hardware.Attestation
import ComputePool.Validator.Session.Identity

/-!
# A session from both sides

`AgentClient.open` of `validator/session/client.py` sends a request that is signed twice, once for
the agent to let it through and once for the session itself, and reads a grant and an attestation
from what comes back. Here the two programs run against each other: the requests are the ones the
validator builds, and what it reads is what the routes of the agent have answered.

* `openRequest`, `closeRequest`, `answerOf`: the exchange.
* `Admitted`, `Drawn`, `Ready`: what a validator and an agent that work together bring to it.
* `handshake_opens`: the session is granted, and its attestation holds.
* `attestation_of_one_session`: it does not hold for another session, or another host.
* `handshake_closes`: afterwards nothing of it is left, and other sessions stay.
-/

namespace ComputePool.Handshake

open Text Numeral Protocol Base64 Agent Agent.SshKeys
open Agent.Api (Library HttpError sessionOpen sessionClose)
open Agent.SessionGrants (sessionIdOf InPlace Accepted)
open Validator (Identity canonicalJson fromHex reportData reportDataMatches AgentError)
open Validator.Verify (Fernet.Sha256)
open Validator.Verify.ChallengeCheck (SshError fieldOr)
open Json (Printer)

/-! ## The exchange -/

/-- `SessionOpen.payload`. -/
def openPayload (r : SessionOpen) : Dict Str Json :=
  [("public_key".toList, .str r.publicKey), ("nonce".toList, .str r.nonce),
    ("signature".toList, .str r.signature)]

/-- `SessionClose.payload`. -/
def closePayload (r : SessionClose) : Dict Str Json :=
  [("public_key".toList, .str r.publicKey), ("session_id".toList, .str r.sessionId)]

/-- `SESSION_OPEN_PATH`. -/
def sessionOpenPath : Str :=
  "/session/open".toList

/-- `SESSION_CLOSE_PATH`. -/
def sessionClosePath : Str :=
  "/session/close".toList

/-- The session that `AgentClient.open` asks for: the grant is signed on its own. -/
def opening (id : Identity) (publicKey nonce : Str) : SessionOpen :=
  { publicKey, nonce, signature := id.sign (grantBlob publicKey nonce) }

/-- The request of `AgentClient.open`. -/
def openRequest (p : Printer) (id : Identity) (time : ℚ) (publicKey nonce : Str) : Request :=
  id.request time "POST".toList sessionOpenPath
    (canonicalJson p (openPayload (opening id publicKey nonce)))

/-- The request at the end of `AgentClient.open`. -/
def closeRequest (p : Printer) (id : Identity) (time : ℚ) (closing : SessionClose) : Request :=
  id.request time "POST".toList sessionClosePath (canonicalJson p (closePayload closing))

/-- What `AgentClient.call` makes of the response. -/
def answerOf (method path : Str) :
    Except HttpError (Dict Str Json) → Except AgentError (Dict Str Json)
  | .ok body => .ok body
  | .error e => .error {
      kind := if 500 ≤ e.status then .agentCrash else .sshTransport
      detail := method ++ ' ' :: path ++ " refused with ".toList ++ natText e.status ++
        ": ".toList ++ e.detail.toList }

/-! ## Bytes as text -/

/-- A digit of a hexadecimal text is read by the validator. -/
theorem hexDigit_digitChar {n : ℕ} (h : n < 16) :
    Validator.hexDigit (Nat.digitChar n) = some n ∧
      Validator.isHexBlank (Nat.digitChar n) = false := by
  have hall : ∀ n < 16, Validator.hexDigit (Nat.digitChar n) = some n ∧
      Validator.isHexBlank (Nat.digitChar n) = false := by decide +kernel
  exact hall n h

/-- `bytes.fromhex` undoes `hex`. -/
theorem fromHex_hexText {data : Octets} (h : AreBytes data) :
    fromHex (hexText data) = some data := by
  induction data with
  | nil => rfl
  | cons b data ih =>
    have hb : b < 256 := h b List.mem_cons_self
    obtain ⟨hhigh, hblank⟩ := hexDigit_digitChar (n := b / 16) (by omega)
    obtain ⟨hlow, -⟩ := hexDigit_digitChar (n := b % 16) (by omega)
    rw [hexText_cons hb, fromHex, hblank, hhigh, hlow, ih h.tail]
    simp [Nat.div_add_mod]

/-- The text of 32 bytes is a nonce. -/
theorem hex64_hexText {token : Octets} (h : AreBytes token) (hlength : token.length = 32) :
    hex64 (hexText token) = true := by
  rw [hex64, length_hexText h, hlength, Bool.and_eq_true]
  refine ⟨rfl, List.all_eq_true.mpr fun c hc => ?_⟩
  obtain ⟨n, hn, rfl⟩ := exists_of_mem_hexText h hc
  simpa [isHex] using (digitChar_spec hn).2.2.2

/-- A nonce is the text of 32 bytes. -/
theorem hex64_iff_exists {nonce : Str} : hex64 nonce = true ↔
    ∃ token, AreBytes token ∧ token.length = 32 ∧ nonce = hexText token := by
  constructor
  · intro h
    rw [hex64, Bool.and_eq_true, decide_eq_true_eq, List.all_eq_true] at h
    exact exists_hexText h.1 fun c hc => by simpa [isHex] using h.2 c hc
  · rintro ⟨token, hbytes, hlength, rfl⟩
    exact hex64_hexText hbytes hlength

theorem strip_of_hex64 {nonce : Str} (h : hex64 nonce) : strip nonce = nonce :=
  strip_eq_self fun c hc => isSpace_eq_false_of_isHex (isHex_of_hex64 h c hc)

theorem toLower_of_hex64 {nonce : Str} (h : hex64 nonce) : nonce.map Char.toLower = nonce :=
  (List.map_congr_left fun c hc => toLower_of_isHex (isHex_of_hex64 h c hc)).trans (List.map_id _)

/-- The report data is a digest in hex, whatever is attested. -/
theorem length_reportData (sha : Fernet.Sha256) (hostKey nonce : Str) :
    (reportData sha hostKey nonce).length = 64 := by
  rw [reportData, List.length_append, sha.length_digest]
  split_ifs with hfresh
  · rw [hfresh]
  · rw [List.length_replicate]

/-- The report data of a host key and a nonce match them. -/
theorem reportDataMatches_reportData (sha : Fernet.Sha256) (hostKey nonce : Str) :
    reportDataMatches sha (reportData sha hostKey nonce) hostKey nonce = true := by
  have hlength := length_reportData sha hostKey nonce
  rw [reportDataMatches, hlength, List.take_of_length_le hlength.le]
  simp

/-! ## Bodies -/

variable {p : Printer} {lib : Library}

/-- An object is never written as nothing. -/
theorem canonicalJson_ne_nil (body : Dict Str Json) : canonicalJson p body ≠ [] := by
  have hopen : utf8Char '\x7b' = [0x7b] := by decide
  rw [canonicalJson, Json.dumpsSorted, Json.dumps, utf8, List.cons_append, List.flatMap_cons, hopen]
  simp

/-- The body names each field once. -/
theorem nodup_keys_openPayload (r : SessionOpen) : (openPayload r).keys.Nodup := by
  have hkeys : (openPayload r).keys =
      ["public_key".toList, "nonce".toList, "signature".toList] := rfl
  rw [hkeys]
  decide

theorem nodup_keys_closePayload (r : SessionClose) : (closePayload r).keys.Nodup := by
  have hkeys : (closePayload r).keys = ["public_key".toList, "session_id".toList] := rfl
  rw [hkeys]
  decide

/-- A text of a body is found again when its keys have been sorted. -/
theorem textField_sortedFields {fields : Dict Str Json} (hkeys : fields.keys.Nodup) {key : String}
    {s : Str} (hget : fields.get? key.toList = some (.str s)) {least most : ℕ}
    (hlength : least ≤ s.length ∧ s.length ≤ most) :
    Api.textField (Json.sortedFields fields) key least most = some s := by
  rw [Api.textField, Json.get?_sortedFields hkeys, hget]
  exact if_pos hlength

/-- The agent reads a text field of a sorted body as the validator put it. -/
theorem optionalText_sortedFields {fields : Dict Str Json} (hkeys : fields.keys.Nodup)
    {key : String} {s : Str} (hget : fields.get? key.toList = some (.str s)) {most : ℕ}
    (hlength : s.length ≤ most) :
    Api.optionalText (Json.sortedFields fields) key most = some s := by
  rw [Api.optionalText, Json.get?_sortedFields hkeys, hget]
  exact if_pos hlength

/-- The agent reads the request for a session as it was written. -/
theorem parse_openPayload {r : SessionOpen}
    (hloads : lib.loads (canonicalJson p (openPayload r)) =
      some (.dict (Json.sortedFields (openPayload r))))
    (hkey : 1 ≤ r.publicKey.length ∧ r.publicKey.length ≤ 4096) (hnonce : r.nonce.length = 64)
    (hsignature : 1 ≤ r.signature.length ∧ r.signature.length ≤ 512) :
    Api.parse lib "SessionOpenBody" Api.SessionOpenBody.validate
      (canonicalJson p (openPayload r)) = .ok ⟨r.publicKey, r.nonce, r.signature⟩ := by
  have hkeys := nodup_keys_openPayload r
  have hvalid : Api.SessionOpenBody.validate (Json.sortedFields (openPayload r)) =
      some ⟨r.publicKey, r.nonce, r.signature⟩ := by
    rw [Api.SessionOpenBody.validate, textField_sortedFields hkeys rfl hkey,
      textField_sortedFields hkeys rfl ⟨hnonce.ge, hnonce.le⟩,
      textField_sortedFields hkeys rfl hsignature]
    rfl
  rw [Api.parse, if_neg (canonicalJson_ne_nil _), hloads]
  dsimp only
  rw [hvalid]

/-- The agent reads the request to close a session as it was written. -/
theorem parse_closePayload {r : SessionClose}
    (hloads : lib.loads (canonicalJson p (closePayload r)) =
      some (.dict (Json.sortedFields (closePayload r))))
    (hkey : r.publicKey.length ≤ 4096) (hid : r.sessionId.length ≤ 64) :
    Api.parse lib "SessionCloseBody" Api.SessionCloseBody.validate
      (canonicalJson p (closePayload r)) = .ok ⟨r.publicKey, r.sessionId⟩ := by
  have hkeys := nodup_keys_closePayload r
  have hvalid : Api.SessionCloseBody.validate (Json.sortedFields (closePayload r)) =
      some ⟨r.publicKey, r.sessionId⟩ := by
    rw [Api.SessionCloseBody.validate, optionalText_sortedFields hkeys rfl hkey,
      optionalText_sortedFields hkeys rfl hid]
    rfl
  rw [Api.parse, if_neg (canonicalJson_ne_nil _), hloads]
  dsimp only
  rw [hvalid]

/-! ## Opening -/

/-- A validator that an agent lets in, at the moment of a request: its signatures verify, it is one
of the active validators, and its clock is near enough. Of the window it loses what the decimals of
the stamp, and the double that is read from them, may be off. -/
structure Admitted (verify : Str → Bytes → Bytes → Bool) (validators : List Str) (window : ℚ)
    (id : Identity) (time moment : ℚ) : Prop where
  verifies : ∀ message, verify id.hotkey message (id.signBytes message)
  named : id.hotkey ≠ []
  stripped : strip id.hotkey = id.hotkey
  active : id.hotkey ∈ validators
  nonneg : 0 ≤ id.stampAt time
  finite : id.stampAt time + 1 < floatOverflow
  near : |moment - id.stampAt time| + (1 / 2000 + (id.stampAt time + 2) / 2 ^ 53) ≤ window

/-- What was admitted passes the agent's check of the signature. -/
theorem Admitted.checkRequest {verify : Str → Bytes → Bytes → Bool} {validators : List Str}
    {window : ℚ} {id : Identity} {time moment : ℚ}
    (h : Admitted verify validators window id time moment) (method path : Str) (body : Bytes) :
    Agent.checkRequest verify validators (id.request time method path body) window moment =
      .ok id.hotkey :=
  Validator.checkRequest_request h.verifies h.named h.stripped h.active h.nonneg h.finite h.near
    method path body

/-- A key and a nonce as `AgentClient.open` draws them, and what the agent keeps of the key. -/
structure Drawn (publicKey key nonce : Str) : Prop where
  stripped : strip publicKey = publicKey
  wellFormed : wellFormedPublicKey publicKey
  canonical : SshKeys.canonical publicKey = some key
  length : publicKey.length ≤ 4096
  /-- `secrets.token_hex(NONCE_BYTES)`. -/
  hex64_nonce : hex64 nonce

variable {sha : Fernet.Sha256} {verify : Str → Bytes → Bytes → Bool} {settings : Settings}
variable {window : ℚ} {validators : List Str} {id : Identity} {publicKey key nonce : Str}
variable {time moment : ℚ} {s : SessionGrants} {env : OpenEnv (Dict Str Json)}

theorem Drawn.ne_nil (h : Drawn publicKey key nonce) : publicKey ≠ [] := by
  rintro rfl
  have hnone : SshKeys.canonical [] = none := by decide
  exact absurd (hnone.symm.trans h.canonical) (by simp)

theorem Drawn.wellFormedNonce (h : Drawn publicKey key nonce) :
    Protocol.wellFormedNonce nonce = true := by
  rw [Protocol.wellFormedNonce, matchesToEnd, h.hex64_nonce, Bool.true_or]

/-- The signature of a grant is no longer than the agent takes. -/
theorem length_sign_le (hlength : ∀ message, (id.signBytes message).length ≤ 255)
    (message : Bytes) : (id.sign message).length ≤ 512 := by
  have htext := length_hexText (areBytes_map_toNat (id.signBytes message))
  have htag : "0x".toList.length = 2 := by decide
  rw [List.length_map] at htext
  rw [Identity.sign, List.length_append, htext, htag]
  have := hlength message
  omega

/-- The checks of `open` find the validator that has signed, and use up the nonce. -/
theorem admitOpen_opening (hdrawn : Drawn publicKey key nonce)
    (hverify : ∀ message, verify id.hotkey message (id.signBytes message)) (hnamed : id.hotkey ≠ [])
    (hfresh : nonce ∉ s.nonces.seen.keys) (others : List Str) (moment : ℚ) :
    (s.admitOpen verify (opening id publicKey nonce) (id.hotkey :: others) moment) =
      (.ok (key, id.hotkey), { s with nonces := (s.nonces.accept nonce moment).2 }) := by
  have hproblems : (opening id publicKey nonce).problems = [] := by
    simp [SessionOpen.problems, opening, hdrawn.wellFormed, hdrawn.wellFormedNonce,
      Validator.sign_ne_nil]
  have hsigner : signer verify (id.hotkey :: others) (opening id publicKey nonce).blob
      (opening id publicKey nonce).signature = id.hotkey := by
    rw [signer, List.find?_cons_of_pos]
    · rfl
    · exact Validator.verifyHotkey_sign hverify hnamed _
  have haccept : (s.nonces.accept nonce moment).1 = true := by
    have hunseen : nonce ∉ (s.nonces.expire moment).seen.keys := fun hmem => by
      obtain ⟨until_, hentry⟩ := Dict.mem_keys.mp hmem
      exact hfresh (Dict.mem_keys.mpr ⟨until_, (NonceBook.mem_expire.mp hentry).1⟩)
    have hform : NonceBook.wellFormed nonce = true := hdrawn.wellFormedNonce
    rw [NonceBook.accept, if_pos hform]
    simp [hunseen]
  rw [SessionGrants.admitOpen, hproblems]
  simp only [ne_eq, not_true_eq_false, if_false]
  rw [show SshKeys.canonical (opening id publicKey nonce).publicKey = some key from
    hdrawn.canonical]
  simp only [hsigner, hnamed, if_false]
  rw [show (opening id publicKey nonce).nonce = nonce from rfl, haccept]
  simp

/-- The grant of the agent. -/
def granted (settings : Settings) (ttl : ℚ) (id : Identity) (nonce hostKey : Str)
    (evidence : Evidence (Dict Str Json)) (now : ℚ) : SessionGrant ℚ (Dict Str Json) where
  sshUsername := settings.sshUser
  sshPort := settings.sshPort
  sshHostKey := hostKey
  pythonPath := settings.pythonPath
  rootDir := settings.rootDir
  portRange := settings.portRange
  validator := id.hotkey
  expiresAt := now + ttl
  gpuAttestation := evidence.payload
  tdxQuote := evidence.tdxQuote
  sessionId := sessionIdOf nonce

/-- The session that the agent records. -/
def recorded (s : SessionGrants) (id : Identity) (publicKey key nonce : Str) (now : ℚ) :
    OpenSession :=
  s.sessionOf (opening id publicKey nonce) key id.hotkey now

/-- An admitted session is granted, recorded, and has its line. -/
theorem openAdmitted_opening (settings : Settings) (id : Identity) (s : SessionGrants)
    (hdrawn : Drawn publicKey key nonce) {hostKey : Str}
    {evidence : Evidence (Dict Str Json)} (hinstall : env.installError = none)
    (hevidence : env.attestation = some (hostKey, evidence)) :
    (s.openAdmitted settings (opening id publicKey nonce) key id.hotkey env).1 =
        .ok (granted settings s.ttl id nonce hostKey evidence env.now) ∧
      InPlace (s.openAdmitted settings (opening id publicKey nonce) key id.hotkey env).2
        (recorded s id publicKey key nonce env.now) := by
  have hid := SessionGrants.isSessionId_sessionIdOf hdrawn.wellFormedNonce
  have hcanonical := canonical_of_canonical hdrawn.canonical
  -- the key is installed as it is
  obtain ⟨file, hgrant⟩ : ∃ file, grant key (sessionIdOf nonce) s.file =
      .ok (sessionLine key (sessionIdOf nonce), file) := by
    rw [grant, hcanonical]
    exact ⟨_, rfl⟩
  have hinstalled : s.install key (sessionIdOf nonce) env.installError =
      (.ok (), { s with file }) := by
    simp only [SessionGrants.install, hinstall, hgrant]
  obtain ⟨-, -, hread⟩ := SessionGrants.install_eq_ok hid hcanonical hinstalled
  -- the second look at the nonce finds nothing new
  have hattests : SessionGrants.attests nonce = true :=
    wellFormedNonce_strip hdrawn.wellFormedNonce
  have hnonce : (opening id publicKey nonce).nonce = nonce := rfl
  rw [SessionGrants.openAdmitted, hnonce, hinstalled, hevidence]
  simp only [hattests, Bool.not_true, Bool.false_eq_true, if_false]
  refine ⟨rfl, ?_, ?_⟩
  · show (s.opened.set _ _).get? _ = _
    rw [Dict.get?_set]
    exact if_pos rfl
  · show sessionLine key (sessionIdOf nonce) ∈ read file
    rw [hread]
    exact List.mem_append_right _ List.mem_cons_self

/-! ## What the validator reads -/

/-- A grant as the validator reads it: what is missing has its default. -/
def grantSeen (lib : Library) (g : SessionGrant ℚ (Dict Str Json)) :
    SessionGrant Str (Dict Str Json) where
  sshUsername := g.sshUsername
  sshPort := if g.sshPort = 0 then 22 else g.sshPort
  sshHostKey := g.sshHostKey
  pythonPath := if g.pythonPath = [] then "python3".toList else g.pythonPath
  rootDir := if g.rootDir = [] then "/tmp".toList else g.rootDir
  portRange := g.portRange
  validator := g.validator
  expiresAt := lib.iso g.expiresAt
  gpuAttestation := g.gpuAttestation
  tdxQuote := g.tdxQuote
  sessionId := g.sessionId

/-- A text with a default. -/
theorem toStr_orElse (s t : Str) :
    ((Json.str s).orElse (.str t)).toStr p = if s = [] then t else s := by
  by_cases hs : s = []
  · subst hs
    rfl
  · simp [Json.orElse, Json.truthy, hs, Json.toStr]

/-- `int(value or m)` of an integer. -/
theorem toInt_orElse (n m : ℤ) :
    ((Json.int n).orElse (.int m)).toInt = .ok (if n = 0 then m else n) := by
  by_cases hn : n = 0
  · subst hn
    rfl
  · simp [Json.orElse, Json.truthy, hn, Json.toInt]

/-- The validator reads the grant that the agent has answered. -/
theorem grantOf_grantResponse (g : SessionGrant ℚ (Dict Str Json)) :
    Validator.grantOf p (Api.grantResponse lib g) = .ok (grantSeen lib g) := by
  have hport : fieldOr (Api.grantResponse lib g) "ssh_port" (.int 22) =
      (Json.int g.sshPort).orElse (.int 22) := rfl
  have hpath : fieldOr (Api.grantResponse lib g) "python_path" (.str "python3".toList) =
      (Json.str g.pythonPath).orElse (.str "python3".toList) := rfl
  have hroot : fieldOr (Api.grantResponse lib g) "root_dir" (.str "/tmp".toList) =
      (Json.str g.rootDir).orElse (.str "/tmp".toList) := rfl
  have hquote : Json.field (Api.grantResponse lib g) "tdx_quote" (.str []) = .str g.tdxQuote := rfl
  have hid : Json.field (Api.grantResponse lib g) "session_id" (.str []) = .str g.sessionId := rfl
  rw [Validator.grantOf, hport, hpath, hroot, hquote, hid, toInt_orElse, toStr_orElse,
    toStr_orElse, Json.textOr_str, Json.textOr_str]
  rfl

/-- An address on record: the agent is asked. -/
def Reachable (p : Printer) (rig : Dict Str Json) (address : Str) : Prop :=
  ∃ connection, Validator.connectionOf p rig = .ok connection ∧ connection.address = address ∧
    address ≠ [] ∧ connection.apiPort ≠ 0

/-- What `build` says of the nonce and the host key it was called with. -/
theorem build_eq_ok {host : Hardware.Host} {hostKey : Str} (hhost : hostKey ≠ [])
    (hnonce : hex64 nonce) {a : Hardware.Attestation}
    (hbuild : Hardware.build p sha host nonce hostKey = .ok (some a)) :
    a.nonce = nonce ∧ a.reportDataHex = hexText (reportData sha hostKey nonce) := by
  have hlower : (strip nonce).map Char.toLower = nonce := by
    rw [strip_of_hex64 hnonce, toLower_of_hex64 hnonce]
  unfold Hardware.build at hbuild
  simp only [hlower, if_neg hhost] at hbuild
  have hform : wellFormedNonce nonce = true := by
    rw [wellFormedNonce, matchesToEnd, hnonce, Bool.true_or]
  rw [if_pos hform] at hbuild
  cases hcards : host.cards.mapM (Hardware.GpuEvidence.fromPayload p) with
  | error e =>
    rw [hcards] at hbuild
    cases hbuild
  | ok gpus =>
    rw [hcards] at hbuild
    obtain rfl := Option.some.inj (Except.ok.inj hbuild)
    exact ⟨rfl, rfl⟩

/-- The report data of a nonce are bytes. -/
theorem areBytes_reportData (hsha : ∀ data, AreBytes (sha.digest data)) (hnonce : hex64 nonce)
    (hostKey : Str) : AreBytes (reportData sha hostKey nonce) := by
  obtain ⟨token, hbytes, hlength, rfl⟩ := hex64_iff_exists.mp hnonce
  intro b hb
  rw [reportData, fromHex_hexText hbytes, Option.getD_some, if_pos hlength] at hb
  rcases List.mem_append.mp hb with hb | hb
  · exact hsha _ b hb
  · exact hbytes b hb

/-- With the attestation that the agent has built, the session is bound to its nonce, and the report
data are those of the host key of the grant. -/
theorem openSession_granted (lib : Library) (hsha : ∀ data, AreBytes (sha.digest data))
    {rig : Dict Str Json} {address : Str} (hrig : Reachable p rig address)
    (hdrawn : Drawn publicKey key nonce) {host : Hardware.Host} {hostKey : Str}
    (hhost : hostKey ≠ []) {a : Hardware.Attestation}
    (hbuild : Hardware.build p sha host nonce hostKey = .ok (some a))
    {g : SessionGrant ℚ (Dict Str Json)} (huser : g.sshUsername ≠ [])
    (hkey : g.sshHostKey = hostKey) (hattestation : g.gpuAttestation = a.payload) :
    Validator.openSession p sha rig nonce (.ok (Api.grantResponse lib g)) none = .ok {
      address
      grant := grantSeen lib g
      nonce
      attestation := a.seen
      bound := true
      reportDataOk := some true } := by
  obtain ⟨connection, hconnection, rfl, haddress, hport⟩ := hrig
  obtain ⟨hanonce, hdata⟩ := build_eq_ok hhost hdrawn.hex64_nonce hbuild
  have hcall : Validator.call p rig (.ok (Api.grantResponse lib g)) =
      .ok (.ok (Api.grantResponse lib g)) := by
    simp [Validator.call, hconnection, haddress, hport, bind, Except.bind, pure, Except.pure]
  have hreport : a.seen.reportDataHex = hexText (reportData sha hostKey nonce) := hdata
  have hne : a.seen.reportDataHex ≠ [] := by
    have hlength := length_hexText (areBytes_reportData hsha hdrawn.hex64_nonce hostKey)
    rw [length_reportData] at hlength
    rw [hreport]
    exact List.ne_nil_of_length_pos (by omega)
  have hbound : a.seen.boundTo nonce = true := by
    have hnonce : nonce ≠ [] := by
      rintro rfl
      exact absurd hdrawn.hex64_nonce (by decide)
    simp [Validator.Attestation.boundTo, Hardware.Attestation.seen, hanonce, hnonce]
  have hread : Validator.attestationOf p (grantSeen lib g).gpuAttestation = .ok a.seen := by
    rw [grantSeen, hattestation]
    exact Hardware.attestationOf_payload a
  have huser' : (grantSeen lib g).sshUsername ≠ [] := huser
  have hkey' : (grantSeen lib g).sshHostKey = hostKey := hkey
  have hmatches : (fromHex a.seen.reportDataHex).map
      (fun data => reportDataMatches sha data hostKey nonce) = some true := by
    rw [hreport, fromHex_hexText (areBytes_reportData hsha hdrawn.hex64_nonce hostKey),
      Option.map_some, reportDataMatches_reportData]
  simp [Validator.openSession, Except.mapError, bind, Except.bind, pure, Except.pure, hconnection,
    hcall, grantOf_grantResponse, hread, huser', hkey', hhost, hne, hbound, hmatches]

/-- The agent reads the request for a session that the validator has drawn. -/
theorem parse_opening (hdrawn : Drawn publicKey key nonce)
    (hlength : ∀ message, (id.signBytes message).length ≤ 255)
    (hloads : lib.loads (canonicalJson p (openPayload (opening id publicKey nonce))) =
      some (.dict (Json.sortedFields (openPayload (opening id publicKey nonce))))) :
    Api.parse lib "SessionOpenBody" Api.SessionOpenBody.validate
        (canonicalJson p (openPayload (opening id publicKey nonce))) =
      .ok ⟨publicKey, nonce, (opening id publicKey nonce).signature⟩ := by
  have hnonce : nonce.length = 64 := by
    have hhex := hdrawn.hex64_nonce
    rw [hex64, Bool.and_eq_true] at hhex
    exact of_decide_eq_true hhex.1
  have hsigned : (opening id publicKey nonce).signature ≠ [] := Validator.sign_ne_nil _
  exact parse_openPayload hloads ⟨List.length_pos_of_ne_nil hdrawn.ne_nil, hdrawn.length⟩ hnonce
    ⟨List.length_pos_of_ne_nil hsigned, length_sign_le hlength _⟩

/-- What the agent reads is what was signed. -/
theorem fromPayload_opening (hdrawn : Drawn publicKey key nonce) :
    SessionOpen.fromPayload publicKey nonce (opening id publicKey nonce).signature =
      opening id publicKey nonce := by
  simp [SessionOpen.fromPayload, opening, hdrawn.stripped, strip_of_hex64 hdrawn.hex64_nonce,
    toLower_of_hex64 hdrawn.hex64_nonce, Validator.strip_sign]

/-- An agent that is ready for a session: nothing raises, and its attestation is the one of its
host key. -/
structure Ready (p : Printer) (sha : Fernet.Sha256) (settings : Settings) (host : Hardware.Host)
    (hostKey nonce : Str) (a : Hardware.Attestation) (env : OpenEnv (Dict Str Json)) : Prop where
  user : settings.sshUser ≠ []
  keyed : hostKey ≠ []
  installs : env.installError = none
  builds : Hardware.build p sha host nonce hostKey = .ok (some a)
  attests : env.attestation = some (hostKey, ⟨a.payload, a.tdxQuote⟩)

/-- **A session between a validator and an agent opens.** The agent grants what the validator asks
for, under the key the validator has drawn and in the name of its hotkey; and the validator finds
the session bound to its nonce, with the report data of the host key it connects to. -/
theorem handshake_opens (hsha : ∀ data, AreBytes (sha.digest data)) {rig : Dict Str Json}
    {address : Str} (hrig : Reachable p rig address)
    (hadmitted : Admitted verify validators window id time moment)
    (hlength : ∀ message, (id.signBytes message).length ≤ 255)
    (hdrawn : Drawn publicKey key nonce) (hfresh : nonce ∉ s.nonces.seen.keys)
    (hloads : lib.loads (canonicalJson p (openPayload (opening id publicKey nonce))) =
      some (.dict (Json.sortedFields (openPayload (opening id publicKey nonce)))))
    {host : Hardware.Host} {hostKey : Str} {a : Hardware.Attestation}
    (hready : Ready p sha settings host hostKey nonce a env) :
    ∃ session, Validator.openSession p sha rig nonce
        (answerOf "POST".toList sessionOpenPath
          (sessionOpen lib verify settings window validators s
            (openRequest p id time publicKey nonce) moment env false).1) none = .ok session ∧
      session.bound = true ∧ session.reportDataOk = some true ∧
      (∀ seed, (session.attestationVerdict seed).failure = none) ∧
      session.attestation = a.seen ∧ session.grant.sshHostKey = hostKey ∧
      session.grant.validator = id.hotkey ∧ session.grant.sessionId = sessionIdOf nonce ∧
      InPlace (sessionOpen lib verify settings window validators s
          (openRequest p id time publicKey nonce) moment env false).2
        (recorded s id publicKey key nonce env.now) := by
  have hadmit := admitOpen_opening hdrawn hadmitted.verifies hadmitted.named hfresh
    (validators.filter (· ≠ id.hotkey)) env.acceptAt
  obtain ⟨hgrant, hplace⟩ := openAdmitted_opening settings id
    { s with nonces := (s.nonces.accept nonce env.acceptAt).2 } hdrawn hready.installs
    hready.attests
  have hbody := parse_opening hdrawn hlength hloads
  have hopen : sessionOpen lib verify settings window validators s
      (openRequest p id time publicKey nonce) moment env false =
      (.ok (Api.grantResponse lib
        (granted settings s.ttl id nonce hostKey ⟨a.payload, a.tdxQuote⟩ env.now)),
        (SessionGrants.openAdmitted settings
          { s with nonces := (s.nonces.accept nonce env.acceptAt).2 }
          (opening id publicKey nonce) key id.hotkey env).2) := by
    rw [sessionOpen, openRequest, hadmitted.checkRequest]
    dsimp only
    rw [Identity.body_request, hbody]
    dsimp only
    rw [fromPayload_opening hdrawn, SessionGrants.openSession, hadmit]
    dsimp only
    rw [if_neg (by simp), hgrant]
  have hsession := openSession_granted lib hsha hrig hdrawn hready.keyed hready.builds
    (g := granted settings s.ttl id nonce hostKey ⟨a.payload, a.tdxQuote⟩ env.now)
    hready.user rfl rfl
  rw [hopen]
  exact ⟨_, hsession, rfl, rfl, fun seed => rfl, rfl, rfl, rfl, rfl, hplace⟩

/-- A hotkey whose only signature is one byte. -/
def sampleIdentity : Identity where
  hotkey := "hk".toList
  signBytes _ := [1]

/-- Whether the byte is the signature. -/
def sampleVerify (_ : Str) (_ signature : Bytes) : Bool :=
  signature = [1]

/-- A reader that finds the given fields. -/
def sampleLibrary (fields : Dict Str Json) : Library where
  loads _ := some (.dict (Json.sortedFields fields))
  invalid _ _ := ""
  iso _ := []

/-- The key of the sample, with its comment. -/
def sampleKey : Str :=
  "ssh-ed25519 AAAA mt-validator".toList

/-- The nonce of zeros. -/
def sampleNonce : Str :=
  List.replicate 64 '0'

/-- The attestation of a rig without cards. -/
def sampleAttestation : Hardware.Attestation where
  nonce := sampleNonce
  agentVersion := []
  hostname := []
  hostKey := "host".toList
  reportDataHex := hexText (reportData Validator.Verify.Fernet.sha256 "host".toList sampleNonce)

/-- The digest of the library is made of bytes. -/
theorem areBytes_sha256 (data : Octets) :
    AreBytes (Validator.Verify.Fernet.sha256.digest data) := by
  intro b hb
  simp only [Validator.Verify.Fernet.sha256, Validator.Verify.Fernet.Sha256.wordBytes,
    List.mem_append, List.mem_cons, List.not_mem_nil, or_false] at hb
  omega

theorem drawn_sample : Drawn sampleKey "ssh-ed25519 AAAA".toList sampleNonce :=
  ⟨by decide +kernel, by decide +kernel, by decide +kernel, by decide, by decide +kernel⟩

theorem admitted_sample :
    Admitted sampleVerify ["hk".toList] signatureWindowSeconds sampleIdentity 1000 1000 :=
  ⟨fun _ => rfl, by decide, by decide, by decide, by decide +kernel, by decide +kernel,
    by decide +kernel⟩

/-- A rig with its address. -/
def sampleRig : Dict Str Json :=
  [("connection".toList, .dict [("address".toList, .str "rig".toList),
    ("api_port".toList, .int 8080)])]

theorem reachable_sample : Reachable Json.asciiPrinter sampleRig "rig".toList :=
  ⟨⟨"rig".toList, 8080, 0⟩, rfl, rfl, by decide, by decide⟩

/-- The user of the sample. -/
def sampleSettings : Settings where
  sshUser := "root".toList
  sshPort := 22
  pythonPath := []
  rootDir := []
  portRange := []

/-- What the agent finds when the sample session is opened. -/
def sampleEnv : OpenEnv (Dict Str Json) where
  acceptAt := 1000
  now := 1000
  attestation := some ("host".toList, ⟨sampleAttestation.payload, []⟩)

/-- A host with an empty key file is ready for the sample request. -/
theorem ready_sample : Ready Json.asciiPrinter Validator.Verify.Fernet.sha256 sampleSettings
    ⟨[], [], [], [], [], [], [], [], fun _ => [], fun _ => [], 0⟩ "host".toList sampleNonce
    sampleAttestation sampleEnv := by
  refine ⟨by decide, by decide, rfl, ?_, rfl⟩
  have hlower : (strip sampleNonce).map Char.toLower = sampleNonce := by decide +kernel
  have hform : wellFormedNonce sampleNonce = true := by decide +kernel
  unfold Hardware.build
  simp only [hlower, if_pos hform]
  rfl

/-- A session with the nonce of zeros opens. -/
theorem handshake_opens_sample :
    ∃ session, Validator.openSession Json.asciiPrinter Validator.Verify.Fernet.sha256 sampleRig
        sampleNonce
        (answerOf "POST".toList sessionOpenPath
          (sessionOpen (sampleLibrary (openPayload (opening sampleIdentity sampleKey sampleNonce)))
            sampleVerify sampleSettings signatureWindowSeconds ["hk".toList] {}
            (openRequest Json.asciiPrinter sampleIdentity 1000 sampleKey sampleNonce) 1000 sampleEnv
            false).1) none = .ok session ∧
      session.bound = true ∧ session.reportDataOk = some true := by
  have hloads : (sampleLibrary (openPayload (opening sampleIdentity sampleKey sampleNonce))).loads
      (canonicalJson Json.asciiPrinter
        (openPayload (opening sampleIdentity sampleKey sampleNonce))) =
      some (.dict (Json.sortedFields
        (openPayload (opening sampleIdentity sampleKey sampleNonce)))) := rfl
  obtain ⟨session, hsession, hbound, hreport, -⟩ := handshake_opens (s := {}) areBytes_sha256
    reachable_sample admitted_sample (fun _ => Nat.one_le_ofNat) drawn_sample (by decide) hloads
    ready_sample
  exact ⟨session, hsession, hbound, hreport⟩

/-! ## What an attestation is good for -/

/-- What the checks of `open` have found of a session that is handed over. -/
theorem openSession_eq_ok {rig : Dict Str Json} {answer : Except AgentError (Dict Str Json)}
    {connect : Option SshError} {session : Validator.Session}
    (h : Validator.openSession p sha rig nonce answer connect = .ok session) :
    session.bound = session.attestation.boundTo nonce ∧
      (session.reportDataOk = some true → ∃ data,
        fromHex session.attestation.reportDataHex = some data ∧
        reportDataMatches sha data session.grant.sshHostKey nonce = true) := by
  unfold Validator.openSession at h
  cases hconnection : Validator.connectionOf p rig with
  | error e => simp [hconnection, Except.mapError, bind, Except.bind] at h
  | ok connection =>
  cases hcall : Validator.call p rig answer with
  | error e => simp [hconnection, hcall, Except.mapError, bind, Except.bind] at h
  | ok answered =>
  cases answered with
  | error e => simp [hconnection, hcall, Except.mapError, bind, Except.bind] at h
  | ok response =>
  cases hgrant : Validator.grantOf p response with
  | error e => simp [hconnection, hcall, hgrant, Except.mapError, bind, Except.bind] at h
  | ok grant =>
  cases hread : Validator.attestationOf p grant.gpuAttestation with
  | error e =>
    simp only [hconnection, hcall, hgrant, Except.mapError, bind, Except.bind, hread] at h
    split_ifs at h
  | ok attestation =>
  simp only [hconnection, hcall, hgrant, Except.mapError, bind, Except.bind, hread] at h
  cases connect with
  | some e => split_ifs at h
  | none =>
    split_ifs at h with _ _ hnone
    · obtain rfl := Except.ok.inj h
      exact ⟨rfl, nofun⟩
    · obtain rfl := Except.ok.inj h
      refine ⟨rfl, fun hreport => ?_⟩
      cases hdata : fromHex attestation.reportDataHex with
      | none => simp [hdata] at hreport
      | some data => exact ⟨data, rfl, by simpa [hdata] using hreport⟩

/-- What the report data have the digest of. -/
def hostKeyBlob (hostKey : Str) : Octets :=
  utf8 ("SSH_HOST_KEY:".toList ++ strip hostKey)

/-- Two host keys that the hash does not tell apart, though it is given different bytes. -/
def Collide (sha : Fernet.Sha256) (hostKey hostKey' : Str) : Prop :=
  hostKeyBlob hostKey ≠ hostKeyBlob hostKey' ∧
    sha.digest (hostKeyBlob hostKey) = sha.digest (hostKeyBlob hostKey')

/-- Report data match one nonce only, and one host key only unless the hash of another is the
same. -/
theorem reportDataMatches_inj {hostKey hostKey' nonce nonce' : Str} (hnonce : hex64 nonce)
    (hnonce' : hex64 nonce')
    (h : reportDataMatches sha (reportData sha hostKey nonce) hostKey' nonce' = true) :
    nonce = nonce' ∧ (strip hostKey = strip hostKey' ∨ Collide sha hostKey hostKey') := by
  obtain ⟨token, hbytes, hlength, rfl⟩ := hex64_iff_exists.mp hnonce
  obtain ⟨token', hbytes', hlength', rfl⟩ := hex64_iff_exists.mp hnonce'
  rw [reportDataMatches, Bool.and_eq_true, decide_eq_true_eq, decide_eq_true_eq,
    List.take_of_length_le (length_reportData sha _ _).le] at h
  have heq := h.2
  simp only [reportData, fromHex_hexText hbytes, fromHex_hexText hbytes', Option.getD_some, hlength,
    hlength', if_true] at heq
  obtain ⟨hdigest, rfl⟩ := List.append_inj heq (by rw [sha.length_digest, sha.length_digest])
  refine ⟨rfl, ?_⟩
  by_cases hkeys : strip hostKey = strip hostKey'
  · exact Or.inl hkeys
  · refine Or.inr ⟨fun hsame => hkeys ?_, hdigest⟩
    exact List.append_cancel_left (utf8_injective hsame)

/-- **An attestation is good for one session and one host.** Whatever an agent answers, whatever it
knows of the sessions of others: if its session holds with report data that an agent has built for a
nonce and a host key, then the nonce is the one of this session, and the host key that the validator
pins is that host key, or another one that the hash does not tell apart from it. -/
theorem attestation_of_one_session (hsha : ∀ data, AreBytes (sha.digest data)) {rig : Dict Str Json}
    {answer : Except AgentError (Dict Str Json)} {connect : Option SshError}
    {session : Validator.Session} {asked : Str} (hasked : hex64 asked)
    (h : Validator.openSession p sha rig asked answer connect = .ok session)
    (hreport : session.reportDataOk = some true) {host : Agent.Hardware.Host} {hostKey : Str}
    (hhost : hostKey ≠ []) (hnonce : hex64 nonce) {a : Agent.Hardware.Attestation}
    (hbuild : Agent.Hardware.build p sha host nonce hostKey = .ok (some a))
    (hdata : session.attestation.reportDataHex = a.reportDataHex) :
    nonce = asked ∧ (strip hostKey = strip session.grant.sshHostKey ∨
      Collide sha hostKey session.grant.sshHostKey) := by
  obtain ⟨data, hread, hmatches⟩ := (openSession_eq_ok h).2 hreport
  rw [hdata, (build_eq_ok hhost hnonce hbuild).2,
    fromHex_hexText (areBytes_reportData hsha hnonce hostKey)] at hread
  obtain rfl := Option.some.inj hread
  exact reportDataMatches_inj hnonce hasked hmatches

/-- The attestation of the sample is the one of its session. -/
theorem attestation_of_one_session_sample :
    ∃ session, Validator.openSession Json.asciiPrinter Validator.Verify.Fernet.sha256 sampleRig
        sampleNonce (.ok (Api.grantResponse (sampleLibrary [])
          (granted sampleSettings 600 sampleIdentity sampleNonce "host".toList
            ⟨sampleAttestation.payload, []⟩ 1000))) none = .ok session ∧
      (strip "host".toList = strip session.grant.sshHostKey ∨
        Collide Validator.Verify.Fernet.sha256 "host".toList session.grant.sshHostKey) := by
  have hsession := openSession_granted (sampleLibrary []) areBytes_sha256 reachable_sample
    drawn_sample ready_sample.keyed ready_sample.builds
    (g := granted sampleSettings 600 sampleIdentity sampleNonce "host".toList
      ⟨sampleAttestation.payload, []⟩ 1000) ready_sample.user rfl rfl
  have hdata : sampleAttestation.seen.reportDataHex = sampleAttestation.reportDataHex := by
    rw [Hardware.Attestation.seen]
  have hone := attestation_of_one_session areBytes_sha256 drawn_sample.hex64_nonce hsession rfl
    ready_sample.keyed drawn_sample.hex64_nonce ready_sample.builds hdata
  exact ⟨_, hsession, hone.2⟩

/-! ## Closing -/

/-- Nothing is left of a session. -/
structure Gone (s : SessionGrants) (sessionId : Str) : Prop where
  forgotten : s.opened.get? sessionId = none
  revoked : ∀ line ∈ read s.file, isLineOf sessionId line = false

/-- Closing a session takes its grant and its line away. -/
theorem gone_closeOne (n : ℕ) (sessionId : Str) :
    Gone (SessionGrants.closeOne (n, s) sessionId).2 sessionId := by
  constructor
  · show (s.opened.pop sessionId).get? sessionId = none
    rw [Dict.get?_pop, if_pos rfl]
  · intro line hline
    have hread : line ∈ read (revoke sessionId s.file).2 := hline
    rw [read_revoke] at hread
    simpa using (List.mem_filter.mp hread).2

/-- Closing another session brings nothing back. -/
theorem Gone.closeOne {sessionId : Str} (h : Gone s sessionId) (n : ℕ) (other : Str) :
    Gone (SessionGrants.closeOne (n, s) other).2 sessionId := by
  constructor
  · show (s.opened.pop other).get? sessionId = none
    rw [Dict.get?_pop, h.forgotten, ite_self]
  · intro line hline
    have hread : line ∈ read (revoke other s.file).2 := hline
    rw [read_revoke] at hread
    exact h.revoked line (List.mem_of_mem_filter hread)

/-- Closing more sessions brings nothing back. -/
theorem Gone.closeEach {sessionId : Str} (h : Gone s sessionId) (ids : List Str) (n : ℕ) :
    Gone (ids.foldl SessionGrants.closeOne (n, s)).2 sessionId := by
  induction ids generalizing n s with
  | nil => exact h
  | cons other ids ih => exact ih (h.closeOne n other) _

/-- Every session of a list is gone once the list is closed. -/
theorem gone_closeEach {sessionId : Str} {ids : List Str} (h : sessionId ∈ ids) (n : ℕ) :
    Gone (ids.foldl SessionGrants.closeOne (n, s)).2 sessionId := by
  induction ids generalizing n s with
  | nil => cases h
  | cons other ids ih =>
    rcases List.mem_cons.mp h with rfl | h
    · exact (gone_closeOne n sessionId).closeEach ids _
    · exact ih h _

/-- The number of closed sessions only grows. -/
theorem le_closeEach (ids : List Str) (n : ℕ) :
    n ≤ (ids.foldl SessionGrants.closeOne (n, s)).1 := by
  induction ids generalizing n s with
  | nil => exact le_rfl
  | cons other ids ih =>
    refine le_trans ?_ (ih _)
    show n ≤ if (revoke other s.file).1 then n + 1 else n
    split_ifs <;> omega

/-- The line of a session that is closed counts. -/
theorem lt_closeEach {session : OpenSession} (hplace : InPlace s session)
    (haccepted : Accepted session) {ids : List Str} (h : sessionIdOf session.nonce ∈ ids) (n : ℕ) :
    n < (ids.foldl SessionGrants.closeOne (n, s)).1 := by
  induction ids generalizing n s with
  | nil => cases h
  | cons other ids ih =>
    by_cases heq : other = sessionIdOf session.nonce
    · -- the line is there, so the file gets shorter
      subst heq
      have hhit : (revoke (sessionIdOf session.nonce) s.file).1 = true := by
        have hlt : ((read s.file).filter fun line =>
            !isLineOf (sessionIdOf session.nonce) line).length ≠ (read s.file).length := by
          rw [ne_eq, List.length_filter_eq_length_iff]
          intro hall
          simpa [isLineOf_self] using hall _ hplace.hasLine
        rw [revoke, if_neg hlt]
      refine lt_of_lt_of_le ?_ (le_closeEach ids _)
      show n < if (revoke (sessionIdOf session.nonce) s.file).1 then n + 1 else n
      rw [hhit, if_pos rfl]
      exact Nat.lt_succ_self n
    · have hrest := (List.mem_cons.mp h).resolve_left (Ne.symm heq)
      refine lt_of_le_of_lt ?_ (ih (hplace.closeOne haccepted n heq) hrest _)
      show n ≤ if (revoke other s.file).1 then n + 1 else n
      split_ifs <;> omega

/-- The request at the end of a session. -/
def closing (publicKey nonce : Str) : SessionClose where
  publicKey
  sessionId := sessionIdOf nonce

/-- A wellformed nonce names a session. -/
theorem sessionIdOf_ne_nil (h : hex64 nonce) : sessionIdOf nonce ≠ [] := by
  rw [hex64, Bool.and_eq_true] at h
  have hlength : (sessionIdOf nonce).length = 16 := by
    rw [sessionIdOf, List.length_take, of_decide_eq_true h.1]
    rfl
  exact List.ne_nil_of_length_eq_add_one hlength

/-- What a close looks at: the session itself, and the sessions of its key. -/
theorem mem_matching_closing (hdrawn : Drawn publicKey key nonce) {sessionId : Str} :
    sessionId ∈ s.matching (closing publicKey nonce) ↔ sessionId = sessionIdOf nonce ∨
      ∃ session, (sessionId, session) ∈ s.opened ∧ session.publicKey = key := by
  have hid : sessionIdOf nonce ≠ [] := sessionIdOf_ne_nil hdrawn.hex64_nonce
  -- by its id or by its key
  have hfound (sid : Str) : sid ∈ Dict.keys (s.opened.filter fun e =>
      (sessionIdOf nonce ≠ [] && e.1 = sessionIdOf nonce) ||
        (some key ≠ none && some key = some e.2.publicKey)) ↔
      ∃ session, (sid, session) ∈ s.opened ∧
        (sid = sessionIdOf nonce ∨ session.publicKey = key) := by
    rw [Dict.mem_keys]
    refine exists_congr fun session => ?_
    rw [List.mem_filter]
    simp [hid, @eq_comm _ key]
  have hpublic : (closing publicKey nonce).publicKey = publicKey := rfl
  have hsession : (closing publicKey nonce).sessionId = sessionIdOf nonce := rfl
  simp only [SessionGrants.matching, hpublic, hsession, if_neg hdrawn.ne_nil, hdrawn.canonical]
  split_ifs with hmissing
  · rw [List.mem_append, hfound, List.mem_singleton]
    constructor
    · rintro (⟨session, hmem, rfl | hkey⟩ | rfl)
      · exact Or.inl rfl
      · exact Or.inr ⟨session, hmem, hkey⟩
      · exact Or.inl rfl
    · rintro (rfl | ⟨session, hmem, hkey⟩)
      · exact Or.inr rfl
      · exact Or.inl ⟨session, hmem, Or.inr hkey⟩
  · rw [hfound]
    constructor
    · rintro ⟨session, hmem, rfl | hkey⟩
      · exact Or.inl rfl
      · exact Or.inr ⟨session, hmem, hkey⟩
    · rintro (rfl | ⟨session, hmem, hkey⟩)
      · -- the id is among the sessions that were found
        simp only [Bool.and_eq_true, decide_eq_true_eq, not_and, not_not] at hmissing
        exact (hfound _).mp (hmissing hid)
      · exact ⟨session, hmem, Or.inr hkey⟩

/-- **A session that is closed leaves nothing.** The session is forgotten and its line revoked, and
every other session stays in place, unless it has the same key. -/
theorem handshake_closes (hadmitted : Admitted verify validators window id time moment)
    (hdrawn : Drawn publicKey key nonce) (hnodup : s.opened.keys.Nodup)
    (hloads : lib.loads (canonicalJson p (closePayload (closing publicKey nonce))) =
      some (.dict (Json.sortedFields (closePayload (closing publicKey nonce)))))
    {session : OpenSession} (hplace : InPlace s session) (haccepted : Accepted session)
    (hsession : session.nonce = nonce) :
    ∃ (revoked : ℕ) (after : SessionGrants), 0 < revoked ∧
      sessionClose lib verify window validators s
          (closeRequest p id time (closing publicKey nonce)) moment none =
        (.ok [("revoked".toList, .int revoked)], after) ∧
      Gone after (sessionIdOf nonce) ∧
      ∀ other, InPlace s other → Accepted other → sessionIdOf other.nonce ≠ sessionIdOf nonce →
        other.publicKey ≠ key → InPlace after other := by
  have hnonce : sessionIdOf nonce ∈ s.matching (closing publicKey nonce) :=
    (mem_matching_closing hdrawn).mpr (Or.inl rfl)
  have hid : (sessionIdOf nonce).length ≤ 64 := (List.length_take_le _ _).trans (by decide)
  have hbody := parse_closePayload hloads hdrawn.length hid
  have hclose : s.close (closing publicKey nonce) none =
      (some ((s.matching (closing publicKey nonce)).foldl SessionGrants.closeOne (0, s)).1,
        ((s.matching (closing publicKey nonce)).foldl SessionGrants.closeOne (0, s)).2) := rfl
  subst hsession
  refine ⟨((s.matching (closing publicKey session.nonce)).foldl SessionGrants.closeOne (0, s)).1,
    ((s.matching (closing publicKey session.nonce)).foldl SessionGrants.closeOne (0, s)).2,
    lt_closeEach hplace haccepted hnonce 0, ?_, gone_closeEach hnonce 0, ?_⟩
  · rw [sessionClose, closeRequest, hadmitted.checkRequest]
    dsimp only
    rw [Identity.body_request, hbody]
    dsimp only
    have hread : strip (closing publicKey session.nonce).publicKey =
        (closing publicKey session.nonce).publicKey := hdrawn.stripped
    rw [hread, if_neg fun h => hdrawn.ne_nil h.1]
    rw [hclose]
  · intro other hother hacc hdiff hkey
    refine hother.closeEach hacc (fun sid hsid => ?_) 0
    rintro rfl
    rcases (mem_matching_closing hdrawn).mp hsid with heq | ⟨found, hfound, hpublic⟩
    · exact hdiff heq
    · have hsome := (Dict.get?_eq_some_iff hnodup).mpr hfound
      rw [hother.recorded] at hsome
      obtain rfl := Option.some.inj hsome
      exact hkey hpublic

/-- A request for another session, under another key. -/
def otherRequest : SessionOpen :=
  { SessionGrants.requestOfOnes with publicKey := "ssh-ed25519 BBBB".toList }

/-- The grants with both sessions. -/
def twoOpen : SessionGrants :=
  (SessionGrants.openSample SessionGrants.oneOpen otherRequest).2

/-- The session of `otherRequest`. -/
def otherSession : OpenSession where
  sessionId := List.replicate 16 '1'
  publicKey := "ssh-ed25519 BBBB".toList
  validator := "hk".toList
  nonce := List.replicate 64 '1'
  openedAt := 1000
  expiresAt := 1600

/-- The first session of an agent is closed, and the other one stays. -/
theorem handshake_closes_sample :
    InPlace twoOpen otherSession ∧
    ∃ (revoked : ℕ) (after : SessionGrants), 0 < revoked ∧
      sessionClose (sampleLibrary (closePayload (closing sampleKey sampleNonce))) sampleVerify
          signatureWindowSeconds ["hk".toList] twoOpen
          (closeRequest Json.asciiPrinter sampleIdentity 1000 (closing sampleKey sampleNonce)) 1000
          none =
        (.ok [("revoked".toList, .int revoked)], after) ∧
      Gone after (sessionIdOf sampleNonce) ∧ InPlace after otherSession := by
  have hloads : (sampleLibrary (closePayload (closing sampleKey sampleNonce))).loads
      (canonicalJson Json.asciiPrinter (closePayload (closing sampleKey sampleNonce))) =
      some (.dict (Json.sortedFields (closePayload (closing sampleKey sampleNonce)))) := rfl
  have hfirst : InPlace twoOpen SessionGrants.firstSession :=
    ⟨by decide +kernel, by decide +kernel⟩
  have hother : InPlace twoOpen otherSession := ⟨by decide +kernel, by decide +kernel⟩
  have haccepted : Accepted otherSession := ⟨by decide +kernel, by decide +kernel⟩
  obtain ⟨revoked, after, hrevoked, hclose, hgone, hstays⟩ := handshake_closes admitted_sample
    drawn_sample (s := twoOpen) (by decide +kernel) hloads hfirst
    SessionGrants.accepted_firstSession rfl
  exact ⟨hother, revoked, after, hrevoked, hclose, hgone,
    hstays otherSession hother haccepted (by decide +kernel) (by decide +kernel)⟩

end ComputePool.Handshake
