import ComputePool.Agent.Access.Grants
import ComputePool.Protocol.Signing

/-!
# Releases, and what one signature can authorise

`verify_release` of `agent/updater/watchtower.py` is the third place where the agent trusts a
signature of a validator, after `check_request` (`agent/api/auth.py`) and `SessionGrants.open`.

* `Accepts`: one of the three accepts a signature of a hotkey for a message.
* `signature_authorises_one_message`: a signature is never accepted for two different messages,
  unless the scheme verifies it for two byte strings.
-/

namespace ComputePool.Agent

open Text Numeral Protocol

variable (verify : Str → Bytes → Bytes → Bool)

/-- The checks of `verify_release` on the release itself. -/
def checkRelease (release : Release) (validators : List Str) (moment : ℚ) :
    Except Json.Raised (Except String Release) :=
  if !wellFormedDigest release.digest then .ok (.error "digest is not sha256:<64 hex>")
  else if release.validator = [] ∨ release.validator ∉ validators then
    .ok (.error "release signer is not an active validator")
  -- an integer this large cannot be subtracted from a clock reading
  else if floatOverflow ≤ |(release.timestamp : ℚ)| then .error .overflowError
  else if releaseSkewSeconds < |moment - release.timestamp| then
    .ok (.error "release timestamp outside the skew window")
  else if !verifyHotkey verify release.validator release.message release.signature then
    .ok (.error "release signature does not verify")
  else .ok (.ok release)

/-- `verify_release` at `moment`: the release, or what is wrong with it. -/
def verifyRelease (p : Json.Printer) (payload : Json) (validators : List Str) (moment : ℚ) :
    Except Json.Raised (Except String Release) :=
  let raw := match payload with
    | .dict fields => (Dict.get? fields "release".toList).getD .null
    | _ => .null
  match raw with
  | .dict fields => do
    checkRelease verify (← Release.fromPayload p (.dict fields)) validators moment
  | _ => .ok (.error "no release published")

/-- The signature of a hotkey is accepted for a message, by one of the three places that look at
signatures. What HTTP delivers has no newline in its path and its timestamp. -/
inductive Accepts (hotkey signature : Str) : Signed → Prop
  | request {validators : List Str} {r : Request} {window moment : ℚ}
    (hmethod : Signed.IsMethod r.method) (hpath : '\n' ∉ r.path) (htime : '\n' ∉ strip r.timestamp)
    (hsignature : strip r.signature = signature)
    (hok : checkRequest verify validators r window moment = .ok hotkey) :
    Accepts hotkey signature (.request r.method r.path (strip r.timestamp) r.body)
  | grant {publicKey nonce signed : Str} {s : SessionGrants} {hotkeys : List Str} {moment : ℚ}
    {key : Str} (hsignature : strip signed = signature)
    (hok : (s.admitOpen verify (SessionOpen.fromPayload publicKey nonce signed) hotkeys moment).1 =
      .ok (key, hotkey)) :
    Accepts hotkey signature (.grant (strip publicKey) ((strip nonce).map Char.toLower))
  | release {p : Json.Printer} {payload : Json} {validators : List Str} {moment : ℚ}
    {release : Release} (hvalidator : release.validator = hotkey)
    (hsignature : release.signature = signature)
    (hok : verifyRelease verify p payload validators moment = .ok (.ok release)) :
    Accepts hotkey signature (.release release.digest release.timestamp)

variable {verify}

/-! ## What each of the three makes sure of -/

/-- A request that was let in carries a signature of its own signing text. -/
theorem verifies_of_checkRequest {validators : List Str} {r : Request} {window moment : ℚ}
    {hotkey : Str} (h : checkRequest verify validators r window moment = .ok hotkey) :
    verifyHotkey verify hotkey (signingBytes r.method r.path (strip r.timestamp) r.body)
      (strip r.signature) := by
  unfold checkRequest at h
  dsimp only at h
  split_ifs at h with hheaders hvalidator hfresh hverify
  obtain rfl := Except.ok.inj h
  simpa using hverify

/-- The signer of a message is a hotkey its signature verifies for. -/
theorem verifies_of_signer {hotkeys : List Str} {message : Bytes} {signature : Str}
    (h : signer verify hotkeys message signature ≠ []) :
    verifyHotkey verify (signer verify hotkeys message signature) message signature := by
  unfold signer at h ⊢
  cases hfind : hotkeys.find? fun hotkey => verifyHotkey verify hotkey message signature with
  | none => simp [hfind] at h
  | some hotkey =>
    have hverifies := List.find?_some hfind
    exact hverifies

/-- So does a session that was admitted, of its blob. -/
theorem verifies_of_admitOpen {s : SessionGrants} {request : SessionOpen} {hotkeys : List Str}
    {moment : ℚ} {key hotkey : Str}
    (h : (s.admitOpen verify request hotkeys moment).1 = .ok (key, hotkey)) :
    request.problems = [] ∧ verifyHotkey verify hotkey request.blob request.signature := by
  unfold SessionGrants.admitOpen at h
  split_ifs at h with hproblems
  split at h
  · cases h
  · dsimp only at h
    split_ifs at h with hsigner
    obtain ⟨-, rfl⟩ := Prod.mk.inj (Except.ok.inj h)
    exact ⟨not_not.mp hproblems, verifies_of_signer hsigner⟩

/-- So does a release that was accepted, of its message. -/
theorem verifies_of_checkRelease {release accepted : Release} {validators : List Str} {moment : ℚ}
    (h : checkRelease verify release validators moment = .ok (.ok accepted)) :
    wellFormedDigest accepted.digest ∧
      verifyHotkey verify accepted.validator accepted.message accepted.signature := by
  unfold checkRelease at h
  split_ifs at h with hdigest hvalidator hoverflow hskew hverify
  · cases Except.ok.inj h
  · cases Except.ok.inj h
  · cases Except.ok.inj h
  · cases Except.ok.inj h
  · obtain rfl := Except.ok.inj (Except.ok.inj h)
    exact ⟨by simpa using hdigest, by simpa using hverify⟩

/-- So does one that was read of a payload. -/
theorem verifies_of_verifyRelease {p : Json.Printer} {payload : Json} {validators : List Str}
    {moment : ℚ} {release : Release}
    (h : verifyRelease verify p payload validators moment = .ok (.ok release)) :
    wellFormedDigest release.digest ∧
      verifyHotkey verify release.validator release.message release.signature := by
  unfold verifyRelease at h
  dsimp only at h
  split at h
  · rename_i fields _
    cases hrelease : Release.fromPayload p (.dict fields) with
    | error e => simp [hrelease, bind, Except.bind] at h
    | ok read =>
      rw [hrelease] at h
      exact verifies_of_checkRelease h
  · cases h

/-- An accepted message has passed the checks, and its signature verifies. -/
theorem Accepts.checked {hotkey signature : Str} {m : Signed}
    (h : Accepts verify hotkey signature m) :
    m.Checked ∧ verifyHotkey verify hotkey m.bytes signature := by
  cases h with
  -- a request, a grant or a release: each is checked before its signature is
  | request hmethod hpath htime hsignature hok =>
    exact ⟨⟨hmethod, hpath, htime⟩, hsignature ▸ verifies_of_checkRequest hok⟩
  | grant hsignature hok =>
    obtain ⟨hproblems, hverifies⟩ := verifies_of_admitOpen hok
    refine ⟨⟨⟨_, rfl⟩, ⟨_, rfl⟩, ?_, SessionOpen.wellFormedNonce_of_problems_eq_nil hproblems⟩, ?_⟩
    · simp only [SessionOpen.problems, SessionOpen.fromPayload, List.append_eq_nil_iff] at hproblems
      by_contra hkey
      simp [hkey] at hproblems
    · exact hsignature ▸ hverifies
  | release hvalidator hsignature hok =>
    obtain ⟨hdigest, hverifies⟩ := verifies_of_verifyRelease hok
    exact ⟨hdigest, hvalidator ▸ hsignature ▸ hverifies⟩

/-- What was handed to the scheme: the bytes of the hex text. -/
theorem exists_of_verifyHotkey {hotkey signature : Str} {message : Bytes}
    (h : verifyHotkey verify hotkey message signature) :
    ∃ bytes, bytesFromHex (signatureText signature) = some bytes ∧ verify hotkey message bytes := by
  unfold verifyHotkey at h
  split_ifs at h
  split at h
  · cases h
  · rename_i bytes hbytes
    exact ⟨bytes, hbytes, h⟩

/-- One signature of a hotkey verifies for two byte strings. -/
def VerifiesTwice (verify : Str → Bytes → Bytes → Bool) (hotkey signature : Str)
    (message message' : Bytes) : Prop :=
  message ≠ message' ∧ ∃ bytes, bytesFromHex (signatureText signature) = some bytes ∧
    verify hotkey message bytes ∧ verify hotkey message' bytes

/-- **One signature, one message.** Two messages that have passed the checks and have the same bytes
are the same, up to the case of a request's method: each of the three encodings is injective, and
no two of them meet. So the agent never accepts a signature for two different messages, not even
written in two ways, unless the signature scheme itself verifies it for two byte strings. -/
theorem signature_authorises_one_message :
    (∀ m m' : Signed, m.Checked → m'.Checked → m.bytes = m'.bytes → m.canonical = m'.canonical) ∧
      ∀ (verify : Str → Bytes → Bytes → Bool) (hotkey signature signature' : Str) (m m' : Signed),
        bytesFromHex (signatureText signature) = bytesFromHex (signatureText signature') →
        Accepts verify hotkey signature m → Accepts verify hotkey signature' m' →
        m.canonical = m'.canonical ∨ VerifiesTwice verify hotkey signature m.bytes m'.bytes := by
  refine ⟨fun m m' h h' hbytes => Signed.canonical_eq_of_bytes_eq h h' hbytes, ?_⟩
  intro verify hotkey signature signature' m m' hsame hm hm'
  obtain ⟨hchecked, hverifies⟩ := hm.checked
  obtain ⟨hchecked', hverifies'⟩ := hm'.checked
  obtain ⟨bytes, hbytes, hverify⟩ := exists_of_verifyHotkey hverifies
  obtain ⟨bytes', hbytes', hverify'⟩ := exists_of_verifyHotkey hverifies'
  -- the signatures are the same octets
  obtain rfl : bytes = bytes' := Option.some.inj (hbytes.symm.trans (hsame.trans hbytes'))
  by_cases hmessage : m.bytes = m'.bytes
  · exact Or.inl (Signed.canonical_eq_of_bytes_eq hchecked hchecked' hmessage)
  · exact Or.inr ⟨hmessage, bytes, hbytes, hverify, hverify'⟩

/-- A ping stamped at 1000, with its method as the client wrote it. -/
def pingRequest (method signature : String) : Request where
  method := method.toList
  path := "/ping".toList
  hotkey := "hk".toList
  timestamp := "1000".toList
  signature := signature.toList
  body := []

/-- A signature scheme with one signature, the one `hk` has made for a ping. -/
def verifyPing (hotkey : Str) (message bytes : Bytes) : Bool :=
  hotkey = "hk".toList && bytes = [0xab] &&
    message = signingBytes "POST".toList "/ping".toList "1000".toList []

/-- A ping that was let in is an accepted signature of its signing text. -/
theorem accepts_pingRequest (method signature : String)
    (hmethod : Signed.IsMethod method.toList)
    (hok : checkRequest verifyPing ["hk".toList] (pingRequest method signature) 120 1100 =
      .ok "hk".toList) :
    Accepts verifyPing "hk".toList (strip signature.toList)
      (.request method.toList "/ping".toList (strip "1000".toList) []) := by
  have hpath : '\n' ∉ "/ping".toList := by decide
  have htime : '\n' ∉ strip "1000".toList := by decide +kernel
  exact .request (r := pingRequest method signature) hmethod hpath htime rfl hok

/-- The signature that `hk` has made for a ping is good for no message but this ping. -/
theorem signature_authorises_one_message_ping :
    Accepts verifyPing "hk".toList "0xab".toList
        (.request "post".toList "/ping".toList "1000".toList []) ∧
      ∀ m, Accepts verifyPing "hk".toList "AB".toList m →
        (Signed.request "post".toList "/ping".toList "1000".toList []).canonical = m.canonical := by
  have hmethod : Signed.IsMethod "post".toList := by
    have hascii : ("post".toList.all fun c => c.toNat < 128 && c ≠ '\n') = true := by decide
    intro c hc
    simpa using List.all_eq_true.mp hascii c hc
  have hping : Accepts verifyPing "hk".toList "0xab".toList
      (.request "post".toList "/ping".toList "1000".toList []) := by
    have hstamp : strip "1000".toList = "1000".toList := by decide +kernel
    have hsignature : strip "0xab".toList = "0xab".toList := by decide +kernel
    have haccepts := accepts_pingRequest "post" "0xab" hmethod (by decide +kernel)
    rwa [hstamp, hsignature] at haccepts
  refine ⟨hping, fun m hm => ?_⟩
  rcases signature_authorises_one_message.2 _ _ _ _ _ _ (by decide +kernel) hping hm with
    hsame | ⟨hne, bytes, -, hverify, hverify'⟩
  · exact hsame
  -- the scheme verifies the signature for one byte string
  · simp only [verifyPing, Bool.and_eq_true, decide_eq_true_eq] at hverify hverify'
    exact absurd (hverify.2.trans hverify'.2.symm) hne

end ComputePool.Agent
