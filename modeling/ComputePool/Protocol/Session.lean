import Mathlib.Algebra.Order.Ring.Rat
import ComputePool.Foundations.Text

/-!
# The session protocol

`protocol/session.py`: what a validator sends to open and close a session on a rig, what the
agent grants, the bytes that are signed, and the patterns a key, a nonce and a digest have to
match. The patterns end in `$` and are used with `re.match`, so each of them also accepts one
newline at the end (`Text.matchesToEnd`).
-/

namespace ComputePool.Protocol

open Text

/-- A byte string. -/
abbrev Bytes := List UInt8

/-- `text.encode()`. -/
def encode (s : Str) : Bytes :=
  (String.ofList s).toUTF8.toList

/-- `NONCE_TTL_SECONDS`. -/
def nonceTtlSeconds : ℚ := 600

/-- `SIGNATURE_WINDOW_SECONDS`. -/
def signatureWindowSeconds : ℚ := 120

/-- `signing_bytes`: the four parts of a request joined by newlines. -/
def signingBytes (method path timestamp : Str) (body : Bytes) : Bytes :=
  encode (method.map Char.toUpper) ++ 10 :: encode path ++ 10 :: encode timestamp ++ 10 :: body

/-- `grant_blob`. -/
def grantBlob (publicKey nonce : Str) : Bytes :=
  encode (publicKey ++ '\n' :: nonce)

/-! ## Patterns -/

/-- `[0-9a-f]`. -/
def isHex (c : Char) : Bool :=
  ('0' ≤ c && c ≤ '9') || ('a' ≤ c && c ≤ 'f')

/-- `[A-Za-z0-9+/]`. -/
def isBase64 (c : Char) : Bool :=
  ('A' ≤ c && c ≤ 'Z') || ('a' ≤ c && c ≤ 'z') || ('0' ≤ c && c ≤ '9') || c = '+' || c = '/'

/-- `[0-9a-f]{64}`, the body of `NONCE_PATTERN`. -/
def hex64 (s : Str) : Bool :=
  s.length = 64 && s.all isHex

/-- `well_formed_nonce`. -/
def wellFormedNonce (nonce : Str) : Bool :=
  matchesToEnd hex64 nonce

/-- The key types the patterns name. -/
def keyTypes : List Str :=
  ["ssh-ed25519".toList, "ecdsa-sha2-nistp256".toList, "ecdsa-sha2-nistp384".toList,
    "ssh-rsa".toList]

/-- What follows `[A-Za-z0-9+/]+=*`, if the text starts with it. -/
def afterKeyBody (s : Str) : Option Str :=
  if s.takeWhile isBase64 = [] then none
  else some ((s.dropWhile isBase64).dropWhile (· = '='))

/-- The body of `PUBLIC_KEY_PATTERN`: a type, a key and an optional comment on one line. -/
def publicKeyPattern (s : Str) : Bool :=
  keyTypes.any fun type =>
    (type ++ [' ']).isPrefixOf s &&
      match afterKeyBody (s.drop (type.length + 1)) with
      | some [] => true
      | some (' ' :: comment) => comment.all fun c => c ≠ '\r' && c ≠ '\n'
      | _ => false

/-- `well_formed_public_key`. -/
def wellFormedPublicKey (publicKey : Str) : Bool :=
  let text := strip publicKey
  !text.contains '\n' && matchesToEnd publicKeyPattern text

/-! ## Messages -/

/-- `SessionOpen`: a request for a session. -/
structure SessionOpen where
  publicKey : Str
  nonce : Str
  signature : Str
  deriving DecidableEq, Repr

namespace SessionOpen

/-- `SessionOpen.from_payload`, on the three text fields of the body. -/
def fromPayload (publicKey nonce signature : Str) : SessionOpen where
  publicKey := strip publicKey
  nonce := (strip nonce).map Char.toLower
  signature := strip signature

/-- `SessionOpen.problems`. -/
def problems (r : SessionOpen) : List String :=
  (if wellFormedPublicKey r.publicKey then []
    else ["public_key must be a single OpenSSH public key line"]) ++
  (if wellFormedNonce r.nonce then []
    else ["nonce must be 32 bytes as 64 lowercase hex characters"]) ++
  (if r.signature = [] then ["signature is required"] else [])

/-- `SessionOpen.blob`. -/
def blob (r : SessionOpen) : Bytes :=
  grantBlob r.publicKey r.nonce

/-- A request without problems has a wellformed nonce. -/
theorem wellFormedNonce_of_problems_eq_nil {r : SessionOpen} (h : r.problems = []) :
    wellFormedNonce r.nonce := by
  simp only [problems, List.append_eq_nil_iff] at h
  by_contra hn
  simp [hn] at h

end SessionOpen

/-- `SessionClose`: the session is named by its key, its id, or both. -/
structure SessionClose where
  publicKey : Str
  sessionId : Str := []
  deriving DecidableEq, Repr

/-- `SessionGrant`: what the agent answers to an opened session. `τ` is how the moment of expiry
is given (a clock reading where the grant is made, its text on the wire) and `ε` the attestation
payload. -/
structure SessionGrant (τ ε : Type) where
  sshUsername : Str
  sshPort : ℤ
  sshHostKey : Str
  pythonPath : Str
  rootDir : Str
  portRange : Str
  validator : Str
  expiresAt : τ
  gpuAttestation : ε
  tdxQuote : Str
  sessionId : Str
  deriving DecidableEq, Repr

/-- `JobRecord`: a job as the ledger of the pool server has it. A record that covers no single
card has no `gpuUuid`, and one without a process of its own has `pid` 0. -/
structure JobRecord where
  jobId : Str
  kind : Str
  pid : ℤ := 0
  gpuUuid : Str := []
  container : Str := []
  deriving DecidableEq, Repr

/-! ## The characters of a session id -/

theorem isHex_of_hex64 {s : Str} (h : hex64 s) : ∀ c ∈ s, isHex c := by
  simp only [hex64, Bool.and_eq_true, List.all_eq_true] at h
  exact h.2

/-- The first sixteen characters of an accepted nonce are hexadecimal. -/
theorem isHex_take_of_wellFormedNonce {nonce : Str} (h : wellFormedNonce nonce) :
    ∀ c ∈ nonce.take 16, isHex c := by
  intro c hc
  simp only [wellFormedNonce, matchesToEnd, Bool.or_eq_true, Bool.and_eq_true] at h
  rcases h with h | ⟨-, h⟩
  · exact isHex_of_hex64 h c (List.mem_of_mem_take hc)
  · have hlen : nonce.dropLast.length = 64 := by
      simp only [hex64, Bool.and_eq_true, decide_eq_true_eq] at h
      exact h.1
    have htake : nonce.take 16 = nonce.dropLast.take 16 := by
      rw [List.dropLast_eq_take, List.take_take]
      simp only [List.length_dropLast] at hlen
      congr 1
      omega
    exact isHex_of_hex64 h c (List.mem_of_mem_take (htake ▸ hc))

/-- The codes of the hex digits. -/
theorem toNat_of_isHex {c : Char} (h : isHex c) :
    48 ≤ c.toNat ∧ c.toNat ≤ 57 ∨ 97 ≤ c.toNat ∧ c.toNat ≤ 102 := by
  simp only [isHex, Bool.or_eq_true, Bool.and_eq_true, decide_eq_true_eq, Char.le_def,
    UInt32.le_iff_toNat_le] at h
  have hdigits : ('0'.val.toNat = 48 ∧ '9'.val.toNat = 57) ∧
      ('a'.val.toNat = 97 ∧ 'f'.val.toNat = 102) := by decide
  have hval : c.toNat = c.val.toNat := rfl
  omega

theorem isSpace_eq_false_of_isHex {c : Char} (h : isHex c) : isSpace c = false := by
  have hrange := toNat_of_isHex h
  simp only [isSpace, List.mem_cons, List.not_mem_nil, or_false, decide_eq_false_iff_not]
  omega

/-- The hex digits of a nonce are lower case already. -/
theorem toLower_of_isHex {c : Char} (h : isHex c) : c.toLower = c := by
  have hrange := toNat_of_isHex h
  have hval : c.toNat = c.val.toNat := rfl
  have hcase : ¬ (c.val ≥ 'A'.val ∧ c.val ≤ 'Z'.val) := by
    have hupper : 'A'.val.toNat = 65 ∧ 'Z'.val.toNat = 90 := by decide
    simp only [ge_iff_le, UInt32.le_iff_toNat_le]
    omega
  delta Char.toLower
  exact dif_neg hcase

/-- A well-formed nonce stays well formed without the white space around it, in lower case. -/
theorem wellFormedNonce_strip {nonce : Str} (h : wellFormedNonce nonce) :
    wellFormedNonce ((strip nonce).map Char.toLower) := by
  have hcore (core : Str) (hc : hex64 core) : wellFormedNonce (core.map Char.toLower) := by
    have hlower : core.map Char.toLower = core :=
      (List.map_congr_left fun c hmem => toLower_of_isHex (isHex_of_hex64 hc c hmem)).trans
        (List.map_id core)
    simp [hlower, wellFormedNonce, matchesToEnd, hc]
  have hspace (core : Str) (hc : hex64 core) : ∀ c ∈ core, isSpace c = false :=
    fun c hmem => isSpace_eq_false_of_isHex (isHex_of_hex64 hc c hmem)
  simp only [wellFormedNonce, matchesToEnd, Bool.or_eq_true, Bool.and_eq_true,
    decide_eq_true_eq] at h
  rcases h with h | ⟨hlast, h⟩
  · rw [strip_eq_self (hspace nonce h)]
    exact hcore nonce h
  · obtain ⟨core, rfl⟩ := List.getLast?_eq_some_iff.mp hlast
    rw [List.dropLast_concat] at h
    rw [strip_concat (hspace core h) (by decide)]
    exact hcore core h

end ComputePool.Protocol
