import ComputePool.Foundations.Json
import ComputePool.Protocol.Session

/-!
# What a signature of a validator says

A validator signs three kinds of messages with one key: requests, grants of a session and releases
of the agent. Each is a few texts joined by newlines, without a word that tells the kinds apart
(`signing_bytes`, `grant_blob`, `release_message` of `protocol/session.py`). What keeps them apart
is what the checks of the agent let through: a request has three newlines before its body, a grant
has one, a release one or two (its digest may end in a newline), and a grant starts with the type of
a key where a release starts with `sha256:`.

* `Signed`: a message that can be signed, with the bytes that are.
* `Signed.Checked`: the agent's checks let it through.
* `Signed.canonical_eq_of_bytes_eq`: the bytes determine the message, up to the case of the method.
-/

namespace ComputePool.Protocol

open Text

/-! ## Releases -/

/-- `RELEASE_SKEW_SECONDS`. -/
def releaseSkewSeconds : ℚ := 600

/-- `release_message`. -/
def releaseMessage (digest : Str) (timestamp : ℤ) : Bytes :=
  encode (digest ++ '\n' :: Json.intText timestamp)

/-- The start of a digest. -/
def sha256Tag : Str :=
  "sha256:".toList

/-- `sha256:[0-9a-f]{64}`, the body of `DIGEST_PATTERN`. -/
def digestPattern (s : Str) : Bool :=
  sha256Tag.isPrefixOf s && hex64 (s.drop sha256Tag.length)

/-- `well_formed_digest`. -/
def wellFormedDigest (digest : Str) : Bool :=
  matchesToEnd digestPattern digest

/-- `Release`: an image of the agent a validator has published. -/
structure Release where
  digest : Str
  timestamp : ℤ
  signature : Str
  validator : Str := []
  deriving DecidableEq, Repr

namespace Release

/-- The timestamp of a payload: one that is no number counts as 0. -/
def timestampOf (value : Json) : Except Json.Raised ℤ :=
  match (value.orElse (.int 0)).toInt with
  | .error .typeError => .ok 0
  | .error .valueError => .ok 0
  | result => result

/-- `Release.from_payload`. -/
def fromPayload (p : Json.Printer) (payload : Json) : Except Json.Raised Release := do
  let timestamp ← timestampOf (← payload.get "timestamp".toList (.int 0))
  let digest ← payload.get "digest".toList (.str [])
  let signature ← payload.get "signature".toList (.str [])
  let validator ← payload.get "validator".toList (.str [])
  return { digest := digest.toStr p, timestamp, signature := signature.toStr p,
           validator := validator.textOr p }

/-- `Release.message`. -/
def message (r : Release) : Bytes :=
  releaseMessage r.digest r.timestamp

end Release

/-! ## Bytes of texts -/

theorem encode_eq_flatMap (s : Str) : encode s = s.flatMap String.utf8EncodeChar := by
  rw [encode, String.toUTF8_eq_toByteArray, String.toByteArray_ofList, List.utf8Encode,
    toList_toByteArray]

@[simp]
theorem encode_append (s t : Str) : encode (s ++ t) = encode s ++ encode t := by
  simp [encode_eq_flatMap]

@[simp]
theorem encode_newline (s : Str) : encode ('\n' :: s) = 10 :: encode s := by
  have hnewline : String.utf8EncodeChar '\n' = [10] := by decide
  simp [encode_eq_flatMap, hnewline]

/-- Different texts are signed as different bytes. -/
theorem encode_injective : Function.Injective encode := by
  intro s t h
  rw [encode_eq_flatMap, encode_eq_flatMap] at h
  have hbytes : (String.ofList s).toByteArray = (String.ofList t).toByteArray := by
    rw [String.toByteArray_ofList, String.toByteArray_ofList, List.utf8Encode, List.utf8Encode, h]
  exact String.ofList_injective (String.toByteArray_inj.mp hbytes)

/-- A text has as many newlines as its bytes. -/
theorem count_encode (s : Str) : (encode s).count 10 = s.count '\n' := by
  induction s with
  | nil => simp [encode_eq_flatMap]
  | cons c s ih =>
    rw [encode_eq_flatMap, List.flatMap_cons, List.count_append, ← encode_eq_flatMap, ih,
      count_utf8EncodeChar, List.count_cons, Nat.add_comm]
    simp

theorem newline_not_mem_encode {s : Str} (h : '\n' ∉ s) : 10 ∉ encode s := by
  rw [← List.count_eq_zero] at h ⊢
  rw [count_encode, h]

/-! ## Messages -/

/-- A message that a validator signs. -/
inductive Signed
  | request (method path timestamp : Str) (body : Bytes)
  | grant (publicKey nonce : Str)
  | release (digest : Str) (timestamp : ℤ)
  deriving DecidableEq, Repr

namespace Signed

/-- The bytes that are signed. -/
def bytes : Signed → Bytes
  | .request method path timestamp body => signingBytes method path timestamp body
  | .grant publicKey nonce => grantBlob publicKey nonce
  | .release digest timestamp => releaseMessage digest timestamp

/-- A method as HTTP delivers it: ASCII, and no newline. -/
def IsMethod (method : Str) : Prop :=
  ∀ c ∈ method, c.toNat < 128 ∧ c ≠ '\n'

/-- The message gets as far as the signature: what the agent's checks, and HTTP before them, make
sure of. The fields of a grant have gone through `SessionOpen.from_payload`. -/
def Checked : Signed → Prop
  | .request method path timestamp _ => IsMethod method ∧ '\n' ∉ path ∧ '\n' ∉ timestamp
  | .grant publicKey nonce =>
    (∃ text, publicKey = strip text) ∧ (∃ text, nonce = (strip text).map Char.toLower) ∧
      wellFormedPublicKey publicKey ∧ wellFormedNonce nonce
  | .release digest _ => wellFormedDigest digest

/-- The message with its method in capital letters. -/
def canonical : Signed → Signed
  | .request method path timestamp body => .request (method.map Char.toUpper) path timestamp body
  | .grant publicKey nonce => .grant publicKey nonce
  | .release digest timestamp => .release digest timestamp

/-! ## What the checks leave -/

/-- A method in upper case is one line. -/
theorem newline_not_mem_upper {method : Str} (h : IsMethod method) :
    '\n' ∉ method.map Char.toUpper := by
  have hascii : ∀ n < 128, (Char.ofNat n).toUpper = '\n' → Char.ofNat n = '\n' := by decide
  intro hmem
  obtain ⟨c, hc, hupper⟩ := List.mem_map.mp hmem
  obtain ⟨hlt, hne⟩ := h c hc
  have hnewline := hascii c.toNat hlt
  rw [Char.ofNat_toNat] at hnewline
  exact hne (hnewline hupper)

/-- A pattern that ends in `$` lets one newline through at most. -/
theorem count_newline_le_one {accepts : Str → Bool} {s : Str}
    (haccepts : ∀ t, accepts t → '\n' ∉ t) (h : matchesToEnd accepts s) : s.count '\n' ≤ 1 := by
  simp only [matchesToEnd, Bool.or_eq_true, Bool.and_eq_true, decide_eq_true_eq] at h
  rcases h with h | ⟨hlast, h⟩
  · rw [List.count_eq_zero.mpr (haccepts s h)]
    exact Nat.zero_le 1
  · obtain ⟨core, rfl⟩ := List.getLast?_eq_some_iff.mp hlast
    rw [List.dropLast_concat] at h
    rw [List.count_append, List.count_eq_zero.mpr (haccepts core h)]
    decide

/-- What a pattern starts with, the matched text starts with. -/
theorem isPrefix_of_matchesToEnd {accepts : Str → Bool} {start : Str → Prop} {s : Str}
    (haccepts : ∀ t, accepts t → ∃ u, start u ∧ u <+: t) (h : matchesToEnd accepts s) :
    ∃ u, start u ∧ u <+: s := by
  simp only [matchesToEnd, Bool.or_eq_true, Bool.and_eq_true] at h
  rcases h with h | ⟨-, h⟩
  · exact haccepts s h
  · obtain ⟨u, hu, hpre⟩ := haccepts _ h
    exact ⟨u, hu, hpre.trans (List.dropLast_prefix s)⟩

theorem newline_not_mem_of_hex64 {s : Str} (h : hex64 s) : '\n' ∉ s :=
  fun hc => absurd (isHex_of_hex64 h _ hc) (by decide)

/-- A digest is one line. -/
theorem newline_not_mem_of_digestPattern {s : Str} (h : digestPattern s) : '\n' ∉ s := by
  simp only [digestPattern, Bool.and_eq_true, List.isPrefixOf_iff_prefix] at h
  obtain ⟨⟨rest, rfl⟩, hhex⟩ := h
  rw [List.drop_left] at hhex
  rw [List.mem_append, not_or]
  exact ⟨by decide, newline_not_mem_of_hex64 hhex⟩

/-- The second letter of a digest is an `h`. -/
theorem take_of_wellFormedDigest {digest : Str} (h : wellFormedDigest digest) (rest : Str) :
    (digest ++ rest).take 2 = ['s', 'h'] := by
  have hstart : ∃ u, u = sha256Tag ∧ u <+: digest := by
    refine isPrefix_of_matchesToEnd (fun t ht => ?_) h
    simp only [digestPattern, Bool.and_eq_true, List.isPrefixOf_iff_prefix] at ht
    exact ⟨_, rfl, ht.1⟩
  obtain ⟨_, rfl, tail, rfl⟩ := hstart
  rfl

/-- The second letter of a key is none. -/
theorem take_of_wellFormedPublicKey {publicKey : Str} (hstrip : strip publicKey = publicKey)
    (h : wellFormedPublicKey publicKey) (rest : Str) :
    (publicKey ++ rest).take 2 ≠ ['s', 'h'] := by
  have hstart : ∃ u, u ∈ keyTypes ∧ u <+: publicKey := by
    simp only [wellFormedPublicKey, hstrip, Bool.and_eq_true] at h
    refine isPrefix_of_matchesToEnd (fun t ht => ?_) h.2
    simp only [publicKeyPattern, List.any_eq_true, Bool.and_eq_true,
      List.isPrefixOf_iff_prefix] at ht
    obtain ⟨type, htype, hpre, -⟩ := ht
    exact ⟨type, htype, (List.prefix_append type [' ']).trans hpre⟩
  obtain ⟨type, htype, tail, rfl⟩ := hstart
  have hlength : ∀ type ∈ keyTypes, 2 ≤ type.length ∧ type.take 2 ≠ ['s', 'h'] := by
    decide +kernel
  obtain ⟨hlen, hne⟩ := hlength type htype
  rw [List.append_assoc, List.take_append_of_le_length hlen]
  exact hne

/-- A key that was stripped is one line. -/
theorem newline_not_mem_of_wellFormedPublicKey {publicKey : Str}
    (hstrip : strip publicKey = publicKey) (h : wellFormedPublicKey publicKey) :
    '\n' ∉ publicKey := by
  simp only [wellFormedPublicKey, hstrip, Bool.and_eq_true] at h
  simpa using h.1

/-! ### Newlines -/

theorem three_le_count_request (method path timestamp : Str) (body : Bytes) :
    3 ≤ (request method path timestamp body).bytes.count 10 := by
  simp only [bytes, signingBytes, List.count_append, List.count_cons_self]
  omega

/-- A grant is three lines. -/
theorem count_grant_le_two {publicKey nonce : Str} (h : (grant publicKey nonce).Checked) :
    (grant publicKey nonce).bytes.count 10 ≤ 2 := by
  obtain ⟨⟨text, rfl⟩, -, hkey, hnonce⟩ := h
  have hone : nonce.count '\n' ≤ 1 :=
    count_newline_le_one (fun _ ht => newline_not_mem_of_hex64 ht) hnonce
  have hzero : (strip text).count '\n' = 0 :=
    List.count_eq_zero.mpr (newline_not_mem_of_wellFormedPublicKey (strip_strip text) hkey)
  rw [bytes, grantBlob, count_encode, List.count_append, List.count_cons_self]
  omega

/-- A release is three lines. -/
theorem count_release_le_two {digest : Str} {timestamp : ℤ}
    (h : (release digest timestamp).Checked) : (release digest timestamp).bytes.count 10 ≤ 2 := by
  have hone : digest.count '\n' ≤ 1 :=
    count_newline_le_one (fun _ ht => newline_not_mem_of_digestPattern ht) h
  have hzero : (Json.intText timestamp).count '\n' = 0 :=
    List.count_eq_zero.mpr (Json.newline_not_mem_intText timestamp)
  rw [bytes, releaseMessage, count_encode, List.count_append, List.count_cons_self]
  omega

/-! ## One kind at a time -/

/-- A request is read back off its bytes: the method and the path end at the first newlines, and the
body is last. -/
theorem request_inj {method method' path path' timestamp timestamp' : Str} {body body' : Bytes}
    (h : (request method path timestamp body).Checked)
    (h' : (request method' path' timestamp' body').Checked)
    (hbytes : (request method path timestamp body).bytes =
      (request method' path' timestamp' body').bytes) :
    (request method path timestamp body).canonical =
      (request method' path' timestamp' body').canonical := by
  obtain ⟨hmethod, hpath, htime⟩ := h
  obtain ⟨hmethod', hpath', htime'⟩ := h'
  simp only [bytes, signingBytes, List.append_assoc, List.cons_append] at hbytes
  -- the first three newlines are where the parts meet
  obtain ⟨hm, hbytes⟩ := append_cons_inj_left
    (newline_not_mem_encode (newline_not_mem_upper hmethod))
    (newline_not_mem_encode (newline_not_mem_upper hmethod')) hbytes
  obtain ⟨hp, hbytes⟩ := append_cons_inj_left (newline_not_mem_encode hpath)
    (newline_not_mem_encode hpath') hbytes
  obtain ⟨ht, rfl⟩ := append_cons_inj_left (newline_not_mem_encode htime)
    (newline_not_mem_encode htime') hbytes
  rw [canonical, canonical, encode_injective hm, encode_injective hp, encode_injective ht]

/-- A grant is read back off its three lines. -/
theorem grant_inj {publicKey publicKey' nonce nonce' : Str}
    (h : (grant publicKey nonce).Checked) (h' : (grant publicKey' nonce').Checked)
    (hbytes : (grant publicKey nonce).bytes = (grant publicKey' nonce').bytes) :
    grant publicKey nonce = grant publicKey' nonce' := by
  obtain ⟨⟨text, rfl⟩, -, hkey, -⟩ := h
  obtain ⟨⟨text', rfl⟩, -, hkey', -⟩ := h'
  obtain ⟨hkeys, rfl⟩ := append_cons_inj_left
    (newline_not_mem_of_wellFormedPublicKey (strip_strip text) hkey)
    (newline_not_mem_of_wellFormedPublicKey (strip_strip text') hkey') (encode_injective hbytes)
  rw [hkeys]

/-- A release is read back off its lines. -/
theorem release_inj {digest digest' : Str} {timestamp timestamp' : ℤ}
    (hbytes : (release digest timestamp).bytes = (release digest' timestamp').bytes) :
    release digest timestamp = release digest' timestamp' := by
  obtain ⟨rfl, ht⟩ := append_cons_inj (Json.newline_not_mem_intText timestamp)
    (Json.newline_not_mem_intText timestamp') (encode_injective hbytes)
  rw [Json.intText_injective ht]

/-- The first lines differ. -/
theorem grant_ne_release {publicKey nonce digest : Str} {timestamp : ℤ}
    (h : (grant publicKey nonce).Checked) (h' : (release digest timestamp).Checked) :
    (grant publicKey nonce).bytes ≠ (release digest timestamp).bytes := by
  intro hbytes
  obtain ⟨⟨text, rfl⟩, -, hkey, -⟩ := h
  have htexts := encode_injective hbytes
  refine take_of_wellFormedPublicKey (strip_strip text) hkey ('\n' :: nonce) ?_
  rw [htexts]
  exact take_of_wellFormedDigest h' _

/-- The bytes determine the message, up to the case of the method. -/
theorem canonical_eq_of_bytes_eq {m m' : Signed} (h : m.Checked) (h' : m'.Checked)
    (hbytes : m.bytes = m'.bytes) : m.canonical = m'.canonical := by
  -- a request has more newlines than the other two kinds
  have hrequest {method path timestamp : Str} {body : Bytes} {other : Signed}
      (hcount : other.bytes.count 10 ≤ 2) :
      (request method path timestamp body).bytes ≠ other.bytes := by
    intro heq
    have hthree := three_le_count_request method path timestamp body
    rw [heq] at hthree
    omega
  match m, m' with
  | .request .., .request .. => exact request_inj h h' hbytes
  | .request .., .grant .. => exact absurd hbytes (hrequest (count_grant_le_two h'))
  | .request .., .release .. => exact absurd hbytes (hrequest (count_release_le_two h'))
  | .grant .., .request .. => exact absurd hbytes.symm (hrequest (count_grant_le_two h))
  | .grant .., .grant .. => exact congrArg canonical (grant_inj h h' hbytes)
  | .grant .., .release .. => exact absurd hbytes (grant_ne_release h h')
  | .release .., .request .. => exact absurd hbytes.symm (hrequest (count_release_le_two h))
  | .release .., .grant .. => exact absurd hbytes.symm (grant_ne_release h' h)
  | .release .., .release .. => exact congrArg canonical (release_inj hbytes)

end Signed

end ComputePool.Protocol
