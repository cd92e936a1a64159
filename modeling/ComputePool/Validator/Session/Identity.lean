import ComputePool.Agent.Api.Auth
import ComputePool.Foundations.FixedPoint
import ComputePool.Foundations.Hex
import ComputePool.Foundations.SortedJson

/-!
# The identity of a validator

`Identity` of `validator/identity.py`: the hotkey a validator signs with. What it signs is looked at
by the agent (`agent/api/auth.py`), so the two are read together here.

* `sign`, `timestamp` and `headers`: what a signed request carries.
* `verifyHotkey_sign`: the agent accepts the signatures of a hotkey.
* `checkRequest_request`: it lets a request through whose time is near enough to its own clock.
-/

namespace ComputePool.Validator

open Text Numeral Protocol Base64
open Json (Printer)

/-- `Identity`: the key pair, and the time of the last request. -/
structure Identity where
  /-- `self._key.ss58_address`. -/
  hotkey : Str
  /-- `self._key.sign`. -/
  signBytes : Bytes → Bytes
  lastStamp : ℚ := 0

/-- `canonical_json`. -/
def canonicalJson (p : Printer) (body : Dict Str Json) : Bytes :=
  (Json.dumpsSorted p body).map UInt8.ofNat

namespace Identity

/-- `sign`. -/
def sign (id : Identity) (message : Bytes) : Str :=
  "0x".toList ++ hexText ((id.signBytes message).map UInt8.toNat)

/-- The time that `timestamp` writes: later than the one before. -/
def stampAt (id : Identity) (time : ℚ) : ℚ :=
  max time (id.lastStamp + 1 / 1000)

/-- `timestamp`, with the identity afterwards. -/
def timestamp (id : Identity) (time : ℚ) : Str × Identity :=
  (fixedText (id.stampAt time), { id with lastStamp := id.stampAt time })

/-- A request with the headers of `headers`, as the agent sees it. -/
def request (id : Identity) (time : ℚ) (method path : Str) (body : Bytes) : Agent.Request :=
  let timestamp := (id.timestamp time).1
  { method, path, hotkey := id.hotkey, timestamp, body
    signature := id.sign (signingBytes method path timestamp body) }

@[simp]
theorem body_request (id : Identity) (time : ℚ) (method path : Str) (body : Bytes) :
    (id.request time method path body).body = body := rfl

end Identity

/-! ## Signatures as text -/

/-- `bytes.fromhex` undoes `hex`. -/
theorem bytesFromHex_hexText (bytes : Bytes) :
    Agent.bytesFromHex (hexText (bytes.map UInt8.toNat)) = some bytes := by
  induction bytes with
  | nil => rfl
  | cons b bytes ih =>
    have hb : b.toNat < 256 := b.toNat_lt
    obtain ⟨hhigh, hhigh', hspace, -⟩ := digitChar_spec (n := b.toNat / 16) (by omega)
    obtain ⟨hlow, hlow', -, -⟩ := digitChar_spec (n := b.toNat % 16) (by omega)
    have hblank : Agent.isAsciiSpace (Nat.digitChar (b.toNat / 16)) = false := by
      rw [Bool.eq_false_iff]
      intro hblank
      have hsub : ∀ n ∈ [0x9, 0xa, 0xb, 0xc, 0xd, 0x20], isSpace (Char.ofNat n) = true := by decide
      have hmem := of_decide_eq_true hblank
      have := hsub _ hmem
      rw [Char.ofNat_toNat, hspace] at this
      cases this
    rw [List.map_cons, hexText_cons hb, Agent.bytesFromHex, hblank, if_neg (by simp),
      if_pos ⟨hhigh', hlow'⟩, hhigh, hlow, ih]
    have hbyte : UInt8.ofNat (16 * (b.toNat / 16) + b.toNat % 16) = b := by
      rw [Nat.div_add_mod, UInt8.ofNat_toNat]
    exact congrArg (fun byte => some (byte :: bytes)) hbyte

variable {id : Identity} {verify : Str → Bytes → Bytes → Bool}

theorem sign_ne_nil (message : Bytes) : id.sign message ≠ [] := by
  simp [Identity.sign]

/-- A signature is made of hex digits, so nothing is stripped off it. -/
theorem isSpace_of_mem_sign {message : Bytes} {c : Char} (h : c ∈ id.sign message) :
    isSpace c = false := by
  rcases List.mem_append.mp h with h | h
  · have htag : ("0x".toList.all fun c => isSpace c = false) = true := by decide +kernel
    simpa using List.all_eq_true.mp htag c h
  · exact isSpace_of_mem_hexText (areBytes_map_toNat _) h

theorem strip_sign (message : Bytes) : strip (id.sign message) = id.sign message :=
  strip_eq_self fun _ => isSpace_of_mem_sign

/-- A signature of a hotkey verifies for it. -/
theorem verifyHotkey_sign (hverify : ∀ message, verify id.hotkey message (id.signBytes message))
    (hhotkey : id.hotkey ≠ []) (message : Bytes) :
    Agent.verifyHotkey verify id.hotkey message (id.sign message) = true := by
  have htext : Agent.signatureText (id.sign message) =
      hexText ((id.signBytes message).map UInt8.toNat) := by
    rw [Agent.signatureText, strip_sign]
    exact if_pos rfl
  rw [Agent.verifyHotkey, if_neg (not_or.mpr ⟨hhotkey, sign_ne_nil message⟩), htext,
    bytesFromHex_hexText]
  exact hverify message

/-- The agent lets a request through if its time is near enough. -/
theorem checkRequest_request (hverify : ∀ message, verify id.hotkey message (id.signBytes message))
    (hhotkey : id.hotkey ≠ []) (hstrip : strip id.hotkey = id.hotkey) {validators : List Str}
    (hactive : id.hotkey ∈ validators) {time moment window : ℚ} (hnonneg : 0 ≤ id.stampAt time)
    (hfinite : id.stampAt time + 1 < floatOverflow)
    (hnear : |moment - id.stampAt time| + (1 / 2000 + (id.stampAt time + 2) / 2 ^ 53) ≤ window)
    (method path : Str) (body : Bytes) :
    Agent.checkRequest verify validators (id.request time method path body) window moment =
      .ok id.hotkey := by
  obtain ⟨stamped, hread, hround⟩ := abs_sub_of_fixedText hnonneg hfinite
  have htime : strip (fixedText (id.stampAt time)) = fixedText (id.stampAt time) :=
    strip_eq_self fun _ => isSpace_of_mem_thousandths
  have hfresh : Agent.fresh (fixedText (id.stampAt time)) window moment = true := by
    rw [Agent.fresh, hread]
    refine decide_eq_true ((abs_sub_le moment (id.stampAt time) stamped).trans ?_)
    linarith
  have hpresent : ¬ (id.hotkey = [] ∨ fixedText (id.stampAt time) = [] ∨
      id.sign (signingBytes method path (fixedText (id.stampAt time)) body) = []) :=
    not_or.mpr ⟨hhotkey, not_or.mpr ⟨thousandths_ne_nil _, sign_ne_nil _⟩⟩
  rw [Agent.checkRequest]
  simp only [Identity.request, Identity.timestamp, hstrip, htime, strip_sign]
  rw [if_neg hpresent, if_neg (not_not.mpr hactive), hfresh, if_neg (by simp),
    verifyHotkey_sign hverify hhotkey, if_neg (by simp)]

end ComputePool.Validator
