import Mathlib.Data.List.TakeWhile
import ComputePool.Protocol.Session

/-!
# The authorized_keys file

`agent/access/ssh_keys.py`: the key of a session is one line of the file, the key itself followed
by `mt-session:` and the session id. Lines are read with `splitlines`, written one per line, and
found again by three different rules: `revoke` looks at the end of the line, `revoke_all_sessions`
for the marker anywhere in it, `active_sessions` at what follows the last marker.

* `WellMarked`: every line with a marker is one that `grant` writes. On such a file the three
  rules agree.
* `hasLine_grant`, `hasLine_revoke`, `mem_activeSessions`: which sessions have a line afterwards.
* `unmarked_grant`, `unmarked_revoke`, `unmarked_revokeAllSessions`: the other lines stay.
-/

namespace ComputePool.Agent.SshKeys

open Text Protocol

/-- The text of the key file; `none` when there is no file. -/
abbrev KeyFile := Option Str

/-- `MARKER`. -/
def marker : Str :=
  "mt-session:".toList

/-- `PUBLIC_KEY` up to its `$`: a key type and a key, no comment. -/
def publicKey (s : Str) : Bool :=
  keyTypes.any fun type =>
    (type ++ [' ']).isPrefixOf s && afterKeyBody (s.drop (type.length + 1)) = some []

/-- `canonical`. -/
def canonical (text : Str) : Option Str :=
  match split (strip text) with
  | type :: key :: _ =>
    if type ∈ keyTypes then
      let candidate := type ++ ' ' :: key
      if matchesToEnd publicKey candidate then some candidate else none
    else none
  | _ => none

/-- `_read`. -/
def read : KeyFile → List Str
  | none => []
  | some text => splitLines text

/-- `_write`: the file is replaced as a whole. -/
def write (lines : List Str) : KeyFile :=
  some (joinLines lines)

/-- The line `grant` writes. -/
def sessionLine (key sessionId : Str) : Str :=
  key ++ ' ' :: (marker ++ sessionId)

/-- `line.endswith(f"{MARKER}{session_id}")`. -/
def isLineOf (sessionId line : Str) : Bool :=
  endsWith line (marker ++ sessionId)

/-- `grant`: the line of the session goes to the end of the file, in place of an older one. -/
def grant (text sessionId : Str) (file : KeyFile) : Except String (Str × KeyFile) :=
  match canonical text with
  | none => .error "public key is not an accepted OpenSSH key"
  | some key =>
    let line := sessionLine key sessionId
    let lines := (read file).filter fun existing => !isLineOf sessionId existing
    .ok (line, write (lines ++ [line]))

/-- `revoke`: whether a line was removed, and the file afterwards. -/
def revoke (sessionId : Str) (file : KeyFile) : Bool × KeyFile :=
  let lines := read file
  let kept := lines.filter fun line => !isLineOf sessionId line
  if kept.length = lines.length then (false, file) else (true, write kept)

/-- `revoke_all_sessions`: how many lines were removed, and the file afterwards. -/
def revokeAllSessions (file : KeyFile) : ℕ × KeyFile :=
  let lines := read file
  let kept := lines.filter fun line => !contains line marker
  let removed := lines.length - kept.length
  (removed, if removed = 0 then file else write kept)

/-- `active_sessions`. -/
def activeSessions (file : KeyFile) : List Str :=
  (read file).filterMap fun line =>
    (rfind line marker).map fun at_ => strip (line.drop (at_ + marker.length))

/-! ## Canonical keys -/

/-- Characters that can stand in a canonical key: no colon and no line boundary. -/
def isKeyChar (c : Char) : Bool :=
  c ≠ ':' && !isLineBreak c

theorem isKeyChar_of_mem_keyTypes : ∀ type ∈ keyTypes, ∀ c ∈ type, isKeyChar c := by
  have hall : (keyTypes.all fun type => type.all isKeyChar) = true := by decide +kernel
  intro type htype
  exact List.all_eq_true.mp (List.all_eq_true.mp hall type htype)

theorem not_colon_of_isBase64 {c : Char} (h : isBase64 c) : c ≠ ':' := by
  rintro rfl
  exact absurd h (by decide)

/-- What follows the body of a key, up to the end, holds no colon. -/
theorem not_colon_of_afterKeyBody {s : Str} (h : afterKeyBody s = some []) : ':' ∉ s := by
  intro hc
  simp only [afterKeyBody, Option.ite_none_left_eq_some, Option.some.injEq] at h
  rw [← List.takeWhile_append_dropWhile (p := isBase64) (l := s), List.mem_append] at hc
  rcases hc with hc | hc
  · exact not_colon_of_isBase64 (List.mem_takeWhile_imp hc) rfl
  · have heq : ∀ c ∈ s.dropWhile isBase64, c = '=' := by
      simpa [List.dropWhile_eq_nil_iff] using h.2
    exact absurd (heq _ hc) (by decide)

/-- No key holds a colon, so a marker never begins inside one. -/
theorem not_colon_of_publicKey {s : Str} (h : publicKey s) : ':' ∉ s := by
  simp only [publicKey, List.any_eq_true, Bool.and_eq_true, List.isPrefixOf_iff_prefix,
    decide_eq_true_eq] at h
  obtain ⟨type, htype, ⟨rest, hrest⟩, hbody⟩ := h
  have hdrop : s.drop (type.length + 1) = rest := by
    rw [← hrest, ← List.length_singleton (a := ' '), ← List.length_append, List.drop_left]
  rw [hdrop] at hbody
  rw [← hrest]
  intro hc
  rcases List.mem_append.mp hc with hc | hc
  · rcases List.mem_append.mp hc with hc | hc
    · exact absurd (isKeyChar_of_mem_keyTypes type htype _ hc) (by decide)
    · exact absurd (List.mem_singleton.mp hc) (by decide)
  · exact not_colon_of_afterKeyBody hbody hc

/-- A canonical key has no colon and no line boundary. -/
theorem isKeyChar_of_canonical {text key : Str} (h : canonical text = some key) :
    ∀ c ∈ key, isKeyChar c := by
  unfold canonical at h
  split at h
  case h_2 => cases h
  case h_1 type body rest hsplit =>
    dsimp only at h
    split_ifs at h with htype hmatch
    obtain rfl := Option.some.inj h
    -- `$` lets a line break pass, and that is no colon either
    have hcolon : ':' ∉ type ++ ' ' :: body := by
      simp only [matchesToEnd, Bool.or_eq_true, Bool.and_eq_true, decide_eq_true_eq] at hmatch
      rcases hmatch with hmatch | ⟨hlast, hmatch⟩
      · exact not_colon_of_publicKey hmatch
      · obtain ⟨init, hinit⟩ := List.getLast?_eq_some_iff.mp hlast
        rw [hinit] at hmatch ⊢
        rw [List.dropLast_concat] at hmatch
        intro hc
        rcases List.mem_append.mp hc with hc | hc
        · exact not_colon_of_publicKey hmatch hc
        · exact absurd (List.mem_singleton.mp hc) (by decide)
    have hbody : ∀ c ∈ body, isSpace c = false :=
      not_isSpace_of_mem_split (s := strip text) (by rw [hsplit]; simp)
    intro c hc
    have hne : c ≠ ':' := fun heq => hcolon (heq ▸ hc)
    -- neither the type nor the body has a line break
    have hline : isLineBreak c = false := by
      rcases List.mem_append.mp hc with hc | hc
      · have := isKeyChar_of_mem_keyTypes type htype c hc
        simp only [isKeyChar, Bool.and_eq_true, Bool.not_eq_true'] at this
        exact this.2
      · rcases List.mem_cons.mp hc with rfl | hc
        · decide
        · rw [Bool.eq_false_iff]
          intro hbreak
          exact absurd (isSpace_of_isLineBreak hbreak) (by simp [hbody c hc])
    simp [isKeyChar, hne, hline]

theorem not_isSpace_of_mem_keyTypes : ∀ type ∈ keyTypes, ∀ c ∈ type, isSpace c = false := by
  have hall : (keyTypes.all fun type => type.all fun c => !isSpace c) = true := by decide +kernel
  intro type htype c hc
  simpa using List.all_eq_true.mp (List.all_eq_true.mp hall type htype) c hc

/-- A canonical key is its own canonical form: `grant` installs the key `open` hands it. -/
theorem canonical_of_canonical {text key : Str} (h : canonical text = some key) :
    canonical key = some key := by
  unfold canonical at h
  split at h
  case h_2 => cases h
  case h_1 type body rest hsplit =>
    dsimp only at h
    split_ifs at h with htype hmatch
    obtain rfl := Option.some.inj h
    have hbody : body ∈ split (strip text) := by
      rw [hsplit]
      simp
    have hne : type ≠ [] := by
      rintro rfl
      exact absurd htype (by decide +kernel)
    have htypec := not_isSpace_of_mem_keyTypes type htype
    -- the two words come back as they are
    have hstrip : strip (type ++ ' ' :: body) = type ++ ' ' :: body :=
      strip_append_append [' '] hne (ne_nil_of_mem_split hbody) htypec
        (not_isSpace_of_mem_split hbody)
    have hwords : split (type ++ ' ' :: body) = [type, body] :=
      split_two hne (ne_nil_of_mem_split hbody) htypec (not_isSpace_of_mem_split hbody)
    rw [canonical, hstrip, hwords]
    simp [htype, hmatch]

/-! ## Lines of sessions -/

/-- The shape of a session id: no colon and no white space. -/
def IsSessionId (sessionId : Str) : Prop :=
  ∀ c ∈ sessionId, c ≠ ':' ∧ isSpace c = false

/-- A line `grant` can have written. -/
def IsSessionLine (line : Str) : Prop :=
  ∃ key sessionId, (∀ c ∈ key, isKeyChar c) ∧ IsSessionId sessionId ∧
    line = sessionLine key sessionId

/-- Every line with a marker is one that `grant` can have written. -/
def WellMarked (file : KeyFile) : Prop :=
  ∀ line ∈ read file, contains line marker → IsSessionLine line

/-- The session has a line in the file. -/
def HasLine (file : KeyFile) (sessionId : Str) : Prop :=
  ∃ line ∈ read file, isLineOf sessionId line

/-- The lines without a marker, in order. -/
def unmarked (file : KeyFile) : List Str :=
  (read file).filter fun line => !contains line marker

/-- The marker without its colon. -/
def markerWord : Str :=
  "mt-session".toList

theorem marker_append (t : Str) : marker ++ t = markerWord ++ ':' :: t := rfl

theorem contains_of_isLineOf {sessionId line : Str} (h : isLineOf sessionId line) :
    contains line marker := by
  obtain ⟨pre, hpre⟩ := endsWith_iff.mp h
  exact contains_iff.mpr ⟨pre, sessionId, by rw [← hpre, List.append_assoc]⟩

theorem isLineOf_self (key sessionId : Str) : isLineOf sessionId (sessionLine key sessionId) :=
  endsWith_iff.mpr ⟨key ++ [' '], by simp [sessionLine]⟩

theorem not_colon_of_isKeyChar {key : Str} (hkey : ∀ c ∈ key, isKeyChar c) : ':' ∉ key :=
  fun hc => absurd (hkey _ hc) (by decide)

/-- A session line ends in no other id than its own: its only colon is the one of the marker. -/
theorem isLineOf_sessionLine {key sessionId other : Str} (hkey : ∀ c ∈ key, isKeyChar c)
    (hid : IsSessionId sessionId) :
    isLineOf other (sessionLine key sessionId) ↔ other = sessionId := by
  constructor
  · intro h
    obtain ⟨pre, hpre⟩ := endsWith_iff.mp h
    have hcolon : ':' ∉ key := not_colon_of_isKeyChar hkey
    have hidc : ':' ∉ sessionId := fun hc => (hid _ hc).1 rfl
    have hline : (pre ++ markerWord) ++ ':' :: other =
        (key ++ ' ' :: markerWord) ++ ':' :: sessionId := by
      simpa [sessionLine, marker_append] using hpre
    -- counting colons: the other id has none, so the marker is the last one in both
    have hcount := congrArg (List.count ':') hline
    have hkey0 : key.count ':' = 0 := List.count_eq_zero.mpr hcolon
    have hid0 : sessionId.count ':' = 0 := List.count_eq_zero.mpr hidc
    have hword : markerWord.count ':' = 0 := by decide
    have hspace : (' ' :: markerWord).count ':' = 0 := by decide
    simp only [List.count_append, List.count_cons_self, hkey0, hid0, hword, hspace] at hcount
    have hother : ':' ∉ other := List.count_eq_zero.mp (by omega)
    exact (append_cons_inj hother hidc hline).2
  · rintro rfl
    exact isLineOf_self key other

/-- A line is of one session. -/
theorem IsSessionLine.eq_of_isLineOf {line : Str} (h : IsSessionLine line) {a b : Str}
    (ha : isLineOf a line) (hb : isLineOf b line) : a = b := by
  obtain ⟨key, sid, hkey, hid, rfl⟩ := h
  rw [isLineOf_sessionLine hkey hid] at ha hb
  exact ha.trans hb.symm

/-- A session is one line of the file. -/
theorem oneLine_sessionLine {key sessionId : Str} (hkey : ∀ c ∈ key, isKeyChar c)
    (hid : IsSessionId sessionId) : OneLine (sessionLine key sessionId) := by
  have hk : OneLine key := fun c hc => by
    have := hkey c hc
    simp only [isKeyChar, Bool.and_eq_true, Bool.not_eq_true'] at this
    exact this.2
  have hm : OneLine (' ' :: marker) := by
    have hall : (' ' :: marker).all (fun c => !isLineBreak c) = true := by decide +kernel
    intro c hc
    simpa using List.all_eq_true.mp hall c hc
  have hi : OneLine sessionId := fun c hc => by
    rw [Bool.eq_false_iff]
    intro hbreak
    exact absurd (isSpace_of_isLineBreak hbreak) (by simp [(hid c hc).2])
  exact hk.append (hm.append hi)

/-! ## What the operations leave in the file -/

/-- What is read of the file are lines. -/
theorem oneLine_of_mem_read {file : KeyFile} {line : Str} (h : line ∈ read file) :
    OneLine line := by
  cases file with
  | none => simp [read] at h
  | some text => exact oneLine_of_mem_splitLines h

theorem read_write {lines : List Str} (h : ∀ line ∈ lines, OneLine line) :
    read (write lines) = lines :=
  splitLines_joinLines h

/-- Revoking takes the lines of the session and leaves the others in order. -/
theorem read_revoke (sessionId : Str) (file : KeyFile) :
    read (revoke sessionId file).2 = (read file).filter fun line => !isLineOf sessionId line := by
  unfold revoke
  dsimp only
  split_ifs with hlen
  · exact (List.filter_eq_self.mpr (List.length_filter_eq_length_iff.mp hlen)).symm
  · exact read_write fun line hl => oneLine_of_mem_read (List.mem_of_mem_filter hl)

/-- Revoking all leaves the owner's lines. -/
theorem read_revokeAllSessions (file : KeyFile) :
    read (revokeAllSessions file).2 = unmarked file := by
  unfold revokeAllSessions unmarked
  dsimp only
  split_ifs with hlen
  · have hle := List.length_filter_le (fun line => !contains line marker) (read file)
    refine (List.filter_eq_self.mpr (List.length_filter_eq_length_iff.mp ?_)).symm
    omega
  · exact read_write fun line hl => oneLine_of_mem_read (List.mem_of_mem_filter hl)

/-- Granting writes one line at the end, for the key in its canonical form, after the old lines of
the session went. -/
theorem read_grant {text sessionId line : Str} {file file' : KeyFile} (hid : IsSessionId sessionId)
    (h : grant text sessionId file = .ok (line, file')) :
    ∃ key, canonical text = some key ∧ line = sessionLine key sessionId ∧
      read file' = ((read file).filter fun existing => !isLineOf sessionId existing) ++ [line] := by
  unfold grant at h
  split at h
  case h_1 => cases h
  case h_2 key hkey =>
    obtain ⟨rfl, rfl⟩ := Prod.mk.inj (Except.ok.inj h)
    refine ⟨key, hkey, rfl, read_write fun l hl => ?_⟩
    rcases List.mem_append.mp hl with hl | hl
    · exact oneLine_of_mem_read (List.mem_of_mem_filter hl)
    · rw [List.mem_singleton.mp hl]
      exact oneLine_sessionLine (isKeyChar_of_canonical hkey) hid

/-! ### Lines without a marker -/

/-- The owner's lines stay when a session is revoked. -/
theorem unmarked_revoke (sessionId : Str) (file : KeyFile) :
    unmarked (revoke sessionId file).2 = unmarked file := by
  unfold unmarked
  rw [read_revoke, List.filter_filter]
  refine List.filter_congr fun line _ => ?_
  cases hm : isLineOf sessionId line
  · simp
  · simp [contains_of_isLineOf hm]

/-- The owner's lines stay when all sessions are revoked. -/
theorem unmarked_revokeAllSessions (file : KeyFile) :
    unmarked (revokeAllSessions file).2 = unmarked file := by
  unfold unmarked
  rw [read_revokeAllSessions, unmarked, List.filter_filter]
  simp

/-- The owner's lines stay when a session is granted. -/
theorem unmarked_grant {text sessionId line : Str} {file file' : KeyFile}
    (hid : IsSessionId sessionId) (h : grant text sessionId file = .ok (line, file')) :
    unmarked file' = unmarked file := by
  obtain ⟨key, -, rfl, hread⟩ := read_grant hid h
  have hrevoke := unmarked_revoke sessionId file
  have hline : contains (sessionLine key sessionId) marker :=
    contains_of_isLineOf (isLineOf_self key sessionId)
  unfold unmarked at hrevoke ⊢
  rw [read_revoke] at hrevoke
  rw [hread, List.filter_append, hrevoke]
  simp [hline]

/-! ### Sessions with a line -/

/-- Revoking a session writes no line. -/
theorem WellMarked.revoke {file : KeyFile} (h : WellMarked file) (sessionId : Str) :
    WellMarked (revoke sessionId file).2 := by
  intro line hl
  rw [read_revoke] at hl
  exact h line (List.mem_of_mem_filter hl)

/-- No line with a marker is left when all sessions are revoked. -/
theorem wellMarked_revokeAllSessions (file : KeyFile) :
    WellMarked (revokeAllSessions file).2 := by
  intro line hl hmark
  rw [read_revokeAllSessions] at hl
  simp [unmarked, hmark] at hl

/-- The line that is granted is the one line with a marker that comes in. -/
theorem WellMarked.grant {text sessionId line : Str} {file file' : KeyFile} (hf : WellMarked file)
    (hid : IsSessionId sessionId) (h : grant text sessionId file = .ok (line, file')) :
    WellMarked file' := by
  obtain ⟨key, hkey, rfl, hread⟩ := read_grant hid h
  intro l hl hmark
  rw [hread] at hl
  rcases List.mem_append.mp hl with hl | hl
  · exact hf l (List.mem_of_mem_filter hl) hmark
  · exact ⟨key, sessionId, isKeyChar_of_canonical hkey, hid, List.mem_singleton.mp hl⟩

/-- Revoking a session takes its line away and no other. -/
theorem hasLine_revoke {file : KeyFile} (hf : WellMarked file) {sessionId other : Str} :
    HasLine (revoke sessionId file).2 other ↔ other ≠ sessionId ∧ HasLine file other := by
  simp only [HasLine, read_revoke, List.mem_filter, Bool.not_eq_true']
  constructor
  · rintro ⟨line, ⟨hl, hnot⟩, hother⟩
    exact ⟨fun heq => by simp [← heq, hother] at hnot, line, hl, hother⟩
  · rintro ⟨hne, line, hl, hother⟩
    refine ⟨line, ⟨hl, ?_⟩, hother⟩
    rw [Bool.eq_false_iff]
    intro hline
    exact hne ((hf line hl (contains_of_isLineOf hother)).eq_of_isLineOf hother hline)

/-- Granting a session gives it a line and keeps the lines of the others. -/
theorem hasLine_grant {text sessionId line : Str} {file file' : KeyFile} (hf : WellMarked file)
    (hid : IsSessionId sessionId) (h : grant text sessionId file = .ok (line, file'))
    {other : Str} : HasLine file' other ↔ other = sessionId ∨ HasLine file other := by
  obtain ⟨key, hkey, rfl, hread⟩ := read_grant hid h
  have hrevoke : HasLine (revoke sessionId file).2 other ↔ other ≠ sessionId ∧ HasLine file other :=
    hasLine_revoke hf
  simp only [HasLine, read_revoke] at hrevoke
  simp only [HasLine, hread, List.mem_append, List.mem_singleton, or_and_right, exists_or, hrevoke,
    exists_eq_left, isLineOf_sessionLine (isKeyChar_of_canonical hkey) hid]
  by_cases heq : other = sessionId <;> simp [heq]

/-- What follows the last marker of a session line is its id. -/
theorem afterMarker_sessionLine {key sessionId : Str} (hid : IsSessionId sessionId) :
    ((rfind (sessionLine key sessionId) marker).map fun at_ =>
      strip ((sessionLine key sessionId).drop (at_ + marker.length))) = some sessionId := by
  have hcolon : ':' ∉ sessionId := fun hc => (hid _ hc).1 rfl
  have hline : key ++ [' '] ++ marker ++ sessionId = sessionLine key sessionId := by
    simp [sessionLine]
  have hfind : rfind (key ++ [' '] ++ marker ++ sessionId) marker = some (key ++ [' ']).length := by
    have hmarker : marker = markerWord ++ [':'] := rfl
    rw [hmarker]
    exact rfind_eq_some hcolon
  rw [hline] at hfind
  rw [hfind, Option.map_some, ← List.length_append, ← hline, List.drop_left,
    strip_eq_self fun c hc => (hid c hc).2]

/-- `active_sessions` lists the sessions with a line. -/
theorem mem_activeSessions {file : KeyFile} (hf : WellMarked file) {sessionId : Str} :
    sessionId ∈ activeSessions file ↔ HasLine file sessionId := by
  simp only [activeSessions, List.mem_filterMap, HasLine]
  constructor
  · rintro ⟨line, hl, hsome⟩
    -- a line with an id after the marker has the marker
    have hmark : contains line marker := by
      obtain ⟨i, hi, -⟩ := Option.map_eq_some_iff.mp hsome
      have hpre := List.find?_some hi
      rw [List.isPrefixOf_iff_prefix] at hpre
      obtain ⟨post, hpost⟩ := hpre
      refine contains_iff.mpr ⟨line.take i, post, ?_⟩
      rw [List.append_assoc, hpost, List.take_append_drop]
    obtain ⟨key, sid, -, hid, rfl⟩ := hf line hl hmark
    rw [afterMarker_sessionLine hid] at hsome
    obtain rfl := Option.some.inj hsome
    exact ⟨_, hl, isLineOf_self key sid⟩
  · rintro ⟨line, hl, hline⟩
    obtain ⟨key, sid, hkey, hid, rfl⟩ := hf line hl (contains_of_isLineOf hline)
    obtain rfl := (isLineOf_sessionLine hkey hid).mp hline
    exact ⟨_, hl, afterMarker_sessionLine hid⟩

end ComputePool.Agent.SshKeys
