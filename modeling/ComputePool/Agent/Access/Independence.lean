import ComputePool.Agent.Access.Coherence

/-!
# Which sessions leave each other alone

A nonce has sixty-four hexadecimal digits and the nonce book compares all of them, but the record
of a session and its line in the key file go by the first sixteen. Two sessions are independent as
long as these differ; when they agree, opening the second takes the place of the first, and closing
one closes the other.

* `InPlace`: a session is recorded under its id and its key has a line.
* `openSession_eq_ok`: everything a call of `open` that returns a grant does to the two stores.
* `InPlace.openSession`, `InPlace.close`: what a call for another id leaves in place.
* `independent_iff`: for two nonces, when opening and closing leave the other session alone.
-/

namespace ComputePool.Agent.SessionGrants

open Text Protocol SshKeys

variable {ε : Type} {verify : Str → Bytes → Bytes → Bool} {settings : Settings}
variable {s : SessionGrants} {session : OpenSession}

/-- The session is open: it is recorded under its id, and its key has a line. -/
structure InPlace (s : SessionGrants) (session : OpenSession) : Prop where
  recorded : s.opened.get? (sessionIdOf session.nonce) = some session
  hasLine : sessionLine session.publicKey (sessionIdOf session.nonce) ∈ read s.file

/-- What the checks of `open` have established about a session. -/
structure Accepted (session : OpenSession) : Prop where
  nonce : wellFormedNonce session.nonce
  publicKey : canonical session.publicKey = some session.publicKey

/-- A request that closes the session of a nonce by its id. -/
def closeById (nonce : Str) : SessionClose :=
  { publicKey := [], sessionId := sessionIdOf nonce }

/-! ## Opening -/

/-- The session `open` records for a request. -/
def sessionOf (s : SessionGrants) (request : SessionOpen) (key validator : Str) (now : ℚ) :
    OpenSession :=
  { sessionId := sessionIdOf request.nonce, publicKey := key, validator, nonce := request.nonce,
    openedAt := now, expiresAt := now + s.ttl }

/-- What an admitted request has passed. -/
theorem admitOpen_eq_ok {request : SessionOpen} {hotkeys : List Str} {moment : ℚ}
    {key validator : Str}
    (h : (s.admitOpen verify request hotkeys moment).1 = .ok (key, validator)) :
    wellFormedNonce request.nonce ∧ canonical request.publicKey = some key := by
  refine ⟨wellFormedNonce_of_admitOpen h, ?_⟩
  unfold admitOpen at h
  split_ifs at h
  split at h
  · cases h
  · rename_i found hfound
    dsimp only at h
    split_ifs at h
    obtain ⟨rfl, -⟩ := Prod.mk.inj (Except.ok.inj h)
    exact hfound

/-- A key that is installed replaces the line of its session and stands at the end of the file. -/
theorem install_eq_ok {key sessionId : Str} {error : Option String} {s' : SessionGrants}
    (hid : IsSessionId sessionId) (hkey : canonical key = some key)
    (h : s.install key sessionId error = (.ok (), s')) :
    s'.opened = s.opened ∧ s'.ttl = s.ttl ∧
      read s'.file = ((read s.file).filter fun line => !isLineOf sessionId line) ++
        [sessionLine key sessionId] := by
  unfold install at h
  split at h
  · cases h
  · split at h
    · cases h
    · rename_i line file hgrant
      obtain ⟨-, rfl⟩ := Prod.mk.inj h
      -- the line is that of the canonical key
      obtain ⟨installed, hinstalled, rfl, hread⟩ := read_grant hid hgrant
      obtain rfl : key = installed := Option.some.inj (hkey.symm.trans hinstalled)
      exact ⟨rfl, rfl, hread⟩

/-- What a call of `open` that returns a grant does: the session is recorded under its id, and the
lines of that id make room for the line of its key. -/
theorem openSession_eq_ok {request : SessionOpen} {hotkeys : List Str} {env : OpenEnv ε}
    {granted : SessionGrant ℚ ε}
    (h : (s.openSession verify settings request hotkeys env).1 = .ok granted) :
    ∃ session, session.nonce = request.nonce ∧ Accepted session ∧
      (s.openSession verify settings request hotkeys env).2.opened =
        s.opened.set (sessionIdOf request.nonce) session ∧
      read (s.openSession verify settings request hotkeys env).2.file =
        ((read s.file).filter fun line => !isLineOf (sessionIdOf request.nonce) line) ++
          [sessionLine session.publicKey (sessionIdOf request.nonce)] := by
  obtain ⟨hfile, hopened⟩ := admitOpen_stores verify request hotkeys env.acceptAt s
  unfold openSession at h ⊢
  generalize hadmit : s.admitOpen verify request hotkeys env.acceptAt = admitted
    at h hfile hopened ⊢
  obtain ⟨outcome, s₁⟩ := admitted
  cases outcome with
  | error e => cases h
  | ok pair =>
    obtain ⟨key, validator⟩ := pair
    obtain ⟨hnonce, hkey⟩ := admitOpen_eq_ok (congrArg Prod.fst hadmit)
    have hcanonical := canonical_of_canonical hkey
    dsimp only [openAdmitted] at h hfile hopened ⊢
    generalize hinstall : s₁.install key (sessionIdOf request.nonce) env.installError = installed
      at h ⊢
    obtain ⟨outcome, s₂⟩ := installed
    cases outcome with
    | error e => cases h
    | ok _ =>
      obtain ⟨hopened₂, -, hread⟩ :=
        install_eq_ok (isSessionId_sessionIdOf hnonce) hcanonical hinstall
      dsimp only at h ⊢
      cases hattestation : env.attestation with
      | none => simp [hattestation] at h
      | some evidence =>
        -- the second look at the nonce finds nothing new
        have hattests : attests request.nonce = true := wellFormedNonce_strip hnonce
        refine ⟨s₂.sessionOf request key validator env.now, rfl, ⟨hnonce, hcanonical⟩, ?_, ?_⟩
        · simp only [hattests, Bool.not_true, Bool.false_eq_true, if_false]
          show s₂.opened.set _ _ = _
          rw [hopened₂, hopened]
          rfl
        · simp only [hattests, Bool.not_true, Bool.false_eq_true, if_false]
          show read s₂.file = _
          rw [hread, hfile]
          rfl

/-- The line of an accepted session is of no other id. -/
theorem Accepted.not_isLineOf (h : Accepted session) {other : Str}
    (hne : other ≠ sessionIdOf session.nonce) :
    isLineOf other (sessionLine session.publicKey (sessionIdOf session.nonce)) = false := by
  rw [Bool.eq_false_iff]
  intro hline
  have hkey := isKeyChar_of_canonical h.publicKey
  exact hne ((isLineOf_sessionLine hkey (isSessionId_sessionIdOf h.nonce)).mp hline)

/-- The session of a grant is in place. -/
theorem inPlace_openSession {request : SessionOpen} {hotkeys : List Str} {env : OpenEnv ε}
    {granted : SessionGrant ℚ ε}
    (h : (s.openSession verify settings request hotkeys env).1 = .ok granted) :
    ∃ session, session.nonce = request.nonce ∧ Accepted session ∧
      InPlace (s.openSession verify settings request hotkeys env).2 session := by
  obtain ⟨session, hnonce, haccepted, hopened, hread⟩ := openSession_eq_ok h
  refine ⟨session, hnonce, haccepted, ?_, ?_⟩
  · rw [hopened, hnonce, Dict.get?_set, if_pos rfl]
  · rw [hread, hnonce]
    simp

/-- Opening a session of another id leaves a session in place. -/
theorem InPlace.openSession (hplace : InPlace s session) (haccepted : Accepted session)
    {request : SessionOpen} {hotkeys : List Str} {env : OpenEnv ε} {granted : SessionGrant ℚ ε}
    (h : (s.openSession verify settings request hotkeys env).1 = .ok granted)
    (hne : sessionIdOf request.nonce ≠ sessionIdOf session.nonce) :
    InPlace (s.openSession verify settings request hotkeys env).2 session := by
  obtain ⟨opened, -, -, hopened, hread⟩ := openSession_eq_ok h
  constructor
  · rw [hopened, Dict.get?_set, if_neg hne.symm]
    exact hplace.recorded
  · rw [hread, List.mem_append, List.mem_filter]
    exact Or.inl ⟨hplace.hasLine, by simp [haccepted.not_isLineOf hne]⟩

/-- A session does not survive the opening of another one under its id. -/
theorem not_inPlace_openSession {request : SessionOpen} {hotkeys : List Str} {env : OpenEnv ε}
    {granted : SessionGrant ℚ ε}
    (h : (s.openSession verify settings request hotkeys env).1 = .ok granted)
    (hdiff : request.nonce ≠ session.nonce)
    (hid : sessionIdOf request.nonce = sessionIdOf session.nonce) :
    ¬ InPlace (s.openSession verify settings request hotkeys env).2 session := by
  intro hplace
  obtain ⟨opened, hnonce, -, hplace'⟩ := inPlace_openSession h
  have hsame : some opened = some session := by
    rw [← hplace'.recorded, ← hplace.recorded, hnonce, hid]
  obtain rfl := Option.some.inj hsame
  exact hdiff hnonce.symm

/-! ## Closing -/

/-- A close by id looks at that id and at no other. -/
theorem eq_of_mem_matching_closeById {nonce sessionId : Str}
    (h : sessionId ∈ s.matching (closeById nonce)) : sessionId = sessionIdOf nonce := by
  have hfound : ∀ sid ∈ Dict.keys (s.opened.filter fun e =>
      sessionIdOf nonce ≠ [] && e.1 = sessionIdOf nonce), sid = sessionIdOf nonce := by
    intro sid hsid
    obtain ⟨e, he⟩ := Dict.mem_keys.mp hsid
    have hcond := (List.mem_filter.mp he).2
    simp only [Bool.and_eq_true, decide_eq_true_eq] at hcond
    exact hcond.2
  -- the request names a nonce and no key
  simp only [matching, closeById, if_true, ne_eq, not_true_eq_false, decide_false, Bool.false_and,
    Bool.or_false] at h
  split_ifs at h
  · rcases List.mem_append.mp h with h | h
    · exact hfound sessionId h
    · exact List.mem_singleton.mp h
  · exact hfound sessionId h

/-- Closing the session of another id leaves this one in place. -/
theorem InPlace.closeOne (hplace : InPlace s session) (haccepted : Accepted session) (n : ℕ)
    {sessionId : Str} (hne : sessionId ≠ sessionIdOf session.nonce) :
    InPlace (closeOne (n, s) sessionId).2 session := by
  constructor
  · show (s.opened.pop sessionId).get? _ = _
    rw [Dict.get?_pop, if_neg hne.symm]
    exact hplace.recorded
  · show _ ∈ read (revoke sessionId s.file).2
    rw [read_revoke, List.mem_filter]
    exact ⟨hplace.hasLine, by simp [haccepted.not_isLineOf hne]⟩

/-- So does closing any list of other ids. -/
theorem InPlace.closeEach (hplace : InPlace s session) (haccepted : Accepted session)
    {ids : List Str} (hids : ∀ sid ∈ ids, sid ≠ sessionIdOf session.nonce) (n : ℕ) :
    InPlace (ids.foldl SessionGrants.closeOne (n, s)).2 session := by
  induction ids generalizing n s with
  | nil => exact hplace
  | cons sid ids ih =>
    exact ih (hplace.closeOne haccepted n (hids sid (by simp)))
      (fun other hother => hids other (by simp [hother])) _

/-- Closing a session by its id leaves the sessions of other ids in place, also when it raises. -/
theorem InPlace.close (hplace : InPlace s session) (haccepted : Accepted session) {nonce : Str}
    (hne : sessionIdOf nonce ≠ sessionIdOf session.nonce) (fault : Fault) :
    InPlace (s.close (closeById nonce) fault).2 session := by
  refine hplace.closeEach haccepted (fun sid hsid => ?_) 0
  rw [eq_of_mem_matching_closeById (Fault.mem_of_mem_before hsid)]
  exact hne

/-! ## Two nonces -/

/-- The second session, opened into `s'`, and the first one do not get into each other's way: the
first one is still in place, and in whatever state one of them is closed by its id, the other one
stays in place. -/
structure Independent (s' : SessionGrants) (first second : OpenSession) : Prop where
  opening : InPlace s' first
  closingSecond : ∀ t fault, InPlace t first →
    InPlace (t.close (closeById second.nonce) fault).2 first
  closingFirst : ∀ t fault, InPlace t second →
    InPlace (t.close (closeById first.nonce) fault).2 second

/-- **Sessions are independent exactly when their ids differ.** Whatever the state, let a session
be in place and another one with a different nonce be opened: the two are independent if and only
if the first sixteen digits of their nonces differ. -/
theorem independent_iff {first : OpenSession} (hplace : InPlace s first)
    (haccepted : Accepted first) {request : SessionOpen} {hotkeys : List Str} {env : OpenEnv ε}
    {granted : SessionGrant ℚ ε}
    (hok : (s.openSession verify settings request hotkeys env).1 = .ok granted)
    (hdiff : request.nonce ≠ first.nonce) :
    ∃ second, second.nonce = request.nonce ∧
      InPlace (s.openSession verify settings request hotkeys env).2 second ∧
      (Independent (s.openSession verify settings request hotkeys env).2 first second ↔
        request.nonce.take 16 ≠ first.nonce.take 16) := by
  obtain ⟨second, hnonce, haccepted', hplace'⟩ := inPlace_openSession hok
  refine ⟨second, hnonce, hplace', ?_, ?_⟩
  -- with the same id, the second opening would have replaced the first
  · intro hindependent hid
    exact not_inPlace_openSession hok hdiff hid hindependent.opening
  -- with different ids, the lines and records of one are nothing to the other
  · intro hid
    have hid' : sessionIdOf second.nonce ≠ sessionIdOf first.nonce := by
      rw [hnonce]
      exact hid
    exact
      { opening := hplace.openSession haccepted hok hid
        closingSecond := fun t fault ht => ht.close haccepted hid' fault
        closingFirst := fun t fault ht => ht.close haccepted' hid'.symm fault }

/-- A request with the nonce of zeros that ends in `digit`. -/
def requestEndingIn (digit : Char) : SessionOpen where
  publicKey := "ssh-ed25519 AAAA".toList
  nonce := List.replicate 63 '0' ++ [digit]
  signature := "00".toList

/-- A call of `open` by a validator whose signatures all verify. -/
def openSample (s : SessionGrants) (request : SessionOpen) :
    Except OpenFailure (SessionGrant ℚ Unit) × SessionGrants :=
  s.openSession (fun _ _ _ => true) ⟨[], 22, [], [], []⟩ request ["hk".toList]
    ⟨1000, 1000, none, some ("host".toList, ⟨(), []⟩)⟩

/-- A success has a value. -/
theorem exists_of_isOk {α β : Type} {outcome : Except α β} (h : outcome.isOk = true) :
    ∃ value, outcome = .ok value := by
  cases outcome with
  | error e => cases h
  | ok value => exact ⟨value, rfl⟩

/-- The grants after one session was opened. -/
def oneOpen : SessionGrants :=
  (openSample {} (requestEndingIn '0')).2

/-- The session of `oneOpen`. -/
def firstSession : OpenSession where
  sessionId := List.replicate 16 '0'
  publicKey := "ssh-ed25519 AAAA".toList
  validator := "hk".toList
  nonce := List.replicate 64 '0'
  openedAt := 1000
  expiresAt := 1600

theorem inPlace_firstSession : InPlace oneOpen firstSession :=
  ⟨by decide +kernel, by decide +kernel⟩

theorem accepted_firstSession : Accepted firstSession :=
  ⟨by decide +kernel, by decide +kernel⟩

/-- The second nonce differs from the first one in its last digit. -/
theorem firstSession_replaced :
    InPlace oneOpen firstSession ∧ Accepted firstSession ∧
      (requestEndingIn '1').nonce ≠ firstSession.nonce ∧
      (∃ granted, (openSample oneOpen (requestEndingIn '1')).1 = .ok granted) ∧
      ¬ InPlace (openSample oneOpen (requestEndingIn '1')).2 firstSession := by
  refine ⟨inPlace_firstSession, accepted_firstSession, by decide +kernel, ?_, ?_⟩
  · have hok : (openSample oneOpen (requestEndingIn '1')).1.isOk = true := by decide +kernel
    exact exists_of_isOk hok
  · intro hplace
    have hrecorded := hplace.recorded
    revert hrecorded
    decide +kernel

/-- A request whose nonce differs from the one of `firstSession` in its first digits, too. -/
def requestOfOnes : SessionOpen :=
  { requestEndingIn '1' with nonce := List.replicate 64 '1' }

theorem independent_firstSession :
    ∃ second, second.nonce = requestOfOnes.nonce ∧
      InPlace (openSample oneOpen requestOfOnes).2 second ∧
      (Independent (openSample oneOpen requestOfOnes).2 firstSession second ↔
        requestOfOnes.nonce.take 16 ≠ firstSession.nonce.take 16) := by
  have hok : (openSample oneOpen requestOfOnes).1.isOk = true := by decide +kernel
  obtain ⟨granted, hgranted⟩ := exists_of_isOk hok
  exact independent_iff inPlace_firstSession accepted_firstSession hgranted (by decide +kernel)

end ComputePool.Agent.SessionGrants
