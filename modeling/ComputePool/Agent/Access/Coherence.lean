import ComputePool.Agent.Access.Grants

/-!
# The record and the key file agree after a sweep

The two stores of `SessionGrants` drift apart whenever a call raises between its two updates. The
invariant below is what survives every call, and it is enough for a sweep to bring the stores
back together.

* `Coherent`: the file is well marked, its other lines are the original ones, and every recorded
  session has a line. `coherent_revokeAll` establishes it, `coherent_act` and `coherent_run` keep
  it.
* `sweep_restores_agreement`: after a sweep at `t` the sessions with a line are the recorded ones,
  and none of them is due at `t`.
-/

namespace ComputePool.Agent.SessionGrants

open Text Protocol SshKeys

variable {original : List Str} {s : SessionGrants}

/-- The file is well marked, its lines without a marker are `original`, and every recorded session
has a line. -/
structure Coherent (original : List Str) (s : SessionGrants) : Prop where
  wellMarked : WellMarked s.file
  unmarked : SshKeys.unmarked s.file = original
  hasLine : ∀ sessionId ∈ s.opened.keys, HasLine s.file sessionId

/-- The id of a session is a well-formed one. -/
theorem isSessionId_sessionIdOf {nonce : Str} (h : wellFormedNonce nonce) :
    IsSessionId (sessionIdOf nonce) := by
  intro c hc
  have hhex := isHex_take_of_wellFormedNonce h c hc
  refine ⟨?_, isSpace_eq_false_of_isHex hhex⟩
  rintro rfl
  exact absurd hhex (by decide)

/-! ## Revoking several sessions -/

section RevokeEach

variable (ids : List Str) (n : ℕ) (file : KeyFile)

/-- Revoking the sessions of a list writes no line. -/
theorem wellMarked_revokeEach (h : WellMarked file) :
    WellMarked (ids.foldl revokeOne (n, file)).2 := by
  induction ids generalizing n file with
  | nil => exact h
  | cons sid ids ih => exact ih _ _ (h.revoke sid)

theorem unmarked_revokeEach : unmarked (ids.foldl revokeOne (n, file)).2 = unmarked file := by
  induction ids generalizing n file with
  | nil => rfl
  | cons sid ids ih => exact (ih _ _).trans (unmarked_revoke sid file)

/-- Revoking the sessions of a list takes their lines and no others. -/
theorem hasLine_revokeEach (h : WellMarked file) {other : Str} :
    HasLine (ids.foldl revokeOne (n, file)).2 other ↔ other ∉ ids ∧ HasLine file other := by
  induction ids generalizing n file with
  | nil => simp
  | cons sid ids ih =>
    refine (ih _ _ (h.revoke sid)).trans ?_
    rw [hasLine_revoke h, List.mem_cons, not_or]
    tauto

end RevokeEach

/-- Revoking sessions that are not recorded keeps the invariant. -/
theorem Coherent.revokeEach (h : Coherent original s) {ids : List Str}
    (hids : ∀ sid ∈ s.opened.keys, sid ∉ ids) (n : ℕ) :
    Coherent original { s with file := (ids.foldl revokeOne (n, s.file)).2 } where
  wellMarked := wellMarked_revokeEach ids n s.file h.wellMarked
  unmarked := (unmarked_revokeEach ids n s.file).trans h.unmarked
  hasLine := fun sid hsid =>
    (hasLine_revokeEach ids n s.file h.wellMarked).mpr ⟨hids sid hsid, h.hasLine sid hsid⟩

/-! ## What each call keeps -/

/-- After `revoke_all` the record is empty, and so is what is marked. -/
theorem coherent_revokeAll (s : SessionGrants) :
    Coherent (SshKeys.unmarked s.file) (s.revokeAll none).2 where
  wellMarked := wellMarked_revokeAllSessions s.file
  unmarked := unmarked_revokeAllSessions s.file
  hasLine := fun _ hsid => absurd hsid (by simp [revokeAll, Fault.within, Dict.keys])

/-- The record is emptied whether or not the file could be rewritten. -/
theorem Coherent.revokeAll (h : Coherent original s) (fault : Fault) :
    Coherent original (s.revokeAll fault).2 := by
  unfold SessionGrants.revokeAll
  dsimp only
  split_ifs
  · exact ⟨h.wellMarked, h.unmarked, by simp [Dict.keys]⟩
  · exact ⟨wellMarked_revokeAllSessions s.file,
      (unmarked_revokeAllSessions s.file).trans h.unmarked, by simp [Dict.keys]⟩

/-- The checks before the key is installed leave both stores alone. -/
theorem admitOpen_stores (verify : Str → Bytes → Bytes → Bool) (request : SessionOpen)
    (hotkeys : List Str) (moment : ℚ) (s : SessionGrants) :
    (s.admitOpen verify request hotkeys moment).2.file = s.file ∧
      (s.admitOpen verify request hotkeys moment).2.opened = s.opened := by
  unfold admitOpen
  split_ifs
  · exact ⟨rfl, rfl⟩
  · split
    · exact ⟨rfl, rfl⟩
    · dsimp only
      split_ifs <;> exact ⟨rfl, rfl⟩

/-- A request that passes the checks has a well-formed nonce. -/
theorem wellFormedNonce_of_admitOpen {verify : Str → Bytes → Bytes → Bool} {request : SessionOpen}
    {hotkeys : List Str} {moment : ℚ} {s : SessionGrants} {admitted : Str × Str}
    (h : (s.admitOpen verify request hotkeys moment).1 = .ok admitted) :
    wellFormedNonce request.nonce := by
  unfold admitOpen at h
  split_ifs at h with hproblems
  exact SessionOpen.wellFormedNonce_of_problems_eq_nil (not_not.mp hproblems)

/-- A key that is installed has its line; when that fails, the file is as it was. -/
theorem Coherent.install (h : Coherent original s) {sessionId : Str}
    (hid : IsSessionId sessionId) (key : Str) (error : Option String) :
    Coherent original (s.install key sessionId error).2 ∧
      ((s.install key sessionId error).1 = .ok () →
        HasLine (s.install key sessionId error).2.file sessionId) := by
  unfold SessionGrants.install
  split
  · exact ⟨h, fun hok => nomatch hok⟩
  · split
    · exact ⟨h, fun hok => nomatch hok⟩
    · rename_i line file hgrant
      -- the new line is one more line with a session
      have hline {other : Str} : HasLine file other ↔ other = sessionId ∨ HasLine s.file other :=
        hasLine_grant h.wellMarked hid hgrant
      refine ⟨⟨h.wellMarked.grant hid hgrant, (unmarked_grant hid hgrant).trans h.unmarked, ?_⟩, ?_⟩
      · exact fun sid hsid => hline.mpr (Or.inr (h.hasLine sid hsid))
      · exact fun _ => hline.mpr (Or.inl rfl)

/-- Recording a session that has a line keeps the invariant. -/
theorem Coherent.record (h : Coherent original s) {request : SessionOpen}
    (hline : HasLine s.file (sessionIdOf request.nonce)) (key validator : Str) (now : ℚ) :
    Coherent original (s.record request key validator now) where
  wellMarked := h.wellMarked
  unmarked := h.unmarked
  hasLine := by
    intro sid hsid
    rcases Dict.mem_keys_set.mp hsid with rfl | hsid
    exacts [hline, h.hasLine sid hsid]

/-- Opening a session that passed the checks. -/
theorem Coherent.openAdmitted {ε : Type} (h : Coherent original s) {request : SessionOpen}
    (hnonce : wellFormedNonce request.nonce) (settings : Settings) (key validator : Str)
    (env : OpenEnv ε) :
    Coherent original (s.openAdmitted settings request key validator env).2 := by
  obtain ⟨hinstalled, hline⟩ :=
    h.install (isSessionId_sessionIdOf hnonce) key env.installError
  unfold SessionGrants.openAdmitted
  dsimp only
  split
  · rename_i heq
    rw [heq] at hinstalled
    exact hinstalled
  · rename_i heq
    rw [heq] at hinstalled hline
    -- an attestation that raises leaves the installed line behind
    split
    · exact hinstalled
    -- the nonce is well formed, so the attestation is made
    · rw [if_neg (by simp [attests, wellFormedNonce_strip hnonce])]
      exact hinstalled.record (hline rfl) key validator env.now

/-- Opening a session, the checks before it included. -/
theorem Coherent.openSession {ε : Type} (h : Coherent original s)
    (verify : Str → Bytes → Bytes → Bool) (settings : Settings) (request : SessionOpen)
    (hotkeys : List Str) (env : OpenEnv ε) :
    Coherent original (s.openSession verify settings request hotkeys env).2 := by
  -- admitting a request touches neither the file nor the sessions on record
  obtain ⟨hfile, hopened⟩ := admitOpen_stores verify request hotkeys env.acceptAt s
  have hadmit : Coherent original (s.admitOpen verify request hotkeys env.acceptAt).2 :=
    ⟨hfile ▸ h.wellMarked, hfile ▸ h.unmarked, hfile ▸ hopened ▸ h.hasLine⟩
  unfold SessionGrants.openSession
  split
  · rename_i heq
    rw [heq] at hadmit
    exact hadmit
  · rename_i heq
    have hnonce := wellFormedNonce_of_admitOpen (congrArg Prod.fst heq)
    rw [heq] at hadmit
    exact hadmit.openAdmitted hnonce settings _ _ env

/-- The session leaves the record when its line goes. -/
theorem Coherent.closeOne (h : Coherent original s) (n : ℕ) (sessionId : Str) :
    Coherent original (closeOne (n, s) sessionId).2 where
  wellMarked := h.wellMarked.revoke sessionId
  unmarked := (unmarked_revoke sessionId s.file).trans h.unmarked
  hasLine := by
    intro sid hsid
    obtain ⟨hne, hsid⟩ := Dict.mem_keys_pop.mp hsid
    exact (hasLine_revoke h.wellMarked).mpr ⟨hne, h.hasLine sid hsid⟩

/-- Closing a list of sessions. -/
theorem Coherent.closeEach (h : Coherent original s) (ids : List Str) (n : ℕ) :
    Coherent original (ids.foldl SessionGrants.closeOne (n, s)).2 := by
  induction ids generalizing n s with
  | nil => exact h
  | cons sid ids ih => exact ih (h.closeOne n sid) _

theorem Coherent.close (h : Coherent original s) (request : SessionClose) (fault : Fault) :
    Coherent original (s.close request fault).2 :=
  h.closeEach (fault.before (s.matching request)) 0

/-! ## Sweeping -/

theorem mem_expired {moment : ℚ} {sessionId : Str} :
    sessionId ∈ s.expired moment ↔ ∃ e, (sessionId, e) ∈ s.opened ∧ e.expiresAt ≤ moment := by
  simp [expired, Dict.keys]

theorem mem_dropExpired {moment : ℚ} {e : Str × OpenSession} :
    e ∈ (s.dropExpired moment).opened ↔ e.1 ∉ s.expired moment ∧ e ∈ s.opened :=
  Dict.mem_foldl_pop

/-- Sessions leave the record, and those that stay keep their lines. -/
theorem Coherent.dropExpired (h : Coherent original s) (moment : ℚ) :
    Coherent original (s.dropExpired moment) where
  wellMarked := h.wellMarked
  unmarked := h.unmarked
  hasLine := by
    intro sid hsid
    obtain ⟨e, he⟩ := Dict.mem_keys.mp hsid
    exact h.hasLine sid (Dict.mem_keys.mpr ⟨e, (mem_dropExpired.mp he).2⟩)

/-- The sessions that are due are not recorded any more when their lines are revoked. -/
theorem Coherent.revokeExpired (h : Coherent original s) (moment : ℚ) (fault : Fault) :
    Coherent original
      { s.dropExpired moment with
        file := ((fault.before (s.expired moment)).foldl revokeOne (0, s.file)).2 } := by
  refine (h.dropExpired moment).revokeEach (fun sid hsid hids => ?_) 0
  obtain ⟨e, he⟩ := Dict.mem_keys.mp hsid
  exact (mem_dropExpired.mp he).1 (Fault.mem_of_mem_before hids)

/-- Only lines of sessions that are not recorded go. -/
theorem Coherent.revokeOrphans (h : Coherent original s) (fault : Fault) (n : ℕ) :
    Coherent original
      { s with
        file :=
          ((fault.before (orphans s.opened.keys s.file)).foldl revokeOne (n, s.file)).2 } := by
  refine h.revokeEach (fun sid hsid hids => ?_) n
  have hmem := Fault.mem_of_mem_before hids
  simp only [orphans, List.mem_filter, decide_eq_true_eq] at hmem
  exact hmem.2 hsid

/-- Cut off anywhere, the sweep has only dropped sessions and taken out lines no session is left
for. -/
theorem Coherent.sweep (h : Coherent original s) (moment : ℚ) (fault : Fault) :
    Coherent original (s.sweep moment fault).2 := by
  have hdue := h.revokeExpired moment fault
  unfold SessionGrants.sweep
  dsimp only
  split_ifs
  · exact hdue
  · exact hdue.revokeOrphans _ _
  · have horphans := hdue.revokeOrphans (fault.after ((s.expired moment).length + 1))
      ((fault.before (s.expired moment)).foldl revokeOne (0, s.file)).1
    exact ⟨horphans.wellMarked, horphans.unmarked, horphans.hasLine⟩

/-! ## Runs -/

section Runs

variable {ε : Type} (verify : Str → Bytes → Bytes → Bool) (settings : Settings)

/-- Every call keeps the two in step. -/
theorem coherent_act (h : Coherent original s) (call : Call ε) :
    Coherent original (s.act verify settings call) := by
  cases call with
  | openSession request hotkeys env => exact h.openSession verify settings request hotkeys env
  | close request fault => exact h.close request fault
  | sweep moment fault => exact h.sweep moment fault
  | revokeAll fault => exact h.revokeAll fault

/-- A run of calls, by induction from one. -/
theorem coherent_run (h : Coherent original s) (calls : List (Call ε)) :
    Coherent original (s.run verify settings calls) := by
  induction calls generalizing s with
  | nil => exact h
  | cons call calls ih => exact ih (coherent_act verify settings h call)

end Runs

/-- A sweep leaves a line to the recorded sessions only. -/
theorem Coherent.mem_keys_of_hasLine_sweep (h : Coherent original s) (moment : ℚ) {sessionId : Str}
    (hline : HasLine (s.sweep moment none).2.file sessionId) :
    sessionId ∈ (s.sweep moment none).2.opened.keys := by
  have hdue := h.revokeExpired moment none
  simp only [SessionGrants.sweep, Fault.within, Option.any_none, Bool.false_eq_true, if_false,
    Fault.after, Option.map_none, Fault.before] at hline hdue ⊢
  obtain ⟨hnot, hline⟩ := (hasLine_revokeEach _ _ _ hdue.wellMarked).mp hline
  by_contra hkeys
  refine hnot (List.mem_filter.mpr ⟨(mem_activeSessions hdue.wellMarked).mpr hline, ?_⟩)
  simpa using hkeys

/-- What a sweep leaves recorded is not due. -/
theorem lt_expiresAt_of_mem_sweep {moment : ℚ} {e : Str × OpenSession}
    (he : e ∈ (s.sweep moment none).2.opened) : moment < e.2.expiresAt := by
  have hmem : e ∈ (s.dropExpired moment).opened := he
  obtain ⟨hnot, hopen⟩ := mem_dropExpired.mp hmem
  by_contra hle
  exact hnot (mem_expired.mpr ⟨e.2, hopen, not_lt.mp hle⟩)

/-- **No stale key survives a sweep.** Start with `revoke_all`, make any calls one after another,
any of them raising anywhere, and sweep at `moment`: the sessions with a line in the key file, by
either rule for finding them, are the recorded ones; none of them is due; and the lines without a
marker are the original ones in the original order. -/
theorem sweep_restores_agreement {ε : Type} (verify : Str → Bytes → Bytes → Bool)
    (settings : Settings) (start : SessionGrants) (calls : List (Call ε)) (moment : ℚ) :
    let swept := (((start.revokeAll none).2.run verify settings calls).sweep moment none).2
    (∀ sessionId, HasLine swept.file sessionId ↔ sessionId ∈ swept.opened.keys) ∧
      (∀ sessionId, sessionId ∈ activeSessions swept.file ↔ sessionId ∈ swept.opened.keys) ∧
      (∀ e ∈ swept.opened, moment < e.2.expiresAt) ∧
      SshKeys.unmarked swept.file = SshKeys.unmarked start.file := by
  intro swept
  have hrun := coherent_run verify settings (coherent_revokeAll start) calls
  have hswept : Coherent (SshKeys.unmarked start.file) swept := hrun.sweep moment none
  have hline (sessionId : Str) : HasLine swept.file sessionId ↔ sessionId ∈ swept.opened.keys :=
    ⟨hrun.mem_keys_of_hasLine_sweep moment, hswept.hasLine sessionId⟩
  refine ⟨hline, fun sessionId => ?_, fun e he => lt_expiresAt_of_mem_sweep he, hswept.unmarked⟩
  exact (mem_activeSessions hswept.wellMarked).trans (hline sessionId)

end ComputePool.Agent.SessionGrants
