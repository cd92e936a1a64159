import ComputePool.Agent.Access.Independence
import ComputePool.Foundations.Transition

/-!
# Calls that overlap

`open`, `close`, `sweep` and `revoke_all` run in threads of their own. Each operation on the key
file and each locked section is one step; between two steps of one call any step of another call
can come. `open` installs the key, collects evidence, and only then records the session; `sweep`
compares a snapshot of the record with a later reading of the file.

* `Task`: a call under way, by what it does next.
* `Desk`: the two stores, the calls under way, and the sessions that are entitled to their line.
* `Quiet`: a sweep reads the file while no session is being opened.
* `keepsLines_of_quiet`: in a run whose steps are all quiet, every entitled session has its line.
-/

namespace ComputePool.Agent

open Text Protocol SshKeys Transition

/-- A call under way, by what it does next. -/
inductive Task
  /-- `open` is about to install the key. -/
  | install (session : OpenSession)
  /-- `open` has installed the key and is about to record the session. -/
  | record (session : OpenSession)
  /-- `close` is about to revoke the first of these. -/
  | close (ids : List Str)
  /-- `close` has revoked the line and is about to drop the record. -/
  | pop (sessionId : Str) (ids : List Str)
  /-- `sweep` is about to revoke the first of these, which were due, or to read the file. -/
  | expire (moment : ℚ) (known ids : List Str)
  /-- `sweep` is about to revoke the first of these, which it found in the file. -/
  | orphan (moment : ℚ) (ids : List Str)
  /-- `revoke_all` has cleared the record and is about to clear the file. -/
  | clear
  deriving DecidableEq, Repr

/-- The sessions a sweep has still to revoke. -/
def Task.pending : Task → List Str
  | .expire _ _ ids => ids
  | .orphan _ ids => ids
  | _ => []

/-- The session a call is about to record. -/
def Task.recording : Task → Option OpenSession
  | .record session => some session
  | _ => none

/-- The call is one of `open`. -/
def Task.opens : Task → Bool
  | .install _ => true
  | .record _ => true
  | _ => false

/-- The stores and the calls under way. -/
structure Desk where
  clock : ℚ
  grants : SessionGrants
  tasks : List Task := []
  /-- The sessions whose key was installed and which are recorded or about to be, less those a
  close or `revoke_all` has come to since. No step looks at it. -/
  entitled : List OpenSession := []
  deriving Repr

/-- What can happen next. -/
inductive DeskAction
  | tick (moment : ℚ)
  | callOpen (request : SessionOpen) (hotkeys : List Str) (acceptAt : ℚ)
  | callClose (request : SessionClose)
  | callSweep (moment : ℚ)
  | callRevokeAll
  /-- A call takes its next step, or raises in it. -/
  | advance (task : Task) (raises : Bool)
  deriving Repr

namespace Desk

/-- The desk before any call. -/
def initial (clock : ℚ) (file : KeyFile) : Desk :=
  { clock, grants := { file } }

/-- The session is not entitled any more. -/
def release (s : Desk) (sessionId : Str) : List OpenSession :=
  s.entitled.filter fun session => session.sessionId ≠ sessionId

/-- The file after a line was revoked. -/
def revoked (s : Desk) (sessionId : Str) : SessionGrants :=
  { s.grants with file := (revoke sessionId s.grants.file).2 }

/-- The next step of a call: what it does afterwards, if it goes on, and the stores. -/
def perform (s : Desk) : Task → Option Task × Desk
  | .install session =>
    match s.grants.install session.publicKey session.sessionId none with
    | (.error _, grants) => (none, { s with grants })
    -- the line is in the file, the session not yet on record
    | (.ok _, grants) =>
      (some (.record session), { s with grants, entitled := session :: s.entitled })
  | .record session =>
    -- an attestation that fails takes the line out again
    if !SessionGrants.attests session.nonce then
      (none, { s with
        grants := s.revoked session.sessionId, entitled := s.release session.sessionId })
    else
      (none, { s with grants := { s.grants with
        opened := s.grants.opened.set session.sessionId session } })
  | .close [] => (none, s)
  | .close (sid :: ids) =>
    (some (.pop sid ids), { s with grants := s.revoked sid, entitled := s.release sid })
  | .pop sid ids =>
    (some (.close ids), { s with
      grants := { s.grants with opened := s.grants.opened.pop sid }, entitled := s.release sid })
  | .expire moment known [] =>
    -- what is an orphan is decided here, by the ids known when the sweep began
    (some (.orphan moment (SessionGrants.orphans known s.grants.file)), s)
  | .expire moment known (sid :: ids) =>
    (some (.expire moment known ids), { s with grants := s.revoked sid })
  | .orphan moment [] =>
    (none, { s with grants := { s.grants with nonces := s.grants.nonces.expire moment } })
  | .orphan moment (sid :: ids) => (some (.orphan moment ids), { s with grants := s.revoked sid })
  | .clear =>
    (none, { s with
      grants := { s.grants with file := (revokeAllSessions s.grants.file).2 }, entitled := [] })

/-- A call that raises: a session whose evidence could not be collected is never recorded. -/
def abandon (s : Desk) : Task → Desk
  | .record session => { s with entitled := s.release session.sessionId }
  | _ => s

/-- One step. -/
def step (verify : Str → Bytes → Bytes → Bool) (s : Desk) : DeskAction → Option Desk
  | .tick moment => if s.clock ≤ moment then some { s with clock := moment } else none
  | .callOpen request hotkeys acceptAt =>
    if acceptAt ≤ s.clock then
      match s.grants.admitOpen verify request hotkeys acceptAt with
      | (.error _, grants) => some { s with grants }
      | (.ok (key, validator), grants) =>
        let session := grants.sessionOf request key validator s.clock
        some { s with grants, tasks := .install session :: s.tasks }
    else none
  | .callClose request =>
    some { s with tasks := .close (s.grants.matching request) :: s.tasks }
  | .callSweep moment =>
    if moment ≤ s.clock then
      -- the ids are read before the first line is taken out
      let grants := s.grants.dropExpired moment
      let task := .expire moment grants.opened.keys (s.grants.expired moment)
      some { s with grants, tasks := task :: s.tasks }
    else none
  | .callRevokeAll =>
    some { s with grants := { s.grants with opened := [] }, entitled := [],
                  tasks := .clear :: s.tasks }
  | .advance task raises =>
    if task ∈ s.tasks then
      if raises then some { s.abandon task with tasks := s.tasks.erase task }
      else
        let (next, s') := s.perform task
        some { s' with tasks := next.toList ++ s.tasks.erase task }
    else none

/-- An entitled session has its line until it expires. -/
def KeepsLines (s : Desk) : Prop :=
  ∀ session ∈ s.entitled, s.clock < session.expiresAt →
    sessionLine session.publicKey session.sessionId ∈ read s.grants.file

/-- The id is in use nowhere: not recorded, not being opened, and not about to be swept. -/
structure Unused (s : Desk) (sessionId : Str) : Prop where
  opened : sessionId ∉ s.grants.opened.keys
  record : ∀ task ∈ s.tasks, ∀ session ∈ task.recording, session.sessionId ≠ sessionId
  pending : ∀ task ∈ s.tasks, sessionId ∉ task.pending

/-- The step comes at a quiet time. A sweep reads the file while no session has its key installed
and is not recorded yet, and when none was recorded since its snapshot; and a key is installed
under an id that is not in use. -/
def Quiet (s : Desk) : DeskAction → Prop
  | .advance (.install session) _ => s.Unused session.sessionId
  | .advance (.expire _ known []) _ =>
    (∀ task ∈ s.tasks, task.recording = none) ∧ ∀ sid ∈ s.grants.opened.keys, sid ∈ known
  | _ => True

instance (s : Desk) (sessionId : Str) : Decidable (s.Unused sessionId) :=
  decidable_of_iff (sessionId ∉ s.grants.opened.keys ∧
      (∀ task ∈ s.tasks, ∀ session ∈ task.recording, session.sessionId ≠ sessionId) ∧
      ∀ task ∈ s.tasks, sessionId ∉ task.pending)
    ⟨fun h => ⟨h.1, h.2.1, h.2.2⟩, fun h => ⟨h.opened, h.record, h.pending⟩⟩

/-- Whether a step comes at a quiet time can be computed. -/
instance (s : Desk) : (a : DeskAction) → Decidable (s.Quiet a)
  | .tick _ | .callOpen _ _ _ | .callClose _ | .callSweep _ | .callRevokeAll => isTrue trivial
  | .advance (.install session) _ => inferInstanceAs (Decidable (s.Unused session.sessionId))
  | .advance (.expire _ known []) _ => inferInstanceAs (Decidable ((∀ task ∈ s.tasks,
      task.recording = none) ∧ ∀ sid ∈ s.grants.opened.keys, sid ∈ known))
  | .advance (.expire _ _ (_ :: _)) _ | .advance (.record _) _ | .advance (.close _) _
  | .advance (.pop _ _) _ | .advance (.orphan _ _) _ | .advance .clear _ => isTrue trivial

/-! ## A session in its place -/

open SessionGrants

/-- What holds of an entitled session, with the calls under way, the record and the file. -/
structure Placed (tasks : List Task) (opened : Dict Str OpenSession) (file : KeyFile)
    (session : OpenSession) : Prop where
  accepted : Accepted session
  sessionId : session.sessionId = sessionIdOf session.nonce
  hasLine : sessionLine session.publicKey session.sessionId ∈ read file
  /-- It is recorded or about to be. -/
  place : Task.record session ∈ tasks ∨ session.sessionId ∈ opened.keys
  recorded : ∀ other, (session.sessionId, other) ∈ opened → other = session
  recording : ∀ other, Task.record other ∈ tasks → other.sessionId = session.sessionId →
    other = session
  pending : ∀ task ∈ tasks, session.sessionId ∉ task.pending

section Placed

variable {tasks : List Task} {opened : Dict Str OpenSession} {file : KeyFile}
variable {session : OpenSession}

/-- The line of another session is not that of this one. -/
theorem Placed.not_isLineOf (h : Placed tasks opened file session) {sid : Str}
    (hne : session.sessionId ≠ sid) :
    isLineOf sid (sessionLine session.publicKey session.sessionId) = false := by
  rw [h.sessionId] at hne ⊢
  exact h.accepted.not_isLineOf hne.symm

/-- Revoking another session. -/
theorem Placed.revoke (h : Placed tasks opened file session) {sid : Str}
    (hne : session.sessionId ≠ sid) : Placed tasks opened (SshKeys.revoke sid file).2 session :=
  { h with
    hasLine := by
      rw [read_revoke, List.mem_filter]
      exact ⟨h.hasLine, by simp [h.not_isLineOf hne]⟩ }

/-- Installing the key of another session. -/
theorem Placed.install (h : Placed tasks opened file session) {sid line : Str} {file' : KeyFile}
    (hne : session.sessionId ≠ sid)
    (hread : read file' = ((read file).filter fun line => !isLineOf sid line) ++ [line]) :
    Placed tasks opened file' session :=
  { h with
    hasLine := by
      rw [hread, List.mem_append, List.mem_filter]
      exact Or.inl ⟨h.hasLine, by simp [h.not_isLineOf hne]⟩ }

/-- Dropping other records. -/
theorem Placed.drop (h : Placed tasks opened file session) {opened' : Dict Str OpenSession}
    (hsub : ∀ e, e ∈ opened' → e ∈ opened)
    (hkeep : session.sessionId ∈ opened.keys → session.sessionId ∈ opened'.keys) :
    Placed tasks opened' file session :=
  { h with
    place := h.place.imp_right hkeep
    recorded := fun other hother => h.recorded other (hsub _ hother) }

/-- Recording another session. -/
theorem Placed.record (h : Placed tasks opened file session) {other : OpenSession}
    (hother : Task.record other ∈ tasks) :
    Placed tasks (opened.set other.sessionId other) file session :=
  { h with
    place := h.place.imp_right fun hkey => Dict.mem_keys_set.mpr (Or.inr hkey)
    recorded := by
      intro found hfound
      rcases Dict.mem_set.mp hfound with heq | ⟨-, hfound⟩
      · obtain ⟨hid, rfl⟩ := Prod.mk.inj heq
        exact h.recording found hother hid.symm
      · exact h.recorded found hfound }

/-- Another call starts, or goes on. -/
theorem Placed.cons (h : Placed tasks opened file session) {task : Task}
    (hrecord : ∀ other, task = .record other → other.sessionId ≠ session.sessionId)
    (hpending : session.sessionId ∉ task.pending) : Placed (task :: tasks) opened file session :=
  { h with
    place := h.place.imp_left (List.mem_cons_of_mem task)
    recording := by
      intro other hother
      rcases List.mem_cons.mp hother with heq | hother
      · exact fun hid => absurd hid (hrecord other heq.symm)
      · exact h.recording other hother
    pending := by
      intro t ht
      rcases List.mem_cons.mp ht with rfl | ht
      · exact hpending
      · exact h.pending t ht }

/-- A call comes to its end, other than the one that records the session. -/
theorem Placed.erase (h : Placed tasks opened file session) {task : Task}
    (hplace : task = .record session → session.sessionId ∈ opened.keys) :
    Placed (tasks.erase task) opened file session :=
  { h with
    place := by
      by_cases hrecord : task = .record session
      · exact Or.inr (hplace hrecord)
      · exact h.place.imp_left (List.mem_erase_of_ne (Ne.symm hrecord)).mpr
    recording := fun other hother => h.recording other (List.mem_of_mem_erase hother)
    pending := fun t ht => h.pending t (List.mem_of_mem_erase ht) }

end Placed

/-! ## Steps -/

/-- What every quiet run keeps. -/
structure Orderly (s : Desk) : Prop where
  placed : ∀ session ∈ s.entitled, s.clock < session.expiresAt →
    Placed s.tasks s.grants.opened s.grants.file session
  opening : ∀ session, Task.install session ∈ s.tasks ∨ Task.record session ∈ s.tasks →
    Accepted session ∧ session.sessionId = sessionIdOf session.nonce

theorem mem_release {s : Desk} {sid : Str} {session : OpenSession} :
    session ∈ s.release sid ↔ session ∈ s.entitled ∧ session.sessionId ≠ sid := by
  simp [release]

variable {s : Desk} {task : Task}

/-- The sessions that are being opened, when a call goes on. -/
theorem Orderly.opening_advance (h : s.Orderly) (htask : task ∈ s.tasks) (next : Option Task)
    (hinstall : ∀ session, next ≠ some (.install session))
    (hrecord : ∀ session, next = some (.record session) → task = .install session) :
    ∀ session, Task.install session ∈ next.toList ++ s.tasks.erase task ∨
        Task.record session ∈ next.toList ++ s.tasks.erase task →
      Accepted session ∧ session.sessionId = sessionIdOf session.nonce := by
  intro session hsession
  simp only [List.mem_append, Option.mem_toList] at hsession
  rcases hsession with (hnext | hmem) | (hnext | hmem)
  · exact absurd hnext (hinstall session)
  · exact h.opening session (Or.inl (List.mem_of_mem_erase hmem))
  · exact h.opening session (Or.inl (hrecord session hnext ▸ htask))
  · exact h.opening session (Or.inr (List.mem_of_mem_erase hmem))

/-- A key is installed under an id that is not in use. -/
theorem Orderly.install {session : OpenSession} (h : s.Orderly)
    (htask : Task.install session ∈ s.tasks) (hunused : s.Unused session.sessionId) :
    let (next, s') := s.perform (.install session)
    Orderly { s' with tasks := next.toList ++ s.tasks.erase (.install session) } := by
  obtain ⟨haccepted, hid⟩ := h.opening session (Or.inl htask)
  have hother : ∀ other ∈ s.entitled, s.clock < other.expiresAt →
      other.sessionId ≠ session.sessionId := by
    intro other hentitled hclock heq
    rcases (h.placed other hentitled hclock).place with hrecord | hkey
    · exact hunused.record _ hrecord other rfl heq
    · exact hunused.opened (heq ▸ hkey)
  simp only [perform]
  generalize hinstall : s.grants.install session.publicKey session.sessionId none = installed
  obtain ⟨outcome, grants⟩ := installed
  cases outcome with
  | error e =>
    -- nothing was written
    have hgrants : grants = s.grants := by
      unfold SessionGrants.install at hinstall
      dsimp only at hinstall
      split at hinstall
      · exact (Prod.mk.inj hinstall).2.symm
      · cases (Prod.mk.inj hinstall).1
    subst hgrants
    refine ⟨fun other hentitled hclock => ?_, ?_⟩
    · exact (h.placed other hentitled hclock).erase fun heq => nomatch heq
    · exact h.opening_advance htask none (by simp) (by simp)
  | ok _ =>
    have hwell : IsSessionId session.sessionId := hid ▸ isSessionId_sessionIdOf haccepted.nonce
    obtain ⟨hopened, -, hread⟩ := install_eq_ok hwell haccepted.publicKey hinstall
    refine ⟨fun other hentitled hclock => ?_, ?_⟩
    · show Placed (.record session :: s.tasks.erase (.install session)) grants.opened grants.file
        other
      rw [hopened]
      rcases List.mem_cons.mp hentitled with rfl | hentitled
      · exact
          { accepted := haccepted
            sessionId := hid
            hasLine := by simp [hread]
            place := Or.inl List.mem_cons_self
            recorded := fun found hfound =>
              absurd (Dict.mem_keys.mpr ⟨found, hfound⟩) hunused.opened
            recording := by
              intro found hfound heq
              rcases List.mem_cons.mp hfound with hsame | hfound
              · exact Task.record.inj hsame
              · exact absurd heq (hunused.record _ (List.mem_of_mem_erase hfound) found rfl)
            pending := by
              intro t ht
              rcases List.mem_cons.mp ht with rfl | ht
              · exact List.not_mem_nil
              · exact hunused.pending t (List.mem_of_mem_erase ht) }
      · have hne := hother other hentitled hclock
        refine (((h.placed other hentitled hclock).install hne hread).erase ?_).cons ?_ ?_
        · exact fun heq => nomatch heq
        · rintro found heq
          obtain rfl := Task.record.inj heq
          exact hne.symm
        · exact List.not_mem_nil
    · exact h.opening_advance htask (some (.record session)) (by simp) (by simp)

/-- The session is recorded, and its call returns. -/
theorem Orderly.record {session : OpenSession} (h : s.Orderly)
    (htask : Task.record session ∈ s.tasks) :
    let (next, s') := s.perform (.record session)
    Orderly { s' with tasks := next.toList ++ s.tasks.erase (.record session) } := by
  obtain ⟨haccepted, -⟩ := h.opening session (Or.inr htask)
  -- the nonce was looked at before
  have hattests : attests session.nonce = true := wellFormedNonce_strip haccepted.nonce
  simp only [perform, hattests, Bool.not_true, Bool.false_eq_true, if_false]
  refine ⟨fun other hentitled hclock => ?_, ?_⟩
  · refine ((h.placed other hentitled hclock).record htask).erase fun heq => ?_
    rw [Task.record.inj heq]
    exact Dict.mem_keys_set.mpr (Or.inl rfl)
  · exact h.opening_advance htask none (by simp) (by simp)

/-- Any other call goes on: what is left to show is where the entitled sessions stand with the new
stores, and that the call is not going to sweep them. -/
theorem Orderly.goOn (h : s.Orderly) (htask : task ∈ s.tasks) (hopens : task.opens = false)
    {grants : SessionGrants} {entitled : List OpenSession} (next : Option Task)
    (hnext : ∀ t ∈ next, t.opens = false)
    (hplaced : ∀ session ∈ entitled, s.clock < session.expiresAt →
      Placed s.tasks grants.opened grants.file session ∧
        ∀ t ∈ next, session.sessionId ∉ t.pending) :
    Orderly { s with grants, entitled, tasks := next.toList ++ s.tasks.erase task } := by
  constructor
  · intro session hentitled hclock
    obtain ⟨hsession, hpending⟩ := hplaced session hentitled hclock
    -- what is waited for by other tasks does not change
    have herase : Placed (s.tasks.erase task) grants.opened grants.file session :=
      hsession.erase fun heq => by simp [heq, Task.opens] at hopens
    -- and the task that is left waits for no entitled session
    cases next with
    | none => exact herase
    | some t =>
      refine herase.cons (fun other heq => ?_) (hpending t rfl)
      have hfalse := hnext t rfl
      simp [heq, Task.opens] at hfalse
  · refine h.opening_advance htask next ?_ ?_
    · rintro session rfl
      exact absurd (hnext _ rfl) (by simp [Task.opens])
    · rintro session rfl
      exact absurd (hnext _ rfl) (by simp [Task.opens])

/-- A close comes to a session: what it releases is not entitled any more. -/
theorem Orderly.close (h : s.Orderly) {ids : List Str} (htask : Task.close ids ∈ s.tasks) :
    let (next, s') := s.perform (.close ids)
    Orderly { s' with tasks := next.toList ++ s.tasks.erase (.close ids) } := by
  cases ids with
  | nil =>
    refine h.goOn htask rfl none (by simp) fun session hentitled hclock => ?_
    exact ⟨h.placed session hentitled hclock, by simp⟩
  | cons sid ids =>
    refine h.goOn htask rfl (some (.pop sid ids)) (by simp [Task.opens]) ?_
    intro session hentitled hclock
    obtain ⟨hentitled, hne⟩ := mem_release.mp hentitled
    exact ⟨(h.placed session hentitled hclock).revoke hne, by simp [Task.pending]⟩

/-- The record of a session that was closed goes. -/
theorem Orderly.pop (h : s.Orderly) {sid : Str} {ids : List Str}
    (htask : Task.pop sid ids ∈ s.tasks) :
    let (next, s') := s.perform (.pop sid ids)
    Orderly { s' with tasks := next.toList ++ s.tasks.erase (.pop sid ids) } := by
  refine h.goOn htask rfl (some (.close ids)) (by simp [Task.opens]) ?_
  intro session hentitled hclock
  obtain ⟨hentitled, hne⟩ := mem_release.mp hentitled
  refine ⟨(h.placed session hentitled hclock).drop ?_ ?_, by simp [Task.pending]⟩
  · exact fun e he => (Dict.mem_pop.mp he).2
  · exact fun hkey => Dict.mem_keys_pop.mpr ⟨hne, hkey⟩

/-- A sweep revokes what was due, or reads the file at a quiet time. -/
theorem Orderly.expire (h : s.Orderly) {moment : ℚ} {known ids : List Str}
    (htask : Task.expire moment known ids ∈ s.tasks)
    (hquiet : ids = [] → (∀ task ∈ s.tasks, task.recording = none) ∧
      ∀ sid ∈ s.grants.opened.keys, sid ∈ known) :
    let (next, s') := s.perform (.expire moment known ids)
    Orderly { s' with tasks := next.toList ++ s.tasks.erase (.expire moment known ids) } := by
  cases ids with
  | nil =>
    obtain ⟨hnone, hknown⟩ := hquiet rfl
    refine h.goOn htask rfl (some (.orphan moment _)) (by simp [Task.opens]) ?_
    intro session hentitled hclock
    have hplaced := h.placed session hentitled hclock
    refine ⟨hplaced, fun t ht hmem => ?_⟩
    obtain rfl := Option.mem_some.mp ht
    -- nothing is being opened, so the session is recorded, and so it was in the snapshot
    rcases hplaced.place with hrecord | hkey
    · exact absurd (hnone _ hrecord) (by simp [Task.recording])
    · have horphan := (List.mem_filter.mp hmem).2
      simp [hknown _ hkey] at horphan
  | cons sid ids =>
    refine h.goOn htask rfl (some (.expire moment known ids)) (by simp [Task.opens]) ?_
    intro session hentitled hclock
    have hplaced := h.placed session hentitled hclock
    have hpending := hplaced.pending _ htask
    refine ⟨hplaced.revoke fun heq => hpending (heq ▸ List.mem_cons_self), fun t ht hmem => ?_⟩
    obtain rfl := Option.mem_some.mp ht
    exact hpending (List.mem_cons_of_mem sid hmem)

/-- The lines found without a record are taken out one by one. -/
theorem Orderly.orphan (h : s.Orderly) {moment : ℚ} {ids : List Str}
    (htask : Task.orphan moment ids ∈ s.tasks) :
    let (next, s') := s.perform (.orphan moment ids)
    Orderly { s' with tasks := next.toList ++ s.tasks.erase (.orphan moment ids) } := by
  cases ids with
  | nil =>
    refine h.goOn htask rfl none (by simp) fun session hentitled hclock => ?_
    exact ⟨h.placed session hentitled hclock, by simp⟩
  | cons sid ids =>
    refine h.goOn htask rfl (some (.orphan moment ids)) (by simp [Task.opens]) ?_
    intro session hentitled hclock
    have hplaced := h.placed session hentitled hclock
    have hpending := hplaced.pending _ htask
    -- a sweep only takes out lines that no entitled session needs
    refine ⟨hplaced.revoke fun heq => hpending (heq ▸ List.mem_cons_self), fun t ht hmem => ?_⟩
    obtain rfl := Option.mem_some.mp ht
    exact hpending (List.mem_cons_of_mem sid hmem)

/-- One turn of a task, when nothing disturbs it. -/
theorem Orderly.perform (h : s.Orderly) (htask : task ∈ s.tasks)
    (hquiet : s.Quiet (.advance task false)) :
    let (next, s') := s.perform task
    Orderly { s' with tasks := next.toList ++ s.tasks.erase task } := by
  cases task with
  | install session => exact h.install htask hquiet
  | record session => exact h.record htask
  | close ids => exact h.close htask
  | pop sid ids => exact h.pop htask
  | expire moment known ids =>
    refine h.expire htask fun hnil => ?_
    subst hnil
    exact hquiet
  | orphan moment ids => exact h.orphan htask
  | clear => exact h.goOn htask rfl none (by simp) (by simp)

/-- A call that raises leaves the stores alone. -/
theorem Orderly.abandon (h : s.Orderly) :
    Orderly { s.abandon task with tasks := s.tasks.erase task } := by
  have hopening : ∀ session, Task.install session ∈ s.tasks.erase task ∨
      Task.record session ∈ s.tasks.erase task →
        Accepted session ∧ session.sessionId = sessionIdOf session.nonce := by
    intro session hsession
    exact h.opening session (hsession.imp List.mem_of_mem_erase List.mem_of_mem_erase)
  by_cases hrecord : ∃ session, task = .record session
  · obtain ⟨session, rfl⟩ := hrecord
    refine ⟨fun other hentitled hclock => ?_, hopening⟩
    obtain ⟨hentitled, hne⟩ := mem_release.mp hentitled
    refine (h.placed other hentitled hclock).erase fun heq => ?_
    exact absurd (congrArg OpenSession.sessionId (Task.record.inj heq).symm) hne
  -- any other task that raises leaves the desk as it was
  · have habandon : s.abandon task = s := by
      unfold Desk.abandon
      split
      · exact absurd ⟨_, rfl⟩ hrecord
      · rfl
    rw [habandon]
    refine ⟨fun other hentitled hclock => ?_, hopening⟩
    exact (h.placed other hentitled hclock).erase fun heq => absurd ⟨other, heq⟩ hrecord

/-! ## Calls -/

variable {verify : Str → Bytes → Bytes → Bool}

/-- A call of `open` that is admitted has an accepted key and a well-formed nonce. -/
theorem Orderly.callOpen (h : s.Orderly) {request : SessionOpen} {hotkeys : List Str}
    {acceptAt : ℚ} {t : Desk} (hst : s.step verify (.callOpen request hotkeys acceptAt) = some t) :
    t.Orderly := by
  -- the admission stores a nonce and leaves the lines and the record alone
  obtain ⟨hfile, hopened⟩ := admitOpen_stores verify request hotkeys acceptAt s.grants
  simp only [step, Option.ite_none_right_eq_some] at hst
  replace hst := hst.2
  generalize hadmit : s.grants.admitOpen verify request hotkeys acceptAt = admitted
    at hst hfile hopened
  obtain ⟨outcome, grants⟩ := admitted
  have hplaced : ∀ session ∈ s.entitled, s.clock < session.expiresAt →
      Placed s.tasks grants.opened grants.file session := by
    intro session hentitled hclock
    rw [show grants.opened = s.grants.opened from hopened,
      show grants.file = s.grants.file from hfile]
    exact h.placed session hentitled hclock
  cases outcome with
  | error e => exact Option.some.inj hst ▸ ⟨hplaced, h.opening⟩
  | ok pair =>
    obtain ⟨key, validator⟩ := pair
    obtain ⟨hnonce, hkey⟩ := admitOpen_eq_ok (congrArg Prod.fst hadmit)
    obtain rfl := Option.some.inj hst
    refine ⟨fun session hentitled hclock => ?_, fun session hsession => ?_⟩
    · exact (hplaced session hentitled hclock).cons (by simp) List.not_mem_nil
    -- the new task is the one opening that was not there before
    · simp only [List.mem_cons, Task.install.injEq, reduceCtorEq, false_or] at hsession
      rcases hsession with (rfl | hmem) | hmem
      · exact ⟨⟨hnonce, canonical_of_canonical hkey⟩, rfl⟩
      · exact h.opening session (Or.inl hmem)
      · exact h.opening session (Or.inr hmem)

/-- The locked section of `sweep` drops what is due and nothing else. -/
theorem Orderly.callSweep (h : s.Orderly) {moment : ℚ} (hmoment : moment ≤ s.clock) :
    Orderly { s with
      grants := s.grants.dropExpired moment
      tasks := .expire moment (s.grants.dropExpired moment).opened.keys (s.grants.expired moment) ::
        s.tasks } := by
  constructor
  · intro session hentitled hclock
    have hplaced := h.placed session hentitled hclock
    -- a session that is due has expired, and an entitled one has not
    have hdue : session.sessionId ∉ s.grants.expired moment := by
      intro hmem
      obtain ⟨other, hother, hle⟩ := mem_expired.mp hmem
      rw [hplaced.recorded other hother] at hle
      exact absurd (hle.trans hmoment) (not_le.mpr hclock)
    refine (hplaced.drop ?_ ?_).cons (by simp) hdue
    · exact fun e he => (mem_dropExpired.mp he).2
    · intro hkey
      obtain ⟨other, hother⟩ := Dict.mem_keys.mp hkey
      exact Dict.mem_keys.mpr ⟨other, mem_dropExpired.mpr ⟨hdue, hother⟩⟩
  · intro session hsession
    simp only [List.mem_cons, reduceCtorEq, false_or] at hsession
    exact h.opening session hsession

/-- Every step keeps the desk in order, when nothing disturbs it. -/
theorem Orderly.step (h : s.Orderly) {a : DeskAction} {t : Desk} (hquiet : s.Quiet a)
    (hst : s.step verify a = some t) : t.Orderly := by
  -- the calls first: each adds a task that waits for nobody who is entitled
  cases a with
  | tick moment =>
    simp only [Desk.step, Option.ite_none_right_eq_some, Option.some.injEq] at hst
    obtain ⟨hle, rfl⟩ := hst
    refine ⟨fun session hentitled hclock => ?_, h.opening⟩
    exact h.placed session hentitled (hle.trans_lt hclock)
  | callOpen request hotkeys acceptAt => exact h.callOpen hst
  | callClose request =>
    obtain rfl := Option.some.inj hst
    refine ⟨fun session hentitled hclock => ?_, fun session hsession => ?_⟩
    · exact (h.placed session hentitled hclock).cons (by simp) List.not_mem_nil
    · simp only [List.mem_cons, reduceCtorEq, false_or] at hsession
      exact h.opening session hsession
  | callSweep moment =>
    simp only [Desk.step, Option.ite_none_right_eq_some, Option.some.injEq] at hst
    obtain ⟨hle, rfl⟩ := hst
    exact h.callSweep hle
  | callRevokeAll =>
    obtain rfl := Option.some.inj hst
    refine ⟨by simp, fun session hsession => ?_⟩
    simp only [List.mem_cons, reduceCtorEq, false_or] at hsession
    exact h.opening session hsession
  | advance task raises =>
    simp only [Desk.step, Option.ite_none_right_eq_some] at hst
    obtain ⟨htask, hst⟩ := hst
    -- a task that raises is dropped, any other goes on by one piece
    cases raises with
    | true => exact Option.some.inj hst ▸ h.abandon
    | false => exact Option.some.inj hst ▸ h.perform htask hquiet

theorem orderly_initial (clock : ℚ) (file : KeyFile) : (initial clock file).Orderly :=
  ⟨by simp [initial], by simp [initial]⟩

/-- **A granted session keeps its line in a quiet run.** Whatever calls overlap and in whatever
order their steps come: if every sweep reads the key file while no session is between the
installation of its key and its record, nor was recorded since the snapshot of that sweep, and no
key is installed under an id that is still in use, then in every state reached, every session that
was granted, or is about to be, has its line until a close comes to it, `revoke_all` is called or it
expires. -/
theorem keepsLines_of_quiet {clock : ℚ} {file : KeyFile} {actions : List DeskAction} {t : Desk}
    (hquiet : Meets (step verify) Quiet (initial clock file) actions)
    (h : exec (step verify) (initial clock file) actions = some t) : t.KeepsLines := by
  have horderly : t.Orderly :=
    exec_invariant (fun _ _ _ hs hok hst => hs.step hok hst) (orderly_initial clock file) hquiet h
  exact fun session hentitled hclock => (horderly.placed session hentitled hclock).hasLine

/-- One call of `open` from its start to its end, and then a sweep. -/
def quietRun : List DeskAction :=
  let sid := firstSession.sessionId
  [.callOpen (requestEndingIn '0') ["hk".toList] 1000, .advance (.install firstSession) false,
    .advance (.record firstSession) false, .callSweep 1000,
    .advance (.expire 1000 [sid] []) false, .advance (.orphan 1000 []) false]

theorem keepsLines_of_quiet_sweep :
    Meets (step fun _ _ _ => true) Quiet (initial 1000 none) quietRun ∧
    ∃ t, exec (step fun _ _ _ => true) (initial 1000 none) quietRun = some t ∧
      firstSession ∈ t.entitled ∧ t.clock = 1000 ∧ t.KeepsLines := by
  have hquiet : Meets (step fun _ _ _ => true) Quiet (initial 1000 none) quietRun := by
    decide +kernel
  have hrun : (exec (step fun _ _ _ => true) (initial 1000 none) quietRun).map (fun t =>
      (decide (firstSession ∈ t.entitled), t.clock)) = some (true, 1000) := by
    decide +kernel
  obtain ⟨t, ht, hstate⟩ := Option.map_eq_some_iff.mp hrun
  simp only [Prod.mk.injEq, decide_eq_true_eq] at hstate
  exact ⟨hquiet, t, ht, hstate.1, hstate.2, keepsLines_of_quiet hquiet ht⟩

/-- One call of `open`, and a sweep that starts when the key is installed, reads the file before the
session is recorded and revokes it afterwards. -/
def overlappingRun : List DeskAction :=
  let sid := firstSession.sessionId
  [.callOpen (requestEndingIn '0') ["hk".toList] 1000, .advance (.install firstSession) false,
    .callSweep 1000, .advance (.expire 1000 [] []) false, .advance (.record firstSession) false,
    .advance (.orphan 1000 [sid]) false, .advance (.orphan 1000 []) false]

/-- The session is granted and recorded, no call is under way, no time has passed, and its line is
gone. -/
theorem granted_session_swept :
    ∃ t, exec (step fun _ _ _ => true) (initial 1000 none) overlappingRun = some t ∧
      firstSession ∈ t.entitled ∧ t.clock < firstSession.expiresAt ∧ t.tasks = [] ∧
      t.grants.opened.get? firstSession.sessionId = some firstSession ∧
      sessionLine firstSession.publicKey firstSession.sessionId ∉ read t.grants.file ∧
      ¬ t.KeepsLines := by
  -- the sweep began before the session was on record, and ends after it
  have hrun : (exec (step fun _ _ _ => true) (initial 1000 none) overlappingRun).map (fun t =>
      (decide (firstSession ∈ t.entitled), t.clock, t.tasks,
        t.grants.opened.get? firstSession.sessionId,
        decide (sessionLine firstSession.publicKey firstSession.sessionId ∈ read t.grants.file))) =
      some (true, 1000, [], some firstSession, false) := by
    decide +kernel
  obtain ⟨t, ht, hstate⟩ := Option.map_eq_some_iff.mp hrun
  simp only [Prod.mk.injEq, decide_eq_true_eq, decide_eq_false_iff_not] at hstate
  obtain ⟨hentitled, hclock, htasks, hrecorded, hline⟩ := hstate
  have hlt : t.clock < firstSession.expiresAt := by
    rw [hclock]
    decide +kernel
  exact ⟨t, ht, hentitled, hlt, htasks, hrecorded, hline, fun hkeeps =>
    hline (hkeeps firstSession hentitled hlt)⟩

end Desk

end ComputePool.Agent
