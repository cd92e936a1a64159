import Mathlib.Data.List.Nodup
import Mathlib.Tactic.Linarith
import ComputePool.Foundations.Transition
import ComputePool.Agent.Access.Grants

/-!
# A signed request is granted once

The agent process as seen by someone who replays a signed `/session/open` request. Two windows
have to fit together: `check_request` accepts a timestamp up to 120 seconds away from the clock,
and `NonceBook` forgets a nonce 600 seconds after it accepted it. Between the two checks the
request waits for a thread, at most `OPEN_TIMEOUT` seconds.

The clock never goes back. Requests, sweeps, closings and revocations come in any order, and a
sweep may use a clock reading it took earlier.

* `Remembered`: a granted request has its nonce in the book until 480 seconds after its timestamp.
* `granted_at_most_once`: no request is granted twice, and a granted request whose timestamp is
  still fresh has its nonce in the book.
-/

namespace ComputePool.Agent

open Text Numeral Protocol Transition

/-- `OPEN_TIMEOUT`. -/
def openTimeout : ℚ := 30

/-- A request that passed `check_request` and waits for `open`. -/
structure Checked where
  request : Request
  hotkey : Str
  checkedAt : ℚ
  deriving DecidableEq, Repr

/-- The agent process: its clock, the grants, the requests between the two checks, and the requests
granted so far. -/
structure Process where
  clock : ℚ
  grants : SessionGrants
  waiting : List Checked := []
  granted : List Request := []
  deriving Repr

/-- One step of the agent process. -/
inductive ProcessAction (ε : Type)
  /-- The clock shows a later moment. -/
  | tick (moment : ℚ)
  /-- A request arrives and is checked against the validators active now. -/
  | check (request : Request) (validators : List Str)
  /-- A checked request is dropped before it reaches `open`. -/
  | drop (waiting : Checked)
  /-- A checked request reaches the nonce check of `open` and the call runs to its end. -/
  | openSession (waiting : Checked) (validators : List Str) (env : OpenEnv ε)
  /-- A closing request. -/
  | close (request : SessionClose) (fault : Fault)
  /-- A sweep, with the clock reading it took. -/
  | sweep (moment : ℚ) (fault : Fault)
  /-- All sessions are revoked. -/
  | revokeAll (fault : Fault)

namespace Process

variable {ε : Type} (verify : Str → Bytes → Bytes → Bool) (settings : Settings)
  -- the three text fields of a body that parses and passes the model `SessionOpenBody`
  (parse : Bytes → Option (Str × Str × Str))

/-- `SessionOpen.from_payload` on the body of a request. -/
def opening (r : Request) : Option SessionOpen :=
  (parse r.body).map fun (publicKey, nonce, signature) =>
    SessionOpen.fromPayload publicKey nonce signature

/-- The route `POST /session/open`. -/
def isOpenRoute (r : Request) : Bool :=
  r.method = "POST".toList && r.path = "/session/open".toList

/-- The handler of `POST /session/open` after the signature check. -/
def sessionOpen (s : Process) (c : Checked) (validators : List Str) (env : OpenEnv ε) : Process :=
  let s := { s with waiting := s.waiting.erase c }
  match opening parse c.request with
  | none => s
  | some request =>
    let hotkeys := c.hotkey :: validators.filter (· ≠ c.hotkey)
    match s.grants.openSession verify settings request hotkeys env with
    | (.ok _, grants) => { s with grants, granted := c.request :: s.granted }
    | (.error _, grants) => { s with grants }

/-- The process after one action; `none` when the action is not possible. -/
def step (s : Process) : ProcessAction ε → Option Process
  | .tick moment => if s.clock ≤ moment then some { s with clock := moment } else none
  | .check r validators =>
    -- the signature is checked on arrival, the nonce only when the session is opened
    match checkRequest verify validators r signatureWindowSeconds s.clock with
    | .error _ => some s
    | .ok hotkey =>
      if isOpenRoute r then some { s with waiting := s.waiting ++ [⟨r, hotkey, s.clock⟩] }
      else some s
  | .drop c => some { s with waiting := s.waiting.erase c }
  | .openSession c validators env =>
    if c ∈ s.waiting ∧ s.clock ≤ c.checkedAt + openTimeout ∧ env.acceptAt = s.clock then
      some (s.sessionOpen verify settings parse c validators env)
    else none
  | .close request fault => some { s with grants := (s.grants.close request fault).2 }
  | .sweep moment fault =>
    if moment ≤ s.clock then some { s with grants := (s.grants.sweep moment fault).2 } else none
  | .revokeAll fault => some { s with grants := (s.grants.revokeAll fault).2 }

/-- The process when it has just started. -/
def initial (clock : ℚ) (file : SshKeys.KeyFile) : Process :=
  { clock, grants := { file } }

/-! ## The nonce book during a call -/

/-- The later book has the lifetime of the earlier one and every entry of it that is not due. -/
def Keeps (moment : ℚ) (book book' : NonceBook) : Prop :=
  book'.ttl = book.ttl ∧ ∀ e ∈ book.seen, moment < e.2 → e ∈ book'.seen

theorem Keeps.refl (moment : ℚ) (book : NonceBook) : Keeps moment book book :=
  ⟨rfl, fun _ he _ => he⟩

/-- Closing touches no nonce. -/
theorem nonces_closeEach (ids : List Str) (n : ℕ) (g : SessionGrants) :
    (ids.foldl SessionGrants.closeOne (n, g)).2.nonces = g.nonces := by
  induction ids generalizing n g with
  | nil => rfl
  | cons sid ids ih => exact ih _ _

theorem keeps_close (g : SessionGrants) (request : SessionClose) (fault : Fault) (moment : ℚ) :
    Keeps moment g.nonces (g.close request fault).2.nonces := by
  have h : (g.close request fault).2.nonces = g.nonces := nonces_closeEach _ 0 g
  exact h ▸ Keeps.refl moment g.nonces

/-- Nor does revoking all. -/
theorem keeps_revokeAll (g : SessionGrants) (fault : Fault) (moment : ℚ) :
    Keeps moment g.nonces (g.revokeAll fault).2.nonces := by
  unfold SessionGrants.revokeAll
  dsimp only
  split_ifs <;> exact Keeps.refl moment g.nonces

/-- A sweep forgets the nonces that were due when it looked at the clock. -/
theorem keeps_sweep (g : SessionGrants) (fault : Fault) {moment now : ℚ} (h : moment ≤ now) :
    Keeps now g.nonces (g.sweep moment fault).2.nonces := by
  unfold SessionGrants.sweep
  dsimp only
  split_ifs
  · exact Keeps.refl now g.nonces
  · exact Keeps.refl now g.nonces
  · exact ⟨rfl, fun e he hdue => NonceBook.mem_expire.mpr ⟨he, h.trans_lt hdue⟩⟩

theorem keeps_accept (book : NonceBook) (nonce : Str) (moment : ℚ) :
    Keeps moment book (book.accept nonce moment).2 :=
  ⟨NonceBook.ttl_accept book nonce moment, fun _ he hdue => NonceBook.mem_accept_of_mem he hdue⟩

/-- The nonce is the last of the checks, and the only one that changes the book. -/
theorem nonces_admitOpen (g : SessionGrants) (request : SessionOpen) (hotkeys : List Str)
    (moment : ℚ) :
    (∃ e, (g.admitOpen verify request hotkeys moment).1 = .error e ∧
        Keeps moment g.nonces (g.admitOpen verify request hotkeys moment).2.nonces) ∨
      ((g.nonces.accept request.nonce moment).1 = true ∧
        (g.admitOpen verify request hotkeys moment).2.nonces =
          (g.nonces.accept request.nonce moment).2) := by
  unfold SessionGrants.admitOpen
  split_ifs
  · exact Or.inl ⟨_, rfl, Keeps.refl moment g.nonces⟩
  -- the checks of the key and of the validator come before the nonce is taken
  · split
    · exact Or.inl ⟨_, rfl, Keeps.refl moment g.nonces⟩
    · dsimp only
      split_ifs with hvalidator haccepted
      · exact Or.inl ⟨_, rfl, Keeps.refl moment g.nonces⟩
      · exact Or.inr ⟨haccepted, rfl⟩
      · exact Or.inl ⟨_, rfl, keeps_accept g.nonces request.nonce moment⟩

/-- Writing the line does not touch the nonce book. -/
theorem nonces_install (g : SessionGrants) (key sessionId : Str) (error : Option String) :
    (g.install key sessionId error).2.nonces = g.nonces := by
  unfold SessionGrants.install
  split
  · rfl
  · split <;> rfl

/-- Neither does opening a session: the nonce was entered by the checks. -/
theorem nonces_openAdmitted (g : SessionGrants) (request : SessionOpen) (key validator : Str)
    (env : OpenEnv ε) :
    (g.openAdmitted settings request key validator env).2.nonces = g.nonces := by
  have hinstall := nonces_install g key (SessionGrants.sessionIdOf request.nonce) env.installError
  unfold SessionGrants.openAdmitted
  dsimp only
  split
  · rename_i heq
    rwa [heq] at hinstall
  · rename_i heq
    rw [heq] at hinstall
    split
    · exact hinstall
    · split_ifs <;> exact hinstall

/-- A call of `open` keeps the nonces that are not due, and if it grants the request, the nonce was
new and is in the book for its lifetime. -/
theorem nonces_openSession (g : SessionGrants) (request : SessionOpen) (hotkeys : List Str)
    (env : OpenEnv ε) :
    let result := g.openSession verify settings request hotkeys env
    Keeps env.acceptAt g.nonces result.2.nonces ∧
      ∀ grant, result.1 = .ok grant →
        (∀ until_, (request.nonce, until_) ∈ g.nonces.seen → until_ ≤ env.acceptAt) ∧
          (request.nonce, env.acceptAt + g.nonces.ttl) ∈ result.2.nonces.seen := by
  have hadmit := nonces_admitOpen verify g request hotkeys env.acceptAt
  unfold SessionGrants.openSession
  dsimp only
  -- a refusal keeps the book as it is, or with this nonce in it
  split
  · rename_i heq
    rw [heq] at hadmit
    refine ⟨?_, fun grant hgrant => nomatch hgrant⟩
    rcases hadmit with ⟨-, -, hkeeps⟩ | ⟨-, hnonces⟩
    · exact hkeeps
    · rw [hnonces]
      exact keeps_accept g.nonces request.nonce env.acceptAt
  · rename_i heq
    rw [heq] at hadmit
    rcases hadmit with ⟨_, hcases, -⟩ | ⟨haccepted, hnonces⟩
    -- an admitted request has taken its nonce, whatever comes after
    · cases hcases
    · rw [nonces_openAdmitted, hnonces]
      exact ⟨keeps_accept g.nonces request.nonce env.acceptAt,
        fun _ _ => NonceBook.accept_eq_true haccepted⟩

/-! ## The invariant -/

/-- The nonce of a request granted so far is in the book until 480 seconds after the timestamp,
however long ago the request was granted. -/
def NonceKept (s : Process) (r : Request) : Prop :=
  ∃ request stamp, opening parse r = some request ∧
    floatOf (strip r.timestamp) = some (.fin stamp) ∧
    (s.clock < stamp + 480 →
      ∃ until_, (request.nonce, until_) ∈ s.grants.nonces.seen ∧ stamp + 480 ≤ until_)

/-- What every run keeps. -/
structure Remembered (s : Process) : Prop where
  ttl : s.grants.nonces.ttl = nonceTtlSeconds
  waiting : ∀ c ∈ s.waiting, c.checkedAt ≤ s.clock ∧
    fresh (strip c.request.timestamp) signatureWindowSeconds c.checkedAt
  granted : ∀ r ∈ s.granted, NonceKept parse s r
  once : s.granted.Nodup

variable {verify settings parse}

theorem remembered_initial (clock : ℚ) (file : SshKeys.KeyFile) :
    Remembered parse (initial clock file) :=
  ⟨rfl, by simp [initial], by simp [initial], by simp [initial]⟩

/-- A change of the grants that keeps the nonces that are not due keeps the invariant. -/
theorem Remembered.grants {s : Process} (h : Remembered parse s) {g : SessionGrants}
    (hg : Keeps s.clock s.grants.nonces g.nonces) : Remembered parse { s with grants := g } where
  ttl := hg.1.trans h.ttl
  waiting := h.waiting
  granted := by
    intro r hr
    obtain ⟨request, stamp, hrequest, hstamp, hkept⟩ := h.granted r hr
    refine ⟨request, stamp, hrequest, hstamp, fun hclock => ?_⟩
    obtain ⟨until_, hmem, hle⟩ := hkept hclock
    exact ⟨until_, hg.2 _ hmem (lt_of_lt_of_le hclock hle), hle⟩
  once := h.once

/-- What was checked before is checked before any later time. -/
theorem Remembered.tick {s : Process} (h : Remembered parse s) {moment : ℚ}
    (hle : s.clock ≤ moment) : Remembered parse { s with clock := moment } where
  ttl := h.ttl
  waiting := fun c hc => ⟨(h.waiting c hc).1.trans hle, (h.waiting c hc).2⟩
  granted := by
    intro r hr
    obtain ⟨request, stamp, hrequest, hstamp, hkept⟩ := h.granted r hr
    exact ⟨request, stamp, hrequest, hstamp, fun hclock => hkept (hle.trans_lt hclock)⟩
  once := h.once

theorem Remembered.erase {s : Process} (h : Remembered parse s) (c : Checked) :
    Remembered parse { s with waiting := s.waiting.erase c } :=
  ⟨h.ttl, fun d hd => h.waiting d (List.mem_of_mem_erase hd), h.granted, h.once⟩

/-- A request that passed the check was fresh at the moment it is remembered with. -/
theorem Remembered.check {s : Process} (h : Remembered parse s) {r : Request} {hotkey : Str}
    (hfresh : fresh (strip r.timestamp) signatureWindowSeconds s.clock) :
    Remembered parse { s with waiting := s.waiting ++ [⟨r, hotkey, s.clock⟩] } where
  ttl := h.ttl
  waiting := by
    intro c hc
    rcases List.mem_append.mp hc with hc | hc
    · exact h.waiting c hc
    · rw [List.mem_singleton.mp hc]
      exact ⟨le_rfl, hfresh⟩
  granted := h.granted
  once := h.once

/-- A request that reaches the nonce check in time was stamped less than 480 seconds ago, and its
nonce is accepted until 480 seconds after the stamp at least. -/
theorem stamp_bounds {stamp checkedAt now : ℚ}
    (hstamp : |checkedAt - stamp| ≤ signatureWindowSeconds)
    (hwait : now ≤ checkedAt + openTimeout) (hnow : checkedAt ≤ now) :
    now < stamp + 480 ∧ stamp + 480 ≤ now + nonceTtlSeconds := by
  obtain ⟨hlow, hhigh⟩ := abs_le.mp hstamp
  simp only [signatureWindowSeconds, openTimeout, nonceTtlSeconds] at *
  constructor <;> linarith

/-- A request is granted only if its nonce is not in the book, and the book then holds it for longer
than the request can wait. -/
theorem Remembered.sessionOpen {s : Process} (h : Remembered parse s) {c : Checked}
    (hc : c ∈ s.waiting) (hwait : s.clock ≤ c.checkedAt + openTimeout) (validators : List Str)
    {env : OpenEnv ε} (henv : env.acceptAt = s.clock) :
    Remembered parse (s.sessionOpen verify settings parse c validators env) := by
  obtain ⟨hchecked, hfresh⟩ := h.waiting c hc
  -- the stamp is at most a window and a wait old, and the book remembers for longer
  obtain ⟨stamp, hstamp, hwindow⟩ := exists_stamp_of_fresh hfresh
  obtain ⟨hrecent, hlong⟩ := stamp_bounds hwindow hwait hchecked
  have herase := h.erase c
  unfold Process.sessionOpen
  dsimp only
  split
  case h_1 => exact herase
  case h_2 request hrequest =>
    obtain ⟨hkeeps, hnew⟩ := nonces_openSession verify settings s.grants request
      (c.hotkey :: validators.filter (· ≠ c.hotkey)) env
    rw [henv] at hkeeps hnew
    split
    case h_2 error grants heq =>
      rw [heq] at hkeeps
      exact herase.grants hkeeps
    case h_1 grant grants heq =>
      rw [heq] at hkeeps hnew
      obtain ⟨hunused, hmem⟩ := hnew grant rfl
      have hgrants := herase.grants hkeeps
      refine ⟨hgrants.ttl, hgrants.waiting, fun r hr => ?_, ?_⟩
      · rcases List.mem_cons.mp hr with rfl | hr
        · exact ⟨request, stamp, hrequest, hstamp, fun _ => ⟨_, hmem, by rw [h.ttl]; exact hlong⟩⟩
        · exact hgrants.granted r hr
      · -- were it granted before, its nonce would still be in the book
        refine List.nodup_cons.mpr ⟨fun hbefore => ?_, h.once⟩
        obtain ⟨request', stamp', hrequest', hstamp', hkept⟩ := h.granted _ hbefore
        obtain rfl := Option.some.inj (hrequest'.symm.trans hrequest)
        obtain rfl : stamp' = stamp := by simpa [hstamp] using hstamp'.symm
        obtain ⟨until_, hseen, hle⟩ := hkept hrecent
        exact absurd (hunused until_ hseen) (not_le.mpr (lt_of_lt_of_le hrecent hle))

/-- Every step of the process keeps the nonce book ahead of the grants. -/
theorem Remembered.step {s t : Process} (h : Remembered parse s) {a : ProcessAction ε}
    (hst : s.step verify settings parse a = some t) : Remembered parse t := by
  -- only `openSession` grants; the others keep what is remembered
  cases a with
  | tick moment =>
    simp only [Process.step, Option.ite_none_right_eq_some, Option.some.injEq] at hst
    exact hst.2 ▸ h.tick hst.1
  | check r validators =>
    simp only [Process.step] at hst
    split at hst
    · exact Option.some.inj hst ▸ h
    · rename_i hotkey hcheck
      split_ifs at hst
      · exact Option.some.inj hst ▸ h.check (fresh_of_checkRequest verify hcheck)
      · exact Option.some.inj hst ▸ h
  | drop c => exact Option.some.inj hst ▸ h.erase c
  | openSession c validators env =>
    simp only [Process.step, Option.ite_none_right_eq_some, Option.some.injEq] at hst
    obtain ⟨⟨hc, hwait, henv⟩, rfl⟩ := hst
    exact h.sessionOpen hc hwait validators henv
  | close request fault =>
    exact Option.some.inj hst ▸ h.grants (keeps_close s.grants request fault s.clock)
  | sweep moment fault =>
    simp only [Process.step, Option.ite_none_right_eq_some, Option.some.injEq] at hst
    exact hst.2 ▸ h.grants (keeps_sweep s.grants fault hst.1)
  | revokeAll fault =>
    exact Option.some.inj hst ▸ h.grants (keeps_revokeAll s.grants fault s.clock)

/-- Every run keeps the nonce book ahead of the grants. -/
theorem remembered_exec {clock : ℚ} {file : SshKeys.KeyFile} {actions : List (ProcessAction ε)}
    {s : Process}
    (h : exec (Process.step verify settings parse) (initial clock file) actions = some s) :
    Remembered parse s :=
  exec_invariant' (fun _ _ _ hs hst => hs.step hst) (remembered_initial clock file) h

/-- **No replay.** In every run of the agent, a signed request is granted at most once; and as long
as `fresh` accepts the timestamp of a granted request, its nonce is in the book and not due. -/
theorem granted_at_most_once {clock : ℚ} {file : SshKeys.KeyFile}
    {actions : List (ProcessAction ε)} {s : Process}
    (h : exec (Process.step verify settings parse) (initial clock file) actions = some s)
    (r : Request) :
    s.granted.count r ≤ 1 ∧
      (r ∈ s.granted → fresh (strip r.timestamp) signatureWindowSeconds s.clock →
        ∃ request until_, opening parse r = some request ∧
          (request.nonce, until_) ∈ s.grants.nonces.seen ∧ s.clock < until_) := by
  have hs := remembered_exec h
  refine ⟨List.nodup_iff_count_le_one.mp hs.once r, fun hr hfresh => ?_⟩
  obtain ⟨request, stamp, hrequest, hstamp, hkept⟩ := hs.granted r hr
  obtain ⟨stamp', hstamp', hwindow⟩ := exists_stamp_of_fresh hfresh
  obtain rfl : stamp' = stamp := by simpa [hstamp] using hstamp'.symm
  -- a request that is still fresh is one the book remembers
  have hclock : s.clock < stamp' + 480 := by
    have := (abs_le.mp hwindow).2
    simp only [signatureWindowSeconds] at this
    linarith
  obtain ⟨until_, hseen, hle⟩ := hkept hclock
  exact ⟨request, until_, hrequest, hseen, lt_of_lt_of_le hclock hle⟩

/-- A request stamped at 1000, by a validator whose signatures all verify. -/
def sampleRequest : Request where
  method := "POST".toList
  path := "/session/open".toList
  hotkey := "hk".toList
  timestamp := "1000".toList
  signature := "00".toList
  body := []

/-- The body of `sampleRequest`. -/
def sampleBody : Str × Str × Str :=
  ("ssh-ed25519 AAAA rig".toList, List.replicate 64 'a', "00".toList)

/-- Open a session at 1000, and replay the request a hundred seconds later. -/
def replayRun : List (ProcessAction Unit) :=
  let validators := ["hk".toList]
  let evidence := some ("host".toList, ⟨(), []⟩)
  [.check sampleRequest validators,
    .openSession ⟨sampleRequest, "hk".toList, 1000⟩ validators ⟨1000, 1000, none, evidence⟩,
    .tick 1100,
    .check sampleRequest validators,
    .openSession ⟨sampleRequest, "hk".toList, 1100⟩ validators ⟨1100, 1100, none, evidence⟩]

theorem granted_at_most_once_replayed :
    ∃ s, exec (Process.step (fun _ _ _ => true) ⟨[], 22, [], [], []⟩ fun _ => some sampleBody)
        (initial 1000 none) replayRun = some s ∧
      sampleRequest ∈ s.granted ∧ s.granted.count sampleRequest ≤ 1 := by
  have hrun : (exec (Process.step (fun _ _ _ => true) ⟨[], 22, [], [], []⟩
      fun _ => some sampleBody) (initial 1000 none) replayRun).map Process.granted =
        some [sampleRequest] := by
    decide +kernel
  obtain ⟨s, hs, hgranted⟩ := Option.map_eq_some_iff.mp hrun
  exact ⟨s, hs, by simp [hgranted], (granted_at_most_once hs sampleRequest).1⟩

end Process

end ComputePool.Agent
