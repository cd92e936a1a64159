import ComputePool.Foundations.Dict
import ComputePool.Foundations.Text
import ComputePool.Foundations.Transition

/-!
# Decisions on claims

`agent/control/claims.py`: the operator answers a claim with `rig-agent approve`, a process of its
own that writes the decision into a file named after the hotkey; the agent drains the folder of
these files, sends each decision to the server and removes the file. The two share nothing but the
folder, so between any two of these steps the other side can take one:

* `record_decision` opens the file, which creates or truncates it, and then writes the text. What it
  writes goes to the file it opened, also when the agent has removed that file in between.
* `_drain` reads a file, sends what it read and waits for the answer, and removes the file when the
  decision was sent or is not one.

The state also keeps what the two sides have done: the decisions recorded, the ones handed to the
server, and for each hotkey the last recorded decision that has not been delivered.

* `Approvals.Undisturbed`: the agent reads no file that is still empty and removes none that was
  opened or written since it was read, and no decision is written over a longer one.
* `Approvals.only_recorded_sent`: in a run of such steps only recorded decisions are sent, and the
  last recorded one is in its file until it is delivered.
-/

namespace ComputePool.Agent

open Text Transition

/-- `[1-9A-HJ-NP-Za-km-z]`. -/
def isBase58 (c : Char) : Bool :=
  ('1' ≤ c && c ≤ '9') || ('A' ≤ c && c ≤ 'H') || ('J' ≤ c && c ≤ 'N') || ('P' ≤ c && c ≤ 'Z') ||
    ('a' ≤ c && c ≤ 'k') || ('m' ≤ c && c ≤ 'z')

/-- `well_formed_hotkey`. -/
def wellFormedHotkey (hotkey : Str) : Bool :=
  matchesToEnd (fun s => 46 ≤ s.length && s.length ≤ 50 && s.all isBase58) hotkey

/-- The text of a decision. -/
def decisionText (approved : Bool) : Str :=
  if approved then "approve".toList else "deny".toList

/-- A file of the folder. -/
structure ApprovalFile where
  /-- The moment it was created: a file that is removed and created again is another one. -/
  born : ℕ
  text : Str
  /-- The moment it was last opened or written. -/
  stamp : ℕ
  deriving DecidableEq, Repr

/-- A `record_decision` that has opened its file and not written it yet. -/
structure Recorder where
  hotkey : Str
  approved : Bool
  /-- Which file it has opened. -/
  born : ℕ
  deriving DecidableEq, Repr

/-- Where `_drain` is. -/
inductive Drain
  | idle
  /-- Between two entries. -/
  | scanning (left : List Str)
  /-- The decision, read when the file had the given stamp, is on its way. -/
  | sending (hotkey decision : Str) (stamp : ℕ) (left : List Str)
  /-- `_send` has returned. -/
  | settled (hotkey decision : Str) (stamp : ℕ) (sent : Bool) (left : List Str)
  deriving DecidableEq, Repr

/-- What becomes of a decision that is handed to the server. -/
inductive SendOutcome
  /-- The rig has no id yet, and nothing is sent. -/
  | unregistered
  /-- The call raises; the server may have seen the decision. -/
  | failed
  | delivered
  deriving DecidableEq, Repr

/-- The folder, the two sides at work on it, and what they have done. -/
structure Approvals where
  folder : Dict Str ApprovalFile := []
  clock : ℕ := 0
  recorders : List Recorder := []
  drain : Drain := .idle
  recorded : List (Str × Bool) := []
  sent : List (Str × Bool) := []
  unsent : Dict Str Bool := []
  deriving DecidableEq, Repr

/-- A step of one of the two sides. -/
inductive ApprovalAction
  /-- `record_decision` opens the file. -/
  | start (hotkey : Str) (approved : Bool)
  /-- A `record_decision` writes its text and returns. -/
  | write (recorder : ℕ)
  /-- `_drain` lists the folder. -/
  | list
  /-- `_drain` reads the next file. -/
  | read
  /-- The next file cannot be read, and is left for the next time. -/
  | skip
  /-- `_send` returns. -/
  | send (outcome : SendOutcome)
  /-- `_drain` removes the file, or leaves it. -/
  | unlink
  /-- `_drain` ends, at the end of the folder or because the agent stops. -/
  | stop
  deriving DecidableEq, Repr

namespace Approvals

/-- The file after it is opened for writing: truncated, or created. -/
def truncated (old : Option ApprovalFile) (now : ℕ) : ApprovalFile :=
  match old with
  | none => { born := now, text := [], stamp := now }
  | some file => { file with text := [], stamp := now }

/-- The text of a file after `text` is written at its start. -/
def overwrite (text old : Str) : Str :=
  text ++ old.drop text.length

/-- Opening the file in `record_decision`. -/
def openFile (s : Approvals) (hotkey : Str) (approved : Bool) : Approvals :=
  let file := truncated (Dict.get? s.folder hotkey) s.clock
  { s with
    folder := Dict.set s.folder hotkey file
    clock := s.clock + 1
    recorders := s.recorders ++ [⟨hotkey, approved, file.born⟩] }

/-- The folder after a `record_decision` has written its text; a file that has been removed is not
in the folder any more. -/
def written (s : Approvals) (r : Recorder) : Dict Str ApprovalFile :=
  match Dict.get? s.folder r.hotkey with
  | none => s.folder
  | some file =>
    if file.born = r.born then
      Dict.set s.folder r.hotkey
        { file with text := overwrite (decisionText r.approved) file.text, stamp := s.clock }
    else s.folder

/-- Whether `_drain` removes the file after `_send` has returned. -/
def removes (sent : Bool) (decision : Str) : Bool :=
  sent || decision ∉ [decisionText true, decisionText false]

/-- One step. -/
def step (s : Approvals) : ApprovalAction → Option Approvals
  | .start hotkey approved =>
    if wellFormedHotkey hotkey then some (s.openFile hotkey approved) else none
  | .write i =>
    match s.recorders[i]? with
    | none => none
    | some r =>
      some { s with
        folder := s.written r
        clock := s.clock + 1
        recorders := s.recorders.eraseIdx i
        recorded := (r.hotkey, r.approved) :: s.recorded
        unsent := Dict.set s.unsent r.hotkey r.approved }
  | .list =>
    match s.drain with
    | .idle => some { s with drain := .scanning (sortedSet (Dict.keys s.folder)) }
    | _ => none
  | .read =>
    match s.drain with
    | .scanning (name :: left) =>
      match Dict.get? s.folder name with
      | none => some { s with drain := .scanning left }
      | some file =>
        if wellFormedHotkey name then
          some { s with drain := .sending name (lower (strip file.text)) file.stamp left }
        else some { s with folder := Dict.pop s.folder name, drain := .scanning left }
    | _ => none
  | .skip =>
    match s.drain with
    | .scanning (_ :: left) => some { s with drain := .scanning left }
    | _ => none
  | .send outcome =>
    match s.drain with
    | .sending hotkey decision stamp left =>
      let delivered := outcome = .delivered
      -- the decision that is delivered is the last one if the file has not changed
      let last := (Dict.get? s.folder hotkey).map ApprovalFile.stamp = some stamp
      some { s with
        drain := .settled hotkey decision stamp delivered left
        sent := if outcome = .unregistered then s.sent
          else (hotkey, decision = decisionText true) :: s.sent
        unsent := if delivered ∧ last then Dict.pop s.unsent hotkey else s.unsent }
    | _ => none
  | .unlink =>
    match s.drain with
    | .settled hotkey decision _ sent left =>
      some { s with
        folder := if removes sent decision then Dict.pop s.folder hotkey else s.folder
        drain := .scanning left }
    | _ => none
  | .stop => some { s with drain := .idle }

/-- The file `_drain` is about to read. -/
def reads (s : Approvals) : Option ApprovalFile :=
  match s.drain with
  | .scanning (name :: _) => Dict.get? s.folder name
  | _ => none

/-- The hotkey whose file `_drain` is about to remove, and the stamp it was read with. -/
def removing (s : Approvals) : Option (Str × ℕ) :=
  match s.drain with
  | .settled hotkey decision stamp sent _ =>
    if removes sent decision then some (hotkey, stamp) else none
  | _ => none

/-- The two sides do not disturb each other in this step: no decision is written over a longer one,
the file that is read is not empty, and the file that is removed was neither opened nor written
since it was read, and is not open. -/
def Undisturbed (s : Approvals) : ApprovalAction → Prop
  | .write i => ∀ r ∈ s.recorders[i]?, ∀ file ∈ Dict.get? s.folder r.hotkey,
      file.text.length ≤ (decisionText r.approved).length
  | .read => ∀ file ∈ s.reads, file.text ≠ []
  | .unlink => ∀ p ∈ s.removing, (∀ file ∈ Dict.get? s.folder p.1, file.stamp = p.2) ∧
      ∀ r ∈ s.recorders, r.hotkey ≠ p.1
  | _ => True

instance decidableUndisturbed (s : Approvals) : (a : ApprovalAction) → Decidable (s.Undisturbed a)
  | .write i => inferInstanceAs (Decidable (∀ r ∈ s.recorders[i]?,
      ∀ file ∈ Dict.get? s.folder r.hotkey, file.text.length ≤ (decisionText r.approved).length))
  | .read => inferInstanceAs (Decidable (∀ file ∈ s.reads, file.text ≠ []))
  | .unlink => inferInstanceAs (Decidable (∀ p ∈ s.removing,
      (∀ file ∈ Dict.get? s.folder p.1, file.stamp = p.2) ∧ ∀ r ∈ s.recorders, r.hotkey ≠ p.1))
  | .start .. => isTrue trivial
  | .list => isTrue trivial
  | .skip => isTrue trivial
  | .send _ => isTrue trivial
  | .stop => isTrue trivial

/-! ## The invariant -/

/-- The file of the hotkey holds the decision. -/
def Holds (s : Approvals) (hotkey : Str) (approved : Bool) : Prop :=
  ∃ file, Dict.get? s.folder hotkey = some file ∧ file.text = decisionText approved

/-- A `record_decision` for the hotkey is between its two steps. -/
def Recording (s : Approvals) (hotkey : Str) : Prop :=
  ∃ r ∈ s.recorders, r.hotkey = hotkey

/-- The decision `_drain` is occupied with: hotkey, what was read, and the stamp then. -/
def inHand (s : Approvals) : Option (Str × Str × ℕ) :=
  match s.drain with
  | .sending hotkey decision stamp _ => some (hotkey, decision, stamp)
  | .settled hotkey decision stamp _ _ => some (hotkey, decision, stamp)
  | _ => none

/-- What holds as long as the two sides do not disturb each other. -/
structure Faithful (s : Approvals) : Prop where
  names : ∀ hotkey file, Dict.get? s.folder hotkey = some file → wellFormedHotkey hotkey
  texts : ∀ hotkey file, Dict.get? s.folder hotkey = some file →
    file.text = [] ∨ ∃ approved, (hotkey, approved) ∈ s.recorded ∧ file.text = decisionText approved
  stamps : ∀ hotkey file, Dict.get? s.folder hotkey = some file → file.stamp < s.clock
  /-- The file a `record_decision` has open is in the folder. -/
  linked : ∀ r ∈ s.recorders,
    ∃ file, Dict.get? s.folder r.hotkey = some file ∧ file.born = r.born
  /-- What `_drain` has read is a decision that was recorded. -/
  inHand : ∀ p ∈ s.inHand, p.2.2 < s.clock ∧
    ∃ approved, (p.1, approved) ∈ s.recorded ∧ p.2.1 = decisionText approved
  /-- A decision that was delivered is not owed, unless the file has changed. -/
  delivered : ∀ hotkey decision stamp left, s.drain = .settled hotkey decision stamp true left →
    ∀ file, Dict.get? s.folder hotkey = some file → file.stamp = stamp →
      Dict.get? s.unsent hotkey = none
  owed : ∀ hotkey approved, Dict.get? s.unsent hotkey = some approved →
    s.Holds hotkey approved ∨ s.Recording hotkey
  sent : ∀ p ∈ s.sent, p ∈ s.recorded

/-- Nothing is recorded, and the folder is empty. -/
theorem faithful_init : Faithful {} where
  names := by simp [Dict.get?]
  texts := by simp [Dict.get?]
  stamps := by simp [Dict.get?]
  linked := by simp
  inHand := by simp [Approvals.inHand]
  delivered := by simp
  owed := by simp [Dict.get?]
  sent := by simp

variable {s t : Approvals}

theorem lower_strip_decisionText (approved : Bool) :
    lower (strip (decisionText approved)) = decisionText approved := by
  cases approved <;> decide +kernel

/-- A text that is not longer than the decision is gone after the decision is written. -/
theorem overwrite_eq {text old : Str} (h : old.length ≤ text.length) :
    overwrite text old = text := by
  rw [overwrite, List.drop_eq_nil_of_le h, List.append_nil]

/-! ## Recording -/

@[simp]
theorem text_truncated (old : Option ApprovalFile) (now : ℕ) : (truncated old now).text = [] := by
  cases old <;> rfl

@[simp]
theorem stamp_truncated (old : Option ApprovalFile) (now : ℕ) :
    (truncated old now).stamp = now := by
  cases old <;> rfl

/-! ### A file that is put in its place -/

section Replaced

variable {hotkey : Str} {replaced : ApprovalFile}

/-- The names of the folder, when a file is put in its place. -/
theorem Faithful.names_set (h : s.Faithful) (hname : wellFormedHotkey hotkey) :
    ∀ key file, Dict.get? (Dict.set s.folder hotkey replaced) key = some file →
      wellFormedHotkey key := by
  intro key file hfile
  rw [Dict.get?_set] at hfile
  split_ifs at hfile with hkey
  · rw [hkey]
    exact hname
  · exact h.names key file hfile

/-- The texts of the folder, when a file is put in its place. -/
theorem Faithful.texts_set (h : s.Faithful) {recorded : List (Str × Bool)}
    (hmore : s.recorded ⊆ recorded) (htext : replaced.text = [] ∨
      ∃ approved, (hotkey, approved) ∈ recorded ∧ replaced.text = decisionText approved) :
    ∀ key file, Dict.get? (Dict.set s.folder hotkey replaced) key = some file →
      file.text = [] ∨ ∃ approved, (key, approved) ∈ recorded ∧
        file.text = decisionText approved := by
  intro key file hfile
  rw [Dict.get?_set] at hfile
  split_ifs at hfile with hkey
  · obtain rfl := Option.some.inj hfile
    exact hkey ▸ htext
  · rcases h.texts key file hfile with hnil | ⟨b, hb, htext⟩
    · exact Or.inl hnil
    · exact Or.inr ⟨b, hmore hb, htext⟩

/-- The stamps of the folder, when a file is put in its place and the clock moves on. -/
theorem Faithful.stamps_set (h : s.Faithful) (hstamp : replaced.stamp = s.clock) :
    ∀ key file, Dict.get? (Dict.set s.folder hotkey replaced) key = some file →
      file.stamp < s.clock + 1 := by
  intro key file hfile
  rw [Dict.get?_set] at hfile
  split_ifs at hfile with hkey
  · obtain rfl := Option.some.inj hfile
    exact hstamp ▸ Nat.lt_succ_self _
  · exact Nat.lt_succ_of_lt (h.stamps key file hfile)

/-- A file that still has the stamp it was read with is not the one that was put in its place, as
the stamp of that one is later. -/
theorem Faithful.delivered_set (h : s.Faithful) (hstamp : replaced.stamp = s.clock)
    {key decision : Str} {stamp : ℕ} {left : List Str}
    (hdrain : s.drain = .settled key decision stamp true left) {file : ApprovalFile}
    (hfile : Dict.get? (Dict.set s.folder hotkey replaced) key = some file)
    (hsame : file.stamp = stamp) : key ≠ hotkey ∧ Dict.get? s.unsent key = none := by
  rw [Dict.get?_set] at hfile
  split_ifs at hfile with hkey
  · have hinHand : (key, decision, stamp) ∈ s.inHand := by simp [Approvals.inHand, hdrain]
    have hlt : stamp < s.clock := (h.inHand _ hinHand).1
    have hnow : replaced.stamp = stamp := by rw [Option.some.inj hfile, hsame]
    omega
  · exact ⟨hkey, h.delivered key decision stamp left hdrain file hfile hsame⟩

end Replaced

/-- Opening the file of a hotkey to record a decision in it keeps the two sides faithful. -/
theorem Faithful.openFile (h : s.Faithful) {hotkey : Str} (hname : wellFormedHotkey hotkey)
    (approved : Bool) : (s.openFile hotkey approved).Faithful where
  names := h.names_set hname
  texts := h.texts_set (List.Subset.refl _) (Or.inl (text_truncated _ _))
  stamps := h.stamps_set (stamp_truncated _ _)
  linked := by
    -- every recorder still has its file, and the new one has the file that was opened
    intro r hr
    simp only [Approvals.openFile, Dict.get?_set] at hr ⊢
    rcases List.mem_append.mp hr with hr | hr
    · obtain ⟨file, hfile, hborn⟩ := h.linked r hr
      split_ifs with hkey
      · -- truncating keeps the file another process has open
        refine ⟨_, rfl, ?_⟩
        rw [hkey] at hfile
        rw [hfile]
        exact hborn
      · exact ⟨file, hfile, hborn⟩
    · obtain rfl := List.mem_singleton.mp hr
      exact ⟨_, if_pos rfl, rfl⟩
  inHand := by
    intro p hp
    obtain ⟨hlt, happroved⟩ := h.inHand p hp
    exact ⟨Nat.lt_succ_of_lt hlt, happroved⟩
  delivered := by
    intro key decision stamp left hdrain file hfile hsame
    exact (h.delivered_set (stamp_truncated _ _) hdrain hfile hsame).2
  owed := by
    intro key b hunsent
    -- what is not sent yet stands in a file, or a recorder is about to write it
    by_cases hkey : key = hotkey
    · exact Or.inr ⟨⟨hotkey, approved, _⟩, List.mem_append_right _ (List.mem_singleton.mpr rfl),
        hkey.symm⟩
    · rcases h.owed key b hunsent with ⟨file, hfile, htext⟩ | ⟨r, hr, hrkey⟩
      · exact Or.inl ⟨file, by simp [Approvals.openFile, hkey, hfile], htext⟩
      · exact Or.inr ⟨r, List.mem_append_left _ hr, hrkey⟩
  sent := h.sent

/-- Where the sides do not disturb each other, a decision that is written is in its file. -/
theorem Faithful.exists_written (h : s.Faithful) {i : ℕ} {r : Recorder}
    (hr : s.recorders[i]? = some r) (hok : s.Undisturbed (.write i)) :
    ∃ file, Dict.get? s.folder r.hotkey = some file ∧ file.born = r.born ∧
      s.written r = Dict.set s.folder r.hotkey
        { file with text := decisionText r.approved, stamp := s.clock } := by
  obtain ⟨file, hfile, hborn⟩ := h.linked r (List.mem_of_getElem? hr)
  refine ⟨file, hfile, hborn, ?_⟩
  rw [written, hfile]
  dsimp only
  rw [if_pos hborn, overwrite_eq (hok r hr file hfile)]

/-- Writing the decision into the file that was opened keeps the two sides faithful. -/
theorem Faithful.write (h : s.Faithful) {i : ℕ} {r : Recorder} (hr : s.recorders[i]? = some r)
    (hok : s.Undisturbed (.write i)) :
    Faithful { s with
      folder := s.written r
      clock := s.clock + 1
      recorders := s.recorders.eraseIdx i
      recorded := (r.hotkey, r.approved) :: s.recorded
      unsent := Dict.set s.unsent r.hotkey r.approved } := by
  -- the file that was opened is still the one under its name
  obtain ⟨old, hold, hborn, hwritten⟩ := h.exists_written hr hok
  rw [hwritten]
  constructor
  case names => exact h.names_set (h.names r.hotkey old hold)
  case texts =>
    exact h.texts_set (List.subset_cons_self _ _) (Or.inr ⟨r.approved, List.mem_cons_self, rfl⟩)
  case stamps => exact h.stamps_set rfl
  case linked =>
    intro other hother
    obtain ⟨file, hfile, hfborn⟩ := h.linked other (List.mem_of_mem_eraseIdx hother)
    rw [Dict.get?_set]
    split_ifs with hkey
    · rw [hkey, hold] at hfile
      exact ⟨_, rfl, (congrArg ApprovalFile.born (Option.some.inj hfile)).trans hfborn⟩
    · exact ⟨file, hfile, hfborn⟩
  case inHand =>
    intro p hp
    obtain ⟨hlt, b, hb, htext⟩ := h.inHand p hp
    exact ⟨Nat.lt_succ_of_lt hlt, b, List.mem_cons_of_mem _ hb, htext⟩
  case delivered =>
    intro key decision stamp left hdrain file hfile hsame
    obtain ⟨hkey, hnone⟩ := h.delivered_set rfl hdrain hfile hsame
    rw [Dict.get?_set, if_neg hkey]
    exact hnone
  case owed =>
    intro key b hunsent
    rw [Dict.get?_set] at hunsent
    split_ifs at hunsent with hkey
    · obtain rfl := Option.some.inj hunsent
      exact Or.inl ⟨_, by rw [Dict.get?_set, if_pos hkey], rfl⟩
    -- another recorder of the same hotkey may still be at work
    · rcases h.owed key b hunsent with ⟨file, hfile, htext⟩ | ⟨other, hother, hokey⟩
      · exact Or.inl ⟨file, by rw [Dict.get?_set, if_neg hkey, hfile], htext⟩
      · refine Or.inr ⟨other, ?_, hokey⟩
        obtain ⟨j, hj⟩ := List.getElem?_of_mem hother
        refine List.mem_eraseIdx_iff_getElem?.mpr ⟨j, ?_, hj⟩
        rintro rfl
        rw [hr] at hj
        exact hkey (hokey ▸ congrArg Recorder.hotkey (Option.some.inj hj).symm)
  case sent => exact fun p hp => List.mem_cons_of_mem _ (h.sent p hp)

/-! ## Draining -/

/-- `_drain` moves on without touching anything. -/
theorem Faithful.moveOn (h : s.Faithful) {drain : Drain}
    (hdrain : drain = .idle ∨ ∃ left, drain = .scanning left) : Faithful { s with drain } := by
  constructor
  case names => exact h.names
  case texts => exact h.texts
  case stamps => exact h.stamps
  case linked => exact h.linked
  case inHand => rcases hdrain with rfl | ⟨left, rfl⟩ <;> simp [Approvals.inHand]
  case delivered => rcases hdrain with rfl | ⟨left, rfl⟩ <;> simp
  case owed => exact h.owed
  case sent => exact h.sent

/-- Reading a file that is not empty. -/
theorem Faithful.read (h : s.Faithful) {name : Str} {file : ApprovalFile}
    (hfile : Dict.get? s.folder name = some file) (hne : file.text ≠ []) (left : List Str) :
    Faithful { s with drain := .sending name (lower (strip file.text)) file.stamp left } := by
  constructor
  case names => exact h.names
  case texts => exact h.texts
  case stamps => exact h.stamps
  case linked => exact h.linked
  case inHand =>
    intro p hp
    obtain rfl := Option.some.inj hp
    rcases h.texts name file hfile with hnil | ⟨b, hb, htext⟩
    · exact absurd hnil hne
    -- what is read is a decision that was recorded
    · refine ⟨h.stamps name file hfile, b, hb, ?_⟩
      show lower (strip file.text) = _
      rw [htext, lower_strip_decisionText]
  case delivered => simp
  case owed => exact h.owed
  case sent => exact h.sent

/-- `_send` returns: what it sent was recorded, and a delivered decision is not owed any more if it
is the last one. -/
theorem Faithful.send (h : s.Faithful) {hotkey decision : Str} {stamp : ℕ} {left : List Str}
    (hdrain : s.drain = .sending hotkey decision stamp left) (outcome : SendOutcome)
    (hst : s.step (.send outcome) = some t) : t.Faithful := by
  obtain ⟨hlt, b, hb, hdecision⟩ := h.inHand (hotkey, decision, stamp) (by
    simp [Approvals.inHand, hdrain])
  simp only [step, hdrain, Option.some.injEq] at hst
  subst hst
  constructor
  case names => exact h.names
  case texts => exact h.texts
  case stamps => exact h.stamps
  case linked => exact h.linked
  case inHand =>
    intro p hp
    obtain rfl := Option.some.inj hp
    exact ⟨hlt, b, hb, hdecision⟩
  case delivered =>
    intro key d st l hsettled file hfile hstamp
    simp only [Drain.settled.injEq] at hsettled
    obtain ⟨rfl, -, rfl, hdelivered, -⟩ := hsettled
    have hlast : decide (outcome = .delivered) = true ∧
        (Dict.get? s.folder hotkey).map ApprovalFile.stamp = some stamp := by
      refine ⟨hdelivered, ?_⟩
      rw [show Dict.get? s.folder hotkey = some file from hfile, Option.map_some, hstamp]
    show Dict.get? (if _ then _ else _) hotkey = none
    rw [if_pos (by simpa using hlast), Dict.get?_pop, if_pos rfl]
  case owed =>
    intro key b' hunsent
    refine h.owed key b' ?_
    dsimp only at hunsent
    split_ifs at hunsent
    · rw [Dict.get?_pop] at hunsent
      split_ifs at hunsent
      exact hunsent
    · exact hunsent
  case sent =>
    intro p hp
    dsimp only at hp
    split_ifs at hp
    · exact h.sent p hp
    · rcases List.mem_cons.mp hp with rfl | hp
      · have hsame : decide (decision = decisionText true) = b := by
          rw [show decision = decisionText b from hdecision]
          cases b <;> decide
        rw [hsame]
        exact hb
      · exact h.sent p hp

/-- Removing a file that nobody has opened since it was read, and whose decision is delivered. -/
theorem Faithful.remove (h : s.Faithful) {hotkey : Str} {left : List Str}
    (hclosed : ∀ r ∈ s.recorders, r.hotkey ≠ hotkey)
    (hunsent : Dict.get? s.unsent hotkey = none) :
    Faithful { s with folder := Dict.pop s.folder hotkey, drain := .scanning left } := by
  have hkept {key : Str} {file : ApprovalFile}
      (hfile : Dict.get? (Dict.pop s.folder hotkey) key = some file) :
      Dict.get? s.folder key = some file := by
    rw [Dict.get?_pop] at hfile
    split_ifs at hfile
    exact hfile
  constructor
  case names => exact fun key file hfile => h.names key file (hkept hfile)
  case texts => exact fun key file hfile => h.texts key file (hkept hfile)
  case stamps => exact fun key file hfile => h.stamps key file (hkept hfile)
  case linked =>
    intro r hr
    obtain ⟨file, hfile, hborn⟩ := h.linked r hr
    exact ⟨file, by rw [Dict.get?_pop, if_neg (hclosed r hr), hfile], hborn⟩
  case inHand => simp [Approvals.inHand]
  case delivered => simp
  case owed =>
    intro key b hkey
    have hne : key ≠ hotkey := by
      rintro rfl
      exact absurd (hunsent.symm.trans hkey) (by simp)
    rcases h.owed key b hkey with ⟨file, hfile, htext⟩ | hrecording
    · exact Or.inl ⟨file, by rw [Dict.get?_pop, if_neg hne, hfile], htext⟩
    · exact Or.inr hrecording
  case sent => exact h.sent

/-- The file that is removed is as it was read, and what was read was sent. -/
theorem Faithful.unlink (h : s.Faithful) {hotkey decision : Str} {stamp : ℕ} {sent : Bool}
    {left : List Str} (hdrain : s.drain = .settled hotkey decision stamp sent left)
    (hok : s.Undisturbed .unlink) :
    Faithful { s with
      folder := if removes sent decision then Dict.pop s.folder hotkey else s.folder
      drain := .scanning left } := by
  obtain ⟨-, b, -, hdecision⟩ := h.inHand (hotkey, decision, stamp) (by
    simp [Approvals.inHand, hdrain])
  cases hremoves : removes sent decision with
  | false => exact h.moveOn (Or.inr ⟨left, rfl⟩)
  | true =>
    obtain ⟨hstamp, hclosed⟩ := hok (hotkey, stamp) (by simp [removing, hdrain, hremoves])
    -- what was read is a decision, so the file is removed because it was sent
    obtain rfl : sent = true := by
      rw [show decision = decisionText b from hdecision] at hremoves
      cases b <;> simpa [removes] using hremoves
    refine h.remove hclosed ?_
    cases hfile : Dict.get? s.folder hotkey with
    | some file =>
      exact h.delivered hotkey decision stamp left hdrain file hfile (hstamp file hfile)
    | none =>
      -- a decision that is owed is in its file
      cases hunsent : Dict.get? s.unsent hotkey with
      | none => rfl
      | some b' =>
        rcases h.owed hotkey b' hunsent with ⟨file, hsome, -⟩ | ⟨r, hr, hkey⟩
        · rw [hfile] at hsome
          cases hsome
        · exact absurd hkey (hclosed r hr)

/-! ## Runs -/

/-- Every step keeps the folder faithful to what was recorded. -/
theorem Faithful.step (h : s.Faithful) {a : ApprovalAction} (hok : s.Undisturbed a)
    (hst : s.step a = some t) : t.Faithful := by
  cases a with
  | start hotkey approved =>
    simp only [Approvals.step, Option.ite_none_right_eq_some, Option.some.injEq] at hst
    exact hst.2 ▸ h.openFile hst.1 approved
  | write i =>
    simp only [Approvals.step] at hst
    split at hst
    · cases hst
    · rename_i r hr
      exact Option.some.inj hst ▸ h.write hr hok
  | list =>
    simp only [Approvals.step] at hst
    split at hst
    · exact Option.some.inj hst ▸ h.moveOn (Or.inr ⟨_, rfl⟩)
    · cases hst
  | read =>
    simp only [Approvals.step] at hst
    split at hst
    case h_2 => cases hst
    case h_1 name left hdrain =>
      split at hst
      · exact Option.some.inj hst ▸ h.moveOn (Or.inr ⟨left, rfl⟩)
      · rename_i file hfile
        -- every file of the folder is named after a hotkey
        rw [if_pos (h.names name file hfile)] at hst
        exact Option.some.inj hst ▸ h.read hfile (hok file (by simp [reads, hdrain, hfile])) left
  | skip =>
    simp only [Approvals.step] at hst
    split at hst
    · exact Option.some.inj hst ▸ h.moveOn (Or.inr ⟨_, rfl⟩)
    · cases hst
  | send outcome =>
    cases hdrain : s.drain with
    | sending hotkey decision stamp left => exact h.send hdrain outcome hst
    | idle => simp [Approvals.step, hdrain] at hst
    | scanning => simp [Approvals.step, hdrain] at hst
    | settled => simp [Approvals.step, hdrain] at hst
  | unlink =>
    simp only [Approvals.step] at hst
    split at hst
    · rename_i hdrain
      exact Option.some.inj hst ▸ h.unlink hdrain hok
    · cases hst
  | stop => exact Option.some.inj hst ▸ h.moveOn (Or.inl rfl)

/-- **Only recorded decisions are sent, and none is swallowed, while nobody is disturbed.** In every
run in which each step meets `Undisturbed`: what is handed to the server as an approval or a denial
was recorded as one, and the last recorded decision for a hotkey, unless it has been delivered, is
in its file or being replaced by the next one. -/
theorem only_recorded_sent {actions : List ApprovalAction} {s : Approvals}
    (hok : Meets step Undisturbed {} actions) (h : exec step {} actions = some s) :
    (∀ hotkey approved, (hotkey, approved) ∈ s.sent → (hotkey, approved) ∈ s.recorded) ∧
      ∀ hotkey approved, Dict.get? s.unsent hotkey = some approved →
        s.Holds hotkey approved ∨ s.Recording hotkey := by
  have hfaithful : s.Faithful :=
    exec_invariant (fun _ _ _ hs hok hst => hs.step hok hst) faithful_init hok h
  exact ⟨fun hotkey approved hsent => hfaithful.sent _ hsent, hfaithful.owed⟩

/-- A hotkey of 48 ones. -/
def sampleHotkey : Str :=
  List.replicate 48 '1'

/-- An approval is recorded, and sent at the second attempt; a denial is recorded after that. -/
def sampleRun : List ApprovalAction :=
  [.start sampleHotkey true, .write 0, .list, .read, .send .failed, .unlink, .stop, .list, .read,
    .send .delivered, .unlink, .stop, .start sampleHotkey false, .write 0]

theorem only_recorded_sent_sample : ∃ s, exec step {} sampleRun = some s ∧
    (sampleHotkey, true) ∈ s.recorded ∧
    (s.Holds sampleHotkey false ∨ s.Recording sampleHotkey) := by
  have hrun : (exec step {} sampleRun).map (fun s => (s.sent, Dict.get? s.unsent sampleHotkey)) =
      some ([(sampleHotkey, true), (sampleHotkey, true)], some false) := by decide +kernel
  obtain ⟨s, hs, hpair⟩ := Option.map_eq_some_iff.mp hrun
  obtain ⟨hsent, hunsent⟩ := Prod.mk.inj hpair
  obtain ⟨hrecorded, howed⟩ := only_recorded_sent (by decide +kernel) hs
  exact ⟨s, hs, hrecorded _ _ (by simp [hsent]), howed _ _ hunsent⟩

/-- The agent reads the file between the two steps of an approval: the empty text counts as a
denial, which is sent, and the approval goes to a file that has been removed. -/
theorem approval_swallowed : ∃ s,
    exec step {} [.start sampleHotkey true, .list, .read, .send .delivered, .unlink, .write 0] =
      some s ∧
    s.recorded = [(sampleHotkey, true)] ∧ s.sent = [(sampleHotkey, false)] ∧
    Dict.get? s.unsent sampleHotkey = some true ∧ s.folder = [] ∧ s.recorders = [] := by
  refine ⟨_, rfl, ?_⟩
  decide +kernel

end Approvals

end ComputePool.Agent
