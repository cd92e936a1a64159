import Mathlib.Logic.Function.Basic
import ComputePool.Foundations.Json
import ComputePool.Foundations.Transition
import ComputePool.Protocol.Signing

/-!
# The event log

`EventStore` of `agent/store/events.py`: a record is one line of JSON at the end of a file, and a
file that has grown past `max_bytes` is replaced by its last `keep_bytes`, cut at a line. The agent
and the monitor are two processes with a store each on the same file. The lock of a store keeps the
threads of one process apart and not the processes, so between two steps of one `write` (append,
look at the size, read the file, replace it) the other process can take its own.

* `truncate`: what `_truncate` leaves of a file.
* `EventLog.step`: the steps of any number of processes.
* `EventLog.Fresh`: the newest lines, as far as they fit, are at the end of the file.
* `EventLog.fresh_kept`: they stay there as long as no process replaces the file by an older
  reading, or cuts one that is already short.
* `EventLog.write`: a whole call, in a process that is alone with the file.
* `EventLog.write_keeps_newest`: over any number of such calls the file stays small, and made of
  the newest lines.
-/

namespace ComputePool.Agent

open Text Protocol Transition

/-! ## Lines -/

/-- `MAX_FILE_SIZE`. -/
def maxFileSize : ℕ := 50 * 1024 * 1024

/-- `KEEP_TAIL`. -/
def keepTail : ℕ := 25 * 1024 * 1024

/-- A record as it is written, without its newline. -/
structure Record where
  text : Bytes
  oneLine : 10 ∉ text

/-- The line of a record. -/
def Record.line (r : Record) : Bytes :=
  r.text ++ [10]

/-- The record `write` builds: the moment and the kind first, and the other fields over them. -/
def eventOf (ts : Numeral.PyFloat) (kind : Str) (fields : Dict Str Json) : Json :=
  .dict (fields.foldl (fun d e => Dict.set d e.1 e.2)
    [("ts".toList, .float ts), ("kind".toList, .str kind)])

/-- The line `write` appends, given that a printed float has no newline in it. -/
def recordOf (p : Json.Printer) (hp : ∀ x, '\n' ∉ p.floatText x) (ts : Numeral.PyFloat) (kind : Str)
    (fields : Dict Str Json) : Record where
  text := encode (Json.dumps p (eventOf ts kind fields))
  oneLine := newline_not_mem_encode (Json.newline_not_mem_dumps hp _)

/-- `data[-keep:]`; from zero on it is everything. -/
def lastBytes (keep : ℕ) (data : Bytes) : Bytes :=
  if keep = 0 then data else data.drop (data.length - keep)

/-- What `_truncate` leaves of a file: its last bytes, from the first line that starts in them. A
newline at the very end, or none at all, starts no line. -/
def truncate (keep : ℕ) (data : Bytes) : Bytes :=
  let tail := lastBytes keep data
  let cut := tail.idxOf 10
  if cut + 1 < tail.length then tail.drop (cut + 1) else tail

/-! ## Processes -/

/-- Where a process is in `write`. -/
inductive StorePhase
  | idle
  /-- The line is in the file. -/
  | appended
  /-- The file is larger than `max_bytes`. -/
  | full
  /-- `_truncate` has read the file, when `seen` lines had been appended to it. -/
  | truncating (data : Bytes) (seen : ℕ)

/-- How many lines the file had been given when the process read it. -/
def StorePhase.seen : StorePhase → Option ℕ
  | .truncating _ seen => some seen
  | _ => none

/-- The file, the records appended to it so far, oldest first, and where each process is. -/
structure EventLog (ι : Type) where
  content : Bytes
  appended : List Record
  phase : ι → StorePhase

/-- A step of a process. -/
inductive StoreAction (ι : Type)
  | append (i : ι) (r : Record)
  | checkSize (i : ι)
  | read (i : ι)
  /-- The temporary file is written and takes the place of the log. -/
  | replace (i : ι)
  /-- Something raises, and `write` returns. -/
  | giveUp (i : ι)

namespace EventLog

/-- The bytes of records, one line each. -/
def bytesOf (records : List Record) : Bytes :=
  records.flatMap Record.line

section Step

variable {ι : Type} [DecidableEq ι] (maxBytes keepBytes : ℕ)

/-- A log with records in it and no process at work. -/
def init (records : List Record) : EventLog ι where
  content := bytesOf records
  appended := records
  phase := fun _ => .idle

/-- The process goes on to its next phase. -/
def goTo (s : EventLog ι) (i : ι) (phase : StorePhase) : EventLog ι :=
  { s with phase := Function.update s.phase i phase }

/-- One step of `write` in one of the processes. -/
def step (s : EventLog ι) : StoreAction ι → Option (EventLog ι)
  | .append i r =>
    match s.phase i with
    | .idle =>
      some ({ s with
        content := s.content ++ r.line
        appended := s.appended ++ [r] }.goTo i .appended)
    | _ => none
  | .checkSize i =>
    match s.phase i with
    | .appended => some (s.goTo i (if maxBytes < s.content.length then .full else .idle))
    -- the size is not checked before something was appended
    | _ => none
  | .read i =>
    match s.phase i with
    | .full => some (s.goTo i (.truncating s.content s.appended.length))
    | _ => none
  | .replace i =>
    match s.phase i with
    | .truncating data _ => some ({ s with content := truncate keepBytes data }.goTo i .idle)
    | _ => none
  | .giveUp i => some (s.goTo i .idle)

/-- The step does not undo what another process did: the file that is read is still long enough to
be cut, and nothing was appended to a file that is replaced since it was read. -/
def Undisturbed (s : EventLog ι) : StoreAction ι → Prop
  | .read _ => keepBytes ≤ s.content.length
  | .replace i => ∀ seen ∈ (s.phase i).seen, seen = s.appended.length
  | _ => True

instance decidableUndisturbed (s : EventLog ι) :
    (a : StoreAction ι) → Decidable (Undisturbed keepBytes s a)
  | .append .. => isTrue trivial
  | .checkSize _ => isTrue trivial
  | .read _ => inferInstanceAs (Decidable (keepBytes ≤ s.content.length))
  | .replace i => inferInstanceAs (Decidable (∀ seen ∈ (s.phase i).seen, seen = s.appended.length))
  | .giveUp _ => isTrue trivial

end Step

/-! ## Fresh lines -/

/-- A place in the file where a line can start. -/
def AtLine (before : Bytes) : Prop :=
  before = [] ∨ before.getLast? = some 10

/-- The newest records that fit into `keep` bytes are the end of the file, from the start of a line
on. -/
structure Fresh (keep : ℕ) (records : List Record) (content : Bytes) : Prop where
  atEnd : ∀ old new, records = old ++ new → new ≠ [] → (bytesOf new).length < keep →
    ∃ before, content = before ++ bytesOf new ∧ AtLine before
  atLine : AtLine content

@[simp]
theorem bytesOf_append (a b : List Record) : bytesOf (a ++ b) = bytesOf a ++ bytesOf b := by
  simp [bytesOf]

@[simp]
theorem bytesOf_singleton (r : Record) : bytesOf [r] = r.line := by
  simp [bytesOf]

theorem bytesOf_ne_nil {records : List Record} (h : records ≠ []) : bytesOf records ≠ [] := by
  obtain ⟨r, rest, rfl⟩ := List.exists_cons_of_ne_nil h
  simp [bytesOf, Record.line]

/-- Whole lines can be appended to whole lines. -/
theorem AtLine.append {before after : Bytes} (h : AtLine before) (ha : AtLine after) :
    AtLine (before ++ after) := by
  rcases ha with rfl | ha
  · rwa [List.append_nil]
  · exact Or.inr (by rw [List.getLast?_append, ha, Option.some_or])

/-- What is left of text that ends at a line does so, too. -/
theorem AtLine.drop {before : Bytes} (h : AtLine before) (n : ℕ) : AtLine (before.drop n) := by
  rcases h with rfl | h
  · exact Or.inl (List.drop_nil)
  · by_cases hn : n < before.length
    · exact Or.inr (by rw [List.getLast?_drop, if_neg (by omega), h])
    · exact Or.inl (List.drop_eq_nil_of_le (by omega))

theorem atLine_line (r : Record) : AtLine r.line :=
  Or.inr (by simp [Record.line])

/-- A file made of records begins at a line. -/
theorem atLine_bytesOf (records : List Record) : AtLine (bytesOf records) := by
  induction records with
  | nil => exact Or.inl rfl
  | cons r rest ih =>
    have hcons : bytesOf (r :: rest) = r.line ++ bytesOf rest := by simp [bytesOf]
    rw [hcons]
    exact (atLine_line r).append ih

/-- A file that was never truncated is fresh. -/
theorem fresh_bytesOf (keep : ℕ) (records : List Record) :
    Fresh keep records (bytesOf records) where
  atEnd := by
    rintro old new rfl - -
    exact ⟨bytesOf old, bytesOf_append old new, atLine_bytesOf old⟩
  atLine := atLine_bytesOf records

/-- Appending a record keeps the file fresh. -/
theorem Fresh.append {keep : ℕ} {records : List Record} {content : Bytes}
    (h : Fresh keep records content) (r : Record) :
    Fresh keep (records ++ [r]) (content ++ r.line) where
  atEnd := by
    -- the newest line is at the end, and the ones before it were there already
    intro old new hsplit hne hlen
    obtain ⟨init, last, rfl⟩ := (List.eq_nil_or_concat' new).resolve_left hne
    rw [← List.append_assoc] at hsplit
    obtain ⟨hrecords, hlast⟩ := List.append_inj' hsplit rfl
    obtain rfl : r = last := List.singleton_inj.mp hlast
    rw [bytesOf_append, bytesOf_singleton] at hlen ⊢
    by_cases hinit : init = []
    · subst hinit
      exact ⟨content, rfl, h.atLine⟩
    · rw [List.length_append] at hlen
      obtain ⟨before, rfl, hbefore⟩ := h.atEnd old init hrecords hinit (by omega)
      exact ⟨before, List.append_assoc _ _ _, hbefore⟩
  atLine := h.atLine.append (atLine_line r)

/-- Truncation drops bytes at the front. -/
theorem exists_truncate_eq_drop (keep : ℕ) (data : Bytes) :
    ∃ n, truncate keep data = data.drop n := by
  have hlast : ∃ n, lastBytes keep data = data.drop n := by
    unfold lastBytes
    split_ifs
    · exact ⟨0, rfl⟩
    · exact ⟨_, rfl⟩
  obtain ⟨n, hn⟩ := hlast
  unfold truncate
  dsimp only
  split_ifs
  · exact ⟨n + ((lastBytes keep data).idxOf 10 + 1), by rw [hn, List.drop_drop]⟩
  · exact ⟨n, hn⟩

/-- Cutting a file that is long enough keeps the newest lines. -/
theorem Fresh.truncate {keep : ℕ} {records : List Record} {data : Bytes}
    (h : Fresh keep records data) (hkeep : keep ≤ data.length) :
    Fresh keep records (Agent.truncate keep data) where
  atEnd := by
    intro old new hsplit hne hlen
    obtain ⟨before, rfl, hbefore⟩ := h.atEnd old new hsplit hne hlen
    rw [List.length_append] at hkeep
    -- the last bytes start before the lines, so the end of a line comes first
    have hlast : lastBytes keep (before ++ bytesOf new) =
        before.drop (before.length + (bytesOf new).length - keep) ++ bytesOf new := by
      rw [lastBytes, if_neg (by omega), List.length_append,
        List.drop_append_of_le_length (by omega)]
    generalize hstart : before.drop (before.length + (bytesOf new).length - keep) = start at hlast
    have hstartLen : 0 < start.length := by
      rw [← hstart, List.length_drop]
      omega
    have hstartLine : AtLine start := hstart ▸ hbefore.drop _
    have hmem : 10 ∈ start := by
      rcases hstartLine with rfl | hend
      · simp at hstartLen
      · exact List.mem_of_getLast? hend
    have hcut : (start ++ bytesOf new).idxOf 10 = start.idxOf 10 := List.idxOf_append_of_mem hmem
    have hcutLt : start.idxOf 10 < start.length := List.idxOf_lt_length_of_mem hmem
    have hnew : 0 < (bytesOf new).length := List.length_pos_of_ne_nil (bytesOf_ne_nil hne)
    refine ⟨start.drop (start.idxOf 10 + 1), ?_, hstartLine.drop _⟩
    rw [Agent.truncate, hlast, hcut, List.length_append, if_pos (by omega),
      List.drop_append_of_le_length (by omega)]
  atLine := by
    obtain ⟨n, hn⟩ := exists_truncate_eq_drop keep data
    rw [hn]
    exact h.atLine.drop n

/-! ## Runs -/

section Runs

variable {ι : Type} [DecidableEq ι] {maxBytes keepBytes : ℕ} {s t : EventLog ι}

/-- The file is fresh, and so is what a process has read, as long as nothing was appended since. -/
structure Kept (keepBytes : ℕ) (s : EventLog ι) : Prop where
  content : Fresh keepBytes s.appended s.content
  reading : ∀ i data seen, s.phase i = .truncating data seen → seen ≤ s.appended.length ∧
    (seen = s.appended.length → Fresh keepBytes s.appended data ∧ keepBytes ≤ data.length)

omit [DecidableEq ι] in
theorem kept_init (records : List Record) : Kept keepBytes (init records : EventLog ι) :=
  ⟨fresh_bytesOf keepBytes records, by simp [init]⟩

/-- Going on to a phase without a reading. -/
theorem Kept.goTo (h : Kept keepBytes s) (i : ι) {phase : StorePhase}
    (hphase : ∀ data seen, phase ≠ .truncating data seen) : Kept keepBytes (s.goTo i phase) where
  content := h.content
  reading := by
    intro j data seen hj
    by_cases hji : j = i
    · subst hji
      simp only [EventLog.goTo, Function.update_self] at hj
      exact absurd hj (hphase data seen)
    · simp only [EventLog.goTo, Function.update_of_ne hji] at hj
      exact h.reading j data seen hj

omit [DecidableEq ι] in
/-- A record is appended to the file and to the history together. -/
theorem Kept.append (h : Kept keepBytes s) (r : Record) :
    Kept keepBytes { s with content := s.content ++ r.line, appended := s.appended ++ [r] } where
  content := h.content.append r
  reading := by
    intro i data seen hi
    have hseen := (h.reading i data seen hi).1
    simp only [List.length_append, List.length_singleton]
    exact ⟨by omega, fun heq => by omega⟩

/-- A process that reads the file to truncate it has it fresh. -/
theorem Kept.read (h : Kept keepBytes s) (hkeep : keepBytes ≤ s.content.length) (i : ι) :
    Kept keepBytes (s.goTo i (.truncating s.content s.appended.length)) where
  content := h.content
  reading := by
    intro j data seen hj
    by_cases hji : j = i
    · subst hji
      simp only [EventLog.goTo, Function.update_self, StorePhase.truncating.injEq] at hj
      obtain ⟨rfl, rfl⟩ := hj
      exact ⟨le_rfl, fun _ => ⟨h.content, hkeep⟩⟩
    · simp only [EventLog.goTo, Function.update_of_ne hji] at hj
      exact h.reading j data seen hj

omit [DecidableEq ι] in
/-- A file replaced by what was just read is fresh. -/
theorem Kept.replace (h : Kept keepBytes s) {i : ι} {data : Bytes}
    (hi : s.phase i = .truncating data s.appended.length) :
    Kept keepBytes { s with content := truncate keepBytes data } where
  content := by
    obtain ⟨hfresh, hkeep⟩ := (h.reading i data _ hi).2 rfl
    exact hfresh.truncate hkeep
  reading := h.reading

/-- Every undisturbed step keeps the file and what the processes have read of it. -/
theorem Kept.step {a : StoreAction ι} (h : Kept keepBytes s) (hok : Undisturbed keepBytes s a)
    (hst : step maxBytes keepBytes s a = some t) : Kept keepBytes t := by
  -- each phase allows one action, and only the replacement may lose a line
  cases a with
  | append i r =>
    simp only [EventLog.step] at hst
    split at hst
    · exact Option.some.inj hst ▸ (h.append r).goTo i (by simp)
    · cases hst
  | checkSize i =>
    simp only [EventLog.step] at hst
    split at hst
    · refine Option.some.inj hst ▸ h.goTo i fun data seen => ?_
      split_ifs <;> simp
    · cases hst
  | read i =>
    simp only [EventLog.step] at hst
    split at hst
    · exact Option.some.inj hst ▸ h.read hok i
    · cases hst
  | replace i =>
    simp only [EventLog.step] at hst
    split at hst
    -- nothing was appended since the file was read
    · rename_i data seen hi
      obtain rfl := hok seen (by simp [hi, StorePhase.seen])
      exact Option.some.inj hst ▸ (h.replace hi).goTo i (by simp)
    · cases hst
  | giveUp i => exact Option.some.inj hst ▸ h.goTo i (by simp)

/-- **The log loses nothing fresh, while readings are up to date.** In every run of any number of
processes in which no file is replaced that was appended to since it was read, and none is cut that
is shorter than `keepBytes`: a record is in the file as a whole line unless at least `keepBytes`
minus its line of newer data were appended after it. -/
theorem fresh_kept {records : List Record} {actions : List (StoreAction ι)} {s : EventLog ι}
    (hok : Meets (step maxBytes keepBytes) (Undisturbed keepBytes) (init records) actions)
    (h : exec (step maxBytes keepBytes) (init records) actions = some s)
    {older newer : List Record} {r : Record} (hr : s.appended = older ++ r :: newer) :
    (∃ before after, s.content = before ++ r.line ++ after ∧ AtLine before) ∨
      keepBytes - r.line.length ≤ (bytesOf newer).length := by
  have hkept : Kept keepBytes s :=
    exec_invariant (fun _ _ _ hs hok hst => hs.step hok hst) (kept_init records) hok h
  by_cases hlen : keepBytes - r.line.length ≤ (bytesOf newer).length
  · exact Or.inr hlen
  -- with fewer bytes after it than the tail keeps, the line is in the tail
  · have hcons : bytesOf (r :: newer) = r.line ++ bytesOf newer := by simp [bytesOf]
    have hfits : (bytesOf (r :: newer)).length < keepBytes := by
      rw [hcons, List.length_append]
      omega
    obtain ⟨before, hbefore, hline⟩ := hkept.content.atEnd older (r :: newer) hr (by simp) hfits
    exact Or.inl ⟨before, bytesOf newer, by rw [hbefore, hcons, List.append_assoc], hline⟩

end Runs

/-! ## A line that is lost -/

/-- Truncation brings the file down to what it keeps. -/
theorem length_truncate_le {keep : ℕ} (hkeep : 0 < keep) (data : Bytes) :
    (truncate keep data).length ≤ keep := by
  have hlast : (lastBytes keep data).length ≤ keep := by
    rw [lastBytes, if_neg (by omega), List.length_drop]
    omega
  unfold truncate
  dsimp only
  split_ifs
  · rw [List.length_drop]
    omega
  · exact hlast

/-- The agent (`false`) fills the file and reads it, the monitor (`true`) appends a line, and the
agent replaces the file by what it has read. -/
def overtaken (r late : Record) : List (StoreAction Bool) :=
  [.append false r, .checkSize false, .read false, .append true late, .replace false,
    .checkSize true]

/-- The run in which a record is appended between the read and the replacement. -/
theorem exec_overtaken {maxBytes keepBytes : ℕ} {records : List Record} {r late : Record}
    (hfull : maxBytes < (bytesOf (records ++ [r])).length) (hkeep : 0 < keepBytes)
    (hle : keepBytes ≤ maxBytes) :
    exec (step maxBytes keepBytes) (init records) (overtaken r late) =
      some { content := truncate keepBytes (bytesOf (records ++ [r]))
             appended := records ++ [r] ++ [late]
             phase := fun _ => .idle } := by
  -- the late writer finds the file below its bound again
  have hshort : ¬ maxBytes < (truncate keepBytes (bytesOf (records ++ [r]))).length :=
    not_lt.mpr ((length_truncate_le hkeep _).trans hle)
  rw [bytesOf_append, bytesOf_singleton] at hfull hshort ⊢
  simp only [overtaken, exec, step, init, goTo, Function.update_self, Function.update_of_ne,
    Option.bind_some, hfull, hshort, if_true, if_false, ne_eq, Bool.true_eq_false,
    Bool.false_eq_true, not_false_eq_true]
  congr 2
  funext i
  cases i <;> rfl

/-- A record of `length` times the letter x. -/
def filler (length : ℕ) : Record where
  text := List.replicate length 120
  oneLine := by simp [List.mem_replicate]

/-- A record that is the letter b. -/
def lateRecord : Record where
  text := [98]
  oneLine := by decide

/-- A file of 51,200 lines of a kilobyte each: exactly `MAX_FILE_SIZE`. -/
def fullFile : List Record :=
  List.replicate 51200 (filler 1023)

theorem length_bytesOf_replicate (n : ℕ) (r : Record) :
    (bytesOf (List.replicate n r)).length = n * r.line.length := by
  rw [bytesOf, List.length_flatMap, List.map_replicate, List.sum_replicate, Nat.nsmul_eq_mul]

theorem length_line_filler (length : ℕ) : (filler length).line.length = length + 1 := by
  simp [Record.line, filler]

theorem not_mem_line_filler (length : ℕ) : 98 ∉ (filler length).line := by
  simp [Record.line, filler, List.mem_replicate]

/-- The full file is without the letter that marks the late record. -/
theorem not_mem_bytesOf_fullFile : 98 ∉ bytesOf (fullFile ++ [filler 1023]) := by
  intro hmem
  obtain ⟨r, hr, hbyte⟩ := List.mem_flatMap.mp hmem
  have hfiller : r = filler 1023 := by
    rcases List.mem_append.mp hr with hr | hr
    · exact List.eq_of_mem_replicate hr
    · exact List.mem_singleton.mp hr
  exact not_mem_line_filler 1023 (hfiller ▸ hbyte)

/-- What is left of a file without the letter b has no line of it. -/
theorem not_line_of_not_mem (keep : ℕ) {data : Bytes} (h : 98 ∉ data) (before after : Bytes) :
    truncate keep data ≠ before ++ lateRecord.line ++ after := by
  intro heq
  obtain ⟨n, hn⟩ := exists_truncate_eq_drop keep data
  refine h (List.mem_of_mem_drop (i := n) ?_)
  rw [← hn, heq]
  simp [Record.line, lateRecord]

/-- The monitor's line, and nothing after it, is appended to a full file while the agent truncates
it. Both calls of `write` return, and the line is not in the file. -/
theorem late_line_lost :
    ∃ s : EventLog Bool,
      exec (step maxFileSize keepTail) (init fullFile) (overtaken (filler 1023) lateRecord) =
        some s ∧
      s.appended = (fullFile ++ [filler 1023]) ++ lateRecord :: [] ∧
      (∀ i, s.phase i = .idle) ∧
      ¬ (∃ before after, s.content = before ++ lateRecord.line ++ after ∧ AtLine before) ∧
      ¬ keepTail - lateRecord.line.length ≤ (bytesOf []).length := by
  -- the file is just over its bound
  have hfull : maxFileSize < (bytesOf (fullFile ++ [filler 1023])).length := by
    rw [bytesOf_append, bytesOf_singleton, List.length_append, fullFile, length_bytesOf_replicate,
      length_line_filler]
    decide
  refine ⟨_, exec_overtaken hfull (by decide) (by decide), rfl, fun _ => rfl, ?_, by decide⟩
  rintro ⟨before, after, hcontent, -⟩
  dsimp only at hcontent
  have hlost := not_line_of_not_mem keepTail not_mem_bytesOf_fullFile before after
  exact hlost hcontent

/-- The agent fills the file and cuts it, and the monitor appends its line after that. -/
def inTurn (r late : Record) : List (StoreAction Bool) :=
  [.append false r, .checkSize false, .read false, .replace false, .append true late]

theorem fresh_kept_inTurn : ∃ s : EventLog Bool,
    exec (step 4 3) (init [filler 1]) (inTurn (filler 2) lateRecord) = some s ∧
    ((∃ before after, s.content = before ++ lateRecord.line ++ after ∧ AtLine before) ∨
      3 - lateRecord.line.length ≤ (bytesOf []).length) := by
  have hsome : (exec (step 4 3) (init [filler 1] : EventLog Bool)
      (inTurn (filler 2) lateRecord)).isSome := by decide
  obtain ⟨s, hs⟩ := Option.isSome_iff_exists.mp hsome
  have happended : s.appended = [filler 1, filler 2] ++ lateRecord :: [] := by
    obtain rfl := Option.some.inj (hs.symm.trans rfl)
    rfl
  exact ⟨s, hs, fresh_kept (by decide) hs happended⟩

/-! ## One store -/

section OneStore

/-- `write` of a store that is alone with its file: the line is appended, and a file larger than
`max_bytes` is cut. -/
def write (maxBytes keepBytes : ℕ) (content : Bytes) (r : Record) : Bytes :=
  let content := content ++ r.line
  if maxBytes < content.length then truncate keepBytes content else content

/-- The file after a number of calls of `write`. -/
def writes (maxBytes keepBytes : ℕ) (content : Bytes) (records : List Record) : Bytes :=
  records.foldl (write maxBytes keepBytes) content

variable {maxBytes keepBytes : ℕ}

theorem writes_concat (content : Bytes) (records : List Record) (r : Record) :
    writes maxBytes keepBytes content (records ++ [r]) =
      write maxBytes keepBytes (writes maxBytes keepBytes content records) r := by
  rw [writes, List.foldl_concat, ← writes]

/-- A cut inside the lines of records, moved behind the next newline, is between two of them. -/
theorem exists_drop_idxOf_eq_bytesOf {records : List Record} :
    ∀ {n : ℕ}, n < (bytesOf records).length →
      ∃ kept, kept <:+ records ∧
        ((bytesOf records).drop n).drop (((bytesOf records).drop n).idxOf 10 + 1) =
          bytesOf kept := by
  induction records with
  | nil => simp [bytesOf]
  | cons r rest ih =>
    intro n hn
    have hcons : bytesOf (r :: rest) = r.line ++ bytesOf rest := by simp [bytesOf]
    rw [hcons, List.length_append] at hn
    rw [hcons]
    by_cases hline : n < r.line.length
    · -- the cut is in the first line: its newline is the next one, and the other lines stay
      have hlen : r.line.length = r.text.length + 1 := by simp [Record.line]
      have hdrop : (r.line ++ bytesOf rest).drop n = r.text.drop n ++ ([10] ++ bytesOf rest) := by
        rw [Record.line, List.append_assoc, List.drop_append_of_le_length (by omega)]
      have hmem : 10 ∉ r.text.drop n := fun h => r.oneLine (List.mem_of_mem_drop h)
      have hidx : (r.text.drop n ++ ([10] ++ bytesOf rest)).idxOf 10 = (r.text.drop n).length := by
        rw [List.idxOf_append_of_notMem hmem]
        simp
      refine ⟨rest, List.suffix_cons r rest, ?_⟩
      rw [hdrop, hidx, ← List.append_assoc, List.drop_left' (by simp)]
    · -- the cut is behind the first line
      obtain ⟨kept, hkept, heq⟩ := ih (n := n - r.line.length) (by omega)
      have hdrop : (r.line ++ bytesOf rest).drop n = (bytesOf rest).drop (n - r.line.length) := by
        rw [List.drop_append, List.drop_eq_nil_of_le (by omega), List.nil_append]
      exact ⟨kept, hkept.trans (List.suffix_cons r rest), by rw [hdrop, heq]⟩

/-- A file of whole lines that is longer than its last bytes keeps whole lines, and the last line
when it is shorter than they are. -/
theorem exists_truncate_eq_bytesOf {records : List Record} {r : Record}
    (hlong : keepBytes < (bytesOf records ++ r.line).length) (hline : r.line.length < keepBytes) :
    ∃ kept, kept <:+ records ∧
      truncate keepBytes (bytesOf records ++ r.line) = bytesOf (kept ++ [r]) := by
  rw [List.length_append] at hlong
  have hstart :
      (bytesOf records).length + r.line.length - keepBytes < (bytesOf records).length := by
    omega
  obtain ⟨kept, hkept, heq⟩ := exists_drop_idxOf_eq_bytesOf hstart
  have hlast : lastBytes keepBytes (bytesOf records ++ r.line) =
      (bytesOf records).drop ((bytesOf records).length + r.line.length - keepBytes) ++ r.line := by
    rw [lastBytes, if_neg (by omega), List.length_append,
      List.drop_append_of_le_length (by omega)]
  generalize hstart : (bytesOf records).drop
    ((bytesOf records).length + r.line.length - keepBytes) = start at hlast heq
  -- at least one byte before the last line is kept, so there is a newline before it
  have hmem : 10 ∈ start := by
    have hpos : 0 < start.length := by
      rw [← hstart, List.length_drop]
      omega
    have hend : AtLine start := hstart ▸ (atLine_bytesOf records).drop _
    rcases hend with rfl | hend
    · simp at hpos
    · exact List.mem_of_getLast? hend
  have hcut : start.idxOf 10 < start.length := List.idxOf_lt_length_of_mem hmem
  have hpos : 0 < r.line.length := by simp [Record.line]
  refine ⟨kept, hkept, ?_⟩
  rw [truncate, hlast, List.idxOf_append_of_mem hmem, List.length_append, if_pos (by omega),
    List.drop_append_of_le_length (by omega), heq, bytesOf_append, bytesOf_singleton]

/-- One call of `write` on a file of whole lines. -/
theorem exists_write_eq_bytesOf (hkeep : 0 < keepBytes) (hmax : keepBytes < maxBytes)
    (records : List Record) {r : Record} (hline : r.line.length < keepBytes) :
    ∃ kept, kept <:+ records ∧
      write maxBytes keepBytes (bytesOf records) r = bytesOf (kept ++ [r]) ∧
      (bytesOf (kept ++ [r])).length ≤ maxBytes := by
  unfold write
  dsimp only
  split_ifs with hfull
  · obtain ⟨kept, hkept, heq⟩ := exists_truncate_eq_bytesOf (hmax.trans hfull) hline
    have hlen : (truncate keepBytes (bytesOf records ++ r.line)).length ≤ keepBytes :=
      length_truncate_le hkeep _
    exact ⟨kept, hkept, heq, by rw [← heq]; omega⟩
  · refine ⟨records, List.suffix_rfl, by simp, ?_⟩
    rw [bytesOf_append, bytesOf_singleton]
    exact not_lt.mp hfull

/-- After any number of calls the file still consists of the newest lines. -/
theorem exists_writes_eq_bytesOf (hkeep : 0 < keepBytes) (hmax : keepBytes < maxBytes)
    (earlier : List Record) {records : List Record}
    (hlines : ∀ r ∈ records, r.line.length < keepBytes) :
    ∃ kept, kept <:+ earlier ++ records ∧
      writes maxBytes keepBytes (bytesOf earlier) records = bytesOf kept := by
  induction records using List.reverseRecOn with
  | nil => exact ⟨earlier, by simp, rfl⟩
  | append_singleton records r ih =>
    obtain ⟨kept, hkept, heq⟩ := ih fun q hq => hlines q (List.mem_append_left _ hq)
    obtain ⟨kept', hkept', hwrite, -⟩ :=
      exists_write_eq_bytesOf hkeep hmax kept (hlines r (by simp))
    refine ⟨kept' ++ [r], ?_, by rw [writes_concat, heq, hwrite]⟩
    rw [← List.append_assoc]
    exact List.suffix_append_inj_of_length_eq rfl |>.mpr ⟨hkept'.trans hkept, rfl⟩

/-- **Truncation keeps whole, newest lines.** A store alone with its file, which held whole lines
or nothing at first, writes any number of records, each with a line shorter than `keepBytes`. After
every call the file is at most `maxBytes` long, and it is made of the lines of the newest records,
the one just written at its end. -/
theorem write_keeps_newest (hkeep : 0 < keepBytes) (hmax : keepBytes < maxBytes)
    (earlier records : List Record) (r : Record)
    (hlines : ∀ q ∈ records ++ [r], q.line.length < keepBytes) :
    ∃ kept, kept ++ [r] <:+ earlier ++ records ++ [r] ∧
      writes maxBytes keepBytes (bytesOf earlier) (records ++ [r]) = bytesOf (kept ++ [r]) ∧
      (writes maxBytes keepBytes (bytesOf earlier) (records ++ [r])).length ≤ maxBytes := by
  obtain ⟨before, hbefore, heq⟩ := exists_writes_eq_bytesOf hkeep hmax earlier
    fun q hq => hlines q (List.mem_append_left _ hq)
  obtain ⟨kept, hkept, hwrite, hlen⟩ :=
    exists_write_eq_bytesOf hkeep hmax before (hlines r (by simp))
  have hfile : writes maxBytes keepBytes (bytesOf earlier) (records ++ [r]) =
      bytesOf (kept ++ [r]) := by
    rw [writes_concat, heq, hwrite]
  refine ⟨kept, ?_, hfile, hfile ▸ hlen⟩
  exact (List.suffix_append_inj_of_length_eq rfl).mpr ⟨hkept.trans hbefore, rfl⟩

/-- Three lines of three bytes each, of which five bytes are kept once nine are too many: the cut
falls into the second line, and the third is all that stays. -/
theorem write_keeps_newest_three :
    (filler 2).line.length < 5 ∧
    ∃ kept, kept ++ [filler 2] <:+ [] ++ [filler 2, filler 2] ++ [filler 2] ∧
      writes 8 5 (bytesOf []) ([filler 2, filler 2] ++ [filler 2]) = bytesOf (kept ++ [filler 2]) ∧
      (writes 8 5 (bytesOf []) ([filler 2, filler 2] ++ [filler 2])).length ≤ 8 :=
  ⟨by decide, write_keeps_newest (by decide) (by decide) [] _ _ (by decide)⟩

end OneStore

end EventLog

end ComputePool.Agent
