import ComputePool.Foundations.Durable
import ComputePool.Foundations.FixedPoint
import ComputePool.Foundations.Json
import ComputePool.Validator.Scoring.Reliability

/-!
# The file of the uptime ledger

`UptimeLedger.load`, `save` and `observe` of `validator/scoring/reliability.py`. The validator saves
the ledger now and then, and reads it when it is started. It can be stopped at any moment, also in
the middle of a save, and the file has the uptime of a rig with one decimal only.

The arithmetic is exact here: sums, and the decimals of the file, are not rounded to floats.

* `payload` and `entryOf`: an entry as it is written and read; `entriesOf_save` is the round trip.
* `uptime_within_lifetime`: however often the validator was stopped, a rig has no more uptime than
  the time since it was first seen, and what rounding has added.
-/

namespace ComputePool.Validator.Reliability

open Text Numeral Transition Durable
open Json (Raised field)

/-! ## Entries -/

/-- An entry of the ledger, with the jobs. -/
structure Entry where
  rig : RigReliability
  completedJobs : ℤ := 0
  failedJobs : ℤ := 0
  deriving DecidableEq

/-- `UptimeLedger.rigs`. -/
abbrev Entries := Dict Str Entry

/-- `UptimeLedger.observe`, in exact arithmetic. -/
def observeEntry (entries : Entries) (o : Observation) : Entries :=
  let entry := (entries.get? o.rigId).getD { rig := { firstSeen := o.moment } }
  entries.set o.rigId { entry with rig := entry.rig.observe id o.online o.moment }

/-! ## The file -/

/-- `uptime_days`. -/
def Entry.uptimeDays (entry : Entry) : ℚ :=
  entry.rig.uptimeSeconds / 86400

/-- `multiplier`. -/
def Entry.multiplier (entry : Entry) : ℚ :=
  min 1 (entry.uptimeDays / uptimeRampDays)

/-- `success_rate`. -/
def Entry.successRate (entry : Entry) : ℚ :=
  let total := entry.completedJobs + entry.failedJobs
  if total = 0 then 1 else (entry.completedJobs : ℚ) / total

/-- A float of the file. -/
def number (q : ℚ) : Json :=
  .float (.fin q)

/-- `RigReliability.payload`. -/
def payload (entry : Entry) : Dict Str Json :=
  [("uptime_seconds".toList, number (roundTo 1 entry.rig.uptimeSeconds)),
    ("uptime_days".toList, number (roundTo 3 entry.uptimeDays)),
    ("multiplier".toList, number (roundTo 4 entry.multiplier)),
    ("completed_jobs".toList, .int entry.completedJobs),
    ("failed_jobs".toList, .int entry.failedJobs),
    ("success_rate".toList, number (roundTo 4 entry.successRate)),
    ("first_seen".toList, number entry.rig.firstSeen),
    ("last_seen".toList, number entry.rig.lastSeen),
    ("last_online".toList, .bool entry.rig.lastOnline)]

/-- What `save` writes. -/
def save (entries : Entries) : Json :=
  .dict [("rigs".toList, .dict (entries.map fun e => (e.1, .dict (payload e.2))))]

/-- `float(value)`, where it is finite. -/
def finite (value : Json) : Except Raised ℚ := do
  match ← value.toFloat with
  | .fin q => return q
  | _ => throw .valueError

/-- An entry as `load` reads it, at the moment `now`. -/
def entryOf (now : ℚ) (value : Json) : Except Raised Entry := do
  let uptimeSeconds ← finite (← value.get "uptime_seconds".toList (number 0))
  let completedJobs ← (← value.get "completed_jobs".toList (.int 0)).toInt
  let failedJobs ← (← value.get "failed_jobs".toList (.int 0)).toInt
  let firstSeen ← finite (← value.get "first_seen".toList (number now))
  let lastSeen ← finite (← value.get "last_seen".toList (number 0))
  let lastOnline ← value.get "last_online".toList (.bool false)
  return {
    rig := { uptimeSeconds, firstSeen, lastSeen, lastOnline := lastOnline.truthy }
    completedJobs
    failedJobs }

/-- The loop of `load`. -/
def entriesFrom (now : ℚ) (entries : Entries) : List (Str × Json) → Except Raised Entries
  | [] => .ok entries
  | (rigId, body) :: rest => do
    let entry ← entryOf now body
    entriesFrom now (entries.set rigId entry) rest

/-- `load` of the value of a file. -/
def entriesOf (now : ℚ) (data : Json) : Except Raised Entries := do
  let rigs ← ((← data.get "rigs".toList .null).orElse (.dict [])).items
  entriesFrom now [] rigs

/-- An entry as it comes back. -/
def rounded (entry : Entry) : Entry :=
  { entry with
    rig := { entry.rig with uptimeSeconds := roundTo 1 entry.rig.uptimeSeconds } }

/-- The ledger as it comes back. -/
def roundedAll (entries : Entries) : Entries :=
  entries.map fun e => (e.1, rounded e.2)

/-- An entry is read as it was written. -/
theorem entryOf_payload (now : ℚ) (entry : Entry) :
    entryOf now (.dict (payload entry)) = .ok (rounded entry) := by
  rfl

/-- What is read of a file that was written: every entry, rounded as it was saved. -/
theorem entriesFrom_map (now : ℚ) (entries before : Entries) :
    entriesFrom now before (entries.map fun e => (e.1, Json.dict (payload e.2))) =
      .ok ((roundedAll entries).foldl (fun d e => d.set e.1 e.2) before) := by
  induction entries generalizing before with
  | nil => rfl
  | cons e rest ih =>
    rw [List.map_cons, entriesFrom, entryOf_payload]
    exact ih _

/-- The ledger is read as it was written. -/
theorem entriesOf_save (now : ℚ) {entries : Entries} (h : entries.keys.Nodup) :
    entriesOf now (save entries) = .ok (roundedAll entries) := by
  have hkeys : (roundedAll entries).keys = entries.keys :=
    Dict.keys_map_values entries fun e => rounded e.2
  have hall : (roundedAll entries).foldl (fun d e => Dict.set d e.1 e.2) ([] : Entries) =
      roundedAll entries := Dict.ofItems_of_nodup (hkeys ▸ h)
  rw [← hall, ← entriesFrom_map]
  cases entries with
  | nil => rfl
  | cons e rest => rfl

/-! ## Restarts -/

/-- How the ledger is kept. A file that is not there, or says nothing, leaves it empty. -/
def ledgerFormat (now : ℚ) : Format Entries Json where
  save
  load file := ((file.map (entriesOf now)).bind Except.toOption).getD []

/-- An observation; the clock of the validator has not gone back since the last one of the rig. -/
def Forward (entries : Entries) (o : Observation) : Prop :=
  ∀ entry ∈ entries.get? o.rigId, entry.rig.lastSeen ≤ o.moment

instance (entries : Entries) (o : Observation) : Decidable (Forward entries o) :=
  inferInstanceAs (Decidable (∀ entry ∈ entries.get? o.rigId, entry.rig.lastSeen ≤ o.moment))

/-- The validator with its ledger. -/
abbrev ledgerStep (now : ℚ) :
    Service Entries Json → Event Observation Json → Option (Service Entries Json) :=
  Service.step (ledgerFormat now) fun entries o => some (observeEntry entries o)

/-- No rig has more uptime than the time since it was first seen, and a twentieth of a second for
every time the file was read. -/
structure Credible (reads : ℕ) (entries : Entries) : Prop where
  nodup : entries.keys.Nodup
  uptime : ∀ rigId entry, entries.get? rigId = some entry →
    entry.rig.uptimeSeconds ≤ entry.rig.lastSeen - entry.rig.firstSeen + reads / 20

/-- An observation credits no more than the time since the last one. -/
theorem uptimeSeconds_observe_le {rig : RigReliability} {moment : ℚ} (online : Bool)
    (h : rig.lastSeen ≤ moment) :
    (rig.observe id online moment).uptimeSeconds ≤
      rig.uptimeSeconds + (moment - rig.lastSeen) := by
  rw [RigReliability.observe]
  dsimp only [id]
  split_ifs
  · exact le_rfl
  · linarith

/-- An observation credits no more than the time since the last one. -/
theorem Credible.observe {reads : ℕ} {entries : Entries} (h : Credible reads entries)
    {o : Observation} (hforward : Forward entries o) : Credible reads (observeEntry entries o) := by
  refine ⟨Dict.nodup_keys_set h.nodup _ _, fun rigId entry hentry => ?_⟩
  rw [observeEntry, Dict.get?_set] at hentry
  split_ifs at hentry with hrig
  · obtain rfl := Option.some.inj hentry
    cases hold : entries.get? o.rigId with
    | none =>
      -- a rig that was never seen has no uptime yet
      have hreads : (0 : ℚ) ≤ reads / 20 := by positivity
      simpa [RigReliability.observe] using hreads
    | some old =>
      have huptime := h.uptime o.rigId old hold
      have hobserved := uptimeSeconds_observe_le o.online (hforward old hold)
      rw [Option.getD_some]
      dsimp only [RigReliability.observe] at hobserved ⊢
      linarith
  · exact h.uptime rigId entry hentry

theorem roundTo_one_le (q : ℚ) : roundTo 1 q ≤ q + 1 / 20 := by
  have hround := abs_le.mp (abs_sub_roundEven_le (q * 10 ^ 1))
  rw [roundTo]
  linarith

/-- Saving rounds the uptime, up by a twentieth at most. -/
theorem Credible.rounded {reads : ℕ} {entries : Entries} (h : Credible reads entries) :
    Credible (reads + 1) (roundedAll entries) := by
  refine ⟨?_, fun rigId entry hentry => ?_⟩
  · have hkeys : (roundedAll entries).keys = entries.keys :=
      Dict.keys_map_values entries fun e => Reliability.rounded e.2
    exact hkeys ▸ h.nodup
  · have hget : (roundedAll entries).get? rigId = (entries.get? rigId).map Reliability.rounded :=
      Dict.get?_map_values entries (fun _ entry => Reliability.rounded entry) rigId
    rw [hget] at hentry
    obtain ⟨old, hold, rfl⟩ := Option.map_eq_some_iff.mp hentry
    have huptime := h.uptime rigId old hold
    have hround := roundTo_one_le old.rig.uptimeSeconds
    show roundTo 1 old.rig.uptimeSeconds ≤ _
    push_cast
    dsimp only [Reliability.rounded]
    linarith

/-- What was saved is read back. -/
theorem load_save (now : ℚ) {entries : Entries} (h : entries.keys.Nodup) :
    (ledgerFormat now).load (some ((ledgerFormat now).save entries)) = roundedAll entries := by
  show ((Option.map (entriesOf now) (some (save entries))).bind Except.toOption).getD [] = _
  rw [Option.map_some, entriesOf_save now h]
  rfl

/-- The invariant under the rules of a durable service. -/
theorem kept_credible (now : ℚ) :
    Service.Kept (ledgerFormat now) (fun entries o => some (observeEntry entries o)) Forward
      Credible where
  none _ := ⟨List.nodup_nil, nofun⟩
  some _ entries h := by
    rw [load_save now h.nodup]
    exact h.rounded
  act _ _ _ _ h hforward hact := Option.some.inj hact ▸ h.observe hforward
  mono reads _ h := by
    refine ⟨h.nodup, fun rigId entry hentry => (h.uptime rigId entry hentry).trans ?_⟩
    push_cast
    linarith

/-- **A rig has no more uptime than there was time.** In exact arithmetic, and in every run of
observations, saves and restarts, wherever a save was cut off, with a clock that does not go back:
the uptime of a rig is at most the time between the first and the last observation of it, and a
twentieth of a second for each restart. And a restart reads the ledger of the last save that was
completed, with the uptime of each rig rounded. -/
theorem uptime_within_lifetime {now : ℚ} {events : List (Event Observation Json)}
    {s : Service Entries Json}
    (hforward : Meets (ledgerStep now) (Service.Allows Forward) (Service.start (ledgerFormat now))
      events)
    (h : exec (ledgerStep now) (Service.start (ledgerFormat now)) events = some s) :
    (∀ rigId entry, s.memory.get? rigId = some entry →
      entry.rig.uptimeSeconds ≤
        entry.rig.lastSeen - entry.rig.firstSeen + s.restarts / 20) ∧
      ∀ t, ledgerStep now s .crash = some t → t.memory = roundedAll (s.saved.getD []) := by
  obtain ⟨hmemory, hsaved⟩ := Service.exec_kept (kept_credible now) hforward h
  refine ⟨hmemory.uptime, fun t ht => ?_⟩
  obtain rfl := Option.some.inj ht
  show (ledgerFormat now).load s.file = _
  rw [Service.file_eq_saved h]
  cases hlast : s.saved with
  | none => rfl
  | some entries => exact load_save now (hsaved entries hlast).nodup

/-- A rig answers four times; the ledger is saved after the second one, and the validator stops
while it saves it once more. -/
def stoppedWhileSaving : List (Event Observation Json) :=
  [.act ⟨rigName, true, 1000⟩, .act ⟨rigName, true, 1060⟩, .begin, .finish, .replace,
    .act ⟨rigName, true, 1100⟩, .begin, .write .null, .crash, .act ⟨rigName, true, 1120⟩]

theorem uptime_within_lifetime_stopped : ∃ s : Service Entries Json,
    exec (ledgerStep 0) (Service.start (ledgerFormat 0)) stoppedWhileSaving = some s ∧
      s.restarts = 1 ∧
      ∀ rigId entry, s.memory.get? rigId = some entry →
        entry.rig.uptimeSeconds ≤
          entry.rig.lastSeen - entry.rig.firstSeen + s.restarts / 20 := by
  have hrestarts : (exec (ledgerStep 0) (Service.start (ledgerFormat 0))
      stoppedWhileSaving).map Service.restarts = some 1 := by decide +kernel
  have hforward : Meets (ledgerStep 0) (Service.Allows Forward) (Service.start (ledgerFormat 0))
      stoppedWhileSaving := by decide +kernel
  obtain ⟨s, hs, hone⟩ := Option.map_eq_some_iff.mp hrestarts
  exact ⟨s, hs, hone, (uptime_within_lifetime hforward hs).1⟩

end ComputePool.Validator.Reliability
