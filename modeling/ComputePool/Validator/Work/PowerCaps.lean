import ComputePool.Foundations.Transition
import ComputePool.Validator.Session.Host

/-!
# Power caps over whole histories

The calls of `apply_caps` and `restore_job` by any number of jobs, one after another, on one rig. A
call may be cut off while it waits: the records are on disk, and later calls go on from what it
left.

* `Accounted` is the invariant: a card without an entry has the limit it started with, and an entry
  holds that limit. Every command of every call keeps it (`wp_applyCaps`, `wp_restoreJob`).
* `no_capped_card_forgotten` is the result over histories.
-/

namespace ComputePool.Validator

open Text Numeral

/-- The records account for every card: `start` are the limits before the first cap. -/
def Accounted (start : Str → ℤ) (records : PowerRecords) (h : Host) : Prop :=
  ∀ uuid, (records.gpus.get? uuid = none → h.limit uuid = start uuid) ∧
    ∀ watts, records.gpus.get? uuid = some watts → watts = .fin (start uuid)

/-! ## Changes of the records -/

namespace PowerRecords

variable (records : PowerRecords) (uuid jobId : Str)

/-- The first limit that is remembered stays. -/
theorem get?_gpus_rememberOriginal (watts : PyFloat) (card : Str) :
    (records.rememberOriginal uuid watts jobId).gpus.get? card =
      if card = uuid then some ((records.gpus.get? uuid).getD watts)
      else records.gpus.get? card := by
  rw [rememberOriginal]
  by_cases hmem : uuid ∈ records.gpus.keys
  · rw [if_pos hmem]
    by_cases hcard : card = uuid
    · cases hget : records.gpus.get? uuid with
      | none => exact absurd hmem (Dict.get?_eq_none_iff.mp hget)
      | some w => simp [hcard, hget]
    · simp [hcard]
  · rw [if_neg hmem, Dict.get?_set, Dict.get?_eq_none_iff.mpr hmem]
    rfl

theorem get?_gpus_forget (card : Str) :
    (records.forget uuid jobId).gpus.get? card =
      if card = uuid then none else records.gpus.get? card :=
  Dict.get?_pop _ _ _

end PowerRecords

/-! ## One call -/

section Call

variable {start : Str → ℤ} {records : PowerRecords} {h h' : Host} {uuid jobId : Str}

/-- The account speaks of limits only. -/
theorem Accounted.congr_limit (ha : Accounted start records h) (hlimit : h'.limit = h.limit) :
    Accounted start records h' := by
  intro card
  rw [hlimit]
  exact ha card

/-- The limit of a card with an entry may change. -/
theorem Accounted.update (ha : Accounted start records h)
    (hentry : records.gpus.get? uuid ≠ none) {watts : ℤ}
    (hlimit : h'.limit = Function.update h.limit uuid watts) : Accounted start records h' := by
  intro card
  refine ⟨fun hnone => ?_, (ha card).2⟩
  have hcard : card ≠ uuid := fun heq => hentry (heq ▸ hnone)
  rw [hlimit, Function.update_of_ne hcard]
  exact (ha card).1 hnone

/-- An entry may go once the card is back at its limit. -/
theorem Accounted.forget (ha : Accounted start records h) (hlimit : h.limit uuid = start uuid) :
    Accounted start (records.forget uuid jobId) h := by
  intro card
  rw [PowerRecords.get?_gpus_forget]
  by_cases hcard : card = uuid
  · subst hcard
    simp [hlimit]
  · simpa [hcard] using ha card

/-- A new entry holds the limit of a card that had none. -/
theorem Accounted.rememberOriginal (ha : Accounted start records h) {limitW : PyFloat}
    (hlimit : limitW = .fin (h.limit uuid)) :
    Accounted start (records.rememberOriginal uuid (orLimit (records.original uuid) limitW) jobId)
      h := by
  intro card
  rw [PowerRecords.get?_gpus_rememberOriginal]
  by_cases hcard : card = uuid
  · subst hcard
    refine ⟨by simp, fun watts hwatts => ?_⟩
    rw [if_pos rfl, Option.some.injEq] at hwatts
    rw [← hwatts, PowerRecords.original]
    cases hget : records.gpus.get? card with
    | none => rw [Option.getD_none, orLimit, hlimit, (ha card).1 hget]
    | some entry => exact (ha card).2 entry hget
  · simpa [hcard] using ha card

/-- How a call of `set_limit` may change the limits. -/
def LimitStep (h h' : Host) (uuid : Str) (watts : PyFloat) : Prop :=
  h'.limit = h.limit ∨
    ∃ q, watts = .fin q ∧ h'.limit = Function.update h.limit uuid (PyFloat.roundEven q)

/-- `read_state` changes nothing, and what it reads is so. -/
theorem wp_readState {σ : Type} {I : σ → Host → Prop} {Q : Option PowerState → σ → Host → Prop}
    {s : σ} (hwait : I s h) (hnone : Q none s h)
    (hsome : ∀ state, state.limitW = .fin (h.limit uuid) → Q (some state) s h) :
    Program.wp Host.exec I (readState uuid) Q s h := by
  simp only [readState, Program.wp_bind, Program.wp_send, Program.wp_pure]
  refine ⟨hwait, fun o r h' hexec => ?_⟩
  obtain ⟨rfl, htrue⟩ := Host.exec_queryPower hexec
  by_cases hok : r.ok
  · rw [if_pos hok]
    cases hparse : parsePowerState r.stdout with
    | none => exact hnone
    | some state => exact hsome state (htrue state hok hparse)
  · rw [if_neg hok]
    exact hnone

/-- `set_limit` changes the limit of its card or nothing, and a state it returns means the
limit is set. -/
theorem wp_setLimit {σ : Type} {I : σ → Host → Prop}
    {Q : Except Exn (Option PowerState) → σ → Host → Prop} {s : σ} {watts : PyFloat}
    (hwait : ∀ h', LimitStep h h' uuid watts → I s h')
    (hfail : ∀ r h', (∀ state, r ≠ .ok (some state)) → LimitStep h h' uuid watts → Q r s h')
    (hdone : ∀ state h' q, watts = .fin q →
      h'.limit = Function.update h.limit uuid (PyFloat.roundEven q) → Q (.ok (some state)) s h') :
    Program.wp Host.exec I (setLimit uuid watts).run Q s h := by
  simp only [setLimit, Program.wp_run_bind, Raising.wp_send, Program.handOn_ok]
  refine ⟨hwait h (.inl rfl), fun o r h₁ hexec => ?_⟩
  have h₁limit : h₁.limit = h.limit := Host.exec_limit (by simp) hexec
  -- a number of watts that is none is never sent
  cases watts with
  | inf negative => exact hfail _ h₁ (by simp) (.inl h₁limit)
  | nan => exact hfail _ h₁ (by simp) (.inl h₁limit)
  | fin q =>
    simp only [wholeWatts, Program.wp_run_pure, Program.handOn_ok, Program.wp_run_bind,
      Raising.wp_send]
    refine ⟨hwait h₁ (.inl h₁limit), fun o' r' h₂ hexec' => ?_⟩
    have h₂limit := Host.exec_setPower hexec'
    rw [h₁limit] at h₂limit
    -- the command changed the limit, or it failed and changed nothing
    by_cases hok : r'.ok
    · rw [if_pos hok] at h₂limit
      rw [if_neg (by simp [hok]), Program.wp_run_bind, Raising.wp_await]
      refine wp_readState (hwait h₂ (.inr ⟨q, rfl, h₂limit⟩))
        (hfail (.ok none) h₂ (by simp) (.inr ⟨q, rfl, h₂limit⟩)) fun state _ => ?_
      rw [Program.handOn_ok]
      dsimp only
      rw [Program.wp_run_pure]
      split_ifs
      · exact hfail (.ok none) h₂ (by simp) (.inr ⟨q, rfl, h₂limit⟩)
      · exact hdone state h₂ q rfl h₂limit
    · rw [if_neg hok] at h₂limit
      rw [if_pos (by simp [hok])]
      exact hfail (.ok none) h₂ (by simp) (.inl h₂limit)

/-- Every command of the loop of `restore_job` keeps the records accounting for every card. -/
theorem wp_restoreCards {uuids restored : List Str} (ha : Accounted start records h) :
    Program.wp Host.exec (Accounted start) (restoreCards jobId uuids restored).run
      (fun _ => Accounted start) records h := by
  induction uuids generalizing restored records h with
  | nil => exact ha
  | cons uuid uuids ih =>
    simp only [restoreCards, Program.wp_run_bind, Raising.wp_read, Program.handOn_ok]
    cases hget : records.original uuid with
    -- a card without a record is at its limit of the start
    | none =>
      simp only [Program.wp_run_bind, Raising.wp_modify, Program.handOn_ok]
      exact ih (ha.forget ((ha uuid).1 hget))
    | some watts =>
      simp only [Program.wp_run_bind]
      obtain rfl : watts = .fin (start uuid) := (ha uuid).2 watts hget
      have hentry : records.gpus.get? uuid ≠ none := by
        rw [PowerRecords.original] at hget
        simp [hget]
      -- whatever `setLimit` does to the card, the record is still true of it
      have hstep : ∀ h', LimitStep h h' uuid (.fin (start uuid)) → Accounted start records h' := by
        rintro h' (hlimit | ⟨q, -, hlimit⟩)
        · exact ha.congr_limit hlimit
        · exact ha.update hentry hlimit
      refine wp_setLimit hstep (fun r h' hr hlimit => ?_) fun state h' q hq hlimit => ?_
      · cases r with
        | error e => exact hstep h' hlimit
        | ok state =>
          cases state with
          | none => exact ih (hstep h' hlimit)
          | some state => exact absurd rfl (hr state)
      · -- the card reads back at its limit, so its entry may go
        simp only [Program.handOn_ok, Program.wp_run_bind, Raising.wp_modify]
        obtain rfl := PyFloat.fin.inj hq
        refine ih ((ha.update hentry hlimit).forget ?_)
        rw [hlimit, Function.update_self, PyFloat.roundEven_intCast]

/-- Restoring a job keeps the account, whatever fails. -/
theorem wp_restoreJob (ha : Accounted start records h) :
    Program.wp Host.exec (Accounted start) (restoreJob jobId).run (fun _ => Accounted start)
      records h := by
  simp only [restoreJob, Program.wp_run_bind, Raising.wp_read, Program.handOn_ok]
  exact wp_restoreCards ha

/-- So does every command of `apply_caps`, the ones of the restore that a failure triggers
included. -/
theorem wp_applyCards {caps : List (Str × PyFloat)} (ha : Accounted start records h) :
    Program.wp Host.exec (Accounted start) (applyCards jobId caps).run (fun _ => Accounted start)
      records h := by
  induction caps generalizing records h with
  | nil => exact ha
  | cons cap caps ih =>
    obtain ⟨uuid, requested⟩ := cap
    simp only [applyCards, Program.wp_run_bind, Raising.wp_await]
    -- a call that gives up puts back what it has set
    have hundo {records : PowerRecords} {h : Host} (ha : Accounted start records h)
        (reply : Bool × Str) : Program.wp Host.exec (Accounted start)
          (do let _ ← restoreJob jobId; pure reply : Raising PowerRecords (Bool × Str)).run
          (fun _ => Accounted start) records h := by
      rw [Program.wp_run_bind]
      refine Program.wp_mono (wp_restoreJob ha) fun r records' h' ha' => ?_
      cases r with
      | ok restored => exact ha'
      | error e => exact ha'
    refine wp_readState ha ?_ fun state hstate => ?_
    · exact hundo ha _
    · simp only [Program.handOn_ok, Program.wp_run_bind, Raising.wp_modify]
      have ha' := @Accounted.rememberOriginal start records h uuid jobId ha state.limitW hstate
      have hentry : (records.rememberOriginal uuid
          (orLimit (records.original uuid) state.limitW) jobId).gpus.get? uuid ≠ none := by
        simp [PowerRecords.get?_gpus_rememberOriginal]
      have hstep : ∀ h', LimitStep h h' uuid ((requested.max state.minW).min state.maxW) →
          Accounted start (records.rememberOriginal uuid
            (orLimit (records.original uuid) state.limitW) jobId) h' := by
        rintro h' (hlimit | ⟨q, -, hlimit⟩)
        · exact ha'.congr_limit hlimit
        · exact ha'.update hentry hlimit
      refine wp_setLimit hstep (fun r h' hr hlimit => ?_) fun state' h' q hq hlimit => ?_
      · cases r with
        | error e => exact hstep h' hlimit
        | ok reply =>
          cases reply with
          | none => exact hundo (hstep h' hlimit) _
          | some state' => exact absurd rfl (hr state')
      · exact ih (ha'.update hentry hlimit)

end Call

/-! ## Histories -/

/-- A call about the caps of a job. -/
inductive PowerCall
  | apply (jobId : Str) (caps : Dict Str PyFloat)
  | restore (jobId : Str)
  deriving DecidableEq, Repr

/-- The coroutine of a call. -/
def PowerCall.task : PowerCall → Raising PowerRecords (Bool × Str)
  | .apply jobId caps => applyCaps jobId caps
  | .restore jobId => do
    let _ ← restoreJob jobId
    return (true, [])

/-- A call whose commands end with the given outcomes. It is done after them, or cut off while it
waits for another command. -/
def PowerCall.step (s : PowerRecords × Host) (a : PowerCall × List Outcome) :
    Option (PowerRecords × Host) :=
  a.1.task.run.after Host.exec a.2 s.1 s.2

/-- A call keeps the records accounting for every card, wherever it is cut off. -/
theorem PowerCall.step_accounted {start : Str → ℤ} {s t : PowerRecords × Host}
    {a : PowerCall × List Outcome} (hs : Accounted start s.1 s.2)
    (h : PowerCall.step s a = some t) :
    Accounted start t.1 t.2 := by
  obtain ⟨call, outcomes⟩ := a
  refine Program.after_of_wp (I := Accounted start) ?_ h
  cases call with
  | apply jobId caps => exact wp_applyCards hs
  | restore jobId =>
    simp only [PowerCall.task, Program.wp_run_bind]
    refine Program.wp_mono (wp_restoreJob hs) fun r records' h' ha' => ?_
    cases r with
    | ok restored => exact ha'
    | error e => exact ha'

/-- **No capped card is forgotten.** After any sequence of calls of `apply_caps` and `restore_job`
by any number of jobs, each of them run to its end or cut off anywhere, with every command free to
fail: a card without an entry has the limit it had before the first cap, and an entry holds that
limit. -/
theorem no_capped_card_forgotten {records : PowerRecords} {host : Host}
    (hrecords : records.gpus = [])
    {calls : List (PowerCall × List Outcome)} {records' : PowerRecords} {host' : Host}
    (h : Transition.exec PowerCall.step (records, host) calls = some (records', host'))
    (uuid : Str) :
    (records'.gpus.get? uuid = none → host'.limit uuid = host.limit uuid) ∧
      ∀ watts, records'.gpus.get? uuid = some watts → watts = .fin (host.limit uuid) := by
  have hstart : Accounted host.limit records host := by
    intro card
    rw [hrecords]
    exact ⟨fun _ => rfl, fun watts hwatts => absurd hwatts (by simp)⟩
  exact Transition.exec_invariant' (I := fun s => Accounted host.limit s.1 s.2)
    (fun s a t hs hstep => PowerCall.step_accounted hs hstep) hstart h uuid

/-- An answer to the query that shows the limit `watts`. -/
def Outcome.power (watts : String) : Outcome where
  result := { exitCode := 0, stdout := (watts ++ ".00, 300.00, 100.00, 350.00, Enabled").toList }

/-- A command that succeeds. -/
def Outcome.done : Outcome where
  result := { exitCode := 0 }

/-- A command that fails. -/
def Outcome.failed : Outcome where
  result := { exitCode := 1 }
  took := false

/-- The outcomes of a cap on one card, from 300 W to 200 W. -/
def Outcome.capTo200 : List Outcome :=
  [.power "300", .done, .done, .power "200"]

theorem no_capped_card_forgotten_failed_restore :
    ∃ records' host', Transition.exec PowerCall.step ({}, { limit := fun _ => 300 })
        [(.apply "a".toList [("g".toList, .fin 200)], Outcome.capTo200),
          (.restore "a".toList, [.done, .failed])] = some (records', host') ∧
      host'.limit "g".toList = 200 ∧ records'.gpus.get? "g".toList = some (.fin 300) := by
  have hrun : ((Transition.exec PowerCall.step ({}, { limit := fun _ => 300 })
      [(.apply "a".toList [("g".toList, .fin 200)], Outcome.capTo200),
        (.restore "a".toList, [.done, .failed])]).map fun s =>
          (s.2.limit "g".toList, s.1.gpus.get? "g".toList)) =
      some (200, some (.fin 300)) := by decide +kernel
  obtain ⟨⟨records', host'⟩, hexec, hpair⟩ := Option.map_eq_some_iff.mp hrun
  obtain ⟨hlimit, hentry⟩ := Prod.mk.inj hpair
  refine ⟨records', host', hexec, hlimit, ?_⟩
  have haccount := (no_capped_card_forgotten rfl hexec "g".toList).2 (.fin 300) hentry
  rw [hentry, haccount]

end ComputePool.Validator
