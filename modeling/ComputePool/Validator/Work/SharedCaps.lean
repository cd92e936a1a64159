import ComputePool.Validator.Work.PowerCaps

/-!
# Cards shared by jobs

Placement lets inference jobs share a card, and each of them may cap it. The records keep one
original per card.

* `restore_job` puts a card back and drops its entry without asking who else caps it, so restoring
  one holder undoes the cap of the others.
* `apply_caps` sets what it is asked for, without asking whether that is below the original, so the
  cap of one holder can undo the cap of another.

`shared_cap_undone` has a history of each kind. In those without such a step nobody's cap is undone
(`caps_kept_while_held`).

Here every command succeeds.
-/

namespace ComputePool.Validator

open Text Numeral

/-- The answer can be read. -/
def readable : Command → CommandResult → Bool
  | .queryPower _, r => (parsePowerState r.stdout).isSome
  | _, _ => true

/-- A command that succeeds. -/
def Host.succeed (c : Command) (o : Outcome) (h : Host) : Option (CommandResult × Host) :=
  if o.result.ok ∧ readable c o.result then h.exec c o else none

/-- A command that succeeds is one that ended well. -/
theorem Host.exec_of_succeed {c : Command} {o : Outcome} {h : Host} {r : CommandResult × Host}
    (hsucceed : h.succeed c o = some r) :
    h.exec c o = some r ∧ r.1.ok ∧ readable c r.1 := by
  by_cases hok : o.result.ok ∧ readable c o.result
  · rw [Host.succeed, if_pos hok] at hsucceed
    have hexec : h.exec c o = some (r.1, r.2) := hsucceed
    obtain ⟨hr, -, -, -⟩ := Host.exec_eq_some hexec
    exact ⟨hsucceed, hr ▸ hok.1, hr ▸ hok.2⟩
  · rw [Host.succeed, if_neg hok] at hsucceed
    exact absurd hsucceed (by simp)

/-! ## Histories with their holders -/

/-- The records and the rig, and which job holds which card, that is, capped it and was not restored
since. -/
structure PowerSystem where
  records : PowerRecords := {}
  host : Host
  holds : List (Str × Str) := []

/-- A call that runs to its end. -/
def PowerSystem.step (s : PowerSystem) (a : PowerCall × List Outcome) : Option PowerSystem :=
  (a.1.task.run.run Host.succeed a.2 s.records s.host).map fun (r, records, host) =>
    match a.1 with
    | .apply jobId caps =>
      { records, host
        holds :=
          match r with
          | .ok (true, _) => s.holds ++ caps.keys.map (jobId, ·)
          | _ => s.holds }
    | .restore jobId => { records, host, holds := s.holds.filter (·.1 ≠ jobId) }

/-- No cap on the card sets it to `original` watts or more. Each cap has four outcomes, and the
first of them answers with the limits to which the request is cut. -/
def CapsBelow (card : Str) (original : PyFloat) : List (Str × PyFloat) → List Outcome → Prop
  | (uuid, requested) :: caps, answer :: outcomes =>
    (uuid = card → ∀ state ∈ parsePowerState answer.result.stdout,
      ∀ watts ∈ ((requested.max state.minW).min state.maxW).toInt,
        (PyFloat.fin watts).lt original) ∧
      CapsBelow card original caps (outcomes.drop 3)
  | _, _ => True

instance decidableCapsBelow (card : Str) (original : PyFloat) :
    (caps : List (Str × PyFloat)) → (outcomes : List Outcome) →
      Decidable (CapsBelow card original caps outcomes)
  | (_, _) :: caps, _ :: outcomes =>
    have := decidableCapsBelow card original caps (outcomes.drop 3)
    inferInstanceAs (Decidable ((_ → ∀ state ∈ _, ∀ watts ∈ _, _) ∧ _))
  | [], _ | _ :: _, [] => isTrue trivial

/-- A job is restored only when no other job holds one of its cards; and no cap on a card that is
limited below its original sets it to the original or more. -/
def PowerSystem.Spares (s : PowerSystem) (a : PowerCall × List Outcome) : Prop :=
  match a.1 with
  | .apply _ caps => ∀ entry ∈ s.records.gpus, (PyFloat.fin (s.host.limit entry.1)).lt entry.2 →
      CapsBelow entry.1 entry.2 caps a.2
  | .restore jobId => ∀ card ∈ s.records.cardsOf jobId, ∀ holder ∈ s.holds,
      holder.2 = card → holder.1 = jobId

instance (s : PowerSystem) (a : PowerCall × List Outcome) : Decidable (s.Spares a) :=
  match a with
  | (.apply _ _, _) => inferInstanceAs (Decidable (∀ entry ∈ _, _ → CapsBelow _ _ _ _))
  | (.restore _, _) => inferInstanceAs (Decidable (∀ card ∈ _, ∀ holder ∈ _, _ → _))

/-- Every card that a job holds has its original limit recorded. -/
def PowerSystem.Kept (start : Host) (s : PowerSystem) : Prop :=
  ∀ jobId card, (jobId, card) ∈ s.holds →
    s.records.gpus.get? card = some (.fin (start.limit card))

/-- A call undoes no cap: the cards that are held have their originals recorded and are not raised
back to them, and a restore leaves the cards of other jobs as they are. -/
structure PowerSystem.UndoesNothing (start : Host) (s : PowerSystem) (call : PowerCall)
    (t : PowerSystem) : Prop where
  recorded : t.Kept start
  capped : ∀ jobId card, (jobId, card) ∈ t.holds →
    s.host.limit card < start.limit card → t.host.limit card < start.limit card
  others : ∀ jobId, call = .restore jobId → ∀ other card, other ≠ jobId →
    (other, card) ∈ s.holds →
      t.records.gpus.get? card = s.records.gpus.get? card ∧ t.host.limit card = s.host.limit card

/-! ## One call -/

section Call

variable {σ : Type} {start : Str → ℤ} {records : PowerRecords} {h : Host} {uuid jobId : Str}
  {w : Host × List (Command × Outcome)}

/-- Reading the limit of a card succeeds, with the limit the card has. -/
theorem wp_readState_succeed {Q : Option PowerState → σ → Host × List (Command × Outcome) → Prop}
    {s : σ} (hsome : ∀ state o, state ∈ parsePowerState o.result.stdout →
      state.limitW = .fin (w.1.limit uuid) →
      Q (some state) s (w.1, w.2 ++ [(.queryPower uuid, o)])) :
    Program.wp (Program.logged Host.succeed) (fun _ _ => True) (readState uuid) Q s w := by
  simp only [readState, Program.wp_bind, Program.wp_send, Program.wp_pure]
  refine ⟨trivial, fun o r w' hlogged => ?_⟩
  obtain ⟨hsucceed, hlog⟩ := Program.logged_eq_some hlogged
  obtain ⟨hexec, hok, hread⟩ := Host.exec_of_succeed hsucceed
  obtain ⟨hsame, htrue⟩ := Host.exec_queryPower hexec
  obtain ⟨state, hstate⟩ := Option.isSome_iff_exists.mp hread
  obtain ⟨rfl, -, -, -⟩ := Host.exec_eq_some hexec
  have hw : w' = (w.1, w.2 ++ [(.queryPower uuid, o)]) := Prod.ext hsame hlog
  rw [if_pos hok, hstate, hw]
  exact hsome state o hstate (htrue state hok hstate)

/-- Where no command fails, `set_limit` sets the limit, unless the number of watts is none. -/
theorem wp_setLimit_succeed
    {Q : Except Exn (Option PowerState) → σ → Host × List (Command × Outcome) → Prop} {s : σ}
    {watts : PyFloat}
    (hraise : ∀ e h' log, (∀ q, watts ≠ .fin q) → h'.limit = w.1.limit →
      Q (.error e) s (h', w.2 ++ log))
    (hdone : ∀ state h' log q, log.length = 3 → watts = .fin q →
      h'.limit = Function.update w.1.limit uuid (PyFloat.roundEven q) →
      Q (.ok (some state)) s (h', w.2 ++ log)) :
    Program.wp (Program.logged Host.succeed) (fun _ _ => True) (setLimit uuid watts).run Q s w := by
  simp only [setLimit, Program.wp_run_bind, Raising.wp_send, Program.handOn_ok]
  refine ⟨trivial, fun o r w₁ hlogged => ?_⟩
  obtain ⟨hsucceed, hlog₁⟩ := Program.logged_eq_some hlogged
  have h₁limit : w₁.1.limit = w.1.limit :=
    Host.exec_limit (by simp) (Host.exec_of_succeed hsucceed).1
  have hw₁ : w₁ = (w₁.1, w.2 ++ [(.persistenceMode uuid, o)]) := Prod.ext rfl hlog₁
  cases watts with
  | inf negative => exact hw₁ ▸ hraise _ w₁.1 _ (by simp) h₁limit
  | nan => exact hw₁ ▸ hraise _ w₁.1 _ (by simp) h₁limit
  | fin q =>
    simp only [wholeWatts, Program.wp_run_pure, Program.handOn_ok, Program.wp_run_bind,
      Raising.wp_send]
    refine ⟨trivial, fun o' r' w₂ hlogged' => ?_⟩
    obtain ⟨hsucceed', hlog₂⟩ := Program.logged_eq_some hlogged'
    obtain ⟨hexec', hok', -⟩ := Host.exec_of_succeed hsucceed'
    have h₂limit := Host.exec_setPower hexec'
    rw [h₁limit, if_pos hok'] at h₂limit
    rw [if_neg (by simp [hok']), Program.wp_run_bind, Raising.wp_await]
    refine wp_readState_succeed fun state o'' _ hstate => ?_
    -- rounding moves the limit by at most half a watt, and a whole watt is allowed
    have hnear : state.limitW.apart (.fin q) 1 = false := by
      rw [hstate, h₂limit, Function.update_self]
      exact PyFloat.apart_roundEven q
    rw [Program.handOn_ok]
    dsimp only
    rw [Program.wp_run_pure, hnear, hlog₂, hlog₁, List.append_assoc, List.append_assoc]
    exact hdone state w₂.1 _ q rfl rfl h₂limit

/-- What a loop of `restore_job` over `uuids` does where no command fails. -/
structure Restored (uuids : List Str) (records : PowerRecords) (h : Host)
    (records' : PowerRecords) (h' : Host) : Prop where
  gpus : ∀ card, records'.gpus.get? card =
    if card ∈ uuids then none else records.gpus.get? card
  limit : ∀ card, card ∉ uuids → h'.limit card = h.limit card

/-- One card more that is restored. -/
theorem Restored.cons {uuids : List Str} {records' : PowerRecords} {h₁ h' : Host}
    (hlimit : ∀ card, card ≠ uuid → h₁.limit card = h.limit card)
    (hrest : Restored uuids (records.forget uuid jobId) h₁ records' h') :
    Restored (uuid :: uuids) records h records' h' where
  gpus card := by
    rw [hrest.gpus, PowerRecords.get?_gpus_forget]
    -- the card is taken off, and the others as the rest says
    by_cases hcard : card = uuid
    · simp [hcard]
    · simp [hcard]
  limit card hcard := by
    rw [hrest.limit card fun hmem => hcard (List.mem_cons_of_mem _ hmem)]
    exact hlimit card fun heq => hcard (heq ▸ List.mem_cons_self)

/-- The loop of `restore_job`, by induction on the cards. -/
theorem wp_restoreCards_succeed {uuids restored : List Str} (ha : Accounted start records w.1) :
    Program.wp (Program.logged Host.succeed) (fun _ _ => True)
      (restoreCards jobId uuids restored).run
      (fun _ records' w' => Restored uuids records w.1 records' w'.1) records w := by
  induction uuids generalizing restored records w with
  | nil => exact ⟨by simp, by simp⟩
  | cons uuid uuids ih =>
    simp only [restoreCards, Program.wp_run_bind, Raising.wp_read, Program.handOn_ok]
    -- a card without a record is only taken off the list of the job
    cases hget : records.original uuid with
    | none =>
      simp only [Program.wp_run_bind, Raising.wp_modify, Program.handOn_ok]
      exact Program.wp_mono (ih (ha.forget ((ha uuid).1 hget)))
        fun r records' w' hrest => hrest.cons fun card _ => rfl
    | some watts =>
      simp only [Program.wp_run_bind]
      -- what is on record is the limit at the start
      obtain rfl : watts = .fin (start uuid) := (ha uuid).2 watts hget
      refine wp_setLimit_succeed (fun e h' log hq => absurd rfl (hq _))
        fun state h₁ log q _ hq hlimit => ?_
      · simp only [Program.handOn_ok, Program.wp_run_bind, Raising.wp_modify]
        obtain rfl := PyFloat.fin.inj hq
        have hentry : records.gpus.get? uuid ≠ none := by
          rw [PowerRecords.original] at hget
          simp [hget]
        -- so the card is back at it
        have hback : h₁.limit uuid = start uuid := by
          rw [hlimit, Function.update_self, PyFloat.roundEven_intCast]
        refine Program.wp_mono (ih (w := (h₁, _)) ((ha.update hentry hlimit).forget hback))
          fun r records' w' hrest => hrest.cons fun card hcard => ?_
        rw [hlimit, Function.update_of_ne hcard]

/-- What a loop of `apply_caps` does where no command fails; `outcomes` are those of its
commands. -/
structure Applied (caps : List (Str × PyFloat)) (outcomes : List Outcome) (records : PowerRecords)
    (h : Host) (r : Except Exn (Bool × Str)) (records' : PowerRecords) (h' : Host) : Prop where
  entries : ∀ card, records.gpus.get? card ≠ none → records'.gpus.get? card ≠ none
  entered : ∀ reason, r = .ok (true, reason) → ∀ card ∈ Dict.keys caps,
    records'.gpus.get? card ≠ none
  capped : ∀ card original, (PyFloat.fin (h.limit card)).lt original →
    CapsBelow card original caps outcomes → (PyFloat.fin (h'.limit card)).lt original

/-- After a card is recorded, and whatever limit it got. -/
theorem Applied.cons {caps : List (Str × PyFloat)} {outcomes : List Outcome} {requested : PyFloat}
    {answer : Outcome} {state : PowerState} {watts : PyFloat} {r : Except Exn (Bool × Str)}
    {records' : PowerRecords} {h₁ h' : Host} {log : List Outcome}
    (hstate : state ∈ parsePowerState answer.result.stdout) (hlog : log.length = 3)
    (hlimit : ∀ card, h₁.limit card = h.limit card ∨
      card = uuid ∧ ∃ q, (requested.max state.minW).min state.maxW = .fin q ∧
        h₁.limit card = PyFloat.roundEven q)
    (hrest : Applied caps outcomes (records.rememberOriginal uuid watts jobId) h₁ r records' h') :
    Applied ((uuid, requested) :: caps) (answer :: (log ++ outcomes)) records h r records' h' where
  entries card hcard := by
    refine hrest.entries card ?_
    rw [PowerRecords.get?_gpus_rememberOriginal]
    by_cases hne : card = uuid
    · simp [hne]
    · rwa [if_neg hne]
  entered reason hr card hcard := by
    rcases List.mem_cons.mp hcard with rfl | hmem
    · exact hrest.entries _ (by simp [PowerRecords.get?_gpus_rememberOriginal])
    · exact hrest.entered reason hr card hmem
  capped card original hbelow hcaps := by
    have hdrop : (log ++ outcomes).drop 3 = outcomes := by rw [← hlog, List.drop_left]
    rw [CapsBelow, hdrop] at hcaps
    refine hrest.capped card original ?_ hcaps.2
    rcases hlimit card with hsame | ⟨rfl, q, htarget, hset⟩
    · rwa [hsame]
    · rw [hset]
      exact hcaps.1 rfl state hstate _ (by rw [htarget]; rfl)

/-- The loop of `apply_caps`, by induction on the caps. -/
theorem wp_applyCards_succeed {caps : List (Str × PyFloat)} :
    Program.wp (Program.logged Host.succeed) (fun _ _ => True) (applyCards jobId caps).run
      (fun r records' w' => ∃ outcomes, w'.2.map Prod.snd = w.2.map Prod.snd ++ outcomes ∧
        Applied caps outcomes records w.1 r records' w'.1) records w := by
  induction caps generalizing records w with
  | nil => exact ⟨[], by simp, fun _ => id, by simp [Dict.keys], fun _ _ hbelow _ => hbelow⟩
  | cons cap caps ih =>
    obtain ⟨uuid, requested⟩ := cap
    simp only [applyCards, Program.wp_run_bind, Raising.wp_await]
    refine wp_readState_succeed fun state answer hstate _ => ?_
    simp only [Program.handOn_ok, Program.wp_run_bind, Raising.wp_modify]
    refine wp_setLimit_succeed (fun e h' log _ hlimit => ?_)
      fun state' h₁ log q hlog hq hlimit => ?_
    · -- the number of watts is none: the card is recorded and the call is over
      refine ⟨answer :: log.map Prod.snd, by simp, fun card hcard => ?_, by simp, ?_⟩
      · rw [PowerRecords.get?_gpus_rememberOriginal]
        by_cases hne : card = uuid
        · simp [hne]
        · rwa [if_neg hne]
      · intro card original hbelow _
        rwa [hlimit]
    · refine Program.wp_mono ih fun r records' w' ⟨outcomes, houtcomes, hrest⟩ =>
        ⟨answer :: (log.map Prod.snd ++ outcomes), by simp [houtcomes], ?_⟩
      refine Applied.cons hstate (by simp [hlog]) (fun card => ?_) hrest
      by_cases hcard : card = uuid
      · subst hcard
        exact Or.inr ⟨rfl, q, hq, by rw [hlimit, Function.update_self]⟩
      · exact Or.inl (by rw [hlimit, Function.update_of_ne hcard])

end Call

/-! ## Every history -/

/-- The invariant of histories in which no step undoes a cap. -/
structure PowerSystem.Invariant (start : Host) (s : PowerSystem) : Prop where
  accounted : Accounted start.limit s.records s.host
  entry : ∀ jobId card, (jobId, card) ∈ s.holds → s.records.gpus.get? card ≠ none

namespace PowerSystem

variable {start : Host} {s t : PowerSystem} {jobId : Str} {outcomes : List Outcome}

theorem Invariant.kept (hs : s.Invariant start) : s.Kept start := by
  intro jobId card hholds
  obtain ⟨watts, hwatts⟩ := Option.ne_none_iff_exists'.mp (hs.entry jobId card hholds)
  rw [hwatts, (hs.accounted card).2 watts hwatts]

/-- What holds after every run holds after one in which all succeeds. -/
theorem accounted_of_succeed {α : Type} {p : Program PowerRecords Command CommandResult α}
    {I : PowerRecords → Host → Prop} {limits : Str → ℤ}
    (h : p.wp Host.exec I (fun _ => Accounted limits) s.records s.host) {outcomes : List Outcome}
    {r : α} {records : PowerRecords} {host : Host}
    (hrun : p.run Host.succeed outcomes s.records s.host = some (r, records, host)) :
    Accounted limits records host := by
  have hless : ∀ c o h r, Host.succeed c o h = some r → Host.exec c o h = some r :=
    fun _ _ _ _ hr => (Host.exec_of_succeed hr).1
  exact Program.run_of_wp (Q := fun _ => Accounted limits) (Program.wp_exec_mono hless h) hrun

/-- What `restore_job` does to the system. -/
theorem step_restore (hs : Accounted start.limit s.records s.host)
    (h : s.step (.restore jobId, outcomes) = some t) :
    Restored (s.records.cardsOf jobId) s.records s.host t.records t.host ∧
      Accounted start.limit t.records t.host ∧ t.holds = s.holds.filter (·.1 ≠ jobId) := by
  obtain ⟨⟨r, records, host⟩, hrun, rfl⟩ := Option.map_eq_some_iff.mp h
  -- a run in which every command succeeds has what its weakest precondition says
  refine ⟨?_, accounted_of_succeed (I := Accounted start.limit) ?_ hrun, rfl⟩
  · obtain ⟨log, hlogged⟩ := Program.exists_run_logged hrun []
    refine Program.run_of_wp (I := fun _ _ => True)
      (Q := fun _ records' w' =>
        Restored (s.records.cardsOf jobId) s.records s.host records' w'.1) ?_ hlogged
    simp only [PowerCall.task, restoreJob, Program.wp_run_bind, Raising.wp_read, Program.handOn_ok]
    refine Program.wp_mono (wp_restoreCards_succeed (w := (s.host, [])) hs)
      fun r records' w' hrest => ?_
    cases r with
    | ok restored => exact hrest
    | error e => exact hrest
  · simp only [PowerCall.task, Program.wp_run_bind]
    refine Program.wp_mono (wp_restoreJob hs) fun r records' h' ha' => ?_
    cases r with
    | ok restored => exact ha'
    | error e => exact ha'

/-- What `apply_caps` does to the system. -/
theorem step_apply {caps : Dict Str PyFloat} (hs : Accounted start.limit s.records s.host)
    (h : s.step (.apply jobId caps, outcomes) = some t) :
    ∃ r, Applied caps outcomes s.records s.host r t.records t.host ∧
      Accounted start.limit t.records t.host ∧
      ∀ holder ∈ t.holds, holder ∈ s.holds ∨
        (∃ reason, r = .ok (true, reason)) ∧ holder.2 ∈ caps.keys := by
  obtain ⟨⟨r, records, host⟩, hrun, rfl⟩ := Option.map_eq_some_iff.mp h
  refine ⟨r, ?_, accounted_of_succeed (wp_applyCards hs) hrun, fun holder hmem => ?_⟩
  · obtain ⟨log, hlogged⟩ := Program.exists_run_logged hrun []
    obtain ⟨outcomes', houtcomes, happlied⟩ :=
      Program.run_of_wp (wp_applyCards_succeed (w := (s.host, []))) hlogged
    -- the outcomes are those the call was given
    have hall := Program.outcomes_of_run_logged hlogged
    obtain rfl := List.append_cancel_left (houtcomes.symm.trans hall)
    exact happlied
  · dsimp only at hmem
    split at hmem
    · rcases List.mem_append.mp hmem with hmem | hmem
      · exact Or.inl hmem
      · obtain ⟨card, hcard, rfl⟩ := List.mem_map.mp hmem
        exact Or.inr ⟨⟨_, rfl⟩, hcard⟩
    · exact Or.inl hmem

/-- No card of a job that is restored is held by another job. -/
theorem notMem_cardsOf (hspares : s.Spares (.restore jobId, outcomes)) {other card : Str}
    (hother : other ≠ jobId) (hholds : (other, card) ∈ s.holds) : card ∉ s.records.cardsOf jobId :=
  fun hown => hother (hspares card hown _ hholds rfl)

/-- Restoring a job keeps the invariant, when no other holds its cards. -/
theorem Invariant.restore (hs : s.Invariant start)
    (hspares : s.Spares (.restore jobId, outcomes))
    (h : s.step (.restore jobId, outcomes) = some t) : t.Invariant start := by
  obtain ⟨hrestored, haccounted, hholds⟩ := step_restore hs.accounted h
  refine ⟨haccounted, fun other card hmem => ?_⟩
  rw [hholds, List.mem_filter, decide_eq_true_eq] at hmem
  rw [hrestored.gpus, if_neg (notMem_cardsOf hspares hmem.2 hmem.1)]
  exact hs.entry other card hmem.1

/-- Applying caps keeps the invariant. -/
theorem Invariant.apply {caps : Dict Str PyFloat} (hs : s.Invariant start)
    (h : s.step (.apply jobId caps, outcomes) = some t) : t.Invariant start := by
  obtain ⟨r, happlied, haccounted, hholds⟩ := step_apply hs.accounted h
  refine ⟨haccounted, fun other card hmem => ?_⟩
  -- an entry comes from this call or was there before
  rcases hholds _ hmem with hold | ⟨⟨reason, hr⟩, hcard⟩
  · exact happlied.entries card (hs.entry other card hold)
  · exact happlied.entered reason hr card hcard

/-- A step of a history keeps the invariant. -/
theorem Invariant.step {a : PowerCall × List Outcome} (hs : s.Invariant start) (ha : s.Spares a)
    (h : s.step a = some t) : t.Invariant start := by
  obtain ⟨call, outcomes⟩ := a
  cases call with
  | apply jobId caps => exact hs.apply h
  | restore jobId => exact hs.restore ha h

/-- A card below its original has an entry. -/
theorem get?_of_lt (hs : Accounted start.limit s.records s.host) {card : Str}
    (hbelow : s.host.limit card < start.limit card) :
    s.records.gpus.get? card = some (.fin (start.limit card)) := by
  cases hentry : s.records.gpus.get? card with
  | none => exact absurd ((hs card).1 hentry) hbelow.ne
  | some watts => rw [(hs card).2 watts hentry]

/-- A step of a history undoes no cap. -/
theorem Invariant.undoesNothing {a : PowerCall × List Outcome} (hs : s.Invariant start)
    (ha : s.Spares a) (h : s.step a = some t) : s.UndoesNothing start a.1 t := by
  obtain ⟨call, outcomes⟩ := a
  cases call with
  | apply jobId caps =>
    obtain ⟨r, happlied, -, -⟩ := step_apply hs.accounted h
    refine ⟨(hs.apply h).kept, fun other card _ hbelow => ?_, fun _ hcall => by cases hcall⟩
    have hentry := Dict.mem_of_get? (get?_of_lt hs.accounted hbelow)
    have hbelow' : (PyFloat.fin (s.host.limit card)).lt (.fin (start.limit card)) :=
      decide_eq_true (by exact_mod_cast hbelow)
    have hcapped := happlied.capped card _ hbelow' (ha _ hentry hbelow')
    exact_mod_cast of_decide_eq_true hcapped
  | restore jobId =>
    obtain ⟨hrestored, -, hholds⟩ := step_restore hs.accounted h
    -- what other jobs hold is not put back
    have hother {other card : Str} (hne : other ≠ jobId) (hmem : (other, card) ∈ s.holds) :
        t.records.gpus.get? card = s.records.gpus.get? card ∧
          t.host.limit card = s.host.limit card := by
      have hcard := notMem_cardsOf ha hne hmem
      rw [hrestored.gpus, if_neg hcard]
      exact ⟨rfl, hrestored.limit card hcard⟩
    refine ⟨(hs.restore ha h).kept, fun other card hmem hbelow => ?_, fun job hcall => ?_⟩
    · rw [hholds, List.mem_filter, decide_eq_true_eq] at hmem
      rwa [(hother hmem.2 hmem.1).2]
    · obtain rfl := PowerCall.restore.inj hcall
      exact fun other card hne hmem => hother hne hmem

end PowerSystem

/-- **Caps are kept while they are held.** In every history, with all commands succeeding, in which
no job is restored while another one holds one of its cards, and no cap on a card that is below its
original is as high as that: every step of it leaves the originals of the held cards on record,
raises no held card back to its original, and leaves the cards of others alone if it restores a job.
-/
theorem caps_kept_while_held {host : Host} {calls : List (PowerCall × List Outcome)}
    {s : PowerSystem} (hmeets : Transition.Meets PowerSystem.step PowerSystem.Spares { host } calls)
    (h : Transition.exec PowerSystem.step { host } calls = some s) :
    s.Kept host ∧ ∀ a t, s.Spares a → s.step a = some t → s.UndoesNothing host a.1 t := by
  -- at the start nothing is held and nothing recorded
  have hstart : PowerSystem.Invariant host { host } := by
    refine ⟨fun card => ⟨fun _ => rfl, ?_⟩, ?_⟩
    · simp
    · simp
  have hs : s.Invariant host :=
    Transition.exec_invariant (fun _ _ _ hs ha hstep => hs.step ha hstep) hstart hmeets h
  exact ⟨hs.kept, fun a t ha hstep => hs.undoesNothing ha hstep⟩

/-- A rig whose cards are limited to 300 W. -/
def Host.at300 : Host where
  limit _ := 300

/-- Job `a` caps the card to 200 W. -/
def capOfA : PowerCall × List Outcome :=
  (.apply "a".toList [("g".toList, .fin 200)], Outcome.capTo200)

/-- Job `b` caps the card as well. -/
def capOfB : PowerCall × List Outcome :=
  (.apply "b".toList [("g".toList, .fin 250)], [.power "200", .done, .done, .power "250"])

/-- Job `a` is restored. -/
def restoreOfA : PowerCall × List Outcome :=
  (.restore "a".toList, [.done, .done, .power "300"])

/-- Job `b` caps the card to what it had at the start. -/
def liftOfB : PowerCall × List Outcome :=
  (.apply "b".toList [("g".toList, .fin 300)], [.power "200", .done, .done, .power "300"])

/-- The card of job `b` is raised when job `a` is restored, and that of job `a` by a cap of `b`. -/
theorem shared_cap_undone :
    (∃ s t, Transition.exec PowerSystem.step { host := Host.at300 } [capOfA, capOfB] = some s ∧
      s.step restoreOfA = some t ∧ ("b".toList, "g".toList) ∈ t.holds ∧
      t.records.gpus.get? "g".toList = none ∧ s.host.limit "g".toList = 250 ∧
      t.host.limit "g".toList = 300 ∧ ¬ s.UndoesNothing Host.at300 restoreOfA.1 t) ∧
    ∃ s t, Transition.exec PowerSystem.step { host := Host.at300 } [capOfA] = some s ∧
      s.step liftOfB = some t ∧ ("a".toList, "g".toList) ∈ t.holds ∧
      s.host.limit "g".toList = 200 ∧ t.host.limit "g".toList = 300 ∧
      ¬ s.UndoesNothing Host.at300 liftOfB.1 t := by
  constructor
  · have hrun : (Transition.exec PowerSystem.step { host := Host.at300 } [capOfA, capOfB]).bind
        (fun s => (s.step restoreOfA).map fun t => (t.holds, t.records.gpus,
          s.host.limit "g".toList, t.host.limit "g".toList)) =
        some ([("b".toList, "g".toList)], [], 250, 300) := by decide +kernel
    obtain ⟨s, hexec, hlast⟩ := Option.bind_eq_some_iff.mp hrun
    obtain ⟨t, hstep, ht⟩ := Option.map_eq_some_iff.mp hlast
    simp only [Prod.mk.injEq] at ht
    obtain ⟨hholds, hgpus, hbefore, hafter⟩ := ht
    have hmem : ("b".toList, "g".toList) ∈ t.holds := by rw [hholds]; simp
    have hnone : t.records.gpus.get? "g".toList = none := by rw [hgpus]; rfl
    refine ⟨s, t, hexec, hstep, hmem, hnone, hbefore, hafter, fun hundoes => ?_⟩
    exact absurd (hnone.symm.trans (hundoes.recorded _ _ hmem)) (by simp)
  · have hrun : (Transition.exec PowerSystem.step { host := Host.at300 } [capOfA]).bind
        (fun s => (s.step liftOfB).map fun t => (t.holds, s.host.limit "g".toList,
          t.host.limit "g".toList)) =
        some ([("a".toList, "g".toList), ("b".toList, "g".toList)], 200, 300) := by decide +kernel
    obtain ⟨s, hexec, hlast⟩ := Option.bind_eq_some_iff.mp hrun
    obtain ⟨t, hstep, ht⟩ := Option.map_eq_some_iff.mp hlast
    simp only [Prod.mk.injEq] at ht
    obtain ⟨hholds, hbefore, hafter⟩ := ht
    have hmem : ("a".toList, "g".toList) ∈ t.holds := by rw [hholds]; simp
    refine ⟨s, t, hexec, hstep, hmem, hbefore, hafter, fun hundoes => ?_⟩
    have hcapped := hundoes.capped _ _ hmem (by rw [hbefore]; decide)
    rw [hafter] at hcapped
    exact absurd hcapped (by decide)

/-- Two jobs cap a card, and a third one another card. -/
def sharedAndOwn : List (PowerCall × List Outcome) :=
  [capOfA, capOfB, (.apply "c".toList [("i".toList, .fin 200)], Outcome.capTo200)]

/-- The third job is restored, and the card of the others keeps its cap. -/
theorem caps_kept_while_held_shared :
    ∃ s t, Transition.exec PowerSystem.step { host := Host.at300 } sharedAndOwn = some s ∧
      s.step (.restore "c".toList, [.done, .done, .power "300"]) = some t ∧
      ("a".toList, "g".toList) ∈ t.holds ∧
      t.records.gpus.get? "g".toList = some (.fin 300) ∧ t.host.limit "g".toList < 300 := by
  have hmeets : Transition.Meets PowerSystem.step PowerSystem.Spares { host := Host.at300 }
      sharedAndOwn := by decide +kernel
  have hrun : (Transition.exec PowerSystem.step { host := Host.at300 } sharedAndOwn).bind
      (fun s => (s.step (.restore "c".toList, [.done, .done, .power "300"])).map fun t =>
        (decide (s.Spares (.restore "c".toList, [.done, .done, .power "300"])), t.holds,
          s.host.limit "g".toList)) =
      some (true, [("a".toList, "g".toList), ("b".toList, "g".toList)], 250) := by decide +kernel
  obtain ⟨s, hexec, hlast⟩ := Option.bind_eq_some_iff.mp hrun
  obtain ⟨t, hstep, ht⟩ := Option.map_eq_some_iff.mp hlast
  simp only [Prod.mk.injEq] at ht
  obtain ⟨hspares, hholds, hbefore⟩ := ht
  have hmem : ("a".toList, "g".toList) ∈ t.holds := by rw [hholds]; simp
  have hkept := (caps_kept_while_held hmeets hexec).2 _ t (of_decide_eq_true hspares) hstep
  exact ⟨s, t, hexec, hstep, hmem, hkept.recorded _ _ hmem,
    hkept.capped _ _ hmem (by rw [hbefore]; decide)⟩

end ComputePool.Validator
