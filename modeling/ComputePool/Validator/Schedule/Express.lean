import Mathlib.Data.Finset.Insert
import ComputePool.Validator.Schedule.Deep
import ComputePool.Validator.Scoring.Reliability

/-!
# The express lane

`ExpressLane` of `validator/schedule/express.py`: every rig that is online is probed in short turns.
The probes of a turn run at the same time, but what a probe does after its last await runs in one
piece, so a run of the lane is a list of probes in the order they end, with the moments at which the
deep pass takes the rigs that became due early between them.

The report that a probe leaves in `last_probe` is read by nobody and left out.

* `ExpressLane.after_eq`: what the lane keeps of a rig is a function of the probes of that rig.
* `ExpressLane.mem_earlyDue_iff`: a rig becomes due early when the third probe in a row fails.
* `ExpressLane.handed_over`: it is handed to the deep pass at most once in each outage.
-/

namespace ComputePool.Validator

open Text Protocol
open Json (Printer Raised field)

/-- `UNREACHABLE_TICKS`. -/
def unreachableTicks : ℕ := 3

/-- `BUSY_PERCENT`. -/
def busyPercent : ℤ := 50

/-- `SIGNAL_HISTORY`. -/
def signalHistory : ℕ := 500

/-- `Signal`. -/
structure Signal where
  rigId : Str
  hotkey : Str
  kind : Str
  detail : Str
  /-- `at`. -/
  moment : ℚ

/-- Whether a card is in use: its `gpu_percent` is not below the limit, or it has processes. -/
def cardBusy (card : Dict Str Json) : Except Raised Bool := do
  let percent ← Json.caught 0
    ((field card "gpu_percent" (field card "utilization" (.int 0))).orElse (.int 0)).toInt
  return busyPercent ≤ percent || (field card "processes" .null).truthy

/-- `utilisation_signal`. -/
def utilisationSignal (p : Printer) (rig utilisation : Dict Str Json) :
    Except Raised (Option (Str × Str)) := do
  let placed ← ((field rig "jobs_running" (.int 0)).orElse (.int 0)).toInt
  let cards ← ((field utilisation "gpus" .null).orElse (.list [])).iter
  let gpus := cards.filterMap fun card => match card with
    | .dict fields => some fields
    | _ => none
  if gpus.isEmpty then return none
  let busy ← gpus.filterM cardBusy
  let names := busy.map fun card =>
    ((field card "uuid" (.str [])).orElse (.str ['?'])).toStr p
  if 0 < placed ∧ names.isEmpty then
    return some ("idle_while_placed".toList,
      Json.intText placed ++ " jobs placed, every card idle".toList)
  else if placed = 0 ∧ ¬ names.isEmpty then
    return some ("busy_without_assignment".toList,
      "cards busy with nothing assigned: ".toList ++ (", ".toList).intercalate (names.take 4))
  else return none

/-- How the three calls of a probe end. -/
inductive Reply
  /-- All were answered, the last one with the utilisation. -/
  | answered (utilisation : Dict Str Json)
  | failed (e : AgentError)
  /-- The probe ends with another exception, or is cancelled. -/
  | broken

/-- A probe of a rig that ends, with the readings of the clock for the ledger and for a signal. -/
structure Probe where
  rig : Dict Str Json
  reply : Reply
  observed : ℚ
  recorded : ℚ

/-- `str(rig.get("id", ""))`. -/
def rigIdOf (p : Printer) (rig : Dict Str Json) : Str :=
  (field rig "id" (.str [])).toStr p

/-- The state of an `ExpressLane`. -/
structure ExpressLane where
  unreachable : Dict Str ℕ := []
  earlyDue : Finset Str := ∅
  /-- `signals`, oldest first. -/
  signals : List Signal := []
  ledger : Reliability.Ledger := {}

namespace ExpressLane

/-- `append` to a deque with a `maxlen`. -/
def push {α : Type} (limit : ℕ) (items : List α) (item : α) : List α :=
  (items ++ [item]).drop (items.length + 1 - limit)

variable (p : Printer)

/-- `record`. -/
def record (lane : ExpressLane) (rig : Dict Str Json) (kind detail : Str) (now : ℚ) :
    ExpressLane :=
  { lane with
    signals := push signalHistory lane.signals
      ⟨rigIdOf p rig, DeepPass.ownerOf p rig, kind, detail, now⟩ }

/-- The detail of the signal `unreachable`. -/
def unreachableDetail (count : ℕ) (e : AgentError) : Str :=
  natText count ++ " consecutive express ticks failed: ".toList ++ e.detail.take 120

/-- `probe`, after its calls. -/
def probed (lane : ExpressLane) (probe : Probe) : ExpressLane :=
  let rigId := rigIdOf p probe.rig
  match probe.reply with
  | .broken => lane
  | .failed e =>
    let count := (lane.unreachable.get? rigId).getD 0 + 1
    let lane := { lane with
      ledger := lane.ledger.observe ⟨rigId, false, probe.observed⟩
      unreachable := lane.unreachable.set rigId count }
    if count = unreachableTicks then
      { lane with earlyDue := insert rigId lane.earlyDue }.record p probe.rig "unreachable".toList
        (unreachableDetail count e) probe.recorded
    else lane
  | .answered utilisation =>
    let lane := { lane with
      ledger := lane.ledger.observe ⟨rigId, true, probe.observed⟩
      unreachable := lane.unreachable.pop rigId }
    match utilisationSignal p probe.rig utilisation with
    | .ok (some (kind, detail)) => lane.record p probe.rig kind detail probe.recorded
    -- the exception ends the probe, and `gather` keeps it
    | .ok none | .error _ => lane

/-- `take_early_due`. -/
def takeEarlyDue (lane : ExpressLane) : Finset Str × ExpressLane :=
  (lane.earlyDue, { lane with earlyDue := ∅ })

/-- Something happens in the lane. -/
inductive Event
  | probe (probe : Probe)
  | take

/-- What an event does. -/
def step (lane : ExpressLane) : Event → ExpressLane
  | .probe probe => lane.probed p probe
  | .take => lane.takeEarlyDue.2

/-- The lane after a number of events. -/
def after (history : List Event) : ExpressLane :=
  history.foldl (step p) {}

/-! ## Histories -/

/-- What a probe says about a rig, if it is one of this rig and was not broken off: whether the rig
answered. -/
def verdictOn (rigId : Str) : Event → Option Bool
  | .take => none
  | .probe probe =>
    if rigIdOf p probe.rig = rigId then
      match probe.reply with
      | .answered _ => some true
      | .failed _ => some false
      | .broken => none
    else none

/-- Whether the rig answered its probes, oldest first. -/
def attempts (rigId : Str) (history : List Event) : List Bool :=
  history.filterMap (verdictOn p rigId)

/-- How many probes of the rig have failed since it last answered. -/
def streak (rigId : Str) (history : List Event) : ℕ :=
  ((attempts p rigId history).reverse.takeWhile not).length

/-- The event is the failed probe of a rig that makes up the number. -/
def Reaches (rigId : Str) (earlier : List Event) (e : Event) : Prop :=
  verdictOn p rigId e = some false ∧ streak p rigId earlier + 1 = unreachableTicks

/-- Since the rigs were taken last, a probe of the rig made up the number. -/
def DueEarly (rigId : Str) (history : List Event) : Prop :=
  ∃ pre e post, history = pre ++ e :: post ∧ Event.take ∉ post ∧ Reaches p rigId pre e

/-- What the ledger is told of an event. -/
def observationOf : Event → Option Reliability.Observation
  | .take => none
  | .probe probe =>
    match probe.reply with
    | .answered _ => some ⟨rigIdOf p probe.rig, true, probe.observed⟩
    | .failed _ => some ⟨rigIdOf p probe.rig, false, probe.observed⟩
    | .broken => none

/-- The signal of an event, after some others. -/
def signalOf (earlier : List Event) : Event → Option Signal
  | .take => none
  | .probe probe =>
    let signal (kind detail : Str) : Signal :=
      ⟨rigIdOf p probe.rig, DeepPass.ownerOf p probe.rig, kind, detail, probe.recorded⟩
    match probe.reply with
    | .answered utilisation =>
      match utilisationSignal p probe.rig utilisation with
      | .ok (some (kind, detail)) => some (signal kind detail)
      | .ok none | .error _ => none
    | .failed e =>
      let count := streak p (rigIdOf p probe.rig) earlier + 1
      if count = unreachableTicks then
        some (signal "unreachable".toList (unreachableDetail count e))
      else none
    | .broken => none

/-- The signals of a history, after some other events. -/
def signalsFrom (earlier : List Event) : List Event → List Signal
  | [] => []
  | e :: rest => (signalOf p earlier e).toList ++ signalsFrom (earlier ++ [e]) rest

variable {p} {rigId : Str}

/-- One event more is at most one attempt more. -/
theorem attempts_concat (history : List Event) (e : Event) :
    attempts p rigId (history ++ [e]) =
      attempts p rigId history ++ (verdictOn p rigId e).toList := by
  rw [attempts, List.filterMap_append]
  cases h : verdictOn p rigId e <;> simp [attempts, h]

/-- A probe ends the streak, makes it longer, or has nothing to do with the rig. -/
theorem streak_concat (history : List Event) (e : Event) :
    streak p rigId (history ++ [e]) =
      match verdictOn p rigId e with
      | none => streak p rigId history
      | some true => 0
      | some false => streak p rigId history + 1 := by
  unfold streak
  rw [attempts_concat]
  rcases verdictOn p rigId e with _ | _ | _ <;> simp

/-- Failures alone make a streak longer by their number. -/
theorem streak_append {history later : List Event} (h : true ∉ attempts p rigId later) :
    streak p rigId (history ++ later) =
      streak p rigId history + (attempts p rigId later).length := by
  have hall : (attempts p rigId later).reverse.takeWhile not =
      (attempts p rigId later).reverse := by
    refine List.takeWhile_eq_self_iff.mpr fun b hb => ?_
    cases b with
    | false => rfl
    | true => exact absurd (List.mem_reverse.mp hb) h
  have happend : attempts p rigId (history ++ later) =
      attempts p rigId history ++ attempts p rigId later := List.filterMap_append
  unfold streak
  rw [happend, List.reverse_append, List.takeWhile_append, hall]
  simp [Nat.add_comm]

/-- A rig is due early after an event that makes up the number, or as before unless a round takes
what is due. -/
theorem dueEarly_concat (history : List Event) (e : Event) :
    DueEarly p rigId (history ++ [e]) ↔
      Reaches p rigId history e ∨ e ≠ .take ∧ DueEarly p rigId history := by
  constructor
  · rintro ⟨pre, f, post, heq, hpost, hf⟩
    -- the last event is the one that made up the number, or a later one
    rcases List.eq_nil_or_concat' post with rfl | ⟨post, g, rfl⟩
    · obtain ⟨rfl, hlast⟩ := List.append_inj' heq rfl
      obtain rfl : e = f := by simpa using hlast
      exact .inl hf
    · rw [← List.cons_append, ← List.append_assoc] at heq
      obtain ⟨rfl, hlast⟩ := List.append_inj' heq rfl
      obtain rfl : e = g := by simpa using hlast
      refine .inr ⟨fun he => hpost (by simp [he]), pre, f, post, rfl, fun hmem => hpost ?_, hf⟩
      simp [hmem]
  · rintro (hreach | ⟨hne, pre, f, post, rfl, hpost, hf⟩)
    · exact ⟨history, e, [], rfl, List.not_mem_nil, hreach⟩
    · refine ⟨pre, f, post ++ [e], by simp, fun hmem => ?_, hf⟩
      rcases List.mem_append.mp hmem with hmem | hmem
      · exact hpost hmem
      · exact hne (List.mem_singleton.mp hmem).symm

/-- The signals of a history with one more event. -/
theorem signalsFrom_concat (earlier history : List Event) (e : Event) :
    signalsFrom p earlier (history ++ [e]) =
      signalsFrom p earlier history ++ (signalOf p (earlier ++ history) e).toList := by
  induction history generalizing earlier with
  | nil => simp [signalsFrom]
  | cons f history ih => simp [signalsFrom, ih, List.append_assoc]

/-- The newest items of a list, at most `limit` of them. -/
def newest {α : Type} (limit : ℕ) (items : List α) : List α :=
  items.drop (items.length - limit)

/-- Pushing keeps the newest items, by cases on whether the limit is reached. -/
theorem push_newest {α : Type} (limit : ℕ) (items : List α) (item : α) :
    push limit (newest limit items) item = newest limit (items ++ [item]) := by
  have hlen : (newest limit items).length = items.length - (items.length - limit) := by
    simp [newest]
  rw [push, hlen, newest, newest, List.length_append, List.length_singleton]
  rcases Nat.lt_or_ge items.length limit with hlt | hge
  · have hzero : items.length - limit = 0 := by omega
    simp [hzero]
  · have hsub : items.length - limit ≤ items.length := by omega
    rw [← List.drop_append_of_le_length hsub, List.drop_drop]
    congr 1
    omega

/-! ## What the lane remembers -/

/-- The lane remembers of a history what the history says. -/
structure Remembers (p : Printer) (lane : ExpressLane) (history : List Event) : Prop where
  unreachable : ∀ rigId, lane.unreachable.get? rigId =
    if streak p rigId history = 0 then none else some (streak p rigId history)
  earlyDue : ∀ rigId, rigId ∈ lane.earlyDue ↔ DueEarly p rigId history
  signals : lane.signals = newest signalHistory (signalsFrom p [] history)
  ledger : lane.ledger = Reliability.Ledger.after (history.filterMap (observationOf p))

/-- Nothing has happened yet. -/
theorem remembers_nil : Remembers p {} [] where
  unreachable _ := rfl
  earlyDue rigId := by simp [DueEarly]
  signals := by simp [signalsFrom, newest]
  ledger := rfl

@[simp]
theorem unreachable_record (lane : ExpressLane) (rig : Dict Str Json) (kind detail : Str)
    (now : ℚ) : (lane.record p rig kind detail now).unreachable = lane.unreachable := by
  rw [record]

@[simp]
theorem earlyDue_record (lane : ExpressLane) (rig : Dict Str Json) (kind detail : Str)
    (now : ℚ) : (lane.record p rig kind detail now).earlyDue = lane.earlyDue := by
  rw [record]

@[simp]
theorem ledger_record (lane : ExpressLane) (rig : Dict Str Json) (kind detail : Str) (now : ℚ) :
    (lane.record p rig kind detail now).ledger = lane.ledger := by
  rw [record]

/-- What an event does to the count of a rig. -/
theorem unreachable_step (lane : ExpressLane) (e : Event) (rigId : Str) :
    (lane.step p e).unreachable.get? rigId =
      match verdictOn p rigId e with
      | none => lane.unreachable.get? rigId
      | some true => none
      | some false => some ((lane.unreachable.get? rigId).getD 0 + 1) := by
  cases e with
  | take => rfl
  | probe probe =>
    obtain ⟨rig, reply, observed, recorded⟩ := probe
    cases reply with
    | broken => simp [step, probed, verdictOn]
    | failed e =>
      have hset : (step p lane (.probe ⟨rig, .failed e, observed, recorded⟩)).unreachable =
          lane.unreachable.set (rigIdOf p rig)
            ((lane.unreachable.get? (rigIdOf p rig)).getD 0 + 1) := by
        simp only [step, probed]
        split_ifs <;> simp
      rw [hset, Dict.get?_set]
      by_cases hrig : rigIdOf p rig = rigId
      · simp [verdictOn, hrig]
      · simp [verdictOn, hrig, Ne.symm hrig]
    | answered utilisation =>
      have hpop :
          (step p lane (.probe ⟨rig, .answered utilisation, observed, recorded⟩)).unreachable =
            lane.unreachable.pop (rigIdOf p rig) := by
        simp only [step, probed]
        split <;> simp
      rw [hpop, Dict.get?_pop]
      by_cases hrig : rigIdOf p rig = rigId
      · simp [verdictOn, hrig]
      · simp [verdictOn, hrig, Ne.symm hrig]

/-- What one event does to the rigs that are due early. -/
theorem earlyDue_step (lane : ExpressLane) (e : Event) (rigId : Str) :
    rigId ∈ (lane.step p e).earlyDue ↔
      (verdictOn p rigId e = some false ∧
        (lane.unreachable.get? rigId).getD 0 + 1 = unreachableTicks) ∨
      e ≠ .take ∧ rigId ∈ lane.earlyDue := by
  cases e with
  | take => simp [step, takeEarlyDue, verdictOn]
  | probe probe =>
    obtain ⟨rig, reply, observed, recorded⟩ := probe
    cases reply with
    | broken => simp [step, probed, verdictOn]
    | failed e =>
      simp only [step, probed, verdictOn]
      split_ifs with hcount hrig hrig
      · simp [← hrig, hcount]
      · simp [Ne.symm hrig]
      · simp [← hrig, hcount]
      · simp
    | answered utilisation =>
      simp only [step, probed, verdictOn]
      split <;> simp

/-- What one event does to the ledger. -/
theorem ledger_step (lane : ExpressLane) (e : Event) :
    (lane.step p e).ledger = (observationOf p e).elim lane.ledger lane.ledger.observe := by
  cases e with
  | take => rfl
  | probe probe =>
    obtain ⟨rig, reply, observed, recorded⟩ := probe
    cases reply with
    | broken => rfl
    | failed e =>
      simp only [step, probed, observationOf, Option.elim_some]
      split_ifs <;> simp
    | answered utilisation =>
      simp only [step, probed, observationOf, Option.elim_some]
      split <;> simp

theorem signals_record (lane : ExpressLane) (rig : Dict Str Json) (kind detail : Str)
    (now : ℚ) : (lane.record p rig kind detail now).signals = push signalHistory lane.signals
      ⟨rigIdOf p rig, DeepPass.ownerOf p rig, kind, detail, now⟩ := by
  rw [record]

/-- The count that the lane keeps of a rig. -/
theorem Remembers.count {lane : ExpressLane} {history : List Event}
    (h : Remembers p lane history) (rigId : Str) :
    (lane.unreachable.get? rigId).getD 0 = streak p rigId history := by
  rw [h.unreachable]
  split_ifs with hzero
  · simp [hzero]
  · rfl

/-- What one event does to the signals: the failures counted so far decide whether there is one. -/
theorem Remembers.signals_step {lane : ExpressLane} {history : List Event}
    (h : Remembers p lane history) (e : Event) :
    (lane.step p e).signals =
      (signalOf p history e).elim lane.signals (push signalHistory lane.signals) := by
  cases e with
  | take => rfl
  | probe probe =>
    obtain ⟨rig, reply, observed, recorded⟩ := probe
    cases reply with
    | broken => rfl
    | failed e =>
      simp only [step, probed, signalOf, h.count]
      split_ifs
      · rw [signals_record, Option.elim_some]
      · rfl
    | answered utilisation =>
      simp only [step, probed, signalOf]
      split
      · rw [signals_record, Option.elim_some]
      · rfl
      · rfl

/-- One event more in the history and in the lane. -/
theorem Remembers.step {lane : ExpressLane} {history : List Event}
    (h : Remembers p lane history) (e : Event) :
    Remembers p (lane.step p e) (history ++ [e]) where
  unreachable rigId := by
    rw [unreachable_step, streak_concat, h.unreachable]
    rcases verdictOn p rigId e with _ | _ | _
    · rfl
    · split_ifs with hzero <;> simp_all
    · rfl
  earlyDue rigId := by
    rw [earlyDue_step, dueEarly_concat, Reaches, h.count, h.earlyDue]
  signals := by
    rw [h.signals_step, signalsFrom_concat, List.nil_append, h.signals]
    cases signalOf p history e with
    | none => simp
    | some signal => rw [Option.elim_some, Option.toList_some, push_newest]
  ledger := by
    rw [ledger_step, h.ledger, List.filterMap_append]
    cases hobs : observationOf p e <;> simp [Reliability.Ledger.after, hobs]

/-- **The memory of the lane is its history.** After every sequence of probes (answered, failed or
broken off, of any rigs) and of moments at which the rigs that are due early are taken: the count of
a rig is the number of probes that failed since it last answered; it is due early if and only if,
since the last taking, a probe of it was the third in a row that failed; the signals are the newest
five hundred, one for each of these probes and for each answer whose utilisation does not fit the
jobs; and the ledger has seen every probe that was not broken off. -/
theorem after_eq (p : Printer) (history : List Event) :
    (∀ rigId, (after p history).unreachable.get? rigId =
      if streak p rigId history = 0 then none else some (streak p rigId history)) ∧
    (∀ rigId, rigId ∈ (after p history).earlyDue ↔ DueEarly p rigId history) ∧
    (after p history).signals = newest signalHistory (signalsFrom p [] history) ∧
    (after p history).ledger =
      Reliability.Ledger.after (history.filterMap (observationOf p)) := by
  have h : Remembers p (after p history) history := by
    induction history using List.reverseRecOn with
    | nil => exact remembers_nil
    | append_singleton history e ih =>
      have hafter : after p (history ++ [e]) = (after p history).step p e := by simp [after]
      rw [hafter]
      exact ih.step e
  exact ⟨h.unreachable, h.earlyDue, h.signals, h.ledger⟩

/-- **An outage is handed over once.** When a rig is taken as due early twice, it has answered a
probe between the third failure that made it due the first time and the second taking. -/
theorem handed_over {p : Printer} {rigId : Str} {first second : List Event}
    (hfirst : rigId ∈ (after p first).earlyDue)
    (hsecond : rigId ∈ (after p (first ++ .take :: second)).earlyDue) :
    ∃ pre e post, first = pre ++ e :: post ∧ Reaches p rigId pre e ∧
      true ∈ attempts p rigId (post ++ second) := by
  obtain ⟨pre, e, post, rfl, -, he⟩ := ((after_eq p _).2.1 rigId).mp hfirst
  obtain ⟨pre', f, post', heq, hpost', hf⟩ := ((after_eq p _).2.1 rigId).mp hsecond
  have hne : f ≠ .take := by
    rintro rfl
    simp [Reaches, verdictOn] at hf
  -- the second time the number is made up after the first taking
  obtain ⟨b, rfl, hpre'⟩ : ∃ b, second = b ++ f :: post' ∧
      pre' = pre ++ e :: post ++ .take :: b := by
    rcases List.append_eq_append_iff.mp heq with ⟨c, hpre', hc⟩ | ⟨c, -, hc⟩
    · cases c with
      | nil => exact absurd (List.cons_eq_cons.mp hc).1.symm hne
      | cons g b =>
        obtain ⟨rfl, hsecond⟩ := List.cons_eq_cons.mp hc
        exact ⟨b, hsecond, hpre'⟩
    · cases c with
      | nil => exact absurd (List.cons_eq_cons.mp hc).1 hne
      | cons g c =>
        obtain ⟨-, rfl⟩ := List.cons_eq_cons.mp hc
        simp at hpost'
  refine ⟨pre, e, post, rfl, he, ?_⟩
  by_contra hnone
  have hlater : true ∉ attempts p rigId (post ++ .take :: b) := by
    intro hmem
    refine hnone ?_
    simp only [attempts, List.mem_filterMap, List.mem_append, List.mem_cons] at hmem ⊢
    obtain ⟨g, (hg | rfl | hg), hverdict⟩ := hmem
    · exact ⟨g, .inl hg, hverdict⟩
    · simp [verdictOn] at hverdict
    · exact ⟨g, .inr (.inl hg), hverdict⟩
  have hsplit : pre ++ e :: post ++ .take :: b = (pre ++ [e]) ++ (post ++ .take :: b) := by simp
  have hstreak := hf.2
  rw [hpre', hsplit, streak_append hlater, streak_concat, he.1] at hstreak
  have hreach := he.2
  simp only at hstreak
  omega

/-- Three probes of a rig that fail. -/
def outage : List Event :=
  .replicate 3 (.probe ⟨[("id".toList, .str "r1".toList)],
    .failed { kind := .sshTransport, detail := "no answer".toList }, 0, 0⟩)

/-- A probe of the rig that is answered. -/
def recovery : Event :=
  .probe ⟨[("id".toList, .str "r1".toList)], .answered [], 0, 0⟩

theorem handed_over_twice : ∃ pre e post, outage = pre ++ e :: post ∧
    Reaches Json.asciiPrinter "r1".toList pre e ∧
    true ∈ attempts Json.asciiPrinter "r1".toList (post ++ (recovery :: outage)) :=
  handed_over (by decide +kernel) (by decide +kernel)

end ExpressLane

end ComputePool.Validator
