import ComputePool.Foundations.Transition
import ComputePool.Agent.Control.Queue

/-!
# The writer task of the control socket

`ControlSocket._writer` and the sessions of `agent/control/socket.py` as a transition system.
One session at a time owns a writer task; the task takes a message out of the queue, stamps it
and awaits `socket.send`. That await ends in one of four ways: the send returns, the send raises
an `Exception` (the message is put back and the task ends), or the task is cancelled, by a
teardown after a sibling task failed or by the shutdown of the agent. `CancelledError` is not an
`Exception`, so the handler that puts the message back does not run for a cancellation.

Producers put messages at any moment. `everPut` and `delivered` are the history of the run:
the messages put so far, and those passed to a `socket.send` that returned normally.

* `Accounted`: every result and event ever put is queued, in the hands of a live writer, or
  delivered.
* `preciousOf_everPut`: what a run puts is what is accounted for plus what it abandoned.
* `accounted_iff_no_precious_cancel`: the runs that keep every result and event are the runs
  that never cancel a writer while it is sending one.
-/

namespace ComputePool.Agent

open Message Transition

/-- Where the writer task of the current session stands. -/
inductive WriterTask (β : Type*)
  /-- There is no writer task. -/
  | absent
  /-- About to look at the queue: freshly created, or back at the top of its loop. -/
  | running
  /-- Waiting for the event of the empty queue. -/
  | waiting
  /-- Awaiting `socket.send` of the message it took. -/
  | sending (m : Message β)
  deriving Repr

/-- The message in the hands of the writer, if any. -/
def WriterTask.inHand {β : Type*} : WriterTask β → List (Message β)
  | .sending m => [m]
  | _ => []

/-- The control socket: its queue and writer task, and the history of the run. -/
structure ControlSocket (β : Type*) where
  queue : OutboundQueue β
  writer : WriterTask β := .absent
  everPut : List (Message β) := []
  delivered : List (Message β) := []
  /-- Messages whose send was ended by a cancellation. -/
  abandoned : List (Message β) := []
  deriving Repr

/-- One step of the agent, as far as the outbound queue is concerned. -/
inductive SocketAction (β : Type*)
  /-- A producer calls `put`. -/
  | put (m : Message β) (front : Bool) (now : ℚ)
  /-- A session is established and creates its writer task. -/
  | openSession
  /-- The writer finds a message, takes it, stamps it and starts sending it. -/
  | take (now : ℚ)
  /-- The writer finds the queue empty and waits. -/
  | block
  /-- The event is set and the writer goes back to the top of its loop. -/
  | wake
  /-- `socket.send` returns. -/
  | sendReturns
  /-- `socket.send` raises: the message is requeued and the task ends with the exception. -/
  | sendRaises
  /-- The teardown of the session cancels the writer task wherever it is. -/
  | cancelWriter
  deriving Repr

namespace ControlSocket

variable {β : Type*}

/-- A control socket that has put nothing yet. -/
def init (maxDepth : ℕ) : ControlSocket β :=
  { queue := { maxDepth } }

/-- The effect of one action; `none` when the action cannot happen in this state. -/
def step (s : ControlSocket β) : SocketAction β → Option (ControlSocket β)
  | .put m front now =>
    some { s with queue := s.queue.put m front now, everPut := s.everPut ++ [m] }
  | .openSession =>
    match s.writer with
    | .absent => some { s with writer := .running }
    | _ => none
  | .take now =>
    match s.writer, s.queue.popLeft with
    | .running, (some m, q) => some { s with queue := q, writer := .sending (q.stamp m now) }
    | _, _ => none
  | .block =>
    match s.writer, s.queue.popLeft with
    | .running, (none, q) => some { s with queue := q, writer := .waiting }
    | _, _ => none
  | .wake =>
    match s.writer with
    | .waiting => if s.queue.ready then some { s with writer := .running } else none
    | _ => none
  | .sendReturns =>
    match s.writer with
    | .sending m => some { s with writer := .running, delivered := s.delivered ++ [m] }
    | _ => none
  | .sendRaises =>
    match s.writer with
    | .sending m => some { s with queue := s.queue.requeue m, writer := .absent }
    | _ => none
  | .cancelWriter =>
    match s.writer with
    | .absent => none
    | .running | .waiting => some { s with writer := .absent }
    -- `except Exception` does not see the `CancelledError`: nothing puts the message back
    | .sending m => some { s with writer := .absent, abandoned := s.abandoned ++ [m] }

/-- Every result and event ever put is in the queue, in the hands of the live writer, or was
passed to a `socket.send` that returned normally. -/
def Accounted (s : ControlSocket β) : Prop :=
  preciousOf s.everPut ≤
    preciousOf s.queue.items + preciousOf s.writer.inHand + preciousOf s.delivered

instance [DecidableEq β] (s : ControlSocket β) : Decidable s.Accounted :=
  inferInstanceAs (Decidable (_ ≤ _))

/-- The action does not cancel a writer that is sending a result or an event. -/
def SparesPrecious (s : ControlSocket β) : SocketAction β → Prop
  | .cancelWriter => ∀ m ∈ s.writer.inHand, m.type.precious = false
  | _ => True

/-! ## Conservation -/

/-- The bookkeeping of precious messages: put = queued + in hand + delivered + abandoned. -/
def Balanced (s : ControlSocket β) : Prop :=
  preciousOf s.everPut =
    preciousOf s.queue.items + preciousOf s.writer.inHand + preciousOf s.delivered +
      preciousOf s.abandoned

theorem balanced_init (maxDepth : ℕ) : (init maxDepth : ControlSocket β).Balanced := by
  simp [Balanced, init, WriterTask.inHand]

namespace Balanced

variable {s : ControlSocket β} {m : Message β}

/-- A message that is put is in the queue, or was dropped as not precious. -/
theorem put (hs : s.Balanced) (front : Bool) (now : ℚ) :
    Balanced { s with queue := s.queue.put m front now, everPut := s.everPut ++ [m] } := by
  unfold Balanced at hs ⊢
  simp only [preciousOf_append, OutboundQueue.preciousOf_put, hs]
  ac_rfl

/-- A writer with nothing in hand may start, wait, go on or end. -/
theorem withWriter (hs : s.Balanced) {writer : WriterTask β} (hbefore : s.writer.inHand = [])
    (hafter : writer.inHand = []) : Balanced { s with writer } := by
  unfold Balanced at hs ⊢
  rwa [hafter, ← hbefore]

/-- A message that is taken from the queue is in hand; stamping it does not change its kind. -/
theorem take (hs : s.Balanced) {q : OutboundQueue β} (hw : s.writer = .running)
    (hpop : s.queue.popLeft = (some m, q)) (now : ℚ) :
    Balanced { s with queue := q, writer := .sending (q.stamp m now) } := by
  have hq := s.queue.preciousOf_popLeft
  have hm : preciousOf [q.stamp m now] = preciousOf [m] := preciousOf_singleton_congr rfl
  simp only [hpop, Option.toList_some] at hq
  unfold Balanced at hs ⊢
  simp only [hw, WriterTask.inHand, preciousOf_nil, add_zero, hm] at hs ⊢
  rw [hs, ← hq]
  ac_rfl

/-- An empty queue gives nothing. -/
theorem block (hs : s.Balanced) {q : OutboundQueue β} (hw : s.writer = .running)
    (hpop : s.queue.popLeft = (none, q)) : Balanced { s with queue := q, writer := .waiting } := by
  have hq := s.queue.preciousOf_popLeft
  simp only [hpop, Option.toList_none, preciousOf_nil, zero_add] at hq
  unfold Balanced at hs ⊢
  simpa [hw, WriterTask.inHand, hq] using hs

/-- A message that was sent is out of hand. -/
theorem sendReturns (hs : s.Balanced) (hw : s.writer = .sending m) :
    Balanced { s with writer := .running, delivered := s.delivered ++ [m] } := by
  unfold Balanced at hs ⊢
  simp only [hw, WriterTask.inHand, preciousOf_append, preciousOf_nil] at hs ⊢
  rw [hs]
  ac_rfl

/-- A message that could not be sent goes back to the queue. -/
theorem sendRaises (hs : s.Balanced) (hw : s.writer = .sending m) :
    Balanced { s with queue := s.queue.requeue m, writer := .absent } := by
  unfold Balanced at hs ⊢
  simp only [hw, WriterTask.inHand, OutboundQueue.preciousOf_requeue, preciousOf_nil] at hs ⊢
  rw [hs]
  ac_rfl

/-- A cancelled writer abandons what it has in hand. -/
theorem abandon (hs : s.Balanced) (hw : s.writer = .sending m) :
    Balanced { s with writer := .absent, abandoned := s.abandoned ++ [m] } := by
  unfold Balanced at hs ⊢
  simp only [hw, WriterTask.inHand, preciousOf_append, preciousOf_nil] at hs ⊢
  rw [hs]
  ac_rfl

end Balanced

/-- Every step keeps the books balanced. -/
theorem balanced_step (s : ControlSocket β) (a : SocketAction β) (t : ControlSocket β)
    (hs : s.Balanced) (h : s.step a = some t) : t.Balanced := by
  cases a with
  | put m front now => exact Option.some.inj h ▸ hs.put front now
  | openSession =>
    simp only [step] at h
    split at h
    · next hw => exact Option.some.inj h ▸ hs.withWriter (by rw [hw]; rfl) rfl
    · cases h
  | take now =>
    simp only [step] at h
    split at h
    · next m q hw hpop => exact Option.some.inj h ▸ hs.take hw hpop now
    · cases h
  | block =>
    simp only [step] at h
    split at h
    · next q hw hpop => exact Option.some.inj h ▸ hs.block hw hpop
    · cases h
  | wake =>
    simp only [step] at h
    split at h
    · next hw =>
      split_ifs at h
      exact Option.some.inj h ▸ hs.withWriter (by rw [hw]; rfl) rfl
    · cases h
  | sendReturns =>
    simp only [step] at h
    split at h
    · next m hw => exact Option.some.inj h ▸ hs.sendReturns hw
    · cases h
  | sendRaises =>
    simp only [step] at h
    split at h
    · next m hw => exact Option.some.inj h ▸ hs.sendRaises hw
    · cases h
  -- a writer that is not sending has nothing to abandon
  | cancelWriter =>
    simp only [step] at h
    split at h
    · cases h
    · next hw => exact Option.some.inj h ▸ hs.withWriter (by rw [hw]; rfl) rfl
    · next hw => exact Option.some.inj h ▸ hs.withWriter (by rw [hw]; rfl) rfl
    · next m hw => exact Option.some.inj h ▸ hs.abandon hw

/-- In every run, what was put is what is accounted for plus what was abandoned. -/
theorem preciousOf_everPut {maxDepth : ℕ} {as : List (SocketAction β)} {s : ControlSocket β}
    (h : exec step (init maxDepth) as = some s) : s.Balanced :=
  exec_invariant' balanced_step (balanced_init maxDepth) h

/-- With the books balanced, nothing is missing exactly when nothing precious was abandoned. -/
theorem accounted_iff_abandoned {s : ControlSocket β} (hs : s.Balanced) :
    s.Accounted ↔ preciousOf s.abandoned = 0 := by
  unfold Accounted
  rw [show preciousOf s.everPut = _ from hs]
  constructor
  · intro hle
    exact le_antisymm (by simpa using hle) (Multiset.zero_le _)
  · intro hzero
    rw [hzero, add_zero]

/-! ## Which runs lose a message -/

/-- What an action abandons: the message in hand, if the action cancels the writer. -/
def abandons (s : ControlSocket β) : SocketAction β → List (Message β)
  | .cancelWriter => s.writer.inHand
  | _ => []

/-- What is abandoned in a step is added to what was abandoned before. -/
theorem abandoned_step {s t : ControlSocket β} {a : SocketAction β} (h : s.step a = some t) :
    t.abandoned = s.abandoned ++ s.abandons a := by
  cases a with
  | put | openSession | take | block | wake | sendReturns | sendRaises =>
    simp only [step] at h
    repeat' split at h
    all_goals first | (obtain rfl := Option.some.inj h; simp [abandons]) | cases h
  | cancelWriter =>
    simp only [step] at h
    split at h
    · cases h
    all_goals
      next hw => obtain rfl := Option.some.inj h; simp [abandons, hw, WriterTask.inHand]

theorem sparesPrecious_iff {s : ControlSocket β} {a : SocketAction β} :
    s.SparesPrecious a ↔ preciousOf (s.abandons a) = 0 := by
  cases a <;> simp [SparesPrecious, abandons, preciousOf_eq_zero_iff]

/-- A run never takes back what was abandoned before it. -/
theorem preciousOf_abandoned_le {s u : ControlSocket β} {as : List (SocketAction β)}
    (h : exec step s as = some u) : preciousOf s.abandoned ≤ preciousOf u.abandoned := by
  refine exec_invariant' (I := fun v => preciousOf s.abandoned ≤ preciousOf v.abandoned) ?_
    le_rfl h
  intro v a w hv hvw
  rw [abandoned_step hvw, preciousOf_append]
  exact hv.trans (Multiset.le_add_right _ _)

/-- A run abandons nothing precious exactly when each of its steps spares the results and events
being sent. -/
theorem abandoned_run_iff {s u : ControlSocket β} {as : List (SocketAction β)}
    (h : exec step s as = some u) (hs : preciousOf s.abandoned = 0) :
    preciousOf u.abandoned = 0 ↔ Meets step SparesPrecious s as := by
  induction as generalizing s with
  | nil =>
    obtain rfl := Option.some.inj h
    simp [Meets, hs]
  | cons a as ih =>
    obtain ⟨t, hst, htu⟩ := exec_cons_eq_some h
    -- a step loses nothing exactly if it spares what is precious
    have ht : preciousOf t.abandoned = 0 ↔ s.SparesPrecious a := by
      rw [abandoned_step hst, preciousOf_append, hs, zero_add, sparesPrecious_iff]
    constructor
    -- and what was lost stays lost
    · intro hu
      have hzero : preciousOf t.abandoned = 0 :=
        le_antisymm (hu ▸ preciousOf_abandoned_le htu) (Multiset.zero_le _)
      refine ⟨ht.mp hzero, fun t' ht' => ?_⟩
      obtain rfl : t = t' := Option.some.inj (hst.symm.trans ht')
      exact (ih htu hzero).mp hu
    · rintro ⟨hok, hrest⟩
      exact (ih htu (ht.mpr hok)).mpr (hrest t hst)

/-- A run loses no result and no event, at any moment, exactly when it never cancels the writer
while a result or an event is being sent. -/
theorem accounted_iff_no_precious_cancel (maxDepth : ℕ) (as : List (SocketAction β))
    (u : ControlSocket β) (h : exec step (init maxDepth) as = some u) :
    (∀ bs, bs <+: as → ∀ s, exec step (init maxDepth) bs = some s → s.Accounted) ↔
      Meets step SparesPrecious (init maxDepth) as := by
  have hzero : preciousOf (init maxDepth : ControlSocket β).abandoned = 0 := rfl
  constructor
  · intro hall
    have hu := hall as List.prefix_rfl u h
    exact (abandoned_run_iff h hzero).mp
      ((accounted_iff_abandoned (preciousOf_everPut h)).mp hu)
  · intro hmeets bs hbs s hs
    rw [accounted_iff_abandoned (preciousOf_everPut hs)]
    have hend := (abandoned_run_iff h hzero).mpr hmeets
    -- what a prefix abandons is still abandoned at the end of the run
    obtain ⟨cs, rfl⟩ := hbs
    rw [exec_append, hs, Option.bind_some] at h
    exact le_antisymm (hend ▸ preciousOf_abandoned_le h) (Multiset.zero_le _)

/-- A result is put, sent and delivered, and the writer is cancelled while it waits for more:
nothing is missing at any moment. -/
theorem accounted_iff_no_precious_cancel_delivered :
    Meets step SparesPrecious (init 4) [.put ({ type := .result, body := 7 } : Message ℕ) false 0,
      .openSession, .take 1, .sendReturns, .block, .cancelWriter] ∧
    ∀ bs : List (SocketAction ℕ),
      bs <+: [.put { type := .result, body := 7 } false 0, .openSession, .take 1, .sendReturns,
        .block, .cancelWriter] →
      ∀ s, exec step (init 4) bs = some s → s.Accounted := by
  have hmeets : Meets step SparesPrecious (init 4)
      [.put ({ type := .result, body := 7 } : Message ℕ) false 0, .openSession, .take 1,
        .sendReturns, .block, .cancelWriter] := by
    simp [Meets, SparesPrecious, step, init, OutboundQueue.put, OutboundQueue.popLeft,
      OutboundQueue.enter, OutboundQueue.depth, WriterTask.inHand]
  exact ⟨hmeets, (accounted_iff_no_precious_cancel 4 _ _ rfl).mpr hmeets⟩

/-- The reader fails while the writer awaits the send of a result: the teardown cancels the
writer and the result is nowhere any more. -/
theorem cancelled_send_loses_result :
    ¬ ∀ (as : List (SocketAction ℕ)) (s : ControlSocket ℕ),
      exec step (init 2000) as = some s → s.Accounted := by
  intro hall
  have h := hall [.put { type := .result, body := 7 } false 0, .openSession, .take 1,
    .cancelWriter] _ rfl
  revert h
  decide

end ControlSocket

end ComputePool.Agent
