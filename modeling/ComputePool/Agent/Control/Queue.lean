import Mathlib.Algebra.Order.Ring.Rat
import Mathlib.Algebra.Order.Group.Multiset

/-!
# The outbound queue of the agent

`OutboundQueue` of `agent/control/queue.py`: the messages the agent has for the pool server,
bounded by `max_depth`. State and ping messages are droppable and make room for newer ones;
results and events are precious and enter a full queue.

The lock of the source makes `put`, `requeue` and the removal inside `get` atomic, so each is
one function on the queue here. `ready` is the `asyncio.Event` that `get` waits on.
-/

namespace ComputePool.Agent

/-- The message types the agent sends (`AgentMessage` of `protocol/messages.py`). -/
inductive AgentMessage
  | hello
  | ping
  | state
  | result
  | event
  deriving DecidableEq, Repr

namespace AgentMessage

/-- Membership in `DROPPABLE`. -/
def droppable : AgentMessage → Bool
  | state | ping => true
  | _ => false

/-- Membership in `PRECIOUS`. -/
def precious : AgentMessage → Bool
  | result | event => true
  | _ => false

theorem precious_eq_false_of_droppable {t : AgentMessage} (h : t.droppable) :
    t.precious = false := by
  cases t <;> simp_all [droppable, precious]

end AgentMessage

/-- A queued message: its type, the rest of its payload, and the three fields the queue fills
in. -/
structure Message (β : Type*) where
  type : AgentMessage
  body : β
  sentAt : Option ℚ := none
  queueDepth : Option ℕ := none
  forwardedAt : Option ℚ := none
  deriving DecidableEq, Repr

namespace Message

variable {β : Type*}

/-- What a message says, without the stamps. -/
def content (m : Message β) : AgentMessage × β :=
  (m.type, m.body)

/-- `message.setdefault("sent_at", stamp())`. -/
def setDefaultSentAt (m : Message β) (now : ℚ) : Message β :=
  { m with sentAt := some (m.sentAt.getD now) }

@[simp]
theorem type_setDefaultSentAt (m : Message β) (now : ℚ) :
    (m.setDefaultSentAt now).type = m.type := rfl

@[simp]
theorem content_setDefaultSentAt (m : Message β) (now : ℚ) :
    (m.setDefaultSentAt now).content = m.content := rfl

/-- The precious messages of a list, as a multiset of contents. -/
def preciousOf (ms : List (Message β)) : Multiset (AgentMessage × β) :=
  ((ms.filter (·.type.precious)).map content : List (AgentMessage × β))

@[simp]
theorem preciousOf_nil : preciousOf ([] : List (Message β)) = 0 := rfl

@[simp]
theorem preciousOf_append (ms ns : List (Message β)) :
    preciousOf (ms ++ ns) = preciousOf ms + preciousOf ns := by
  simp [preciousOf, ← Multiset.coe_add]

theorem preciousOf_cons (m : Message β) (ms : List (Message β)) :
    preciousOf (m :: ms) = preciousOf [m] + preciousOf ms := by
  rw [← preciousOf_append, List.singleton_append]

theorem preciousOf_singleton_of_not_precious {m : Message β} (h : m.type.precious = false) :
    preciousOf [m] = 0 := by
  simp [preciousOf, h]

/-- Whether a message is precious, and its content, survive any stamping. -/
theorem preciousOf_singleton_congr {m n : Message β} (h : m.content = n.content) :
    preciousOf [m] = preciousOf [n] := by
  have htype : m.type = n.type := congrArg Prod.fst h
  by_cases hp : n.type.precious <;> simp [preciousOf, htype, hp, h]

/-- A list has no precious message exactly when its precious multiset is empty. -/
theorem preciousOf_eq_zero_iff {ms : List (Message β)} :
    preciousOf ms = 0 ↔ ∀ m ∈ ms, m.type.precious = false := by
  simp [preciousOf, List.filter_eq_nil_iff]

end Message

/-- The queue: its bound, the messages from front to back, the wake-up event and the number of
messages dropped so far. -/
structure OutboundQueue (β : Type*) where
  maxDepth : ℕ
  items : List (Message β) := []
  ready : Bool := false
  dropped : ℕ := 0
  deriving Repr

namespace OutboundQueue

variable {β : Type*}

open Message

/-- `depth`. -/
def depth (q : OutboundQueue β) : ℕ :=
  q.items.length

/-- `_drop_oldest_droppable`: remove the frontmost droppable message, if there is one. -/
def dropOldestDroppable (q : OutboundQueue β) : Bool × OutboundQueue β :=
  match q.items.findIdx? (·.type.droppable) with
  | some position =>
    (true, { q with items := q.items.eraseIdx position, dropped := q.dropped + 1 })
  | none => (false, q)

/-- The end of `put`: append on the requested side and wake the reader. -/
def enter (q : OutboundQueue β) (m : Message β) (front : Bool) : OutboundQueue β :=
  { q with items := if front then m :: q.items else q.items ++ [m], ready := true }

/-- `put` at time `now`. -/
def put (q : OutboundQueue β) (m : Message β) (front : Bool) (now : ℚ) : OutboundQueue β :=
  let stamped := m.setDefaultSentAt now
  if q.maxDepth ≤ q.depth ∧ m.type.precious = false then
    let (found, q') := q.dropOldestDroppable
    -- the drop is not undone when the queue is still full after it
    if found = false ∨ q'.maxDepth ≤ q'.depth then { q' with dropped := q'.dropped + 1 }
    else q'.enter stamped front
  else if q.maxDepth ≤ q.depth then q.dropOldestDroppable.2.enter stamped front
  else q.enter stamped front

/-- `requeue`: back to the front, whatever the depth. -/
def requeue (q : OutboundQueue β) (m : Message β) : OutboundQueue β :=
  { q with items := m :: q.items, ready := true }

/-- The locked part of `get`: the front message and the rest of the queue, or `none` with the
event cleared when there is nothing to take. -/
def popLeft (q : OutboundQueue β) : Option (Message β) × OutboundQueue β :=
  match q.items with
  | m :: rest => (some m, { q with items := rest })
  | [] => (none, { q with ready := false })

/-- `stamp` at time `now`, run after the message has left the queue. -/
def stamp (q : OutboundQueue β) (m : Message β) (now : ℚ) : Message β :=
  { m with queueDepth := some q.depth, forwardedAt := some now }

@[simp]
theorem content_stamp (q : OutboundQueue β) (m : Message β) (now : ℚ) :
    (q.stamp m now).content = m.content := rfl

/-! ## Precious messages are never dropped -/

/-- Dropping a droppable message leaves every precious one in place. -/
@[simp]
theorem preciousOf_dropOldestDroppable (q : OutboundQueue β) :
    preciousOf q.dropOldestDroppable.2.items = preciousOf q.items := by
  unfold dropOldestDroppable
  split
  · next position h =>
    obtain ⟨hlt, hdrop, -⟩ := List.findIdx?_eq_some_iff_getElem.mp h
    have hsplit := List.take_append_drop position q.items
    have hcons := List.drop_eq_getElem_cons hlt
    have hzero : preciousOf [q.items[position]] = 0 :=
      preciousOf_singleton_of_not_precious (AgentMessage.precious_eq_false_of_droppable hdrop)
    rw [hcons] at hsplit
    calc preciousOf (q.items.eraseIdx position)
        = preciousOf (q.items.take position) + preciousOf (q.items.drop (position + 1)) := by
          rw [List.eraseIdx_eq_take_drop_succ, preciousOf_append]
      _ = preciousOf (q.items.take position ++
            q.items[position] :: q.items.drop (position + 1)) := by
          rw [preciousOf_append, preciousOf_cons, hzero, zero_add]
      _ = preciousOf q.items := by rw [hsplit]
  · rfl

/-- A message enters the queue, and what is precious in it with it. -/
theorem preciousOf_enter (q : OutboundQueue β) (m : Message β) (front : Bool) :
    preciousOf (q.enter m front).items = preciousOf [m] + preciousOf q.items := by
  cases front with
  | false =>
    simp only [enter, Bool.false_eq_true, ↓reduceIte, preciousOf_append]
    exact add_comm _ _
  | true => simp only [enter, ↓reduceIte]; exact preciousOf_cons _ _

/-- `put` adds a precious message to the queue and removes none. -/
theorem preciousOf_put (q : OutboundQueue β) (m : Message β) (front : Bool) (now : ℚ) :
    preciousOf (q.put m front now).items = preciousOf [m] + preciousOf q.items := by
  have hm : preciousOf [m.setDefaultSentAt now] = preciousOf [m] :=
    preciousOf_singleton_congr (by simp)
  simp only [put]
  split_ifs with hfull
  · have hzero : preciousOf [m] = 0 := preciousOf_singleton_of_not_precious hfull.2
    rw [hzero, zero_add]
    exact preciousOf_dropOldestDroppable q
  · rw [preciousOf_enter, hm, preciousOf_dropOldestDroppable]
  · rw [preciousOf_enter, hm, preciousOf_dropOldestDroppable]
  · rw [preciousOf_enter, hm]

theorem preciousOf_requeue (q : OutboundQueue β) (m : Message β) :
    preciousOf (q.requeue m).items = preciousOf [m] + preciousOf q.items :=
  preciousOf_cons _ _

/-- Taking a message moves it out of the queue and changes nothing else. -/
theorem preciousOf_popLeft (q : OutboundQueue β) :
    preciousOf q.popLeft.1.toList + preciousOf q.popLeft.2.items = preciousOf q.items := by
  unfold popLeft
  split
  · next m rest h => rw [h]; exact (preciousOf_cons m rest).symm
  · next h => simp [h]

end OutboundQueue

end ComputePool.Agent
