import Mathlib.Tactic.Abel
import ComputePool.Foundations.Transition
import ComputePool.Agent.Control.Queue

/-!
# What passes through the outbound queue

`put`, `get` and `requeue` of `OutboundQueue` in any order, with at most one message taken and not
yet sent or put back. `Traffic` keeps the history beside the queue. Every message carries a tag, its
number and the side it was put at; the queue never looks at the body of a message, so the tags are
only there to tell messages apart.

* `OutboundQueue.put_cases` is all that a `put` can do: it drops none, one or two messages.
* `Bounded`, `Balanced` and `Ordered` are the invariants, and `traffic_accounted` collects what they
  say about every run.
-/

namespace ComputePool.Agent

open Message Transition

/-- Apart from the greeting, which is never queued, a message is droppable or precious. -/
theorem AgentMessage.precious_of_not_droppable {t : AgentMessage} (hello : t ≠ .hello)
    (h : t.droppable = false) : t.precious = true := by
  cases t <;> simp_all [droppable, precious]

namespace OutboundQueue

variable {β : Type*}

/-! ## What a `put` does -/

/-- `_drop_oldest_droppable` removes one droppable message, or finds none. -/
theorem dropOldestDroppable_cases (q : OutboundQueue β) :
    (∃ l d r, q.items = l ++ d :: r ∧ d.type.droppable = true ∧
      q.dropOldestDroppable = (true, { q with items := l ++ r, dropped := q.dropped + 1 })) ∨
    ((∀ m ∈ q.items, m.type.droppable = false) ∧ q.dropOldestDroppable = (false, q)) := by
  unfold dropOldestDroppable
  split
  · rename_i position h
    obtain ⟨hlt, hdrop, -⟩ := List.findIdx?_eq_some_iff_getElem.mp h
    refine Or.inl ⟨q.items.take position, q.items[position], q.items.drop (position + 1), ?_, hdrop,
      by rw [List.eraseIdx_eq_take_drop_succ]⟩
    rw [← List.drop_eq_getElem_cons hlt, List.take_append_drop]
  · rename_i h
    refine Or.inr ⟨fun m hm => ?_, rfl⟩
    simpa using List.findIdx?_eq_none_iff.mp h m hm

/-- All that a `put` can do. -/
inductive PutOutcome (q : OutboundQueue β) (m : Message β) (front : Bool) :
    OutboundQueue β → Prop
  /-- There is room, or the message is precious and there is nothing to drop. -/
  | entered (h : q.depth < q.maxDepth ∨
      m.type.precious = true ∧ ∀ n ∈ q.items, n.type.droppable = false) :
    PutOutcome q m front (q.enter m front)
  /-- A droppable message makes room. -/
  | replaced (l : List (Message β)) (d : Message β) (r : List (Message β))
      (hitems : q.items = l ++ d :: r) (hdrop : d.type.droppable = true)
      (hfull : q.maxDepth ≤ q.depth) :
    PutOutcome q m front
      (enter { q with items := l ++ r, dropped := q.dropped + 1 } m front)
  /-- The message is dropped: there is nothing else to drop. -/
  | refused (hm : m.type.precious = false) :
    PutOutcome q m front { q with dropped := q.dropped + 1 }
  /-- One message is dropped, the queue is still too long, and the new message is dropped too. -/
  | refusedAlso (l : List (Message β)) (d : Message β) (r : List (Message β))
      (hitems : q.items = l ++ d :: r) (hdrop : d.type.droppable = true)
      (hm : m.type.precious = false) :
    PutOutcome q m front { q with items := l ++ r, dropped := q.dropped + 2 }

/-- What `put` can do, once and for all: the message enters, perhaps after one was dropped, or it is
dropped itself. -/
theorem put_outcome (q : OutboundQueue β) (m : Message β) (front : Bool) (now : ℚ) :
    PutOutcome q (m.setDefaultSentAt now) front (q.put m front now) := by
  rw [put]
  dsimp only
  by_cases hfull : q.maxDepth ≤ q.depth
  -- full: the oldest message that may be dropped makes room, if there is one
  · obtain ⟨l, d, r, hitems, hdrop, hresult⟩ | ⟨hnone, hresult⟩ := q.dropOldestDroppable_cases
    · rw [hresult]
      by_cases hm : m.type.precious = false
      · rw [if_pos ⟨hfull, hm⟩]
        dsimp only
        -- one drop is not enough when the queue was over its bound already
        by_cases hstill : q.maxDepth ≤
            depth { q with items := l ++ r, dropped := q.dropped + 1 }
        · rw [if_pos (Or.inr hstill)]
          exact .refusedAlso l d r hitems hdrop hm
        · rw [if_neg (by simpa using hstill)]
          exact .replaced l d r hitems hdrop hfull
      · rw [if_neg fun h => hm h.2, if_pos hfull]
        exact .replaced l d r hitems hdrop hfull
    · rw [hresult]
      by_cases hm : m.type.precious = false
      · rw [if_pos ⟨hfull, hm⟩]
        dsimp only
        rw [if_pos (Or.inl rfl)]
        exact .refused hm
      · rw [if_neg fun h => hm h.2, if_pos hfull]
        exact .entered (Or.inr ⟨by simpa using hm, hnone⟩)
  · rw [if_neg fun h => hfull h.1, if_neg hfull]
    exact .entered (Or.inl (not_le.mp hfull))

end OutboundQueue

/-! ## Histories -/

/-- The number of a message, and whether it was put at the front. -/
structure Tag where
  serial : ℕ
  front : Bool
  deriving DecidableEq, Repr

/-- A message with its tag. -/
abbrev Tagged (β : Type*) := Message (β × Tag)

namespace Tagged

variable {β : Type*}

/-- The number of a message. -/
def serial (m : Tagged β) : ℕ :=
  m.body.2.serial

/-- The message was put at the back. -/
def isBack (m : Tagged β) : Bool :=
  !m.body.2.front

end Tagged

/-- The queue with the message that is taken, and the messages put and delivered so far. -/
structure Traffic (β : Type*) where
  queue : OutboundQueue (β × Tag)
  taken : Option (Tagged β) := none
  everPut : List (Tagged β) := []
  delivered : List (Tagged β) := []
  deriving Repr

/-- The operations. -/
inductive TrafficAction (β : Type*)
  | put (m : Message β) (front : Bool) (now : ℚ)
  /-- `get`, with the stamp that the writer puts on the message. -/
  | get (now : ℚ)
  /-- The message that was taken is sent. -/
  | sent
  | requeue
  deriving Repr

namespace Traffic

variable {β : Type*}

/-- Nothing has been put. -/
def init (maxDepth : ℕ) : Traffic β where
  queue := { maxDepth }

/-- The message that the next `put` puts. -/
def tag (s : Traffic β) (m : Message β) (front : Bool) : Tagged β where
  type := m.type
  body := (m.body, ⟨s.everPut.length, front⟩)
  sentAt := m.sentAt
  queueDepth := m.queueDepth
  forwardedAt := m.forwardedAt

/-- One operation. The greeting is not queued, and only one message is taken at a time. -/
def step (s : Traffic β) : TrafficAction β → Option (Traffic β)
  | .put m front now =>
    if m.type = .hello then none
    else some { s with
      queue := s.queue.put (s.tag m front) front now, everPut := s.everPut ++ [s.tag m front] }
  | .get now =>
    match s.taken, s.queue.popLeft with
    | none, (some m, queue) => some { s with queue, taken := some (queue.stamp m now) }
    | _, _ => none
  | .sent => s.taken.map fun m => { s with taken := none, delivered := s.delivered ++ [m] }
  | .requeue => s.taken.map fun m => { s with taken := none, queue := s.queue.requeue m }

/-- All that one operation can do. -/
theorem step_cases {s t : Traffic β} {a : TrafficAction β} (h : s.step a = some t) :
    (∃ m front now, m.type ≠ .hello ∧ t = { s with
      queue := s.queue.put (s.tag m front) front now, everPut := s.everPut ++ [s.tag m front] }) ∨
    (∃ m rest now, s.taken = none ∧ s.queue.items = m :: rest ∧ t = { s with
      queue := { s.queue with items := rest }
      taken := some (OutboundQueue.stamp { s.queue with items := rest } m now) }) ∨
    (∃ m, s.taken = some m ∧ t = { s with taken := none, delivered := s.delivered ++ [m] }) ∨
    ∃ m, s.taken = some m ∧ t = { s with taken := none, queue := s.queue.requeue m } := by
  cases a with
  | put m front now =>
    rw [step] at h
    split_ifs at h with hello
    exact Or.inl ⟨m, front, now, hello, (Option.some.inj h).symm⟩
  | get now =>
    rw [step] at h
    split at h
    · rename_i m queue htaken hpop
      rw [OutboundQueue.popLeft] at hpop
      split at hpop
      · rename_i first rest hitems
        obtain ⟨rfl, rfl⟩ := by simpa using hpop
        exact Or.inr (Or.inl ⟨first, rest, now, htaken, hitems, (Option.some.inj h).symm⟩)
      · simp at hpop
    · cases h
  | sent =>
    obtain ⟨m, htaken, ht⟩ := Option.map_eq_some_iff.mp h
    exact Or.inr (Or.inr (Or.inl ⟨m, htaken, ht.symm⟩))
  | requeue =>
    obtain ⟨m, htaken, ht⟩ := Option.map_eq_some_iff.mp h
    exact Or.inr (Or.inr (Or.inr ⟨m, htaken, ht.symm⟩))

/-! ## The bound -/

/-- The number of results and events of a list. -/
def preciousCount (ms : List (Tagged β)) : ℕ :=
  ms.countP (·.type.precious)

/-- The queue with the taken message exceeds its bound by at most one. -/
structure Bounded (s : Traffic β) : Prop where
  queued : ∀ m ∈ s.queue.items, m.type ≠ .hello
  taken : ∀ m ∈ s.taken, m.type ≠ .hello
  depth : s.queue.depth + s.taken.toList.length ≤
    max s.queue.maxDepth (preciousCount s.queue.items + preciousCount s.taken.toList) + 1

theorem bounded_init (maxDepth : ℕ) : (init maxDepth : Traffic β).Bounded where
  queued := by simp [init]
  taken := by simp [init]
  depth := by simp [init, OutboundQueue.depth]

/-- The number of precious messages after one has entered. -/
theorem preciousCount_enter (q : OutboundQueue (β × Tag)) (m : Tagged β) (front : Bool) :
    preciousCount (q.enter m front).items =
      preciousCount q.items + if m.type.precious then 1 else 0 := by
  cases front with
  | false => simp [OutboundQueue.enter, preciousCount]
  | true => simp [OutboundQueue.enter, preciousCount, List.countP_cons]

/-- A message that enters makes the queue longer by one. -/
theorem depth_enter (q : OutboundQueue (β × Tag)) (m : Tagged β) (front : Bool) :
    (q.enter m front).depth = q.depth + 1 := by
  cases front with
  | false => simp [OutboundQueue.enter, OutboundQueue.depth]
  | true => simp [OutboundQueue.enter, OutboundQueue.depth]

/-- What is in the queue after a message has entered. -/
theorem mem_enter {q : OutboundQueue (β × Tag)} {m n : Tagged β} {front : Bool} :
    n ∈ (q.enter m front).items ↔ n = m ∨ n ∈ q.items := by
  cases front with
  | false => simp [OutboundQueue.enter, or_comm]
  | true => simp [OutboundQueue.enter]

/-- Dropping a droppable message leaves the count of the precious ones. -/
theorem preciousCount_drop {l r : List (Tagged β)} {d : Tagged β} (hdrop : d.type.droppable) :
    preciousCount (l ++ d :: r) = preciousCount (l ++ r) := by
  have hd : d.type.precious = false := AgentMessage.precious_eq_false_of_droppable hdrop
  simp [preciousCount, List.countP_append, hd]

/-- A put keeps the bound: a queue at its limit drops what can be dropped first. -/
theorem Bounded.put {s : Traffic β} (hs : s.Bounded) {m : Tagged β} (hello : m.type ≠ .hello)
    (front : Bool) {queue : OutboundQueue (β × Tag)}
    (h : OutboundQueue.PutOutcome s.queue m front queue) (everPut : List (Tagged β)) :
    Bounded { s with queue, everPut } := by
  -- at most one message is on its way
  have htaken : s.taken.toList.length ≤ 1 := by cases s.taken <;> simp
  have hdepth := hs.depth
  cases h with
  | entered hroom =>
    refine ⟨fun n hn => ?_, hs.taken, ?_⟩
    · rcases mem_enter.mp hn with rfl | hn
      · exact hello
      · exact hs.queued n hn
    · rw [depth_enter, preciousCount_enter]
      show s.queue.depth + 1 + s.taken.toList.length ≤ max s.queue.maxDepth
        (preciousCount s.queue.items + _ + preciousCount s.taken.toList) + 1
      rcases hroom with hroom | ⟨hm, hall⟩
      · omega
      · -- nothing can be dropped, so everything queued is precious
        have hcount : preciousCount s.queue.items = s.queue.depth := by
          refine List.countP_eq_length.mpr fun n hn => ?_
          exact AgentMessage.precious_of_not_droppable (hs.queued n hn) (hall n hn)
        rw [if_pos hm, hcount]
        omega
  | replaced l d r hitems hdrop hfull =>
    refine ⟨fun n hn => ?_, hs.taken, ?_⟩
    · rcases mem_enter.mp hn with rfl | hn
      · exact hello
      · refine hs.queued n ?_
        rw [hitems]
        simp only [List.mem_append, List.mem_cons] at hn ⊢
        tauto
    · rw [depth_enter, preciousCount_enter]
      have hlength : s.queue.depth = (l ++ r).length + 1 := by
        simp [OutboundQueue.depth, hitems, Nat.add_assoc]
      have hcount : preciousCount s.queue.items = preciousCount (l ++ r) := by
        rw [hitems, preciousCount_drop hdrop]
      show (l ++ r).length + 1 + s.taken.toList.length ≤ max s.queue.maxDepth
        (preciousCount (l ++ r) + _ + preciousCount s.taken.toList) + 1
      omega
  | refused hm => exact ⟨hs.queued, hs.taken, hdepth⟩
  | refusedAlso l d r hitems hdrop hm =>
    refine ⟨fun n hn => hs.queued n ?_, hs.taken, ?_⟩
    · rw [hitems]
      simp only [List.mem_append, List.mem_cons] at hn ⊢
      tauto
    · have hlength : s.queue.depth = (l ++ r).length + 1 := by
        simp [OutboundQueue.depth, hitems, Nat.add_assoc]
      have hcount : preciousCount s.queue.items = preciousCount (l ++ r) := by
        rw [hitems, preciousCount_drop hdrop]
      show (l ++ r).length + s.taken.toList.length ≤ max s.queue.maxDepth
        (preciousCount (l ++ r) + preciousCount s.taken.toList) + 1
      omega

/-- Every action keeps the bound. -/
theorem bounded_step (s : Traffic β) (a : TrafficAction β) (t : Traffic β) (hs : s.Bounded)
    (h : s.step a = some t) : t.Bounded := by
  obtain ⟨m, front, now, hello, rfl⟩ | ⟨m, rest, now, htaken, hitems, rfl⟩ | ⟨m, htaken, rfl⟩ |
    ⟨m, htaken, rfl⟩ := step_cases h
  · exact hs.put hello front (s.queue.put_outcome _ front now) _
  · have hqueued := hs.queued
    have hdepth := hs.depth
    rw [OutboundQueue.depth, hitems, htaken] at hdepth
    rw [hitems] at hqueued
    refine ⟨fun n hn => hqueued n (List.mem_cons_of_mem _ hn), ?_, ?_⟩
    · rintro n ⟨rfl⟩
      exact hqueued m List.mem_cons_self
    -- the message that is taken counts as precious or not, as before
    · have hcount : preciousCount (m :: rest) = preciousCount rest +
          preciousCount [OutboundQueue.stamp { s.queue with items := rest } m now] := by
        simp [preciousCount, List.countP_cons, OutboundQueue.stamp]
      simp only [Option.toList_none, List.length_nil, List.length_cons, hcount] at hdepth
      show rest.length + 1 ≤ _
      simpa [preciousCount] using hdepth
  -- delivery takes the message out of both counts
  · have hdepth := hs.depth
    have hone : preciousCount [m] ≤ 1 := List.countP_le_length
    rw [htaken] at hdepth
    refine ⟨hs.queued, by simp, ?_⟩
    simp only [Option.toList_some, List.length_singleton] at hdepth
    show s.queue.depth + 0 ≤ max s.queue.maxDepth (preciousCount s.queue.items + 0) + 1
    omega
  · have hdepth := hs.depth
    rw [htaken] at hdepth
    refine ⟨fun n hn => ?_, by simp, ?_⟩
    · rcases List.mem_cons.mp hn with rfl | hn
      · exact hs.taken n htaken
      · exact hs.queued n hn
    · have hcount : preciousCount (m :: s.queue.items) =
          preciousCount s.queue.items + preciousCount [m] := by
        simp [preciousCount, List.countP_cons]
      simp only [Option.toList_some, List.length_singleton] at hdepth
      show (m :: s.queue.items).length + 0 ≤
        max s.queue.maxDepth (preciousCount (m :: s.queue.items) + 0) + 1
      rw [hcount, List.length_cons]
      exact hdepth

/-- The depth exceeds the bound, or the number of results and events, by at most one. -/
theorem Bounded.depth_le {s : Traffic β} (hs : s.Bounded) :
    s.queue.depth ≤ max s.queue.maxDepth (preciousCount s.queue.items) + 1 := by
  have hdepth := hs.depth
  cases htaken : s.taken with
  | none => simpa [htaken, preciousCount] using hdepth
  | some m =>
    have hone : preciousCount [m] ≤ 1 := List.countP_le_length
    simp only [htaken, Option.toList_some, List.length_singleton] at hdepth
    omega

/-! ## The count of the drops -/

/-- What the messages of a list say, with their tags. -/
def contents (ms : List (Tagged β)) : Multiset (AgentMessage × β × Tag) :=
  (ms.map content : List (AgentMessage × β × Tag))

@[simp]
theorem contents_append (ms ns : List (Tagged β)) :
    contents (ms ++ ns) = contents ms + contents ns := by
  simp [contents, ← Multiset.coe_add]

theorem contents_cons (m : Tagged β) (ms : List (Tagged β)) :
    contents (m :: ms) = {m.content} + contents ms := by
  rw [contents, List.map_cons, ← Multiset.cons_coe, ← Multiset.singleton_add]
  rfl

@[simp]
theorem contents_nil : contents ([] : List (Tagged β)) = 0 := rfl

/-- Every message put is queued, taken, delivered or lost; the lost ones are counted, and none of
them is precious. -/
def Balanced (s : Traffic β) : Prop :=
  ∃ lost : Multiset (AgentMessage × β × Tag),
    contents s.everPut = contents s.queue.items + contents s.taken.toList +
      contents s.delivered + lost ∧
    lost.card = s.queue.dropped ∧ ∀ c ∈ lost, c.1.precious = false

theorem balanced_init (maxDepth : ℕ) : (init maxDepth : Traffic β).Balanced :=
  ⟨0, by simp [init], rfl, by simp⟩

/-- What the queue holds after a message has entered. -/
theorem contents_enter (q : OutboundQueue (β × Tag)) (m : Tagged β) (front : Bool) :
    contents (q.enter m front).items = {m.content} + contents q.items := by
  cases front with
  | false =>
    show contents (q.items ++ [m]) = _
    rw [contents_append, contents_cons, contents_nil, add_zero, add_comm]
  | true => exact contents_cons m q.items

/-- A put keeps the account: the message is in the queue, or among the dropped ones. -/
theorem Balanced.put {s : Traffic β} (hs : s.Balanced) {m n : Tagged β}
    (hn : n.content = m.content) {front : Bool} {queue : OutboundQueue (β × Tag)}
    (h : OutboundQueue.PutOutcome s.queue m front queue) :
    Balanced { s with queue, everPut := s.everPut ++ [n] } := by
  obtain ⟨lost, hbalance, hcard, hlost⟩ := hs
  -- with the new message on one side, it has to turn up on the other
  have hput : contents (s.everPut ++ [n]) = contents s.queue.items + contents s.taken.toList +
      contents s.delivered + lost + {m.content} := by
    rw [contents_append, contents_cons, contents_nil, add_zero, hn, hbalance]
  have hdropped {d : Tagged β} (hd : d.type.precious = false) :
      ∀ c ∈ lost + {d.content}, c.1.precious = false := by
    intro c hc
    rcases Multiset.mem_add.mp hc with hc | hc
    · exact hlost c hc
    · rw [Multiset.mem_singleton.mp hc]
      exact hd
  cases h with
  | entered hroom =>
    refine ⟨lost, ?_, hcard, hlost⟩
    rw [hput, contents_enter]
    abel
  | replaced l d r hitems hdrop hfull =>
    -- only what may be dropped is dropped, and it is not precious
    have hd := AgentMessage.precious_eq_false_of_droppable hdrop
    refine ⟨lost + {d.content}, ?_, ?_, hdropped hd⟩
    · rw [hput, contents_enter, hitems, contents_append, contents_cons]
      show _ = {m.content} + contents (l ++ r) + _ + _ + _
      rw [contents_append]
      abel
    · rw [Multiset.card_add, Multiset.card_singleton, hcard]
      rfl
  | refused hm =>
    refine ⟨lost + {m.content}, ?_, ?_, hdropped hm⟩
    · rw [hput]
      abel
    · rw [Multiset.card_add, Multiset.card_singleton, hcard]
  | refusedAlso l d r hitems hdrop hm =>
    have hd := AgentMessage.precious_eq_false_of_droppable hdrop
    refine ⟨lost + {d.content} + {m.content}, ?_, ?_, fun c hc => ?_⟩
    · rw [hput, hitems, contents_append, contents_cons]
      show _ = contents (l ++ r) + _ + _ + _
      rw [contents_append]
      abel
    · rw [Multiset.card_add, Multiset.card_add, Multiset.card_singleton, Multiset.card_singleton,
        hcard]
    · rcases Multiset.mem_add.mp hc with hc | hc
      · exact hdropped hd c hc
      · rw [Multiset.mem_singleton.mp hc]
        exact hm

/-- Every action keeps the account. -/
theorem balanced_step (s : Traffic β) (a : TrafficAction β) (t : Traffic β) (hs : s.Balanced)
    (h : s.step a = some t) : t.Balanced := by
  obtain ⟨m, front, now, hello, rfl⟩ | ⟨m, rest, now, htaken, hitems, rfl⟩ | ⟨m, htaken, rfl⟩ |
    ⟨m, htaken, rfl⟩ := step_cases h
  -- a put; then taking, delivering and requeueing, which only move a message
  · exact hs.put (content_setDefaultSentAt _ now).symm (s.queue.put_outcome _ front now)
  · obtain ⟨lost, hbalance, hcard, hlost⟩ := hs
    refine ⟨lost, ?_, hcard, hlost⟩
    rw [hbalance, hitems, htaken]
    show contents (m :: rest) + contents [] + _ + _ = contents rest + contents [_] + _ + _
    rw [contents_cons, contents_cons, OutboundQueue.content_stamp, contents_nil]
    abel
  · obtain ⟨lost, hbalance, hcard, hlost⟩ := hs
    refine ⟨lost, ?_, hcard, hlost⟩
    rw [hbalance, htaken]
    show _ + contents [m] + _ + _ = _ + contents [] + contents (s.delivered ++ [m]) + _
    rw [contents_append, contents_nil]
    abel
  · obtain ⟨lost, hbalance, hcard, hlost⟩ := hs
    refine ⟨lost, ?_, hcard, hlost⟩
    rw [hbalance, htaken]
    show _ + contents [m] + _ + _ = contents (m :: s.queue.items) + contents [] + _ + _
    rw [contents_cons, contents_cons, contents_nil]
    abel

/-! ## The order -/

/-- Tags with numbers below `n`, those of messages put at the back in order. -/
structure InOrder (n : ℕ) (ts : List Tag) : Prop where
  known : ∀ t ∈ ts, t.serial < n
  back : (ts.filter fun t => !t.front).Pairwise fun t u => t.serial < u.serial

theorem InOrder.sublist {n : ℕ} {ts us : List Tag} (h : InOrder n ts) (hsub : us.Sublist ts) :
    InOrder (n + 1) us where
  known t ht := Nat.lt_succ_of_lt (h.known t (hsub.subset ht))
  back := h.back.sublist (hsub.filter _)

/-- A new message enters on either side. -/
theorem InOrder.enter {n : ℕ} {pre ts : List Tag} (h : InOrder n (pre ++ ts)) (front : Bool) :
    InOrder (n + 1) (pre ++ if front then ⟨n, front⟩ :: ts else ts ++ [⟨n, front⟩]) where
  known t ht := by
    have hnew : t ∈ pre ++ ts ∨ t = ⟨n, front⟩ := by
      cases front with
      | false =>
        simp only [Bool.false_eq_true, if_false, List.mem_append, List.mem_singleton] at ht ⊢
        tauto
      | true =>
        simp only [if_true, List.mem_append, List.mem_cons] at ht ⊢
        tauto
    rcases hnew with ht | rfl
    · exact Nat.lt_succ_of_lt (h.known t ht)
    · exact Nat.lt_succ_self n
  -- the messages put at the back stand in the order of their numbers
  back := by
    have hback := h.back
    rw [List.filter_append] at hback
    cases front with
    | true => simpa using hback
    | false =>
      simp only [Bool.false_eq_true, if_false, ← List.append_assoc, List.filter_append]
      refine List.pairwise_append.mpr ⟨hback, List.pairwise_singleton _ _, fun t ht u hu => ?_⟩
      obtain rfl : u = ⟨n, false⟩ := by simpa using hu
      rw [← List.filter_append] at ht
      exact h.known t (List.mem_filter.mp ht).1

/-- The tags of the messages. -/
def tags (ms : List (Tagged β)) : List Tag :=
  ms.map fun m => m.body.2

/-- The tags of the messages on their way, the delivered ones first. -/
def passing (s : Traffic β) : List Tag :=
  tags (s.delivered ++ s.taken.toList) ++ tags s.queue.items

/-- The messages are numbered as they are put, and pass in this order if put at the back. -/
structure Ordered (s : Traffic β) : Prop where
  numbered : s.everPut.map Tagged.serial = List.range s.everPut.length
  inOrder : InOrder s.everPut.length s.passing

theorem ordered_init (maxDepth : ℕ) : (init maxDepth : Traffic β).Ordered :=
  ⟨rfl, by simp [init, passing, tags], by simp [init, passing, tags]⟩

/-- A message enters at the front or at the back. -/
theorem tags_enter (q : OutboundQueue (β × Tag)) (m : Tagged β) (front : Bool) :
    tags (q.enter m front).items =
      if front then m.body.2 :: tags q.items else tags q.items ++ [m.body.2] := by
  cases front with
  | false => simp [OutboundQueue.enter, tags]
  | true => simp [OutboundQueue.enter, tags]

/-- A put keeps the order of the tags: the newest tag goes to the back, or to the front for a
message that asked for it. -/
theorem InOrder.put {q queue : OutboundQueue (β × Tag)} {pre : List Tag} {n : ℕ} {m : Tagged β}
    {front : Bool} (hs : InOrder n (pre ++ tags q.items)) (htag : m.body.2 = ⟨n, front⟩)
    (h : OutboundQueue.PutOutcome q m front queue) :
    InOrder (n + 1) (pre ++ tags queue.items) := by
  -- a drop leaves a sublist
  have hsub (l : List (Tagged β)) (d : Tagged β) (r : List (Tagged β))
      (hitems : q.items = l ++ d :: r) :
      (pre ++ tags (l ++ r)).Sublist (pre ++ tags q.items) := by
    rw [hitems]
    refine List.Sublist.append_left ?_ pre
    exact List.Sublist.map _ (List.Sublist.append_left (List.sublist_cons_self d r) l)
  cases h with
  | entered hroom =>
    rw [tags_enter, htag]
    exact hs.enter front
  | replaced l d r hitems hdrop hfull =>
    have hrest : InOrder n (pre ++ tags (l ++ r)) :=
      ⟨fun t ht => hs.known t ((hsub l d r hitems).subset ht),
        hs.back.sublist ((hsub l d r hitems).filter _)⟩
    rw [tags_enter, htag]
    exact hrest.enter front
  | refused hm => exact hs.sublist (List.Sublist.refl _)
  | refusedAlso l d r hitems hdrop hm => exact hs.sublist (hsub l d r hitems)

/-- Every action keeps the order. -/
theorem ordered_step (s : Traffic β) (a : TrafficAction β) (t : Traffic β) (hs : s.Ordered)
    (h : s.step a = some t) : t.Ordered := by
  obtain ⟨m, front, now, hello, rfl⟩ | ⟨m, rest, now, htaken, hitems, rfl⟩ | ⟨m, htaken, rfl⟩ |
    ⟨m, htaken, rfl⟩ := step_cases h
  · have hnumbered : (s.everPut ++ [s.tag m front]).map Tagged.serial =
        List.range (s.everPut ++ [s.tag m front]).length := by
      rw [List.map_append, hs.numbered, List.length_append, List.length_singleton,
        List.range_succ]
      rfl
    refine ⟨hnumbered, ?_⟩
    show InOrder (s.everPut ++ [s.tag m front]).length _
    rw [List.length_append, List.length_singleton]
    exact hs.inOrder.put rfl (s.queue.put_outcome _ front now)
  -- otherwise the same messages are on their way, in the same order
  · refine ⟨hs.numbered, ?_⟩
    have hinOrder := hs.inOrder
    rw [passing, hitems, htaken] at hinOrder
    simpa [passing, tags, OutboundQueue.stamp] using hinOrder
  · refine ⟨hs.numbered, ?_⟩
    have hinOrder := hs.inOrder
    rw [passing, htaken] at hinOrder
    simpa [passing, tags] using hinOrder
  · refine ⟨hs.numbered, ?_⟩
    have hinOrder := hs.inOrder
    rw [passing, htaken] at hinOrder
    simpa [passing, tags, OutboundQueue.requeue] using hinOrder

/-- The bound of a queue does not change. -/
theorem maxDepth_step (maxDepth : ℕ) (s : Traffic β) (a : TrafficAction β) (t : Traffic β)
    (hs : s.queue.maxDepth = maxDepth) (h : s.step a = some t) : t.queue.maxDepth = maxDepth := by
  obtain ⟨m, front, now, hello, rfl⟩ | ⟨m, rest, now, htaken, hitems, rfl⟩ | ⟨m, htaken, rfl⟩ |
    ⟨m, htaken, rfl⟩ := step_cases h
  · have houtcome := s.queue.put_outcome (s.tag m front) front now
    show (s.queue.put (s.tag m front) front now).maxDepth = maxDepth
    generalize s.queue.put (s.tag m front) front now = queue at houtcome
    cases houtcome with
    | entered hroom => exact hs
    | replaced l d r hitems hdrop hfull => exact hs
    | refused hm => exact hs
    | refusedAlso l d r hitems hdrop hm => exact hs
  · exact hs
  · exact hs
  · exact hs

/-- What holds after every sequence of `put`, `get` and `requeue` with at most one message taken:
the queue is bounded, every drop is counted and none is a result or an event, and the messages put
at the back are delivered in the order in which they were put. -/
theorem traffic_accounted {maxDepth : ℕ} {as : List (TrafficAction β)} {s : Traffic β}
    (h : exec step (init maxDepth) as = some s) :
    s.queue.depth ≤ max maxDepth (preciousCount s.queue.items) + 1 ∧
    (∃ lost : Multiset (AgentMessage × β × Tag),
      contents s.everPut = contents s.queue.items + contents s.taken.toList +
        contents s.delivered + lost ∧
      lost.card = s.queue.dropped ∧ ∀ c ∈ lost, c.1.precious = false) ∧
    s.everPut.map Tagged.serial = List.range s.everPut.length ∧
    (s.delivered.filter Tagged.isBack).Pairwise fun m n => m.serial < n.serial := by
  have hbounded := exec_invariant' bounded_step (bounded_init maxDepth) h
  have hbalanced := exec_invariant' balanced_step (balanced_init maxDepth) h
  have hordered := exec_invariant' ordered_step (ordered_init maxDepth) h
  have hmaxDepth := exec_invariant' (maxDepth_step maxDepth) rfl h
  have hdelivered : ((tags s.delivered).filter fun t => !t.front).Pairwise
      fun t u => t.serial < u.serial := by
    refine hordered.inOrder.back.sublist (List.Sublist.filter _ ?_)
    simp only [passing, tags, List.map_append, List.append_assoc]
    exact List.sublist_append_left _ _
  refine ⟨?_, hbalanced, hordered.numbered, ?_⟩
  · rw [← hmaxDepth]
    exact hbounded.depth_le
  · rw [tags, List.filter_map, List.pairwise_map] at hdelivered
    exact hdelivered

/-- A queue for one message: a state is taken, a result comes in, the state goes back and a ping is
put in front. -/
def sampleActions : List (TrafficAction Unit) :=
  [.put { type := .state, body := () } false 0, .get 0,
    .put { type := .result, body := () } false 0,
    .requeue, .put { type := .ping, body := () } true 0, .get 0, .sent]

theorem traffic_accounted_sample : ∃ s : Traffic Unit,
    exec step (init 1) sampleActions = some s ∧
    s.queue.depth ≤ max 1 (preciousCount s.queue.items) + 1 ∧
    (∃ lost : Multiset (AgentMessage × Unit × Tag),
      contents s.everPut = contents s.queue.items + contents s.taken.toList +
        contents s.delivered + lost ∧
      lost.card = s.queue.dropped ∧ ∀ c ∈ lost, c.1.precious = false) ∧
    s.everPut.map Tagged.serial = List.range s.everPut.length ∧
    (s.delivered.filter Tagged.isBack).Pairwise fun m n => m.serial < n.serial := by
  have hsome : (exec step (init 1) sampleActions).isSome := by decide
  obtain ⟨s, hs⟩ := Option.isSome_iff_exists.mp hsome
  exact ⟨s, hs, traffic_accounted hs⟩

/-- The ping drops the state that was put back, and is dropped itself. -/
example : (exec step (init 1) sampleActions).map (fun s => (s.queue.dropped, s.delivered.length)) =
    some (2, 1) := by decide

end Traffic

end ComputePool.Agent
