import ComputePool.Agent.Control.Commands
import ComputePool.Agent.Control.Writer
import ComputePool.Foundations.Tasks

/-!
# The control link of the agent

`ControlSocket` of `agent/control/socket.py` with everything that goes over it: the reader turns a
command into a task, the tasks take turns, and each answer is put into the queue that the writer
empties. Sessions come and go meanwhile; the tasks and the queue outlive them.

* `step`: whatever may happen next, in any order.
* `answered_once`: every command that was received is running, cancelled by a shutdown or answered
  once, and the results that are in the queue, in the hand of the writer, delivered or abandoned are
  the answers, no more and no fewer.
* `standing_of_answers`: the drain flag and the jobs of the agent are what its answers say, one
  after the other, and the number of jobs in each answer is the number at that moment.
-/

namespace ComputePool.Agent.Control

open Text Message Transition
open Json (field)

/-! ## The link -/

/-- Something the server, or a validator, has been told. -/
inductive Event
  | answered (command : Command) (answer : Answer)
  /-- A validator has recorded a job at the agent. -/
  | recorded (entry : JobEntry)

/-- The answer of an event. -/
def Event.answer? : Event → Option (Command × Answer)
  | .answered command answer => some (command, answer)
  | .recorded _ => none

/-- The control socket, the state of the agent, and the tasks of the commands, each waiting for
something; what follows is the history of the run. -/
structure Link where
  socket : ControlSocket Json
  runtime : Runtime := {}
  /-- Whether a session has a reader. -/
  reading : Bool := false
  tasks : List (Command × Program Runtime Await Reply Answer) := []
  received : List Command := []
  /-- Commands whose task was cancelled by the shutdown. -/
  cancelled : List Command := []
  events : List Event := []

/-- Something that happens to the agent. -/
inductive Action
  /-- A session is established. -/
  | connect
  /-- The reader gets a message; `none` if it is no JSON. -/
  | message (value : Option Json)
  /-- The reader is cancelled, or the connection ends. -/
  | endReading
  /-- The wait of the task at this place ends. -/
  | turn (i : ℕ) (reply : Reply) (now : ℚ)
  /-- The shutdown cancels the task at this place. -/
  | cancel (i : ℕ)
  /-- `/jobs` of the API. -/
  | recordJob (entry : JobEntry)
  /-- A decision on a claim has been sent. -/
  | decide (hotkey : Str)
  /-- The writer goes on, or another part of the agent puts a message. -/
  | socket (a : SocketAction Json)

/-- `Result.payload()`. -/
def resultBody (command : Command) (answer : Answer) : Json :=
  .dict [("id".toList, .int command.id), ("ok".toList, .bool answer.1),
    ("result".toList, answer.2)]

/-- `send_result`: the message it puts. -/
def resultMessage (command : Command) (answer : Answer) (now : ℚ) : Message Json where
  type := .result
  body := resultBody command answer
  sentAt := some now

/-- `send`. -/
def send (s : ControlSocket Json) (m : Message Json) (now : ℚ) : ControlSocket Json :=
  { s with queue := s.queue.put m false now, everPut := s.everPut ++ [m] }

/-- What the writer and the other parts of the agent may do: only `send_result` puts a result. -/
def allowed : SocketAction Json → Bool
  | .put m _ _ => m.type ≠ .result
  | .openSession => false
  | _ => true

variable (cfg : Config)

/-- A round of `_reader`. A command without a usable id ends the reader. -/
def read (s : Link) : Option Json → Link
  | some (.dict fields) =>
    match Dict.get? fields "type".toList with
    | some (.str kind) =>
      if kind = "command".toList then
        match Command.fromPayload cfg.printer fields with
        | .error _ => { s with reading := false }
        | .ok command =>
          { s with
            tasks := s.tasks ++ [(command, execute cfg command)]
            received := s.received ++ [command] }
      else s
    | _ => s
  | _ => s

/-- What a turn of the task at a place leaves of it: an answer, which is sent, or a task that waits
again. -/
def afterTurn (s : Link) (i : ℕ) (command : Command) (now : ℚ) (runtime : Runtime) :
    Program Runtime Await Reply Answer → Link
  | .ret answer =>
    { s with
      runtime
      tasks := s.tasks.eraseIdx i
      events := s.events ++ [.answered command answer]
      socket := send s.socket (resultMessage command answer now) now }
  | rest => { s with runtime, tasks := s.tasks.set i (command, rest) }

/-- The effect of an action; `none` when it cannot happen in this state. -/
def step (s : Link) : Action → Option Link
  | .connect =>
    (s.socket.step .openSession).map fun socket => { s with socket, reading := true }
  | .message value => if s.reading then some (read cfg s value) else none
  | .endReading => some { s with reading := false }
  | .turn i reply now =>
    match s.tasks[i]? with
    | some (command, .call _ k) =>
      let turn := (k reply).settle s.runtime
      some (afterTurn s i command now turn.2 turn.1)
    | _ => none
  | .cancel i =>
    match s.tasks[i]? with
    | some (command, _) =>
      some { s with tasks := s.tasks.eraseIdx i, cancelled := s.cancelled ++ [command] }
    | none => none
  | .recordJob entry =>
    some { s with
      runtime := { s.runtime with jobs := s.runtime.jobs.set entry.job.jobId entry }
      events := s.events ++ [.recorded entry] }
  | .decide hotkey =>
    some { s with runtime := { s.runtime with pending := s.runtime.pending.pop hotkey } }
  | .socket a =>
    if allowed a then (s.socket.step a).map fun socket => { s with socket } else none

/-- The agent when it starts. -/
def init (maxDepth : ℕ) : Link :=
  { socket := .init maxDepth }

/-! ## Answers -/

/-- The answers so far. -/
def Link.answers (s : Link) : List (Command × Answer) :=
  s.events.filterMap Event.answer?

/-- The results among messages. -/
def resultsOf (ms : List (Message Json)) : Multiset Json :=
  ((preciousOf ms).filter fun content => content.1 = .result).map Prod.snd

@[simp]
theorem resultsOf_append (ms ns : List (Message Json)) :
    resultsOf (ms ++ ns) = resultsOf ms + resultsOf ns := by
  simp [resultsOf]

theorem resultsOf_resultMessage (command : Command) (answer : Answer) (now : ℚ) :
    resultsOf [resultMessage command answer now] = {resultBody command answer} := by
  simp [resultsOf, preciousOf, resultMessage, AgentMessage.precious, content,
    Multiset.filter_singleton]

theorem resultsOf_of_ne {m : Message Json} (h : m.type ≠ .result) : resultsOf [m] = 0 := by
  by_cases hprecious : m.type.precious
  · simp [resultsOf, preciousOf, hprecious, content, h]
  · simp [resultsOf, preciousOf, hprecious]

/-- The command is running, was cancelled or is answered; and the results that were put are the
answers. -/
structure Accounted (s : Link) : Prop where
  balanced : s.socket.Balanced
  commands : (s.received : Multiset Command) =
    (s.tasks.map Prod.fst : List Command) + (s.cancelled : Multiset Command) +
      (s.answers.map Prod.fst : List Command)
  results : resultsOf s.socket.everPut =
    (s.answers.map fun a => resultBody a.1 a.2 : List Json)

/-- A command that leaves the list of tasks. -/
theorem coe_tasks_eq {s : Link} {i : ℕ} {command : Command}
    {p : Program Runtime Await Reply Answer} (h : s.tasks[i]? = some (command, p)) :
    ((s.tasks.map Prod.fst : List Command) : Multiset Command) =
      ((s.tasks.eraseIdx i).map Prod.fst : List Command) + {command} := by
  obtain ⟨before, behind, htasks, herase⟩ := Tasks.exists_split_eraseIdx h
  rw [herase, htasks, ← Multiset.coe_singleton, Multiset.coe_add, Multiset.coe_eq_coe]
  simp only [List.map_append, List.map_cons, List.append_assoc]
  exact (List.perm_append_singleton command (behind.map Prod.fst)).symm.append_left _

variable {cfg}

theorem accounted_init (maxDepth : ℕ) : Accounted (init maxDepth) where
  balanced := ControlSocket.balanced_init maxDepth
  commands := rfl
  results := rfl

/-- A frame that is read becomes a task or nothing. -/
theorem Accounted.read {s : Link} (h : Accounted s) (value : Option Json) :
    Accounted (read cfg s value) := by
  unfold Control.read
  split
  · split
    · split_ifs
      · split
        · exact ⟨h.balanced, h.commands, h.results⟩
        · refine ⟨h.balanced, ?_, h.results⟩
          simp only [List.map_append, List.map_cons, List.map_nil, ← Multiset.coe_add]
          rw [h.commands]
          simp only [Link.answers]
          ac_rfl
      · exact h
    · exact h
  · exact h

theorem filterMap_answered (events : List Event) (command : Command) (answer : Answer) :
    (events ++ [Event.answered command answer]).filterMap Event.answer? =
      events.filterMap Event.answer? ++ [(command, answer)] :=
  List.filterMap_append

theorem filterMap_recorded (events : List Event) (entry : JobEntry) :
    (events ++ [Event.recorded entry]).filterMap Event.answer? = events.filterMap Event.answer? :=
  List.filterMap_append.trans (List.append_nil _)

/-- No other part of the agent puts a result. -/
theorem resultsOf_everPut {s t : ControlSocket Json} {a : SocketAction Json}
    (ha : allowed a ∨ a = .openSession) (h : s.step a = some t) :
    resultsOf t.everPut = resultsOf s.everPut := by
  cases a with
  | put m front now =>
    obtain rfl := Option.some.inj h
    have hne : m.type ≠ .result := by simpa [allowed] using ha
    rw [resultsOf_append, resultsOf_of_ne hne, add_zero]
  | openSession | take | block | wake | sendReturns | sendRaises | cancelWriter =>
    simp only [ControlSocket.step] at h
    repeat' split at h
    all_goals first | (obtain rfl := Option.some.inj h; rfl) | cases h

/-- A turn moves a command to the answers, with its result, or leaves it among the tasks. -/
theorem Accounted.turn {s : Link} {i : ℕ} {command : Command}
    {p : Program Runtime Await Reply Answer} (h : Accounted s)
    (hi : s.tasks[i]? = some (command, p)) (now : ℚ) (runtime : Runtime)
    (rest : Program Runtime Await Reply Answer) :
    Accounted (afterTurn s i command now runtime rest) := by
  unfold afterTurn
  split
  · next answer =>
    refine ⟨?_, ?_, ?_⟩
    · exact ControlSocket.balanced_step s.socket (.put (resultMessage command answer now) false now)
        _ h.balanced rfl
    · simp only [Link.answers, filterMap_answered, List.map_append, List.map_cons, List.map_nil,
        ← Multiset.coe_add, Multiset.coe_singleton]
      rw [h.commands, coe_tasks_eq hi]
      simp only [Link.answers]
      ac_rfl
    · simp only [send, resultsOf_append, h.results, resultsOf_resultMessage, Link.answers,
        filterMap_answered, List.map_append, List.map_cons, List.map_nil, ← Multiset.coe_add,
        Multiset.coe_singleton]
  · refine ⟨h.balanced, ?_, h.results⟩
    have hset : (s.tasks.set i (command, rest)).map Prod.fst = s.tasks.map Prod.fst := by
      obtain ⟨before, behind, htasks, hset⟩ := Tasks.exists_split hi
      rw [hset, htasks]
      simp
    rw [hset]
    exact h.commands

/-- What happens on the socket alone. -/
theorem Accounted.socket {s : Link} {a : SocketAction Json} {socket : ControlSocket Json}
    {reading : Bool} (h : Accounted s) (ha : allowed a ∨ a = .openSession)
    (hstep : s.socket.step a = some socket) : Accounted { s with socket, reading } :=
  ⟨ControlSocket.balanced_step s.socket a socket h.balanced hstep, h.commands,
    (resultsOf_everPut ha hstep).trans h.results⟩

/-- Whatever happens next, the books stay balanced. -/
theorem accounted_step (s : Link) (a : Action) (t : Link) (h : Accounted s)
    (hstep : step cfg s a = some t) : Accounted t := by
  cases a with
  | connect =>
    obtain ⟨socket, hsocket, rfl⟩ := Option.map_eq_some_iff.mp hstep
    exact h.socket (.inr rfl) hsocket
  | message value =>
    rw [step] at hstep
    split_ifs at hstep
    obtain rfl := Option.some.inj hstep
    exact h.read value
  | endReading =>
    obtain rfl := Option.some.inj hstep
    exact ⟨h.balanced, h.commands, h.results⟩
  | turn i reply now =>
    rw [step] at hstep
    split at hstep
    · next hi =>
      obtain rfl := Option.some.inj hstep
      exact h.turn hi _ _ _
    · cases hstep
  | cancel i =>
    rw [step] at hstep
    split at hstep
    · next command p hi =>
      obtain rfl := Option.some.inj hstep
      refine ⟨h.balanced, ?_, h.results⟩
      simp only [← Multiset.coe_add, Multiset.coe_singleton]
      rw [h.commands, coe_tasks_eq hi]
      simp only [Link.answers]
      ac_rfl
    · cases hstep
  | recordJob entry =>
    obtain rfl := Option.some.inj hstep
    refine ⟨h.balanced, ?_, ?_⟩
    · rw [Link.answers, filterMap_recorded]
      exact h.commands
    · rw [Link.answers, filterMap_recorded]
      exact h.results
  | decide hotkey =>
    obtain rfl := Option.some.inj hstep
    exact ⟨h.balanced, h.commands, h.results⟩
  | socket a =>
    rw [step] at hstep
    split_ifs at hstep with hallowed
    obtain ⟨socket, hsocket, rfl⟩ := Option.map_eq_some_iff.mp hstep
    exact h.socket (.inl hallowed) hsocket

/-- However commands, turns, sessions and the writer interleave: a command that was received is
running, was cancelled by the shutdown, or is answered, and the results that are queued, in the
hand of the writer, delivered or abandoned are these answers, one for each. -/
theorem answered_once {maxDepth : ℕ} {as : List Action} {s : Link}
    (h : exec (step cfg) (init maxDepth) as = some s) :
    (s.received : Multiset Command) =
        (s.tasks.map Prod.fst : List Command) + (s.cancelled : Multiset Command) +
          (s.answers.map Prod.fst : List Command) ∧
      ((s.answers.map fun a => resultBody a.1 a.2 : List Json) : Multiset Json) =
        resultsOf s.socket.queue.items + resultsOf s.socket.writer.inHand +
          resultsOf s.socket.delivered + resultsOf s.socket.abandoned := by
  have hs := exec_invariant' accounted_step (accounted_init maxDepth) h
  refine ⟨hs.commands, ?_⟩
  rw [← hs.results, resultsOf, show preciousOf s.socket.everPut = _ from hs.balanced]
  simp [resultsOf]

/-- A configuration for text in ASCII. -/
def sampleConfig : Config where
  printer := Json.asciiPrinter
  raisedText := fun _ => []
  lower := fun s => s.map Char.toLower

/-- A command as the server sends it. -/
def commandMessage (id : ℤ) (kind : String) (payload : Dict Str Json) : Option Json :=
  some (.dict [("type".toList, .str "command".toList), ("id".toList, .int id),
    ("kind".toList, .str kind.toList), ("payload".toList, .dict payload)])

/-- A benchmark is running while a job is placed and the session ends; both are answered, and the
next session delivers the first result. -/
def sampleRun : List Action :=
  [.connect, .message (commandMessage 8 "ChallengeRequest" []), .turn 0 (.began {}) 10,
    .message (commandMessage 9 "JobPlaced" [("job_id".toList, .str "j".toList)]),
    .turn 1 (.began { now := 11 }) 11, .endReading, .socket .cancelWriter,
    .turn 0 .timeout 700, .connect, .socket (.take 701), .socket .sendReturns]

theorem answered_once_sample :
    ∃ s, exec (step sampleConfig) (init 4) sampleRun = some s ∧
      (s.answers.length = 2 ∧ s.socket.delivered.length = 1) ∧
      (s.received : Multiset Command) =
        (s.tasks.map Prod.fst : List Command) + (s.cancelled : Multiset Command) +
          (s.answers.map Prod.fst : List Command) ∧
      ((s.answers.map fun a => resultBody a.1 a.2 : List Json) : Multiset Json) =
        resultsOf s.socket.queue.items + resultsOf s.socket.writer.inHand +
          resultsOf s.socket.delivered + resultsOf s.socket.abandoned := by
  have hrun : ((exec (step sampleConfig) (init 4) sampleRun).map fun s =>
      (s.answers.length, s.socket.delivered.length)) = some (2, 1) := by
    decide +kernel
  obtain ⟨s, hs, hlengths⟩ := Option.map_eq_some_iff.mp hrun
  exact ⟨s, hs, Prod.mk.inj hlengths, answered_once hs⟩

/-! ## What the answers say -/

/-- What the server can tell of the agent. -/
structure Standing where
  draining : Bool := false
  jobs : List Str := []

/-- A job enters a list that has each job once. -/
def addJob (jobs : List Str) (jobId : Str) : List Str :=
  if jobId ∈ jobs then jobs else jobs ++ [jobId]

/-- A field of a result. -/
def resultField (result : Json) (key : String) : Json :=
  match result with
  | .dict fields => field fields key .null
  | _ => .null

/-- A result says that the agent is draining. -/
def saysDraining (result : Json) : Bool :=
  (resultField result "draining").truthy

/-- The job that a result says is recorded. -/
def recordedJob (result : Json) : Str :=
  match resultField result "recorded" with
  | .str jobId => jobId
  | _ => []

/-- What an event tells. -/
def Standing.after (st : Standing) : Event → Standing
  | .answered command (ok, result) =>
    if ok ∧ command.kind = "DrainRequest".toList then
      { st with draining := saysDraining result }
    else if ok ∧ command.kind = "JobPlaced".toList then
      { st with jobs := addJob st.jobs (recordedJob result) }
    else st
  | .recorded entry => { st with jobs := addJob st.jobs entry.job.jobId }

/-- The number of jobs in an answer is the number after it. -/
def Event.Counts (st : Standing) : Event → Prop
  | .answered command (ok, result) =>
    (ok ∧ command.kind = "DrainRequest".toList →
      resultField result "jobs_running" = .int st.jobs.length) ∧
    (ok ∧ command.kind = "JobPlaced".toList →
      resultField result "jobs" = .int (addJob st.jobs (recordedJob result)).length)
  | .recorded _ => True

/-- What there is to tell of the agent. -/
def Runtime.standing (s : Runtime) : Standing where
  draining := s.draining
  jobs := s.jobs.keys

/-- The keys of a table after an assignment, as the list of jobs they are told as. -/
theorem keys_set {ν : Type} (d : Dict Str ν) (k : Str) (v : ν) :
    (d.set k v).keys = addJob d.keys k := by
  unfold Dict.set addJob
  split_ifs
  · simp only [Dict.keys, List.map_map]
    refine List.map_congr_left fun e _ => ?_
    by_cases he : e.1 = k
    · simp [he]
    · simp [he]
  · simp [Dict.keys]

/-- The answer to a command that is neither a drain nor a job says nothing. -/
theorem after_answered_of_ne (st : Standing) {command : Command} (answer : Answer)
    (hdrain : answer.1 = true → command.kind ≠ "DrainRequest".toList)
    (hplaced : answer.1 = true → command.kind ≠ "JobPlaced".toList) :
    st = st.after (.answered command answer) ∧ Event.Counts st (.answered command answer) := by
  obtain ⟨ok, result⟩ := answer
  refine ⟨?_, fun h => absurd h.2 (hdrain h.1), fun h => absurd h.2 (hplaced h.1)⟩
  rw [Standing.after, if_neg fun h => hdrain h.1 h.2, if_neg fun h => hplaced h.1 h.2]

/-- A command does what its answer says. -/
theorem Effect.standing {command : Command} {s t : Runtime} {answer : Answer}
    (h : Effect command s answer t) :
    t.standing = s.standing.after (.answered command answer) ∧
      Event.Counts s.standing (.answered command answer) := by
  cases h with
  | drained draining hkind =>
    refine ⟨?_, fun _ => ?_, fun h => absurd (hkind.symm.trans h.2) (by decide)⟩
    · rw [Standing.after, if_pos ⟨rfl, hkind⟩]
      rfl
    · have hlength : s.standing.jobs.length = s.jobs.length := List.length_map _
      rw [hlength]
      rfl
  | placed entry hkind hid =>
    have hjob : recordedJob (.dict [("recorded".toList, .str entry.job.jobId),
        ("jobs".toList, .int (s.jobs.set entry.job.jobId entry).length)]) = entry.job.jobId := rfl
    refine ⟨?_, fun h => absurd (hkind.symm.trans h.2) (by decide), fun _ => ?_⟩
    · rw [Standing.after, if_neg fun h => absurd (hkind.symm.trans h.2) (by decide),
        if_pos ⟨rfl, hkind⟩, hjob]
      simp only [Runtime.standing, keys_set]
    · have hlength : (addJob s.jobs.keys entry.job.jobId).length =
          (s.jobs.set entry.job.jobId entry).length := by
        rw [← keys_set s.jobs _ entry, Dict.keys, List.length_map]
      rw [hjob, Runtime.standing, hlength]
      rfl
  | prompted hotkey expiresAt answer hkind =>
    exact after_answered_of_ne _ _ (fun _ h => absurd (hkind.symm.trans h) (by decide))
      fun _ h => absurd (hkind.symm.trans h) (by decide)
  | refused result =>
    exact after_answered_of_ne _ _ (fun h => absurd h Bool.false_ne_true)
      fun h => absurd h Bool.false_ne_true
  | other answer hkind =>
    exact after_answered_of_ne _ _ (fun _ h => hkind (.inl h)) fun _ h => hkind (.inr (.inl h))

/-- A task starts with its command, or will never write the state of the agent. -/
def Fit (cfg : Config) (command : Command) (p : Program Runtime Await Reply Answer) : Prop :=
  p = execute cfg command ∨ ¬ command.Writes ∧ p.Untouched

/-- A turn of a task answers the command, which has had its effect, or leaves the state alone. -/
theorem Fit.settle {command : Command} {c : Await}
    {k : Reply → Program Runtime Await Reply Answer} (h : Fit cfg command (.call c k))
    (reply : Reply) (s : Runtime) :
    (∃ answer t, (k reply).settle s = (.ret answer, t) ∧ Effect command s answer t) ∨
      ((k reply).settle s).2 = s ∧ Fit cfg command ((k reply).settle s).1 := by
  have hrest {p : Program Runtime Await Reply Answer} (hwrites : ¬ command.Writes)
      (hp : p.Untouched) : (p.settle s).2 = s ∧ Fit cfg command (p.settle s).1 :=
    ⟨hp.settle_snd s, .inr ⟨hwrites, hp.settle_fst s⟩⟩
  rcases h with heq | ⟨hwrites, huntouched⟩
  · -- the first turn
    obtain ⟨rfl, rfl⟩ : c = .start ∧ k = fun r => handle cfg (beganOf r) command := by
      change Program.call c k = .call .start fun r => handle cfg (beganOf r) command at heq
      simpa using heq
    rcases settle_handle cfg (beganOf reply) command s with hends | ⟨hwrites, hp⟩
    · exact .inl hends
    · exact .inr (hrest hwrites hp)
  · exact .inr (hrest hwrites (huntouched reply))

/-- Every task is fit, the agent stands as its events tell, and they tell the right numbers. -/
structure Told (cfg : Config) (s : Link) : Prop where
  fit : ∀ x ∈ s.tasks, Fit cfg x.1 x.2
  standing : s.runtime.standing = s.events.foldl Standing.after {}
  counts : ∀ earlier e later, s.events = earlier ++ e :: later →
    e.Counts (earlier.foldl Standing.after {})

theorem told_init (maxDepth : ℕ) : Told cfg (init maxDepth) where
  fit := by simp [init]
  standing := rfl
  counts := by simp [init]

/-- One more event. -/
theorem counts_append {events : List Event} {e : Event}
    (h : ∀ earlier e later, events = earlier ++ e :: later →
      e.Counts (earlier.foldl Standing.after {}))
    (he : e.Counts (events.foldl Standing.after {})) (earlier : List Event) (e' : Event)
    (later : List Event) (heq : events ++ [e] = earlier ++ e' :: later) :
    e'.Counts (earlier.foldl Standing.after {}) := by
  rcases List.eq_nil_or_concat' later with rfl | ⟨later, last, rfl⟩
  · obtain ⟨rfl, hlast⟩ := List.append_inj' heq rfl
    obtain rfl : e = e' := by simpa using hlast
    exact he
  · rw [← List.cons_append, ← List.append_assoc] at heq
    obtain ⟨hevents, -⟩ := List.append_inj' heq rfl
    exact h earlier e' later hevents

/-- A turn of a task changes the standing as its answer tells. -/
theorem Told.turn {s : Link} {i : ℕ} {command : Command} {c : Await}
    {k : Reply → Program Runtime Await Reply Answer} (h : Told cfg s)
    (hi : s.tasks[i]? = some (command, .call c k)) (now : ℚ) (reply : Reply) :
    Told cfg (afterTurn s i command now ((k reply).settle s.runtime).2
      ((k reply).settle s.runtime).1) := by
  have hfit := h.fit _ (List.mem_of_getElem? hi)
  have hanswer {answer : Answer} {t : Runtime} (heffect : Effect command s.runtime answer t) :
      Told cfg (afterTurn s i command now t (.ret answer)) := by
    obtain ⟨hstanding, hcounts⟩ := heffect.standing
    refine ⟨fun x hx => h.fit x (List.mem_of_mem_eraseIdx hx), ?_, ?_⟩
    · change t.standing = _
      rw [hstanding, h.standing]
      simp [afterTurn]
    · refine counts_append h.counts ?_
      rw [← h.standing]
      exact hcounts
  have hwaits {rest : Program Runtime Await Reply Answer} (hrest : Fit cfg command rest) :
      Told cfg { s with tasks := s.tasks.set i (command, rest) } := by
    refine ⟨fun x hx => ?_, h.standing, h.counts⟩
    rcases List.mem_or_eq_of_mem_set hx with hx | rfl
    · exact h.fit x hx
    · exact hrest
  rcases hfit.settle reply s.runtime with ⟨answer, t, hturn, heffect⟩ | ⟨hstate, hrest⟩
  · rw [hturn]
    exact hanswer heffect
  · rw [hstate]
    revert hrest
    generalize ((k reply).settle s.runtime).1 = rest
    intro hrest
    cases rest with
    | ret answer =>
      -- a command answered in a later turn has written nothing
      rcases hrest with heq | ⟨hwrites, -⟩
      · cases heq
      · exact hanswer (.other answer hwrites)
    | call c' k' => exact hwaits hrest
    | get k' => exact hwaits hrest
    | put t p => exact hwaits hrest

/-- A frame that is read changes nothing in the standing until its task begins. -/
theorem Told.read {s : Link} (h : Told cfg s) (value : Option Json) :
    Told cfg (read cfg s value) := by
  unfold Control.read
  split
  · split
    · split_ifs
      · split
        · exact ⟨h.fit, h.standing, h.counts⟩
        · refine ⟨fun x hx => ?_, h.standing, h.counts⟩
          rcases List.mem_append.mp hx with hx | hx
          · exact h.fit x hx
          · obtain rfl := List.mem_singleton.mp hx
            exact .inl rfl
      · exact h
    · exact h
  · exact h

/-- Whatever happens next, the agent stands as its events tell. -/
theorem told_step (s : Link) (a : Action) (t : Link) (h : Told cfg s)
    (hstep : step cfg s a = some t) : Told cfg t := by
  cases a with
  | connect =>
    obtain ⟨socket, -, rfl⟩ := Option.map_eq_some_iff.mp hstep
    exact ⟨h.fit, h.standing, h.counts⟩
  | message value =>
    rw [step] at hstep
    split_ifs at hstep
    obtain rfl := Option.some.inj hstep
    exact h.read value
  | endReading =>
    obtain rfl := Option.some.inj hstep
    exact ⟨h.fit, h.standing, h.counts⟩
  | turn i reply now =>
    rw [step] at hstep
    split at hstep
    · next hi =>
      obtain rfl := Option.some.inj hstep
      exact h.turn hi now reply
    · cases hstep
  | cancel i =>
    rw [step] at hstep
    split at hstep
    · obtain rfl := Option.some.inj hstep
      exact ⟨fun x hx => h.fit x (List.mem_of_mem_eraseIdx hx), h.standing, h.counts⟩
    · cases hstep
  | recordJob entry =>
    obtain rfl := Option.some.inj hstep
    refine ⟨h.fit, ?_, counts_append h.counts trivial⟩
    rw [List.foldl_append, ← h.standing]
    simp only [List.foldl_cons, List.foldl_nil, Standing.after, Runtime.standing, keys_set]
  | decide hotkey =>
    obtain rfl := Option.some.inj hstep
    exact ⟨h.fit, h.standing, h.counts⟩
  | socket a =>
    rw [step] at hstep
    split_ifs at hstep
    obtain ⟨socket, -, rfl⟩ := Option.map_eq_some_iff.mp hstep
    exact ⟨h.fit, h.standing, h.counts⟩

/-- However the commands interleave, the agent drains exactly if its last answer to a drain command
says so, it has the jobs that its answers say are recorded and those that validators have recorded,
in this order, and the number of jobs in an answer is the number at that moment. -/
theorem standing_of_answers {maxDepth : ℕ} {as : List Action} {s : Link}
    (h : exec (step cfg) (init maxDepth) as = some s) :
    s.runtime.standing = s.events.foldl Standing.after {} ∧
      ∀ earlier e later, s.events = earlier ++ e :: later →
        e.Counts (earlier.foldl Standing.after {}) := by
  have hs := exec_invariant' told_step (told_init maxDepth) h
  exact ⟨hs.standing, hs.counts⟩

theorem standing_of_answers_sample :
    ∃ s, exec (step sampleConfig) (init 4) sampleRun = some s ∧
      s.runtime.jobs.keys = ["j".toList] ∧
      s.runtime.standing = s.events.foldl Standing.after {} ∧
      ∀ earlier e later, s.events = earlier ++ e :: later →
        e.Counts (earlier.foldl Standing.after {}) := by
  have hrun : ((exec (step sampleConfig) (init 4) sampleRun).map fun s => s.runtime.jobs.keys) =
      some ["j".toList] := by
    decide +kernel
  obtain ⟨s, hs, hkeys⟩ := Option.map_eq_some_iff.mp hrun
  exact ⟨s, hs, hkeys, standing_of_answers hs⟩

end ComputePool.Agent.Control
