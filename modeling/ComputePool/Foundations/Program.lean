import Mathlib.Data.List.Basic

/-!
# Programs of commands

A coroutine as the tree of what it may do: read or write the state it shares with the other
coroutines of its process, or send a command to another machine and go on with the reply. Only a
command is a point at which the coroutine waits; what stands between two commands runs in one
piece.

The other machine is a partial function `exec : κ → ο → ω → Option (ρ × ω)`: the command `c` in
the state `w` may end with the outcome `o` if `exec c o w` is defined, and then gives the reply and
the next state.

* `run exec p os s w` is the run of `p` in which its commands end with the outcomes `os`, and
  `after exec p os s w` the state in which it is cut off after these commands.
* `wp exec I p Q s w` says that `I` holds whenever `p` waits and that every run of `p` ends in `Q`;
  `run_of_wp`, `after_of_wp` and `wp_of_run` relate it to runs, and `wp_bind`, `wp_forEach` and
  `wp_mono` are its rules.
* `zoom` lets a program that knows a part of the state act on the whole, and `withVars` gives a
  program variables of its own.
* `within S J p Q` says that `p` sends only commands in `S` and keeps `J`, whatever it is answered;
  `wp_of_within` makes an invariant of the machine one of the program.
* `logged exec` keeps the commands and their outcomes, and `echo` is the machine that gives any
  reply.
-/

/-- A program with shared state `σ`, commands `κ` and replies `ρ`. -/
inductive Program (σ κ ρ α : Type)
  | ret (a : α)
  | get (k : σ → Program σ κ ρ α)
  | put (s : σ) (p : Program σ κ ρ α)
  | call (c : κ) (k : ρ → Program σ κ ρ α)

namespace Program

variable {σ τ κ ρ ο ω α β : Type}

/-! ## Composition -/

/-- Run a program, then what depends on its value. -/
def bind : Program σ κ ρ α → (α → Program σ κ ρ β) → Program σ κ ρ β
  | ret a, f => f a
  | get k, f => get fun s => (k s).bind f
  | put s p, f => put s (p.bind f)
  | call c k, f => call c fun r => (k r).bind f

instance : Monad (Program σ κ ρ) where
  pure := ret
  bind := bind

/-- The shared state. -/
def read : Program σ κ ρ σ :=
  get ret

/-- Change the shared state. -/
def modify (f : σ → σ) : Program σ κ ρ Unit :=
  get fun s => put (f s) (ret ())

/-- Send a command and wait for the reply. -/
def send (c : κ) : Program σ κ ρ ρ :=
  call c ret

/-- A loop over a list that carries a value along. -/
def forEach (f : β → α → Program σ κ ρ β) : List α → β → Program σ κ ρ β
  | [], b => ret b
  | a :: as, b => (f b a).bind (forEach f as)

/-- A program on a part of the state, as a program on the whole. -/
def zoom (view : τ → σ) (set : τ → σ → τ) : Program σ κ ρ α → Program τ κ ρ α
  | ret a => ret a
  | get k => get fun t => (k (view t)).zoom view set
  | put s p => get fun t => put (set t s) (p.zoom view set)
  | call c k => call c fun r => (k r).zoom view set

/-- A program with variables of its own, as a program on the shared state: the variables start
as given and are handed back at the end. -/
def withVars {ν : Type} : Program (ν × σ) κ ρ α → ν → Program σ κ ρ (α × ν)
  | ret a, v => ret (a, v)
  | get k, v => get fun s => (k (v, s)).withVars v
  | put t p, _ => put t.2 (p.withVars t.1)
  | call c k, v => call c fun r => (k r).withVars v

/-! ## Runs -/

/-- The run in which the commands end with the given outcomes, one for each command. -/
def run (exec : κ → ο → ω → Option (ρ × ω)) :
    Program σ κ ρ α → List ο → σ → ω → Option (α × σ × ω)
  | ret a, [], s, w => some (a, s, w)
  | ret _, _ :: _, _, _ => none
  | get k, os, s, w => (k s).run exec os s w
  | put t p, os, _, w => p.run exec os t w
  | call _ _, [], _, _ => none
  | call c k, o :: os, s, w => (exec c o w).bind fun next => (k next.1).run exec os s next.2

/-- The state after the commands have ended with the given outcomes: the program waits for another
one, or it is done. -/
def after (exec : κ → ο → ω → Option (ρ × ω)) :
    Program σ κ ρ α → List ο → σ → ω → Option (σ × ω)
  | ret _, [], s, w => some (s, w)
  | ret _, _ :: _, _, _ => none
  | get k, os, s, w => (k s).after exec os s w
  | put t p, os, _, w => p.after exec os t w
  | call _ _, [], s, w => some (s, w)
  | call c k, o :: os, s, w => (exec c o w).bind fun next => (k next.1).after exec os s next.2

/-- `I` holds whenever the program waits, and every run ends in `Q`. -/
def wp (exec : κ → ο → ω → Option (ρ × ω)) (I : σ → ω → Prop) :
    Program σ κ ρ α → (α → σ → ω → Prop) → σ → ω → Prop
  | ret a, Q, s, w => Q a s w
  | get k, Q, s, w => (k s).wp exec I Q s w
  | put t p, Q, _, w => p.wp exec I Q t w
  | call c k, Q, s, w =>
    I s w ∧ ∀ o r w', exec c o w = some (r, w') → (k r).wp exec I Q s w'

variable {exec : κ → ο → ω → Option (ρ × ω)} {I : σ → ω → Prop}

/-- A run ends in a state that the weakest precondition promised, whatever was answered on the way.
-/
theorem run_of_wp {p : Program σ κ ρ α} {Q : α → σ → ω → Prop} {os : List ο} {s s' : σ}
    {w w' : ω} {a : α} (h : p.wp exec I Q s w) (hrun : p.run exec os s w = some (a, s', w')) :
    Q a s' w' := by
  induction p generalizing os s w with
  | ret b =>
    -- a run that ends uses up its outcomes
    cases os with
    | nil =>
      obtain ⟨rfl, rfl, rfl⟩ := by simpa [run] using hrun
      exact h
    | cons o os => simp [run] at hrun
  | get k ih => exact ih s h hrun
  | put t p ih => exact ih h hrun
  | call c k ih =>
    cases os with
    | nil => simp [run] at hrun
    | cons o os =>
      -- the outcome leads to one next state, and `wp` holds for all of them
      obtain ⟨next, hnext, hrest⟩ := Option.bind_eq_some_iff.mp hrun
      exact ih next.1 (h.2 o next.1 next.2 hnext) hrest

/-- What holds whenever a program waits and when it is done holds wherever it is cut off. -/
theorem after_of_wp {p : Program σ κ ρ α} {os : List ο} {s s' : σ} {w w' : ω}
    (h : p.wp exec I (fun _ => I) s w) (hafter : p.after exec os s w = some (s', w')) :
    I s' w' := by
  induction p generalizing os s w with
  | ret b =>
    cases os with
    | nil =>
      obtain ⟨rfl, rfl⟩ := by simpa [after] using hafter
      exact h
    | cons o os => simp [after] at hafter
  | get k ih => exact ih s h hafter
  | put t p ih => exact ih h hafter
  | call c k ih =>
    cases os with
    -- the run stops before this command, where the invariant is known to hold
    | nil =>
      obtain ⟨rfl, rfl⟩ := by simpa [after] using hafter
      exact h.1
    | cons o os =>
      obtain ⟨next, hnext, hrest⟩ := Option.bind_eq_some_iff.mp hafter
      exact ih next.1 (h.2 o next.1 next.2 hnext) hrest

/-- What holds after every run is a weakest precondition, when nothing is asked in between. -/
theorem wp_of_run {p : Program σ κ ρ α} {Q : α → σ → ω → Prop} {s : σ} {w : ω}
    (h : ∀ os a s' w', p.run exec os s w = some (a, s', w') → Q a s' w') :
    p.wp exec (fun _ _ => True) Q s w := by
  induction p generalizing s w with
  | ret a => exact h [] a s w rfl
  | get k ih => exact ih s h
  | put t p ih => exact ih h
  | call c k ih =>
    refine ⟨trivial, fun o r w' hexec => ih r fun os a s'' w'' hrun => h (o :: os) a s'' w'' ?_⟩
    rw [run, hexec]
    exact hrun

/-! ## Rules -/

@[simp]
theorem wp_pure (a : α) (Q : α → σ → ω → Prop) (s : σ) (w : ω) :
    wp exec I (pure a : Program σ κ ρ α) Q s w ↔ Q a s w := Iff.rfl

@[simp]
theorem wp_ret (a : α) (Q : α → σ → ω → Prop) (s : σ) (w : ω) :
    wp exec I (ret a : Program σ κ ρ α) Q s w ↔ Q a s w := Iff.rfl

@[simp]
theorem wp_read (Q : σ → σ → ω → Prop) (s : σ) (w : ω) :
    wp exec I (read : Program σ κ ρ σ) Q s w ↔ Q s s w := Iff.rfl

@[simp]
theorem wp_modify (f : σ → σ) (Q : Unit → σ → ω → Prop) (s : σ) (w : ω) :
    wp exec I (modify f : Program σ κ ρ Unit) Q s w ↔ Q () (f s) w := Iff.rfl

@[simp]
theorem wp_send (c : κ) (Q : ρ → σ → ω → Prop) (s : σ) (w : ω) :
    wp exec I (send c) Q s w ↔
      I s w ∧ ∀ o r w', exec c o w = some (r, w') → Q r s w' := Iff.rfl

/-- The rule of consequence. -/
theorem wp_mono {p : Program σ κ ρ α} {Q Q' : α → σ → ω → Prop} {s : σ} {w : ω}
    (h : p.wp exec I Q s w) (hQ : ∀ a s w, Q a s w → Q' a s w) : p.wp exec I Q' s w := by
  induction p generalizing s w with
  | ret a => exact hQ a s w h
  | get k ih => exact ih s h
  | put t p ih => exact ih h
  | call c k ih => exact ⟨h.1, fun o r w' hexec => ih r (h.2 o r w' hexec)⟩

/-- Nothing is asked, so nothing has to be shown. -/
theorem wp_true (p : Program σ κ ρ α) (s : σ) (w : ω) :
    p.wp exec (fun _ _ => True) (fun _ _ _ => True) s w := by
  induction p generalizing s w with
  | ret a => trivial
  | get k ih => exact ih s s w
  | put t p ih => exact ih t w
  | call c k ih => exact ⟨trivial, fun o r w' _ => ih r s w'⟩

/-- The rule of conjunction, over the conditions in between as well. -/
theorem wp_and {I' : σ → ω → Prop} {p : Program σ κ ρ α} {Q Q' : α → σ → ω → Prop} {s : σ} {w : ω}
    (h : p.wp exec I Q s w) (h' : p.wp exec I' Q' s w) :
    p.wp exec I (fun a s w => Q a s w ∧ Q' a s w) s w := by
  induction p generalizing s w with
  | ret a => exact ⟨h, h'⟩
  | get k ih => exact ih s h h'
  | put t p ih => exact ih h h'
  | call c k ih => exact ⟨h.1, fun o r w' hexec => ih r (h.2 o r w' hexec) (h'.2 o r w' hexec)⟩

/-- On a machine that answers every command, what every run ends in is met by some end. -/
theorem exists_of_wp (htotal : ∀ c w, ∃ o next, exec c o w = some next) {p : Program σ κ ρ α}
    {Q : α → σ → ω → Prop} {s : σ} {w : ω} (h : p.wp exec I Q s w) : ∃ a s' w', Q a s' w' := by
  induction p generalizing s w with
  | ret a => exact ⟨a, s, w, h⟩
  | get k ih => exact ih s h
  | put t p ih => exact ih h
  | call c k ih =>
    obtain ⟨o, next, hexec⟩ := htotal c w
    exact ih next.1 (h.2 o next.1 next.2 hexec)

/-- A machine that does less meets what the machine meets. -/
theorem wp_exec_mono {exec' : κ → ο → ω → Option (ρ × ω)}
    (hexec : ∀ c o w r, exec' c o w = some r → exec c o w = some r) {p : Program σ κ ρ α}
    {Q : α → σ → ω → Prop} {s : σ} {w : ω} (h : p.wp exec I Q s w) : p.wp exec' I Q s w := by
  induction p generalizing s w with
  | ret a => exact h
  | get k ih => exact ih s h
  | put t p ih => exact ih h
  | call c k ih => exact ⟨h.1, fun o r w' hr => ih r (h.2 o r w' (hexec c o w _ hr))⟩

/-- The rule of composition, by induction on the first program. -/
theorem wp_bind' (p : Program σ κ ρ α) (f : α → Program σ κ ρ β) (Q : β → σ → ω → Prop) (s : σ)
    (w : ω) :
    (p.bind f).wp exec I Q s w ↔ p.wp exec I (fun a s w => (f a).wp exec I Q s w) s w := by
  induction p generalizing s w with
  | ret a => rfl
  | get k ih => exact ih s s w
  | put t p ih => exact ih t w
  | call c k ih =>
    refine and_congr_right fun _ => ?_
    refine forall_congr' fun o => forall_congr' fun r => forall_congr' fun w' => ?_
    exact imp_congr_right fun _ => ih r s w'

@[simp]
theorem wp_bind (p : Program σ κ ρ α) (f : α → Program σ κ ρ β) (Q : β → σ → ω → Prop) (s : σ)
    (w : ω) :
    (p >>= f).wp exec I Q s w ↔ p.wp exec I (fun a s w => (f a).wp exec I Q s w) s w :=
  wp_bind' p f Q s w

/-- The rule of a branch. -/
@[simp]
theorem wp_ite (c : Prop) [Decidable c] (p q : Program σ κ ρ α) (Q : α → σ → ω → Prop) (s : σ)
    (w : ω) : (if c then p else q).wp exec I Q s w ↔
      if c then p.wp exec I Q s w else q.wp exec I Q s w := by
  by_cases h : c
  · simp [h]
  · simp [h]

/-- A loop keeps what every round of it keeps. The invariant may mention what is left of the
list. -/
theorem wp_forEach {f : β → α → Program σ κ ρ β} {J : List α → β → σ → ω → Prop}
    (hround : ∀ a as b s w, J (a :: as) b s w → (f b a).wp exec I (J as) s w)
    {as : List α} {b : β} {s : σ} {w : ω} (h : J as b s w) :
    (forEach f as b).wp exec I (J []) s w := by
  induction as generalizing b s w with
  | nil => exact h
  | cons a as ih =>
    rw [forEach, wp_bind']
    exact wp_mono (hround a as b s w h) fun b' s' w' h' => ih h'

/-! ## Programs that raise -/

section Raising

variable {ε : Type}

@[simp]
theorem wp_run_pure (a : α) (Q : Except ε α → σ → ω → Prop) (s : σ) (w : ω) :
    wp exec I (pure a : ExceptT ε (Program σ κ ρ) α).run Q s w ↔ Q (.ok a) s w := Iff.rfl

@[simp]
theorem wp_run_throw (e : ε) (Q : Except ε α → σ → ω → Prop) (s : σ) (w : ω) :
    wp exec I (throw e : ExceptT ε (Program σ κ ρ) α).run Q s w ↔ Q (.error e) s w := Iff.rfl

@[simp]
theorem wp_run_lift (p : Program σ κ ρ α) (Q : Except ε α → σ → ω → Prop) (s : σ) (w : ω) :
    wp exec I (ExceptT.lift p : ExceptT ε (Program σ κ ρ) α).run Q s w ↔
      p.wp exec I (fun a s w => Q (.ok a) s w) s w :=
  wp_bind' p _ Q s w

/-- What a program that may raise hands on: a value to the rest, or an exception past it. -/
def handOn (exec : κ → ο → ω → Option (ρ × ω)) (I : σ → ω → Prop)
    (f : α → ExceptT ε (Program σ κ ρ) β) (Q : Except ε β → σ → ω → Prop) :
    Except ε α → σ → ω → Prop
  | .ok a => fun s w => wp exec I (f a).run Q s w
  | .error e => Q (.error e)

@[simp]
theorem handOn_ok (f : α → ExceptT ε (Program σ κ ρ) β) (Q : Except ε β → σ → ω → Prop) (a : α)
    (s : σ) (w : ω) : handOn exec I f Q (.ok a) s w ↔ wp exec I (f a).run Q s w := Iff.rfl

@[simp]
theorem handOn_error (f : α → ExceptT ε (Program σ κ ρ) β) (Q : Except ε β → σ → ω → Prop)
    (e : ε) (s : σ) (w : ω) : handOn exec I f Q (.error e) s w ↔ Q (.error e) s w := Iff.rfl

/-- The rule of composition for a program that can raise: an exception is handed on past the rest.
-/
@[simp]
theorem wp_run_bind (p : ExceptT ε (Program σ κ ρ) α) (f : α → ExceptT ε (Program σ κ ρ) β)
    (Q : Except ε β → σ → ω → Prop) (s : σ) (w : ω) :
    wp exec I (p >>= f).run Q s w ↔ p.run.wp exec I (handOn exec I f Q) s w := by
  refine (wp_bind' p.run _ Q s w).trans ?_
  have hpost : (fun (r : Except ε α) s w => wp exec I (ExceptT.bindCont f r) Q s w) =
      handOn exec I f Q := by
    funext r s w
    cases r with
    | ok a => rfl
    | error e => rfl
  exact iff_of_eq (congrArg (fun post => p.run.wp exec I post s w) hpost)

/-- The rule of a branch, for a program that can raise. -/
@[simp]
theorem wp_run_ite (c : Prop) [Decidable c] (p q : ExceptT ε (Program σ κ ρ) α)
    (Q : Except ε α → σ → ω → Prop) (s : σ) (w : ω) :
    wp exec I (if c then p else q).run Q s w ↔
      if c then wp exec I p.run Q s w else wp exec I q.run Q s w := by
  by_cases h : c
  · simp [h]
  · simp [h]

end Raising

section Zoom

variable {view : τ → σ} {set : τ → σ → τ} {J : τ → ω → Prop}

/-- A program on a part of the state that runs on the whole leaves the rest as it was. -/
theorem wp_zoom (hview : ∀ t s, view (set t s) = s) (hset : ∀ t s s', set (set t s) s' = set t s')
    (hself : ∀ t, set t (view t) = t) {p : Program σ κ ρ α} {Q : α → τ → ω → Prop} {t : τ} {w : ω} :
    (p.zoom view set).wp exec J Q t w ↔
      p.wp exec (fun s w => J (set t s) w) (fun a s w => Q a (set t s) w) (view t) w := by
  induction p generalizing t w with
  | ret a => rw [zoom, wp_ret, wp_ret, hself]
  | get k ih => exact ih (view t)
  | put s p ih =>
    refine Iff.trans (ih (t := set t s)) ?_
    simp only [hview, hset]
    rfl
  | call c k ih =>
    refine and_congr (by simp only [hself]) ?_
    refine forall_congr' fun o => forall_congr' fun r => forall_congr' fun w' => ?_
    exact imp_congr_right fun _ => ih r

end Zoom

/-- Variables of a program are part of the state it is reasoned about with. -/
theorem wp_withVars {ν : Type} {p : Program (ν × σ) κ ρ α} {v : ν} {Q : α × ν → σ → ω → Prop}
    {s : σ} {w : ω} :
    (p.withVars v).wp exec I Q s w ↔
      p.wp exec (fun t w => I t.2 w) (fun a t w => Q (a, t.1) t.2 w) (v, s) w := by
  induction p generalizing v s w with
  | ret a => rfl
  | get k ih => exact ih (v, s)
  | put t p ih => exact ih
  | call c k ih =>
    refine and_congr_right fun _ => ?_
    refine forall_congr' fun o => forall_congr' fun r => forall_congr' fun w' => ?_
    exact imp_congr_right fun _ => ih r

/-! ## What a program may send -/

/-- Whatever the replies are, the program sends only commands in `S`, keeps `J` of the shared state,
and ends with a value of which `Q` holds. -/
def within (S : κ → Prop) (J : σ → Prop) : Program σ κ ρ α → (α → Prop) → Prop
  | ret a, Q => Q a
  | get k, Q => ∀ s, J s → (k s).within S J Q
  | put s p, Q => J s ∧ p.within S J Q
  | call c k, Q => S c ∧ ∀ r, (k r).within S J Q

section Within

variable {S : κ → Prop} {J : σ → Prop}

/-- What every command of the program keeps is kept by the program. -/
theorem wp_of_within {K : ω → Prop}
    (hstep : ∀ c o w r w', S c → exec c o w = some (r, w') → K w → K w')
    (hI : ∀ s w, J s → K w → I s w) {p : Program σ κ ρ α} {Q : α → Prop} {s : σ} {w : ω}
    (h : p.within S J Q) (hJ : J s) (hK : K w) :
    p.wp exec I (fun a s w => Q a ∧ J s ∧ K w) s w := by
  induction p generalizing s w with
  | ret a => exact ⟨h, hJ, hK⟩
  | get k ih => exact ih s (h s hJ) hJ hK
  | put t p ih => exact ih h.2 h.1 hK
  | call c k ih =>
    exact ⟨hI s w hJ hK, fun o r w' hexec => ih r (h.2 r) hJ (hstep c o w r w' h.1 hexec hK)⟩

/-- The rule of consequence for what a program may issue and put. -/
theorem within_mono {p : Program σ κ ρ α} {Q Q' : α → Prop} (h : p.within S J Q)
    (hQ : ∀ a, Q a → Q' a) : p.within S J Q' := by
  induction p with
  | ret a => exact hQ a h
  | get k ih => exact fun s hJ => ih s (h s hJ)
  | put s p ih => exact ⟨h.1, ih h.2⟩
  | call c k ih => exact ⟨h.1, fun r => ih r (h.2 r)⟩

/-- Where nothing is forbidden, every program is within bounds. -/
theorem within_true (p : Program σ κ ρ α) :
    p.within (fun _ => True) (fun _ => True) fun _ => True := by
  induction p with
  | ret a => trivial
  | get k ih => exact fun s _ => ih s
  | put s p ih => exact ⟨trivial, ih⟩
  | call c k ih => exact ⟨trivial, fun r => ih r⟩

@[simp]
theorem within_pure (a : α) (Q : α → Prop) :
    (pure a : Program σ κ ρ α).within S J Q ↔ Q a := Iff.rfl

@[simp]
theorem within_ret (a : α) (Q : α → Prop) :
    (ret a : Program σ κ ρ α).within S J Q ↔ Q a := Iff.rfl

@[simp]
theorem within_read (Q : σ → Prop) :
    (read : Program σ κ ρ σ).within S J Q ↔ ∀ s, J s → Q s := Iff.rfl

@[simp]
theorem within_modify (f : σ → σ) (Q : Unit → Prop) :
    (modify f : Program σ κ ρ Unit).within S J Q ↔ ∀ s, J s → J (f s) ∧ Q () := Iff.rfl

@[simp]
theorem within_send (c : κ) (Q : ρ → Prop) :
    (send c : Program σ κ ρ ρ).within S J Q ↔ S c ∧ ∀ r, Q r := Iff.rfl

/-- The rule of composition for what a program may issue and put. -/
theorem within_bind' (p : Program σ κ ρ α) (f : α → Program σ κ ρ β) (Q : β → Prop) :
    (p.bind f).within S J Q ↔ p.within S J fun a => (f a).within S J Q := by
  induction p with
  | ret a => rfl
  | get k ih => exact forall_congr' fun s => imp_congr_right fun _ => ih s
  | put s p ih => exact and_congr_right fun _ => ih
  | call c k ih => exact and_congr_right fun _ => forall_congr' fun r => ih r

@[simp]
theorem within_bind (p : Program σ κ ρ α) (f : α → Program σ κ ρ β) (Q : β → Prop) :
    (p >>= f).within S J Q ↔ p.within S J fun a => (f a).within S J Q :=
  within_bind' p f Q

/-- The rule of a branch for what a program may issue and put. -/
@[simp]
theorem within_ite (c : Prop) [Decidable c] (p q : Program σ κ ρ α) (Q : α → Prop) :
    (if c then p else q).within S J Q ↔ if c then p.within S J Q else q.within S J Q := by
  by_cases h : c
  · simp [h]
  · simp [h]

/-- A loop stays within bounds that each of its rounds keeps. -/
theorem within_forEach {f : β → α → Program σ κ ρ β} {as : List α}
    (hround : ∀ a ∈ as, ∀ b, (f b a).within S J fun _ => True) (b : β) :
    (forEach f as b).within S J fun _ => True := by
  induction as generalizing b with
  | nil => trivial
  | cons a as ih =>
    rw [forEach, within_bind']
    refine within_mono (hround a List.mem_cons_self b) fun b' _ => ?_
    exact ih (fun a' ha' => hround a' (List.mem_cons_of_mem a ha')) b'

/-- A program on a part of the state keeps what does not depend on that part. -/
theorem within_zoom {view : τ → σ} {set : τ → σ → τ} {K : τ → Prop}
    (hset : ∀ t s, K t → K (set t s)) {p : Program σ κ ρ α} {Q : α → Prop}
    (h : p.within S (fun _ => True) Q) : (p.zoom view set).within S K Q := by
  induction p with
  | ret a => exact h
  | get k ih => exact fun t _ => ih (view t) (h (view t) trivial)
  | put s p ih => exact fun t hK => ⟨hset t s hK, ih h.2⟩
  | call c k ih => exact ⟨h.1, fun r => ih r (h.2 r)⟩

variable {ε : Type}

@[simp]
theorem within_run_pure (a : α) (Q : Except ε α → Prop) :
    (pure a : ExceptT ε (Program σ κ ρ) α).run.within S J Q ↔ Q (.ok a) := Iff.rfl

@[simp]
theorem within_run_throw (e : ε) (Q : Except ε α → Prop) :
    (throw e : ExceptT ε (Program σ κ ρ) α).run.within S J Q ↔ Q (.error e) := Iff.rfl

@[simp]
theorem within_run_lift (p : Program σ κ ρ α) (Q : Except ε α → Prop) :
    (ExceptT.lift p : ExceptT ε (Program σ κ ρ) α).run.within S J Q ↔
      p.within S J fun a => Q (.ok a) :=
  within_bind' p _ Q

/-- A value goes on to the rest of the program, an exception past it. -/
def passOn (S : κ → Prop) (J : σ → Prop) (f : α → ExceptT ε (Program σ κ ρ) β)
    (Q : Except ε β → Prop) : Except ε α → Prop
  | .ok a => (f a).run.within S J Q
  | .error e => Q (.error e)

@[simp]
theorem passOn_ok (f : α → ExceptT ε (Program σ κ ρ) β) (Q : Except ε β → Prop) (a : α) :
    passOn S J f Q (.ok a) ↔ (f a).run.within S J Q := Iff.rfl

@[simp]
theorem passOn_error (f : α → ExceptT ε (Program σ κ ρ) β) (Q : Except ε β → Prop) (e : ε) :
    passOn S J f Q (.error e) ↔ Q (.error e) := Iff.rfl

/-- Composition for a program that can raise. -/
@[simp]
theorem within_run_bind (p : ExceptT ε (Program σ κ ρ) α) (f : α → ExceptT ε (Program σ κ ρ) β)
    (Q : Except ε β → Prop) :
    (p >>= f).run.within S J Q ↔ p.run.within S J (passOn S J f Q) := by
  refine (within_bind' p.run _ Q).trans ?_
  have hpost : (fun r : Except ε α => (ExceptT.bindCont f r).within S J Q) =
      passOn S J f Q := by
    ext r
    cases r with
    | ok a => rfl
    | error e => rfl
  exact iff_of_eq (congrArg (fun post => p.run.within S J post) hpost)

/-- Where nothing is asked of the value, the parts of a program are looked at one by one. -/
theorem within_run_seq {p : ExceptT ε (Program σ κ ρ) α} {f : α → ExceptT ε (Program σ κ ρ) β}
    (hp : p.run.within S J fun _ => True) (hf : ∀ a, (f a).run.within S J fun _ => True) :
    (p >>= f).run.within S J fun _ => True := by
  rw [within_run_bind]
  refine within_mono hp fun r _ => ?_
  cases r with
  | ok a => exact hf a
  | error e => trivial

/-- The rule for a part of a program of which only the footprint is known. -/
theorem wp_run_seq_of_within {K : ω → Prop}
    (hstep : ∀ c o w r w', S c → exec c o w = some (r, w') → K w → K w')
    (hI : ∀ s w, J s → K w → I s w) {p : ExceptT ε (Program σ κ ρ) α}
    {f : α → ExceptT ε (Program σ κ ρ) β} {Q : Except ε β → σ → ω → Prop} {s : σ} {w : ω}
    (h : p.run.within S J fun _ => True) (hJ : J s) (hK : K w)
    (herror : ∀ e s w, J s → K w → Q (.error e) s w)
    (hrest : ∀ a s w, J s → K w → (f a).run.wp exec I Q s w) :
    (p >>= f).run.wp exec I Q s w := by
  rw [wp_run_bind]
  refine wp_mono (wp_of_within hstep hI h hJ hK) fun r s w hpost => ?_
  cases r with
  | ok a => exact hrest a s w hpost.2.1 hpost.2.2
  | error e => exact herror e s w hpost.2.1 hpost.2.2

/-- The rule of a branch, for a program that can raise. -/
@[simp]
theorem within_run_ite (c : Prop) [Decidable c] (p q : ExceptT ε (Program σ κ ρ) α)
    (Q : Except ε α → Prop) :
    (if c then p else q).run.within S J Q ↔
      if c then p.run.within S J Q else q.run.within S J Q := by
  by_cases h : c
  · simp [h]
  · simp [h]

end Within

/-! ## The commands of a run -/

/-- The machine with the list of the commands it has been sent, and how each one ended. -/
def logged (exec : κ → ο → ω → Option (ρ × ω)) (c : κ) (o : ο) (w : ω × List (κ × ο)) :
    Option (ρ × ω × List (κ × ο)) :=
  (exec c o w.1).map fun next => (next.1, next.2, w.2 ++ [(c, o)])

/-- A logged call is the call, with one line more in the log. -/
theorem logged_eq_some {c : κ} {o : ο} {w w' : ω × List (κ × ο)} {r : ρ}
    (h : logged exec c o w = some (r, w')) :
    exec c o w.1 = some (r, w'.1) ∧ w'.2 = w.2 ++ [(c, o)] := by
  obtain ⟨next, hexec, hnext⟩ := Option.map_eq_some_iff.mp h
  obtain ⟨rfl, rfl⟩ := Prod.mk.inj hnext
  exact ⟨hexec, rfl⟩

/-- The list of outcomes is the one the run was given. -/
theorem outcomes_of_run_logged {p : Program σ κ ρ α} {os : List ο} {s s' : σ}
    {w w' : ω × List (κ × ο)} {a : α} (h : p.run (logged exec) os s w = some (a, s', w')) :
    w'.2.map Prod.snd = w.2.map Prod.snd ++ os := by
  induction p generalizing os s w with
  | ret b =>
    cases os with
    | nil =>
      obtain ⟨-, -, rfl⟩ := by simpa [run] using h
      simp
    | cons o os => simp [run] at h
  | get k ih => exact ih s h
  | put t p ih => exact ih h
  | call c k ih =>
    cases os with
    | nil => simp [run] at h
    | cons o os =>
      obtain ⟨next, hnext, hrest⟩ := Option.bind_eq_some_iff.mp h
      -- the command that is sent is logged with its outcome
      rw [ih next.1 hrest, (logged_eq_some hnext).2]
      simp

/-- A run is one of the machine that keeps the list, too. -/
theorem exists_run_logged {p : Program σ κ ρ α} {os : List ο} {s s' : σ} {w w' : ω} {a : α}
    (h : p.run exec os s w = some (a, s', w')) (log : List (κ × ο)) :
    ∃ log', p.run (logged exec) os s (w, log) = some (a, s', w', log') := by
  induction p generalizing os s w log with
  | ret b =>
    cases os with
    | nil =>
      obtain ⟨rfl, rfl, rfl⟩ := by simpa [run] using h
      exact ⟨log, rfl⟩
    | cons o os => simp [run] at h
  | get k ih => exact ih s h log
  | put t p ih => exact ih h log
  | call c k ih =>
    cases os with
    | nil => simp [run] at h
    | cons o os =>
      obtain ⟨next, hnext, hrest⟩ := Option.bind_eq_some_iff.mp h
      obtain ⟨log', hlog⟩ := ih next.1 hrest (log ++ [(c, o)])
      refine ⟨log', ?_⟩
      rw [run, logged, hnext]
      exact hlog

/-- A machine without a state that answers what it is told to. -/
def echo (_ : κ) (r : ρ) (w : Unit) : Option (ρ × Unit) :=
  some (r, w)

/-- Every reply is possible, and the list keeps it. -/
theorem wp_send_echo {Q : ρ → σ → Unit × List (κ × ρ) → Prop} {c : κ} {s : σ}
    {w : Unit × List (κ × ρ)} (h : ∀ r, Q r s ((), w.2 ++ [(c, r)])) :
    (send c : Program σ κ ρ ρ).wp (logged echo) (fun _ _ => True) Q s w := by
  refine ⟨trivial, fun o r w' hexec => ?_⟩
  obtain ⟨next, hnext, hlog⟩ := Option.map_eq_some_iff.mp hexec
  obtain rfl := Option.some.inj hnext
  obtain ⟨rfl, rfl⟩ := Prod.mk.inj hlog
  exact h _

/-- The rule with something that holds whenever the program waits. -/
theorem wp_send_echo_of {I : σ → Unit × List (κ × ρ) → Prop}
    {Q : ρ → σ → Unit × List (κ × ρ) → Prop} {c : κ} {s : σ} {w : Unit × List (κ × ρ)}
    (hI : I s w) (h : ∀ r, Q r s ((), w.2 ++ [(c, r)])) :
    (send c : Program σ κ ρ ρ).wp (logged echo) I Q s w := by
  refine ⟨hI, fun o r w' hexec => ?_⟩
  obtain ⟨next, hnext, hlog⟩ := Option.map_eq_some_iff.mp hexec
  obtain rfl := Option.some.inj hnext
  obtain ⟨rfl, rfl⟩ := Prod.mk.inj hlog
  exact h _

theorem logged_total (htotal : ∀ c w, ∃ o next, exec c o w = some next) (c : κ)
    (w : ω × List (κ × ο)) : ∃ o next, logged exec c o w = some next := by
  obtain ⟨o, next, hexec⟩ := htotal c w.1
  exact ⟨o, _, by rw [logged, hexec]; rfl⟩

/-- The log only grows, so a postcondition may assume that it has grown from where it was. -/
theorem wp_of_extends' {log : List (κ × ο)} {p : Program σ κ ρ α}
    {Q : α → σ → ω × List (κ × ο) → Prop} {s : σ} {w : ω × List (κ × ο)} (hlog : log <+: w.2)
    (h : p.wp (logged exec) (fun _ _ => True) (fun a s' w' => log <+: w'.2 → Q a s' w') s w) :
    p.wp (logged exec) (fun _ _ => True) Q s w := by
  induction p generalizing s w with
  | ret a => exact h hlog
  | get k ih => exact ih s hlog h
  | put t p ih => exact ih hlog h
  | call c k ih =>
    refine ⟨trivial, fun o r w' hexec => ih r ?_ (h.2 o r w' hexec)⟩
    rw [(logged_eq_some hexec).2]
    exact hlog.trans (List.prefix_append _ _)

/-- The list only grows, so what holds after a program may be shown knowing that it did. -/
theorem wp_of_extends {p : Program σ κ ρ α} {Q : α → σ → ω × List (κ × ο) → Prop} {s : σ}
    {w : ω × List (κ × ο)}
    (h : p.wp (logged exec) (fun _ _ => True) (fun a s' w' => w.2 <+: w'.2 → Q a s' w') s w) :
    p.wp (logged exec) (fun _ _ => True) Q s w :=
  wp_of_extends' (List.prefix_refl _) h

/-- A run does not look at the list it starts with. -/
theorem run_logged {p : Program σ κ ρ α} {os : List ο} {s : σ} (w : ω) (log : List (κ × ο)) :
    p.run (logged exec) os s (w, log) =
      (p.run (logged exec) os s (w, [])).map fun r => (r.1, r.2.1, r.2.2.1, log ++ r.2.2.2) := by
  induction p generalizing os s w log with
  | ret a =>
    cases os with
    | nil => simp [run]
    | cons o os => rfl
  | get k ih => exact ih s w log
  | put t p ih => exact ih w log
  | call c k ih =>
    cases os with
    | nil => rfl
    | cons o os =>
      -- the log is only appended to, so what was there stays in front
      simp only [run, logged]
      cases exec c o w with
      | none => rfl
      | some next =>
        simp only [Option.map_some, Option.bind_some]
        rw [ih next.1 next.2 (log ++ [(c, o)]), ih next.1 next.2 ([] ++ [(c, o)]), Option.map_map]
        simp only [Function.comp_def, List.append_assoc, List.nil_append]

/-- The rule for a program of which only its own runs are known. -/
theorem wp_of_run_logged {p : Program σ κ ρ α} {Q : α → σ → ω × List (κ × ο) → Prop} {s : σ}
    {w : ω × List (κ × ο)}
    (h : ∀ os a s' w' log, p.run (logged exec) os s (w.1, []) = some (a, s', w', log) →
      Q a s' (w', w.2 ++ log)) :
    p.wp (logged exec) (fun _ _ => True) Q s w := by
  refine wp_of_run fun os a s' w' hrun => ?_
  have hframe : p.run (logged exec) os s w = _ := run_logged w.1 w.2
  rw [hframe] at hrun
  obtain ⟨⟨a₀, s₀, w₀, log⟩, hfresh, heq⟩ := Option.map_eq_some_iff.mp hrun
  simp only [Prod.mk.injEq] at heq
  obtain ⟨rfl, rfl, rfl⟩ := heq
  exact h os a₀ s₀ w₀ log hfresh

end Program
