import Mathlib.Data.Char
import Mathlib.Data.List.Dedup
import Mathlib.Data.List.Lex
import Mathlib.Data.List.Sort
import ComputePool.Agent.Api.Auth
import ComputePool.Foundations.Durable
import ComputePool.Foundations.Json

/-!
# The active validators

`ValidatorSet` of `agent/api/auth.py`, as `refresh_validators` of `agent/main.py` keeps it: the
hotkeys that the server has named last. They are saved in a file, and when the agent is started it
takes them from there until the server has answered.

* `hotkeysOf_save`: the file is read as it was written.
* `accepted_was_named`: whoever is let in was named by the server, in one answer with everybody else
  who is let in at that moment, however often the agent was stopped since then.
-/

namespace ComputePool.Agent

open Text Transition Durable Protocol
open Json (Printer Raised)

/-- `validators` of `agent/control/client.py`: the hotkeys in an answer of the server. -/
def hotkeysIn (p : Printer) (answer : Json) : Except Raised (List Str) := do
  match answer with
  | .dict fields =>
    let items ← (Json.field fields "validators" (.list [])).iter
    return (items.filter Json.truthy).map (Json.toStr p)
  | _ => return []

/-- `ValidatorSet._hotkeys`: the elements of the set, in the order in which `hotkeys` lists them. -/
abbrev Hotkeys := List Str

/-- `frozenset(items)`. -/
def frozen (items : List Str) : Hotkeys :=
  items.dedup.insertionSort (· ≤ ·)

/-- The hotkeys that `update` keeps of a list. -/
def cleaned (hotkeys : List Str) : Hotkeys :=
  frozen ((hotkeys.map strip).filter (· ≠ []))

/-- `refresh_validators` on an answer: one that is empty, or raises, changes nothing. -/
def refresh (p : Printer) (validators : Hotkeys) (answer : Json) : Option Hotkeys :=
  match hotkeysIn p answer with
  | .error _ | .ok [] => some validators
  | .ok found => some (cleaned found)

/-- What `update` writes. -/
def saveHotkeys (updatedAt : ℚ) (validators : Hotkeys) : Json :=
  .dict [("validators".toList, .list (validators.map Json.str)),
    ("updated_at".toList, .float (.fin updatedAt))]

/-- What `_load` finds in the value of a file. -/
def hotkeysOf (p : Printer) : Json → Hotkeys
  | .dict saved =>
    match Dict.get? saved "validators".toList with
    | some (.list found) => frozen ((found.filter Json.truthy).map (Json.toStr p))
    | _ => []
  | _ => []

/-- How the hotkeys are kept. A file that is not there leaves the set empty. -/
def hotkeysFormat (p : Printer) (updatedAt : ℚ) : Format Hotkeys Json where
  save := saveHotkeys updatedAt
  load file := (file.map (hotkeysOf p)).getD []

@[simp]
theorem mem_frozen {hotkey : Str} {items : List Str} : hotkey ∈ frozen items ↔ hotkey ∈ items := by
  rw [frozen, List.mem_insertionSort, List.mem_dedup]

/-- A set is the set of its elements. -/
theorem frozen_frozen (items : List Str) : frozen (frozen items) = frozen items := by
  have hperm : (frozen items).Perm items.dedup := List.perm_insertionSort _ _
  have hnodup : (frozen items).Nodup := hperm.nodup_iff.mpr (List.nodup_dedup items)
  have hsorted : (frozen items).Pairwise (· ≤ ·) := List.pairwise_insertionSort _ _
  rw [frozen, hnodup.dedup]
  exact hsorted.insertionSort_eq

/-- The file is read as it was written. -/
theorem hotkeysOf_save (p : Printer) (updatedAt : ℚ) {validators : Hotkeys}
    (hset : frozen validators = validators) (h : [] ∉ validators) :
    hotkeysOf p (saveHotkeys updatedAt validators) = validators := by
  have hfield : Dict.get? [("validators".toList, Json.list (validators.map Json.str)),
      ("updated_at".toList, .float (.fin updatedAt))] "validators".toList =
      some (.list (validators.map Json.str)) := rfl
  have htruthy : (validators.map Json.str).filter Json.truthy = validators.map Json.str := by
    refine List.filter_eq_self.mpr fun value hvalue => ?_
    obtain ⟨hotkey, hhotkey, rfl⟩ := List.mem_map.mp hvalue
    have hne : hotkey ≠ [] := fun hnil => h (hnil ▸ hhotkey)
    simpa [Json.truthy] using hne
  have htexts : (validators.map Json.str).map (Json.toStr p) = validators := by
    rw [List.map_map]
    exact (List.map_congr_left fun _ _ => rfl).trans (List.map_id _)
  rw [saveHotkeys, hotkeysOf, hfield]
  dsimp only
  rw [htruthy, htexts, hset]

/-! ## Restarts -/

/-- The agent with its validators. -/
abbrev validatorsStep (p : Printer) (updatedAt : ℚ) :
    Service Hotkeys Json → Event Json Json → Option (Service Hotkeys Json) :=
  Service.step (hotkeysFormat p updatedAt) (refresh p)

/-- Nobody is in the set, or it is one of the answers. -/
structure Named (p : Printer) (answers : List Json) (validators : Hotkeys) : Prop where
  set : frozen validators = validators
  nonempty : [] ∉ validators
  named : validators = [] ∨
    ∃ answer ∈ answers, ∃ found, hotkeysIn p answer = .ok found ∧ validators = cleaned found

theorem nil_not_mem_cleaned (hotkeys : List Str) : [] ∉ cleaned hotkeys := by
  simp [cleaned]

/-- Each of them was in the answer, with white space around it perhaps. -/
theorem mem_cleaned {hotkey : Str} {hotkeys : List Str} :
    hotkey ∈ cleaned hotkeys ↔ hotkey ≠ [] ∧ ∃ named ∈ hotkeys, strip named = hotkey := by
  simp [cleaned, and_comm]

/-- The invariant of `Named` under the rules of a durable service: a refresh takes over what the
answer lists or keeps what there is, and a restart reads the file that an earlier refresh wrote. -/
theorem kept_named (p : Printer) (updatedAt : ℚ) (answers : List Json) :
    Service.Kept (hotkeysFormat p updatedAt) (refresh p) (fun _ answer => answer ∈ answers)
      (fun _ => Named p answers) where
  none _ := ⟨rfl, List.not_mem_nil, Or.inl rfl⟩
  some _ validators h := by
    have hload : (hotkeysFormat p updatedAt).load
        (some ((hotkeysFormat p updatedAt).save validators)) = validators :=
      hotkeysOf_save p updatedAt h.set h.nonempty
    exact hload.symm ▸ h
  act _ validators answer _ h hanswer hact := by
    unfold refresh at hact
    split at hact
    · exact Option.some.inj hact ▸ h
    · exact Option.some.inj hact ▸ h
    · rename_i found _ hfound
      exact Option.some.inj hact ▸
        ⟨frozen_frozen _, nil_not_mem_cleaned found, Or.inr ⟨answer, hanswer, found, hfound, rfl⟩⟩
  mono _ _ h := h

/-- The answers of the server in a run. -/
def answersOf : List (Event Json Json) → List Json
  | [] => []
  | .act answer :: events => answer :: answersOf events
  | _ :: events => answersOf events

/-- Every answer of a run is one of its answers. -/
theorem meets_answers {step : Service Hotkeys Json → Event Json Json →
    Option (Service Hotkeys Json)} {answers : List Json} {events : List (Event Json Json)}
    (h : ∀ answer ∈ answersOf events, answer ∈ answers) (s : Service Hotkeys Json) :
    Meets step (Service.Allows fun _ answer => answer ∈ answers) s events := by
  induction events generalizing s with
  | nil => trivial
  | cons e events ih =>
    cases e with
    | act answer =>
      exact ⟨h answer List.mem_cons_self,
        fun t _ => ih (fun other hother => h other (List.mem_cons_of_mem _ hother)) t⟩
    | _ => exact ⟨trivial, fun t _ => ih h t⟩

/-- Who is let in is an active validator. -/
theorem mem_of_checkRequest {verify : Str → Bytes → Bytes → Bool} {validators : List Str}
    {r : Request} {window moment : ℚ} {hotkey : Str}
    (h : checkRequest verify validators r window moment = .ok hotkey) : hotkey ∈ validators := by
  unfold checkRequest at h
  dsimp only at h
  split_ifs at h with hheaders hactive hfresh hverify
  exact Except.ok.inj h ▸ hactive

/-- **Whoever is let in was named by the server.** In every run of answers, saves and restarts,
wherever a save was cut off: if a request is let in, there is an answer of the server that names its
hotkey and every other one that is let in at that moment, and none besides; and whoever is let in or
not, after a restart the set is the last one that was saved. -/
theorem accepted_was_named {p : Printer} {updatedAt : ℚ}
    {verify : Str → Bytes → Bytes → Bool} {events : List (Event Json Json)}
    {s : Service Hotkeys Json}
    (h : exec (validatorsStep p updatedAt) (Service.start (hotkeysFormat p updatedAt)) events =
      some s) :
    (∀ (r : Request) (window moment : ℚ) (hotkey : Str),
      checkRequest verify s.memory r window moment = .ok hotkey →
        hotkey ∈ s.memory ∧
        ∃ answer ∈ answersOf events, ∃ found, hotkeysIn p answer = .ok found ∧
          ∀ other, other ∈ s.memory ↔ other ≠ [] ∧ ∃ named ∈ found, strip named = other) ∧
      ∀ t, validatorsStep p updatedAt s .crash = some t → t.memory = s.saved.getD [] := by
  obtain ⟨hmemory, hsaved⟩ := Service.exec_kept (kept_named p updatedAt (answersOf events))
    (meets_answers (fun _ hanswer => hanswer) _) h
  refine ⟨fun r window moment hotkey haccepted => ?_, fun t ht => ?_⟩
  · have hmem : hotkey ∈ s.memory := mem_of_checkRequest haccepted
    refine ⟨hmem, ?_⟩
    rcases hmemory.named with hnone | ⟨answer, hanswer, found, hfound, heq⟩
    · rw [hnone] at hmem
      cases hmem
    · exact ⟨answer, hanswer, found, hfound, fun other => heq ▸ mem_cleaned⟩
  · obtain rfl := Option.some.inj ht
    show (hotkeysFormat p updatedAt).load s.file = _
    rw [Service.file_eq_saved h]
    cases hlast : s.saved with
    | none => rfl
    | some validators =>
      have hvalidators := hsaved validators hlast
      exact hotkeysOf_save p updatedAt hvalidators.set hvalidators.nonempty

/-- Two answers; the first is saved, and the agent stops while it saves the second. -/
def stoppedBetweenAnswers : List (Event Json Json) :=
  [.act (.dict [("validators".toList, .list [.str "hk".toList, .str " b ".toList])]), .begin,
    .finish, .replace, .act (.dict [("validators".toList, .list [.str "c".toList])]), .begin,
    .crash]

/-- A request of the first hotkey. -/
def requestOfFirst : Request where
  method := []
  path := []
  hotkey := "hk".toList
  timestamp := "1".toList
  signature := "00".toList
  body := []

/-- The answer that was saved is the one that names who is let in, and also what a second restart
finds. -/
theorem accepted_was_named_stopped : ∃ s : Service Hotkeys Json,
    exec (validatorsStep Json.asciiPrinter 0) (Service.start (hotkeysFormat Json.asciiPrinter 0))
      stoppedBetweenAnswers = some s ∧
      (∃ answer ∈ answersOf stoppedBetweenAnswers, ∃ found,
        hotkeysIn Json.asciiPrinter answer = .ok found ∧
        ∀ other, other ∈ s.memory ↔ other ≠ [] ∧ ∃ named ∈ found, strip named = other) ∧
      ∀ t, validatorsStep Json.asciiPrinter 0 s .crash = some t →
        t.memory = s.saved.getD [] := by
  have haccepted : (exec (validatorsStep Json.asciiPrinter 0)
      (Service.start (hotkeysFormat Json.asciiPrinter 0)) stoppedBetweenAnswers).map
      (fun s => (checkRequest (fun _ _ _ => true) s.memory requestOfFirst 120 1).toOption) =
      some (some "hk".toList) := by decide +kernel
  obtain ⟨s, hs, hok⟩ := Option.map_eq_some_iff.mp haccepted
  cases hcheck : checkRequest (fun _ _ _ => true) s.memory requestOfFirst 120 1 with
  | error e =>
    rw [hcheck] at hok
    cases hok
  | ok hotkey =>
    obtain ⟨hnamed, hrestart⟩ := @accepted_was_named _ _ (fun _ _ _ => true) _ _ hs
    exact ⟨s, hs, (hnamed _ _ _ _ hcheck).2, hrestart⟩

end ComputePool.Agent
