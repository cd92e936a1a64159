import Mathlib.Data.List.Nodup
import Mathlib.Data.List.TakeWhile
import ComputePool.Protocol.Session
import ComputePool.Validator.Verify.ScrapePayload

/-!
# Sending the scrape and reading its answer

`obfuscate`, `candidates`, `decrypt` and `restore` of `validator/verify/scrape.py`. The validator
draws a fresh name for every field of the scrape payload, writes it over the field's own name in
the text of the payload, and sends that. What comes back is a token under a key made of the fresh
names, and its cards have these names as keys.

The text of the payload is only looked at line by line: a line of the form `F_X = "value"` gives a
constant its value, and every other line is passed over.
`Payload` is a text whose lines of that form are the 26 declarations of the source.

* `constantsOf_source`: the constants of the rewritten payload are the fresh names.
* `key_eq_deriveKey`: both sides make the same key of them.
* `restored_eq_plain_iff`: what arrives is the dictionary of the plain payload exactly when no
  read inside `attempt` failed (`restore` leaves the keys of the map of errors alone) and the
  token fits into the window that is scanned.
-/

namespace ComputePool.Validator.Verify.Scrape

open Text Base64 ScrapePayload
open Json (Raised)

/-! ## The lines of the payload -/

/-- `[A-Z_]`. -/
def isConstantChar (c : Char) : Bool :=
  ('A' ≤ c && c ≤ 'Z') || c = '_'

/-- `[a-z_]`. -/
def isFieldChar (c : Char) : Bool :=
  ('a' ≤ c && c ≤ 'z') || c = '_'

/-- The line that gives a constant a value. -/
def declare (constant value : Str) : Str :=
  constant ++ " = \x22".toList ++ value ++ ['\x22']

/-- The constant and the value of a line `F_X = "value"`. -/
def assignment (line : Str) : Option (Str × Str) :=
  let constant := line.takeWhile isConstantChar
  if startsWith constant "F_".toList ∧ 2 < constant.length then
    match line.dropWhile isConstantChar with
    | ' ' :: '=' :: ' ' :: '\x22' :: tail =>
      if tail.getLast? = some '\x22' ∧ '\x22' ∉ tail.dropLast then some (constant, tail.dropLast)
      else none
    | _ => none
  else none

/-- `[a-z_]+`. -/
def isFieldName (value : Str) : Bool :=
  value ≠ [] && value.all isFieldChar

/-- `FIELD_LINE`: an assignment whose value is a name in small letters. -/
def fieldLine (line : Str) : Option (Str × Str) :=
  (assignment line).filter fun a => isFieldName a.2

/-- The assignments of a text, in order. -/
def assignmentsOf (text : Str) : Dict Str Str :=
  (text.splitOn '\n').filterMap assignment

/-- The text of the payload: any one whose assignments are the declarations of the fields. -/
structure Payload where
  text : Str
  assignmentsOf_text : assignmentsOf text = declarations.map (·.2)

/-- The value a constant has after the text was run. -/
def constantsOf (text : Str) (f : Field) : Str :=
  ((Dict.ofItems (assignmentsOf text)).get? f.constant).getD []

/-! ## Rewriting them -/

/-- What `obfuscate` has done to the lines so far. -/
structure Rewriting where
  lines : List Str
  names : Dict Str Str
  ordered : List Str

/-- One line: `replace`, when the pattern matches. -/
def rewriteLine (draw : ℕ → Str) (s : Rewriting) (line : Str) : Rewriting :=
  match fieldLine line with
  | none => { s with lines := s.lines ++ [line] }
  | some (constant, value) =>
    let fresh := draw s.ordered.length
    { lines := s.lines ++ [declare constant fresh]
      names := s.names.set fresh value
      ordered := s.ordered ++ [fresh] }

/-- `Obfuscated`. -/
structure Obfuscated where
  source : Str
  names : Dict Str Str
  key : Str

/-- `obfuscate`, given the names `"_" + secrets.token_hex(8)` in the order they are drawn;
`none` for the `ValueError`. -/
def obfuscate (sha : Fernet.Sha256) (draw : ℕ → Str) (original : Str) : Option Obfuscated :=
  let s := (original.splitOn '\n').foldl (rewriteLine draw) ⟨[], [], []⟩
  if s.ordered = [] then none
  else some {
    source := ['\n'].intercalate s.lines
    names := s.names
    key := encode (sha.digest (utf8 s.ordered.flatten)) }

/-! ## Reading the answer -/

/-- `SCAN_BYTES`. -/
def scanBytes : ℕ := 256 * 1024

/-- `MAX_CANDIDATES`. -/
def maxCandidates : ℕ := 20

/-- `candidates`: the lines at the end of the output that look like a token, the last one
first. -/
def candidates (stdout : Str) : List Str :=
  let window := stdout.drop (stdout.length - scanBytes)
  ((((splitLines window).reverse).map strip).filter (startsWith · Fernet.tokenPrefix)).take
    maxCandidates

/-- `decrypt`, given the decryption of a token and `json.loads` of its bytes. -/
def decrypt (fernet : Str → Str → Option Octets) (loads : Octets → Option Json) (key : Str)
    (tokens : List Str) : Option (Dict Str Json) :=
  tokens.findSome? fun token =>
    match (fernet key token).bind loads with
    | some (.dict parsed) => some parsed
    | _ => none

/-- The keys of a card, renamed. -/
def restoreCard (names : Dict Str Str) (card : Dict Str Json) : Dict Str Json :=
  Dict.ofItems (card.map fun e => ((names.get? e.1).getD e.1, e.2))

/-- One round of `restore`: what is no dictionary is dropped. -/
def restoreItem (names : Dict Str Str) : Json → Option Json
  | .dict card => some (.dict (restoreCard names card))
  | _ => none

/-- `restore`. -/
def restore (data : Dict Str Json) (names : Dict Str Str) : Except Raised (Dict Str Json) := do
  let cards ← (((data.get? "gpus".toList).getD .null).orElse (.list [])).iter
  return data.set "gpus".toList (.list (cards.filterMap (restoreItem names)))

/-- `restore`, if something was decrypted. -/
def restoreFound (names : Dict Str Str) :
    Option (Dict Str Json) → Except Raised (Option (Dict Str Json))
  | none => .ok none
  | some data => (restore data names).map some

/-- What `run` makes of the output: the dictionary, or nothing when no token decrypts. -/
def receive (fernet : Str → Str → Option Octets) (loads : Octets → Option Json) (o : Obfuscated)
    (stdout : Str) : Except Raised (Option (Dict Str Json)) :=
  restoreFound o.names (decrypt fernet loads o.key (candidates stdout))

/-! ## The fresh names -/

/-- The names `obfuscate` draws: an underscore and sixteen hexadecimal digits, pairwise distinct
over the declarations of the payload. -/
structure Draws where
  draw : ℕ → Str
  form : ∀ i, ∃ hex, draw i = '_' :: hex ∧ hex.length = 16 ∧ hex.all Protocol.isHex
  distinct : ∀ i < 26, ∀ j < 26, draw i = draw j → i = j

/-- The name drawn for a field. -/
def Draws.fresh (d : Draws) (f : Field) : Str :=
  d.draw f.position

theorem mem_fields (f : Field) : f ∈ fields := by
  cases f <;> decide

theorem position_lt (f : Field) : f.position < 26 :=
  List.idxOf_lt_length_iff.mpr (mem_fields f)

theorem position_inj {f g : Field} (h : f.position = g.position) : f = g :=
  (List.idxOf_inj (mem_fields f)).mp h

namespace Draws

variable (d : Draws)

/-- What a fresh name is made of. -/
theorem mem_draw {i : ℕ} {c : Char} (h : c ∈ d.draw i) : c = '_' ∨ Protocol.isHex c = true := by
  obtain ⟨hex, hdraw, -, hall⟩ := d.form i
  rw [hdraw, List.mem_cons] at h
  rcases h with rfl | h
  · exact Or.inl rfl
  · exact Or.inr (List.all_eq_true.mp hall c h)

/-- Drawn names are made of hex digits and underscores. -/
theorem not_mem_draw {i : ℕ} {c : Char} (h₁ : c ≠ '_') (h₂ : Protocol.isHex c = false) :
    c ∉ d.draw i := by
  intro hc
  rcases d.mem_draw hc with h | h
  · exact h₁ h
  · exact absurd (h₂ ▸ h) (by decide)

theorem head?_fresh (f : Field) : (d.fresh f).head? = some '_' := by
  obtain ⟨hex, hdraw, -, -⟩ := d.form f.position
  rw [fresh, hdraw]
  rfl

theorem fresh_injective : Function.Injective d.fresh := by
  intro f g h
  exact position_inj (d.distinct _ (position_lt f) _ (position_lt g) h)

/-- A fixed text of the payload is never a fresh name. -/
theorem fresh_ne {f : Field} {s : Str} (h : s.head? ≠ some '_') : d.fresh f ≠ s :=
  fun heq => h (heq ▸ d.head?_fresh f)

theorem head?_plain (f : Field) : f.plain.head? ≠ some '_' := by
  cases f <;> decide

theorem fresh_ne_plain (f : Field) : d.fresh f ≠ f.plain :=
  d.fresh_ne (head?_plain f)

/-- The fresh names tell everything apart that the payload uses as a key. -/
theorem naming_fresh : Naming d.fresh := by
  -- a drawn name starts with an underscore, and no text among the keys of errors does
  have htext : ∀ k ∈ errorKeys, ∀ s, k = .text s → s.head? ≠ some '_' := by
    have hall : ∀ k ∈ errorKeys, (k.toText fun _ => []).head? ≠ some '_' := by decide
    intro k hk s hks
    have hhead := hall k hk
    rwa [hks] at hhead
  refine ⟨d.fresh_injective, fun j hj k hk h => ?_⟩
  cases j with
  | field f =>
    cases k with
    | field g => rw [d.fresh_injective h]
    | text s => exact absurd h (d.fresh_ne (htext _ hk s rfl))
  | text s =>
    cases k with
    | field g => exact absurd h.symm (d.fresh_ne (htext _ hj s rfl))
    | text t => exact congrArg _ h

end Draws

/-- So do the names in the payload itself: no read through `attempt` fills the field that has the
name of a fixed key. -/
theorem naming_plain : Naming Field.plain := by
  have hfields : (fields.map Field.plain).Nodup := by decide +kernel
  have hkeys : (errorKeys.map (ErrorKey.toText Field.plain)).Nodup := by decide +kernel
  refine ⟨fun f g h => ?_, fun j hj k hk h => ?_⟩
  · exact List.inj_on_of_nodup_map hfields (mem_fields f) (mem_fields g) h
  · exact List.inj_on_of_nodup_map hkeys hj hk h

/-! ## What rewriting does -/

/-- A printed assignment is read back. -/
theorem assignment_declare {constant value : Str}
    (hform : startsWith constant "F_".toList ∧ 2 < constant.length)
    (hconstant : ∀ c ∈ constant, isConstantChar c = true) (hvalue : '\x22' ∉ value) :
    assignment (declare constant value) = some (constant, value) := by
  -- `assignment` reads the constant up to the blank, and the value between the quotes
  have hline : declare constant value =
      constant ++ ' ' :: '=' :: ' ' :: '\x22' :: (value ++ ['\x22']) := by
    simp [declare]
  have htake : (declare constant value).takeWhile isConstantChar = constant := by
    rw [hline, List.takeWhile_append_of_pos hconstant]
    simp [isConstantChar]
  have hdrop : (declare constant value).dropWhile isConstantChar =
      ' ' :: '=' :: ' ' :: '\x22' :: (value ++ ['\x22']) := by
    rw [hline, List.dropWhile_append_of_pos hconstant]
    simp [isConstantChar]
  simp only [assignment, htake, hdrop]
  rw [if_pos hform]
  simp [hvalue]

/-- What an assignment looks like. -/
theorem constant_of_assignment {line constant value : Str}
    (h : assignment line = some (constant, value)) :
    (startsWith constant "F_".toList ∧ 2 < constant.length) ∧
      ∀ c ∈ constant, isConstantChar c = true := by
  simp only [assignment] at h
  split_ifs at h with hform
  split at h
  · split_ifs at h with htail
    obtain ⟨rfl, -⟩ := Prod.mk.inj (Option.some.inj h)
    exact ⟨hform, fun c hc => List.mem_takeWhile_imp hc⟩
  · exact absurd h (by simp)

/-- The state of `obfuscate` after some lines: the names drawn so far stand in the declarations,
in their order, and lead back to the values that stood there. -/
structure Rewritten (d : Draws) (lines : List Str) (s : Rewriting) : Prop where
  ordered : s.ordered = (List.range (lines.filterMap assignment).length).map d.draw
  assignments : s.lines.filterMap assignment =
    ((lines.filterMap assignment).map Prod.fst).zip s.ordered
  names : s.names = s.ordered.zip ((lines.filterMap assignment).map Prod.snd)
  oneLine : ∀ line ∈ s.lines, '\n' ∉ line

/-- One more line. -/
theorem Rewritten.step {d : Draws} {lines : List Str} {s : Rewriting} {line : Str}
    (hs : Rewritten d lines s) (hline : '\n' ∉ line)
    (hfield : ∀ a, assignment line = some a → isFieldName a.2 = true)
    (hcount : ((lines ++ [line]).filterMap assignment).length ≤ 26) :
    Rewritten d (lines ++ [line]) (rewriteLine d.draw s line) := by
  have honeLine (l : Str) (hl : '\n' ∉ l) : ∀ x ∈ s.lines ++ [l], '\n' ∉ x := by
    intro x hx
    rcases List.mem_append.mp hx with hx | hx
    · exact hs.oneLine x hx
    · exact List.mem_singleton.mp hx ▸ hl
  cases hassign : assignment line with
  | none =>
    have hnone : fieldLine line = none := by simp [fieldLine, hassign]
    have hsame : (lines ++ [line]).filterMap assignment = lines.filterMap assignment := by
      simp [List.filterMap_append, hassign]
    rw [rewriteLine, hnone]
    refine ⟨?_, ?_, ?_, honeLine line hline⟩
    · rw [hsame]
      exact hs.ordered
    · rw [hsame, List.filterMap_append, hs.assignments]
      simp [hassign]
    · rw [hsame]
      exact hs.names
  | some a =>
    obtain ⟨constant, value⟩ := a
    obtain ⟨hform, hconstant⟩ := constant_of_assignment hassign
    have hsome : fieldLine line = some (constant, value) := by
      simp [fieldLine, hassign, hfield _ hassign]
    have hmore : (lines ++ [line]).filterMap assignment =
        lines.filterMap assignment ++ [(constant, value)] := by
      simp [List.filterMap_append, hassign]
    have hlength : s.ordered.length = (lines.filterMap assignment).length := by
      rw [hs.ordered, List.length_map, List.length_range]
    rw [hmore, List.length_append, List.length_singleton] at hcount
    -- the new name is none of those drawn before
    have hnew : d.draw s.ordered.length ∉ s.names.keys := by
      have hkeys : s.names.keys = s.ordered := by
        rw [hs.names]
        exact List.map_fst_zip (by simp [hlength])
      rw [hkeys, hs.ordered, List.mem_map]
      rintro ⟨i, hi, hdraw⟩
      rw [List.mem_range] at hi
      rw [List.length_map, List.length_range] at hdraw
      have := d.distinct i (by omega) _ (by omega) hdraw
      omega
    have hdeclared : assignment (declare constant (d.draw s.ordered.length)) =
        some (constant, d.draw s.ordered.length) :=
      assignment_declare hform hconstant (d.not_mem_draw (by decide) (by decide))
    rw [rewriteLine, hsome]
    refine ⟨?_, ?_, ?_, honeLine _ ?_⟩
    · rw [hmore, List.length_append, List.length_singleton, List.range_succ, List.map_append,
        ← hs.ordered, hlength]
      rfl
    · rw [hmore, List.filterMap_append, hs.assignments, List.map_append,
        List.zip_append (by simp [hlength])]
      simp [hdeclared]
    · rw [hmore, List.map_append, List.zip_append (by simp [hlength]), ← hs.names]
      simp [Dict.set, hnew]
    · simp only [declare, List.mem_append, not_or]
      refine ⟨⟨⟨fun hc => ?_, by decide⟩, d.not_mem_draw (by decide) (by decide)⟩, by decide⟩
      exact absurd (hconstant _ hc) (by decide)

/-- All lines. -/
theorem rewritten_foldl {d : Draws} {lines : List Str} (hlines : ∀ line ∈ lines, '\n' ∉ line)
    (hfield : ∀ a ∈ lines.filterMap assignment, isFieldName a.2 = true)
    (hcount : (lines.filterMap assignment).length ≤ 26) :
    Rewritten d lines (lines.foldl (rewriteLine d.draw) ⟨[], [], []⟩) := by
  -- from the right, since each line is rewritten with the names drawn for the ones before it
  induction lines using List.reverseRecOn with
  | nil => exact ⟨rfl, rfl, rfl, by simp⟩
  | append_singleton lines line ih =>
    have hpart : (lines ++ [line]).filterMap assignment =
        lines.filterMap assignment ++ [line].filterMap assignment := List.filterMap_append
    rw [List.foldl_append]
    refine Rewritten.step (ih ?_ ?_ ?_) (hlines line (by simp)) ?_ hcount
    · exact fun l hl => hlines l (List.mem_append_left _ hl)
    · exact fun a ha => hfield a (hpart ▸ List.mem_append_left _ ha)
    · rw [hpart, List.length_append] at hcount
      omega
    · intro a ha
      exact hfield a (hpart ▸ List.mem_append_right _ (by simp [ha]))

/-! ## Both sides agree on the names -/

/-- The constants and the values of the declarations. -/
theorem declarations_at (f : Field) :
    (declarations.map (·.2.1))[f.position]? = some f.constant ∧
      (declarations.map (·.2.2))[f.position]? = some f.plain := by
  cases f <;> exact ⟨rfl, rfl⟩

theorem nodup_constants : (declarations.map (·.2.1)).Nodup := by
  decide +kernel

theorem isFieldName_of_declared : ∀ a ∈ declarations.map (·.2), isFieldName a.2 = true := by
  decide +kernel

/-- The constants of a text whose assignments give them certain values, in order. -/
theorem constantsOf_eq {text : Str} {values : List Str} (hlength : values.length = 26)
    (h : assignmentsOf text = (declarations.map (·.2.1)).zip values) {f : Field} {value : Str}
    (hvalue : values[f.position]? = some value) : constantsOf text f = value := by
  have hkeys : (assignmentsOf text).keys = declarations.map (·.2.1) := by
    rw [h]
    exact List.map_fst_zip (by rw [hlength]; decide)
  rw [constantsOf, Dict.ofItems_of_nodup (hkeys ▸ nodup_constants), h,
    Dict.get?_zip nodup_constants (declarations_at f).1 hvalue, Option.getD_some]

variable (sha : Fernet.Sha256) (d : Draws) (payload : Payload)

/-- The constants of the payload as it is. -/
theorem constantsOf_text : constantsOf payload.text = Field.plain := by
  have hpairs : assignmentsOf payload.text =
      (declarations.map (·.2.1)).zip (declarations.map (·.2.2)) := by
    rw [payload.assignmentsOf_text]
    rfl
  funext f
  exact constantsOf_eq (by decide) hpairs (declarations_at f).2

/-- What `obfuscate` makes of the payload. -/
theorem obfuscate_eq : ∃ o, obfuscate sha d.draw payload.text = some o ∧
    assignmentsOf o.source = (declarations.map (·.2.1)).zip ((List.range 26).map d.draw) ∧
    o.names = ((List.range 26).map d.draw).zip (declarations.map (·.2.2)) ∧
    o.key = encode (sha.digest (utf8 ((List.range 26).map d.draw).flatten)) := by
  -- the payload declares its 26 names and assigns nothing else
  have hassign : (payload.text.splitOn '\n').filterMap assignment = declarations.map (·.2) :=
    payload.assignmentsOf_text
  have hs := rewritten_foldl (d := d) (fun line => not_mem_of_mem_splitOn)
    (hassign ▸ isFieldName_of_declared) (by rw [hassign]; decide)
  set s := (payload.text.splitOn '\n').foldl (rewriteLine d.draw) ⟨[], [], []⟩ with hsdef
  have hcount : ((payload.text.splitOn '\n').filterMap assignment).length = 26 := by
    rw [hassign]
    rfl
  -- so the names drawn are the first 26
  have hordered : s.ordered = (List.range 26).map d.draw := by rw [hs.ordered, hcount]
  have hne : s.ordered ≠ [] := by
    rw [hordered]
    simp
  have hassignments : s.lines.filterMap assignment =
      (declarations.map (·.2.1)).zip ((List.range 26).map d.draw) := by
    rw [hs.assignments, hordered, hassign, List.map_map]
    rfl
  -- the source has lines, as it declares something
  have hlines : s.lines ≠ [] := by
    intro hnil
    rw [hnil] at hassignments
    have := congrArg List.length hassignments
    simp [declarations] at this
  refine ⟨_, by simp only [obfuscate, ← hsdef]; rw [if_neg hne], ?_, ?_, ?_⟩
  · rw [assignmentsOf, List.splitOn_intercalate _ hs.oneLine hlines, hassignments]
  · rw [hs.names, hordered, hassign, List.map_map]
    rfl
  · rw [hordered]

variable {sha d payload} {o : Obfuscated}

/-- The constants of the rewritten payload are the fresh names. -/
theorem constantsOf_source (ho : obfuscate sha d.draw payload.text = some o) :
    constantsOf o.source = d.fresh := by
  obtain ⟨o', ho', hassign, -, -⟩ := obfuscate_eq sha d payload
  obtain rfl : o = o' := Option.some.inj (ho.symm.trans ho')
  funext f
  refine constantsOf_eq (by simp) hassign ?_
  rw [List.getElem?_map, List.getElem?_range (position_lt f)]
  rfl

/-- The table of `obfuscate` leads from a fresh name back to the field's own. -/
theorem names_fresh (ho : obfuscate sha d.draw payload.text = some o) (f : Field) :
    o.names.get? (d.fresh f) = some f.plain := by
  obtain ⟨o', ho', -, hnames, -⟩ := obfuscate_eq sha d payload
  obtain rfl : o = o' := Option.some.inj (ho.symm.trans ho')
  rw [hnames]
  refine Dict.get?_zip ?_ (i := f.position) ?_ (declarations_at f).2
  · refine List.Nodup.map_on ?_ List.nodup_range
    intro i hi j hj h
    exact d.distinct i (List.mem_range.mp hi) j (List.mem_range.mp hj) h
  · rw [List.getElem?_map, List.getElem?_range (position_lt f)]
    rfl

/-- The key of `obfuscate` is the one the rewritten payload derives from `FIELDS`. -/
theorem key_eq_deriveKey (ho : obfuscate sha d.draw payload.text = some o) :
    o.key = deriveKey sha (constantsOf o.source) := by
  have hsource := constantsOf_source ho
  obtain ⟨o', ho', -, -, hkey⟩ := obfuscate_eq sha d payload
  obtain rfl : o = o' := Option.some.inj (ho.symm.trans ho')
  -- `FIELDS` lists the constants in the order of their declarations
  have horder : fields.map d.fresh = (List.range 26).map d.draw := rfl
  rw [hkey, deriveKey, hsource, List.flatMap_def, horder]

/-! ## Restoring the cards -/

/-- A restored card: the keys are the plain ones, the map of errors is as it was. -/
theorem restoreCard_eq (ho : obfuscate sha d.draw payload.text = some o) (index : ℕ)
    (r : CardReadings) :
    restoreCard o.names (scrapeGpu d.fresh index r) =
      (abstractCard index r).fields.map fun e =>
        (e.1.plain, embedValue d.fresh (abstractCard index r).errors e.1 e.2) := by
  -- every drawn name is translated back to the name of its field
  have hrename : ((scrapeGpu d.fresh index r).map fun e => ((o.names.get? e.1).getD e.1, e.2)) =
      (abstractCard index r).fields.map fun e =>
        (e.1.plain, embedValue d.fresh (abstractCard index r).errors e.1 e.2) := by
    rw [card_eq_embed d.naming_fresh, AbstractCard.embed, List.map_map]
    refine List.map_congr_left fun e _ => ?_
    simp [names_fresh ho]
  -- and the fields of a card differ, so the dictionary loses none
  have hkeys : Dict.keys ((abstractCard index r).fields.map fun e =>
      (e.1.plain, embedValue d.fresh (abstractCard index r).errors e.1 e.2)) =
      (abstractCard index r).fields.keys.map Field.plain := by
    simp [Dict.keys, Function.comp_def]
  rw [restoreCard, hrename]
  refine Dict.ofItems_of_nodup ?_
  rw [hkeys]
  exact (nodup_keys_abstractCard index r).map naming_plain.injective

/-- The map of errors reads the same under both sets of names exactly when no field is in it. -/
theorem embed_errors_eq_iff (errors : Dict ErrorKey Json) :
    (errors.map fun e => (e.1.toText d.fresh, e.2)) =
        (errors.map fun e => (e.1.toText Field.plain, e.2)) ↔
      ∀ f, .field f ∉ errors.keys := by
  rw [List.map_inj_left]
  constructor
  · intro h f hf
    obtain ⟨value, hmem⟩ := Dict.mem_keys.mp hf
    exact d.fresh_ne_plain f (Prod.mk.inj (h _ hmem)).1
  · rintro h ⟨key, value⟩ hmem
    cases key with
    | field f => exact absurd (Dict.mem_keys.mpr ⟨value, hmem⟩) (h f)
    | text s => rfl

/-- A card is restored exactly when no read of it failed inside `attempt`. -/
theorem restoreCard_eq_plain_iff (ho : obfuscate sha d.draw payload.text = some o) (index : ℕ)
    (r : CardReadings) :
    restoreCard o.names (scrapeGpu d.fresh index r) = scrapeGpu Field.plain index r ↔
      attemptFails r = false := by
  have hnone : attemptFails r = false ↔ ∀ f, .field f ∉ (abstractCard index r).errors.keys := by
    rw [← not_exists, exists_field_mem_errors_iff, Bool.not_eq_true]
  rw [restoreCard_eq ho, card_eq_embed naming_plain, hnone, AbstractCard.embed, List.map_inj_left,
    ← embed_errors_eq_iff (d := d)]
  constructor
  · intro h
    -- `errors` is the one field whose value names fields too
    obtain ⟨value, hmem⟩ := Dict.mem_keys.mp (errors_mem_abstractCard index r)
    have hentry := (Prod.mk.inj (h _ hmem)).2
    simpa [embedValue] using hentry
  -- every other value is kept as it is
  · rintro h ⟨f, value⟩ -
    by_cases hf : f = .errors
    · simp [embedValue, hf, h]
    · simp [embedValue, hf]

/-- `restore` of a collected dictionary touches the cards and nothing else. -/
theorem restore_payloadOf (found : Findings) (cards : List (Dict Str Json))
    (names : Dict Str Str) :
    restore (payloadOf found (cards.map .dict)) names =
      .ok (payloadOf found (cards.map fun card => .dict (restoreCard names card))) := by
  have hget : (payloadOf found (cards.map .dict)).get? "gpus".toList =
      some (.list (cards.map .dict)) := rfl
  have hset (gpus : List Json) : (payloadOf found (cards.map .dict)).set "gpus".toList
      (.list gpus) = payloadOf found gpus := rfl
  -- an empty list is falsy, so `or []` is taken, with the same cards
  have hiter : ((Json.list (cards.map .dict)).orElse (.list [])).iter = .ok (cards.map .dict) := by
    cases cards with
    | nil => rfl
    | cons card cards => rfl
  have hcards : (cards.map Json.dict).filterMap (restoreItem names) =
      cards.map fun card => .dict (restoreCard names card) := by
    rw [List.filterMap_map]
    show cards.filterMap (some ∘ fun card => Json.dict (restoreCard names card)) = _
    rw [List.filterMap_eq_map]
  simp only [restore, hget, Option.getD_some, hiter, bind, Except.bind, hset, hcards]
  rfl

/-- The whole dictionary is restored exactly when every card is. -/
theorem restore_collect_eq_plain_iff (ho : obfuscate sha d.draw payload.text = some o)
    (found : Findings) :
    restore (collect d.fresh found) o.names = .ok (collect Field.plain found) ↔
      ∀ r ∈ found.nvml.cards, attemptFails r = false := by
  -- only the cards are renamed
  have hinj (gpus gpus' : List Json) : payloadOf found gpus = payloadOf found gpus' ↔
      gpus = gpus' := by
    simp [payloadOf]
  have hmap (F : Field → Str) (g : Dict Str Json → Json) :
      (found.nvml.cards.mapIdx (scrapeGpu F)).map g =
        found.nvml.cards.mapIdx fun i r => g (scrapeGpu F i r) := by
    refine List.ext_getElem? fun i => ?_
    rw [List.getElem?_map, List.getElem?_mapIdx, List.getElem?_mapIdx, Option.map_map]
    rfl
  rw [collect, restore_payloadOf, Except.ok.injEq, collect, hinj, hmap, hmap,
    List.mapIdx_eq_mapIdx_iff]
  simp only [Json.dict.injEq, restoreCard_eq_plain_iff ho]
  constructor
  · intro h r hr
    obtain ⟨i, hi, rfl⟩ := List.getElem_of_mem hr
    exact h i hi
  · exact fun h i hi => h _ (List.getElem_mem hi)

/-! ## Scanning the output -/

/-- The window over one line of base64: at most the end of the line, if that looks like a
token. -/
theorem candidates_line {line : Str} (h : ∀ c ∈ line, isSymbol c = true) :
    candidates (line ++ ['\n']) =
      [line.drop (line.length + 1 - scanBytes)].filter (startsWith · Fernet.tokenPrefix) := by
  set rest := line.drop (line.length + 1 - scanBytes) with hrest
  have hsymbols : ∀ c ∈ rest, isSymbol c = true := fun c hc => h c (List.mem_of_mem_drop hc)
  -- the window holds the end of the line, and the line break
  have hwindow : (line ++ ['\n']).drop ((line ++ ['\n']).length - scanBytes) =
      joinLines [rest] := by
    have hle : line.length + 1 - scanBytes ≤ line.length := by
      simp only [scanBytes]
      omega
    rw [List.length_append, List.length_singleton, List.drop_append_of_le_length hle]
    simp only [joinLines, List.flatMap_cons, List.flatMap_nil, List.append_nil, ← hrest]
  have hlines : splitLines (joinLines [rest]) = [rest] := by
    refine splitLines_joinLines fun l hl => ?_
    rw [List.mem_singleton.mp hl]
    exact fun c hc => isLineBreak_eq_false_of_isSymbol (hsymbols c hc)
  have hstrip : strip rest = rest :=
    strip_eq_self fun c hc => isSpace_eq_false_of_isSymbol (hsymbols c hc)
  simp only [candidates, hwindow, hlines, List.reverse_singleton, List.map_cons, List.map_nil,
    hstrip]
  refine List.take_of_length_le ?_
  exact (List.length_filter_le _ _).trans (by simp [maxCandidates])

/-! ## The whole way -/

/-- The output of the rewritten payload fits into the window exactly up to this many bytes of
JSON. -/
theorem fits_iff (sha : Fernet.Sha256) (keyText : Str) {iv : Octets} (now : UInt64) (data : Octets)
    (hiv : iv.length = 16) :
    (Fernet.fernetEncrypt sha keyText iv now data).length + 1 ≤ scanBytes ↔
      data.length ≤ 196543 := by
  rw [Fernet.length_fernetEncrypt sha keyText now data hiv, scanBytes]
  omega

variable {fernet : Str → Str → Option Octets} {loads : Octets → Option Json}

/-- A line that fits into the window and starts like a token is decrypted and restored. -/
theorem receive_of_fits {token : Str} {data : Octets} {fields : Dict Str Json}
    (hsymbols : ∀ c ∈ token, isSymbol c = true) (hfits : token.length + 1 ≤ scanBytes)
    (hstart : startsWith token Fernet.tokenPrefix = true)
    (hfernet : fernet o.key token = some data) (hjson : loads data = some (.dict fields)) :
    receive fernet loads o (token ++ ['\n']) = (restore fields o.names).map some := by
  have hwhole : token.drop (token.length + 1 - scanBytes) = token := by
    rw [Nat.sub_eq_zero_of_le hfits, List.drop_zero]
  have hdecrypt : decrypt fernet loads o.key (candidates (token ++ ['\n'])) = some fields := by
    rw [candidates_line hsymbols, hwhole]
    simp [decrypt, hstart, hfernet, hjson]
  rw [receive, hdecrypt, restoreFound]

/-- Without the beginning of a token there is nothing to decrypt. -/
theorem receive_of_not_start {token : Str} (hsymbols : ∀ c ∈ token, isSymbol c = true)
    (hfits : token.length + 1 ≤ scanBytes)
    (hstart : startsWith token Fernet.tokenPrefix = false) :
    receive fernet loads o (token ++ ['\n']) = .ok none := by
  have hwhole : token.drop (token.length + 1 - scanBytes) = token := by
    rw [Nat.sub_eq_zero_of_le hfits, List.drop_zero]
  have hdecrypt : decrypt fernet loads o.key (candidates (token ++ ['\n'])) = none := by
    rw [candidates_line hsymbols, hwhole]
    simp [decrypt, hstart]
  rw [receive, hdecrypt, restoreFound]

/-- The window cuts a longer line, and what is left of it is no base64. -/
theorem receive_of_not_fits {token : Str} {raw : Octets} (htoken : token = encode raw)
    (hfits : ¬ token.length + 1 ≤ scanBytes)
    (hbase64 : ∀ key text, Unfilled text → fernet key text = none) :
    receive fernet loads o (token ++ ['\n']) = .ok none := by
  -- the window cuts the line at a place that leaves no whole Base64 groups
  have hlength : (token.drop (token.length + 1 - scanBytes)).length % 4 = 3 := by
    rw [List.length_drop]
    simp only [scanBytes] at hfits ⊢
    omega
  have hunfilled : Unfilled (token.drop (token.length + 1 - scanBytes)) := by
    rw [htoken] at hlength ⊢
    exact unfilled_drop_encode hlength
  have hnone := hbase64 o.key _ hunfilled
  have hdecrypt : decrypt fernet loads o.key (candidates (token ++ ['\n'])) = none := by
    rw [candidates_line (htoken ▸ encode_alphabet raw), decrypt, List.findSome?_eq_none_iff]
    intro t ht
    rw [List.mem_singleton.mp (List.mem_of_mem_filter ht), hnone]
    rfl
  rw [receive, hdecrypt, restoreFound]

/-- What arrives of a line that is a token, whatever its length. -/
theorem receive_line_iff {token : Str} {raw data : Octets} {fields plain : Dict Str Json}
    (htoken : token = encode raw) (hfernet : fernet o.key token = some data)
    (hjson : loads data = some (.dict fields))
    (hbase64 : ∀ key text, Unfilled text → fernet key text = none) :
    receive fernet loads o (token ++ ['\n']) = .ok (some plain) ↔
      restore fields o.names = .ok plain ∧ token.length + 1 ≤ scanBytes ∧
        startsWith token Fernet.tokenPrefix = true := by
  have hsymbols : ∀ c ∈ token, isSymbol c = true := htoken ▸ encode_alphabet raw
  by_cases hfits : token.length + 1 ≤ scanBytes
  · cases hstart : startsWith token Fernet.tokenPrefix with
    | true =>
      rw [receive_of_fits hsymbols hfits hstart hfernet hjson]
      cases restore fields o.names with
      | error e => simp [Except.map]
      | ok restored => simp [Except.map, hfits]
    | false =>
      rw [receive_of_not_start hsymbols hfits hstart]
      simp
  -- a line that does not fit is cut, and what is left does not decrypt
  · rw [receive_of_not_fits htoken hfits hbase64]
    simp [hfits]

/-- Running the rewritten payload and taking its line through `candidates`, `decrypt` and
`restore` gives the dictionary of the plain payload, under the same key on both sides, exactly
when no read of a card failed inside `attempt`, the JSON text has at most 196543 bytes and the
clock of the rig fits into the 36 bits the prefix of a token leaves it. Assumed of the libraries:
decryption under the payload's own key undoes `fernet_encrypt`, text with too little padding for its
last group is rejected as no base64, and JSON round-trips the dictionary. -/
theorem restored_eq_plain_iff (sha : Fernet.Sha256) (d : Draws) (payload : Payload)
    (found : Findings) (dumps : Json → Octets) (loads : Octets → Option Json)
    (fernet : Str → Str → Option Octets) (iv : Octets) (now : UInt64) (hiv : iv.length = 16)
    (hjson : loads (dumps (.dict (collect d.fresh found))) =
      some (.dict (collect d.fresh found)))
    (hfernet : fernet (deriveKey sha d.fresh)
      (Fernet.fernetEncrypt sha (deriveKey sha d.fresh) iv now
        (dumps (.dict (collect d.fresh found)))) = some (dumps (.dict (collect d.fresh found))))
    (hbase64 : ∀ key text, Unfilled text → fernet key text = none) :
    ∃ o, obfuscate sha d.draw payload.text = some o ∧
      ((o.key = deriveKey sha (constantsOf o.source) ∧
        receive fernet loads o (printed sha dumps iv now (constantsOf o.source) found) =
          .ok (some (collect (constantsOf payload.text) found))) ↔
      (∀ r ∈ found.nvml.cards, attemptFails r = false) ∧
        (dumps (.dict (collect (constantsOf o.source) found))).length ≤ 196543 ∧
        now.toNat < 2 ^ 36) := by
  obtain ⟨o, ho, -⟩ := obfuscate_eq sha d payload
  have hsource := constantsOf_source ho
  have hkey := key_eq_deriveKey ho
  refine ⟨o, ho, Iff.trans (and_iff_right hkey) ?_⟩
  rw [hsource] at hkey ⊢
  -- the key is the same on both sides, so what is left is about the line
  rw [constantsOf_text]
  obtain ⟨raw, htoken⟩ := Fernet.exists_fernetEncrypt_eq sha (deriveKey sha d.fresh) iv now
    (dumps (.dict (collect d.fresh found)))
  refine Iff.trans (receive_line_iff htoken (hkey ▸ hfernet) hjson hbase64) ?_
  -- the cards, the size of the token, and the time its first characters come from
  exact and_congr (restore_collect_eq_plain_iff ho found)
    (and_congr (fits_iff sha _ now _ hiv) (Fernet.startsWith_tokenPrefix_iff sha _ iv now _))

/-! ### Two runs -/

section Runs

/-- The lower-case hexadecimal digit of a number. -/
def hexDigit (n : ℕ) : Char :=
  "0123456789abcdef".toList.getD (n % 16) '0'

/-- Names that count up. -/
def countingDraws : Draws where
  draw i := '_' :: List.replicate 14 '0' ++ [hexDigit (i / 16), hexDigit i]
  form i := by
    have hdigit (n : ℕ) : Protocol.isHex (hexDigit n) = true := by
      have hall : ∀ m < 16, Protocol.isHex ("0123456789abcdef".toList.getD m '0') = true := by
        decide
      exact hall (n % 16) (Nat.mod_lt n (by decide))
    have hzeros : (List.replicate 14 '0').all Protocol.isHex = true := by decide
    refine ⟨List.replicate 14 '0' ++ [hexDigit (i / 16), hexDigit i], rfl, by simp, ?_⟩
    rw [List.all_append, hzeros]
    simp [hdigit]
  distinct := by decide +kernel

/-- The head of the payload: an import, a blank line and the declarations. -/
def declarationsPayload : Payload where
  text := ['\n'].intercalate ("from __future__ import annotations".toList :: [] ::
    declarations.map fun e => declare e.2.1 e.2.2)
  assignmentsOf_text := by decide +kernel

/-- A card that answers every read, with one process on it. -/
def healthyCard : CardReadings where
  handle := .ok ()
  name := .ok "NVIDIA H100".toList
  uuid := .ok "GPU-1".toList
  serial := .ok "1".toList
  memory := .ok (85899345920, 0)
  capability := .ok (9, 0)
  powerLimit := .ok 700000
  powerDefault := .ok 700000
  constraints := .ok (200000, 700000)
  clockGraphics := .ok 1980
  clockSm := .ok 1980
  clockMemory := .ok 2619
  pcieWidth := .ok 16
  pcieGeneration := .ok 5
  utilization := .ok (0, 0)
  migMode := .ok (0, 0)
  virtualization := .ok 0
  hostVgpu := .ok 0
  ecc := .ok 1
  pciBus := .ok "00000000:01:00.0".toList
  minor := .ok 0
  compute := .ok [⟨4242, 1048576, 0, 0, "python".toList, "python".toList, 0, [], true⟩]
  graphics := .ok []

/-- A card whose driver does not support one of the reads. -/
def partialCard : CardReadings :=
  { healthyCard with ecc := .error (.nvml 3) }

/-- A rig with one card. -/
def findingsOf (card : CardReadings) : Findings where
  nvml := .ready "/usr/lib/libnvidia-ml.so.1".toList (.dict []) "550.54".toList "12.550".toList
    "12.4".toList (.ok [card])
  collectedAt := .int 1760000000
  elapsedMs := .int 1200
  host := .dict []
  docker := .dict []
  probes := .dict []
  hashes := .dict []

/-- The text of a dictionary, in bytes. -/
def dumpsUtf8 (value : Json) : Octets :=
  utf8 (Json.dumps Json.asciiPrinter value)

/-- What the rewritten payload collects on that rig. -/
def sentBy (card : CardReadings) : Json :=
  .dict (collect countingDraws.fresh (findingsOf card))

/-- `json.loads`, on the text of that dictionary. -/
def loadsSent (card : CardReadings) (text : Octets) : Option Json :=
  if text = dumpsUtf8 (sentBy card) then some (sentBy card) else none

/-- The token the rewritten payload prints. -/
def tokenOf (card : CardReadings) : Str :=
  Fernet.fernetEncrypt Fernet.sha256 (deriveKey Fernet.sha256 countingDraws.fresh)
    (List.range 16) 1760000000 (dumpsUtf8 (sentBy card))

/-- Fernet decryption, on that token. -/
def fernetSent (card : CardReadings) (key token : Str) : Option Octets :=
  if key = deriveKey Fernet.sha256 countingDraws.fresh ∧ token = tokenOf card then
    some (dumpsUtf8 (sentBy card))
  else none

theorem printed_eq_tokenOf (card : CardReadings) :
    printed Fernet.sha256 dumpsUtf8 (List.range 16) 1760000000 countingDraws.fresh
      (findingsOf card) = tokenOf card ++ ['\n'] := by
  rw [printed, tokenOf, sentBy]

theorem loadsSent_dumps (card : CardReadings) :
    loadsSent card (dumpsUtf8 (.dict (collect countingDraws.fresh (findingsOf card)))) =
      some (.dict (collect countingDraws.fresh (findingsOf card))) :=
  if_pos rfl

theorem fernetSent_token (card : CardReadings) :
    fernetSent card (deriveKey Fernet.sha256 countingDraws.fresh)
      (Fernet.fernetEncrypt Fernet.sha256 (deriveKey Fernet.sha256 countingDraws.fresh)
        (List.range 16) 1760000000
        (dumpsUtf8 (.dict (collect countingDraws.fresh (findingsOf card))))) =
      some (dumpsUtf8 (.dict (collect countingDraws.fresh (findingsOf card)))) :=
  if_pos ⟨rfl, rfl⟩

theorem fernetSent_base64 (card : CardReadings) (key token : Str)
    (hlength : token.length % 4 ≠ 0) : fernetSent card key token = none := by
  refine if_neg fun h => hlength ?_
  rw [h.2, tokenOf, Fernet.length_fernetEncrypt _ _ _ _ (by decide)]
  omega

/-- The card that answers everything comes back as it was read. -/
theorem healthyCard_restored :
    ∃ o, obfuscate Fernet.sha256 countingDraws.draw declarationsPayload.text = some o ∧
      receive (fernetSent healthyCard) (loadsSent healthyCard) o
        (printed Fernet.sha256 dumpsUtf8 (List.range 16) 1760000000 (constantsOf o.source)
          (findingsOf healthyCard)) =
        .ok (some (collect (constantsOf declarationsPayload.text) (findingsOf healthyCard))) := by
  obtain ⟨o, ho, hiff⟩ := restored_eq_plain_iff Fernet.sha256 countingDraws declarationsPayload
    (findingsOf healthyCard) dumpsUtf8 (loadsSent healthyCard) (fernetSent healthyCard)
    (List.range 16) 1760000000 (by decide) (loadsSent_dumps healthyCard)
    (fernetSent_token healthyCard)
    fun key text h => fernetSent_base64 healthyCard key text h.length_mod
  have hsize : (dumpsUtf8 (sentBy healthyCard)).length ≤ 196543 := by decide +kernel
  refine ⟨o, ho, (hiff.mpr ⟨?_, ?_, by decide⟩).2⟩
  · intro r hr
    rw [List.mem_singleton.mp hr]
    decide
  · rw [constantsOf_source ho]
    exact hsize

/-- With one read not supported, the dictionary that comes back is another one: the key of the
error is still the fresh name. -/
theorem partialCard_not_restored :
    loadsSent partialCard (dumpsUtf8 (sentBy partialCard)) = some (sentBy partialCard) ∧
    fernetSent partialCard (deriveKey Fernet.sha256 countingDraws.fresh) (tokenOf partialCard) =
      some (dumpsUtf8 (sentBy partialCard)) ∧
    ∃ o, obfuscate Fernet.sha256 countingDraws.draw declarationsPayload.text = some o ∧
      receive (fernetSent partialCard) (loadsSent partialCard) o
        (printed Fernet.sha256 dumpsUtf8 (List.range 16) 1760000000 (constantsOf o.source)
          (findingsOf partialCard)) ≠
        .ok (some (collect (constantsOf declarationsPayload.text) (findingsOf partialCard))) := by
  obtain ⟨o, ho, -⟩ := obfuscate_eq Fernet.sha256 countingDraws declarationsPayload
  have hkey := key_eq_deriveKey ho
  refine ⟨loadsSent_dumps partialCard, fernetSent_token partialCard, o, ho, fun hreceive => ?_⟩
  rw [constantsOf_source ho] at hkey hreceive
  rw [constantsOf_text, printed_eq_tokenOf] at hreceive
  -- the token is the one that was sent, under the key both sides derive
  have hfernet : fernetSent partialCard o.key (tokenOf partialCard) =
      some (dumpsUtf8 (sentBy partialCard)) := by
    rw [hkey, tokenOf, sentBy]
    exact fernetSent_token partialCard
  obtain ⟨raw, htoken⟩ := Fernet.exists_fernetEncrypt_eq Fernet.sha256
    (deriveKey Fernet.sha256 countingDraws.fresh) (List.range 16) 1760000000
    (dumpsUtf8 (sentBy partialCard))
  have hline := (receive_line_iff htoken hfernet (loadsSent_dumps partialCard)
    fun key text h => fernetSent_base64 partialCard key text h.length_mod).mp hreceive
  -- but a reading of the card failed
  have hfails := (restore_collect_eq_plain_iff ho _).mp hline.1 partialCard
    (List.mem_singleton_self _)
  exact absurd hfails (by decide)

end Runs

end ComputePool.Validator.Verify.Scrape
