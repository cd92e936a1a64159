import ComputePool.Foundations.Dict
import ComputePool.Foundations.Numeral

/-!
# JSON values as Python reads them

`json.loads` yields a value of `Json`; what code does with such a value before it trusts it (test
its truth, take a field of it, iterate over it, convert it with `int` or `str`) is defined here
for every value, with the exception Python raises where the operation does not apply.

An integer that comes out of `json.loads` has at most 4300 digits, so `str` never refuses one.
-/

/-- A value of `json.loads`. An object is a dictionary with text keys. -/
inductive Json
  | null
  | bool (b : Bool)
  | int (n : ℤ)
  | float (x : Numeral.PyFloat)
  | str (s : Text.Str)
  | list (items : List Json)
  | dict (fields : List (Text.Str × Json))

namespace Json

open Text Numeral

/-- The exceptions the operations below raise. -/
inductive Raised
  | typeError
  | valueError
  | overflowError
  | attributeError
  deriving DecidableEq, Repr

instance : Inhabited Json := ⟨.null⟩

/-- `bool(value)`. -/
def truthy : Json → Bool
  | .null => false
  | .bool b => b
  | .int n => n ≠ 0
  | .float x => x ≠ .fin 0
  | .str s => s ≠ []
  | .list items => !items.isEmpty
  | .dict fields => !fields.isEmpty

/-- `a or b`. -/
def orElse (a b : Json) : Json :=
  if a.truthy then a else b

/-- `value.get(key, default)`: only a dictionary has the method. -/
def get (value : Json) (key : Str) (fallback : Json) : Except Raised Json :=
  match value with
  | .dict fields => .ok ((Dict.get? fields key).getD fallback)
  | _ => .error .attributeError

/-- `for item in value`: a list gives its items, a string its characters and a dictionary its
keys. -/
def iter : Json → Except Raised (List Json)
  | .list items => .ok items
  | .str s => .ok (s.map fun c => .str [c])
  | .dict fields => .ok (fields.map fun e => .str e.1)
  | _ => .error .typeError

/-- `fields.get(key, fallback)`, on a dictionary. -/
def field (fields : Dict Str Json) (key : String) (fallback : Json) : Json :=
  (fields.get? key.toList).getD fallback

/-- `value[key]` if `key in value`: text and lists can hold the key, but are not indexed by it. -/
def itemIfIn (value : Json) (key : Str) : Except Raised (Option Json) :=
  match value with
  | .dict fields => .ok (Dict.get? fields key)
  | .list items =>
    if items.any fun item => match item with
      | .str s => s = key
      | _ => false
    then .error .typeError else .ok none
  | .str s => if contains s key then .error .typeError else .ok none
  | _ => .error .typeError

/-- `len(value)`. -/
def len : Json → Except Raised ℕ
  | .str s => .ok s.length
  | .list items => .ok items.length
  | .dict fields => .ok fields.length
  | _ => .error .typeError

/-- `value == n`, for an integer `n`: a truth value and a float may be equal to it. -/
def eqInt (value : Json) (n : ℤ) : Bool :=
  match value with
  | .bool b => (if b then 1 else 0) = n
  | .int m => m = n
  | .float x => x = .fin n
  | _ => false

/-- `value.items()`: only a dictionary has the method. -/
def items : Json → Except Raised (List (Str × Json))
  | .dict fields => .ok fields
  | _ => .error .attributeError

/-- `int(value)`: a float is cut off towards zero. -/
def toInt : Json → Except Raised ℤ
  | .bool b => .ok (if b then 1 else 0)
  | .int n => .ok n
  | .float (.fin q) => .ok (if q < 0 then q.ceil else q.floor)
  | .float (.inf _) => .error .overflowError
  | .float .nan => .error .valueError
  | .str s => match intOf s with
    | some n => .ok n
    | none => .error .valueError
  | .null | .list _ | .dict _ => .error .typeError

/-- `float(value)`: an integer beyond the largest float is an error. -/
def toFloat : Json → Except Raised PyFloat
  | .bool b => .ok (.fin (if b then 1 else 0))
  | .int n => match PyFloat.ofRat n with
    | .fin q => .ok (.fin q)
    | _ => .error .overflowError
  | .float x => .ok x
  | .str s => match floatOf s with
    | some x => .ok x
    | none => .error .valueError
  | .null | .list _ | .dict _ => .error .typeError

/-- What is left of a conversion after `except (TypeError, ValueError)`. -/
def caught {α : Type} (fallback : α) : Except Raised α → Except Raised α
  | .error .typeError | .error .valueError => .ok fallback
  | other => other

/-- An integer in decimal. -/
def intText (n : ℤ) : Str :=
  if n < 0 then '-' :: natText n.natAbs else natText n.natAbs

/-- What `repr` takes from the interpreter: which characters it prints as they are, and the
shortest text of a float. -/
structure Printer where
  printable : Char → Bool
  floatText : PyFloat → Str

/-- A printer for text in ASCII and for floats that are integers. -/
def asciiPrinter : Printer where
  printable c := 0x20 ≤ c.toNat ∧ c.toNat < 0x7f
  floatText
    | .fin q => intText q.floor ++ ".0".toList
    | .inf negative => if negative then "-inf".toList else "inf".toList
    | .nan => "nan".toList

mutual

/-- `repr(value)`. -/
def repr (p : Printer) : Json → Str
  | .null => "None".toList
  | .bool b => if b then "True".toList else "False".toList
  | .int n => intText n
  | .float x => p.floatText x
  | .str s => pyRepr p.printable s
  | .list items => '[' :: reprItems p items ++ [']']
  | .dict fields => '\x7b' :: reprFields p fields ++ ['\x7d']

/-- The items of a list, separated by commas. -/
def reprItems (p : Printer) : List Json → Str
  | [] => []
  | [item] => repr p item
  | item :: next :: rest => repr p item ++ ", ".toList ++ reprItems p (next :: rest)

/-- The entries of a dictionary, separated by commas. -/
def reprFields (p : Printer) : List (Str × Json) → Str
  | [] => []
  | [(key, value)] => pyRepr p.printable key ++ ": ".toList ++ repr p value
  | (key, value) :: next :: rest =>
    pyRepr p.printable key ++ ": ".toList ++ repr p value ++ ", ".toList ++
      reprFields p (next :: rest)

end

/-- `str(value)`: text as it is, everything else as `repr` shows it. -/
def toStr (p : Printer) : Json → Str
  | .str s => s
  | value => repr p value

/-- `str(value or "")`, for a value that stands for text. -/
def textOr (p : Printer) (value : Json) : Str :=
  toStr p (value.orElse (.str []))

/-! ## Text -/

/-- A character inside the quotes of a JSON string, as `json.dumps` writes it. -/
def dumpsChar (c : Char) : Str :=
  let unit (n : ℕ) : Str := '\\' :: 'u' :: (Nat.toDigits 16 n).leftpad 4 '0'
  if c = '\x22' ∨ c = '\\' then ['\\', c]
  else if c = '\n' then ['\\', 'n']
  else if c = '\r' then ['\\', 'r']
  else if c = '\t' then ['\\', 't']
  else if c.toNat = 0x8 then ['\\', 'b']
  else if c.toNat = 0xc then ['\\', 'f']
  else if 0x20 ≤ c.toNat ∧ c.toNat < 0x7f then [c]
  else if c.toNat < 0x10000 then unit c.toNat
  -- a surrogate pair
  else unit (0xd800 + (c.toNat - 0x10000) / 0x400) ++ unit (0xdc00 + (c.toNat - 0x10000) % 0x400)

/-- A JSON string. -/
def dumpsStr (s : Str) : Str :=
  '\x22' :: s.flatMap dumpsChar ++ ['\x22']

mutual

/-- `json.dumps(value, separators=(",", ":"))`. -/
def dumps (p : Printer) : Json → Str
  | .null => "null".toList
  | .bool b => if b then "true".toList else "false".toList
  | .int n => intText n
  | .float (.fin q) => p.floatText (.fin q)
  | .float (.inf negative) => if negative then "-Infinity".toList else "Infinity".toList
  | .float .nan => "NaN".toList
  | .str s => dumpsStr s
  | .list items => '[' :: dumpsItems p items ++ [']']
  | .dict fields => '\x7b' :: dumpsFields p fields ++ ['\x7d']

/-- The items of a list. -/
def dumpsItems (p : Printer) : List Json → Str
  | [] => []
  | [item] => dumps p item
  | item :: next :: rest => dumps p item ++ ',' :: dumpsItems p (next :: rest)

/-- The entries of an object. -/
def dumpsFields (p : Printer) : List (Str × Json) → Str
  | [] => []
  | [(key, value)] => dumpsStr key ++ ':' :: dumps p value
  | (key, value) :: next :: rest =>
    dumpsStr key ++ ':' :: dumps p value ++ ',' :: dumpsFields p (next :: rest)

end

/-- A new line with an indent. -/
def newLine (depth : ℕ) : Str :=
  '\n' :: List.replicate depth ' '

mutual

/-- `json.dumps(value, indent=1)`, inside `depth` lists and objects. -/
def dumpsIndent (p : Printer) (depth : ℕ) : Json → Str
  | .null => dumps p .null
  | .bool b => dumps p (.bool b)
  | .int n => dumps p (.int n)
  | .float x => dumps p (.float x)
  | .str s => dumpsStr s
  | .list [] => ['[', ']']
  | .list (item :: items) =>
    '[' :: dumpsIndentItems p (depth + 1) (item :: items) ++ newLine depth ++ [']']
  | .dict [] => ['\x7b', '\x7d']
  | .dict (field :: fields) =>
    '\x7b' :: dumpsIndentFields p (depth + 1) (field :: fields) ++ newLine depth ++ ['\x7d']

/-- The items of a list, each on a line of its own. -/
def dumpsIndentItems (p : Printer) (depth : ℕ) : List Json → Str
  | [] => []
  | [item] => newLine depth ++ dumpsIndent p depth item
  | item :: next :: rest =>
    newLine depth ++ dumpsIndent p depth item ++ ',' :: dumpsIndentItems p depth (next :: rest)

/-- The entries of an object, each on a line of its own. -/
def dumpsIndentFields (p : Printer) (depth : ℕ) : List (Str × Json) → Str
  | [] => []
  | [(key, value)] => newLine depth ++ dumpsStr key ++ ": ".toList ++ dumpsIndent p depth value
  | (key, value) :: next :: rest =>
    newLine depth ++ dumpsStr key ++ ": ".toList ++ dumpsIndent p depth value ++
      ',' :: dumpsIndentFields p depth (next :: rest)

end

/-- Different integers are written differently. -/
theorem intText_injective : Function.Injective intText := by
  have hdigits (m : ℕ) : '-' ∉ natText m := fun hc => absurd (isDigit_of_mem_natText hc) (by decide)
  intro a b h
  unfold intText at h
  split_ifs at h with ha hb hb
  · have := natText_injective (List.cons.inj h).2
    omega
  · exact absurd (h ▸ List.mem_cons_self) (hdigits b.natAbs)
  · exact absurd (h.symm ▸ List.mem_cons_self) (hdigits a.natAbs)
  · have := natText_injective h
    omega

/-- An integer is one line. -/
theorem newline_not_mem_intText (n : ℤ) : '\n' ∉ intText n := by
  have hdigits (m : ℕ) : '\n' ∉ natText m := fun hc =>
    absurd (isDigit_of_mem_natText hc) (by decide)
  unfold intText
  split_ifs
  · simp [hdigits]
  · exact hdigits n.natAbs

@[simp]
theorem truthy_str (s : Str) : truthy (.str s) = decide (s ≠ []) := rfl

@[simp]
theorem textOr_str (p : Printer) (s : Str) : textOr p (.str s) = s := by
  by_cases h : s = []
  · simp [textOr, orElse, toStr, h]
  · simp [textOr, orElse, toStr, h]

example : toStr asciiPrinter (.list [.int (-3), .str ['a'], .dict [(['k'], .null)]]) =
    "[-3, 'a', \x7b'k': None\x7d]".toList := by decide +kernel

/-! ## The characters of a text -/

/-- The characters that ASCII prints. -/
def Printable (c : Char) : Prop :=
  0x20 ≤ c.toNat ∧ c.toNat < 0x7f

instance (c : Char) : Decidable (Printable c) :=
  inferInstanceAs (Decidable (_ ∧ _))

/-- Every digit is printable. -/
theorem printable_digitChar (d : ℕ) : Printable (Nat.digitChar d) := by
  by_cases hd : d < 16
  · have hall : ∀ d < 16, Printable (Nat.digitChar d) := by decide +kernel
    exact hall d hd
  · rw [Nat.digitChar_eq_star.mpr (by omega)]
    decide

/-- The digits of a number are printable in every base. -/
theorem printable_of_mem_toDigits {b n : ℕ} (hb : 1 < b) {c : Char}
    (h : c ∈ Nat.toDigits b n) : Printable c := by
  induction n using Nat.strong_induction_on with
  | _ n ih =>
    rw [Nat.toDigits_eq_if hb] at h
    split_ifs at h with hlt
    · exact List.mem_singleton.mp h ▸ printable_digitChar n
    · rcases List.mem_append.mp h with h | h
      · exact ih (n / b) (Nat.div_lt_self (by omega) hb) h
      · exact List.mem_singleton.mp h ▸ printable_digitChar (n % b)

/-- An integer is written in printable characters. -/
theorem printable_of_mem_intText {n : ℤ} {c : Char} (h : c ∈ intText n) : Printable c := by
  have hdigits {m : ℕ} (h : c ∈ natText m) : Printable c := by
    rw [natText, Nat.toList_repr] at h
    exact printable_of_mem_toDigits (by decide) h
  unfold intText at h
  split_ifs at h
  · rcases List.mem_cons.mp h with rfl | h
    · decide
    · exact hdigits h
  · exact hdigits h

/-- What is not printable is escaped, and the escape itself is printable. -/
theorem printable_of_mem_dumpsChar {c d : Char} (h : d ∈ dumpsChar c) : Printable d := by
  have hunit {n : ℕ} (h : d ∈ '\\' :: 'u' :: (Nat.toDigits 16 n).leftpad 4 '0') :
      Printable d := by
    simp only [List.mem_cons, List.leftpad, List.mem_append, List.mem_replicate] at h
    rcases h with rfl | rfl | ⟨-, rfl⟩ | h
    · decide
    · decide
    · decide
    · exact printable_of_mem_toDigits (by decide) h
  -- a backslash and what it escapes
  have hpair {e : Char} (he : Printable e) (h : d ∈ ['\\', e]) : Printable d := by
    rcases List.mem_cons.mp h with rfl | h
    · decide
    · exact List.mem_singleton.mp h ▸ he
  unfold dumpsChar at h
  dsimp only at h
  split_ifs at h with h1 h2 h3 h4 h5 h6 h7 h8
  · refine hpair ?_ h
    rcases h1 with rfl | rfl <;> decide
  · exact hpair (by decide) h
  · exact hpair (by decide) h
  · exact hpair (by decide) h
  · exact hpair (by decide) h
  · exact hpair (by decide) h
  · exact List.mem_singleton.mp h ▸ h7
  · exact hunit h
  · rcases List.mem_append.mp h with h | h
    · exact hunit h
    · exact hunit h

/-- A string is written in printable characters. -/
theorem printable_of_mem_dumpsStr {s : Str} {c : Char} (h : c ∈ dumpsStr s) : Printable c := by
  simp only [dumpsStr, List.mem_cons, List.mem_append, List.mem_flatMap, List.not_mem_nil,
    or_false] at h
  rcases h with (rfl | ⟨d, -, h⟩) | rfl
  · decide
  · exact printable_of_mem_dumpsChar h
  · decide

section Characters

variable {P : Char → Prop} {p : Printer}

mutual

/-- What holds of the characters that ASCII prints and of those of floats holds of all characters of
JSON text. -/
theorem forall_mem_dumps (hP : ∀ c, Printable c → P c) (hfloat : ∀ x, ∀ c ∈ p.floatText x, P c) :
    (value : Json) → ∀ c ∈ dumps p value, P c
  | .null => fun c hc => hP c (by revert c; simp [dumps]; decide)
  | .bool b => fun c hc => hP c (by revert c; cases b <;> (simp [dumps]; decide))
  | .int n => fun c hc => hP c (printable_of_mem_intText (by simpa [dumps] using hc))
  | .float (.fin q) => fun c hc => hfloat (.fin q) c (by simpa [dumps] using hc)
  | .float (.inf negative) => fun c hc =>
    hP c (by revert c; cases negative <;> (simp [dumps]; decide))
  | .float .nan => fun c hc => hP c (by revert c; simp [dumps]; decide)
  | .str s => fun c hc => hP c (printable_of_mem_dumpsStr (by simpa [dumps] using hc))
  | .list items => fun c hc => by
    simp only [dumps, List.cons_append, List.mem_cons, List.mem_append, List.not_mem_nil,
      or_false] at hc
    rcases hc with rfl | hc | rfl
    · exact hP _ (by decide)
    · exact forall_mem_dumpsItems hP hfloat items c hc
    · exact hP _ (by decide)
  | .dict fields => fun c hc => by
    simp only [dumps, List.cons_append, List.mem_cons, List.mem_append, List.not_mem_nil,
      or_false] at hc
    rcases hc with rfl | hc | rfl
    · exact hP _ (by decide)
    · exact forall_mem_dumpsFields hP hfloat fields c hc
    · exact hP _ (by decide)

/-- The items of a list, and the commas between them. -/
theorem forall_mem_dumpsItems (hP : ∀ c, Printable c → P c)
    (hfloat : ∀ x, ∀ c ∈ p.floatText x, P c) :
    (items : List Json) → ∀ c ∈ dumpsItems p items, P c
  | [] => fun c hc => by simp [dumpsItems] at hc
  | [item] => fun c hc => forall_mem_dumps hP hfloat item c (by simpa [dumpsItems] using hc)
  | item :: next :: rest => fun c hc => by
    simp only [dumpsItems, List.mem_append, List.mem_cons] at hc
    rcases hc with hc | rfl | hc
    · exact forall_mem_dumps hP hfloat item c hc
    · exact hP _ (by decide)
    · exact forall_mem_dumpsItems hP hfloat (next :: rest) c hc

/-- The fields of a dictionary, their keys and values, and the marks between them. -/
theorem forall_mem_dumpsFields (hP : ∀ c, Printable c → P c)
    (hfloat : ∀ x, ∀ c ∈ p.floatText x, P c) :
    (fields : List (Str × Json)) → ∀ c ∈ dumpsFields p fields, P c
  | [] => fun c hc => by simp [dumpsFields] at hc
  | [(key, value)] => fun c hc => by
    simp only [dumpsFields, List.mem_append, List.mem_cons] at hc
    rcases hc with hc | rfl | hc
    · exact hP c (printable_of_mem_dumpsStr hc)
    · exact hP _ (by decide)
    · exact forall_mem_dumps hP hfloat value c hc
  | (key, value) :: next :: rest => fun c hc => by
    simp only [dumpsFields, List.mem_append, List.mem_cons] at hc
    rcases hc with (hc | rfl | hc) | rfl | hc
    · exact hP c (printable_of_mem_dumpsStr hc)
    · exact hP _ (by decide)
    · exact forall_mem_dumps hP hfloat value c hc
    · exact hP _ (by decide)
    · exact forall_mem_dumpsFields hP hfloat (next :: rest) c hc

end

/-- JSON text is one line, as long as no float is printed with a newline. -/
theorem newline_not_mem_dumps (hp : ∀ x, '\n' ∉ p.floatText x) (value : Json) :
    '\n' ∉ dumps p value := fun h =>
  forall_mem_dumps (P := (· ≠ '\n'))
    (fun c hc heq => absurd (heq ▸ hc) (by decide)) (fun x _ hc heq => hp x (heq ▸ hc)) value _ h
    rfl

end Characters

end Json
