import ComputePool.Foundations.Text

/-!
# Words of a command line

`shlex.split` and `shlex.quote`, which follow the word splitting of a POSIX shell: blanks separate
words, single quotes keep everything, double quotes keep everything but a backslash in front of a
backslash or of a double quote, and a backslash outside of quotes keeps the next character.

* `split_join_quote`: quoted words that are joined by spaces are split into the words again.
* `split_eq_nil_iff`: only blank text has no words.
-/

namespace Shlex

open Text

/-- The characters between words. -/
def isBlank (c : Char) : Bool :=
  c ∈ [' ', '\t', '\r', '\n']

/-- Where the scanner is: between words, in a word, inside quotes, or after a backslash. -/
inductive Mode
  | blank
  | word
  | single
  | double
  | escape
  | escapeInDouble
  deriving DecidableEq, Repr

/-- The scanner, after the characters `token` of the current word. A word that has begun has a
character or a pair of quotes in it, so it counts even when it is empty. -/
def scan : Mode → Str → Str → Option (List Str)
  | .blank, _, [] => some []
  | .blank, _, c :: rest =>
    if isBlank c then scan .blank [] rest
    else if c = '\\' then scan .escape [] rest
    else if c = '\'' then scan .single [] rest
    else if c = '\x22' then scan .double [] rest
    else scan .word [c] rest
  | .word, token, [] => some [token]
  | .word, token, c :: rest =>
    if isBlank c then (scan .blank [] rest).map (token :: ·)
    else if c = '\'' then scan .single token rest
    else if c = '\x22' then scan .double token rest
    else if c = '\\' then scan .escape token rest
    else scan .word (token ++ [c]) rest
  -- `No closing quotation`
  | .single, _, [] => none
  | .single, token, c :: rest =>
    if c = '\'' then scan .word token rest else scan .single (token ++ [c]) rest
  | .double, _, [] => none
  | .double, token, c :: rest =>
    if c = '\x22' then scan .word token rest
    else if c = '\\' then scan .escapeInDouble token rest
    else scan .double (token ++ [c]) rest
  -- `No escaped character`
  | .escape, _, [] => none
  | .escape, token, c :: rest => scan .word (token ++ [c]) rest
  | .escapeInDouble, _, [] => none
  | .escapeInDouble, token, c :: rest =>
    if c = '\\' ∨ c = '\x22' then scan .double (token ++ [c]) rest
    else scan .double (token ++ ['\\', c]) rest

/-- `shlex.split(text)`, with `none` for the `ValueError`. -/
def split (text : Str) : Option (List Str) :=
  scan .blank [] text

/-- The characters that need no quotes. -/
def isSafe (c : Char) : Bool :=
  ('a' ≤ c && c ≤ 'z') || ('A' ≤ c && c ≤ 'Z') || ('0' ≤ c && c ≤ '9') ||
    c ∈ ['_', '@', '%', '+', '=', ':', ',', '.', '/', '-']

/-- A character inside single quotes: a single quote leaves them and stands in double quotes. -/
def quoteChar (c : Char) : Str :=
  if c = '\'' then ['\'', '\x22', '\'', '\x22', '\''] else [c]

/-- `shlex.quote(word)`. -/
def quote (word : Str) : Str :=
  if word = [] then ['\'', '\'']
  else if word.all isSafe then word
  else '\'' :: word.flatMap quoteChar ++ ['\'']

/-- `" ".join(words)`. -/
def join (words : List Str) : Str :=
  [' '].intercalate words

/-! ## Quoted words -/

/-- A character that needs no quotes means nothing to the scanner. -/
theorem plain_of_isSafe {c : Char} (h : isSafe c) :
    isBlank c = false ∧ c ≠ '\'' ∧ c ≠ '\x22' ∧ c ≠ '\\' := by
  refine ⟨?_, ?_, ?_, ?_⟩
  · by_contra hblank
    rw [Bool.not_eq_false, isBlank, decide_eq_true_eq] at hblank
    have hnone : [' ', '\t', '\r', '\n'].all (!isSafe ·) := by decide
    simpa [h] using List.all_eq_true.mp hnone c hblank
  · rintro rfl
    exact absurd h (by decide)
  · rintro rfl
    exact absurd h (by decide)
  · rintro rfl
    exact absurd h (by decide)

/-- Safe characters are taken into the word as they are. -/
theorem scan_word_safe {word : Str} (h : ∀ c ∈ word, isSafe c) (token rest : Str) :
    scan .word token (word ++ rest) = scan .word (token ++ word) rest := by
  induction word generalizing token with
  | nil => simp
  | cons c word ih =>
    rw [List.forall_mem_cons] at h
    obtain ⟨hblank, hsingle, hdouble, hescape⟩ := plain_of_isSafe h.1
    rw [List.cons_append, scan, hblank, if_neg Bool.false_ne_true, if_neg hsingle, if_neg hdouble,
      if_neg hescape, ih h.2, List.append_assoc, List.singleton_append]

/-- What `quote` puts between single quotes is read back, the quotes inside it included. -/
theorem scan_single_quoted (word token rest : Str) :
    scan .single token (word.flatMap quoteChar ++ '\'' :: rest) =
      scan .word (token ++ word) rest := by
  induction word generalizing token with
  | nil => simp [scan]
  | cons c word ih =>
    rw [List.flatMap_cons, List.append_assoc, quoteChar]
    split_ifs with hquote
    · -- out of the single quotes, through the double ones and back
      subst hquote
      calc scan .single token (['\'', '\x22', '\'', '\x22', '\''] ++
            (word.flatMap quoteChar ++ '\'' :: rest))
          = scan .single (token ++ ['\'']) (word.flatMap quoteChar ++ '\'' :: rest) := by
            simp [scan, isBlank]
        _ = scan .word (token ++ '\'' :: word) rest := by
            rw [ih, List.append_assoc, List.singleton_append]
    -- any other character stands for itself between single quotes
    · rw [List.singleton_append, scan, if_neg hquote, ih, List.append_assoc, List.singleton_append]

/-- The scanner reads a quoted word as the word. -/
theorem scan_quote (word rest : Str) :
    scan .blank [] (quote word ++ rest) = scan .word word rest := by
  rw [quote]
  split_ifs with hempty hsafe
  · subst hempty
    simp [scan, isBlank]
  -- a word of safe characters is not quoted
  · cases word with
    | nil => exact absurd rfl hempty
    | cons c word =>
      rw [List.all_cons, Bool.and_eq_true, List.all_eq_true] at hsafe
      obtain ⟨hblank, hsingle, hdouble, hescape⟩ := plain_of_isSafe hsafe.1
      rw [List.cons_append, scan, hblank, if_neg Bool.false_ne_true, if_neg hescape,
        if_neg hsingle, if_neg hdouble, scan_word_safe hsafe.2, List.singleton_append]
  · have hbegin : scan .blank [] ('\'' :: (word.flatMap quoteChar ++ '\'' :: rest)) =
        scan .single [] (word.flatMap quoteChar ++ '\'' :: rest) := by
      simp [scan, isBlank]
    rw [List.append_assoc, List.cons_append, List.singleton_append, hbegin, scan_single_quoted,
      List.nil_append]

/-- Quoted words that are joined by spaces are split into the words again. -/
theorem split_join_quote (words : List Str) : split (join (words.map quote)) = some words := by
  rw [split]
  induction words with
  | nil => rfl
  | cons word words ih =>
    cases words with
    | nil =>
      rw [List.map_singleton, join, List.intercalate_singleton, ← List.append_nil (quote word),
        scan_quote]
      rfl
    | cons next words =>
      have hjoin : join ((word :: next :: words).map quote) =
          quote word ++ ' ' :: join ((next :: words).map quote) := by
        simp [join, List.intercalate]
      -- a blank ends the word
      have hspace (rest : Str) :
          scan .word word (' ' :: rest) = (scan .blank [] rest).map (word :: ·) := by
        simp [scan, isBlank]
      rw [hjoin, scan_quote, hspace, ih, Option.map_some]

/-- A quoted word goes on with a word that has begun. -/
theorem scan_word_quote (word token rest : Str) :
    scan .word token (quote word ++ rest) = scan .word (token ++ word) rest := by
  rw [quote]
  split_ifs with hempty hsafe
  · subst hempty
    simp [scan, isBlank]
  · exact scan_word_safe (List.all_eq_true.mp hsafe) token rest
  · have hbegin : scan .word token ('\'' :: (word.flatMap quoteChar ++ '\'' :: rest)) =
        scan .single token (word.flatMap quoteChar ++ '\'' :: rest) := by
      simp [scan, isBlank]
    rw [List.append_assoc, List.cons_append, List.singleton_append, hbegin, scan_single_quoted]

/-- A blank ends a word. -/
theorem scan_word_space (token rest : Str) :
    scan .word token (' ' :: rest) = (split rest).map (token :: ·) := by
  simp [scan, split, isBlank]

theorem quote_eq_self {word : Str} (hne : word ≠ []) (h : ∀ c ∈ word, isSafe c) :
    quote word = word := by
  rw [quote, if_neg hne, if_pos (List.all_eq_true.mpr h)]

theorem split_quote_append (word rest : Str) :
    split (quote word ++ ' ' :: rest) = (split rest).map (word :: ·) := by
  rw [split, scan_quote, scan_word_space]

/-! ## Text without words -/

/-- A word that has begun is among the words, or the text is refused. -/
theorem scan_ne_nil {mode : Mode} (h : mode ≠ .blank) (token text : Str) :
    scan mode token text ≠ some [] := by
  -- once in a word, the scan ends with that word at least, or it fails
  induction text generalizing mode token with
  | nil =>
    cases mode with
    | blank => exact absurd rfl h
    | word => simp [scan]
    | single | double | escape | escapeInDouble => simp [scan]
  | cons c rest ih =>
    cases mode with
    | blank => exact absurd rfl h
    | word =>
      rw [scan]
      split_ifs
      · simp
      · exact ih (by decide) _
      · exact ih (by decide) _
      · exact ih (by decide) _
      · exact ih (by decide) _
    | single =>
      rw [scan]
      split_ifs
      · exact ih (by decide) _
      · exact ih (by decide) _
    | double =>
      rw [scan]
      split_ifs
      · exact ih (by decide) _
      · exact ih (by decide) _
      · exact ih (by decide) _
    | escape => exact ih (by decide) _
    | escapeInDouble =>
      rw [scan]
      split_ifs
      · exact ih (by decide) _
      · exact ih (by decide) _

/-- Only blank text has no words. -/
theorem split_eq_nil_iff {text : Str} : split text = some [] ↔ ∀ c ∈ text, isBlank c := by
  rw [split]
  induction text with
  | nil => simp [scan]
  | cons c rest ih =>
    rw [scan, List.forall_mem_cons]
    split_ifs with hblank
    · rw [ih, and_iff_right hblank]
    · exact iff_of_false (scan_ne_nil (by decide) _ _) fun h => hblank h.1
    · exact iff_of_false (scan_ne_nil (by decide) _ _) fun h => hblank h.1
    · exact iff_of_false (scan_ne_nil (by decide) _ _) fun h => hblank h.1
    · exact iff_of_false (scan_ne_nil (by decide) _ _) fun h => hblank h.1

example : split "a 'b c' d\\ e \x22f\\\x22\x22 ''".toList =
    some ["a".toList, "b c".toList, "d e".toList, "f\x22".toList, []] := by decide

example : split "echo 'x".toList = none := by decide

end Shlex
