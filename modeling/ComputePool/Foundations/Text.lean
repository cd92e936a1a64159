import Mathlib.Data.List.Dedup
import Mathlib.Data.List.DropRight
import Mathlib.Data.List.Infix
import Mathlib.Data.List.Sort

/-!
# Text as Python's `str` sees it

Strings are lists of Unicode scalar values. The functions below follow the documented behaviour
of the `str` methods of the same name: which characters count as white space and as line
boundaries, that `splitlines` treats `\r\n` as one boundary and yields no empty last line, that
`split()` without an argument drops empty words.

* `splitLines_joinLines`: lines without a boundary inside survive being written one per line and
  read back.
* `append_cons_inj`: a character that occurs on neither right-hand side splits a string in one
  way only.
* `rfind_eq_some`: where the last occurrence of a pattern is.
-/

namespace Text

/-- A Python string. -/
abbrev Str := List Char

/-- Strings are compared character by character. -/
instance lawfulBEqStr : LawfulBEq Str := inferInstance

/-- The characters `str.isspace` holds of; `strip` and `split` use the same set. -/
def isSpace (c : Char) : Bool :=
  c.toNat ∈ [0x9, 0xa, 0xb, 0xc, 0xd, 0x1c, 0x1d, 0x1e, 0x1f, 0x20, 0x85, 0xa0, 0x1680, 0x2000,
    0x2001, 0x2002, 0x2003, 0x2004, 0x2005, 0x2006, 0x2007, 0x2008, 0x2009, 0x200a, 0x2028,
    0x2029, 0x202f, 0x205f, 0x3000]

/-- The line boundaries of `str.splitlines`. -/
def isLineBreak (c : Char) : Bool :=
  c.toNat ∈ [0xa, 0xb, 0xc, 0xd, 0x1c, 0x1d, 0x1e, 0x85, 0x2028, 0x2029]

/-- Every line boundary is white space. -/
theorem isSpace_of_isLineBreak {c : Char} (h : isLineBreak c) : isSpace c := by
  simp only [isLineBreak, isSpace, List.mem_cons, List.not_mem_nil, or_false,
    decide_eq_true_eq] at h ⊢
  omega

/-- `s.strip()`. -/
def strip (s : Str) : Str :=
  ((s.dropWhile isSpace).reverse.dropWhile isSpace).reverse

/-- `s.split()` after the characters `word` of the current word. -/
def splitFrom (word : Str) : Str → List Str
  | [] => if word = [] then [] else [word]
  | c :: rest =>
    if isSpace c then
      if word = [] then splitFrom [] rest else word :: splitFrom [] rest
    else splitFrom (word ++ [c]) rest

/-- `s.split()`. -/
def split (s : Str) : List Str :=
  splitFrom [] s

/-- `s.endswith(suffix)`. -/
def endsWith (s suffix : Str) : Bool :=
  suffix.isSuffixOf s

/-- `s.startswith(pre)`. -/
def startsWith (s pre : Str) : Bool :=
  pre.isPrefixOf s

/-- `pattern in s`. -/
def contains (s pattern : Str) : Bool :=
  s.tails.any pattern.isPrefixOf

/-- `s.rfind(pattern)`, with `none` for `-1`. -/
def rfind (s pattern : Str) : Option ℕ :=
  (List.range (s.length + 1)).reverse.find? fun i => pattern.isPrefixOf (s.drop i)

/-- `s.splitlines()` after the characters `line` of the current line. -/
def splitLinesFrom (line : Str) : Str → List Str
  | [] => if line = [] then [] else [line]
  | '\r' :: '\n' :: rest => line :: splitLinesFrom [] rest
  | c :: rest =>
    if isLineBreak c then line :: splitLinesFrom [] rest else splitLinesFrom (line ++ [c]) rest

/-- `s.splitlines()`. -/
def splitLines (s : Str) : List Str :=
  splitLinesFrom [] s

/-- `"".join(line + "\n" for line in lines)`. -/
def joinLines (lines : List Str) : Str :=
  lines.flatMap (· ++ ['\n'])

/-- A regular expression that ends in `$` also accepts one newline after what it describes. -/
def matchesToEnd (accepts : Str → Bool) (s : Str) : Bool :=
  accepts s || (s.getLast? = some '\n' && accepts s.dropLast)

/-- `s.lower()`, as far as the presence of ASCII text can tell: of the other capital letters only
two have a lower-case form with an ASCII letter in it. -/
def lower (s : Str) : Str :=
  s.flatMap fun c =>
    if c.toNat = 0x212a then ['k']
    else if c.toNat = 0x130 then ['i', Char.ofNat 0x307]
    else [c.toLower]

/-- A number in decimal. -/
def natText (n : ℕ) : Str :=
  (Nat.repr n).toList

/-- `a <= b` on strings: by code points, a proper start first. -/
def strLe : Str → Str → Bool
  | [], _ => true
  | _ :: _, [] => false
  | a :: as, b :: bs => a.toNat < b.toNat || (a = b && strLe as bs)

/-- `sorted(set(items))`. -/
def sortedSet (items : List Str) : List Str :=
  items.dedup.insertionSort fun a b => strLe a b

/-- A character inside the quotes of a `repr`. -/
def reprChar (printable : Char → Bool) (quote c : Char) : Str :=
  let escaped (letter : Char) (width : ℕ) : Str :=
    '\\' :: letter :: (Nat.toDigits 16 c.toNat).leftpad width '0'
  if c = quote ∨ c = '\\' then ['\\', c]
  else if c = '\n' then ['\\', 'n']
  else if c = '\r' then ['\\', 'r']
  else if c = '\t' then ['\\', 't']
  else if printable c then [c]
  -- the shortest escape that holds the code point
  else if c.toNat < 0x100 then escaped 'x' 2
  else if c.toNat < 0x10000 then escaped 'u' 4
  else escaped 'U' 8

/-- `repr(s)` of a string, given `str.isprintable` of its characters. -/
def pyRepr (printable : Char → Bool) (s : Str) : Str :=
  -- single quotes (27), unless the text has these and no double ones (22)
  let quote := if '\x27' ∈ s ∧ '\x22' ∉ s then '\x22' else '\x27'
  quote :: s.flatMap (reprChar printable quote) ++ [quote]

@[simp]
theorem mem_sortedSet {items : List Str} {s : Str} : s ∈ sortedSet items ↔ s ∈ items := by
  rw [sortedSet, List.mem_insertionSort, List.mem_dedup]

/-! ## White space -/

/-- There is nothing to strip of a text without spaces. -/
theorem dropWhile_isSpace_eq_self {s : Str} (h : ∀ c ∈ s, isSpace c = false) :
    s.dropWhile isSpace = s := by
  cases s with
  | nil => rfl
  | cons c s => simp [h c (by simp)]

theorem strip_eq_self {s : Str} (h : ∀ c ∈ s, isSpace c = false) : strip s = s := by
  rw [strip, dropWhile_isSpace_eq_self h, dropWhile_isSpace_eq_self (by simpa using h),
    List.reverse_reverse]

/-- A space at the end is stripped. -/
theorem strip_concat {s : Str} {c : Char} (h : ∀ c ∈ s, isSpace c = false) (hc : isSpace c) :
    strip (s ++ [c]) = s := by
  have hleft : (s ++ [c]).dropWhile isSpace = if s = [] then [] else s ++ [c] := by
    cases s with
    | nil => simp [hc]
    | cons d s => simp [h d (by simp)]
  rw [strip, hleft]
  split_ifs with hs
  · simp [hs]
  · have hrev : ∀ c ∈ s.reverse, isSpace c = false := by simpa using h
    rw [List.reverse_append, List.reverse_singleton, List.singleton_append,
      List.dropWhile_cons_of_pos hc, dropWhile_isSpace_eq_self hrev, List.reverse_reverse]

/-- A text that starts and ends with a word is left as it is. -/
theorem strip_append_append {first last : Str} (middle : Str) (hfirst : first ≠ [])
    (hlast : last ≠ []) (hf : ∀ c ∈ first, isSpace c = false) (hl : ∀ c ∈ last, isSpace c = false) :
    strip (first ++ (middle ++ last)) = first ++ (middle ++ last) := by
  have hdrop {word : Str} (rest : Str) (hne : word ≠ []) (hw : ∀ c ∈ word, isSpace c = false) :
      (word ++ rest).dropWhile isSpace = word ++ rest := by
    cases word with
    | nil => exact absurd rfl hne
    | cons c word => simp [hw c (by simp)]
  have hreverse : (first ++ (middle ++ last)).reverse =
      last.reverse ++ (middle.reverse ++ first.reverse) := by simp
  rw [strip, hdrop _ hfirst hf, hreverse, hdrop _ (by simpa using hlast) (by simpa using hl),
    ← hreverse, List.reverse_reverse]

/-- Stripping twice strips no more. -/
theorem strip_strip (s : Str) : strip (strip s) = strip s := by
  have hright (t : Str) : strip t = (t.dropWhile isSpace).rdropWhile isSpace := rfl
  have hleft : (strip s).dropWhile isSpace = strip s := by
    rw [List.dropWhile_eq_self_iff]
    intro hlen
    -- the first character left of `s` is the one `dropWhile` stopped at
    have hpre : strip s <+: s.dropWhile isSpace := List.rdropWhile_prefix _ _
    rw [hpre.getElem hlen, List.getElem_zero]
    simpa using List.head_dropWhile_not isSpace _
  rw [hright (strip s), hleft, hright s, List.rdropWhile_idempotent]

/-- White space around a word is what `strip` takes away. -/
theorem strip_padding {pre word post : Str} (hpre : ∀ c ∈ pre, isSpace c)
    (hword : ∀ c ∈ word, isSpace c = false) (hpost : ∀ c ∈ post, isSpace c) :
    strip (pre ++ (word ++ post)) = word := by
  have hpost' : ∀ c ∈ post.reverse, isSpace c := by simpa using hpost
  have hword' : ∀ c ∈ word.reverse, isSpace c = false := fun c hc => hword c (by simpa using hc)
  rw [strip, List.dropWhile_append_of_pos hpre]
  cases word with
  | nil => simp [List.dropWhile_eq_nil_iff.mpr hpost]
  | cons c word =>
    rw [List.cons_append, List.dropWhile_cons_of_neg (by simp [hword c]), ← List.cons_append,
      List.reverse_append, List.dropWhile_append_of_pos hpost',
      dropWhile_isSpace_eq_self hword', List.reverse_reverse]

/-- Only spaces are stripped. -/
theorem exists_padding (s : Str) : ∃ pre post, s = pre ++ (strip s ++ post) ∧
    (∀ c ∈ pre, isSpace c) ∧ ∀ c ∈ post, isSpace c := by
  have hright : (s.dropWhile isSpace).rdropWhile isSpace ++
      (s.dropWhile isSpace).rtakeWhile isSpace = s.dropWhile isSpace := by
    rw [List.rdropWhile, List.rtakeWhile, ← List.reverse_append, List.takeWhile_append_dropWhile,
      List.reverse_reverse]
  refine ⟨s.takeWhile isSpace, (s.dropWhile isSpace).rtakeWhile isSpace, ?_,
    fun c hc => List.mem_takeWhile_imp hc, fun c hc => ?_⟩
  · show s = s.takeWhile isSpace ++ ((s.dropWhile isSpace).rdropWhile isSpace ++ _)
    rw [hright, List.takeWhile_append_dropWhile]
  · rw [List.rtakeWhile, List.mem_reverse] at hc
    exact List.mem_takeWhile_imp hc

/-- A text with a character that is not a space is not stripped away. -/
theorem strip_ne_nil {s : Str} {c : Char} (hmem : c ∈ s) (hc : isSpace c = false) :
    strip s ≠ [] := by
  intro hnil
  obtain ⟨pre, post, hs, hpre, hpost⟩ := exists_padding s
  rw [hnil, List.nil_append] at hs
  rw [hs, List.mem_append] at hmem
  rcases hmem with hmem | hmem
  · simp [hpre c hmem] at hc
  · simp [hpost c hmem] at hc

/-- The words of a text hold no space. -/
theorem not_isSpace_of_mem_splitFrom {word s : Str} (hword : ∀ c ∈ word, isSpace c = false) :
    ∀ w ∈ splitFrom word s, ∀ c ∈ w, isSpace c = false := by
  fun_induction splitFrom word s with
  | case1 => simp
  | case2 word _ => simpa using hword
  | case3 c rest hc ih => exact ih (by simp)
  -- a word is complete
  | case4 word c rest hc _ ih =>
    intro w hw
    rcases List.mem_cons.mp hw with rfl | hw
    · exact hword
    · exact ih (by simp) w hw
  -- one more character of the word
  | case5 word c rest hc ih =>
    refine ih fun d hd => ?_
    rcases List.mem_append.mp hd with hd | hd
    · exact hword d hd
    · simpa [List.mem_singleton.mp hd] using hc

/-- Words contain no white space. -/
theorem not_isSpace_of_mem_split {s word : Str} (h : word ∈ split s) :
    ∀ c ∈ word, isSpace c = false :=
  not_isSpace_of_mem_splitFrom (by simp) word h

/-- Two spaces in a row make no empty word. -/
theorem ne_nil_of_mem_splitFrom {word s : Str} : ∀ w ∈ splitFrom word s, w ≠ [] := by
  fun_induction splitFrom word s with
  | case1 => simp
  | case2 word hword => simpa using hword
  | case3 c rest hc ih => exact ih
  | case4 word c rest hc hword ih =>
    intro w hw
    rcases List.mem_cons.mp hw with rfl | hw
    exacts [hword, ih w hw]
  | case5 word c rest hc ih => exact ih

/-- Words are not empty. -/
theorem ne_nil_of_mem_split {s word : Str} (h : word ∈ split s) : word ≠ [] :=
  ne_nil_of_mem_splitFrom word h

/-- Characters that are no spaces lengthen the word. -/
theorem splitFrom_append {s : Str} (word rest : Str) (h : ∀ c ∈ s, isSpace c = false) :
    splitFrom word (s ++ rest) = splitFrom (word ++ s) rest := by
  induction s generalizing word with
  | nil => simp
  | cons c s ih =>
    rw [List.cons_append, splitFrom, if_neg (by simp [h c (by simp)]),
      ih _ fun d hd => h d (by simp [hd]), List.append_assoc, List.singleton_append]

/-- Two words with a space between them. -/
theorem split_two {first second : Str} (hfirst : first ≠ []) (hsecond : second ≠ [])
    (hf : ∀ c ∈ first, isSpace c = false) (hs : ∀ c ∈ second, isSpace c = false) :
    split (first ++ ' ' :: second) = [first, second] := by
  have hrest : splitFrom [] second = [second] := by
    simpa [splitFrom, hsecond] using splitFrom_append [] [] hs
  have hspace : isSpace ' ' = true := by decide
  rw [split, splitFrom_append [] _ hf, List.nil_append, splitFrom, if_pos hspace, if_neg hfirst,
    hrest]

/-! ## Lines -/

/-- No character of the line is a line boundary. -/
def OneLine (line : Str) : Prop :=
  ∀ c ∈ line, isLineBreak c = false

theorem OneLine.append {s t : Str} (hs : OneLine s) (ht : OneLine t) : OneLine (s ++ t) := by
  intro c hc
  rcases List.mem_append.mp hc with hc | hc
  exacts [hs c hc, ht c hc]

/-- A character that is no line break lengthens the line. -/
theorem splitLinesFrom_cons {line : Str} {c : Char} (rest : Str) (h : isLineBreak c = false) :
    splitLinesFrom line (c :: rest) = splitLinesFrom (line ++ [c]) rest := by
  have hc : c ≠ '\r' := by rintro rfl; exact absurd h (by decide)
  rw [splitLinesFrom]
  · simp [h]
  · intro _ hcr
    exact absurd hcr hc

/-- So do several. -/
theorem splitLinesFrom_append {line : Str} (rest : Str) {s : Str} (h : OneLine s) :
    splitLinesFrom line (s ++ rest) = splitLinesFrom (line ++ s) rest := by
  induction s generalizing line with
  | nil => simp
  | cons c s ih =>
    rw [List.cons_append, splitLinesFrom_cons _ (h c (by simp)),
      ih (fun d hd => h d (List.mem_cons_of_mem c hd)), List.append_assoc, List.singleton_append]

/-- A newline ends the line. -/
theorem splitLinesFrom_newline (line rest : Str) :
    splitLinesFrom line ('\n' :: rest) = line :: splitLinesFrom [] rest := by
  rw [splitLinesFrom]
  · rw [if_pos (by decide)]
  · intro _ h
    exact absurd h (by decide)

/-- Lines without a boundary inside survive being written and read back. -/
theorem splitLines_joinLines {lines : List Str} (h : ∀ line ∈ lines, OneLine line) :
    splitLines (joinLines lines) = lines := by
  induction lines with
  | nil => rfl
  | cons line lines ih =>
    have hline : OneLine line := h line (by simp)
    have hrest := ih fun l hl => h l (List.mem_cons_of_mem line hl)
    simp only [splitLines, joinLines, List.flatMap_cons, List.append_assoc] at hrest ⊢
    rw [splitLinesFrom_append _ hline, List.nil_append, List.singleton_append,
      splitLinesFrom_newline, hrest]

/-- No line holds a line break. -/
theorem oneLine_of_mem_splitLinesFrom {line s : Str} (hline : OneLine line) :
    ∀ l ∈ splitLinesFrom line s, OneLine l := by
  fun_induction splitLinesFrom line s with
  | case1 => simp
  | case2 line h => simpa using hline
  | case3 line rest ih =>
    intro l hl
    rcases List.mem_cons.mp hl with rfl | hl
    · exact hline
    · exact ih (by simp [OneLine]) l hl
  | case4 line c rest _ hc ih =>
    intro l hl
    rcases List.mem_cons.mp hl with rfl | hl
    · exact hline
    · exact ih (by simp [OneLine]) l hl
  | case5 line c rest _ hc ih =>
    exact ih (hline.append (by simpa [OneLine] using hc))

/-- No line of `splitlines` contains a boundary. -/
theorem oneLine_of_mem_splitLines {s line : Str} (h : line ∈ splitLines s) : OneLine line :=
  oneLine_of_mem_splitLinesFrom (by simp [OneLine]) line h

/-- No piece of `s.split(c)` contains `c`. -/
theorem not_mem_of_mem_splitOn {s piece : Str} {c : Char} (h : piece ∈ s.splitOn c) :
    c ∉ piece := by
  induction s generalizing piece with
  | nil =>
    rw [List.splitOn_nil, List.mem_singleton] at h
    simp [h]
  | cons d s ih =>
    rw [List.splitOn_cons_eq_if_modifyHead] at h
    -- a cut, or one more character of the first piece
    by_cases hd : d = c
    · rw [if_pos (by simpa using hd)] at h
      rcases List.mem_cons.mp h with rfl | h
      · simp
      · exact ih h
    · rw [if_neg (by simpa using hd)] at h
      cases hs : s.splitOn c with
      | nil => exact absurd hs (List.splitOn_ne_nil c s)
      | cons first rest =>
        rw [hs, List.modifyHead_cons] at h
        rcases List.mem_cons.mp h with rfl | h
        · rw [List.mem_cons, not_or]
          exact ⟨fun heq => hd heq.symm, ih (hs ▸ List.mem_cons_self)⟩
        · exact ih (hs ▸ List.mem_cons_of_mem _ h)

/-- A text with one separator has two pieces. -/
theorem splitOn_eq_pair_iff {s left right : Str} {c : Char} :
    s.splitOn c = [left, right] ↔ s = left ++ c :: right ∧ c ∉ left ∧ c ∉ right := by
  constructor
  · intro h
    have hpiece {piece : Str} (hmem : piece ∈ [left, right]) : c ∉ piece :=
      not_mem_of_mem_splitOn (h ▸ hmem)
    refine ⟨?_, hpiece (by simp), hpiece (by simp)⟩
    calc s = [c].intercalate (s.splitOn c) := (List.intercalate_splitOn c).symm
      _ = left ++ c :: right := by simp [h, List.intercalate, List.intersperse]
  · rintro ⟨rfl, hleft, hright⟩
    rw [List.splitOn_append_cons_self_of_not_mem hleft, List.splitOn_eq_singleton hright]

/-! ## Finding a pattern -/

/-- A character absent from both right-hand sides splits a string in one way only. -/
theorem append_cons_inj {s s' t t' : Str} {c : Char} (ht : c ∉ t) (ht' : c ∉ t')
    (h : s ++ c :: t = s' ++ c :: t') : s = s' ∧ t = t' := by
  have htake (u v : Str) (hv : c ∉ v) : (u ++ c :: v).reverse.takeWhile (· ≠ c) = v.reverse := by
    rw [List.reverse_append, List.reverse_cons, List.append_assoc]
    rw [List.takeWhile_append_of_pos]
    · simp
    · intro d hd
      simp only [List.mem_reverse] at hd
      simpa using fun hdc : d = c => hv (hdc ▸ hd)
  have hrev : t.reverse = t'.reverse := by rw [← htake s t ht, h, htake s' t' ht']
  have heq : t = t' := List.reverse_injective hrev
  exact ⟨by simpa [heq] using h, heq⟩

theorem endsWith_iff {s suffix : Str} : endsWith s suffix ↔ ∃ pre, pre ++ suffix = s := by
  rw [endsWith, List.isSuffixOf_iff_suffix]
  rfl

/-- One text is contained in another when it stands somewhere in it. -/
theorem contains_iff {s pattern : Str} :
    contains s pattern ↔ ∃ pre post, s = pre ++ pattern ++ post := by
  simp only [contains, List.any_eq_true, List.mem_tails, List.isPrefixOf_iff_prefix]
  constructor
  · rintro ⟨t, ⟨pre, hpre⟩, ⟨post, hpost⟩⟩
    exact ⟨pre, post, by rw [List.append_assoc, hpost, hpre]⟩
  · rintro ⟨pre, post, rfl⟩
    exact ⟨pattern ++ post, ⟨pre, by simp⟩, ⟨post, rfl⟩⟩

/-- `rfind` finds an occurrence when the last character of the pattern does not come again. -/
theorem rfind_eq_some {pre pat post : Str} {c : Char} (hc : c ∉ post) :
    rfind (pre ++ (pat ++ [c]) ++ post) (pat ++ [c]) = some pre.length := by
  rw [rfind, List.find?_eq_some_iff_getElem]
  have hlen : (pre ++ (pat ++ [c]) ++ post).length =
      pre.length + (pat.length + 1) + post.length := by simp; omega
  -- the hit is at the length of the prefix, and no later start is one
  refine ⟨?_, pat.length + 1 + post.length, ?_, ?_, ?_⟩
  · rw [List.isPrefixOf_iff_prefix, List.append_assoc, List.drop_left]
    exact ⟨post, rfl⟩
  · simp only [List.length_reverse, List.length_range, hlen]
    omega
  · rw [List.getElem_reverse]
    simp only [List.length_range, List.getElem_range, hlen]
    omega
  · -- an earlier hit in the reversed search is a later occurrence, whose last character is `c`
    intro j hj
    rw [List.getElem_reverse]
    simp only [List.length_range, List.getElem_range, hlen, Bool.not_eq_true',
      Bool.eq_false_iff, ne_eq, List.isPrefixOf_iff_prefix]
    rintro ⟨rest, hrest⟩
    set i := pre.length + (pat.length + 1) + post.length + 1 - 1 - j with hi
    have hdrop : (pre ++ (pat ++ [c]) ++ post).drop i =
        post.drop (i - (pre.length + (pat.length + 1))) ∨ i < pre.length + (pat.length + 1) := by
      by_cases hlt : i < pre.length + (pat.length + 1)
      · exact Or.inr hlt
      · left
        rw [List.drop_append, List.drop_eq_nil_of_le (by simp; omega), List.nil_append]
        simp
    -- in the tail there is no `c`; before it the hit would end in the tail
    rcases hdrop with hdrop | hlt
    · rw [hdrop] at hrest
      have hmem : c ∈ post.drop (i - (pre.length + (pat.length + 1))) := by
        rw [← hrest]; simp
      exact hc (List.mem_of_mem_drop hmem)
    · have hget : (pre ++ (pat ++ [c]) ++ post)[i + pat.length]? = some c := by
        rw [← List.getElem?_drop, ← hrest]
        simp
      have hpost : i + pat.length ≥ (pre ++ (pat ++ [c])).length := by simp; omega
      rw [List.getElem?_append_right hpost] at hget
      exact hc (List.mem_of_getElem? hget)

/-! ## Numbers -/

theorem natText_injective : Function.Injective natText := by
  intro m n h
  simp only [natText, Nat.toList_repr] at h
  rw [← Nat.ofDigitChars_ten_toDigits (n := m), h, Nat.ofDigitChars_ten_toDigits]

theorem isDigit_of_mem_natText {n : ℕ} {c : Char} (h : c ∈ natText n) : c.isDigit := by
  rw [natText, Nat.toList_repr] at h
  exact Nat.isDigit_of_mem_toDigits (by decide) (by decide) h

/-! ## Bytes -/

/-- What stands before the first of a mark is determined by the text. -/
theorem append_cons_inj_left {α : Type*} {s s' t t' : List α} {c : α} (hs : c ∉ s) (hs' : c ∉ s')
    (h : s ++ c :: t = s' ++ c :: t') : s = s' ∧ t = t' := by
  induction s generalizing s' with
  | nil =>
    cases s' with
    | nil => exact ⟨rfl, (List.cons.inj h).2⟩
    | cons d s' => exact absurd (List.cons.inj h).1 fun heq => hs' (by simp [heq])
  | cons d s ih =>
    cases s' with
    | nil => exact absurd (List.cons.inj h).1 fun heq => hs (by simp [heq])
    | cons d' s' =>
      obtain ⟨rfl, hrest⟩ := List.cons.inj h
      obtain ⟨rfl, rfl⟩ := ih (fun hc => hs (by simp [hc])) (fun hc => hs' (by simp [hc])) hrest
      exact ⟨rfl, rfl⟩

/-- The loop of `ByteArray.toList` reads the bytes in order. -/
theorem toList_loop (b : ByteArray) (i : ℕ) (read : List UInt8) :
    ByteArray.toList.loop b i read = read.reverse ++ b.data.toList.drop i := by
  fun_induction ByteArray.toList.loop b i read with
  | case1 i read h ih =>
    have hlt : i < b.data.toList.length := h
    have hget : b.get! i = b.data.toList[i] := by
      show b.data[i]! = _
      rw [getElem!_pos b.data i h, Array.getElem_toList]
    rw [ih, List.drop_eq_getElem_cons hlt, List.reverse_cons, List.append_assoc, hget,
      List.singleton_append]
  | case2 i read h =>
    have hle : b.data.toList.length ≤ i := not_lt.mp h
    rw [List.drop_eq_nil_of_le hle, List.append_nil]

theorem toList_toByteArray (bytes : List UInt8) : bytes.toByteArray.toList = bytes := by
  rw [ByteArray.toList, toList_loop]
  simp

theorem or_ne_of_lt {x y b : UInt8} (h : b < y) : x ||| y ≠ b := by
  rintro rfl
  have hle : y.toNat ≤ x.toNat ||| y.toNat := Nat.right_le_or
  rw [← UInt8.toNat_or] at hle
  exact absurd (UInt8.lt_iff_toNat_lt.mp h) (not_lt.mpr hle)

/-- In UTF-8, the byte of a newline stands for nothing else. -/
theorem count_utf8EncodeChar (c : Char) :
    (String.utf8EncodeChar c).count 10 = if c = '\n' then 1 else 0 := by
  split_ifs with hc
  · subst hc
    decide
  · rw [List.count_eq_zero]
    -- by the number of octets: all octets of a longer character are at least 128
    rcases c.utf8Size_eq with hsize | hsize | hsize | hsize
    · rw [String.utf8EncodeChar_eq_singleton hsize, List.mem_singleton]
      intro hten
      have hle := Char.utf8Size_eq_one_iff.mp hsize
      refine hc (Char.ext (UInt32.toNat_inj.mp ?_))
      have hval : c.val.toNat % 256 = 10 := (congrArg UInt8.toNat hten).symm
      have hle' := UInt32.le_iff_toNat_le.mp hle
      have h127 : (127 : UInt32).toNat = 127 := rfl
      show c.val.toNat = 10
      omega
    · rw [String.utf8EncodeChar_eq_cons_cons hsize]
      simp only [List.mem_cons, List.not_mem_nil, or_false, not_or]
      exact ⟨(or_ne_of_lt (by decide)).symm, (or_ne_of_lt (by decide)).symm⟩
    · rw [String.utf8EncodeChar_eq_cons_cons_cons hsize]
      simp only [List.mem_cons, List.not_mem_nil, or_false, not_or]
      exact ⟨(or_ne_of_lt (by decide)).symm, (or_ne_of_lt (by decide)).symm,
        (or_ne_of_lt (by decide)).symm⟩
    · rw [String.utf8EncodeChar_eq_cons_cons_cons_cons hsize]
      simp only [List.mem_cons, List.not_mem_nil, or_false, not_or]
      exact ⟨(or_ne_of_lt (by decide)).symm, (or_ne_of_lt (by decide)).symm,
        (or_ne_of_lt (by decide)).symm, (or_ne_of_lt (by decide)).symm⟩

end Text
