import ComputePool.Validator.Scoring.LocalScores
import ComputePool.Validator.Verify.Version

/-!
# The two version gates

`stale` of `validator/verify/version.py` decides whether an agent is verified at all, `driver_ok` of
`validator/scoring/weights.py` whether a rig is paid after a cutoff. Both find up to three numbers
in a text and compare them as tuples, in which a tuple comes before every longer one that begins
with it. As versions, 1.2 and 1.2.0 are the same.

* `WrittenVersion`: one to three decimal numbers with dots between them.
* `lt_iff_rightpad_lt`: where the order of tuples is that of the numbers filled up with zeros.
* `gates_numeric_iff`: both gates compare versions as numbers, unless the first one leaves out
  zeros at the end of the second.
-/

namespace ComputePool.Validator

open Text Numeral

/-! ## Tuples of different lengths -/

section Tuples

/-- `b` is `a` with zeros after it. -/
def LeavesOutZeros (a b : List ℤ) : Prop :=
  ∃ zeros, zeros ≠ [] ∧ (∀ z ∈ zeros, z = 0) ∧ b = a ++ zeros

/-- What the empty version leaves out is a version of zeros alone. -/
theorem leavesOutZeros_nil {b : List ℤ} : LeavesOutZeros [] b ↔ b ≠ [] ∧ ∀ z ∈ b, z = 0 := by
  constructor
  · rintro ⟨zeros, hne, hzeros, rfl⟩
    exact ⟨hne, hzeros⟩
  · rintro ⟨hne, hzeros⟩
    exact ⟨b, hne, hzeros, rfl⟩

/-- Equal first parts do not matter. -/
theorem leavesOutZeros_cons {x y : ℤ} {a b : List ℤ} :
    LeavesOutZeros (x :: a) (y :: b) ↔ x = y ∧ LeavesOutZeros a b := by
  constructor
  · rintro ⟨zeros, hne, hzeros, heq⟩
    obtain ⟨rfl, rfl⟩ := List.cons.inj heq
    exact ⟨rfl, zeros, hne, hzeros, rfl⟩
  · rintro ⟨rfl, zeros, hne, hzeros, rfl⟩
    exact ⟨zeros, hne, hzeros, rfl⟩

/-- Nothing is older than zeros of no greater length. -/
theorem not_lt_replicate_zero {n : ℕ} {a : List ℤ} (ha : ∀ x ∈ a, 0 ≤ x) (hlen : n ≤ a.length) :
    ¬ a < List.replicate n 0 := by
  induction n generalizing a with
  | zero => exact List.not_lt_nil a
  | succ n ih =>
    cases a with
    | nil => simp at hlen
    | cons x a =>
      have hx : 0 ≤ x := ha x (by simp)
      have hrest := ih (fun z hz => ha z (List.mem_cons_of_mem _ hz)) (by simpa using hlen)
      rw [List.replicate_succ, List.cons_lt_cons_iff]
      rintro (hlt | ⟨-, hlt⟩)
      · omega
      · exact hrest hlt

/-- Zeros are older than a version of their length as soon as it has another part. -/
theorem replicate_zero_lt_iff {n : ℕ} {b : List ℤ} (hb : ∀ y ∈ b, 0 ≤ y) (hlen : b.length = n) :
    List.replicate n 0 < b ↔ ∃ y ∈ b, y ≠ 0 := by
  induction n generalizing b with
  | zero => simp [List.length_eq_zero_iff.mp hlen]
  | succ n ih =>
    cases b with
    | nil => simp at hlen
    | cons y b =>
      have hy : 0 ≤ y := hb y (by simp)
      have hrest := ih (fun z hz => hb z (List.mem_cons_of_mem _ hz)) (by simpa using hlen)
      rw [List.replicate_succ, List.cons_lt_cons_iff, hrest]
      simp only [List.exists_mem_cons_iff]
      -- the first number that is not zero decides
      constructor
      · rintro (hlt | ⟨-, hex⟩)
        · exact Or.inl (by omega)
        · exact Or.inr hex
      · rintro (hne | hex)
        · exact Or.inl (by omega)
        · by_cases hzero : 0 = y
          · exact Or.inr ⟨hzero, hex⟩
          · exact Or.inl (by omega)

/-- Padding adds zeros only. -/
theorem mem_rightpad_zero {n : ℕ} {a : List ℤ} {z : ℤ} (h : z ∈ a.rightpad n 0) :
    z ∈ a ∨ z = 0 := by
  rcases List.mem_append.mp h with h | h
  · exact Or.inl h
  · exact Or.inr (List.eq_of_mem_replicate h)

/-- A padded version has no negative part. -/
theorem rightpad_zero_nonneg {n : ℕ} {a : List ℤ} (ha : ∀ x ∈ a, 0 ≤ x) :
    ∀ z ∈ a.rightpad n 0, 0 ≤ z := by
  intro z hz
  rcases mem_rightpad_zero hz with hz | rfl
  · exact ha z hz
  · exact le_rfl

/-- Two tuples are in the same order as the tuples filled up with zeros, unless the second is the
first with zeros after it. -/
theorem lt_iff_rightpad_lt {n : ℕ} {a b : List ℤ} (ha : ∀ x ∈ a, 0 ≤ x) (hb : ∀ y ∈ b, 0 ≤ y)
    (hlen : a.length ≤ n) (hlen' : b.length ≤ n) :
    (a < b ↔ a.rightpad n 0 < b.rightpad n 0) ↔ ¬ LeavesOutZeros a b := by
  have hnil : ∀ m, ([] : List ℤ).rightpad m 0 = List.replicate m 0 := by simp [List.rightpad]
  induction a generalizing b n with
  | nil =>
    cases b with
    | nil => simp [leavesOutZeros_nil]
    | cons y b =>
      -- the empty tuple comes first, the zeros only before a number that is not zero
      have hlength : ((y :: b).rightpad n 0).length = n := by
        rw [List.length_rightpad]
        exact max_eq_left hlen'
      have hzero : (∃ z ∈ (y :: b).rightpad n 0, z ≠ 0) ↔ ∃ z ∈ y :: b, z ≠ 0 := by
        constructor
        · rintro ⟨z, hz, hne⟩
          exact ⟨z, (mem_rightpad_zero hz).resolve_right hne, hne⟩
        · rintro ⟨z, hz, hne⟩
          exact ⟨z, List.mem_append_left _ hz, hne⟩
      rw [hnil, replicate_zero_lt_iff (rightpad_zero_nonneg hb) hlength, hzero, leavesOutZeros_nil]
      simp only [List.nil_lt_cons, true_iff, ne_eq, reduceCtorEq, not_false_eq_true, true_and,
        not_forall, exists_prop]
  | cons x a ih =>
    cases b with
    | nil =>
      have hlength : n ≤ ((x :: a).rightpad n 0).length := by
        rw [List.length_rightpad]
        exact le_max_left ..
      have hnot : ¬ (x :: a).rightpad n 0 < List.replicate n 0 :=
        not_lt_replicate_zero (rightpad_zero_nonneg ha) hlength
      have hout : ¬ LeavesOutZeros (x :: a) [] := by
        rintro ⟨zeros, -, -, heq⟩
        simp at heq
      rw [hnil]
      exact iff_of_true (iff_of_false (List.not_lt_nil _) hnot) hout
    | cons y b =>
      cases n with
      | zero => simp at hlen
      | succ n =>
        have hpad : ∀ (z : ℤ) (l : List ℤ), (z :: l).rightpad (n + 1) 0 = z :: l.rightpad n 0 := by
          intro z l
          simp [List.rightpad]
        have hrest := ih (n := n) (b := b) (fun z hz => ha z (List.mem_cons_of_mem _ hz))
          (fun z hz => hb z (List.mem_cons_of_mem _ hz)) (by simpa using hlen)
          (by simpa using hlen')
        rw [hpad, hpad, List.cons_lt_cons_iff, List.cons_lt_cons_iff, leavesOutZeros_cons]
        by_cases hxy : x = y
        · simpa [hxy] using hrest
        · simp [hxy]

/-- The comparison of tuples is the lexicographic one. -/
theorem tupleGe_eq_not_lt (a b : List ℤ) : tupleGe a b = !decide (a < b) := by
  induction a generalizing b with
  | nil =>
    cases b with
    | nil => rfl
    | cons y b => simp [tupleGe]
  | cons x a ih =>
    cases b with
    | nil => simp [tupleGe]
    | cons y b =>
      rw [tupleGe, ih b, Bool.eq_iff_iff]
      simp only [List.cons_lt_cons_iff, Bool.or_eq_true, Bool.and_eq_true, decide_eq_true_eq,
        Bool.not_eq_true', decide_eq_false_iff_not, not_or, not_and]
      -- the first numbers that differ decide
      by_cases hxy : x = y
      · simp [hxy]
      · simp only [hxy, false_and, or_false, false_implies, and_true]
        omega

end Tuples

/-! ## Versions -/

/-- A version as it is written: one to three decimal numbers with dots between them, and perhaps a
`v` before them. -/
structure WrittenVersion where
  leadingV : Bool
  parts : List Str
  parts_ne_nil : parts ≠ []
  length_le : parts.length ≤ 3
  digits : ∀ part ∈ parts, part ≠ [] ∧ ∀ c ∈ part, (decimalValue c).isSome

namespace WrittenVersion

variable {v agent minimum : WrittenVersion}

/-- The text of a version. -/
def text (v : WrittenVersion) : Str :=
  (if v.leadingV then ['v'] else []) ++ List.intercalate ['.'] v.parts

/-- The numbers of a version. -/
def numbers (v : WrittenVersion) : List ℤ :=
  v.parts.map fun part => (natOf part : ℤ)

/-- The first version is smaller than the second, number by number, with those that are missing read
as zero. -/
def Below (a b : WrittenVersion) : Prop :=
  a.numbers.rightpad 3 0 < b.numbers.rightpad 3 0

instance decidableBelow (a b : WrittenVersion) : Decidable (Below a b) :=
  inferInstanceAs (Decidable (a.numbers.rightpad 3 0 < b.numbers.rightpad 3 0))

/-- No number is too long for `int`. -/
def Readable (v : WrittenVersion) : Prop :=
  ∀ part ∈ v.parts, part.length ≤ maxDigits

/-! ### Reading -/

/-- Digits lengthen the run of digits. -/
theorem numbersFrom_append {run word : Str} (h : ∀ c ∈ word, (decimalValue c).isSome) (rest : Str) :
    numbersFrom run (word ++ rest) = numbersFrom (run ++ word) rest := by
  induction word generalizing run with
  | nil => simp
  | cons c word ih =>
    rw [List.cons_append, numbersFrom, if_pos (h c (by simp)),
      ih fun d hd => h d (List.mem_cons_of_mem _ hd), List.append_assoc, List.singleton_append]

/-- Numbers with dots between them are found one by one. -/
theorem numbersFrom_intercalate {parts : List Str}
    (h : ∀ part ∈ parts, part ≠ [] ∧ ∀ c ∈ part, (decimalValue c).isSome) :
    numbersFrom [] (List.intercalate ['.'] parts) = parts := by
  -- a dot ends a part
  have hdot : (decimalValue '.').isSome = false := by decide +kernel
  induction parts with
  | nil => rfl
  | cons part parts ih =>
    obtain ⟨hne, hdigits⟩ := h part (by simp)
    have hrest := ih fun p hp => h p (List.mem_cons_of_mem _ hp)
    cases parts with
    | nil =>
      have hone : List.intercalate ['.'] [part] = part ++ [] := by simp [List.intercalate]
      rw [hone, numbersFrom_append hdigits, List.nil_append, numbersFrom, if_neg hne]
    | cons next parts =>
      have hcons : List.intercalate ['.'] (part :: next :: parts) =
          part ++ '.' :: List.intercalate ['.'] (next :: parts) := by
        simp [List.intercalate, List.intersperse]
      rw [hcons, numbersFrom_append hdigits, List.nil_append, numbersFrom, if_neg (by simp [hdot]),
        if_neg hne, hrest]

/-- The parts of a written version are read off its text. -/
theorem numbersFrom_text (v : WrittenVersion) : numbersFrom [] v.text = v.parts := by
  have hv : (decimalValue 'v').isSome = false := by decide +kernel
  unfold text
  split_ifs
  · rw [List.singleton_append, numbersFrom, if_neg (by simp [hv]), if_pos rfl,
      numbersFrom_intercalate v.digits]
  · rw [List.nil_append, numbersFrom_intercalate v.digits]

/-- `int` reads every part, unless one has more digits than it takes. -/
theorem mapM_intOf {parts : List Str}
    (h : ∀ part ∈ parts, part ≠ [] ∧ ∀ c ∈ part, (decimalValue c).isSome) :
    parts.mapM intOf =
      if ∀ part ∈ parts, part.length ≤ maxDigits then
        some (parts.map fun part => (natOf part : ℤ))
      else none := by
  induction parts with
  | nil => rfl
  | cons part parts ih =>
    obtain ⟨hne, hdigits⟩ := h part (by simp)
    rw [List.mapM_cons, ih fun p hp => h p (List.mem_cons_of_mem _ hp),
      intOf_of_decimal hne hdigits]
    simp only [List.forall_mem_cons]
    -- one part that is too long and `int` raises
    by_cases hfirst : part.length ≤ maxDigits
    · by_cases hrest : ∀ p ∈ parts, p.length ≤ maxDigits
      · rw [if_pos hfirst, if_pos hrest, if_pos ⟨hfirst, hrest⟩]
        rfl
      · rw [if_pos hfirst, if_neg hrest, if_neg fun h => hrest h.2]
        rfl
    · have hall : ¬ (part.length ≤ maxDigits ∧ ∀ p ∈ parts, p.length ≤ maxDigits) :=
        fun hall => hfirst hall.1
      rw [if_neg hfirst, if_neg hall]
      rfl

instance decidableReadable (v : WrittenVersion) : Decidable v.Readable :=
  inferInstanceAs (Decidable (∀ part ∈ v.parts, part.length ≤ maxDigits))

/-- `parse_version` of a version. -/
theorem parseVersion_text (v : WrittenVersion) :
    parseVersion v.text = if v.Readable then some v.numbers else none := by
  rw [parseVersion, numbersFrom_text, List.take_of_length_le v.length_le, mapM_intOf v.digits]
  rfl

/-- Both modules read versions alike. -/
theorem parse_eq_parseVersion (text : Str) :
    Verify.Version.parse text =
      match parseVersion text with
      | some numbers => .ok numbers
      | none => .error .valueError := by
  rw [Verify.Version.parse, parseVersion]
  -- both read the same three parts
  induction (numbersFrom [] text).take 3 with
  | nil => rfl
  | cons part parts ih =>
    rw [List.mapM_cons, List.mapM_cons, ih, Verify.Version.numberOf]
    cases intOf part with
    | none => rfl
    | some n =>
      cases parts.mapM intOf with
      | none => rfl
      | some ns => rfl

theorem numbers_ne_nil (v : WrittenVersion) : v.numbers ≠ [] := by
  simpa [numbers] using v.parts_ne_nil

theorem numbers_nonneg (v : WrittenVersion) : ∀ n ∈ v.numbers, 0 ≤ n := by
  intro n hn
  obtain ⟨part, -, rfl⟩ := List.mem_map.mp hn
  exact Int.natCast_nonneg _

/-! ### Comparing -/

/-- The gate of the agent on written versions: it compares the numbers, or raises on one that is too
long. -/
theorem stale_text (agent minimum : WrittenVersion) :
    Verify.Version.stale agent.text minimum.text =
      if agent.Readable ∧ minimum.Readable then .ok (decide (agent.numbers < minimum.numbers))
      else .error .valueError := by
  rw [Verify.Version.stale, parse_eq_parseVersion, parse_eq_parseVersion, parseVersion_text,
    parseVersion_text]
  by_cases hminimum : minimum.Readable
  · by_cases hagent : agent.Readable
    · simp [hminimum, hagent, minimum.numbers_ne_nil, pure, Except.pure, bind, Except.bind]
    · simp [hminimum, hagent, minimum.numbers_ne_nil, bind, Except.bind]
  · simp [hminimum, bind, Except.bind]

/-- The gate of the driver on written versions. -/
theorem driverOk_text (driver minimum : WrittenVersion) :
    driverOk driver.text minimum.text =
      if driver.Readable ∧ minimum.Readable then some (!decide (driver.numbers < minimum.numbers))
      else none := by
  rw [driverOk, parseVersion_text, parseVersion_text]
  by_cases hminimum : minimum.Readable
  · by_cases hdriver : driver.Readable
    · simp [hminimum, hdriver, minimum.numbers_ne_nil, driver.numbers_ne_nil, tupleGe_eq_not_lt]
    · simp [hminimum, hdriver]
  · simp [hminimum]

/-- Both gates compare the versions as numbers. -/
def GatesNumeric (agent minimum : WrittenVersion) : Prop :=
  Verify.Version.stale agent.text minimum.text = .ok (decide (Below agent minimum)) ∧
    driverOk agent.text minimum.text = some (!decide (Below agent minimum))

/-- **Where the version gates compare numerically.** For every two versions: an agent is stale
exactly when its version is below the minimum, number by number with zeros for those that are
missing, and a driver is accepted exactly when it is not, if and only if `int` can read both and the
minimum is not the first version with zeros after it. -/
theorem gates_numeric_iff (agent minimum : WrittenVersion) :
    GatesNumeric agent minimum ↔
      agent.Readable ∧ minimum.Readable ∧ ¬ LeavesOutZeros agent.numbers minimum.numbers := by
  -- padded with zeros, the tuples have the order of the versions
  have horder := lt_iff_rightpad_lt (n := 3) agent.numbers_nonneg minimum.numbers_nonneg
    (by simpa [numbers] using agent.length_le) (by simpa [numbers] using minimum.length_le)
  have hdecide : decide (agent.numbers < minimum.numbers) = decide (Below agent minimum) ↔
      ¬ LeavesOutZeros agent.numbers minimum.numbers := by
    rw [← horder]
    exact decide_eq_decide
  rw [GatesNumeric, stale_text, driverOk_text]
  by_cases hread : agent.Readable ∧ minimum.Readable
  · rw [if_pos hread, if_pos hread, Except.ok.injEq, Option.some.injEq, Bool.not_inj_iff, and_self,
      hdecide]
    simp [hread]
  -- `int` raises on a part of more than 4300 digits, on either side
  · rw [if_neg hread, if_neg hread]
    simp only [reduceCtorEq, false_and, false_iff]
    rintro ⟨hagent, hminimum, -⟩
    exact hread ⟨hagent, hminimum⟩

theorem digits_of_all {parts : List Str}
    (h : parts.all fun part => part ≠ [] && part.all fun c => (decimalValue c).isSome) :
    ∀ part ∈ parts, part ≠ [] ∧ ∀ c ∈ part, (decimalValue c).isSome := by
  simpa [List.all_eq_true] using h

/-- The version 1.2. -/
def oneTwo : WrittenVersion where
  leadingV := false
  parts := [['1'], ['2']]
  parts_ne_nil := by decide
  length_le := by decide
  digits := digits_of_all (by decide +kernel)

/-- The version v1.2.0. -/
def oneTwoZero : WrittenVersion where
  leadingV := true
  parts := [['1'], ['2'], ['0']]
  parts_ne_nil := by decide
  length_le := by decide
  digits := digits_of_all (by decide +kernel)

/-- An agent of version 1.2 is stale where v1.2.0 is the least version, and such a driver is turned
down; the other way round neither happens. -/
theorem one_two_below_one_two_zero :
    ¬ Below oneTwo oneTwoZero ∧ ¬ Below oneTwoZero oneTwo ∧
    Verify.Version.stale "1.2".toList "v1.2.0".toList = .ok true ∧
    Verify.Version.stale "v1.2.0".toList "1.2".toList = .ok false ∧
    driverOk "1.2".toList "v1.2.0".toList = some false ∧
    ¬ GatesNumeric oneTwo oneTwoZero := by
  have hbelow : ¬ Below oneTwo oneTwoZero := by decide +kernel
  have hstale : Verify.Version.stale "1.2".toList "v1.2.0".toList = .ok true := by decide +kernel
  refine ⟨hbelow, by decide +kernel, hstale, by decide +kernel, by decide +kernel, ?_⟩
  rintro ⟨hgate, -⟩
  have hfalse : Verify.Version.stale oneTwo.text oneTwoZero.text = .ok true := hstale
  rw [hfalse, Except.ok.injEq] at hgate
  exact hbelow (of_decide_eq_true hgate.symm)

end WrittenVersion

end ComputePool.Validator
