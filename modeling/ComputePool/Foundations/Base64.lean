import Mathlib.Data.List.Basic
import ComputePool.Foundations.Text

/-!
# Base64 with the URL alphabet

`base64.urlsafe_b64encode` and its inverse on padded text, over byte strings given as lists of
numbers below 256, and their hexadecimal digits.

* `decode_encode`: what is encoded is decoded again.
* `length_encode`: three bytes make four characters, the last group is padded.
* `encode_alphabet`: no character is white space or a line boundary.
* `encode_eq_body`: the padding is at the end.
* `Unfilled`: what a decoder rejects, as the last group is not whole.
-/

namespace Base64

open Text

/-- A byte string, as the numbers Python's `bytes` yields. -/
abbrev Octets := List ℕ

/-- A character in UTF-8. -/
def utf8Char (c : Char) : Octets :=
  let n := c.toNat
  if n < 0x80 then [n]
  else if n < 0x800 then [0xc0 + n / 0x40, 0x80 + n % 0x40]
  else if n < 0x10000 then [0xe0 + n / 0x1000, 0x80 + n / 0x40 % 0x40, 0x80 + n % 0x40]
  else [0xf0 + n / 0x40000, 0x80 + n / 0x1000 % 0x40, 0x80 + n / 0x40 % 0x40, 0x80 + n % 0x40]

/-- `text.encode("utf-8")`. -/
def utf8 (s : Str) : Octets :=
  s.flatMap utf8Char

/-- `data.hex()`. -/
def hexText (data : Octets) : Str :=
  data.flatMap fun byte => (Nat.toDigits 16 byte).leftpad 2 '0'

/-- The 64 characters in the order of their values. -/
def alphabet : List Char :=
  "ABCDEFGHIJKLMNOPQRSTUVWXYZabcdefghijklmnopqrstuvwxyz0123456789-_".toList

/-- The character of a six-bit value. -/
def symbol (n : ℕ) : Char :=
  alphabet.getD (n % 64) 'A'

/-- `base64.urlsafe_b64encode(data)`. -/
def encode : Octets → Str
  | [] => []
  | [a] => [symbol (a / 4), symbol (a % 4 * 16), '=', '=']
  | [a, b] => [symbol (a / 4), symbol (a % 4 * 16 + b / 16), symbol (b % 16 * 4), '=']
  | a :: b :: c :: rest =>
    symbol (a / 4) :: symbol (a % 4 * 16 + b / 16) :: symbol (b % 16 * 4 + c / 64) ::
      symbol (c % 64) :: encode rest

/-- The value of a character. -/
def value (c : Char) : ℕ :=
  alphabet.idxOf c

/-- `base64.urlsafe_b64decode(text)`, for padded text. -/
def decode : Str → Octets
  | [a, b, '=', '='] => [value a * 4 + value b / 16]
  | [a, b, c, '='] => [value a * 4 + value b / 16, value b % 16 * 16 + value c / 4]
  | a :: b :: c :: d :: rest =>
    (value a * 4 + value b / 16) :: (value b % 16 * 16 + value c / 4) ::
      (value c % 4 * 64 + value d) :: decode rest
  | _ => []

/-- The characters of encoded text: the alphabet and the padding. -/
def isSymbol (c : Char) : Bool :=
  c ∈ alphabet || c = '='

example : encode [77, 97, 110, 255] = "TWFu_w==".toList := by decide
example : decode "TWFu_w==".toList = [77, 97, 110, 255] := by decide

theorem symbol_mem_alphabet (n : ℕ) : symbol n ∈ alphabet := by
  have hlt : n % 64 < alphabet.length := Nat.mod_lt n (by decide)
  rw [symbol, List.getD_eq_getElem?_getD, List.getElem?_eq_getElem hlt, Option.getD_some]
  exact List.getElem_mem hlt

theorem isSymbol_symbol (n : ℕ) : isSymbol (symbol n) = true := by
  simp [isSymbol, symbol_mem_alphabet n]

/-- Only the value zero is written as `A`. -/
theorem symbol_eq_A_iff {n : ℕ} : symbol n = 'A' ↔ n % 64 = 0 := by
  have hall : ∀ m < 64, alphabet.getD m 'A' = 'A' ↔ m = 0 := by decide +kernel
  exact hall (n % 64) (Nat.mod_lt n (by decide))

/-! ## Back and forth -/

theorem value_symbol (n : ℕ) : value (symbol n) = n % 64 := by
  have hall : ∀ m < 64, value (alphabet.getD m 'A') = m := by decide +kernel
  exact hall (n % 64) (Nat.mod_lt n (by decide))

theorem symbol_ne_pad (n : ℕ) : symbol n ≠ '=' := by
  intro h
  exact absurd (h ▸ symbol_mem_alphabet n) (by decide +kernel)

/-- A group that does not end in padding is a whole one. -/
theorem decode_four {a b c d : Char} (rest : Str) (hd : d ≠ '=') :
    decode (a :: b :: c :: d :: rest) =
      (value a * 4 + value b / 16) :: (value b % 16 * 16 + value c / 4) ::
        (value c % 4 * 64 + value d) :: decode rest :=
  decode.eq_3 a b c d rest (fun _ heq _ => hd heq) (fun heq _ => hd heq)

/-- What is encoded is decoded again. -/
theorem decode_encode {data : Octets} (h : ∀ b ∈ data, b < 256) : decode (encode data) = data := by
  fun_induction encode data with
  | case1 => rfl
  -- two symbols for one octet
  | case2 a =>
    have ha := h a (by simp)
    simp only [decode, value_symbol]
    congr 1
    omega
  -- three for two
  | case3 a b =>
    have ha := h a (by simp)
    have hb := h b (by simp)
    rw [decode.eq_2 _ _ _ (symbol_ne_pad (b % 16 * 4))]
    simp only [value_symbol]
    congr 1
    · omega
    · congr 1
      omega
  -- four for three, and on with the rest
  | case4 a b c rest ih =>
    have ha := h a (by simp)
    have hb := h b (by simp)
    have hc := h c (by simp)
    rw [decode_four _ (symbol_ne_pad _), ih fun x hx => h x (by simp [hx])]
    simp only [value_symbol]
    congr 1
    · omega
    · congr 1
      · omega
      · congr 1
        omega

/-! ## Length and characters -/

/-- Every group of three octets, the last one filled up, becomes four symbols. -/
theorem length_encode (data : Octets) : (encode data).length = 4 * ((data.length + 2) / 3) := by
  fun_induction encode data with
  | case1 => rfl
  | case2 a => simp
  | case3 a b => simp
  | case4 a b c rest ih =>
    simp only [List.length_cons, ih]
    omega

/-- Every character of encoded text is of the alphabet or padding. -/
theorem encode_alphabet (data : Octets) : ∀ c ∈ encode data, isSymbol c = true := by
  fun_induction encode data with
  | case1 => simp
  | case2 a =>
    intro c hc
    simp only [List.mem_cons, List.not_mem_nil, or_false] at hc
    rcases hc with rfl | rfl | rfl | rfl
    exacts [isSymbol_symbol _, isSymbol_symbol _, by decide, by decide]
  | case3 a b =>
    intro c hc
    simp only [List.mem_cons, List.not_mem_nil, or_false] at hc
    rcases hc with rfl | rfl | rfl | rfl
    exacts [isSymbol_symbol _, isSymbol_symbol _, isSymbol_symbol _, by decide]
  | case4 a b c rest ih =>
    intro d hd
    simp only [List.mem_cons] at hd
    rcases hd with rfl | rfl | rfl | rfl | hd
    exacts [isSymbol_symbol _, isSymbol_symbol _, isSymbol_symbol _, isSymbol_symbol _, ih d hd]

/-- Encoded text has no white space in it. -/
theorem isSpace_eq_false_of_isSymbol {c : Char} (h : isSymbol c = true) : isSpace c = false := by
  have hall : ('=' :: alphabet).all (fun d => !isSpace d) = true := by decide +kernel
  have hmem (d : Char) (hd : d ∈ '=' :: alphabet) : isSpace d = false := by
    simpa using List.all_eq_true.mp hall d hd
  refine hmem c ?_
  simp only [isSymbol, Bool.or_eq_true, decide_eq_true_eq] at h
  rcases h with h | h
  · exact List.mem_cons_of_mem _ h
  · exact h ▸ List.mem_cons_self

/-- No symbol breaks a line. -/
theorem isLineBreak_eq_false_of_isSymbol {c : Char} (h : isSymbol c = true) :
    isLineBreak c = false := by
  have hspace := isSpace_eq_false_of_isSymbol h
  cases hbreak : isLineBreak c with
  | false => rfl
  | true => rw [isSpace_of_isLineBreak hbreak] at hspace; exact hspace

/-- Encoded text is characters of the alphabet, and then at most two of padding. -/
theorem encode_eq_body (data : Octets) :
    ∃ body n, encode data = body ++ List.replicate n '=' ∧ (∀ c ∈ body, c ∈ alphabet) ∧ n ≤ 2 := by
  fun_induction encode data with
  | case1 => exact ⟨[], 0, rfl, by simp, by simp⟩
  | case2 a =>
    refine ⟨[symbol (a / 4), symbol (a % 4 * 16)], 2, rfl, ?_, le_refl 2⟩
    simp [symbol_mem_alphabet]
  | case3 a b =>
    refine ⟨[symbol (a / 4), symbol (a % 4 * 16 + b / 16), symbol (b % 16 * 4)], 1, rfl, ?_,
      by simp⟩
    simp [symbol_mem_alphabet]
  | case4 a b c rest ih =>
    obtain ⟨body, n, hrest, hbody, hn⟩ := ih
    refine ⟨symbol (a / 4) :: symbol (a % 4 * 16 + b / 16) :: symbol (b % 16 * 4 + c / 64) ::
      symbol (c % 64) :: body, n, by rw [hrest]; rfl, ?_, hn⟩
    simp only [List.forall_mem_cons]
    exact ⟨symbol_mem_alphabet _, symbol_mem_alphabet _, symbol_mem_alphabet _,
      symbol_mem_alphabet _, hbody⟩

/-! ## Padding that does not suffice -/

/-- Text of the alphabet with padding that does not fill up its last group. -/
def Unfilled (text : Str) : Prop :=
  ∃ body n, text = body ++ List.replicate n '=' ∧ (∀ c ∈ body, c ∈ alphabet) ∧
    body.length % 4 ≠ 0 ∧ body.length % 4 + n < 4

theorem Unfilled.length_mod {text : Str} (h : Unfilled text) : text.length % 4 ≠ 0 := by
  obtain ⟨body, n, rfl, -, hbody, hn⟩ := h
  rw [List.length_append, List.length_replicate]
  omega

/-- The end of an encoded text that lacks one character to whole groups is of this kind. -/
theorem unfilled_drop_encode {data : Octets} {k : ℕ}
    (h : ((encode data).drop k).length % 4 = 3) : Unfilled ((encode data).drop k) := by
  obtain ⟨body, n, hencode, hbody, hn⟩ := encode_eq_body data
  rw [hencode, List.drop_append, List.drop_replicate] at h ⊢
  rw [List.length_append, List.length_replicate] at h
  refine ⟨body.drop k, n - (k - body.length), rfl, fun c hc => hbody c (List.mem_of_mem_drop hc),
    ?_, ?_⟩
  · omega
  · omega

end Base64
