import ComputePool.Foundations.Base64
import ComputePool.Foundations.Numeral

/-!
# Bytes of texts and texts of bytes

The bytes of a text determine it: `utf8_injective`. And `data.hex()` is two digits for each byte,
each of them a digit of ASCII in lower case. What reads such text back goes two characters at a
time; `hexText_cons` is what it meets. A number that was written in hexadecimal, with or without
zeros in front, is read back by `int(text, 16)`: `hexOf_leftpad`.
-/

namespace Base64

open Text Numeral

/-! ## The bytes of a text -/

theorem utf8Char_ne_nil (c : Char) : utf8Char c ≠ [] := by
  unfold utf8Char
  dsimp only
  split_ifs <;> simp

/-- The first character of a text can be read off its bytes. -/
theorem utf8Char_append_inj {c d : Char} {xs ys : Octets}
    (h : utf8Char c ++ xs = utf8Char d ++ ys) : c = d ∧ xs = ys := by
  have hvalid (e : Char) : e.toNat < 0x110000 := by
    rcases e.valid with he | he <;> (simp only [Char.toNat]; omega)
  have hc := hvalid c
  have hd := hvalid d
  have hall : c.toNat = d.toNat ∧ xs = ys := by
    unfold utf8Char at h
    dsimp only at h
    -- the first byte says how many there are
    split_ifs at h <;>
      simp only [List.cons_append, List.nil_append, List.cons.injEq] at h <;>
      first
        | exact ⟨by omega, h.2⟩
        | exact ⟨by omega, h.2.2⟩
        | exact ⟨by omega, h.2.2.2⟩
        | exact ⟨by omega, h.2.2.2.2⟩
        | omega
  exact ⟨Char.ext (UInt32.toNat_inj.mp hall.1), hall.2⟩

/-- Different texts have different encodings: decoding brings the text back. -/
theorem utf8_injective : Function.Injective utf8 := by
  intro s
  induction s with
  | nil =>
    intro t h
    cases t with
    | nil => rfl
    | cons d t => simp [utf8, utf8Char_ne_nil] at h
  | cons c s ih =>
    intro t h
    cases t with
    | nil => simp [utf8, utf8Char_ne_nil] at h
    | cons d t =>
      rw [utf8, utf8, List.flatMap_cons, List.flatMap_cons] at h
      obtain ⟨rfl, hrest⟩ := utf8Char_append_inj h
      rw [ih hrest]

/-! ## Hexadecimal text -/

/-- The bytes of a list are bytes. -/
def AreBytes (data : Octets) : Prop :=
  ∀ b ∈ data, b < 256

theorem AreBytes.tail {b : ℕ} {data : Octets} (h : AreBytes (b :: data)) : AreBytes data :=
  fun c hc => h c (List.mem_cons_of_mem b hc)

theorem areBytes_map_toNat (data : List UInt8) : AreBytes (data.map UInt8.toNat) := by
  intro b hb
  obtain ⟨c, -, rfl⟩ := List.mem_map.mp hb
  exact c.toNat_lt

/-- The digits of the first byte. -/
theorem hexText_cons {b : ℕ} (h : b < 256) (data : Octets) :
    hexText (b :: data) = Nat.digitChar (b / 16) :: Nat.digitChar (b % 16) :: hexText data := by
  have hbyte : ∀ b < 256, (Nat.toDigits 16 b).leftpad 2 '0' =
      [Nat.digitChar (b / 16), Nat.digitChar (b % 16)] := by decide +kernel
  rw [hexText, List.flatMap_cons, hbyte b h]
  rfl

/-- A hexadecimal digit is in ASCII, is no white space and has its value. -/
theorem digitChar_spec {n : ℕ} (h : n < 16) :
    digitValue 16 (Nat.digitChar n) = some n ∧ (Nat.digitChar n).toNat < 0x80 ∧
      isSpace (Nat.digitChar n) = false ∧
      (('0' ≤ Nat.digitChar n ∧ Nat.digitChar n ≤ '9') ∨
        ('a' ≤ Nat.digitChar n ∧ Nat.digitChar n ≤ 'f')) := by
  have hall : ∀ n < 16, digitValue 16 (Nat.digitChar n) = some n ∧
      (Nat.digitChar n).toNat < 0x80 ∧ isSpace (Nat.digitChar n) = false ∧
      (('0' ≤ Nat.digitChar n ∧ Nat.digitChar n ≤ '9') ∨
        ('a' ≤ Nat.digitChar n ∧ Nat.digitChar n ≤ 'f')) := by decide +kernel
  exact hall n h

/-- Each octet is written as two digits. -/
theorem length_hexText {data : Octets} (h : AreBytes data) :
    (hexText data).length = 2 * data.length := by
  induction data with
  | nil => rfl
  | cons b data ih =>
    rw [hexText_cons (h b List.mem_cons_self), List.length_cons, List.length_cons, ih h.tail,
      List.length_cons]
    omega

/-- Every character of the text is one of the digits. -/
theorem exists_of_mem_hexText {data : Octets} (h : AreBytes data) {c : Char}
    (hc : c ∈ hexText data) : ∃ n < 16, c = Nat.digitChar n := by
  induction data with
  | nil => cases hc
  | cons b data ih =>
    have hb := h b List.mem_cons_self
    rw [hexText_cons hb] at hc
    rcases List.mem_cons.mp hc with rfl | hc
    · exact ⟨b / 16, by omega, rfl⟩
    · rcases List.mem_cons.mp hc with rfl | hc
      · exact ⟨b % 16, by omega, rfl⟩
      · exact ih h.tail hc

/-- A digit of ASCII in lower case is one of the sixteen. -/
theorem exists_digitChar {c : Char} (h : ('0' ≤ c ∧ c ≤ '9') ∨ ('a' ≤ c ∧ c ≤ 'f')) :
    ∃ n < 16, c = Nat.digitChar n := by
  have hval : c.val.toNat = c.toNat := rfl
  have hranges : ('0'.val.toNat = 48 ∧ '9'.val.toNat = 57) ∧
      ('a'.val.toNat = 97 ∧ 'f'.val.toNat = 102) := by decide
  simp only [Char.le_def, UInt32.le_iff_toNat_le] at h
  have hdigits : ∀ n < 16, (Nat.digitChar n).toNat = if n < 10 then 48 + n else 87 + n := by
    decide +kernel
  rcases h with h | h
  · refine ⟨c.toNat - 48, by omega, Char.toNat_inj.mp ?_⟩
    rw [hdigits _ (by omega), if_pos (by omega)]
    omega
  · refine ⟨c.toNat - 87, by omega, Char.toNat_inj.mp ?_⟩
    rw [hdigits _ (by omega), if_neg (by omega)]
    omega

/-- A text of digits is that of bytes. -/
theorem exists_hexText {s : Str} {n : ℕ} (hlength : s.length = 2 * n)
    (h : ∀ c ∈ s, ('0' ≤ c ∧ c ≤ '9') ∨ ('a' ≤ c ∧ c ≤ 'f')) :
    ∃ data, AreBytes data ∧ data.length = n ∧ s = hexText data := by
  induction n generalizing s with
  | zero => exact ⟨[], nofun, rfl, List.eq_nil_of_length_eq_zero hlength⟩
  | succ n ih =>
    rcases s with _ | ⟨c, _ | ⟨d, s⟩⟩
    · simp at hlength
    · simp at hlength
      omega
    obtain ⟨high, hhigh, rfl⟩ := exists_digitChar (h c (by simp))
    obtain ⟨low, hlow, rfl⟩ := exists_digitChar (h d (by simp))
    obtain ⟨data, hbytes, hn, rfl⟩ := ih (s := s) (by simp at hlength; omega)
      fun c hc => h c (by simp [hc])
    have hbyte : 16 * high + low < 256 := by omega
    refine ⟨(16 * high + low) :: data, List.forall_mem_cons.mpr ⟨hbyte, hbytes⟩, by simp [hn], ?_⟩
    rw [hexText_cons hbyte]
    congr 2 <;> congr 1 <;> omega

theorem isSpace_of_mem_hexText {data : Octets} (h : AreBytes data) {c : Char}
    (hc : c ∈ hexText data) : isSpace c = false := by
  obtain ⟨n, hn, rfl⟩ := exists_of_mem_hexText h hc
  exact (digitChar_spec hn).2.2.1

end Base64

/-! ## Hexadecimal numbers -/

namespace Numeral

open Text Base64

/-- Digits that are written one by one are read one by one. -/
theorem digits_map_digitChar {ds : List ℕ} (hne : ds ≠ []) (h : ∀ d ∈ ds, d < 16) :
    digits 16 (ds.map Nat.digitChar) = some ds := by
  induction ds with
  | nil => exact absurd rfl hne
  | cons d ds ih =>
    have hd := (digitChar_spec (h d List.mem_cons_self)).1
    cases ds with
    | nil => rw [List.map_singleton, digits, hd]; rfl
    | cons e ds =>
      have hrest := ih (List.cons_ne_nil e ds) fun n hn => h n (List.mem_cons_of_mem d hn)
      rw [List.map_cons] at hrest
      -- the next character is a digit and no underscore
      have hunderscore : Nat.digitChar e ≠ '_' := Nat.digitChar_ne '_' (by decide)
      rw [List.map_cons, List.map_cons, digits, hd, hrest]
      · rfl
      · simp
      · intro rest hrest
        exact absurd (List.cons.inj hrest).1 hunderscore

/-- The digits of a number in the base sixteen. -/
theorem exists_toDigits (n : ℕ) : ∃ ds : List ℕ, ds ≠ [] ∧ (∀ d ∈ ds, d < 16) ∧
    Nat.toDigits 16 n = ds.map Nat.digitChar ∧ ofDigits 16 ds = n := by
  induction n using Nat.strong_induction_on with
  | _ n ih =>
    rw [Nat.toDigits_eq_if (by decide)]
    split_ifs with hlt
    · exact ⟨[n], by simp, by simpa using hlt, rfl, by simp [ofDigits]⟩
    · obtain ⟨ds, -, hds, htext, hvalue⟩ := ih (n / 16) (Nat.div_lt_self (by omega) (by decide))
      refine ⟨ds ++ [n % 16], by simp, fun d hd => ?_, by simp [htext], ?_⟩
      · rcases List.mem_append.mp hd with hd | hd
        · exact hds d hd
        · rw [List.mem_singleton.mp hd]
          omega
      · rw [ofDigits, List.foldl_append, ← ofDigits, hvalue]
        simp only [List.foldl_cons, List.foldl_nil]
        omega

/-- `int(text, 16)` of digits alone: there is neither a sign nor a prefix. -/
theorem hexOf_of_digits {text : Str} {ds : List ℕ}
    (h : ∀ c ∈ text, ∃ d < 16, c = Nat.digitChar d) (hdigits : digits 16 text = some ds) :
    hexOf text = some (ofDigits 16 ds : ℤ) := by
  have hstrip : strip text = text := by
    refine strip_eq_self fun c hc => ?_
    obtain ⟨d, hd, rfl⟩ := h c hc
    exact (digitChar_spec hd).2.2.1
  have hnot {c : Char} (hc : ∀ d < 16, c ≠ Nat.digitChar d) : c ∉ text := fun hmem =>
    (h c hmem).elim fun d hd => hc d hd.1 hd.2
  have hsign : splitSign text = (false, text) := by
    unfold splitSign
    split
    · next heq => exact absurd (by simp) (hnot (c := '-') (by decide))
    · next heq => exact absurd (by simp) (hnot (c := '+') (by decide))
    · rfl
  rw [hexOf, hstrip, hsign]
  dsimp only
  split
  · next heq => exact absurd (by simp) (hnot (c := 'x') (by decide))
  · next heq => exact absurd (by simp) (hnot (c := 'X') (by decide))
  · next heq => exact absurd (by simp) (hnot (c := 'x') (by decide))
  · next heq => exact absurd (by simp) (hnot (c := 'X') (by decide))
  · rw [hdigits]
    rfl

/-- The number in hexadecimal, with zeros in front up to a width, is read as the number. -/
theorem hexOf_leftpad (n width : ℕ) :
    hexOf ((Nat.toDigits 16 n).leftpad width '0') = some (n : ℤ) := by
  obtain ⟨ds, hne, hds, htext, hvalue⟩ := exists_toDigits n
  have hzeros : (Nat.toDigits 16 n).leftpad width '0' =
      (List.replicate (width - (Nat.toDigits 16 n).length) 0 ++ ds).map Nat.digitChar := by
    rw [List.leftpad, List.map_append, List.map_replicate, htext]
    rfl
  generalize width - (Nat.toDigits 16 n).length = zeros at hzeros
  have hall : ∀ d ∈ List.replicate zeros 0 ++ ds, d < 16 := by
    intro d hd
    rcases List.mem_append.mp hd with hd | hd
    · rw [List.eq_of_mem_replicate hd]
      decide
    · exact hds d hd
  have hzero : ofDigits 16 (List.replicate zeros 0 ++ ds) = n := by
    have hlead (k : ℕ) : (List.replicate k 0).foldl (fun n d : ℕ => n * 16 + d) 0 = 0 := by
      induction k with
      | zero => rfl
      | succ k ih => rw [List.replicate_succ, List.foldl_cons, Nat.zero_mul, Nat.zero_add, ih]
    rw [ofDigits, List.foldl_append, hlead, ← ofDigits, hvalue]
  rw [hzeros, hexOf_of_digits (fun c hc => ?_) (digits_map_digitChar (by simp [hne]) hall), hzero]
  obtain ⟨d, hd, rfl⟩ := List.mem_map.mp hc
  exact ⟨d, hall d hd, rfl⟩

end Numeral
