import Mathlib.Data.Nat.Digits.Defs
import ComputePool.Foundations.Fallible
import ComputePool.Validator.Work.Containers

/-!
# Device nodes

`device_nodes` of `validator/work/containers.py` joins two listings of the cards of a rig on the
last twelve characters of their PCI addresses. These are the bus, the device, the function and the
last four digits of the domain, so two cards whose domains agree in these are one card to the join.

* `normaliseBus_eq_iff`: which addresses the join takes for one.
* `Listing`: two listings of cards with addresses, uuids and minor numbers of their own.
* `deviceNodes_own_iff`: a tenant gets the nodes of its own cards exactly when none of them is
  shadowed by another card.
-/

namespace ComputePool.Validator.Containers

open Text Numeral Protocol

/-! ## Addresses -/

/-- The address of a card: its domain, and its bus, device and function as text. -/
structure PciAddress where
  domain : ℕ
  place : Str
  deriving DecidableEq, Repr

/-- The value of a small hexadecimal digit. -/
def hexDigit (c : Char) : ℕ :=
  if c.toNat < 58 then c.toNat - 48 else c.toNat - 87

/-- The number that hexadecimal digits write. -/
def hexNumber (digits : Str) : ℕ :=
  Nat.ofDigits 16 (digits.reverse.map hexDigit)

/-- `bus:device.function`. -/
def isPlace : Str → Bool
  | [a, b, ':', c, d, '.', e] => [a, b, c, d, e].all isHex
  | _ => false

/-- The address that a text writes, in small or capital letters: a domain of at least four digits,
and a place. -/
def addressOf (text : Str) : Option PciAddress :=
  let text := lower (strip text)
  let digits := text.takeWhile (· ≠ ':')
  match text.dropWhile (· ≠ ':') with
  | [] => none
  | _ :: place =>
    if 4 ≤ digits.length ∧ digits.all isHex ∧ isPlace place then some ⟨hexNumber digits, place⟩
    else none

/-- The domains agree in their last four digits, and the places agree. -/
def SameTail (a b : PciAddress) : Prop :=
  a.domain % 16 ^ 4 = b.domain % 16 ^ 4 ∧ a.place = b.place

instance decidableSameTail (a b : PciAddress) : Decidable (SameTail a b) :=
  inferInstanceAs (Decidable (_ ∧ _))

/-- Bus, device and function have seven characters. -/
theorem length_of_isPlace {s : Str} (h : isPlace s) : s.length = 7 := by
  unfold isPlace at h
  split at h
  · rfl
  · exact Bool.noConfusion h

/-- The parts of a text that writes an address. -/
theorem addressOf_eq_some {text : Str} {a : PciAddress} (h : addressOf text = some a) :
    ∃ digits, lower (strip text) = digits ++ ':' :: a.place ∧ 4 ≤ digits.length ∧
      (∀ c ∈ digits, isHex c) ∧ a.domain = hexNumber digits ∧ a.place.length = 7 := by
  rw [addressOf] at h
  generalize lower (strip text) = t at h ⊢
  split at h
  · exact absurd h (by simp)
  · next c place hrest =>
    split_ifs at h with hparts
    obtain rfl := Option.some.inj h
    obtain ⟨hfour, hhex, hplace⟩ := hparts
    -- the domain ends at the first colon
    obtain rfl : c = ':' := by
      have hhead := List.head?_dropWhile_not (· ≠ ':') t
      rw [hrest] at hhead
      simpa using hhead
    refine ⟨t.takeWhile (· ≠ ':'), ?_, hfour, by simpa using hhex, rfl, length_of_isPlace hplace⟩
    rw [← hrest, List.takeWhile_append_dropWhile]

theorem isHex_iff {c : Char} :
    isHex c ↔ (48 ≤ c.toNat ∧ c.toNat ≤ 57) ∨ (97 ≤ c.toNat ∧ c.toNat ≤ 102) := by
  simp [isHex, Char.le_def, UInt32.le_iff_toNat_le]

/-- A hex digit is less than sixteen. -/
theorem hexDigit_lt {c : Char} (h : isHex c) : hexDigit c < 16 := by
  rw [isHex_iff] at h
  rw [hexDigit]
  split_ifs
  · omega
  · omega

/-- Hex digits in lower case are told apart by their values. -/
theorem hexDigit_inj {c d : Char} (hc : isHex c) (hd : isHex d) (h : hexDigit c = hexDigit d) :
    c = d := by
  rw [isHex_iff] at hc hd
  rw [hexDigit, hexDigit] at h
  apply Char.ext
  apply UInt32.toNat_inj.mp
  show c.toNat = d.toNat
  split_ifs at h with h1 h2 h2
  · omega
  · omega
  · omega
  · omega

/-- So are texts of them. -/
theorem map_hexDigit_inj {s t : Str} (hs : ∀ c ∈ s, isHex c) (ht : ∀ c ∈ t, isHex c)
    (h : s.map hexDigit = t.map hexDigit) : s = t := by
  induction s generalizing t with
  | nil => simpa using h.symm
  | cons c s ih =>
    cases t with
    | nil => simp at h
    | cons d t =>
      obtain ⟨hhead, htail⟩ := List.cons.inj h
      rw [List.forall_mem_cons] at hs ht
      rw [hexDigit_inj hs.1 ht.1 hhead, ih hs.2 ht.2 htail]

/-- Digits of one length write different numbers. -/
theorem hexNumber_inj {s t : Str} (hlength : s.length = t.length) (hs : ∀ c ∈ s, isHex c)
    (ht : ∀ c ∈ t, isHex c) (h : hexNumber s = hexNumber t) : s = t := by
  have hmap : s.reverse.map hexDigit = t.reverse.map hexDigit := by
    apply Nat.ofDigits_inj_of_len_eq (by decide) (by simpa using hlength) ?_ ?_ h
    · simpa using fun c hc => hexDigit_lt (hs c hc)
    · simpa using fun c hc => hexDigit_lt (ht c hc)
  rw [List.map_reverse, List.map_reverse, List.reverse_inj] at hmap
  exact map_hexDigit_inj hs ht hmap

/-- What the join keeps of an address. -/
theorem normaliseBus_eq {text : Str} {a : PciAddress} (h : addressOf text = some a) :
    ∃ digits, normaliseBus text = digits ++ ':' :: a.place ∧ digits.length = 4 ∧
      (∀ c ∈ digits, isHex c) ∧ hexNumber digits = a.domain % 16 ^ 4 := by
  obtain ⟨digits, htext, hfour, hhex, hdomain, hplace⟩ := addressOf_eq_some h
  -- only the last four digits of the domain are kept
  have hdigits : ∀ d ∈ digits.reverse.map hexDigit, d < 16 := by
    simpa using fun c hc => hexDigit_lt (hhex c hc)
  refine ⟨digits.drop (digits.length - 4), ?_, ?_, fun c hc => hhex c (List.mem_of_mem_drop hc), ?_⟩
  · rw [normaliseBus, htext, List.drop_append_of_le_length]
    · congr 2
      simp [hplace]
    · simp [hplace]
  · rw [List.length_drop]
    omega
  · rw [hdomain, hexNumber, hexNumber,
      Nat.ofDigits_mod_pow_eq_ofDigits_take 4 (by decide) _ hdigits, ← List.map_take,
      List.take_reverse]

/-- The join takes two addresses for one exactly when they have the same tail. -/
theorem normaliseBus_eq_iff {text text' : Str} {a a' : PciAddress} (h : addressOf text = some a)
    (h' : addressOf text' = some a') : normaliseBus text = normaliseBus text' ↔ SameTail a a' := by
  obtain ⟨digits, hbus, hfour, hhex, hnumber⟩ := normaliseBus_eq h
  obtain ⟨digits', hbus', hfour', hhex', hnumber'⟩ := normaliseBus_eq h'
  rw [hbus, hbus', SameTail, ← hnumber, ← hnumber']
  constructor
  · intro heq
    obtain ⟨rfl, hplace⟩ := List.append_inj heq (by rw [hfour, hfour'])
    exact ⟨rfl, (List.cons.inj hplace).2⟩
  · rintro ⟨hdigits, hplace⟩
    rw [hexNumber_inj (by rw [hfour, hfour']) hhex hhex' hdigits, hplace]

/-! ## The listings -/

/-- The uuid and the address of a line of the first listing. -/
def smiRow (line : Str) : Option (Str × Str) :=
  match (line.splitOn ',').map strip with
  | [uuid, bus] => if startsWith uuid "GPU-".toList then some (uuid, bus) else none
  | _ => none

/-- The address and the digits of a line of the second listing. -/
def minorRow (line : Str) : Option (Str × Str) :=
  let rest := (strip line).drop "/proc/driver/nvidia/gpus/".length
  let bus := rest.takeWhile (· ≠ '/')
  (minorLine line).map fun row => (bus, row.2)

/-- The rows of the first listing. -/
def smiRows (stdout : Str) : List (Str × Str) :=
  (splitLines (sectionsOf stdout).1).filterMap smiRow

/-- The rows of the second listing. -/
def minorRows (stdout : Str) : List (Str × Str) :=
  (splitLines (sectionsOf stdout).2.1).filterMap minorRow

/-- The nodes of the third listing. -/
def listedNodes (stdout : Str) : List Str :=
  ((splitLines (sectionsOf stdout).2.2).map strip).filter (startsWith · "/dev/".toList)

/-- The device node of a card: `row` is its row of the second listing. -/
def cardNode (row : Str × Str) : Str :=
  "/dev/nvidia".toList ++ natText (natOf row.2)

/-- What the listings say of the cards: every row has an address, the rows of the first one have the
same uuid exactly when they have the same address, and those of the second one the same minor
number. A card may be in one of the listings and not in the other. -/
structure Listing (stdout : Str) : Prop where
  smi : ∀ row ∈ smiRows stdout, (addressOf row.2).isSome
  minors : ∀ row ∈ minorRows stdout, (addressOf row.1).isSome
  uuid : ∀ row ∈ smiRows stdout, ∀ row' ∈ smiRows stdout,
    row.1 = row'.1 ↔ addressOf row.2 = addressOf row'.2
  minor : ∀ row ∈ minorRows stdout, ∀ row' ∈ minorRows stdout,
    natOf row.2 = natOf row'.2 ↔ addressOf row.1 = addressOf row'.1

/-- Every number of the second listing is short enough for `int`. -/
def Readable (stdout : Str) : Prop :=
  ∀ row ∈ minorRows stdout, row.2.length ≤ maxDigits

/-- The address of the card with a uuid, from the first listing. -/
def cardAddress (stdout uuid : Str) : Option PciAddress :=
  ((smiRows stdout).find? (·.1 = uuid)).bind fun row => addressOf row.2

/-- The row's address has the same tail. -/
def alike (address : PciAddress) (row : Str × Str) : Bool :=
  (addressOf row.1).any (SameTail · address)

/-- The last row of the second listing whose address has the same tail. -/
def lastAlike (stdout : Str) (address : PciAddress) : Option (Str × Str) :=
  (minorRows stdout).reverse.find? (alike address)

/-- The node of the card of a uuid: the number is that of the row with its address. -/
def OwnNode (stdout uuid node : Str) : Prop :=
  ∃ address ∈ cardAddress stdout uuid, ∃ row ∈ minorRows stdout,
    addressOf row.1 = some address ∧ node = cardNode row

/-- The last row with the tail of the card is there, and so is its node. -/
def Resolved (stdout uuid : Str) : Prop :=
  ∃ address ∈ cardAddress stdout uuid, ∃ row ∈ lastAlike stdout address,
    cardNode row ∈ listedNodes stdout

/-- The last row with the tail of the card is that of another card. -/
def Shadowed (stdout uuid : Str) : Prop :=
  ∃ address ∈ cardAddress stdout uuid, ∃ row ∈ lastAlike stdout address,
    addressOf row.1 ≠ some address

instance (stdout uuid : Str) : Decidable (Shadowed stdout uuid) :=
  inferInstanceAs (Decidable (∃ address ∈ cardAddress stdout uuid,
    ∃ row ∈ lastAlike stdout address, addressOf row.1 ≠ some address))

/-- A line of `nvidia-smi` is read as a row with its address normalised. -/
theorem busLine_eq (line : Str) :
    busLine line = (smiRow line).map fun row => (row.1, normaliseBus row.2) := by
  rw [busLine, smiRow]
  generalize (line.splitOn ',').map strip = parts
  match parts with
  | [uuid, bus] => simp only [Option.map_if]
  | [] | [_] | _ :: _ :: _ :: _ => rfl

/-- A line of the driver is read as a row with its address normalised. -/
theorem minorLine_eq (line : Str) :
    minorLine line = (minorRow line).map fun row => (normaliseBus row.1, row.2) := by
  rw [minorRow]
  cases hline : minorLine line with
  | none => rfl
  | some row =>
    rw [minorLine] at hline
    dsimp only at hline
    split_ifs at hline
    obtain rfl := Option.some.inj hline
    rfl

/-- The number of a row is one or more digits. -/
theorem intOf_minorRow {line : Str} {row : Str × Str} (h : minorRow line = some row) :
    intOf row.2 = if row.2.length ≤ maxDigits then some (natOf row.2 : ℤ) else none := by
  rw [minorRow] at h
  obtain ⟨found, hline, rfl⟩ := Option.map_eq_some_iff.mp h
  rw [minorLine] at hline
  dsimp only at hline
  split_ifs at hline with _ _ hdigits
  obtain rfl := Option.some.inj hline
  refine intOf_of_decimal (fun hnil => hdigits (Or.inr hnil)) fun c hc => ?_
  exact List.mem_takeWhile_imp (p := fun c => (decimalValue c).isSome) hc

/-- When every number can be read, the rows are entered one after another. -/
theorem minorsIn_eq {σ : Type} {lines : List Str}
    (h : ∀ row ∈ lines.filterMap minorRow, row.2.length ≤ maxDigits) (minors : Dict Str ℤ) :
    (minorsIn lines minors : Raising σ (Dict Str ℤ)) =
      pure (((lines.filterMap minorRow).map fun row =>
        (normaliseBus row.1, (natOf row.2 : ℤ))).foldl (fun d e => d.set e.1 e.2) minors) := by
  induction lines generalizing minors with
  | nil => rfl
  | cons line lines ih =>
    rw [minorsIn]
    -- a line that is no row is passed over
    cases hrow : minorRow line with
    | none =>
      rw [List.filterMap_cons_none hrow] at h ⊢
      rw [minorLine_eq, hrow]
      exact ih h minors
    | some row =>
      rw [List.filterMap_cons_some hrow] at h ⊢
      rw [List.forall_mem_cons] at h
      rw [minorLine_eq, hrow, Option.map_some]
      show (intOrRaise row.2 >>= fun minor => minorsIn lines _) = _
      rw [intOrRaise, intOf_minorRow hrow, if_pos h.1]
      show minorsIn lines (minors.set (normaliseBus row.1) (natOf row.2 : ℤ)) = _
      rw [ih h.2, List.map_cons, List.foldl_cons]

/-- A number that cannot be read raises. -/
theorem minorsIn_raises {σ : Type} {lines : List Str}
    (h : ¬ ∀ row ∈ lines.filterMap minorRow, row.2.length ≤ maxDigits) (minors : Dict Str ℤ) :
    (minorsIn lines minors : Raising σ (Dict Str ℤ)) = throw .value := by
  induction lines generalizing minors with
  | nil => simp at h
  | cons line lines ih =>
    rw [minorsIn]
    cases hrow : minorRow line with
    | none =>
      rw [List.filterMap_cons_none hrow] at h
      rw [minorLine_eq, hrow]
      exact ih h minors
    | some row =>
      rw [List.filterMap_cons_some hrow, List.forall_mem_cons, not_and_or] at h
      rw [minorLine_eq, hrow, Option.map_some]
      show (intOrRaise row.2 >>= fun minor => minorsIn lines _) = _
      rw [intOrRaise, intOf_minorRow hrow]
      -- this number raises, or a later one
      by_cases hlong : row.2.length ≤ maxDigits
      · rw [if_pos hlong]
        exact ih (h.resolve_left (not_not.mpr hlong)) _
      · rw [if_neg hlong]
        rfl

/-! ## The join -/

/-- The node that the join finds for a uuid. -/
def Finds (buses : Dict Str Str) (minors : Dict Str ℤ) (present : List Str) (uuid node : Str) :
    Prop :=
  ∃ bus minor, buses.get? uuid = some bus ∧ minors.get? bus = some minor ∧
    node = "/dev/nvidia".toList ++ Json.intText minor ∧ node ∈ present

/-- The loop over the cards finds a node for each of them, or it fails. -/
theorem cardNodes_eq_ok_iff {buses : Dict Str Str} {minors : Dict Str ℤ}
    {present uuids own : List Str} :
    cardNodes buses minors present uuids = .ok own ↔
      List.Forall₂ (Finds buses minors present) uuids own := by
  induction uuids generalizing own with
  | nil => simp [cardNodes, eq_comm]
  | cons uuid uuids ih =>
    rw [cardNodes]
    -- without a bus, a minor number or the node itself the choice fails
    cases hbus : buses.get? uuid with
    | none =>
      refine iff_of_false (by simp) fun h => ?_
      obtain ⟨_, _, ⟨bus, minor, hget, -⟩, -⟩ := List.forall₂_cons_left_iff.mp h
      simp [hbus] at hget
    | some bus =>
      rw [Option.getD_some]
      cases hminor : minors.get? bus with
      | none =>
        refine iff_of_false (by simp) fun h => ?_
        obtain ⟨_, _, ⟨bus', minor, hget, hget', -⟩, -⟩ := List.forall₂_cons_left_iff.mp h
        rw [hbus] at hget
        rw [← Option.some.inj hget, hminor] at hget'
        simp at hget'
      | some minor =>
        have hfinds (node : Str) : Finds buses minors present uuid node ↔
            node = "/dev/nvidia".toList ++ Json.intText minor ∧ node ∈ present := by
          simp [Finds, hbus, hminor]
        dsimp only
        rw [List.forall₂_cons_left_iff]
        simp only [hfinds]
        split_ifs with hpresent
        · simp only [Fallible.map_eq_ok, ih]
          constructor
          · rintro ⟨rest, hrest, rfl⟩
            exact ⟨_, rest, ⟨rfl, hpresent⟩, hrest, rfl⟩
          · rintro ⟨_, rest, ⟨rfl, -⟩, hrest, rfl⟩
            exact ⟨rest, hrest, rfl⟩
        · refine iff_of_false (by simp) ?_
          rintro ⟨_, _, ⟨rfl, hmem⟩, -⟩
          exact hpresent hmem

/-- `device_nodes` gives exactly the own nodes of the cards asked for: one for each uuid in order,
then only shared ones, and no node of another card. -/
structure OwnNodes (stdout : Str) (uuids : List Str) (wholeNode : Bool) (chosen : List Str) :
    Prop where
  own : List.Forall₂ (OwnNode stdout) uuids (chosen.take uuids.length)
  shared : ∀ node ∈ chosen.drop uuids.length, node ∈ deviceNodeNames ∨
    wholeNode ∧ ∃ directory ∈ hostWideDirs, startsWith node (directory ++ ['/'])
  others : ∀ row ∈ minorRows stdout, cardNode row ∈ chosen →
    ∃ uuid ∈ uuids, cardAddress stdout uuid = addressOf row.1

/-- What `parse_device_probe` makes of the first listing. -/
def busTable (stdout : Str) : Dict Str Str :=
  Dict.ofItems ((smiRows stdout).map fun row => (row.1, normaliseBus row.2))

/-- What it makes of the second one, when every number in it can be read. -/
def minorTable (stdout : Str) : Dict Str ℤ :=
  Dict.ofItems ((minorRows stdout).map fun row => (normaliseBus row.1, (natOf row.2 : ℤ)))

section Join

variable {stdout : Str}

/-- What is read of an output that can be read. -/
theorem parseDeviceProbe_eq {σ : Type} (h : Readable stdout) :
    (parseDeviceProbe stdout : Raising σ _) =
      pure (busTable stdout, minorTable stdout, listedNodes stdout) := by
  have hbuses : (splitLines (sectionsOf stdout).1).filterMap busLine =
      (smiRows stdout).map fun row => (row.1, normaliseBus row.2) := by
    rw [smiRows, List.map_filterMap]
    exact List.filterMap_congr fun line _ => busLine_eq line
  rw [parseDeviceProbe]
  dsimp only
  rw [minorsIn_eq h, hbuses]
  rfl

/-- A minor that is no number raises. -/
theorem parseDeviceProbe_raises {σ : Type} (h : ¬ Readable stdout) :
    (parseDeviceProbe stdout : Raising σ _) = throw .value := by
  rw [parseDeviceProbe]
  dsimp only
  rw [minorsIn_raises h]
  rfl

/-- All rows of a uuid have the address of its card. -/
theorem cardAddress_eq (h : Listing stdout) {row : Str × Str} (hrow : row ∈ smiRows stdout) :
    cardAddress stdout row.1 = addressOf row.2 := by
  cases hfind : (smiRows stdout).find? (·.1 = row.1) with
  | none => exact absurd (List.find?_eq_none.mp hfind row hrow) (by simp)
  | some first =>
    rw [cardAddress, hfind, Option.bind_some]
    have huuid : first.1 = row.1 := by simpa using List.find?_some hfind
    exact (h.uuid first (List.mem_of_find?_eq_some hfind) row hrow).mp huuid

/-- A uuid of the first listing has the tail of its card. -/
theorem busTable_get? (h : Listing stdout) {uuid bus : Str} :
    (busTable stdout).get? uuid = some bus ↔ ∃ address ∈ cardAddress stdout uuid,
      ∃ text, addressOf text = some address ∧ bus = normaliseBus text := by
  -- every entry of the uuid comes from one of its rows
  have hentry {bus : Str} (hbus : (busTable stdout).get? uuid = some bus) :
      ∃ address ∈ cardAddress stdout uuid,
        ∃ text, addressOf text = some address ∧ bus = normaliseBus text := by
    obtain ⟨before, row, after, hrows, hrow, -⟩ := Dict.lastOf_map.mp (Dict.get?_ofItems.mp hbus)
    obtain ⟨rfl, rfl⟩ := Prod.mk.inj hrow
    have hmem : row ∈ smiRows stdout := by rw [hrows]; simp
    obtain ⟨address, haddress⟩ := Option.isSome_iff_exists.mp (h.smi row hmem)
    exact ⟨address, (cardAddress_eq h hmem).trans haddress, row.2, haddress, rfl⟩
  refine ⟨hentry, ?_⟩
  rintro ⟨address, haddress, text, htext, rfl⟩
  obtain ⟨row, hfind, -⟩ := Option.bind_eq_some_iff.mp haddress
  obtain ⟨bus, hbus⟩ : ∃ bus, (busTable stdout).get? uuid = some bus := by
    simp only [busTable, Dict.get?_ofItems]
    apply Dict.exists_lastOf
    have huuid : row.1 = uuid := by simpa using List.find?_some hfind
    rw [← huuid, Dict.keys, List.map_map]
    exact List.mem_map_of_mem (List.mem_of_find?_eq_some hfind)
  obtain ⟨address', haddress', text', htext', rfl⟩ := hentry hbus
  obtain rfl := Option.some.inj (haddress.symm.trans haddress')
  rw [hbus, Option.some.injEq, normaliseBus_eq_iff htext' htext]
  exact ⟨rfl, rfl⟩

/-- The row that is found is the last one alike. -/
theorem lastAlike_eq_some {address : PciAddress} {row : Str × Str} :
    lastAlike stdout address = some row ↔ ∃ before after,
      minorRows stdout = before ++ row :: after ∧ alike address row ∧
        ∀ later ∈ after, alike address later = false := by
  rw [lastAlike, List.find?_eq_some_iff_append]
  constructor
  · rintro ⟨halike, after, before, hrows, hafter⟩
    refine ⟨before.reverse, after.reverse, ?_, halike, ?_⟩
    · rw [← List.reverse_reverse (minorRows stdout), hrows]
      simp
    · simpa using hafter
  · rintro ⟨before, after, hrows, halike, hafter⟩
    exact ⟨halike, after.reverse, before.reverse, by simp [hrows], by simpa using hafter⟩

/-- The row that is found is one of the rows. -/
theorem mem_of_lastAlike {address : PciAddress} {row : Str × Str}
    (h : lastAlike stdout address = some row) : row ∈ minorRows stdout := by
  obtain ⟨before, after, hrows, -⟩ := lastAlike_eq_some.mp h
  rw [hrows]
  simp

/-- The minor number that the join has for a tail is the one of the last row with this tail. -/
theorem minorTable_get? (h : Listing stdout) {text : Str} {address : PciAddress}
    (htext : addressOf text = some address) {minor : ℤ} :
    (minorTable stdout).get? (normaliseBus text) = some minor ↔
      ∃ row ∈ lastAlike stdout address, minor = natOf row.2 := by
  -- two addresses have the same key when they have the same tail
  have hkey : ∀ row ∈ minorRows stdout,
      normaliseBus row.1 = normaliseBus text ↔ alike address row = true := by
    intro row hrow
    obtain ⟨other, hother⟩ := Option.isSome_iff_exists.mp (h.minors row hrow)
    rw [normaliseBus_eq_iff hother htext, alike, hother]
    simp
  rw [minorTable, Dict.get?_ofItems, Dict.lastOf_map]
  simp only [Option.mem_def, lastAlike_eq_some]
  constructor
  · rintro ⟨before, row, after, hrows, hrow, hlast⟩
    obtain ⟨hbus, rfl⟩ := Prod.mk.inj hrow
    refine ⟨row, ⟨before, after, hrows, (hkey row (by rw [hrows]; simp)).mp hbus, ?_⟩, rfl⟩
    exact fun later hlater => Bool.eq_false_iff.mpr fun halike =>
      hlast later hlater ((hkey later (by rw [hrows]; simp [hlater])).mpr halike)
  · rintro ⟨row, ⟨before, after, hrows, halike, hlast⟩, rfl⟩
    refine ⟨before, row, after, hrows, ?_, fun later hlater hbus => ?_⟩
    · rw [(hkey row (by rw [hrows]; simp)).mpr halike]
    · have halike' := (hkey later (by rw [hrows]; simp [hlater])).mp hbus
      rw [hlast later hlater] at halike'
      cases halike'

/-- The node of a row, by the number in it. -/
theorem cardNode_eq (row : Str × Str) :
    "/dev/nvidia".toList ++ Json.intText (natOf row.2) = cardNode row := by
  have htext : Json.intText (natOf row.2) = natText (natOf row.2) := by
    have hsign : ¬ (natOf row.2 : ℤ) < 0 := by omega
    rw [Json.intText, if_neg hsign, Int.natAbs_natCast]
  exact congrArg _ htext

/-- The join finds for a uuid the node of the last row with the tail of its card. -/
theorem finds_iff (h : Listing stdout) {uuid node : Str} :
    Finds (busTable stdout) (minorTable stdout) (listedNodes stdout) uuid node ↔
      ∃ address ∈ cardAddress stdout uuid, ∃ row ∈ lastAlike stdout address,
        node = cardNode row ∧ node ∈ listedNodes stdout := by
  constructor
  · rintro ⟨bus, minor, hbus, hminor, hnode, hpresent⟩
    obtain ⟨address, haddress, text, htext, rfl⟩ := (busTable_get? h).mp hbus
    obtain ⟨row, hrow, rfl⟩ := (minorTable_get? h htext).mp hminor
    exact ⟨address, haddress, row, hrow, hnode.trans (cardNode_eq row), hpresent⟩
  · rintro ⟨address, haddress, row, hrow, hnode, hpresent⟩
    obtain ⟨first, hfind, htext⟩ := Option.bind_eq_some_iff.mp haddress
    exact ⟨normaliseBus first.2, natOf row.2,
      (busTable_get? h).mpr ⟨address, haddress, first.2, htext, rfl⟩,
      (minorTable_get? h htext).mpr ⟨row, hrow, rfl⟩, hnode.trans (cardNode_eq row).symm, hpresent⟩

theorem natOf_eq_of_cardNode_eq {row row' : Str × Str} (h : cardNode row = cardNode row') :
    natOf row.2 = natOf row'.2 :=
  natText_injective (List.append_cancel_left h)

/-- What follows the common beginning in the node of a card is digits. -/
theorem cardNode_ne {row : Str × Str} (rest : Str) (c : Char) (hc : c ∈ rest)
    (hdigit : ¬ c.isDigit) : cardNode row ≠ "/dev/nvidia".toList ++ rest := by
  intro heq
  rw [← List.append_cancel_left heq] at hc
  exact hdigit (isDigit_of_mem_natText hc)

/-- No node of a card is one that all cards share. -/
theorem cardNode_not_shared {row : Str × Str} : cardNode row ∉ deviceNodeNames := by
  intro hmem
  simp only [deviceNodeNames, List.mem_cons, List.not_mem_nil, or_false] at hmem
  rcases hmem with h | h | h | h
  · exact cardNode_ne "ctl".toList 'c' (by decide) (by decide) h
  · exact cardNode_ne "-uvm".toList '-' (by decide) (by decide) h
  · exact cardNode_ne "-uvm-tools".toList '-' (by decide) (by decide) h
  · exact cardNode_ne "-modeset".toList '-' (by decide) (by decide) h

/-- No node of a card lies in a directory of the host. -/
theorem cardNode_not_hostWide {row : Str × Str} {directory : Str} (h : directory ∈ hostWideDirs) :
    ¬ startsWith (cardNode row) (directory ++ ['/']) := by
  intro hstarts
  obtain ⟨rest, hrest⟩ := List.isPrefixOf_iff_prefix.mp hstarts
  simp only [hostWideDirs, List.mem_cons, List.not_mem_nil, or_false] at h
  rcases h with rfl | rfl
  · exact cardNode_ne ("-caps/".toList ++ rest) '-' (by simp) (by decide) hrest.symm
  · -- the names differ in their sixth character
    have hdigits : ∃ digits, cardNode row = "/dev/nvidia".toList ++ digits := ⟨_, rfl⟩
    obtain ⟨digits, hnode⟩ := hdigits
    rw [hnode] at hrest
    simp at hrest

/-- The nodes that `device_nodes` gives after those of the cards. -/
def commonNodes (stdout : Str) (wholeNode : Bool) : List Str :=
  deviceNodeNames.filter (· ∈ listedNodes stdout) ++
    if wholeNode then (listedNodes stdout).filter fun node =>
      hostWideDirs.any fun directory => startsWith node (directory ++ ['/'])
    else []

/-- What comes on top of the cards: shared nodes, and with the whole node those of the host. -/
theorem shared_of_mem_commonNodes {wholeNode : Bool} {node : Str}
    (h : node ∈ commonNodes stdout wholeNode) : node ∈ deviceNodeNames ∨
      wholeNode ∧ ∃ directory ∈ hostWideDirs, startsWith node (directory ++ ['/']) := by
  rcases List.mem_append.mp h with h | h
  · exact Or.inl (List.mem_of_mem_filter h)
  · split_ifs at h with hwhole
    · have hany := List.of_mem_filter h
      exact Or.inr ⟨hwhole, List.any_eq_true.mp hany⟩
    · simp at h

/-- No node of a card comes on top. -/
theorem cardNode_not_common {row : Str × Str} {wholeNode : Bool} :
    cardNode row ∉ commonNodes stdout wholeNode := by
  intro h
  rcases shared_of_mem_commonNodes h with h | ⟨-, directory, hdirectory, h⟩
  · exact cardNode_not_shared h
  · exact cardNode_not_hostWide hdirectory h

/-- What `device_nodes` gives: nothing, unless the numbers can be read and a node is found for every
uuid. -/
theorem deviceNodes_run_iff {σ : Type} {answer : CommandResult} {uuids : List Str}
    {wholeNode : Bool} {os : List Unit} {s s' : σ} {chosen : List Str} :
    (deviceNodes uuids wholeNode).run.run (fun _ _ w => some (answer, w)) os s () =
        some (.ok (.ok chosen), s', ()) ↔
      os.length = 1 ∧ s' = s ∧ answer.transportFailed = false ∧ Readable answer.stdout ∧
        ∃ own, List.Forall₂ (Finds (busTable answer.stdout) (minorTable answer.stdout)
          (listedNodes answer.stdout)) uuids own ∧
          chosen = own ++ commonNodes answer.stdout wholeNode := by
  cases os with
  | nil => exact iff_of_false (by intro h; cases h) (by simp)
  | cons o os =>
  -- the answer is the same for every command
  show Program.run _ (ExceptT.run (if answer.transportFailed then
    pure (Except.error answer.error) else parseDeviceProbe answer.stdout >>= _)) os s () = _ ↔ _
  cases answer.transportFailed with
  | true =>
    refine iff_of_false (fun h => ?_) (by simp)
    cases os with
    | nil => cases h
    | cons o' os => cases h
  | false =>
    by_cases hread : Readable answer.stdout
    · rw [parseDeviceProbe_eq hread]
      cases os with
      | nil =>
        show some (Except.ok (Except.map (fun chosen => chosen ++ _ ++ _) _), s, ()) = _ ↔ _
        simp only [List.append_assoc, Option.some.injEq, Prod.mk.injEq, Except.ok.injEq,
          Fallible.map_eq_ok, cardNodes_eq_ok_iff, and_true, List.length_singleton, true_and, hread]
        constructor
        · rintro ⟨⟨own, hown, rfl⟩, rfl⟩
          exact ⟨rfl, own, hown, rfl⟩
        · rintro ⟨rfl, own, hown, rfl⟩
          exact ⟨⟨own, hown, rfl⟩, rfl⟩
      | cons o' os => exact iff_of_false (by intro h; cases h) (by simp)
    · rw [parseDeviceProbe_raises hread]
      refine iff_of_false (fun h => ?_) (by simp [hread])
      cases os with
      | nil => cases h
      | cons o' os => cases h

/-- Each item on the right has its partner on the left. -/
theorem exists_of_forall₂_right {α β : Type} {R : α → β → Prop} {as : List α} {bs : List β}
    (h : List.Forall₂ R as bs) {b : β} (hb : b ∈ bs) : ∃ a ∈ as, R a b := by
  induction h with
  | nil => simp at hb
  | @cons a b' as bs hab _ ih =>
    rcases List.mem_cons.mp hb with rfl | hb
    · exact ⟨a, by simp, hab⟩
    · obtain ⟨a', ha', hR⟩ := ih hb
      exact ⟨a', by simp [ha'], hR⟩

/-- Two relations along the same lists have the partner of an item in common. -/
theorem exists_of_forall₂_both {α β : Type} {R S : α → β → Prop} {as : List α} {bs : List β}
    (h : List.Forall₂ R as bs) (h' : List.Forall₂ S as bs) {a : α} (ha : a ∈ as) :
    ∃ b, R a b ∧ S a b := by
  induction h with
  | nil => simp at ha
  | @cons a' b as bs hab _ ih =>
    obtain ⟨hab', hrest⟩ := List.forall₂_cons.mp h'
    rcases List.mem_cons.mp ha with rfl | ha
    · exact ⟨b, hab, hab'⟩
    · exact ih hrest ha

/-- Partners one by one are a list of partners. -/
theorem exists_forall₂ {α β : Type} {R : α → β → Prop} {as : List α}
    (h : ∀ a ∈ as, ∃ b, R a b) : ∃ bs, List.Forall₂ R as bs := by
  induction as with
  | nil => exact ⟨[], .nil⟩
  | cons a as ih =>
    rw [List.forall_mem_cons] at h
    obtain ⟨b, hb⟩ := h.1
    obtain ⟨bs, hbs⟩ := ih h.2
    exact ⟨b :: bs, .cons hb hbs⟩

/-- What is found for a card that nothing shadows is its own node. -/
theorem ownNode_of_finds (h : Listing stdout) {uuid node : Str}
    (hnone : ¬ Shadowed stdout uuid)
    (hfinds : Finds (busTable stdout) (minorTable stdout) (listedNodes stdout) uuid node) :
    OwnNode stdout uuid node := by
  obtain ⟨address, haddress, row, hrow, rfl, -⟩ := (finds_iff h).mp hfinds
  have hown : addressOf row.1 = some address := by
    by_contra hother
    exact hnone ⟨address, haddress, row, hrow, hother⟩
  exact ⟨address, haddress, row, mem_of_lastAlike hrow, hown, rfl⟩

/-- What is found for a shadowed card is not. -/
theorem not_ownNode_of_finds (h : Listing stdout) {uuid node : Str}
    (hshadowed : Shadowed stdout uuid)
    (hfinds : Finds (busTable stdout) (minorTable stdout) (listedNodes stdout) uuid node) :
    ¬ OwnNode stdout uuid node := by
  rintro ⟨address, haddress, own, hown, hat, hnode⟩
  obtain ⟨address', haddress', row, hrow, hother⟩ := hshadowed
  obtain rfl := Option.some.inj (haddress.symm.trans haddress')
  obtain ⟨address', haddress'', row', hrow', rfl, -⟩ := (finds_iff h).mp hfinds
  obtain rfl := Option.some.inj (haddress.symm.trans haddress'')
  obtain rfl := Option.some.inj (hrow.symm.trans hrow')
  -- rows with one number have one address
  have hsame := (h.minor row (mem_of_lastAlike hrow) own hown).mp (natOf_eq_of_cardNode_eq hnode)
  exact hother (hsame.trans hat)

/-- The nodes that were found, one for each card, are those of the cards when none is shadowed. -/
theorem ownNodes_of_finds (h : Listing stdout) {uuids own : List Str} {wholeNode : Bool}
    (hnone : ∀ uuid ∈ uuids, ¬ Shadowed stdout uuid)
    (hown : List.Forall₂ (Finds (busTable stdout) (minorTable stdout) (listedNodes stdout))
      uuids own) : OwnNodes stdout uuids wholeNode (own ++ commonNodes stdout wholeNode) := by
  have hcards : List.Forall₂ (OwnNode stdout) uuids own := by
    induction hown with
    | nil => exact .nil
    | @cons uuid node uuids own hfinds _ ih =>
      rw [List.forall_mem_cons] at hnone
      exact .cons (ownNode_of_finds h hnone.1 hfinds) (ih hnone.2)
  refine ⟨?_, ?_, ?_⟩
  -- the first nodes are those of the cards, one each, and the rest are common
  · rw [hown.length_eq, List.take_left]
    exact hcards
  · rw [hown.length_eq, List.drop_left]
    exact fun node hnode => shared_of_mem_commonNodes hnode
  · intro row hrow hchosen
    rcases List.mem_append.mp hchosen with hmem | hmem
    -- a node of a card that was chosen is that of an asked card
    · obtain ⟨uuid, huuid, address, haddress, row', hrow', hat, hnode⟩ :=
        exists_of_forall₂_right hcards hmem
      have hsame := (h.minor row hrow row' hrow').mp (natOf_eq_of_cardNode_eq hnode)
      exact ⟨uuid, huuid, haddress.trans (hsame.trans hat).symm⟩
    · exact absurd hmem cardNode_not_common

/-- **A tenant gets the nodes of its own cards.** For every probe output that lists cards with
addresses, uuids and minor numbers of their own, whatever else one of the two listings has, and
every list of uuids: what `device_nodes` gives are the own nodes of the cards asked for, exactly
when it gives nothing, as the probe fails, a number cannot be read or a uuid is not resolved, or
when none of the cards asked for is shadowed by another one. -/
theorem deviceNodes_own_iff {σ : Type} {answer : CommandResult} (h : Listing answer.stdout)
    (uuids : List Str) (wholeNode : Bool) (s : σ) :
    (∀ (os : List Unit) (s' : σ) (chosen : List Str),
      (deviceNodes uuids wholeNode).run.run (fun _ _ w => some (answer, w)) os s () =
        some (.ok (.ok chosen), s', ()) → OwnNodes answer.stdout uuids wholeNode chosen) ↔
      (answer.transportFailed ∨ ¬ Readable answer.stdout ∨
        (∃ uuid ∈ uuids, ¬ Resolved answer.stdout uuid) ∨
        ∀ uuid ∈ uuids, ¬ Shadowed answer.stdout uuid) := by
  simp only [deviceNodes_run_iff]
  constructor
  · intro hall
    rw [or_iff_not_imp_left, or_iff_not_imp_left, or_iff_not_imp_left, Bool.not_eq_true, not_not]
    intro htransport hread hresolved uuid huuid hshadowed
    push Not at hresolved
    -- each uuid is resolved, so a list of nodes is given
    have hfound : ∀ uuid ∈ uuids, ∃ node,
        Finds (busTable answer.stdout) (minorTable answer.stdout) (listedNodes answer.stdout)
          uuid node := by
      intro uuid huuid
      obtain ⟨address, haddress, row, hrow, hpresent⟩ := hresolved uuid huuid
      exact ⟨_, (finds_iff h).mpr ⟨address, haddress, row, hrow, rfl, hpresent⟩⟩
    obtain ⟨own, hown⟩ := exists_forall₂ hfound
    have hgiven := (hall [()] s _ ⟨rfl, rfl, htransport, hread, own, hown, rfl⟩).own
    rw [hown.length_eq, List.take_left] at hgiven
    -- the node at the place of the shadowed card is not its own
    obtain ⟨node, hfinds, hnode⟩ := exists_of_forall₂_both hown hgiven huuid
    exact not_ownNode_of_finds h hshadowed hfinds hnode
  · rintro hcases os s' chosen ⟨-, -, htransport, hread, own, hown, rfl⟩
    rcases hcases with hfailed | hunread | ⟨uuid, huuid, hunresolved⟩ | hnone
    · simp [htransport] at hfailed
    · exact absurd hread hunread
    · obtain ⟨node, hfinds, -⟩ := exists_of_forall₂_both hown hown huuid
      obtain ⟨address, haddress, row, hrow, rfl, hpresent⟩ := (finds_iff h).mp hfinds
      exact absurd ⟨address, haddress, row, hrow, hpresent⟩ hunresolved
    · exact ownNodes_of_finds h hnone hown

end Join

/-- A rig with two cards in different slots. -/
def twoCardProbe : CommandResult where
  exitCode := 0
  stdout := "GPU-a, 00000000:01:00.0\nGPU-b, 00000000:02:00.0\n---\n".toList ++
    "/proc/driver/nvidia/gpus/0000:01:00.0/information:Device Minor: 0\n".toList ++
    "/proc/driver/nvidia/gpus/0000:02:00.0/information:Device Minor: 1\n---\n".toList ++
    "/dev/nvidia0\n/dev/nvidia1\n/dev/nvidiactl\n".toList

theorem smiRows_twoCardProbe : smiRows twoCardProbe.stdout =
    [("GPU-a".toList, "00000000:01:00.0".toList), ("GPU-b".toList, "00000000:02:00.0".toList)] := by
  decide +kernel

theorem minorRows_twoCardProbe : minorRows twoCardProbe.stdout =
    [("0000:01:00.0".toList, "0".toList), ("0000:02:00.0".toList, "1".toList)] := by
  decide +kernel

/-- The tenant of the second card gets its node. -/
theorem deviceNodes_own_iff_twoCards :
    Listing twoCardProbe.stdout ∧
    (deviceNodes ["GPU-b".toList] false).run.run (fun _ _ w => some (twoCardProbe, w)) [()] () () =
      some (.ok (.ok ["/dev/nvidia1".toList, "/dev/nvidiactl".toList]), (), ()) ∧
    OwnNodes twoCardProbe.stdout ["GPU-b".toList] false
      ["/dev/nvidia1".toList, "/dev/nvidiactl".toList] := by
  have hlisting : Listing twoCardProbe.stdout := by
    refine ⟨?_, ?_, ?_, ?_⟩
    · rw [smiRows_twoCardProbe]
      decide +kernel
    · rw [minorRows_twoCardProbe]
      decide +kernel
    · rw [smiRows_twoCardProbe]
      decide +kernel
    · rw [minorRows_twoCardProbe]
      decide +kernel
  have hrun : (deviceNodes ["GPU-b".toList] false).run.run (fun _ _ w => some (twoCardProbe, w))
      [()] () () = some (.ok (.ok ["/dev/nvidia1".toList, "/dev/nvidiactl".toList]), (), ()) := by
    decide +kernel
  have hnone : ∀ uuid ∈ ["GPU-b".toList], ¬ Shadowed twoCardProbe.stdout uuid := by
    decide +kernel
  exact ⟨hlisting, hrun, (deviceNodes_own_iff hlisting _ _ ()).mpr (.inr (.inr (.inr hnone))) _ _ _
    hrun⟩

/-- A card that `nvidia-smi` lists, and one that only the driver lists; their domains agree in the
last four digits. -/
def shadowedProbe : CommandResult where
  exitCode := 0
  stdout := "GPU-a, 00000000:01:00.0\n---\n".toList ++
    "/proc/driver/nvidia/gpus/0000:01:00.0/information:Device Minor: 0\n".toList ++
    "/proc/driver/nvidia/gpus/10000:01:00.0/information:Device Minor: 1\n---\n".toList ++
    "/dev/nvidia0\n/dev/nvidia1\n/dev/nvidiactl\n".toList

/-- The tenant of the first card gets the node of the second one. -/
theorem other_card_handed_over :
    Listing shadowedProbe.stdout ∧
    (deviceNodes ["GPU-a".toList] false).run.run (fun _ _ w => some (shadowedProbe, w)) [()] ()
        () = some (.ok (.ok ["/dev/nvidia1".toList, "/dev/nvidiactl".toList]), (), ()) ∧
    ¬ OwnNodes shadowedProbe.stdout ["GPU-a".toList] false
      ["/dev/nvidia1".toList, "/dev/nvidiactl".toList] := by
  -- two cards whose buses differ in the fifth digit of the domain only
  have hsmi : smiRows shadowedProbe.stdout = [("GPU-a".toList, "00000000:01:00.0".toList)] := by
    decide +kernel
  have hminors : minorRows shadowedProbe.stdout = [("0000:01:00.0".toList, "0".toList),
      ("10000:01:00.0".toList, "1".toList)] := by
    decide +kernel
  have hlisting : Listing shadowedProbe.stdout := by
    refine ⟨?_, ?_, ?_, ?_⟩
    · rw [hsmi]
      decide +kernel
    · rw [hminors]
      decide +kernel
    · rw [hsmi]
      decide +kernel
    · rw [hminors]
      decide +kernel
  refine ⟨hlisting, by decide +kernel, fun h => ?_⟩
  -- the node of the second card is among those chosen, and no uuid that was asked for is its
  obtain ⟨uuid, huuid, haddress⟩ := h.others ("10000:01:00.0".toList, "1".toList)
    (by rw [hminors]; decide) (by decide +kernel)
  rw [List.mem_singleton.mp huuid] at haddress
  exact absurd haddress (by decide +kernel)

end ComputePool.Validator.Containers
