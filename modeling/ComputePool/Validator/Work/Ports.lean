import Mathlib.Data.Int.ConditionallyCompleteOrder
import Mathlib.Data.Int.Interval
import Mathlib.Data.List.Range
import ComputePool.Validator.Work.Containers

/-!
# Reserving ports

`reserve_ports` of `validator/work/containers.py`: one candidate moves up through the range, skips
the busy ports and is handed to the container ports in their order.

* `assignPorts_eq`: the loop pairs the container ports with the free ports of the range from its
  lower end, if these are enough.
* `parseRange_iff`: which texts are ranges.
* `reservePorts_first`: a reservation succeeds exactly when the text is a range with enough free
  ports, and takes the smallest ones.
-/

namespace ComputePool.Validator.Containers

open Text Numeral

/-! ## The loop -/

/-- The ports from `first` to `last` that are not busy, in order. -/
def freeFrom (busy : List ℤ) (last first : ℤ) : List ℤ :=
  ((List.range (last - first + 1).toNat).map fun i : ℕ => first + i).filter (· ∉ busy)

/-- The container ports with the host ports they get. -/
def pairUp (hosts ports : List ℤ) : List PortMapping :=
  List.zipWith (fun host container => ⟨host, container, "tcp".toList⟩) hosts ports

section Loop

variable {busy : List ℤ} {last first port : ℤ}

/-- The free ports of a range. -/
@[simp]
theorem mem_freeFrom :
    port ∈ freeFrom busy last first ↔ first ≤ port ∧ port ≤ last ∧ port ∉ busy := by
  simp only [freeFrom, List.mem_filter, List.mem_map, List.mem_range, decide_eq_true_eq]
  constructor
  · rintro ⟨⟨i, hi, rfl⟩, hbusy⟩
    exact ⟨by omega, by omega, hbusy⟩
  · rintro ⟨hfirst, hlast, hbusy⟩
    exact ⟨⟨(port - first).toNat, by omega, by omega⟩, hbusy⟩

/-- The free ports come in increasing order. -/
theorem pairwise_freeFrom (busy : List ℤ) (last first : ℤ) :
    (freeFrom busy last first).Pairwise (· < ·) := by
  apply List.Pairwise.filter
  rw [List.pairwise_map]
  exact List.pairwise_lt_range.imp fun h => by omega

/-- A range that is upside down has no ports. -/
theorem freeFrom_eq_nil (h : last < first) : freeFrom busy last first = [] := by
  rw [List.eq_nil_iff_forall_not_mem]
  intro port hport
  rw [mem_freeFrom] at hport
  omega

/-- As many as the range has ports that are not busy. -/
theorem length_freeFrom (busy : List ℤ) (last first : ℤ) :
    (freeFrom busy last first).length = (Finset.Icc first last \ busy.toFinset).card := by
  have hnodup : (freeFrom busy last first).Nodup :=
    (pairwise_freeFrom busy last first).imp fun h => ne_of_lt h
  rw [← List.toFinset_card_of_nodup hnodup]
  congr 1
  ext port
  rw [List.mem_toFinset, mem_freeFrom, Finset.mem_sdiff, Finset.mem_Icc, List.mem_toFinset,
    and_assoc]

/-- The first port of a range is free or it is not. -/
theorem freeFrom_eq (h : first ≤ last) : freeFrom busy last first =
    if first ∈ busy then freeFrom busy last (first + 1)
    else first :: freeFrom busy last (first + 1) := by
  -- the ports from `first` on are `first` and those after it
  have hlength : (last - first + 1).toNat = (last - (first + 1) + 1).toNat + 1 := by omega
  have htail : (List.range ((last - (first + 1) + 1).toNat + 1)).map (fun i : ℕ => first + i) =
      first :: (List.range (last - (first + 1) + 1).toNat).map fun i : ℕ => first + 1 + i := by
    rw [List.range_succ_eq_map, List.map_cons, List.map_map]
    congr 1
    · simp
    · apply List.map_congr_left
      intro i _
      show first + ((i + 1 : ℕ) : ℤ) = first + 1 + i
      omega
  rw [freeFrom, hlength, htail]
  split_ifs with hbusy
  · rw [List.filter_cons_of_neg (by simpa using hbusy), freeFrom]
  · rw [List.filter_cons_of_pos (by simpa using hbusy), freeFrom]

/-- Where the candidate stops: behind the range when nothing in it is free, else at the first free
port. -/
theorem freeFrom_nextFree (busy : List ℤ) (last : ℤ) (room : ℕ) (first : ℤ)
    (hroom : (last - first + 1).toNat = room) :
    freeFrom busy last first =
      if last < nextFree busy room first then []
      else nextFree busy room first :: freeFrom busy last (nextFree busy room first + 1) := by
  induction room generalizing first with
  | zero =>
    have hlast : last < first := by omega
    rw [nextFree, if_pos hlast, freeFrom_eq_nil hlast]
  | succ room ih =>
    have hlast : first ≤ last := by omega
    rw [freeFrom_eq hlast, nextFree]
    -- the search goes on behind a busy port
    split_ifs with hbusy hbehind hbehind
    · rw [ih (first + 1) (by omega), if_pos hbehind]
    · rw [ih (first + 1) (by omega), if_neg hbehind]
    · omega
    · rfl

/-- The loop pairs the container ports with the free ports, if there are enough of these. -/
theorem assignPorts_eq (busy : List ℤ) (last first : ℤ) (ports : List ℤ) :
    assignPorts busy last first ports =
      if ports.length ≤ (freeFrom busy last first).length then
        some (pairUp (freeFrom busy last first) ports)
      else none := by
  induction ports generalizing first with
  | nil => simp [assignPorts, pairUp]
  | cons port ports ih =>
    rw [assignPorts, freeFrom_nextFree busy last _ first rfl]
    -- each port takes the next free one, and the search goes on from there
    by_cases hbehind : last < nextFree busy (last - first + 1).toNat first
    · simp [hbehind]
    · rw [if_neg hbehind, if_neg hbehind, ih, List.length_cons, List.length_cons]
      simp only [Nat.add_le_add_iff_right]
      split_ifs
      · rfl
      · rfl

end Loop

/-! ## The text of a range -/

/-- The text is a word with white space around it. -/
def Padded (word text : Str) : Prop :=
  ∃ pre post, text = pre ++ (word ++ post) ∧ (∀ c ∈ pre, isSpace c) ∧ ∀ c ∈ post, isSpace c

/-- The text is `low-high`: two numbers with a dash between them and white space anywhere. -/
def IsRange (text : Str) (low high : ℤ) : Prop :=
  ∃ left right lowDigits highDigits, text = left ++ '-' :: right ∧ Padded lowDigits left ∧
    Padded highDigits right ∧ allDigits lowDigits ∧ allDigits highDigits ∧
    intOf lowDigits = some low ∧ intOf highDigits = some high

theorem allDigits_iff {s : Str} : allDigits s ↔ s ≠ [] ∧ ∀ c ∈ s, (decimalValue c).isSome := by
  simp [allDigits]

/-- A numeral is what `strip` leaves exactly where white space is around it. -/
theorem strip_eq_iff_padded {word text : Str} (h : allDigits word) :
    strip text = word ↔ Padded word text := by
  have hword : ∀ c ∈ word, isSpace c = false := fun c hc =>
    isSpace_eq_false_of_decimal ((allDigits_iff.mp h).2 c hc)
  constructor
  · rintro rfl
    exact exists_padding text
  · rintro ⟨pre, post, rfl, hpre, hpost⟩
    exact strip_padding hpre hword hpost

/-- A numeral with white space around it has no dash. -/
theorem dash_not_mem_of_padded {word text : Str} (h : allDigits word) (hpadded : Padded word text) :
    '-' ∉ text := by
  obtain ⟨pre, post, rfl, hpre, hpost⟩ := hpadded
  have hspace : isSpace '-' = false := by decide
  have hdigit : (decimalValue '-').isSome = false := by decide +kernel
  simp only [List.mem_append, not_or]
  refine ⟨fun hc => ?_, fun hc => ?_, fun hc => ?_⟩
  · exact absurd (hpre _ hc) (by simp [hspace])
  · exact absurd ((allDigits_iff.mp h).2 _ hc) (by simp [hdigit])
  · exact absurd (hpost _ hc) (by simp [hspace])

/-- A range is a text with two pieces that are numbers. -/
theorem isRange_iff {text : Str} {low high : ℤ} : IsRange text low high ↔
    ∃ lowDigits highDigits, (text.splitOn '-').map strip = [lowDigits, highDigits] ∧
      allDigits lowDigits ∧ allDigits highDigits ∧ intOf lowDigits = some low ∧
      intOf highDigits = some high := by
  constructor
  -- the digits have no dash, so the text splits at the one between them
  · rintro ⟨left, right, lowDigits, highDigits, rfl, hleft, hright, hlow, hhigh, hvalues⟩
    refine ⟨lowDigits, highDigits, ?_, hlow, hhigh, hvalues⟩
    rw [splitOn_eq_pair_iff.mpr ⟨rfl, dash_not_mem_of_padded hlow hleft,
      dash_not_mem_of_padded hhigh hright⟩, List.map_cons, List.map_cons, List.map_nil,
      (strip_eq_iff_padded hlow).mpr hleft, (strip_eq_iff_padded hhigh).mpr hright]
  · rintro ⟨lowDigits, highDigits, hpieces, hlow, hhigh, hvalues⟩
    obtain ⟨left, right, hsplit, hleft, hright⟩ : ∃ left right, text.splitOn '-' = [left, right] ∧
        strip left = lowDigits ∧ strip right = highDigits := by
      simpa [List.map_eq_cons_iff, and_assoc] using hpieces
    exact ⟨left, right, lowDigits, highDigits, (splitOn_eq_pair_iff.mp hsplit).1,
      (strip_eq_iff_padded hlow).mp hleft, (strip_eq_iff_padded hhigh).mp hright, hlow, hhigh,
      hvalues⟩

section Range

variable {σ ο ω : Type} {exec : Command → ο → ω → Option (CommandResult × ω)} {I : σ → ω → Prop}
  {s : σ} {w : ω}

/-- `parse_range` gives the range that the text is, if its ports exist. -/
theorem wp_parseRange (text : Str) {Q : Except Exn (Option (ℤ × ℤ)) → σ → ω → Prop}
    (h : ∀ r, (∀ low high, r = .ok (some (low, high)) ↔
      IsRange text low high ∧ 1 ≤ low ∧ low ≤ high ∧ high ≤ 65535) → Q r s w) :
    (parseRange text).run.wp exec I Q s w := by
  simp only [isRange_iff] at h
  rw [parseRange]
  split
  · next low high hpieces =>
    rw [hpieces] at h
    split_ifs with hdigits
    · -- a piece that is not a number
      refine h _ fun low' high' => ?_
      simp only [Bool.or_eq_true, Bool.not_eq_true'] at hdigits
      simp only [Except.ok.injEq, reduceCtorEq, List.cons.injEq, and_true, false_iff]
      rintro ⟨⟨_, _, ⟨rfl, rfl⟩, hlow, hhigh, -⟩, -⟩
      simp [hlow, hhigh] at hdigits
    · simp only [Bool.or_eq_true, Bool.not_eq_true', not_or, Bool.not_eq_false] at hdigits
      -- the pieces that the text determines
      have hrange (low' high' : ℤ) : (∃ lowDigits highDigits,
          [low, high] = [lowDigits, highDigits] ∧
          allDigits lowDigits ∧ allDigits highDigits ∧ intOf lowDigits = some low' ∧
          intOf highDigits = some high') ↔ intOf low = some low' ∧ intOf high = some high' := by
        simp only [List.cons.injEq, and_true]
        constructor
        · rintro ⟨_, _, ⟨rfl, rfl⟩, -, -, hvalues⟩
          exact hvalues
        · exact fun hvalues => ⟨low, high, ⟨rfl, rfl⟩, hdigits.1, hdigits.2, hvalues⟩
      simp only [hrange] at h
      rw [Program.wp_run_bind, intOrRaise]
      cases hlow : intOf low with
      | none => exact h (.error .value) (by simp [hlow])
      | some first =>
        rw [Program.wp_run_pure, Program.handOn_ok, Program.wp_run_bind, intOrRaise]
        cases hhigh : intOf high with
        | none => exact h (.error .value) (by simp [hhigh])
        | some last =>
          refine h _ fun low' high' => ?_
          rw [hlow, hhigh, Except.ok.injEq, Option.some.injEq, Option.some.injEq]
          split_ifs with hbounds
          · simp only [false_iff]
            rintro ⟨⟨rfl, rfl⟩, hvalid⟩
            omega
          · simp only [Option.some.injEq, Prod.mk.injEq]
            refine ⟨fun heq => ⟨heq, ?_⟩, And.left⟩
            obtain ⟨rfl, rfl⟩ := heq
            omega
  · next hpieces =>
    refine h _ fun low' high' => ?_
    simp only [Except.ok.injEq, reduceCtorEq, false_iff]
    rintro ⟨⟨_, _, hsplit, -⟩, -⟩
    exact hpieces _ _ hsplit

/-- The tokens that are digits are read, and one that is too long raises. -/
theorem wp_portsIn (tokens : List Str) {Q : Except Exn (List ℤ) → σ → ω → Prop} :
    (portsIn tokens).run.wp exec I Q s w ↔
      Q (match (tokens.filterMap portDigits).mapM intOf with
        | some ports => .ok ports
        | none => .error .value) s w := by
  induction tokens generalizing Q with
  | nil => rfl
  | cons token tokens ih =>
    rw [portsIn]
    -- a token without a port is passed over
    cases hdigits : portDigits token with
    | none =>
      rw [List.filterMap_cons_none hdigits]
      exact ih
    | some digits =>
      rw [List.filterMap_cons_some hdigits, List.mapM_cons]
      show Program.wp exec I (intOrRaise digits >>= _).run Q s w ↔ _
      rw [Program.wp_run_bind, intOrRaise]
      -- digits that `int` refuses end the reading
      cases hport : intOf digits with
      | none => rfl
      | some port =>
        rw [Program.wp_run_pure, Program.handOn_ok, Program.wp_run_bind, ih]
        cases (tokens.filterMap portDigits).mapM intOf with
        | none => rfl
        | some ports => rfl

end Range

/-! ## The reservation -/

/-- The busy ports that an answer lists; `none` when one of them is too long for `int`. -/
def busyIn (stdout : Str) : Option (List ℤ) :=
  (((splitLines stdout).flatMap split).filterMap portDigits).mapM intOf

/-- The text is a range of existing ports, so many of which are not busy. -/
def HasRoom (text : Str) (busy : List ℤ) (low high : ℤ) (needed : ℕ) : Prop :=
  IsRange text low high ∧ 1 ≤ low ∧ low ≤ high ∧ high ≤ 65535 ∧
    needed ≤ (Finset.Icc low high \ busy.toFinset).card

/-- The mappings give each container port one of the smallest free ports, in order. -/
structure TakesFirst (busy : List ℤ) (low high : ℤ) (ports : List ℤ) (mappings : List PortMapping) :
    Prop where
  containers : mappings.map PortMapping.container = ports
  protocol : ∀ mapping ∈ mappings, mapping.protocol = "tcp".toList
  increasing : (mappings.map PortMapping.host).Pairwise (· < ·)
  inside : ∀ port ∈ mappings.map PortMapping.host, low ≤ port ∧ port ≤ high
  free : ∀ port ∈ mappings.map PortMapping.host, port ∉ busy
  smallest : ∀ other, low ≤ other → other ≤ high → other ∉ busy →
    other ∉ mappings.map PortMapping.host → ∀ port ∈ mappings.map PortMapping.host, port < other

/-- The host ports are taken from the front. -/
theorem map_host_pairUp (hosts ports : List ℤ) :
    (pairUp hosts ports).map PortMapping.host = hosts.take ports.length := by
  induction hosts generalizing ports with
  | nil => simp [pairUp]
  | cons host hosts ih =>
    cases ports with
    | nil => rfl
    | cons port ports => exact congrArg (host :: ·) (ih ports)

/-- With enough host ports every container port has one. -/
theorem map_container_pairUp {hosts ports : List ℤ} (h : ports.length ≤ hosts.length) :
    (pairUp hosts ports).map PortMapping.container = ports := by
  induction hosts generalizing ports with
  | nil =>
    obtain rfl := List.length_eq_zero_iff.mp (Nat.le_zero.mp h)
    rfl
  | cons host hosts ih =>
    cases ports with
    | nil => rfl
    | cons port ports => exact congrArg (port :: ·) (ih (Nat.le_of_succ_le_succ h))

/-- The smallest free ports are taken, in order. -/
theorem takesFirst_pairUp {busy ports : List ℤ} {low high : ℤ}
    (h : ports.length ≤ (freeFrom busy high low).length) :
    TakesFirst busy low high ports (pairUp (freeFrom busy high low) ports) := by
  have hsorted := pairwise_freeFrom busy high low
  have hmem {port : ℤ} (hport : port ∈ (freeFrom busy high low).take ports.length) :=
    mem_freeFrom.mp (List.mem_of_mem_take hport)
  constructor
  case containers => exact map_container_pairUp h
  case protocol =>
    intro mapping hmapping
    rw [pairUp, ← List.map_uncurry_zip_eq_zipWith, List.mem_map] at hmapping
    obtain ⟨_, -, rfl⟩ := hmapping
    rfl
  case increasing =>
    rw [map_host_pairUp]
    exact hsorted.sublist (List.take_sublist _ _)
  case inside =>
    rw [map_host_pairUp]
    exact fun port hport => ⟨(hmem hport).1, (hmem hport).2.1⟩
  case free =>
    rw [map_host_pairUp]
    exact fun port hport => (hmem hport).2.2
  case smallest =>
    rw [map_host_pairUp]
    intro other hlow hhigh hbusy hother port hport
    -- a free port that is not taken comes after those that are
    have hall : other ∈ freeFrom busy high low := mem_freeFrom.mpr ⟨hlow, hhigh, hbusy⟩
    rw [← List.take_append_drop ports.length (freeFrom busy high low)] at hall hsorted
    have hdrop := (List.mem_append.mp hall).resolve_left hother
    exact (List.pairwise_append.mp hsorted).2.2 port hport other hdrop

/-- What `reserve_ports` ends with, where the answer lists the busy ports. -/
theorem wp_reservePorts {σ : Type} {printable : Char → Bool} {spec : JobSpec}
    {answer : CommandResult} {busy : List ℤ} {s : σ}
    (hports : spec.ports = []) (hasks : spec.containerPorts ≠ [])
    (hbusy : busyIn answer.stdout = some busy) :
    (reservePorts printable spec).run.wp (fun _ (_ : Unit) (w : Unit) => some (answer, w))
      (fun _ _ => True) (fun outcome _ _ => ∀ mappings, outcome = .ok (.ok mappings) ↔
        ∃ low high, IsRange spec.portRange low high ∧ 1 ≤ low ∧ low ≤ high ∧ high ≤ 65535 ∧
          assignPorts busy high low spec.containerPorts = some mappings) s () := by
  rw [reservePorts, if_neg (by simp [hports, hasks]), Program.wp_run_bind]
  refine wp_parseRange spec.portRange fun range hrange => ?_
  -- the range that was found is the only one
  have hnone (hno : ∀ low high, range ≠ .ok (some (low, high))) (mappings : List PortMapping) :
      ¬ ∃ low high, IsRange spec.portRange low high ∧ 1 ≤ low ∧ low ≤ high ∧ high ≤ 65535 ∧
        assignPorts busy high low spec.containerPorts = some mappings := by
    rintro ⟨low, high, hspan, hlow, hle, hhigh, -⟩
    exact hno low high ((hrange low high).mpr ⟨hspan, hlow, hle, hhigh⟩)
  match range with
  | .error e =>
    rw [Program.handOn_error]
    exact fun mappings => iff_of_false (by simp) (hnone (by simp) mappings)
  | .ok none =>
    rw [Program.handOn_ok]
    exact fun mappings => iff_of_false (by simp) (hnone (by simp) mappings)
  | .ok (some (first, last)) =>
    rw [Program.handOn_ok, Program.wp_run_bind, usedPorts, Program.wp_run_bind, Raising.wp_send]
    refine ⟨trivial, fun _ r _ hanswer => ?_⟩
    obtain ⟨rfl, -⟩ := Prod.mk.inj (Option.some.inj hanswer)
    rw [Program.handOn_ok, wp_portsIn, ← busyIn, hbusy, Program.handOn_ok]
    have hone (mappings : List PortMapping) : (∃ low high, IsRange spec.portRange low high ∧
        1 ≤ low ∧ low ≤ high ∧ high ≤ 65535 ∧
          assignPorts busy high low spec.containerPorts = some mappings) ↔
        assignPorts busy last first spec.containerPorts = some mappings := by
      constructor
      · rintro ⟨low, high, hspan, hlow, hle, hhigh, hassign⟩
        have hsame := (hrange low high).mpr ⟨hspan, hlow, hle, hhigh⟩
        obtain ⟨rfl, rfl⟩ := Prod.mk.inj (Option.some.inj (Except.ok.inj hsame))
        exact hassign
      · intro hassign
        obtain ⟨hspan, hlow, hle, hhigh⟩ := (hrange first last).mp rfl
        exact ⟨first, last, hspan, hlow, hle, hhigh, hassign⟩
    simp only [hone]
    cases hassign : assignPorts busy last first spec.containerPorts with
    | none =>
      show ∀ mappings, _ ↔ _
      simp
    | some found =>
      show ∀ mappings, _ ↔ _
      simp

/-- **The smallest free ports are reserved.** For every text of a range, list of container ports and
answer that lists the busy ports, a specification that has no ports yet and asks for some gets them
if and only if the text is a range within 1 to 65535 with as many free ports as are asked for. The
host ports are then increasing, in the range, free, one for each container port in the given order,
and every other free port of the range is larger. -/
theorem reservePorts_first {σ : Type} {printable : Char → Bool} {spec : JobSpec}
    {answer : CommandResult} {busy : List ℤ} {os : List Unit} {s s' : σ}
    {outcome : Except Exn (Except Str (List PortMapping))}
    (hports : spec.ports = []) (hasks : spec.containerPorts ≠ [])
    (hbusy : busyIn answer.stdout = some busy)
    (hrun : (reservePorts printable spec).run.run (fun _ _ w => some (answer, w)) os s () =
      some (outcome, s', ())) :
    ((∃ mappings, outcome = .ok (.ok mappings)) ↔
      ∃ low high, HasRoom spec.portRange busy low high spec.containerPorts.length) ∧
    ∀ mappings, outcome = .ok (.ok mappings) →
      ∃ low high, HasRoom spec.portRange busy low high spec.containerPorts.length ∧
        TakesFirst busy low high spec.containerPorts mappings := by
  have houtcome := Program.run_of_wp (wp_reservePorts hports hasks hbusy) hrun
  -- both sides are about the free ports of the range, counted from `high`
  simp only [houtcome, HasRoom, ← length_freeFrom]
  constructor
  · constructor
    · rintro ⟨mappings, low, high, hrange, hlow, hle, hhigh, hassign⟩
      rw [assignPorts_eq] at hassign
      split_ifs at hassign with hroom
      exact ⟨low, high, hrange, hlow, hle, hhigh, hroom⟩
    · rintro ⟨low, high, hrange, hlow, hle, hhigh, hroom⟩
      refine ⟨pairUp (freeFrom busy high low) spec.containerPorts, low, high, hrange, hlow, hle,
        hhigh, ?_⟩
      rw [assignPorts_eq, if_pos hroom]
  · rintro mappings ⟨low, high, hrange, hlow, hle, hhigh, hassign⟩
    rw [assignPorts_eq] at hassign
    split_ifs at hassign with hroom
    refine ⟨low, high, ⟨hrange, hlow, hle, hhigh, hroom⟩, ?_⟩
    rw [← Option.some.inj hassign]
    exact takesFirst_pairUp hroom

/-- A job that asks for two ports of a range. -/
def portJob : JobSpec :=
  { sampleJob with containerPorts := [22, 80], portRange := "20000 - 20009".toList }

/-- The answer of a rig on which the first port of the range is busy. -/
def portAnswer : CommandResult where
  exitCode := 0
  stdout := "LISTEN 0 128 0.0.0.0:20000 0.0.0.0:*\n".toList

theorem reservePorts_first_sample :
    (reservePorts (fun _ => true) portJob).run.run (fun _ _ w => some (portAnswer, w)) [()] () () =
      some (.ok (.ok [⟨20001, 22, "tcp".toList⟩, ⟨20002, 80, "tcp".toList⟩]), (), ()) ∧
    ∃ low high, HasRoom portJob.portRange [20000] low high 2 := by
  have hrun : (reservePorts (fun _ => true) portJob).run.run (fun _ _ w => some (portAnswer, w))
      [()] () () =
        some (.ok (.ok [⟨20001, 22, "tcp".toList⟩, ⟨20002, 80, "tcp".toList⟩]), (), ()) := by
    rfl
  exact ⟨hrun, (reservePorts_first rfl (by decide) (by decide +kernel) hrun).1.mp ⟨_, rfl⟩⟩

end ComputePool.Validator.Containers
