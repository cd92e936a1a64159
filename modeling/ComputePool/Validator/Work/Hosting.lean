import Mathlib.Data.List.Lex
import ComputePool.Validator.Work.Placement

/-!
# Which rig hosts

The loop of `choose` in `validator/work/placement.py` against what it is for: among the rigs that
can host the work, take one of the best rank.

* `consider_eq_ok_iff`: a round of the loop makes an offer exactly for a rig that can host, and the
  offer takes the first cards of the free, the shareable and the displaceable ones, in this order.
* `choose_best`: a placement is made exactly when some rig can host, and its rank is the least.
* `keepsToAccepted_iff`: the cards are accepted ones exactly when the rigs have no others.
-/

namespace ComputePool.Validator

open Text Protocol

/-! ## The order of ranks -/

/-- The comparison of tuples is the lexicographic order. -/
theorem tupleLe_iff {a b : List ℚ} : tupleLe a b ↔ a ≤ b := by
  induction a generalizing b with
  | nil =>
    have hle : ([] : List ℚ) ≤ b := not_lt.mp (List.not_lt_nil b)
    simp [tupleLe, hle]
  | cons x a ih =>
    cases b with
    | nil =>
      have hlt : ([] : List ℚ) < x :: a := List.nil_lt_cons x a
      simp [tupleLe, not_le.mpr hlt]
    | cons y b =>
      -- the source compares the first elements and goes on while they are equal
      have hcons : x :: a < y :: b ↔ x < y ∨ x = y ∧ a < b := List.cons_lt_cons_iff
      rw [le_iff_lt_or_eq, hcons, List.cons.injEq]
      simp only [tupleLe, Bool.or_eq_true, Bool.and_eq_true, decide_eq_true_eq, ih,
        le_iff_lt_or_eq]
      tauto

/-- The first item after sorting has the least key. -/
theorem key_le_of_insertionSort {α : Type} {key : α → List ℚ} {items rest : List α} {best : α}
    (h : items.insertionSort (fun a b => tupleLe (key a) (key b)) = best :: rest) :
    best ∈ items ∧ ∀ item ∈ items, key best ≤ key item := by
  have hmem {item : α} : item ∈ items ↔ item = best ∨ item ∈ rest := by
    rw [← List.mem_insertionSort (fun a b => tupleLe (key a) (key b)), h, List.mem_cons]
  have htotal : Std.Total fun a b : α => (tupleLe (key a) (key b) : Prop) :=
    ⟨fun a b => by simpa only [tupleLe_iff] using le_total (key a) (key b)⟩
  have htrans : IsTrans α fun a b => (tupleLe (key a) (key b) : Prop) :=
    ⟨fun a b c => by simpa only [tupleLe_iff] using le_trans⟩
  have hsorted := List.pairwise_insertionSort (fun a b => (tupleLe (key a) (key b) : Prop)) items
  rw [h, List.pairwise_cons] at hsorted
  refine ⟨hmem.mpr (Or.inl rfl), fun item hitem => ?_⟩
  rcases hmem.mp hitem with rfl | hrest
  · exact le_refl _
  · exact tupleLe_iff.mp (hsorted.1 item hrest)

/-! ## Rigs that can host -/

/-- A rig without a reason against it is eligible. -/
theorem ineligibleReason_eq_nil_iff {rig : WorkRig} {kind : WorkKind} :
    ineligibleReason rig kind = [] ↔ Eligible rig kind := by
  refine ⟨eligible_of_ineligibleReason, fun h => ?_⟩
  obtain ⟨entry, hentry, heligible⟩ := h.record
  have hrental : (kind = .rental && rig.rentalOptOut) = false := by
    by_cases hkind : kind = .rental
    · simp [hkind, h.rental hkind]
    · simp [hkind]
  simp [ineligibleReason, h.verified, h.online, h.notDraining, hrental, hentry, heligible]

/-- The jobs of a rig. -/
def jobsOf (jobsByRig : Dict Str (List JobRecord)) (rig : WorkRig) : List JobRecord :=
  (jobsByRig.get? rig.id).getD []

/-- The number of cards a placement needs. -/
def neededCards (gpuCount : ℤ) : ℕ :=
  (max 1 gpuCount).toNat

/-- The cards that work of the kind can get, in the order in which they are given out. -/
def offeredCards (kind : WorkKind) (rig : WorkRig) (jobs : List JobRecord) : List Str :=
  freeCards rig jobs ++ shareableCards kind rig jobs ++ displaceableCards kind rig jobs

/-- The rig is eligible, has exactly the number of cards when all of it is asked for, and has enough
cards to give. -/
structure CanHost (kind : WorkKind) (needed : ℕ) (jobs : List JobRecord) (wholeNode : Bool)
    (rig : WorkRig) : Prop where
  eligible : Eligible rig kind
  whole : wholeNode → rig.uuids.dedup.length = needed
  enough : needed ≤ (freeCards rig jobs).length + (shareableCards kind rig jobs).length +
    (displaceableCards kind rig jobs).length

/-- The jobs that make room when so many cards are needed, card by card. -/
def makeRoom (kind : WorkKind) (needed : ℕ) (rig : WorkRig) (jobs : List JobRecord) : List Str :=
  ((displaceableCards kind rig jobs).take
    (needed - ((freeCards rig jobs).length + (shareableCards kind rig jobs).length))).flatMap
      fun uuid => (((occupancy rig jobs).get? uuid).getD []).map JobRecord.jobId

/-- What a rig that can host offers. -/
def placementOn (kind : WorkKind) (needed : ℕ) (rig : WorkRig) (jobs : List JobRecord) :
    Placement where
  rigId := rig.id
  gpuUuids := (offeredCards kind rig jobs).take needed
  displaced := sortedSet (makeRoom kind needed rig jobs)

/-- The rank of the offer. -/
def rankOn (kind : WorkKind) (needed : ℕ) (ledger : Option UptimeLedger) (rig : WorkRig)
    (jobs : List JobRecord) : List ℚ :=
  rankRig rig ((freeCards rig jobs).length - needed) (makeRoom kind needed rig jobs).length ledger

/-- The table has one row for each card. -/
theorem length_occupancy (rig : WorkRig) (jobs : List JobRecord) :
    (occupancy rig jobs).length = rig.uuids.dedup.length := by
  have htable := isTable_occupancy rig jobs
  have hperm : List.Perm (occupancy rig jobs).keys rig.uuids.dedup := by
    apply (List.perm_ext_iff_of_nodup htable.nodup (List.nodup_dedup _)).mpr
    intro uuid
    rw [htable.keys, List.mem_dedup]
  rw [← hperm.length_eq, Dict.keys, List.length_map]

section Slices

variable (kind : WorkKind) (needed : ℕ) (rig : WorkRig) (jobs : List JobRecord)

/-- What is still missing after the free cards. -/
theorem missing_after_free :
    needed - ((freeCards rig jobs).take needed).length = needed - (freeCards rig jobs).length := by
  rw [List.length_take]
  omega

/-- What is still missing after the shareable cards. -/
theorem missing_after_shareable :
    needed - ((freeCards rig jobs).take needed ++
      (shareableCards kind rig jobs).take (needed - (freeCards rig jobs).length)).length =
        needed - ((freeCards rig jobs).length + (shareableCards kind rig jobs).length) := by
  rw [List.length_append, List.length_take, List.length_take]
  omega

/-- The three slices are the start of the three lists put together. -/
theorem slices_eq :
    (freeCards rig jobs).take needed ++
      (shareableCards kind rig jobs).take (needed - (freeCards rig jobs).length) ++
      (displaceableCards kind rig jobs).take
        (needed - ((freeCards rig jobs).length + (shareableCards kind rig jobs).length)) =
    (offeredCards kind rig jobs).take needed := by
  rw [offeredCards, List.take_append, List.take_append, List.length_append]

theorem length_take_offeredCards :
    ((offeredCards kind rig jobs).take needed).length = min needed ((freeCards rig jobs).length +
      (shareableCards kind rig jobs).length + (displaceableCards kind rig jobs).length) := by
  rw [List.length_take, offeredCards, List.length_append, List.length_append]

end Slices

/-- A round of the loop makes an offer exactly for a rig that can host. -/
theorem consider_eq_ok_iff {kind : WorkKind} {needed : ℕ} {jobsByRig : Dict Str (List JobRecord)}
    {ledger : Option UptimeLedger} {wholeNode : Bool} {rig : WorkRig}
    {offer : List ℚ × Placement} :
    consider kind needed jobsByRig ledger wholeNode rig = .ok offer ↔
      CanHost kind needed (jobsOf jobsByRig rig) wholeNode rig ∧
        offer = (rankOn kind needed ledger rig (jobsOf jobsByRig rig),
          placementOn kind needed rig (jobsOf jobsByRig rig)) := by
  rw [consider, ← jobsOf]
  generalize jobsOf jobsByRig rig = jobs
  -- the three lists that `consider` fills, one after the other
  simp only [← freeCards.eq_1, ← shareableCards.eq_1, ← displaceableCards.eq_1,
    missing_after_free, missing_after_shareable, slices_eq]
  have hlength := length_take_offeredCards kind needed rig jobs
  split_ifs with hreason hnode hcount
  · -- not eligible
    simp only [false_iff, not_and]
    exact fun h => absurd (ineligibleReason_eq_nil_iff.mpr h.eligible) hreason
  · -- not the number of cards of the whole node
    simp only [false_iff, not_and]
    rw [Bool.and_eq_true, decide_eq_true_eq, length_occupancy] at hnode
    exact fun h => absurd (h.whole hnode.1) hnode.2
  · -- too few cards
    simp only [false_iff, not_and]
    intro h
    have henough := h.enough
    omega
  -- nothing stands against the rig
  · have hhost : CanHost kind needed jobs wholeNode rig := by
      constructor
      case eligible => exact ineligibleReason_eq_nil_iff.mp (not_not.mp hreason)
      case whole =>
        intro hwhole
        rw [hwhole, Bool.true_and, decide_eq_true_eq, not_not, length_occupancy] at hnode
        exact hnode
      case enough => omega
    have hneeded : ((offeredCards kind rig jobs).take needed).length = needed := by omega
    rw [hneeded, Except.ok.injEq, and_iff_right hhost]
    exact eq_comm

/-! ## The best rig -/

section Choose

variable {printable : Char → Bool} {kindText : Str} {kind : WorkKind} {gpuCount : ℤ}
  {roster : List WorkRig} {jobsByRig : Dict Str (List JobRecord)} {ledger : Option UptimeLedger}
  {wholeNode : Bool}

/-- The offers are those of the rigs that can host the work. -/
theorem mem_candidates {needed : ℕ} {offer : List ℚ × Placement} :
    offer ∈ (roster.map (consider kind needed jobsByRig ledger wholeNode)).filterMap
        Except.toOption ↔
      ∃ rig ∈ roster, CanHost kind needed (jobsOf jobsByRig rig) wholeNode rig ∧
        offer = (rankOn kind needed ledger rig (jobsOf jobsByRig rig),
          placementOn kind needed rig (jobsOf jobsByRig rig)) := by
  -- a refusal is no candidate
  have hoption (outcome : Except Str (List ℚ × Placement)) :
      outcome.toOption = some offer ↔ outcome = .ok offer := by
    cases outcome with
    | error reason => simp [Except.toOption]
    | ok value => simp [Except.toOption]
  simp only [List.mem_filterMap, List.mem_map, hoption, ← consider_eq_ok_iff]
  constructor
  · rintro ⟨_, ⟨rig, hrig, rfl⟩, hok⟩
    exact ⟨rig, hrig, hok⟩
  · rintro ⟨rig, hrig, hok⟩
    exact ⟨_, ⟨rig, hrig, rfl⟩, hok⟩

variable (printable gpuCount roster jobsByRig ledger wholeNode) in
/-- Either no rig can host and nothing is placed, or the offer of a rig that can host is taken whose
rank is the least. -/
theorem choose_cases (hkind : kindOf kindText = some kind) :
    ((¬ ∃ rig ∈ roster, CanHost kind (neededCards gpuCount) (jobsOf jobsByRig rig)
        wholeNode rig) ∧
      (choose printable kindText gpuCount roster jobsByRig ledger wholeNode).ok = false) ∨
    ∃ rig ∈ roster, CanHost kind (neededCards gpuCount) (jobsOf jobsByRig rig)
        wholeNode rig ∧
      choose printable kindText gpuCount roster jobsByRig ledger wholeNode =
        placementOn kind (neededCards gpuCount) rig (jobsOf jobsByRig rig) ∧
      ∀ other ∈ roster, CanHost kind (neededCards gpuCount)
          (jobsOf jobsByRig other) wholeNode other →
        rankOn kind (neededCards gpuCount) ledger rig (jobsOf jobsByRig rig) ≤
          rankOn kind (neededCards gpuCount) ledger other (jobsOf jobsByRig other) := by
  rw [choose, hkind]
  dsimp only
  rw [show (max 1 gpuCount).toNat = neededCards gpuCount from rfl]
  -- the first of the sorted offers, if there is one
  split
  · next hnil =>
    left
    refine ⟨?_, by simp [Placement.ok]⟩
    rintro ⟨rig, hrig, hhost⟩
    rw [List.eq_nil_iff_forall_not_mem] at hnil
    exact hnil _ ((List.mem_insertionSort _).mpr (mem_candidates.mpr ⟨rig, hrig, hhost, rfl⟩))
  · next best rest hsorted =>
    right
    obtain ⟨hbest, hleast⟩ := key_le_of_insertionSort hsorted
    obtain ⟨rig, hrig, hhost, rfl⟩ := mem_candidates.mp hbest
    exact ⟨rig, hrig, hhost, rfl, fun other hother hhost' =>
      hleast _ (mem_candidates.mpr ⟨other, hother, hhost', rfl⟩)⟩

/-- The offer of a rig that can host is a placement. -/
theorem ok_placementOn {rig : WorkRig} {jobs : List JobRecord} (hid : rig.id ≠ [])
    (hhost : CanHost kind (neededCards gpuCount) jobs wholeNode rig) :
    (placementOn kind (neededCards gpuCount) rig jobs).ok := by
  have hlength := length_take_offeredCards kind (neededCards gpuCount) rig jobs
  have henough := hhost.enough
  have hpos : 1 ≤ neededCards gpuCount := by
    rw [neededCards]
    omega
  have hne : (offeredCards kind rig jobs).take (neededCards gpuCount) ≠ [] := by
    rw [← List.length_pos_iff]
    omega
  simp [Placement.ok, placementOn, hid, hne]

/-- Nobody makes room where the free and the shareable cards are enough. -/
theorem makeRoom_eq_nil {needed : ℕ} {rig : WorkRig} {jobs : List JobRecord}
    (h : needed ≤ (freeCards rig jobs).length + (shareableCards kind rig jobs).length) :
    makeRoom kind needed rig jobs = [] := by
  rw [makeRoom, Nat.sub_eq_zero_of_le h, List.take_zero, List.flatMap_nil]

/-- The rank counts first who makes room. -/
theorem length_makeRoom_le {needed : ℕ} {rig other : WorkRig} {jobs jobs' : List JobRecord}
    (h : rankOn kind needed ledger rig jobs ≤ rankOn kind needed ledger other jobs') :
    (makeRoom kind needed rig jobs).length ≤ (makeRoom kind needed other jobs').length := by
  rw [← tupleLe_iff, rankOn, rankOn, rankRig, rankRig, tupleLe, Bool.or_eq_true, Bool.and_eq_true,
    decide_eq_true_eq, decide_eq_true_eq] at h
  have hle : ((makeRoom kind needed rig jobs).length : ℚ) ≤
      (makeRoom kind needed other jobs').length := by
    rcases h with hlt | ⟨heq, -⟩
    · exact hlt.le
    · exact heq.le
  exact_mod_cast hle

/-- Whoever is displaced, no free and no shareable card is left. -/
theorem subset_gpuUuids_of_displaced {needed : ℕ} {rig : WorkRig} {jobs : List JobRecord}
    (h : (placementOn kind needed rig jobs).displaced ≠ []) :
    freeCards rig jobs ++ shareableCards kind rig jobs ⊆
      (placementOn kind needed rig jobs).gpuUuids := by
  have hlt : (freeCards rig jobs ++ shareableCards kind rig jobs).length < needed := by
    by_contra hle
    rw [List.length_append, not_lt] at hle
    exact h (by rw [placementOn, makeRoom_eq_nil hle]; rfl)
  intro uuid huuid
  rw [placementOn, offeredCards, List.take_append]
  apply List.mem_append_left
  rw [List.take_of_length_le hlt.le]
  exact huuid

/-- **The best rig is chosen.** For every kind, number of cards, ledger, table of jobs and roster of
rigs with ids, a placement is made exactly when some rig can host the work. It is what a rig offers
that can host and has the least rank among those that can; where one of them needs to displace
nobody, nobody is displaced, and whoever is displaced leaves no free or shareable card of the rig
unused. -/
theorem choose_best (hids : ∀ rig ∈ roster, rig.id ≠ []) :
    ((choose printable kindText gpuCount roster jobsByRig ledger wholeNode).ok ↔
      ∃ kind, kindOf kindText = some kind ∧ ∃ rig ∈ roster,
        CanHost kind (neededCards gpuCount) (jobsOf jobsByRig rig) wholeNode rig) ∧
    ∀ p, choose printable kindText gpuCount roster jobsByRig ledger wholeNode = p → p.ok →
      ∃ kind, kindOf kindText = some kind ∧ ∃ rig ∈ roster,
        CanHost kind (neededCards gpuCount) (jobsOf jobsByRig rig) wholeNode rig ∧
        p = placementOn kind (neededCards gpuCount) rig (jobsOf jobsByRig rig) ∧
        (∀ other ∈ roster,
          CanHost kind (neededCards gpuCount) (jobsOf jobsByRig other) wholeNode other →
            rankOn kind (neededCards gpuCount) ledger rig (jobsOf jobsByRig rig) ≤
              rankOn kind (neededCards gpuCount) ledger other (jobsOf jobsByRig other)) ∧
        (∀ other ∈ roster,
          CanHost kind (neededCards gpuCount) (jobsOf jobsByRig other) wholeNode other →
          neededCards gpuCount ≤ (freeCards other (jobsOf jobsByRig other)).length +
            (shareableCards kind other (jobsOf jobsByRig other)).length → p.displaced = []) ∧
        (p.displaced ≠ [] → freeCards rig (jobsOf jobsByRig rig) ++
          shareableCards kind rig (jobsOf jobsByRig rig) ⊆ p.gpuUuids) := by
  cases hkind : kindOf kindText with
  -- an unknown kind of work is placed nowhere
  | none =>
    have hok : (choose printable kindText gpuCount roster jobsByRig ledger wholeNode).ok =
        false := by simp [choose, hkind, Placement.ok]
    exact ⟨by simp [hok], fun p hp hpok => by simp [← hp, hok] at hpok⟩
  | some kind =>
    rcases choose_cases printable gpuCount roster jobsByRig ledger wholeNode hkind with
      ⟨hnone, hok⟩ | ⟨rig, hrig, hhost, hchoose, hleast⟩
    · refine ⟨?_, fun p hp hpok => by simp [← hp, hok] at hpok⟩
      simpa [hok] using hnone
    · rw [hchoose]
      have hok := ok_placementOn (hids rig hrig) hhost
      refine ⟨iff_of_true hok ⟨kind, rfl, rig, hrig, hhost⟩, ?_⟩
      rintro p rfl -
      refine ⟨kind, rfl, rig, hrig, hhost, rfl, hleast, ?_, subset_gpuUuids_of_displaced⟩
      -- a rig with room for the work would have a better rank than one that displaces
      intro other hother hhost' henough
      have hzero := length_makeRoom_le (hleast other hother hhost')
      rw [makeRoom_eq_nil henough, List.length_nil, Nat.le_zero, List.length_eq_zero_iff] at hzero
      rw [placementOn, hzero]
      rfl

theorem choose_best_halfBusy :
    (∀ rig ∈ [WorkRig.halfBusy], rig.id ≠ []) ∧
      (choose (fun _ => true) "shaping".toList 2 [WorkRig.halfBusy]
        [("r".toList, [JobRecord.miner])] none true).ok := by
  have hids : ∀ rig ∈ [WorkRig.halfBusy], rig.id ≠ [] := by decide
  refine ⟨hids, (choose_best hids).1.mpr ⟨.shaping, by decide, _, List.mem_singleton_self _, ?_⟩⟩
  exact ⟨ineligibleReason_eq_nil_iff.mp (by decide +kernel), by decide +kernel, by decide +kernel⟩

end Choose

/-! ## Accepted cards -/

/-- The uuids of the cards that scoring counts as capacity. -/
def WorkRig.acceptedUuids (rig : WorkRig) : List Str :=
  (rig.acceptedCards.map Card.uuid).filter (· ≠ [])

/-- A placement keeps to the cards that scoring counts: it is on these only, and a whole node is as
many cards as scoring counts. -/
structure KeepsToAccepted (gpuCount : ℤ) (wholeNode : Bool) (rig : WorkRig) (p : Placement) :
    Prop where
  cards : ∀ uuid ∈ p.gpuUuids, uuid ∈ rig.acceptedUuids
  whole : wholeNode → rig.acceptedUuids.dedup.length = neededCards gpuCount

/-- Accepted cards are cards of the rig. -/
theorem acceptedUuids_subset (rig : WorkRig) : rig.acceptedUuids ⊆ rig.uuids := by
  intro uuid h
  simp only [WorkRig.acceptedUuids, Rig.acceptedCards, WorkRig.uuids, List.mem_filter,
    List.mem_map] at h ⊢
  obtain ⟨⟨card, hcard, rfl⟩, hne⟩ := h
  exact ⟨⟨card, hcard.1, rfl⟩, hne⟩

/-- On a rig without jobs every card is free. -/
theorem mem_freeCards_nil {rig : WorkRig} {uuid : Str} :
    uuid ∈ freeCards rig [] ↔ uuid ∈ rig.uuids := by
  refine ⟨mem_uuids_of_mem_usable, fun h => ?_⟩
  have hkeys := ((isTable_occupancy rig []).keys uuid).mpr h
  obtain ⟨existing, hentry⟩ := Dict.mem_keys.mp hkeys
  refine mem_usable.mpr ⟨existing, hentry, decide_eq_true ?_⟩
  rw [List.eq_nil_iff_forall_not_mem]
  exact fun job hjob => List.not_mem_nil ((mem_occupancy hentry).mp hjob).1

/-- Without jobs every card is free. -/
theorem length_freeCards_nil (rig : WorkRig) :
    (freeCards rig []).length = rig.uuids.dedup.length := by
  refine List.Perm.length_eq ((List.perm_ext_iff_of_nodup (nodup_usable _) (List.nodup_dedup _)).mpr
    fun uuid => ?_)
  rw [List.mem_dedup]
  exact mem_freeCards_nil

theorem kindOf_value (kind : WorkKind) : kindOf kind.value = some kind := by
  cases kind <;> decide

/-- An eligible rig alone in the roster, without jobs, gives all its cards to work that asks for
so many. -/
theorem choose_all_cards {printable : Char → Bool} {kind : WorkKind} {rig : WorkRig}
    (heligible : Eligible rig kind) (hcards : rig.uuids ≠ []) :
    ∃ p, choose printable kind.value rig.uuids.dedup.length [rig] [] none false = p ∧
      p.rigId = rig.id ∧ ∀ uuid ∈ rig.uuids, uuid ∈ p.gpuUuids := by
  -- asking for as many cards as the rig has
  have hpos : 1 ≤ rig.uuids.dedup.length := by
    rw [Nat.one_le_iff_ne_zero, Ne, List.length_eq_zero_iff, List.dedup_eq_nil]
    exact hcards
  have hneeded : neededCards rig.uuids.dedup.length = (freeCards rig []).length := by
    rw [length_freeCards_nil, neededCards]
    omega
  have hhost : CanHost kind (neededCards rig.uuids.dedup.length) (jobsOf [] rig) false rig := by
    refine ⟨heligible, by simp, ?_⟩
    rw [hneeded]
    show (freeCards rig []).length ≤ (freeCards rig []).length + _ + _
    omega
  rcases choose_cases printable rig.uuids.dedup.length [rig] [] none false (kindOf_value kind) with
    ⟨hnone, -⟩ | ⟨_, hmem, -, hchoose, -⟩
  · exact absurd ⟨rig, List.mem_singleton_self rig, hhost⟩ hnone
  -- the one rig is chosen, with all that is free on it
  · obtain rfl := List.mem_singleton.mp hmem
    refine ⟨_, hchoose, rfl, fun uuid huuid => ?_⟩
    rw [hneeded]
    show uuid ∈ (freeCards _ [] ++ _ ++ _).take _
    rw [List.append_assoc, List.take_left]
    exact mem_freeCards_nil.mpr huuid

/-- **Placement keeps to accepted cards exactly where there are no others.** Take any fleet and kind
of work. Every placement, for every roster of rigs of the fleet, number of cards, table of jobs and
ledger, keeps to the cards that scoring counts if and only if every eligible rig of the fleet has
no card but these. -/
theorem keepsToAccepted_iff (printable : Char → Bool) (kind : WorkKind) (fleet : List WorkRig) :
    (∀ roster ⊆ fleet, ∀ gpuCount jobsByRig ledger wholeNode p,
      choose printable kind.value gpuCount roster jobsByRig ledger wholeNode = p → p.ok →
        ∃ rig ∈ roster, p.rigId = rig.id ∧ KeepsToAccepted gpuCount wholeNode rig p) ↔
      ∀ rig ∈ fleet, rig.id ≠ [] → Eligible rig kind → rig.uuids ⊆ rig.acceptedUuids := by
  constructor
  -- asked for all its cards, an eligible rig gives them all out
  · intro h rig hrig hid heligible uuid huuid
    obtain ⟨p, hp, hrigId, hall⟩ := choose_all_cards heligible (List.ne_nil_of_mem huuid)
    have hok : p.ok := by
      simp [Placement.ok, hrigId, hid, List.ne_nil_of_mem (hall uuid huuid)]
    obtain ⟨other, hother, -, hkeeps⟩ := h [rig] (by simpa using hrig) _ _ _ _ p hp hok
    rw [List.mem_singleton.mp hother] at hkeeps
    exact hkeeps.cards uuid (hall uuid huuid)
  · intro h roster hroster gpuCount jobsByRig ledger wholeNode p hp hok
    rcases choose_cases printable gpuCount roster jobsByRig ledger wholeNode (kindOf_value kind)
      with ⟨-, hnone⟩ | ⟨rig, hrig, hhost, hchoose, -⟩
    · rw [hp, hok] at hnone
      exact Bool.noConfusion hnone
    · obtain rfl := hp.symm.trans hchoose
      have hid : rig.id ≠ [] := by
        simp only [Placement.ok, Bool.and_eq_true, decide_eq_true_eq] at hok
        exact hok.1
      have hsub := h rig (hroster hrig) hid hhost.eligible
      refine ⟨rig, hrig, rfl, fun uuid huuid => hsub ?_, fun hwhole => ?_⟩
      · -- a card that is given out is a card of the rig
        rcases List.mem_append.mp (List.mem_of_mem_take huuid) with hmem | hmem
        · rcases List.mem_append.mp hmem with hmem | hmem
          · exact mem_uuids_of_mem_usable hmem
          · exact mem_uuids_of_mem_usable hmem
        · exact mem_uuids_of_mem_usable hmem
      -- a whole node has as many cards as the rig has accepted ones
      · rw [← hhost.whole hwhole]
        refine List.Perm.length_eq ((List.perm_ext_iff_of_nodup (List.nodup_dedup _)
          (List.nodup_dedup _)).mpr fun uuid => ?_)
        rw [List.mem_dedup, List.mem_dedup]
        exact ⟨fun hmem => acceptedUuids_subset rig hmem, fun hmem => hsub hmem⟩

/-- A rig with a card that is not accepted. -/
def WorkRig.smallCard : WorkRig where
  id := "r".toList
  state := .active
  online := true
  gpus := [{ uuid := "g0".toList, accepted := some false }]
  eligibility := [("mining".toList, { eligible := true })]

theorem unaccepted_card_assigned :
    ∃ p, choose (fun _ => true) "mining".toList 1 [WorkRig.smallCard] [] none true = p ∧ p.ok ∧
      p.rigId = WorkRig.smallCard.id ∧ p.gpuUuids = ["g0".toList] ∧
      WorkRig.smallCard.gpus = [{ uuid := "g0".toList, accepted := some false }] ∧
      ¬ KeepsToAccepted 1 true WorkRig.smallCard p := by
  refine ⟨_, rfl, by decide +kernel, by decide +kernel, by decide +kernel, rfl, fun h => ?_⟩
  exact absurd (h.whole rfl) (by decide +kernel)

end ComputePool.Validator
