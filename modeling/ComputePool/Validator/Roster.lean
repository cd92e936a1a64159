import Mathlib.Algebra.Order.Ring.Rat
import ComputePool.Foundations.Text

/-!
# The roster

The pool server's view of the rigs, as the validator reads it: `validator/data/tiers.py` and
`validator/data/gpu_table.py` for the tiers and the names of cards, and the fields of a rig that
scoring looks at. A record comes as JSON; a field that is read for its truth value is a `Bool`
here, and a field whose absence is told apart from a false value is an `Option`.
-/

namespace ComputePool.Validator

open Text

/-- `Tier`. -/
inductive Tier
  | entry
  | standard
  | professional
  | flagship
  deriving DecidableEq, Repr

/-- The value of a tier in JSON. -/
def Tier.value : Tier → Str
  | .entry => "entry".toList
  | .standard => "standard".toList
  | .professional => "professional".toList
  | .flagship => "flagship".toList

/-- `Tier(text)`, with `none` for the `ValueError`. -/
def Tier.ofText (text : Str) : Option Tier :=
  [Tier.entry, .standard, .professional, .flagship].find? (·.value = text)

/-- `WorkKind`. -/
inductive WorkKind
  | rental
  | inference
  | shaping
  | mining
  deriving DecidableEq, Repr

/-- The value of a kind in JSON. -/
def WorkKind.value : WorkKind → Str
  | .rental => "rental".toList
  | .inference => "inference".toList
  | .shaping => "shaping".toList
  | .mining => "mining".toList

/-- `PRIORITY`: the kinds of work, the most important first. -/
def priority : List WorkKind :=
  [.rental, .inference, .shaping, .mining]

/-- `NORMALIZATION`: other names of cards on the accepted list. -/
def normalization : List (Str × Str) :=
  [("Tesla V100-SXM2-16GB".toList, "NVIDIA Tesla V100 Tensor Core GPU".toList),
    ("Tesla V100-SXM2-32GB".toList, "NVIDIA Tesla V100 Tensor Core GPU".toList),
    ("Tesla V100-PCIE-16GB".toList, "NVIDIA Tesla V100 Tensor Core GPU".toList),
    ("Tesla V100-PCIE-32GB".toList, "NVIDIA Tesla V100 Tensor Core GPU".toList),
    ("Tesla H100 80GB HBM3".toList, "NVIDIA H100 80GB HBM3".toList),
    ("Tesla T4".toList, "NVIDIA T4 Tensor Core GPU".toList),
    ("NVIDIA T4".toList, "NVIDIA T4 Tensor Core GPU".toList),
    ("NVIDIA A10".toList, "NVIDIA A10 Tensor Core GPU".toList),
    ("NVIDIA A10G".toList, "NVIDIA A10 Tensor Core GPU".toList),
    ("Tesla P100-PCIE-16GB".toList, "NVIDIA Tesla P100".toList),
    ("Tesla P100-PCIE-12GB".toList, "NVIDIA Tesla P100".toList),
    ("Tesla P40".toList, "NVIDIA Tesla P40".toList),
    ("Tesla M40".toList, "NVIDIA Tesla M40".toList),
    ("Tesla M40 24GB".toList, "NVIDIA Tesla M40".toList),
    ("NVIDIA RTX PRO 6000 Blackwell".toList,
      "NVIDIA RTX PRO 6000 Blackwell Workstation Edition".toList)]

/-- `gpu_table.normalize`. -/
def normalizeModel (name : Str) : Str :=
  let clean := strip name
  (normalization.lookup clean).getD clean

/-- A card of a rig. -/
structure Card where
  uuid : Str := []
  model : Str := []
  tier : Str := []
  /-- The truth value of `accepted`; `none` when the card has no such field. -/
  accepted : Option Bool := none
  deriving DecidableEq, Repr

/-- `card.get("accepted", True)`. -/
def Card.isAccepted (card : Card) : Bool :=
  card.accepted.getD true

/-- The state of a rig; the validator tells only the verified ones apart. -/
inductive RigState
  | probation
  | active
  | other (text : Str)
  deriving DecidableEq, Repr

/-- `state in VERIFIED_STATES`. -/
def RigState.verified : RigState → Bool
  | .probation | .active => true
  | .other _ => false

/-- A rig of the roster. -/
structure Rig where
  id : Str := []
  hotkey : Str := []
  state : RigState := .other []
  online : Bool := false
  /-- `passed` of `last_pass`; false when there is no last pass. -/
  lastPassed : Bool := false
  gpus : List Card := []
  isolationVerified : Bool := false
  /-- `uptime_since` in seconds; `none` when it is missing or not a date. -/
  uptimeSince : Option ℚ := none
  /-- `driver` of `spec`. -/
  driver : Str := []
  /-- The kind of each job of the rig. -/
  jobKinds : List Str := []
  rentalOptOut : Bool := false
  deriving DecidableEq, Repr

/-- The cards of a rig that count as capacity. -/
def Rig.acceptedCards (rig : Rig) : List Card :=
  rig.gpus.filter Card.isAccepted

/-- In a verified state, with a passed last pass and at least one accepted card. -/
def Rig.isVerified (rig : Rig) : Bool :=
  rig.state.verified && rig.lastPassed && rig.acceptedCards ≠ []

end ComputePool.Validator
