import SsvNode.Spec.Messages
import SsvNode.Lib.ErrorTree

/-!
# Network configuration and clocks

Slots and epochs, forks, round estimates and leaders, as message validation reads them. Times are in
nanoseconds. Products of durations **wrap** (`wrap64`), and differences of times saturate
(`timeSub`): `SlotStartTime` does not guard its product, so that slots far in the future may start
in the past. A call that panics is an error `panicked`.
-/

namespace Ssv.Validation

/-! ### Errors -/

/-- The errors validation tells apart. -/
inductive ErrKind where
  /-- `validation.Error`. -/
  | verdict (text : String) (reject : Bool)
  | deadlineExceeded
  | canceled
  /-- A panic: nothing after it runs. -/
  | panicked (text : String)
  | other (text : String)
  deriving DecidableEq

abbrev Err : Type := ErrorTree ErrKind

namespace Err

/-- An `Error` whose messages are ignored. -/
def ignored (text : String) : Err := .leaf (.verdict text false)

/-- An `Error` whose messages are rejected. -/
def rejected (text : String) : Err := .leaf (.verdict text true)

/-- An `Error` with its `innerErr`: `errors.As` finds the outer one first. -/
def withInner (err inner : Err) : Err := .join err inner

/-- `fmt.Errorf` without a wrapped error. -/
def text (s : String) : Err := .leaf (.other s)

def panicked (s : String) : Err := .leaf (.panicked s)

end Err

/-! ### Roles -/

/-- `spectypes.RunnerRole`, with the deprecated roles of `ssvtypes`. -/
inductive RunnerRole where
  | committee
  | aggregator
  | proposer
  | syncCommitteeContribution
  | validatorRegistration
  | voluntaryExit
  | aggregatorCommittee
  | ptcAttester
  | proposerPreferences
  | unknown (code : Int)
  deriving DecidableEq

/-! ### Durations and times -/

def second : Int := 1000000000

def millisecond : Int := 1000000

/-- An `int64` product or sum of durations. -/
def wrap64 (d : Int) : Int := d.bmod (2 ^ 64)

/-- `Time.Sub`: the difference, or the nearest duration there is. -/
def timeSub (a b : Int) : Int := max (-2 ^ 63) (min (2 ^ 63 - 1) (a - b))

def maxInt64 : ℕ := 2 ^ 63 - 1

/-- What validation reads of `networkconfig.Network`. -/
structure Network where
  name : String
  slotDuration : Int
  slotsPerEpoch : ℕ
  epochsPerSyncCommitteePeriod : ℕ
  syncCommitteeSize : ℕ
  genesisTime : Int
  /-- The epoch of `Forks[DataVersionGloas]`, if the fork is there. -/
  gloasForkEpoch : Option ℕ
  /-- `SSV.Forks.Boole`. -/
  booleForkEpoch : ℕ
  domainType : Bytes
  nextDomainType : Bytes

namespace Network

variable (net : Network)

variable (slot : ℕ)

def slotStartTime : Except Err Int :=
  if slot > maxInt64 then .error (.panicked ("slot " ++ toString slot ++ " out of range"))
  else .ok (net.genesisTime + wrap64 (slot * net.slotDuration))

def estimatedSlotAtTime (time : Int) : Except Err ℕ :=
  if time < net.genesisTime then .error (.panicked "time is before genesis time")
  else .ok ((timeSub time net.genesisTime).tdiv net.slotDuration).toNat

def estimatedEpochAtSlot : ℕ := slot / net.slotsPerEpoch

def isFirstSlotOfEpoch : Bool := slot % net.slotsPerEpoch = 0

def firstSlotAtEpoch (epoch : ℕ) : ℕ := epoch * net.slotsPerEpoch

def estimatedSyncCommitteePeriodAtEpoch (epoch : ℕ) : ℕ := epoch / net.epochsPerSyncCommitteePeriod

def isGloas (epoch : ℕ) : Bool :=
  match net.gloasForkEpoch with
  | none => false
  | some fork => epoch ≥ fork

def isGloasAtSlot : Bool := net.isGloas (net.estimatedEpochAtSlot slot)

def booleForkAtSlot : Bool := net.estimatedEpochAtSlot slot ≥ net.booleForkEpoch

def domainTypeAtSlot : Bytes :=
  if net.booleForkAtSlot slot then net.nextDomainType else net.domainType

def intervalDuration : Int := net.slotDuration.tdiv (if net.isGloasAtSlot slot then 4 else 3)

end Network

/-! ### Rounds -/

namespace Roundtimer

def maxRound : RunnerRole → Option ℕ
  | .committee | .aggregatorCommittee | .aggregator => some 12
  | .proposer => some 2
  | .syncCommitteeContribution => some 6
  | _ => none

variable (role : RunnerRole)

def roundRelativeRole : Bool := role = .proposer

def quickTimeoutThreshold : ℕ := 8

def slowTimeout : Int := 120 * second

/-- `defaultQuickTimeoutForRole`, with `QuickTimeout` and `DefaultProposerQuickTimeout`. -/
def defaultQuickTimeoutForRole : Int :=
  if role = .proposer then 1500 * millisecond else 2 * second

def round1HeadStart (intervalDuration : Int) : Int :=
  match role with
  | .committee => intervalDuration
  | .aggregator | .syncCommitteeContribution | .aggregatorCommittee => wrap64 (2 * intervalDuration)
  | _ => 0

def estimatedRoundAt (intervalDuration timeIntoSlot : Int) : ℕ :=
  let elapsed := wrap64 (timeIntoSlot - round1HeadStart role intervalDuration)
  if elapsed < 0 then firstRound
  else
    let quick := defaultQuickTimeoutForRole role
    let quickEnd := quickTimeoutThreshold * quick
    if elapsed < quickEnd then firstRound + (elapsed.tdiv quick).toNat
    else firstRound + quickTimeoutThreshold + ((elapsed - quickEnd).tdiv slowTimeout).toNat

end Roundtimer

/-! ### Leaders -/

/-- The difference of two `uint64`s. -/
def subUint64 (a b : ℕ) : ℕ := if b ≤ a then a - b else a + 2 ^ 64 - b

/-- `roundRobinProposerPreBooleFork`; `none` stands for the panic on an empty committee. -/
def roundRobinProposerPreBooleFork (height round : ℕ) (committee : List OperatorID) :
    Option OperatorID :=
  let firstRoundIndex := if height ≠ firstHeight then height % committee.length else 0
  committee[subUint64 (firstRoundIndex + round) firstRound % committee.length]?

def roundRobinProposer (height round : ℕ) (committee : List OperatorID) (net : Network) :
    Option OperatorID :=
  let committee := committee.insertionSort (· ≤ ·)
  let ethEpoch := net.estimatedEpochAtSlot height
  let firstRoundIndex := if height ≠ firstHeight then height % committee.length else 0
  committee[subUint64 (firstRoundIndex + round + ethEpoch) firstRound % committee.length]?

def proposer (height round : ℕ) (committee : List OperatorID) (net : Network) : Option OperatorID :=
  if net.booleForkAtSlot height then roundRobinProposer height round committee net
  else roundRobinProposerPreBooleFork height round committee

end Ssv.Validation
