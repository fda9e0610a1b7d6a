import SsvNode.Validation.Errors
import SsvNode.Validation.SignerState
import SsvNode.Lib.Checks

/-!
# Checks common to all messages

`common_checks.go` and the sizes of `validation.go`: when a slot is acceptable, how many duties a
signer may have in an epoch, and whether a validator has the duty a message is for. What a check
reads of the node's stores and clocks at the moment of the message is a `Receipt`.
-/

namespace Ssv.Validation

open Checks (require)

/-! ### What a message meets -/

/-- Where the code asks its context for an error. -/
inductive Checkpoint where
  | validate
  | pubsub
  | signed
  | lock
  | verify
  | signature (i : ℕ)
  deriving DecidableEq

/-- What validation reads of an `SSVShare`. -/
structure Share where
  committeeID : Bytes
  committee : List OperatorID
  validatorIndex : ℕ
  liquidated : Bool
  /-- `HasBeaconMetadata`: the status is known. -/
  hasBeaconMetadata : Bool
  statusIsAttesting : Bool
  /-- The status is `PendingQueued`. -/
  pendingQueued : Bool
  activationEpoch : ℕ
  booleCommitteeSubnet : ℕ
  alanCommitteeSubnet : ℕ

def Share.isAttesting (s : Share) (epoch : ℕ) : Bool :=
  if s.liquidated || !s.hasBeaconMetadata then false
  else if s.statusIsAttesting then true
  else s.pendingQueued && decide (s.activationEpoch ≤ epoch)

/-- What validation reads of a `registrystorage.Committee`. -/
structure Committee where
  operators : List OperatorID
  indices : List ℕ
  booleCommitteeSubnet : ℕ
  alanCommitteeSubnet : ℕ

/-- What is read of the outside while a message is validated. -/
structure Receipt where
  topic : String
  receivedFrom : PeerID
  receivedAt : Int
  /-- `time.Now()`. -/
  now : Int
  /-- `ctx.Err()`: whether the deadline is exceeded or the context cancelled. -/
  ctxErr : Checkpoint → Option Err
  operatorsExist : OperatorID → Except Err Bool
  validator : Bytes → Option Share
  committee : Bytes → Option Committee
  /-- `dutyStore.Proposer.IsEpochSet`. -/
  proposerIsEpochSet : ℕ → Bool
  /-- `dutyStore.Proposer.IsEpochStale`. -/
  proposerIsEpochStale : ℕ → Bool
  /-- `dutyStore.Proposer.ValidatorDuty` finds one. -/
  proposerDuty : ℕ → ℕ → ℕ → Bool
  /-- `dutyStore.SyncCommittee.Duty` finds one. -/
  syncCommitteeDuty : ℕ → ℕ → Bool
  /-- `dutyStore.PTC.IsEpochSet`. -/
  ptcIsEpochSet : ℕ → Bool
  /-- `dutyStore.PTC.ValidatorDuty` finds one. -/
  ptcDuty : ℕ → ℕ → ℕ → Bool
  /-- `dutyStore.VoluntaryExit.GetDutyCount`. -/
  voluntaryExitDutyCount : ℕ → Bytes → ℕ
  verifySignature : OperatorID → SSVMessage → Bytes → Except Err Unit

/-- `ctx.Err()` as a check. -/
def Receipt.checkCtx (rc : Receipt) (c : Checkpoint) : Except Err Unit :=
  match rc.ctxErr c with
  | none => .ok ()
  | some e => .error e

structure CommitteeInfo where
  committeeID : Bytes
  committee : List OperatorID
  validatorIndices : List ℕ
  subnet : ℕ
  subnetAlan : ℕ

/-- `signerIndices`, the map of `newCommitteeInfo`. -/
def signerIndices (operators : List OperatorID) (signer : OperatorID) : ℕ :=
  operators.zipIdx.foldl (fun idx p ↦ if p.1 = signer then p.2 else idx) 0

def CommitteeInfo.signerIndex (ci : CommitteeInfo) (signer : OperatorID) : ℕ :=
  signerIndices ci.committee signer

/-! ### Roles and sizes -/

def lateMessageMargin : Int := 3 * second

def clockErrorTolerance : Int := 50 * millisecond

def earlyMessageMargin : Int := second

def lateSlotAllowance : ℕ := 2

def proposerPreferencesEarlyEpochs : ℕ := 2

def committeeRole (role : RunnerRole) : Bool := role = .committee || role = .aggregatorCommittee

def monotonicSlotRole (role : RunnerRole) : Bool :=
  !committeeRole role && role ≠ .proposerPreferences

variable (net : Network)

def maxStoredSlots : ℕ := net.slotsPerEpoch + lateSlotAllowance

def storedSlotCount (role : RunnerRole) : ℕ :=
  if role = .proposerPreferences then
    proposerPreferencesEarlyEpochs * net.slotsPerEpoch + lateSlotAllowance + 1
  else maxStoredSlots net

def storedEpochCount : RunnerRole → ℕ
  | .proposerPreferences => proposerPreferencesEarlyEpochs + 1
  | .committee | .aggregatorCommittee | .aggregator => 3
  | _ => 2

/-! ### Slot times -/

def messageEarliness (slot : ℕ) (role : RunnerRole) (receivedAt : Int) : Except Err Int := do
  let expectedFrom ← net.slotStartTime slot
  if role = .proposerPreferences then
    let epoch := net.estimatedEpochAtSlot slot
    let lookback := proposerPreferencesEarlyEpochs - 1
    let epoch := if epoch ≥ lookback then epoch - lookback else 0
    let expectedFrom ← net.slotStartTime (net.firstSlotAtEpoch epoch)
    return timeSub expectedFrom receivedAt
  else return timeSub expectedFrom receivedAt

/-- The slots a role's messages may be late; `none` for no bound. -/
def latenessTTL : RunnerRole → Option ℕ
  | .proposer | .ptcAttester | .syncCommitteeContribution => some (1 + lateSlotAllowance)
  | .committee | .aggregatorCommittee | .aggregator => some (maxStoredSlots net)
  | .proposerPreferences => some lateSlotAllowance
  | .validatorRegistration | .voluntaryExit | .unknown _ => none

/-- `messageLateness`. The sum does not wrap: `messageEarliness` has found a start time for the
slot. -/
def messageLateness (slot : ℕ) (role : RunnerRole) (receivedAt : Int) : Except Err Int :=
  match latenessTTL net role with
  | none => return 0
  | some ttl => do
    let start ← net.slotStartTime (slot + ttl)
    return timeSub receivedAt (start + lateMessageMargin)

def validateSlotTime (messageSlot : ℕ) (role : RunnerRole) (receivedAt : Int) :
    Except Err Unit := do
  let earliness ← messageEarliness net messageSlot role receivedAt
  require (¬ earliness > clockErrorTolerance + earlyMessageMargin) errEarlySlotMessage
  let lateness ← messageLateness net messageSlot role receivedAt
  require (¬ lateness > clockErrorTolerance) errLateSlotMessage

/-! ### Duties -/

variable (rc : Receipt)

/-- `dutyLimit`, for a role and the duty executor of the message ID. -/
def dutyLimit (role : RunnerRole) (dutyExecutorID : Bytes) (slot : ℕ) (validatorIndices : List ℕ) :
    Option ℕ :=
  match role with
  | .voluntaryExit => some (rc.voluntaryExitDutyCount slot dutyExecutorID)
  | .aggregator | .validatorRegistration | .ptcAttester => some 2
  | .committee | .aggregatorCommittee =>
    let validatorIndexCount := validatorIndices.length
    let period := net.estimatedSyncCommitteePeriodAtEpoch (net.estimatedEpochAtSlot slot)
    if validatorIndexCount < net.slotsPerEpoch / 2 ∧
        validatorIndices.any (rc.syncCommitteeDuty period) then some net.slotsPerEpoch
    else some (min net.slotsPerEpoch (2 * validatorIndexCount))
  | .proposerPreferences => some net.slotsPerEpoch
  | .proposer | .syncCommitteeContribution | .unknown _ => none

def validateDutyCount (role : RunnerRole) (dutyExecutorID : Bytes) (msgSlot : ℕ)
    (validatorIndices : List ℕ) (operatorState : Option OperatorState) : Except Err Unit :=
  match dutyLimit net rc role dutyExecutorID msgSlot validatorIndices with
  | none => .ok ()
  | some limit =>
    let count := peekDutyCount operatorState (net.estimatedEpochAtSlot msgSlot) +
      if (peekSignerState operatorState msgSlot).isNone then 1 else 0
    require (¬ count > limit) errTooManyDutiesPerEpoch

def validateBeaconDuty (role : RunnerRole) (slot : ℕ) (indices : List ℕ) (randaoMsg : Bool) :
    Except Err Unit :=
  let epoch := net.estimatedEpochAtSlot slot
  match indices with
  | [] => .error errNoValidators
  | validatorIndex :: _ =>
    match role with
    | .proposer => do
      -- duties of the epoch may still be on their way in its first slot
      if randaoMsg && net.isFirstSlotOfEpoch slot then
        let currentSlot ← net.estimatedSlotAtTime rc.now
        if currentSlot ≤ slot ∧ !rc.proposerIsEpochSet epoch then return
      require (rc.proposerDuty epoch slot validatorIndex) errNoDuty
    | .proposerPreferences =>
      require (¬ (rc.proposerIsEpochSet epoch ∧ !rc.proposerIsEpochStale epoch ∧
        !rc.proposerDuty epoch slot validatorIndex)) errNoDuty
    | .syncCommitteeContribution =>
      require (rc.syncCommitteeDuty (net.estimatedSyncCommitteePeriodAtEpoch epoch) validatorIndex)
        errNoDuty
    | .ptcAttester =>
      require (¬ (rc.ptcIsEpochSet epoch ∧ !rc.ptcDuty epoch slot validatorIndex)) errNoDuty
    | _ => .ok ()

end Ssv.Validation
