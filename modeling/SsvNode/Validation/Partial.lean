import SsvNode.Validation.Consensus

/-!
# Validating partial signature messages

`partial_validation.go`. Most kinds of packets are limited by a bit of `SeenMsgTypes`, shared by the
pre-consensus kinds; proposer preferences and request auths are limited by distinct signing roots.
-/

namespace Ssv.Validation

open Checks (require)
open ValidationSpec

def maxEncodedPartialSignatureSize : ℕ :=
  let maxPartialSignatureMsgsSize := 8 + 8 + 5048 * (96 + 32 + 8 + 8)
  maxPartialSignatureMsgsSize + maxPartialSignatureMsgsSize / 20 + 4

def maxSignatures : ℕ := 13

def maxProposerPreferencesDistinctRoots : ℕ := 4

def maxRequestAuthDistinctRoots : ℕ := 8

def maxRequestAuthEntries : ℕ := 8

/-! ### Semantics -/

def validPartialSigMsgType : PartialSigMsgType → Bool
  | .other _ => false
  | _ => true

def partialSignatureTypeMatchesRole (msgType : PartialSigMsgType) : RunnerRole → Bool
  | .committee => msgType = .postConsensus
  | .aggregator => msgType = .postConsensus || msgType = .selectionProof
  | .proposer => msgType = .postConsensus || msgType = .randao
  | .syncCommitteeContribution => msgType = .postConsensus || msgType = .contributionProofs
  | .validatorRegistration => msgType = .validatorRegistration
  | .voluntaryExit => msgType = .voluntaryExit
  | .aggregatorCommittee => msgType = .aggregatorCommittee || msgType = .postConsensus
  | .ptcAttester => msgType = .ptcAttester
  | .proposerPreferences => msgType = .proposerPreferences || msgType = .requestAuth
  | .unknown _ => false

variable [ValidationSpec] (net : Network) (rc : Receipt)

variable (role : RunnerRole)

def maxValidatorRoleSignatures (msgType : PartialSigMsgType) (slot : ℕ) : ℕ :=
  if role = .proposer ∧ msgType = .postConsensus ∧ net.isGloasAtSlot slot then 2
  else if role = .proposerPreferences ∧ msgType = .requestAuth then maxRequestAuthEntries
  else 1

/-- The body of the loop of `validatePartialSignatureMessageSemantics`. -/
def validateEntry (signer : OperatorID) (firstValidatorIndex : ℕ)
    (validatorIndices : List ℕ) (message : PartialSignatureMessage) : Except Err Unit := do
  require (message.signer = signer) errInconsistentSigners
  if !committeeRole role then
    require (message.validatorIndex = firstValidatorIndex) errInconsistentValidatorIndex
    require (message.validatorIndex ∈ validatorIndices) errValidatorIndexMismatch

variable (signed : SignedSSVMessage)

/-- `validatePartialSignatureMessageSemantics`: the signer of the packet. -/
def validatePartialSignatureMessageSemantics
    (m : PartialSignatureMessages) (validatorIndices : List ℕ) : Except Err OperatorID := do
  let role := getRoleType signed.ssvMessage.msgID
  require (validRoleAtSlot net role m.slot) errInvalidRole
  match signed.operatorIDs with
  | [signer] =>
    require (¬ signed.fullData.bytes.length > 0) errFullDataNotInConsensusMessage
    require (validPartialSigMsgType m.type) errInvalidPartialSignatureType
    require (partialSignatureTypeMatchesRole m.type role) errPartialSignatureTypeRoleMismatch
    match m.messages with
    | [] => .error errNoMessagesInPartialSigMessage
    | first :: _ =>
      require (¬ (!committeeRole role ∧ role ≠ .syncCommitteeContribution ∧
        m.messages.length > maxValidatorRoleSignatures net role m.type m.slot))
        errTooManySignaturesInPartialSigMessage
      forM m.messages (validateEntry role signer first.validatorIndex validatorIndices)
      return signer
  | _ => .error errPartialSigMessageMustHaveOneSigner

/-! ### Against the state -/

def registrationsRetired (receivedAt : Int) : Except Err Bool := do
  let slot ← net.estimatedSlotAtTime receivedAt
  let epoch := net.estimatedEpochAtSlot slot
  return decide (epoch > 0) && net.isGloas (epoch - 1)

variable (m : PartialSignatureMessages)

def validateDistinctRootBudget (s : SignerStateForSlotRound) (budget : ℕ) : Except Err Unit := do
  let seen := s.seenRootsFor m.type
  let fresh := ((m.messages.map (·.signingRoot)).filter (· ∉ seen)).dedup
  require (fresh.length ≠ 0) errTooManyPartialSigMessage
  require (¬ seen.length + fresh.length > budget) errTooManyPartialSigMessage

def validatePartialSignatureMessageLimit (receivedFrom : PeerID)
    (s : SignerStateForSlotRound) : Except Err Unit :=
  match m.type with
  | .proposerPreferences => validateDistinctRootBudget m s maxProposerPreferencesDistinctRoots
  | .requestAuth => validateDistinctRootBudget m s maxRequestAuthDistinctRoots
  | .postConsensus => validateLimit receivedFrom s .postConsensus errTooManyPartialSigMessage
  | .other code =>
    .error (.text ("unexpected partial signature message type: " ++ toString code))
  | .randao | .selectionProof | .contributionProofs | .validatorRegistration | .voluntaryExit
  | .aggregatorCommittee | .ptcAttester =>
    validateLimit receivedFrom s .preConsensus errTooManyPartialSigMessage

/-- The most entries a committee packet may have for one validator index. -/
def maxDutiesForRole : ℕ := (if role = .aggregatorCommittee then 4 else 1) + 1

/-- The rules on entries of `validatePartialSigMessagesByDutyLogic`. -/
def validateEntryCounts (clusterValidatorCount : ℕ)
    (messages : List PartialSignatureMessage) : Except Err Unit := do
  if committeeRole role then
    let scSubnets := if role = .aggregatorCommittee then 4 else 1
    let messageLimit := min (maxDutiesForRole role * clusterValidatorCount)
      (clusterValidatorCount + scSubnets * net.syncCommitteeSize)
    require (¬ messages.length > messageLimit) errTooManySignaturesInPartialSigMessage
    require (∀ message ∈ messages,
      (messages.filter (·.validatorIndex = message.validatorIndex)).length ≤ maxDutiesForRole role)
      errTooManyEqualValidatorIndicesInPartialSignatures
  else if role = .syncCommitteeContribution then
    require (¬ messages.length > maxSignatures) errTooManySignaturesInPartialSigMessage

def validatePartialSigMessagesByDutyLogic (m : PartialSignatureMessages)
    (signer : OperatorID) (ci : CommitteeInfo) (state : ValidatorState) : Except Err Unit := do
  let role := getRoleType signed.ssvMessage.msgID
  if role = .validatorRegistration then
    let retired ← registrationsRetired net rc.receivedAt
    require (¬ retired) errValidatorRegistrationRetired
  let os := state.peekOperatorState (ci.signerIndex signer)
  if monotonicSlotRole role then
    require (¬ (peekMaxSlot os ≠ 0 ∧ peekMaxSlot os > m.slot)) errSlotAlreadyAdvanced
  validateBeaconDuty net rc role m.slot ci.validatorIndices (m.type = .randao)
  match peekSignerState os m.slot with
  | none => pure ()
  | some s => validatePartialSignatureMessageLimit m rc.receivedFrom s
  validateSlotTime net m.slot role rc.receivedAt
  validateDutyCount net rc role (getDutyExecutorID signed.ssvMessage.msgID) m.slot
    ci.validatorIndices os
  validateEntryCounts net role ci.validatorIndices.length m.messages

/-! ### Recording -/

def processPartialSignerState : Act Err Empty SignerStateForSlotRound Unit := do
  recordSeenMsgTypes rc (·.recordPartialSignatureMessage m)
  Act.update (·.recordRoots m)

def updatePartialSignatureState (signer : OperatorID)
    (ci : CommitteeInfo) : Act Err Empty ValidatorState Unit := do
  let idx := ci.signerIndex signer
  let os := (← Act.read).operatorState idx
  match os.getSignerStateForSlot m.slot with
  | none =>
    let s := SignerStateForSlotRound.new m.slot firstRound
    let os := os.setSignerStateForSlot m.slot (net.estimatedEpochAtSlot m.slot) s
    Act.onPart s (fun s ↦ (·.setOperatorState idx (os.storeSignerState m.slot s)))
      (processPartialSignerState rc m)
  | some s =>
    Act.onPart s (fun s ↦ (·.setOperatorState idx (os.storeSignerState m.slot s)))
      (processPartialSignerState rc m)

/-! ### Validation -/

/-- `validatePartialSignatureMessage` up to the state: the packet and its signer. -/
def decodePartialSignatureMessage (ci : CommitteeInfo) :
    Except Err (PartialSignatureMessages × OperatorID) := do
  require (¬ signed.ssvMessage.data.length > maxEncodedPartialSignatureSize) errSSVDataTooBig
  let m ← (decodePartialSignatureMessages signed.ssvMessage.data).mapError
    errUndecodableMessageData.withInner
  validateTopicAtSlot net rc ci m.slot
  validateDomainAtSlot net signed.ssvMessage.msgID m.slot
  let signer ← validatePartialSignatureMessageSemantics net signed m ci.validatorIndices
  return (m, signer)

/-- `validatePartialSignatureMessage` from the state to the record. -/
def checkPartialSignatureMessage (m : PartialSignatureMessages)
    (signer : OperatorID) (ci : CommitteeInfo) (state : ValidatorState) : Except Err Unit := do
  validatePartialSigMessagesByDutyLogic net rc signed m signer ci state
  rc.checkCtx .verify
  (rc.verifySignature signer signed.ssvMessage (signed.signatures.headD [])).mapError fun e ↦
    errSignatureVerification.withInner (.wrap ("verify opid: " ++ toString signer ++ " signature")
      e)

end Ssv.Validation
