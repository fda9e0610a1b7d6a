import SsvNode.Validation.CommonChecks
import SsvNode.Lib.Act

/-!
# Validating consensus messages

`consensus_validation.go`. The checks before the signatures are verified only read the state of the
signers; `updateConsensusState` records a verified message, for each of its signers.
-/

namespace Ssv.Validation

open Checks (require)

/-- A `SignedSSVMessage` from the network; the inner message may be missing. -/
structure WireMessage where
  signatures : List Bytes
  operatorIDs : List OperatorID
  ssvMessage : Option SSVMessage
  fullData : Data

/-- The functions of `ssv-spec` validation calls. -/
class ValidationSpec where
  getDomain : Bytes → Bytes
  getRoleType : Bytes → RunnerRole
  getDutyExecutorID : Bytes → Bytes
  /-- `SignedSSVMessage.Decode`. -/
  decodeSignedSSVMessage : Bytes → Except Err WireMessage
  decodeMessage : Bytes → Except Err Message
  /-- `PartialSignatureMessages.Decode`. -/
  decodePartialSignatureMessages : Bytes → Except Err PartialSignatureMessages
  /-- `specqbft.HashDataRoot`. -/
  hashFullData : Bytes → Except Err Root
  /-- `Message.GetPrepareJustifications`, of which only the number matters. -/
  prepareJustifications : Message → Except Err ℕ
  /-- `Message.GetRoundChangeJustifications`, of which only the number matters. -/
  roundChangeJustifications : Message → Except Err ℕ

open ValidationSpec

/-- `ComputeQuorumAndPartialQuorum`: the quorum. -/
def computeQuorum (committeeSize : ℕ) : ℕ :=
  let f := (committeeSize - 1) / 3
  f * 2 + 1

/-! ### Checks of both families -/

def maxEncodedConsensusMsgSize : ℕ :=
  let maxConsensusMsgSize := 8 + 8 + 8 + 56 + 32 + 8 + 13 * (3616 + 50624)
  maxConsensusMsgSize + maxConsensusMsgSize / 20 + 4

def allowedRoundsInPast : ℕ := 2

def allowedRoundsInFuture : ℕ := 1

/-- `SubnetTopicID`, with `UnknownSubnetId`. -/
def subnetTopicID (subnet : ℕ) : String :=
  if subnet = 2 ^ 64 - 1 then "unknown" else toString subnet

variable [ValidationSpec] (net : Network) (rc : Receipt)

/-- `validateTopicAtSlot`, with `BooleTopic` and `GetTopicFullName`. -/
def validateTopicAtSlot (ci : CommitteeInfo) (slot : ℕ) : Except Err Unit :=
  let expectedTopic :=
    if net.booleForkAtSlot slot then
      "/ssv/" ++ net.name ++ "/boole/" ++ subnetTopicID ci.subnet
    else "ssv.v2." ++ subnetTopicID ci.subnetAlan
  require (expectedTopic = rc.topic) errIncorrectTopic

def validateDomainAtSlot (msgID : Bytes) (slot : ℕ) : Except Err Unit :=
  require (getDomain msgID = net.domainTypeAtSlot slot) errWrongDomain

def validRoleAtSlot (role : RunnerRole) (slot : ℕ) : Bool :=
  match role with
  | .committee | .proposer | .voluntaryExit => true
  | .validatorRegistration => !net.isGloasAtSlot slot
  | .aggregatorCommittee => net.booleForkAtSlot slot
  | .aggregator | .syncCommitteeContribution => !net.booleForkAtSlot slot
  | .ptcAttester | .proposerPreferences => net.isGloasAtSlot slot
  | .unknown _ => false

/-! ### Semantics -/

def validConsensusMsgType : MessageType → Bool
  | .proposal | .prepare | .commit | .roundChange => true
  | .other _ => false

def validateJustifications (msg : Message) : Except Err Unit := do
  let pj ← (prepareJustifications msg).mapError errMalformedPrepareJustifications.withInner
  require (¬ (pj ≠ 0 ∧ msg.msgType ≠ .proposal)) errUnexpectedPrepareJustifications
  let rcj ← (roundChangeJustifications msg).mapError errMalformedRoundChangeJustifications.withInner
  require (¬ (rcj ≠ 0 ∧ msg.msgType ≠ .proposal ∧ msg.msgType ≠ .roundChange))
    errUnexpectedRoundChangeJustifications

variable (signed : SignedSSVMessage)

/-- The rules on full data of `validateConsensusMessageSemantics`. -/
def validateFullData (msg : Message) : Except Err Unit := do
  if signed.fullData.bytes ≠ [] then
    require (¬ (msg.msgType = .prepare ∨ msg.msgType = .commit ∧ signed.operatorIDs.length = 1))
      errPrepareOrCommitWithFullData
    let hashed ← (hashFullData signed.fullData.bytes).mapError errFullDataHash.withInner
    require (hashed = msg.root) errInvalidHash

def validateConsensusMessageSemantics (msg : Message)
    (committee : List OperatorID) : Except Err Unit := do
  let signers := signed.operatorIDs
  let role := getRoleType signed.ssvMessage.msgID
  require (validRoleAtSlot net role msg.height) errInvalidRole
  require (¬ (signers.length > 1 ∧ msg.msgType ≠ .commit)) errNonDecidedWithMultipleSigners
  require (¬ (signers.length > 1 ∧ signers.length < computeQuorum committee.length))
    errDecidedNotEnoughSigners
  validateFullData signed msg
  require (validConsensusMsgType msg.msgType) errUnknownQBFTMessageType
  require (msg.round ≠ noRound) errZeroRound
  require (¬ (role = .validatorRegistration ∨ role = .voluntaryExit ∨ role = .ptcAttester ∨
    role = .proposerPreferences)) errUnexpectedConsensusMessage
  match Roundtimer.maxRound role with
  | none => .error (.wrap "failed to get max round" (Err.text "unknown role"))
  | some maxRound => require (¬ msg.round > maxRound) errRoundTooHigh
  require (msg.identifier = signed.ssvMessage.msgID) errMismatchedIdentifier
  validateJustifications msg

/-! ### Against the state -/

/-- The bit that must not have been seen in the round; a decided message has none. -/
def consensusLimitIdx (signers : ℕ) : MessageType → Except Err (Option SeenIdx)
  | .proposal => .ok (some .proposal)
  | .prepare => .ok (some .prepare)
  | .commit => .ok (if signers = 1 then some .commit else none)
  | .roundChange => .ok (some .roundChange)
  | .other code => .error (.text ("unexpected signed message type: " ++ toString code))

/-- A kind of message was seen, from the same peer or from any. -/
def validateLimit (receivedFrom : PeerID) (s : SignerStateForSlotRound) (idx : SeenIdx)
    (err : Err) : Except Err Unit := do
  require (¬ (s.peekPeer receivedFrom).seenMsgTypes.reached idx) err.punished
  require (¬ s.world.seenMsgTypes.reached idx) err

def validateConsensusMessageLimit (msg : Message)
    (receivedFrom : PeerID) (s : SignerStateForSlotRound) : Except Err Unit := do
  match ← consensusLimitIdx signed.operatorIDs.length msg.msgType with
  | none => return
  | some idx => validateLimit receivedFrom s idx errDuplicatedMessage

def validateProposalData (hashed : Option Root) (root : Root) (err : Err) : Except Err Unit :=
  match hashed with
  | none => .ok ()
  | some h => require (h = root) err

/-- The body of the loop of `validateQBFTLogic`. -/
def validateSignerQBFTLogic (msg : Message) (s : SignerStateForSlotRound) : Except Err Unit := do
  if signed.operatorIDs.length = 1 then
    require (¬ msg.round < s.round) errRoundAlreadyAdvanced
    if msg.round = s.round then
      if signed.fullData.bytes ≠ [] then
        validateProposalData (s.peekPeer rc.receivedFrom).hashedProposalData msg.root
          errDifferentProposalData.punished
        validateProposalData s.world.hashedProposalData msg.root errDifferentProposalData
      validateConsensusMessageLimit signed msg rc.receivedFrom s
  else if signed.operatorIDs.length > 1 then
    require (¬ signed.operatorIDs.length ≤ s.world.seenDecidedMsgSignersCount)
      errDecidedMessageWithTooFewSigners

def validateQBFTLogic (msg : Message) (ci : CommitteeInfo)
    (state : ValidatorState) : Except Err Unit := do
  if msg.msgType = .proposal then
    match proposer msg.height msg.round ci.committee net with
    | none => .error (.panicked "integer divide by zero")
    | some leader => require (signed.operatorIDs.head? = some leader) errSignerNotLeader
  forM signed.operatorIDs fun signer ↦
    match peekSignerState (state.peekOperatorState (ci.signerIndex signer)) msg.height with
    | none => .ok ()
    | some s => validateSignerQBFTLogic rc signed msg s

def roundBelongsToAllowedSpread (role : RunnerRole) (msg : Message) : Except Err Unit := do
  if Roundtimer.roundRelativeRole role then return
  let slotStartTime ← net.slotStartTime msg.height
  let timeIntoSlot := timeSub rc.receivedAt slotStartTime
  let estimated := Roundtimer.estimatedRoundAt role (net.intervalDuration msg.height) timeIntoSlot
  let lowestAllowedRound :=
    if estimated > allowedRoundsInPast then estimated - allowedRoundsInPast else firstRound
  let highestAllowedRound := estimated + allowedRoundsInFuture
  require (¬ (msg.round < lowestAllowedRound ∨ msg.round > highestAllowedRound))
    errEstimatedRoundNotInAllowedSpread

def validateQBFTMessageByDutyLogic (msg : Message) (ci : CommitteeInfo)
    (state : ValidatorState) : Except Err Unit := do
  let role := getRoleType signed.ssvMessage.msgID
  let dutyExecutorID := getDutyExecutorID signed.ssvMessage.msgID
  if !committeeRole role then
    forM signed.operatorIDs fun signer ↦
      require (¬ peekMaxSlot (state.peekOperatorState (ci.signerIndex signer)) > msg.height)
        errSlotAlreadyAdvanced
  validateBeaconDuty net rc role msg.height ci.validatorIndices false
  validateSlotTime net msg.height role rc.receivedAt
  if signed.operatorIDs.length = 1 then roundBelongsToAllowedSpread net rc role msg
  forM signed.operatorIDs fun signer ↦
    validateDutyCount net rc role dutyExecutorID msg.height ci.validatorIndices
      (state.peekOperatorState (ci.signerIndex signer))

/-! ### Recording -/

/-- Assign to the state of the sending peer and to that of all. -/
def updatePeerAndWorld (f : SignerState → SignerState) (s : SignerStateForSlotRound) :
    SignerStateForSlotRound :=
  (s.updatePeer rc.receivedFrom f).updateWorld f

/-- Record the kind of a message, for its peer and for all. -/
def recordSeenMsgTypes (record : SeenMsgTypes → Except Err SeenMsgTypes) :
    Act Err Empty SignerStateForSlotRound Unit := do
  let s ← Act.read
  let peerTypes ← Act.lift (record (s.peekPeer rc.receivedFrom).seenMsgTypes)
  Act.update (·.updatePeer rc.receivedFrom ({ · with seenMsgTypes := peerTypes }))
  let worldTypes ← Act.lift (record s.world.seenMsgTypes)
  Act.update (·.updateWorld ({ · with seenMsgTypes := worldTypes }))

def processSignerState (msg : Message) : Act Err Empty SignerStateForSlotRound Unit := do
  let signers := signed.operatorIDs.length
  Act.update fun s ↦
    if signed.fullData.bytes ≠ [] ∧ msg.msgType = .proposal then
      updatePeerAndWorld rc ({ · with hashedProposalData := some msg.root }) s
    else s
  Act.update fun s ↦
    if signers > 1 then
      updatePeerAndWorld rc ({ · with seenDecidedMsgSignersCount := signers }) s
    else s
  recordSeenMsgTypes rc (·.recordConsensusMessage signers msg.msgType)

/-- The body of the loop of `updateConsensusState`. -/
def updateSignerConsensusState (msg : Message) (ci : CommitteeInfo)
    (signer : OperatorID) : Act Err Empty ValidatorState Unit := do
  let idx := ci.signerIndex signer
  let os := (← Act.read).operatorState idx
  match os.getSignerStateForSlot msg.height with
  | none =>
    let s := SignerStateForSlotRound.new msg.height msg.round
    let os := os.setSignerStateForSlot msg.height (net.estimatedEpochAtSlot msg.height) s
    Act.onPart s (fun s ↦ (·.setOperatorState idx (os.storeSignerState msg.height s)))
      (processSignerState rc signed msg)
  | some s =>
    let s := if msg.round > s.round then s.reset msg.height msg.round else s
    Act.onPart s (fun s ↦ (·.setOperatorState idx (os.storeSignerState msg.height s)))
      (processSignerState rc signed msg)

def updateConsensusState (msg : Message) (ci : CommitteeInfo) : Act Err Empty ValidatorState Unit :=
  forM signed.operatorIDs (updateSignerConsensusState net rc signed msg ci)

/-! ### Validation -/

/-- The loop over the signatures in `validateConsensusMessage`. -/
def verifySignatures : Except Err Unit :=
  forM (signed.operatorIDs.zip signed.signatures).zipIdx fun ((operatorID, signature), i) ↦ do
    rc.checkCtx (.signature i)
    (rc.verifySignature operatorID signed.ssvMessage signature).mapError fun e ↦
      errSignatureVerification.withInner
        (.wrap ("verify opid: " ++ toString operatorID ++ " signature") e)

/-- `validateConsensusMessage` up to where it reads the state. -/
def decodeConsensusMessage (ci : CommitteeInfo) : Except Err Message := do
  require (¬ signed.ssvMessage.data.length > maxEncodedConsensusMsgSize) errSSVDataTooBig
  let msg ← (decodeMessage signed.ssvMessage.data).mapError errUndecodableMessageData.withInner
  validateTopicAtSlot net rc ci msg.height
  validateDomainAtSlot net signed.ssvMessage.msgID msg.height
  validateConsensusMessageSemantics net signed msg ci.committee
  return msg

/-- `validateConsensusMessage` from the state to the record. -/
def checkConsensusMessage (msg : Message) (ci : CommitteeInfo)
    (state : ValidatorState) : Except Err Unit := do
  validateQBFTLogic net rc signed msg ci state
  validateQBFTMessageByDutyLogic net rc signed msg ci state
  rc.checkCtx .verify
  verifySignatures rc signed

end Ssv.Validation
