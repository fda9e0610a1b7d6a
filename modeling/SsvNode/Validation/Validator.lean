import SsvNode.Validation.Partial

/-!
# The message validator

`validation.go` and `signed_ssv_message.go`: a message is decoded, checked for its form, matched
with the committee of its ID, and validated against the state under that ID (`validatorState`), one
message of an ID at a time. That an entry of the cache expires is a step of its own (`Histories`).
-/

namespace Ssv.Validation

open Checks (require)
open ValidationSpec

/-- `states`: the state kept under each message ID. -/
abbrev States : Type := Bytes → Option ValidatorState

def States.set (σ : States) (key : Bytes) (state : ValidatorState) : States :=
  fun k ↦ if k = key then some state else σ k

def maxPayloadDataSize : ℕ := max maxEncodedConsensusMsgSize maxEncodedPartialSignatureSize

def maxEncodedMsgSize : ℕ :=
  let maxSignedMsgSize := 13 * 256 + 13 * 8 + 8 + 56 + maxPayloadDataSize + 8388836
  maxSignedMsgSize + maxSignedMsgSize / 20 + 4

def rsaSignatureSize : ℕ := 256

variable [ValidationSpec] (net : Network) (rc : Receipt)

/-! ### Form -/

def validateSignerIsKnown (signer : OperatorID) : Except Err Unit :=
  match rc.operatorsExist signer with
  | .error _ => .error errOperatorValidation
  | .ok known => require known errUnknownOperator

/-- The loop over the signers in `validateSignedSSVMessage`. -/
def validateSigners : (prevSigner : OperatorID) → List OperatorID → Except Err Unit
  | _, [] => .ok ()
  | prevSigner, signer :: rest => do
    require (signer ≠ 0) errZeroSigner
    require (signer ≠ prevSigner) errDuplicatedSigner
    validateSignerIsKnown rc signer
    validateSigners signer rest

/-- `validateSignedSSVMessage`: the message with its inner message. -/
def validateSignedSSVMessage : Option WireMessage → Except Err SignedSSVMessage
  | none => .error errNilSignedSSVMessage
  | some wire => do
    require (wire.operatorIDs.length ≠ 0) errNoSigners
    require (wire.signatures.length ≠ 0) errNoSignatures
    require (∀ signature ∈ wire.signatures, signature.length = rsaSignatureSize)
      errWrongRSASignatureSize
    require (wire.operatorIDs.Pairwise (· ≤ ·)) errSignersNotSorted
    require (wire.operatorIDs.length = wire.signatures.length)
      errSignersAndSignaturesWithDifferentLength
    validateSigners rc 0 wire.operatorIDs
    match wire.ssvMessage with
    | none => .error errNilSSVMessage
    | some ssvMessage =>
      return { signatures := wire.signatures, operatorIDs := wire.operatorIDs
               ssvMessage := ssvMessage, fullData := wire.fullData }

def validRoleUnion : RunnerRole → Bool
  | .unknown _ => false
  | _ => true

def ssvEventMsgType : MsgType := .other 200

def validateSSVMessage (ssvMessage : SSVMessage) : Except Err Unit := do
  require (ssvMessage.data.length ≠ 0) errEmptyData
  require (¬ ssvMessage.data.length > maxPayloadDataSize) errSSVDataTooBig
  require (ssvMessage.msgType ≠ ssvEventMsgType) errEventMessage
  require (ssvMessage.msgType = .ssvConsensusMsgType ∨
    ssvMessage.msgType = .ssvPartialSignatureMsgType) errUnknownSSVMessageType
  require (validRoleUnion (getRoleType ssvMessage.msgID)) errInvalidRole

def validateDomainAllowlist (msgID : Bytes) : Except Err Unit :=
  require (getDomain msgID = net.domainType ∨ getDomain msgID = net.nextDomainType) errWrongDomain

def getCommitteeAndValidatorIndices (msgID : Bytes) : Except Err CommitteeInfo :=
  if committeeRole (getRoleType msgID) then
    let committeeID := (getDutyExecutorID msgID).drop 16
    match rc.committee committeeID with
    | none => .error errNonExistentCommitteeID
    | some committee => do
      require (committee.indices.length ≠ 0) errNoValidators
      return { committeeID := committeeID, committee := committee.operators
               validatorIndices := committee.indices, subnet := committee.booleCommitteeSubnet
               subnetAlan := committee.alanCommitteeSubnet }
  else
    match rc.validator (getDutyExecutorID msgID) with
    | none => .error errUnknownValidator
    | some share => do
      require (¬ share.liquidated) errValidatorLiquidated
      require share.hasBeaconMetadata errNoShareMetadata
      let currentSlot ← net.estimatedSlotAtTime rc.now
      require (share.isAttesting (net.estimatedEpochAtSlot currentSlot)) errValidatorNotAttesting
      return { committeeID := share.committeeID, committee := share.committee
               validatorIndices := [share.validatorIndex], subnet := share.booleCommitteeSubnet
               subnetAlan := share.alanCommitteeSubnet }

def belongsToCommittee (operatorIDs committee : List OperatorID) : Except Err Unit :=
  require (∀ signer ∈ operatorIDs, signer ∈ committee) errSignerNotInCommittee

/-- `handleSignedSSVMessage` up to the validation lock. -/
def admission (message : Option WireMessage) : Except Err (SignedSSVMessage × CommitteeInfo) := do
  rc.checkCtx .signed
  let signed ← validateSignedSSVMessage rc message
  validateSSVMessage signed.ssvMessage
  validateDomainAllowlist net signed.ssvMessage.msgID
  let ci ← getCommitteeAndValidatorIndices net rc signed.ssvMessage.msgID
  belongsToCommittee signed.operatorIDs ci.committee
  rc.checkCtx .lock
  return (signed, ci)

/-! ### State -/

/-- A state for a committee nothing was seen of. -/
def freshState (role : RunnerRole) (ci : CommitteeInfo) : ValidatorState where
  committeeID := ci.committeeID
  operators := List.replicate ci.committee.length none
  storedSlotCount := storedSlotCount net role
  storedEpochCount := storedEpochCount role

def validatorState (σ : States) (key : Bytes) (ci : CommitteeInfo) : ValidatorState :=
  match σ key with
  | none => freshState net (getRoleType key) ci
  | some state =>
    if state.committeeID = ci.committeeID then state else freshState net (getRoleType key) ci

/-- Run a step on the state of a message ID, which is then in the cache. -/
def withValidatorState (key : Bytes) (ci : CommitteeInfo)
    (step : Act Err Empty ValidatorState Unit) : Act Err Empty States Unit := fun σ ↦
  Act.onPart (validatorState net σ key ci) (fun state σ ↦ σ.set key state) step σ

/-- Check a state, and update it if the check passes. -/
def guarded {σ : Type} (check : σ → Except Err Unit) (update : Act Err Empty σ Unit) :
    Act Err Empty σ Unit := do
  Act.lift (check (← Act.read))
  update

def validateConsensusMessage (signed : SignedSSVMessage) (ci : CommitteeInfo) :
    Act Err Empty States Unit := do
  let msg ← Act.lift (decodeConsensusMessage net rc signed ci)
  withValidatorState net signed.ssvMessage.msgID ci
    (guarded (checkConsensusMessage net rc signed msg ci)
      (updateConsensusState net rc signed msg ci))

def validatePartialSignatureMessage (signed : SignedSSVMessage) (ci : CommitteeInfo) :
    Act Err Empty States Unit := do
  let (m, signer) ← Act.lift (decodePartialSignatureMessage net rc signed ci)
  withValidatorState net signed.ssvMessage.msgID ci
    (guarded (checkPartialSignatureMessage net rc signed m signer ci)
      (updatePartialSignatureState net rc m signer ci))

def handleSignedSSVMessage (message : Option WireMessage) : Act Err Empty States Unit := do
  let (signed, ci) ← Act.lift (admission net rc message)
  match signed.ssvMessage.msgType with
  | .ssvConsensusMsgType => validateConsensusMessage net rc signed ci
  | .ssvPartialSignatureMsgType => validatePartialSignatureMessage net rc signed ci
  | .other _ => Act.fail (.text "unreachable: message type assertion should have been done")

/-! ### Verdicts -/

/-- `handlePubsubMessage` and `validatePubSubMessage` up to `handleSignedSSVMessage`. -/
def decodePubsubMessage (data : Bytes) : Except Err WireMessage := do
  rc.checkCtx .validate
  rc.checkCtx .pubsub
  require (data.length ≠ 0) errPubSubMessageHasNoData
  require (¬ data.length > maxEncodedMsgSize) errPubSubDataTooBig
  (decodeSignedSSVMessage data).mapError errMalformedPubSubMessage.withInner

/-- `Validate`, of a message of another node. -/
def validate (data : Bytes) (σ : States) : States × ValidationResult :=
  let o := (do
    let wire ← Act.lift (decodePubsubMessage rc data)
    handleSignedSSVMessage net rc (some wire)).run σ
  match o.result with
  | .ok _ => (o.state, .accept)
  | .error e => (o.state, handleValidationError e)

end Ssv.Validation
