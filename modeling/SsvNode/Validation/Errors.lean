import SsvNode.Validation.Network

/-!
# The errors of message validation

`errors.go`: the errors of a check, by the verdict they lead to, and `classifyDiscard`. A context
that ran out is no verdict on the message. Some errors are ignored, but rejected where the same peer
is the sender (`Err.punished`).
-/

namespace Ssv.Validation

/-! ### Ignored -/

def errWrongDomain : Err := .ignored "wrong domain"

def errNoShareMetadata : Err := .ignored "share has no metadata"

def errUnknownValidator : Err := .ignored "unknown validator"

def errValidatorLiquidated : Err := .ignored "validator is liquidated"

def errValidatorNotAttesting : Err := .ignored "validator is not attesting"

def errEarlySlotMessage : Err := .ignored "message was sent before slot starts"

def errLateSlotMessage : Err := .ignored
  ("current time is above duty's start +34(committee, aggregator, and aggregator committee) " ++
    "or +3(proposer, sync committee contribution) slots")

def errSlotAlreadyAdvanced : Err := .ignored "signer has already advanced to a later slot"

def errRoundAlreadyAdvanced : Err := .ignored "signer has already advanced to a later round"

def errPubSubDataTooBig : Err := .ignored "pub-sub message data too big"

def errIncorrectTopic : Err := .ignored "incorrect topic"

def errNonExistentCommitteeID : Err := .ignored "committee ID doesn't exist"

def errRoundTooHigh : Err := .ignored "round is too high for this role"

def errValidatorIndexMismatch : Err := .ignored "partial signature validator index not found"

def errTooManyDutiesPerEpoch : Err := .ignored "too many duties per epoch"

def errNoDuty : Err := .ignored "no duty for this epoch"

def errEstimatedRoundNotInAllowedSpread : Err := .ignored "message round is too far from estimated"

def errUnknownOperator : Err := .ignored "operator is unknown"

def errOperatorValidation : Err := .ignored "failed to validate operator data"

def errDuplicatedMessage : Err := .ignored "got duplicate message"

def errTooManyPartialSigMessage : Err := .ignored
  "got more partial signature messages of a certain type than allowed"

def errDifferentProposalData : Err := .ignored "got different proposal data"

def errDecidedMessageWithTooFewSigners : Err := .ignored
  "got decided message with too few signers (same number or less)"

def errValidatorRegistrationRetired : Err := .ignored
  "validator registrations ended with the Gloas fork"

/-! ### Rejected -/

def errEmptyData : Err := .rejected "empty data"

def errMismatchedIdentifier : Err := .rejected "identifier mismatch"

def errSignatureVerification : Err := .rejected "signature verification"

def errPubSubMessageHasNoData : Err := .rejected "pub-sub message has no data"

def errMalformedPubSubMessage : Err := .rejected "pub-sub message is malformed"

def errNilSignedSSVMessage : Err := .rejected "signed ssv message is nil"

def errNilSSVMessage : Err := .rejected "ssv message is nil"

def errSSVDataTooBig : Err := .rejected "ssv message data too big"

def errInvalidRole : Err := .rejected "invalid role"

def errUnexpectedConsensusMessage : Err := .rejected "unexpected consensus message for this role"

def errNoSigners : Err := .rejected "no signers"

def errWrongRSASignatureSize : Err := .rejected "wrong RSA signature size"

def errZeroSigner : Err := .rejected "zero signer ID"

def errSignerNotInCommittee : Err := .rejected "signer is not in committee"

def errDuplicatedSigner : Err := .rejected "signer is duplicated"

def errSignerNotLeader : Err := .rejected "signer is not leader"

def errSignersNotSorted : Err := .rejected "signers are not sorted"

def errInconsistentSigners : Err := .rejected "signer is not expected"

def errInconsistentValidatorIndex : Err :=
  .rejected "validator index differs across partial signatures"

def errInvalidHash : Err := .rejected "root doesn't match full data hash"

def errFullDataHash : Err := .rejected "couldn't hash root"

def errUndecodableMessageData : Err := .rejected "message data could not be decoded"

def errEventMessage : Err := .rejected "unexpected event message"

def errUnknownSSVMessageType : Err := .rejected "unknown SSV message type"

def errUnknownQBFTMessageType : Err := .rejected "unknown QBFT message type"

def errInvalidPartialSignatureType : Err := .rejected "unknown partial signature message type"

def errPartialSignatureTypeRoleMismatch : Err :=
  .rejected "partial signature type and role don't match"

def errNonDecidedWithMultipleSigners : Err := .rejected "non-decided with multiple signers"

def errDecidedNotEnoughSigners : Err := .rejected "not enough signers in decided message"

def errMalformedPrepareJustifications : Err := .rejected "malformed prepare justifications"

def errUnexpectedPrepareJustifications : Err := .rejected
  "prepare justifications unexpected for this message type"

def errMalformedRoundChangeJustifications : Err := .rejected "malformed round change justifications"

def errUnexpectedRoundChangeJustifications : Err := .rejected
  "round change justifications unexpected for this message type"

def errNoMessagesInPartialSigMessage : Err := .rejected "no messages in partial signature messages"

def errNoValidators : Err := .rejected "no validators for this committee ID"

def errNoSignatures : Err := .rejected "no signatures"

def errTooManySignaturesInPartialSigMessage : Err := .rejected
  "too many signatures in a partial-signature message"

def errSignersAndSignaturesWithDifferentLength : Err := .rejected
  "signature and operator ID length mismatch"

def errPartialSigMessageMustHaveOneSigner : Err := .rejected
  "partial signature message must have exactly one signer"

def errPrepareOrCommitWithFullData : Err := .rejected "prepare or commit with full data"

def errFullDataNotInConsensusMessage : Err := .rejected "full data not in consensus message"

def errTooManyEqualValidatorIndicesInPartialSignatures : Err := .rejected
  "validator index appears too many times in partial signatures"

def errZeroRound : Err := .rejected "zero round"

/-- The same error with `reject` set. -/
def Err.punished : Err → Err
  | .leaf (.verdict text _) => .leaf (.verdict text true)
  | err => err

/-! ### Verdicts -/

inductive ValidationResult where
  | accept
  | ignore
  | reject
  deriving DecidableEq

/-- `handleValidationError`, with the kinds of `classifyDiscard`. -/
def handleValidationError (err : Err) : ValidationResult :=
  if err.Is .deadlineExceeded then .ignore
  else if err.Is .canceled then .ignore
  else
    match err.as (fun | .verdict _ reject => some reject | _ => none) with
    | some true => .reject
    | _ => .ignore

end Ssv.Validation
