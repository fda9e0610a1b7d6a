import Mathlib.Data.BitVec

/-!
# The message types of `ssv-spec`

QBFT messages, the `SSVMessage` envelope, signed messages, and a signed message with its decoded
body (`ProcessingMessage`), by the fields the code reads and writes. Heights, rounds, slots and
operator identifiers are `ℕ`; no modelled function overflows them. A byte slice is `List UInt8`, or
`Data` where the source distinguishes `nil` from empty.
-/

namespace Ssv

/-- A byte slice whose `nil` is not told apart from the empty slice. -/
abbrev Bytes : Type := List UInt8

/-- A byte slice that may be `nil`. -/
abbrev Data : Type := Option Bytes

/-- The contents of a possibly `nil` slice. -/
def Data.bytes (d : Data) : Bytes := d.getD []

abbrev Root : Type := BitVec 256

abbrev OperatorID : Type := ℕ

def noRound : ℕ := 0

def firstRound : ℕ := 1

def firstHeight : ℕ := 0

/-- `specqbft.MessageType`; any other number is `other`. -/
inductive MessageType where
  | proposal
  | prepare
  | commit
  | roundChange
  | other (code : ℕ)
  deriving DecidableEq

/-- `spectypes.MsgType` of the envelope. -/
inductive MsgType where
  | ssvConsensusMsgType
  | ssvPartialSignatureMsgType
  | other (code : ℕ)
  deriving DecidableEq

/-- `specqbft.Message`: the body of a QBFT message. -/
structure Message where
  msgType : MessageType
  height : ℕ
  round : ℕ
  identifier : Bytes
  root : Root
  dataRound : ℕ
  roundChangeJustification : List Bytes
  prepareJustification : List Bytes
  deriving DecidableEq

/-- `spectypes.SSVMessage`: what an operator signs. -/
structure SSVMessage where
  msgType : MsgType
  msgID : Bytes
  data : Bytes
  deriving DecidableEq

/-- `spectypes.SignedSSVMessage`. `fullData` is **not** covered by the signatures. -/
structure SignedSSVMessage where
  signatures : List Bytes
  operatorIDs : List OperatorID
  ssvMessage : SSVMessage
  fullData : Data
  deriving DecidableEq

/-- `specqbft.ProcessingMessage`: a signed message with its decoded body. -/
structure ProcessingMessage where
  signedMessage : SignedSSVMessage
  qbftMessage : Message
  deriving DecidableEq

structure Operator where
  operatorID : OperatorID
  ssvOperatorPubKey : Bytes
  deriving DecidableEq

/-- `spectypes.CommitteeMember`: an operator's view of its committee. -/
structure CommitteeMember where
  operatorID : OperatorID
  faultyNodes : ℕ
  committee : List Operator
  deriving DecidableEq

def CommitteeMember.members (cm : CommitteeMember) : List OperatorID :=
  cm.committee.map (·.operatorID)

/-- The error codes of `spectypes` that the QBFT code attaches to its errors. -/
inductive ErrorCode where
  | pastRound
  | noProposalForCurrentRound
  | wrongMessageHeight
  | wrongMessageRound
  | messageAllowsOneSignerOnly
  | signerIsNotInCommittee
  | proposalLeaderInvalid
  | proposalInvalid
  | rootHashInvalid
  | roundChangeNoQuorum
  | prepareMessageInvalid
  | proposedDataMismatch
  | messageSignatureInvalid
  | zeroCommitMessages
  | commitMessageInvalid
  | commitMessageTypeWrong
  | justificationsNoQuorumInvalid
  | instanceStoppedProcessingMessages
  | timeoutInstance
  | startInstance
  | instanceAlreadyRunning
  | messageIdentifierInvalid
  | futureMessage
  | skipConsensusMessageAsInstanceIsDecided
  | skipConsensusMessageAsConsensusHasFinished
  | decidedWrongInstance
  | dutyAlreadyPassed
  | aggCommConsensusDataDecode
  | noRunningDuty
  | partialSigMessageInvalidSlot
  | partialSigMessageFutureSlot
  | noRunningConsensusInstance
  | noDecidedValue
  | reconstructSignature
  | wrongRootsCount
  | wrongSigningRoot
  | noBeaconDuties
  | noValidatorShares
  deriving DecidableEq

/-- A Go error: its text, the `spectypes` code in it, and whether `IsRetryable`. -/
structure Err where
  text : String
  code : Option ErrorCode := none
  retryable : Bool := false
  deriving DecidableEq

namespace Err

def newError (code : ErrorCode) (text : String) : Err := { text := text, code := some code }

def wrapError (code : ErrorCode) (e : Err) : Err := { e with code := some code }

def newRetryableError (e : Err) : Err := { e with retryable := true }

/-- `fmt.Errorf("context: %w", err)`. -/
def wrap (context : String) (e : Err) : Err := { e with text := context ++ ": " ++ e.text }

/-- A dereferenced `nil`: nothing after it runs. -/
def nilDereference : Err := { text := "invalid memory address or nil pointer dereference" }

end Err

end Ssv
