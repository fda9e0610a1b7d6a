import SsvNode.Lib.Act
import SsvNode.Lib.Checks
import SsvNode.Lib.FirstMax
import SsvNode.Qbft.SsvSpec

/-!
# A QBFT instance: state, signing and validation

The instance of `protocol/v2/qbft/instance`: its state, the messages it creates, and its checks. A
method causes `Event`s: messages handed to the network, the aggregated decided message, and
decisions. Logs, metrics and the round timer are left out; a timeout may occur at any moment.
Network, signing key and value check are functions of the moment `now`.
-/

namespace Ssv

open SsvSpec Checks

/-- What others can see of a method of an instance or controller. -/
inductive Event where
  /-- `Instance.Broadcast` handed a message to the network, for a slot. -/
  | broadcast (msg : SignedSSVMessage) (slot : ℕ)
  /-- `Controller.broadcastDecided` handed on the aggregated commit, for a slot. -/
  | broadcastDecided (msg : SignedSSVMessage) (slot : ℕ)
  /-- `Instance.MarkDecided` marked the instance of a height as decided. -/
  | markDecided (height : ℕ) (round : ℕ) (value : Data)
  deriving DecidableEq

/-- `ssv.ValueChecker`: the check of a proposed value, at a given moment. -/
abbrev ValueChecker : Type := ℕ → Data → Except Err Unit

/-- `ssvtypes.OperatorSigner.SignSSVMessage`, at a given moment. -/
abbrev OperatorSigner : Type := ℕ → SSVMessage → Except Err Bytes

variable [SsvSpec]

structure State where
  committeeMember : CommitteeMember
  id : Bytes
  round : ℕ
  height : ℕ
  lastPreparedRound : ℕ
  lastPreparedValue : Data
  proposalAcceptedForCurrentRound : Option ProcessingMessage
  decided : Bool
  decidedValue : Data
  proposeContainer : MsgContainer
  prepareContainer : MsgContainer
  commitContainer : MsgContainer
  roundChangeContainer : MsgContainer

/-- `qbft.Config`, without the beacon signer. -/
structure Config where
  proposerF : State → ℕ → OperatorID
  /-- `Network.BroadcastAtSlot`, at a given moment. -/
  network : ℕ → SignedSSVMessage → ℕ → Except Err Unit
  cutOffRound : ℕ

structure Instance where
  config : Config
  signer : OperatorSigner
  state : State
  startValue : Data
  /-- Absent until `Start`. -/
  valueChecker : Option ValueChecker
  markedIrrelevant : Bool

namespace Instance

def newInstance (config : Config) (committeeMember : CommitteeMember) (identifier : Bytes)
    (height : ℕ) (signer : OperatorSigner) : Instance where
  config := config
  signer := signer
  state :=
    { committeeMember := committeeMember
      id := identifier
      round := firstRound
      height := height
      lastPreparedRound := noRound
      lastPreparedValue := none
      proposalAcceptedForCurrentRound := none
      decided := false
      decidedValue := none
      proposeContainer := newMsgContainer
      prepareContainer := newMsgContainer
      commitContainer := newMsgContainer
      roundChangeContainer := newMsgContainer }
  startValue := none
  valueChecker := none
  markedIrrelevant := false

variable (i : Instance)

/-- `IsRelevant`: the instance still processes messages. -/
def isRelevant : Bool :=
  !i.markedIrrelevant && decide (i.state.round < i.config.cutOffRound)

def getHeight : ℕ := i.state.height

def proposerForRound (round : ℕ) : OperatorID := i.config.proposerF i.state round

def markIrrelevant : Instance := { i with markedIrrelevant := true }

/-! Assignments to the fields of the state, one definition for each place that makes them. -/

def withStart (value : Data) (checker : ValueChecker) : Instance :=
  { i with startValue := value, valueChecker := some checker }

def withProposals (container : MsgContainer) : Instance :=
  { i with state := { i.state with proposeContainer := container } }

def withPrepares (container : MsgContainer) : Instance :=
  { i with state := { i.state with prepareContainer := container } }

def withCommits (container : MsgContainer) : Instance :=
  { i with state := { i.state with commitContainer := container } }

def withRoundChanges (container : MsgContainer) : Instance :=
  { i with state := { i.state with roundChangeContainer := container } }

def withAccepted (msg : ProcessingMessage) : Instance :=
  { i with state := { i.state with proposalAcceptedForCurrentRound := some msg } }

def withPrepared (value : Data) : Instance :=
  { i with
    state := { i.state with lastPreparedValue := value, lastPreparedRound := i.state.round } }

def withDecision (round : ℕ) (value : Data) : Instance :=
  { i with state := { i.state with decided := true, round := round, decidedValue := value } }

/-- A round in which nothing has been accepted yet. -/
def enterRound (round : ℕ) : Instance :=
  { i with state := { i.state with proposalAcceptedForCurrentRound := none, round := round } }

/-- `bumpToRound`, which only moves up and drops the accepted proposal. -/
def bumpToRound (round : ℕ) : Instance :=
  if round > i.state.round then i.enterRound round else i

/-- `ValueChecker.CheckValue` on the instance's own checker. -/
def checkValue (now : ℕ) (value : Data) : Except Err Unit :=
  match i.valueChecker with
  | none => .error Err.nilDereference
  | some checker => checker now value

/-! ### Creating messages -/

/-- `copy(msgID[:], identifier)` into a zeroed 56-byte array. -/
def messageID (identifier : Bytes) : Bytes :=
  identifier.take 56 ++ List.replicate (56 - identifier.length) 0

def sign (now : ℕ) (msg : Message) (operatorID : OperatorID) (operatorSigner : OperatorSigner) :
    Except Err SignedSSVMessage := do
  let byts ← (encode msg).mapError (.wrap "could not encode message")
  let ssvMsg : SSVMessage :=
    { msgType := .ssvConsensusMsgType, msgID := messageID msg.identifier, data := byts }
  let sig ← (operatorSigner now ssvMsg).mapError (.wrap "could not sign SSVMessage")
  pure { signatures := [sig], operatorIDs := [operatorID], ssvMessage := ssvMsg, fullData := none }

/-- `CreateProposal`. The value is attached after signing. -/
def createProposal (now : ℕ) (fullData : Data)
    (roundChanges prepares : List ProcessingMessage) : Except Err SignedSSVMessage := do
  let roundChangesData ← (marshalJustifications (roundChanges.map (·.signedMessage))).mapError
    (.wrap "could not marshal justifications")
  let preparesData ← (marshalJustifications (prepares.map (·.signedMessage))).mapError
    (.wrap "could not marshal justifications")
  let msg : Message :=
    { msgType := .proposal
      height := i.state.height
      round := i.state.round
      identifier := i.state.id
      root := hashDataRoot fullData
      dataRound := noRound
      roundChangeJustification := roundChangesData
      prepareJustification := preparesData }
  let signedMsg ← (sign now msg i.state.committeeMember.operatorID i.signer).mapError
    (.wrap "could not wrap proposal message")
  pure { signedMsg with fullData := fullData }

def createPrepare (now : ℕ) (newRound : ℕ) (root : Root) :
    Except Err SignedSSVMessage :=
  sign now
    { msgType := .prepare
      height := i.state.height
      round := newRound
      identifier := i.state.id
      root := root
      dataRound := noRound
      roundChangeJustification := []
      prepareJustification := [] }
    i.state.committeeMember.operatorID i.signer

/-- `CreateCommit`, for the current round. -/
def createCommit (now : ℕ) (root : Root) : Except Err SignedSSVMessage :=
  sign now
    { msgType := .commit
      height := i.state.height
      round := i.state.round
      identifier := i.state.id
      root := root
      dataRound := noRound
      roundChangeJustification := []
      prepareJustification := [] }
    i.state.committeeMember.operatorID i.signer

/-! ### Validation -/

/-- The decoded body of every signed message; `context` is for the error. -/
def processingMessages (context : String) (msgs : List SignedSSVMessage) :
    Except Err (List ProcessingMessage) :=
  msgs.mapM fun sm ↦ (newProcessingMessage sm).mapError (.wrap context)

def validSignedPrepareForHeightRoundAndRootIgnoreSignature
    (msg : ProcessingMessage) (round : ℕ) (root : Root) : Except Err Unit := do
  require (msg.qbftMessage.msgType = .prepare) { text := "prepare msg type is wrong" }
  require (msg.qbftMessage.height = i.state.height)
    (.newError .wrongMessageHeight "wrong msg height")
  require (msg.qbftMessage.round = round)
    (.newRetryableError (.newError .wrongMessageRound "wrong msg round"))
  (validate msg).mapError (.wrap "prepareData invalid")
  require (msg.qbftMessage.root = root) (.newError .proposedDataMismatch "proposed data mismatch")
  require (msg.signedMessage.operatorIDs.length = 1)
    (.newError .messageAllowsOneSignerOnly "signer not in committee")
  require (checkSignersInCommittee msg.signedMessage i.state.committeeMember.committee)
    (.newError .signerIsNotInCommittee "signer not in committee")

/-- `spectypes.Verify` against the committee, with the error the validators report. -/
def verifySignature (operators : List Operator) (msg : ProcessingMessage) : Except Err Unit :=
  (verify msg.signedMessage operators).mapError fun e ↦
    .wrapError .messageSignatureInvalid (e.wrap "msg signature invalid")

def validSignedPrepareForHeightRoundAndRootVerifySignature
    (msg : ProcessingMessage) (round : ℕ) (root : Root) : Except Err Unit := do
  i.validSignedPrepareForHeightRoundAndRootIgnoreSignature msg round root
  verifySignature i.state.committeeMember.committee msg

/-- The justifications of a message; an error of decoding is dropped. -/
def justifications (decoded : Except Err (List SignedSSVMessage)) : List SignedSSVMessage :=
  match decoded with
  | .ok msgs => msgs
  | .error _ => []

def validRoundChangeForDataIgnoreSignature (msg : ProcessingMessage)
    (round : ℕ) (fullData : Data) : Except Err Unit := do
  require (msg.qbftMessage.msgType = .roundChange) { text := "round change msg type is wrong" }
  require (msg.qbftMessage.height = i.state.height)
    (.newError .wrongMessageHeight "wrong msg height")
  require (msg.qbftMessage.round = round)
    (.newRetryableError (.newError .wrongMessageRound "wrong msg round"))
  require (msg.signedMessage.operatorIDs.length = 1)
    (.newError .messageAllowsOneSignerOnly "msg allows 1 signer")
  (validate msg).mapError (.wrap "roundChange invalid")
  require (checkSignersInCommittee msg.signedMessage i.state.committeeMember.committee)
    (.newError .signerIsNotInCommittee "signer not in committee")
  if roundChangePrepared msg.qbftMessage then
    let prepareMsgs ← processingMessages
      "could not create ProcessingMessage from prepare message in round change justification"
      (justifications (getRoundChangeJustifications msg.qbftMessage))
    forM prepareMsgs fun pm ↦
      (i.validSignedPrepareForHeightRoundAndRootVerifySignature pm msg.qbftMessage.dataRound
        msg.qbftMessage.root).mapError (.wrap "round change justification invalid")
    require (hashDataRoot fullData = msg.qbftMessage.root)
      (.newError .rootHashInvalid "H(data) != root")
    require (hasQuorum i.state.committeeMember prepareMsgs)
      (.newError .justificationsNoQuorumInvalid "no justifications quorum")
    require (msg.qbftMessage.dataRound ≤ round) { text := "prepared round > round" }

def validRoundChangeForDataVerifySignature (msg : ProcessingMessage)
    (round : ℕ) (fullData : Data) : Except Err Unit := do
  i.validRoundChangeForDataIgnoreSignature msg round fullData
  verifySignature i.state.committeeMember.committee msg

/-- `highestPrepared`: the first round change with the highest prepared round. -/
def highestPrepared (roundChanges : List ProcessingMessage) : Option ProcessingMessage :=
  roundChanges.firstMax (fun rc ↦ roundChangePrepared rc.qbftMessage) (·.qbftMessage.dataRound)

def isProposalJustification (now : ℕ)
    (roundChangeMsgs prepareMsgs : List ProcessingMessage) (round : ℕ) (fullData : Data) :
    Except Err Unit := do
  (i.checkValue now fullData).mapError (.wrap "proposal fullData invalid")
  if round = firstRound then
    return ()
  -- every round change is checked against the one proposed value, whatever it has prepared itself
  forM roundChangeMsgs fun rc ↦
    (i.validRoundChangeForDataVerifySignature rc round fullData).mapError
      (.wrap "change round msg not valid")
  require (hasQuorum i.state.committeeMember roundChangeMsgs)
    (.newError .roundChangeNoQuorum "change round has no quorum")
  if roundChangeMsgs.any fun rc ↦ roundChangePrepared rc.qbftMessage then
    require (hasQuorum i.state.committeeMember prepareMsgs) { text := "prepares has no quorum" }
    match highestPrepared roundChangeMsgs with
    | none => throw { text := "no highest prepared" }
    | some rcMsg =>
      require (hashDataRoot fullData = rcMsg.qbftMessage.root)
        { text := "proposed data doesn't match highest prepared" }
      forM prepareMsgs fun pm ↦
        (i.validSignedPrepareForHeightRoundAndRootVerifySignature pm rcMsg.qbftMessage.dataRound
          rcMsg.qbftMessage.root).mapError fun _ ↦
            .newError .prepareMessageInvalid "signed prepare not valid"

def isValidProposal (now : ℕ) (msg : ProcessingMessage) : Except Err Unit := do
  require (msg.qbftMessage.msgType = .proposal) { text := "msg type is not proposal" }
  require (msg.qbftMessage.height = i.state.height)
    (.newError .wrongMessageHeight "wrong msg height")
  require (msg.signedMessage.operatorIDs.length = 1)
    (.newError .messageAllowsOneSignerOnly "msg allows 1 signer")
  require (checkSignersInCommittee msg.signedMessage i.state.committeeMember.committee)
    (.newError .signerIsNotInCommittee "signer not in committee")
  require (matchedSigners msg.signedMessage [i.proposerForRound msg.qbftMessage.round])
    (.newError .proposalLeaderInvalid "proposal leader invalid")
  (validate msg).mapError fun e ↦ .wrapError .proposalInvalid (e.wrap "proposal invalid")
  require (msg.qbftMessage.root = hashDataRoot msg.signedMessage.fullData)
    (.newError .rootHashInvalid "H(data) != root")
  let roundChangeJustification ← processingMessages
    "could not create ProcessingMessage from round change justification"
    (justifications (getRoundChangeJustifications msg.qbftMessage))
  let prepareJustification ← processingMessages
    "could not create ProcessingMessage from prepare justification"
    (justifications (getPrepareJustifications msg.qbftMessage))
  (i.isProposalJustification now roundChangeJustification prepareJustification
    msg.qbftMessage.round msg.signedMessage.fullData).mapError (.wrap "proposal not justified")
  require ((i.state.proposalAcceptedForCurrentRound = none ∧
      msg.qbftMessage.round = i.state.round) ∨ msg.qbftMessage.round > i.state.round)
    (.newError .proposalInvalid "proposal is not valid with current state")

def baseCommitValidationIgnoreSignature (msg : ProcessingMessage) (height : ℕ)
    (operators : List Operator) : Except Err Unit := do
  (validate msg).mapError fun e ↦ .wrapError .commitMessageInvalid (e.wrap "signed commit invalid")
  require (msg.qbftMessage.msgType = .commit)
    (.newError .commitMessageTypeWrong "commit msg type is wrong")
  require (msg.qbftMessage.height = height) (.newError .wrongMessageHeight "wrong msg height")
  require (checkSignersInCommittee msg.signedMessage operators)
    (.newError .signerIsNotInCommittee "signer not in committee")

def baseCommitValidationVerifySignature (msg : ProcessingMessage) (height : ℕ)
    (operators : List Operator) : Except Err Unit := do
  baseCommitValidationIgnoreSignature msg height operators
  verifySignature operators msg

/-- The root of the accepted proposal, read without a `nil` check. -/
def acceptedRoot : Except Err Root :=
  match i.state.proposalAcceptedForCurrentRound with
  | none => .error Err.nilDereference
  | some proposal => .ok proposal.qbftMessage.root

def validateCommit (msg : ProcessingMessage) : Except Err Unit := do
  baseCommitValidationIgnoreSignature msg i.state.height i.state.committeeMember.committee
  require (msg.signedMessage.operatorIDs.length = 1)
    (.newError .messageAllowsOneSignerOnly "msg allows 1 signer")
  require (msg.qbftMessage.round = i.state.round)
    (.newRetryableError (.newError .wrongMessageRound "wrong msg round"))
  let proposedRoot ← i.acceptedRoot
  require (proposedRoot = msg.qbftMessage.root)
    (.newError .proposedDataMismatch "proposed data mismatch")

/-- `ErrNoProposalForCurrentRound`, as `BaseMsgValidation` returns it. -/
def errNoProposalForCurrentRound : Err :=
  .newRetryableError (.newError .noProposalForCurrentRound
    "did not receive proposal for current round")

/-- `BaseMsgValidation`. A commit signed by a quorum is let through from a past round. -/
def baseMsgValidation (now : ℕ) (msg : ProcessingMessage) : Except Err Unit := do
  validate msg
  let decided := msg.qbftMessage.msgType = .commit ∧
    memberHasQuorum i.state.committeeMember msg.signedMessage.operatorIDs.length
  require (decided ∨ i.state.round ≤ msg.qbftMessage.round) (.newError .pastRound "past round")
  match msg.qbftMessage.msgType with
  | .proposal => i.isValidProposal now msg
  | .prepare =>
    match i.state.proposalAcceptedForCurrentRound with
    | none => throw errNoProposalForCurrentRound
    | some proposedMsg =>
      i.validSignedPrepareForHeightRoundAndRootIgnoreSignature msg i.state.round
        proposedMsg.qbftMessage.root
  | .commit =>
    match i.state.proposalAcceptedForCurrentRound with
    | none => throw errNoProposalForCurrentRound
    | some _ => i.validateCommit msg
  | .roundChange =>
    i.validRoundChangeForDataIgnoreSignature msg msg.qbftMessage.round msg.signedMessage.fullData
  | .other _ => throw { text := "signed message type not supported" }

/-! ### Data for a round change -/

/-- `getRoundChangeJustification`: the prepares behind the prepared value, if still a quorum. -/
def getRoundChangeJustification : List ProcessingMessage :=
  if i.state.lastPreparedValue = none then []
  else
    let prepareMsgs := messagesForRound i.state.prepareContainer i.state.lastPreparedRound
    let ret := prepareMsgs.filter fun msg ↦
      (i.validSignedPrepareForHeightRoundAndRootIgnoreSignature msg i.state.lastPreparedRound
        (hashDataRoot i.state.lastPreparedValue)).isOk
    if hasQuorum i.state.committeeMember ret then ret else []

/-- `getRoundChangeData`: prepared round, root, value and justification. -/
def getRoundChangeData : ℕ × Root × Data × List ProcessingMessage :=
  if i.state.lastPreparedRound ≠ noRound ∧ i.state.lastPreparedValue ≠ none then
    (i.state.lastPreparedRound, hashDataRoot i.state.lastPreparedValue, i.state.lastPreparedValue,
      i.getRoundChangeJustification)
  else (noRound, 0, none, [])

/-- `CreateRoundChange`. The prepared value is attached after signing. -/
def createRoundChange (now : ℕ) (newRound : ℕ) : Except Err SignedSSVMessage := do
  let (round, root, fullData, justifications) := i.getRoundChangeData
  let justificationsData ← (marshalJustifications (justifications.map (·.signedMessage))).mapError
    (.wrap "could not marshal justifications")
  let msg : Message :=
    { msgType := .roundChange
      height := i.state.height
      round := newRound
      identifier := i.state.id
      root := root
      dataRound := round
      roundChangeJustification := justificationsData
      prepareJustification := [] }
  let signedMsg ← (sign now msg i.state.committeeMember.operatorID i.signer).mapError
    (.wrap "could not sign round change message")
  pure { signedMsg with fullData := fullData }

end Instance

end Ssv
