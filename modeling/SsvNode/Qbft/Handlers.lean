import SsvNode.Qbft.Instance

/-!
# A QBFT instance: message handlers and the round timeout

The methods of `protocol/v2/qbft/instance` that change the instance, as `Act`ions in the order of
the source: an error leaves what was done before it. `broadcast` records a message before the
network answers, since it may have left the node in spite of an error.
-/

namespace Ssv

open SsvSpec

variable [SsvSpec]

abbrev InstanceAct (α : Type) : Type := Act Err Event Instance α

namespace Instance

/-- `fmt.Errorf("…: %w", err)` on the error of a step. -/
def wrapErr {α : Type} (context : String) (x : Except Err α) : InstanceAct α :=
  Act.lift (x.mapError (.wrap context))

def markDecided (round : ℕ) (value : Data) : InstanceAct Unit := do
  let i ← Act.read
  if i.state.decided then
    Act.fail
      { text := "instance has already decided in round " ++ toString i.state.round ++
          " (attempted to mark as decided in round " ++ toString round ++ ")" }
  else do
    Act.write (i.withDecision round value)
    Act.emit (.markDecided i.state.height round value)

def errNotRelevant : Err :=
  .newError .instanceStoppedProcessingMessages "instance is no longer considered relevant"

def broadcast (now : ℕ) (msg : SignedSSVMessage) : InstanceAct Unit := do
  let i ← Act.read
  if i.isRelevant then do
    Act.emit (.broadcast msg i.state.height)
    Act.lift (i.config.network now msg i.state.height)
  else Act.fail errNotRelevant

/-- Create a message and broadcast it: the end of every handler that sends one. -/
def send (now : ℕ) (createContext broadcastContext : String)
    (create : Except Err SignedSSVMessage) : InstanceAct Unit := do
  let msg ← wrapErr createContext create
  (broadcast now msg).mapError (.wrap broadcastContext)

/-- `Start`. A failure to create or send the first proposal is only logged. -/
def start (now : ℕ) (value : Data) (valueChecker : ValueChecker) : InstanceAct Unit := do
  let i ← Act.read
  let proposerID := i.proposerForRound firstRound
  Act.write (i.withStart value valueChecker)
  if proposerID = i.state.committeeMember.operatorID then do
    let i ← Act.read
    match i.createProposal now i.startValue [] [] with
    | .error _ => pure ()
    | .ok proposal => do
      let _ ← (broadcast now proposal).attempt
      pure ()
  else pure ()

/-! ### Proposals and prepares -/

def uponProposal (now : ℕ) (msg : ProcessingMessage) : InstanceAct Unit := do
  let i ← Act.read
  let (addedMsg, container) ← wrapErr "could not add proposal msg to container"
    (addFirstMsgForSignerAndRound i.state.proposeContainer msg)
  Act.write (i.withProposals container)
  if addedMsg then do
    Act.update (·.bumpToRound msg.qbftMessage.round)
    let i ← Act.read
    if i.isRelevant then do
      Act.write (i.withAccepted msg)
      let i ← Act.read
      send now "could not create prepare msg" "failed to broadcast prepare message"
        (i.createPrepare now msg.qbftMessage.round (hashDataRoot msg.signedMessage.fullData))
    else pure () -- the bump reached the cut-off round
  else pure ()

def uponPrepare (now : ℕ) (msg : ProcessingMessage) : InstanceAct Unit := do
  let i ← Act.read
  match i.state.proposalAcceptedForCurrentRound with
  | none => Act.fail Err.nilDereference
  | some proposal =>
    let proposedRoot := proposal.qbftMessage.root
    let hadQuorumBefore := hasQuorum i.state.committeeMember
      (messagesForRound i.state.prepareContainer i.state.round)
    let (addedMsg, container) ← wrapErr "could not add prepare msg to container"
      (addFirstMsgForSignerAndRound i.state.prepareContainer msg)
    Act.write (i.withPrepares container)
    if addedMsg ∧ ¬ hadQuorumBefore ∧
        hasQuorum i.state.committeeMember (messagesForRound container i.state.round) then do
      Act.update (·.withPrepared proposal.signedMessage.fullData)
      let i ← Act.read
      send now "could not create commit msg" "failed to broadcast commit message"
        (i.createCommit now proposedRoot)
    else pure ()

/-! ### Commits -/

def commitQuorumForRoundRoot (i : Instance) (root : Root) (round : ℕ) :
    Bool × List ProcessingMessage :=
  let (signers, msgs) := longestUniqueSignersForRoundAndRoot i.state.commitContainer round root
  (memberHasQuorum i.state.committeeMember signers.length, msgs)

/-- The pairs of signer and signature in the order of the signers. -/
def sortBySigner (msg : SignedSSVMessage) : SignedSSVMessage :=
  let pairs := (msg.operatorIDs.zip msg.signatures).mergeSort fun p q ↦ decide (p.1 ≤ q.1)
  { msg with operatorIDs := pairs.map (·.1), signatures := pairs.map (·.2) }

def aggregateCommitMsgs (msgs : List ProcessingMessage) (fullData : Data) :
    Except Err SignedSSVMessage :=
  match msgs with
  | [] => .error (.newError .zeroCommitMessages "can't aggregate zero commit msgs")
  | first :: rest => do
    let ret ← rest.foldlM (fun acc m ↦
      (aggregate acc m.signedMessage).mapError (.wrap "could not aggregate commit msg"))
      first.signedMessage
    pure (sortBySigner { ret with fullData := fullData })

/-- `uponCommit`: on a new quorum, the decided value and the aggregated commit. -/
def uponCommit (msg : ProcessingMessage) : InstanceAct (Option (Data × SignedSSVMessage)) := do
  let i ← Act.read
  let (hadQuorumBefore, _) := i.commitQuorumForRoundRoot msg.qbftMessage.root msg.qbftMessage.round
  let (addMsg, container) ← wrapErr "could not add commit msg to container"
    (addFirstMsgForSignerAndRound i.state.commitContainer msg)
  Act.write (i.withCommits container)
  if addMsg ∧ ¬ hadQuorumBefore then do
    let i ← Act.read
    let (quorum, commitMsgs) := i.commitQuorumForRoundRoot msg.qbftMessage.root
      msg.qbftMessage.round
    if quorum then do
      match i.state.proposalAcceptedForCurrentRound with
      | none => Act.fail Err.nilDereference
      | some proposal =>
        let fullData := proposal.signedMessage.fullData
        let agg ← wrapErr "could not aggregate commit msgs"
          (aggregateCommitMsgs commitMsgs fullData)
        pure (some (fullData, agg))
    else pure none
  else pure none

/-! ### Round changes -/

/-- `minRound`; `noRound` for no message. -/
def minRound (roundChangeMsgs : List ProcessingMessage) : ℕ :=
  roundChangeMsgs.foldl (fun ret msg ↦
    if ret = noRound ∨ ret > msg.qbftMessage.round then msg.qbftMessage.round else ret) noRound

/-- `hasReceivedPartialQuorum`: the round changes for later rounds, and whether they are one. -/
def hasReceivedPartialQuorum (i : Instance) : Bool × List ProcessingMessage :=
  let rc := (allMessages i.state.roundChangeContainer).filter fun msg ↦
    decide (msg.qbftMessage.round > i.state.round)
  (hasPartialQuorum i.state.committeeMember rc, rc)

def isProposalJustificationForLeadingRound (i : Instance) (now : ℕ)
    (roundChangeMsg : ProcessingMessage)
    (roundChanges roundChangeJustifications : List ProcessingMessage) (value : Data)
    (newRound : ℕ) : Except Err Unit := do
  (i.isProposalJustification now roundChanges roundChangeJustifications
    roundChangeMsg.qbftMessage.round value).mapError (.wrap "proposal not justified")
  Checks.require
    (i.proposerForRound roundChangeMsg.qbftMessage.round = i.state.committeeMember.operatorID)
    { text := "not proposer" }
  let currentRoundProposal := i.state.proposalAcceptedForCurrentRound = none ∧
    i.state.round = newRound
  let futureRoundProposal := newRound > i.state.round
  Checks.require (currentRoundProposal ∨ futureRoundProposal) { text := "proposal round mismatch" }

def roundChangeJustification (rc : ProcessingMessage) : Except Err (List ProcessingMessage) :=
  processingMessages "could not create ProcessingMessage from round change justification"
    (justifications (getRoundChangeJustifications rc.qbftMessage))

/-- The value to propose on a stored round change: its prepared one, or else this node's. -/
def valueToPropose (i : Instance) (containerRoundChangeMessage : ProcessingMessage) : Data :=
  if roundChangePrepared containerRoundChangeMessage.qbftMessage then
    containerRoundChangeMessage.signedMessage.fullData
  else i.startValue

/-- The loop of `hasReceivedProposalJustificationForLeadingRound`. -/
def findJustifiedRoundChange (i : Instance) (now : ℕ) (roundChanges : List ProcessingMessage)
    (newRound : ℕ) : List ProcessingMessage → Except Err (Option (ProcessingMessage × Data))
  | [] => pure none
  | containerRoundChangeMessage :: rest => do
    let value := i.valueToPropose containerRoundChangeMessage
    let prepares ← roundChangeJustification containerRoundChangeMessage
    if (i.isProposalJustificationForLeadingRound now containerRoundChangeMessage roundChanges
        prepares value newRound).isOk then
      pure (some (containerRoundChangeMessage, value))
    else i.findJustifiedRoundChange now roundChanges newRound rest

def hasReceivedProposalJustificationForLeadingRound (i : Instance) (now : ℕ)
    (roundChangeMessage : ProcessingMessage) : Except Err (Option (ProcessingMessage × Data)) :=
  let roundChanges := messagesForRound i.state.roundChangeContainer
    roundChangeMessage.qbftMessage.round
  if hasQuorum i.state.committeeMember roundChanges then
    i.findJustifiedRoundChange now roundChanges roundChangeMessage.qbftMessage.round roundChanges
  else pure none

/-- Move up to `newRound` and, below the cut-off round, broadcast a round change:
`uponChangeRoundPartialQuorum` and `UponRoundTimeout`. -/
def changeRound (now : ℕ) (newRound : ℕ) (createContext broadcastContext : String) :
    InstanceAct Unit := do
  Act.update (·.bumpToRound newRound)
  let i ← Act.read
  if i.isRelevant then do
    send now createContext broadcastContext (i.createRoundChange now newRound)
  else pure ()

def uponChangeRoundPartialQuorum (now : ℕ) (newRound : ℕ) : InstanceAct Unit :=
  changeRound now newRound "failed to create round change message"
    "failed to broadcast round change message"

/-- The branch of `uponRoundChange` for a justified round change: lead its round. -/
def proposeJustified (now : ℕ) (justifiedRoundChangeMsg : ProcessingMessage)
    (valueToPropose : Data) : InstanceAct Unit := do
  Act.update (·.bumpToRound justifiedRoundChangeMsg.qbftMessage.round)
  let i ← Act.read
  if i.isRelevant then do
    let prepares ← Act.lift (roundChangeJustification justifiedRoundChangeMsg)
    send now "failed to create proposal" "failed to broadcast proposal message"
      (i.createProposal now valueToPropose
        (messagesForRound i.state.roundChangeContainer i.state.round) prepares)
  else pure ()

def uponRoundChange (now : ℕ) (msg : ProcessingMessage) : InstanceAct Unit := do
  let i ← Act.read
  let hadQuorumBefore := hasQuorum i.state.committeeMember
    (messagesForRound i.state.roundChangeContainer msg.qbftMessage.round)
  let (addedMsg, container) ← wrapErr "could not add round change msg to container"
    (addFirstMsgForSignerAndRound i.state.roundChangeContainer msg)
  Act.write (i.withRoundChanges container)
  if addedMsg ∧ ¬ hadQuorumBefore then do
    let i ← Act.read
    let justified ← wrapErr "could not get proposal justification for leading round"
      (i.hasReceivedProposalJustificationForLeadingRound now msg)
    match justified with
    | some (justifiedRoundChangeMsg, valueToPropose) =>
      proposeJustified now justifiedRoundChangeMsg valueToPropose
    | none =>
      let (partialQuorum, rcs) := i.hasReceivedPartialQuorum
      if partialQuorum ∧ minRound rcs > i.state.round then
        uponChangeRoundPartialQuorum now (minRound rcs)
      else pure ()
  else pure ()

def uponRoundTimeout (now : ℕ) : InstanceAct Unit := do
  let i ← Act.read
  if i.isRelevant then
    changeRound now (i.state.round + 1) "could not generate round change msg"
      "failed to broadcast round change message"
  else
    Act.fail (.newError .timeoutInstance "instance is no longer considered relevant")

/-! ### Processing a message -/

/-- `ProcessMsg`: on a new decision, the decided value and the aggregated commit. -/
def processMsg (now : ℕ) (msg : ProcessingMessage) :
    InstanceAct (Option (Data × SignedSSVMessage)) := do
  let i ← Act.read
  if i.isRelevant then do
    wrapErr "invalid signed message" (i.baseMsgValidation now msg)
    match msg.qbftMessage.msgType with
    | .proposal => do
      uponProposal now msg
      pure none
    | .prepare => do
      uponPrepare now msg
      pure none
    | .commit => do
      match ← uponCommit msg with
      | none => pure none
      | some (decidedValue, aggregatedCommit) => do
        (markDecided msg.qbftMessage.round decidedValue).mapError (.wrap "mark as decided")
        pure (some (decidedValue, aggregatedCommit))
    | .roundChange => do
      uponRoundChange now msg
      pure none
    | .other _ => Act.fail { text := "signed message type not supported" }
  else Act.fail errNotRelevant

end Instance

end Ssv
