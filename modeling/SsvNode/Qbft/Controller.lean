import SsvNode.Qbft.Handlers

/-!
# The QBFT controller

It starts instances, routes messages and timeouts to the instance of their height, and takes decided
messages directly (`UponDecided`). The window of recent instances is newest first, with the slice's
capacity. A changed instance is stored back over the first one of its height (`Instances.set`),
which stands for the pointer of the source.
-/

namespace Ssv

open SsvSpec

variable [SsvSpec]

/-- `controller.Instances`: a slice with its capacity. -/
structure Instances where
  items : List Instance
  cap : ℕ

namespace Instances

def defaultCapacity : ℕ := 2

variable (ic : Instances)

def findInstance (height : ℕ) : Option Instance :=
  ic.items.find? fun inst ↦ decide (inst.getHeight = height)

/-- Insert before the first instance of a smaller height. -/
def insertByHeight (inst : Instance) : List Instance → List Instance
  | [] => [inst]
  | existing :: rest =>
    if existing.getHeight < inst.getHeight then inst :: existing :: rest
    else existing :: insertByHeight inst rest

/-- `addNewInstance`: into its place by height, ejecting what no longer fits. -/
def addNewInstance (inst : Instance) : Instances :=
  let cap := if ic.cap = 0 then defaultCapacity else ic.cap
  { items := (insertByHeight inst ic.items).take cap, cap := cap }

/-- Put an instance in the place of the first one of its height. -/
def replaceFirst (inst : Instance) : List Instance → List Instance
  | [] => []
  | existing :: rest =>
    if existing.getHeight = inst.getHeight then inst :: rest
    else existing :: replaceFirst inst rest

/-- Store back an instance that `findInstance` returned. -/
def set (inst : Instance) : Instances :=
  { ic with items := replaceFirst inst ic.items }

end Instances

/-- `controller.Controller`, without the fields its methods do not read. -/
structure Controller where
  identifier : Bytes
  identifierFn : Option (ℕ → Bytes)
  latestInstanceHeight : ℕ
  recentInstances : Instances
  committeeMember : CommitteeMember
  operatorSigner : OperatorSigner
  config : Config

abbrev ControllerAct (α : Type) : Type := Act Err Event Controller α

namespace Controller

/-- `NewController`; `identifierFn` is assigned by the caller right after. -/
def newController (identifier : Bytes) (identifierFn : Option (ℕ → Bytes))
    (committeeMember : CommitteeMember) (config : Config) (signer : OperatorSigner) :
    Controller where
  identifier := identifier
  identifierFn := identifierFn
  latestInstanceHeight := firstHeight
  recentInstances := { items := [], cap := Instances.defaultCapacity }
  committeeMember := committeeMember
  operatorSigner := signer
  config := config

def identifierAtHeight (c : Controller) (height : ℕ) : Bytes :=
  match c.identifierFn with
  | some f => f height
  | none => c.identifier

def newInstance (c : Controller) (height : ℕ) : Instance :=
  Instance.newInstance c.config c.committeeMember (c.identifierAtHeight height) height
    c.operatorSigner

def markRecentInstancesIrrelevant (c : Controller) : Controller :=
  { c with recentInstances :=
      { c.recentInstances with items := c.recentInstances.items.map (·.markIrrelevant) } }

/-- Run a method of an instance the controller holds. -/
def onInstance {α : Type} (inst : Instance) (x : InstanceAct α) : ControllerAct α :=
  Act.onPart inst (fun inst' c ↦ { c with recentInstances := c.recentInstances.set inst' }) x

/-- Run a method of an instance that is not in the window. -/
def onFresh (inst : Instance) (x : InstanceAct Unit) : ControllerAct Instance := fun c ↦
  let o := x.run inst
  ⟨c, o.events, o.result.map fun _ ↦ o.state⟩

def startInstance (now : ℕ) (height : ℕ) (value : Data) (valueChecker : ValueChecker) :
    ControllerAct Unit := do
  let c ← Act.read
  if height < c.latestInstanceHeight then
    Act.fail (.newError .startInstance
      ("attempting to start an instance with a past height " ++ toString height ++
        ", current instance height " ++ toString c.latestInstanceHeight))
  else if (c.recentInstances.findInstance height).isSome then
    Act.fail (.newError .instanceAlreadyRunning
      ("instance with height " ++ toString height ++ " already running"))
  else do
    Act.update (·.markRecentInstancesIrrelevant)
    let inst ← onFresh (c.newInstance height) (Instance.start now value valueChecker)
    Act.update fun c ↦ { c with
      recentInstances := c.recentInstances.addNewInstance inst
      latestInstanceHeight := height }

def startNewInstance (now : ℕ) (height : ℕ) (value : Data) (valueChecker : ValueChecker) :
    ControllerAct Unit := do
  Act.lift ((valueChecker now value).mapError (.wrap "value invalid"))
  startInstance now height value valueChecker

/-! ### Decided messages -/

/-- `isDecidedMsg`: a commit with a quorum of signatures. -/
def isDecidedMsg (c : Controller) (msg : ProcessingMessage) : Bool :=
  memberHasQuorum c.committeeMember msg.signedMessage.operatorIDs.length &&
    decide (msg.qbftMessage.msgType = .commit)

def validateDecided (c : Controller) (msg : ProcessingMessage) : Except Err Unit := do
  Checks.require (c.isDecidedMsg msg) { text := "not a decided msg" }
  (Instance.baseCommitValidationVerifySignature msg msg.qbftMessage.height
    c.committeeMember.committee).mapError (.wrap "invalid decided msg")
  Checks.require (hashDataRoot msg.signedMessage.fullData = msg.qbftMessage.root)
    (.newError .rootHashInvalid "H(data) != root")

/-- Mark an instance decided by a decided message, and keep the message. -/
def concludeInstance (msg : ProcessingMessage) : InstanceAct Unit := do
  (Instance.markDecided msg.qbftMessage.round msg.signedMessage.fullData).mapError
    (.wrap "mark as decided")
  let i ← Act.read
  let container ← Instance.wrapErr "add message to commit-container"
    (addMsg i.state.commitContainer msg)
  Act.write (i.withCommits container)

/-- The last branch of `UponDecided`: keep a message with more signers. -/
def recordDecided (msg : ProcessingMessage) : InstanceAct Unit := do
  let i ← Act.read
  let (signers, _) := longestUniqueSignersForRoundAndRoot i.state.commitContainer
    msg.qbftMessage.round msg.qbftMessage.root
  if msg.signedMessage.operatorIDs.length > signers.length then do
    let container ← Act.lift (addMsg i.state.commitContainer msg)
    Act.write (i.withCommits container)
  else pure ()

/-- `UponDecided`: the message when it newly decides its instance. -/
def uponDecided (msg : ProcessingMessage) : ControllerAct (Option SignedSSVMessage) := do
  let c ← Act.read
  Act.lift ((c.validateDecided msg).mapError (.wrap "invalid decided msg"))
  match c.recentInstances.findInstance msg.qbftMessage.height with
  | none => do
    let inst ← onFresh (c.newInstance msg.qbftMessage.height) (concludeInstance msg)
    Act.update fun c ↦ { c with
      recentInstances := c.recentInstances.addNewInstance inst
      latestInstanceHeight := max c.latestInstanceHeight msg.qbftMessage.height }
    pure (some msg.signedMessage)
  | some inst =>
    if inst.state.decided then do
      onInstance inst (recordDecided msg)
      pure none
    else do
      onInstance inst (concludeInstance msg)
      pure (some msg.signedMessage)

/-! ### Messages and timeouts of a running instance -/

def isFutureMessage (c : Controller) (msg : ProcessingMessage) : Bool :=
  (decide (c.latestInstanceHeight = firstHeight) &&
      (c.recentInstances.findInstance c.latestInstanceHeight).isNone) ||
    decide (msg.qbftMessage.height > c.latestInstanceHeight)

/-- `broadcastDecided`; the network's error is only logged by the caller. -/
def broadcastDecided (aggregatedCommit : SignedSSVMessage) (height : ℕ) : ControllerAct Unit :=
  Act.emit (.broadcastDecided aggregatedCommit height)

/-- `UponExistingInstanceMsg`: the aggregated commit of a new decision. -/
def uponExistingInstanceMsg (now : ℕ) (msg : ProcessingMessage) :
    ControllerAct (Option SignedSSVMessage) := do
  let c ← Act.read
  match c.recentInstances.findInstance msg.qbftMessage.height with
  | none => Act.fail (.newRetryableError { text := "instance not found" })
  | some inst =>
    if inst.state.decided then
      Act.fail (.newError .skipConsensusMessageAsInstanceIsDecided
        "not processing consensus message since instance is already decided")
    else do
      let processed ← (onInstance inst (Instance.processMsg now msg)).mapError fun e ↦
        if e.retryable then e else e.wrap "could not process msg"
      match processed with
      | none => pure none
      | some (_, decidedMsg) => do
        broadcastDecided decidedMsg msg.qbftMessage.height
        pure (some decidedMsg)

/-- `ProcessMsg`: the decided message of a new decision. -/
def processMsg (now : ℕ) (signedMessage : SignedSSVMessage) :
    ControllerAct (Option SignedSSVMessage) := do
  let msg ← Act.lift ((newProcessingMessage signedMessage).mapError
    (.wrap "could not create ProcessingMessage from signed message"))
  let c ← Act.read
  if c.identifierAtHeight msg.qbftMessage.height ≠ msg.qbftMessage.identifier then
    Act.fail (.newError .messageIdentifierInvalid "message doesn't belong to Identifier")
  else if c.isDecidedMsg msg then
    uponDecided msg
  else if c.isFutureMessage msg then
    Act.fail (.newRetryableError (.newError .futureMessage "future consensus msg"))
  else
    uponExistingInstanceMsg now msg

/-- `OnQBFTRoundTimeout`, for the timeout of a round at a slot. -/
def onQBFTRoundTimeout (now : ℕ) (slot : ℕ) (round : ℕ) : ControllerAct Unit := do
  let c ← Act.read
  match c.recentInstances.findInstance slot with
  | none => Act.fail { text := "instance is nil" }
  | some inst =>
    if round < inst.state.round then pure ()
    else if inst.state.decided then pure ()
    else
      (onInstance inst (Instance.uponRoundTimeout now)).mapError
        (.wrap "failed to handle round timeout")

end Controller

end Ssv
