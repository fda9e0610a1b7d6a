import SsvNode.Qbft.InstanceWindow

/-!
# The consensus phase of a runner

`BaseRunner` as far as consensus goes: it starts an instance for the slot of its duty (`decide`),
hands messages and timeouts to its controller, and takes up the decided value
(`baseConsensusMsgProcessing`). `State.RunningInstance` is a **pointer**: here a height, to be
looked up in the controller's window, or the instance itself once it has left it.
-/

namespace Ssv

open SsvSpec

/-- What the runners call of `ssv-spec` besides. -/
class RunnerSpec extends SsvSpec where
  decodeMessage : Bytes → Except Err Message
  /-- A signed message is decoded from its data alone. -/
  newProcessingMessage_iff {sm : SignedSSVMessage} {pm : ProcessingMessage} :
    newProcessingMessage sm = .ok pm ↔
      decodeMessage sm.ssvMessage.data = .ok pm.qbftMessage ∧ pm.signedMessage = sm
  /-- Aggregating adds signers to a message. -/
  ssvMessage_of_aggregate {sm sm' ret : SignedSSVMessage} :
    aggregate sm sm' = .ok ret → ret.ssvMessage = sm.ssvMessage
  /-- The messages that go with the longest set of signers are stored ones. -/
  mem_messages_longestUniqueSigners {c : MsgContainer} {r : ℕ} {root : Root}
    {m : ProcessingMessage} :
    m ∈ (longestUniqueSignersForRoundAndRoot c r root).2 → m ∈ messagesForRound c r

/-- `spectypes.Encoder`, for the values of a kind of runner. -/
structure Encoder (α : Type) where
  decode : Bytes → Except Err α
  encode : α → Except Err Bytes

variable [RunnerSpec]

structure RunningInstance where
  height : ℕ
  /-- The instance, once it has left the window. -/
  detached : Option Instance

/-- `State`, without the containers of partial signatures. -/
structure RunnerState where
  runningInstance : Option RunningInstance
  decidedValue : Data
  currentDutySlot : ℕ
  succeeded : Bool

def RunnerState.new (slot : ℕ) : RunnerState where
  runningInstance := none
  decidedValue := none
  currentDutySlot := slot
  succeeded := false

structure BaseRunner where
  state : Option RunnerState
  qbftController : Controller
  highestDecidedSlot : ℕ

/-- What `baseConsensusMsgProcessing` returns. -/
structure ConsensusOutcome (α : Type) where
  decided : Bool
  value : Option α
  err : Option Err

def RunningInstance.deref (r : RunningInstance) (c : Controller) : Option Instance :=
  match r.detached with
  | some inst => some inst
  | none => c.recentInstances.findInstance r.height

/-- The pointer after a call that has taken the controller from `c` to `c'`. -/
def RunningInstance.after (r : RunningInstance) (c : Controller) (call : Call) (c' : Controller) :
    RunningInstance :=
  if r.detached.isNone ∧ (c'.recentInstances.findInstance r.height).isNone then
    { r with detached := (c.held call).find? fun inst ↦ decide (inst.getHeight = r.height) }
  else r

namespace BaseRunner

variable (b : BaseRunner)

def hasDutyRunning : Bool :=
  match b.state with
  | none => false
  | some s => !s.succeeded

/-- `State.RunningInstance`, where there is one. -/
def running? : Option RunningInstance := b.state.bind (·.runningInstance)

/-- `State.RunningInstance.IsDecided`, false where there is no instance. -/
def runningIsDecided : Bool :=
  match b.running?.bind (·.deref b.qbftController) with
  | none => false
  | some inst => inst.state.decided

def withCall (call : Call) : BaseRunner :=
  let c' := ((Controller.perform call).run b.qbftController).state
  { b with
    qbftController := c'
    state := b.state.map fun s ↦
      { s with runningInstance := s.runningInstance.map (·.after b.qbftController call c') } }

def didDecideCorrectly (prevDecided : Bool) (signedMessage : SignedSSVMessage) :
    Except Err Bool := do
  let decidedMessage ← RunnerSpec.decodeMessage signedMessage.ssvMessage.data
  match b.running? with
  | none =>
    throw (.newError .decidedWrongInstance "decided wrong instance (running instance is nil)")
  | some r =>
    Checks.require (decidedMessage.height = r.height) (.newError .decidedWrongInstance
      ("decided wrong instance (msg_height = " ++ toString decidedMessage.height ++
        ", running_instance_height = " ++ toString r.height ++ ")"))
    return !prevDecided

def validateDecidedConsensusData {α : Type} (enc : Encoder α)
    (valueCheckFn : Bytes → Except Err Unit) (val : α) : Except Err Unit := do
  let byts ← (enc.encode val).mapError (.wrap "could not encode decided value")
  (valueCheckFn byts).mapError (.wrap "decided value is invalid")

/-- The decided value and its encoding, of the running instance. -/
def takeUpDecidedValue {α : Type} (enc : Encoder α) (valueCheckFn : Bytes → Except Err Unit)
    (fullData : Data) : Except Err (α × Bytes) := do
  let decidedValue ← (enc.decode fullData.bytes).mapError
    (.wrap "failed to parse decided value to ValidatorConsensusData")
  (validateDecidedConsensusData enc valueCheckFn decidedValue).mapError
    (.wrap "decided ValidatorConsensusData invalid")
  let decidedValueEncoded ← (enc.encode decidedValue).mapError
    (.wrap "could not encode decided value")
  return (decidedValue, decidedValueEncoded)

/-- `baseConsensusMsgProcessing` from a decided message on. -/
def uponDecidedMsg {α : Type} (enc : Encoder α) (valueCheckFn : Bytes → Except Err Unit)
    (prevDecided : Bool) (decidedMsg : SignedSSVMessage) (b : BaseRunner) :
    BaseRunner × ConsensusOutcome α :=
  match b.didDecideCorrectly prevDecided decidedMsg with
  | .error e => (b, ⟨false, none, some e⟩)
  | .ok false => (b, ⟨false, none, none⟩)
  | .ok true =>
    match takeUpDecidedValue enc valueCheckFn decidedMsg.fullData, b.state with
    | .error e, _ => (b, ⟨true, none, some e⟩)
    | .ok _, none => (b, ⟨true, none, some { text := "current duty slot" }⟩)
    | .ok (decidedValue, encoded), some s =>
      ({ b with
          state := some { s with decidedValue := some encoded }
          highestDecidedSlot := s.currentDutySlot }, ⟨true, some decidedValue, none⟩)

def baseConsensusMsgProcessing {α : Type} (enc : Encoder α)
    (valueCheckFn : Bytes → Except Err Unit) (now : ℕ) (msg : SignedSSVMessage) (b : BaseRunner) :
    BaseRunner × ConsensusOutcome α :=
  let prevDecided := b.hasDutyRunning && b.runningIsDecided
  if prevDecided then
    (b, ⟨true, none, some (.newError .skipConsensusMessageAsConsensusHasFinished
      "not processing consensus message since consensus has already finished")⟩)
  else
    let b' := b.withCall (.processMsg now msg)
    match ((Controller.processMsg now msg).run b.qbftController).result with
    | .error e => (b', ⟨false, none, some (if e.retryable then .newRetryableError e else e)⟩)
    | .ok decidedMsg =>
      if !b'.hasDutyRunning then (b', ⟨false, none, none⟩)
      else
        match decidedMsg with
        | none => (b', ⟨false, none, none⟩)
        | some decidedMsg => b'.uponDecidedMsg enc valueCheckFn prevDecided decidedMsg

/-- `decide`, for the slot of the current duty; the input is given encoded. -/
def decide (now : ℕ) (byts : Data) (valueChecker : ValueChecker) (b : BaseRunner) : BaseRunner :=
  match b.state with
  | none => b
  | some s =>
    if (valueChecker now byts).isOk then
      let call := Call.startNewInstance now s.currentDutySlot byts valueChecker
      let b' := b.withCall call
      if ((Controller.perform call).run b.qbftController).result.isOk then
        { b' with state := some { s with
            runningInstance := some { height := s.currentDutySlot, detached := none } } }
      else b'
    else b

def onQBFTRoundTimeout (now slot round : ℕ) (b : BaseRunner) : BaseRunner :=
  match b.state with
  | none => b
  | some s =>
    if s.succeeded ∨ slot ≠ s.currentDutySlot then b
    else b.withCall (.onQBFTRoundTimeout now slot round)

def shouldProcessDuty (slot : ℕ) : Except Err Unit :=
  Checks.require (¬ (b.qbftController.latestInstanceHeight ≥ slot ∧
    b.qbftController.latestInstanceHeight ≠ 0)) (.newError .dutyAlreadyPassed
      ("duty for slot " ++ toString slot ++ " already passed. Current height is " ++
        toString b.qbftController.latestInstanceHeight))

/-- `baseStartNewDuty` up to `executeDuty`. -/
def baseStartNewDuty (slot : ℕ) (b : BaseRunner) : BaseRunner :=
  if (b.shouldProcessDuty slot).isOk then { b with state := some (.new slot) } else b

/-- `markDutySucceeded` and `markDutyNotRequired`. -/
def markDutySucceeded : BaseRunner :=
  { b with state := b.state.map fun s ↦ { s with succeeded := true } }

end BaseRunner

end Ssv
