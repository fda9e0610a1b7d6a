import SsvNode.Lib.GoMap
import SsvNode.Lib.Checks
import SsvNode.Queue.MessageSlot
import SsvNode.Queue.PriorityQueue

/-!
# The consumer of a validator's queue

The loop of `StartQueueConsumer`: pop the message the runner can use best, drop it if it is
**stale** (below the `floor`, the consumer's copy of the runner's slot, and no duty start), hand it
to `ProcessMessage`, push it again if that failed in a retryable way, and take over the runner's
slot after the start of a duty. `η` is what the methods of a runner meet; a `SingleSlotRunner`
serves one slot at a time, as all but that of the proposer preferences do.
-/

namespace Ssv.Validator

open Queue (PriorityQueue EventSpec EventMsg TimeoutData)
open Validation (PartialSignatureMessages)
open Checks (require)

/-! ### Runners -/

/-- The methods of a runner that serves one slot at a time, which only the start of a duty moves. -/
structure SingleSlotRunner (η ρ : Type) where
  currentDutySlot : ρ → Option ℕ
  hasRunningDuty : ρ → Bool
  hasRunningQBFTInstance : ρ → Bool
  hasAcceptedProposalForCurrentRound : ρ → Bool
  getLastHeight : ρ → ℕ
  getLastRound : ρ → ℕ
  /-- `AwaitingPostConsensus`, of the runners that have it. -/
  awaitingPostConsensus : ρ → Option ℕ
  startNewDuty : η → ValidatorDuty → ρ → ρ × Except Err Unit
  processConsensus : η → SignedSSVMessage → ρ → ρ × Except Err Unit
  processPreConsensus : η → PartialSignatureMessages → ρ → ρ × Except Err Unit
  processPostConsensus : η → PartialSignatureMessages → ρ → ρ × Except Err Unit
  onQBFTRoundTimeout : η → TimeoutData → ρ → ρ × Except Err Unit
  startNewDuty_slot : ∀ env duty r,
    currentDutySlot (startNewDuty env duty r).1 = currentDutySlot r ∨
      currentDutySlot (startNewDuty env duty r).1 = some duty.slot
  processConsensus_slot : ∀ env sm r, currentDutySlot (processConsensus env sm r).1 =
    currentDutySlot r
  processPreConsensus_slot : ∀ env pms r,
    currentDutySlot (processPreConsensus env pms r).1 = currentDutySlot r
  processPostConsensus_slot : ∀ env pms r,
    currentDutySlot (processPostConsensus env pms r).1 = currentDutySlot r
  onQBFTRoundTimeout_slot : ∀ env data r,
    currentDutySlot (onQBFTRoundTimeout env data r).1 = currentDutySlot r

/-! ### Handling a message -/

/-- What `ProcessMessage` calls besides the runner. -/
structure HandlerEnv (η : Type) where
  runner : η
  /-- `SignedSSVMessage.Validate`. -/
  validateSigned : SignedSSVMessage → Except Err Unit
  /-- `spectypes.Verify`, against the validator's committee. -/
  verify : SignedSSVMessage → Except Err Unit
  /-- `MessageIDBelongs`, of the validator's public key. -/
  messageIDBelongs : Bytes → Bool
  /-- `specqbft.Message.Validate`. -/
  validateQbft : Message → Except Err Unit
  validateForSigner : PartialSignatureMessages → OperatorID → Except Err Unit
  start : Except Err Unit
  hasRunner : ValidatorDuty → Bool

/-- `SSVEventMsgType`. -/
def eventMsgType : MsgType := .other 200

variable {η ρ : Type}

def checked (r : ρ) (check : Except Err Unit) (call : ρ → ρ × Except Err Unit) :
    ρ × Except Err Unit :=
  match check with
  | .error e => (r, .error e)
  | .ok () => call r

/-- A call of the runner with its error put in context. -/
def withContext (context : String) (o : ρ × Except Err Unit) : ρ × Except Err Unit :=
  (o.1, o.2.mapError (.wrap context))

/-- The checks of `ProcessMessage` on every message. -/
def checkMessage (env : HandlerEnv η) (msg : Queue.SSVMessage) : Except Err Unit := do
  if msg.ssvMessage.msgType ≠ eventMsgType then
    match msg.signedSSVMessage with
    | none => throw .nilDereference
    | some sm =>
      (env.validateSigned sm).mapError (.wrap "invalid SignedSSVMessage")
      (env.verify sm).mapError fun e ↦
        .wrapError .messageSignatureInvalid (e.wrap "SignedSSVMessage has an invalid signature")
  -- `validateMessage`
  require (env.messageIDBelongs msg.ssvMessage.msgID = true)
    { text := "message invalid for msg ID: msg ID doesn't match validator ID" }
  require (msg.ssvMessage.data ≠ []) { text := "message invalid for msg ID: msg data is invalid" }

section

variable (R : SingleSlotRunner η ρ) (env : HandlerEnv η)

/-- `StartDuty`, of the runner of the role. -/
def startDuty (duty : ValidatorDuty) (r : ρ) : ρ × Except Err Unit :=
  if env.hasRunner duty then
    withContext "could not start duty" (R.startNewDuty env.runner duty r)
  else (r, .error { text := "no duty runner for role" })

variable [EventSpec]

open Queue.EventSpec

def onExecuteDuty (eventMsg : EventMsg) (r : ρ) : ρ × Except Err Unit :=
  match getExecuteDutyData eventMsg with
  | .error e => (r, .error (e.wrap "failed to get execute duty data"))
  | .ok none => (r, .error .nilDereference)
  | .ok (some duty) =>
    checked r (env.start.mapError (.wrap "could not start validator"))
      fun r ↦ withContext "could not start duty" (startDuty R env duty r)

def processPartialSignatures (msg : Queue.SSVMessage) (pms : PartialSignatureMessages) (r : ρ) :
    ρ × Except Err Unit :=
  match msg.operatorIDs with
  | [signer] =>
    checked r ((env.validateForSigner pms signer).mapError
        (.wrap "invalid PartialSignatureMessages")) fun r ↦
      if pms.type = .postConsensus then
        withContext "process post-consensus message" (R.processPostConsensus env.runner pms r)
      else withContext "process pre-consensus message" (R.processPreConsensus env.runner pms r)
  | _ => (r, .error { text := "PartialSignatureMessage has more than 1 signer" })

/-- The `switch` of `ProcessMessage`. -/
def dispatch (msg : Queue.SSVMessage) (r : ρ) : ρ × Except Err Unit :=
  match msg.ssvMessage.msgType with
  | .ssvConsensusMsgType =>
    match msg.body, msg.signedSSVMessage with
    | .consensus qbftMsg, some sm =>
      checked r ((env.validateQbft qbftMsg).mapError (.wrap "invalid QBFT Message")) fun r ↦
        withContext "process consensus message" (R.processConsensus env.runner sm r)
    | _, _ => (r, .error { text := "could not decode consensus message body from network message" })
  | .ssvPartialSignatureMsgType =>
    match msg.body with
    | .partialSignature pms => processPartialSignatures R env msg pms r
    | _ => (r, .error { text := "could not decode partial-sig message body from network message" })
  | .other 200 =>
    match msg.body with
    | .event eventMsg =>
      match eventMsg.type with
      | .timeout =>
        match getTimeoutData eventMsg with
        | .error e => (r, .error (e.wrap "event message: get timeout data"))
        | .ok data =>
          withContext "process event message qbft-timeout" (R.onQBFTRoundTimeout env.runner data r)
      | .executeDuty =>
        withContext "process event message execute-duty" (onExecuteDuty R env eventMsg r)
      | .other _ => (r, .error { text := "unknown event msg" })
    | _ => (r, .error { text := "could not decode event message body" })
  | .other _ => (r, .error { text := "unknown message type" })

def processMessage (msg : Queue.SSVMessage) (r : ρ) : ρ × Except Err Unit :=
  checked r (checkMessage env msg) (dispatch R env msg)

end

/-! ### The filters -/

variable [EventSpec]

open Queue.EventSpec

def isExecuteDuty (msg : Queue.SSVMessage) : Bool :=
  match msg.body with
  | .event e => decide (e.type = .executeDuty)
  | _ => false

def slotBelow (floor : ℕ) (m : Queue.SSVMessage) : Bool :=
  if isExecuteDuty m then false
  else
    match m.slot with
    | .error _ => false
    | .ok slot => decide (slot < floor)

def awaitingProposalFilter (height round : ℕ) (m : Queue.SSVMessage) : Bool :=
  match m.body with
  | .consensus qbftMsg =>
    if qbftMsg.height ≠ height ∨ qbftMsg.round ≠ round then true
    else decide (qbftMsg.msgType ≠ .prepare) && decide (qbftMsg.msgType ≠ .commit)
  | _ => true

/-- `noRunningDutyFilter`, given the slot whose post-consensus packets are awaited. -/
def noRunningDutyFilter (awaiting : Option ℕ) (m : Queue.SSVMessage) : Bool :=
  match m.body with
  | .event body => decide (body.type = .executeDuty)
  | .partialSignature body =>
    decide (body.type = .postConsensus) && decide (awaiting = some body.slot)
  | _ => false

/-- `popFilter`, for a runner that serves one slot at a time. -/
def popFilter (R : SingleSlotRunner η ρ) (r : ρ) (rState : Queue.State) : Queue.SSVMessage → Bool :=
  if !R.hasRunningDuty r then noRunningDutyFilter (R.awaitingPostConsensus r)
  else if rState.hasRunningInstance && !R.hasAcceptedProposalForCurrentRound r then
    awaitingProposalFilter rState.slot rState.round
  else fun _ ↦ true

/-! ### The states of messages -/

/-- `messageKey`, with its parts apart. -/
inductive MessageKey where
  | event (slot : ℕ) (type : Queue.EventType) (round : ℕ) (msgID : Bytes)
  | consensus (slot : ℕ) (type : MessageType) (round : ℕ) (msgID : Bytes)
      (signers : List OperatorID)
  | partialSig (slot : ℕ) (type : Validation.PartialSigMsgType) (msgID : Bytes)
      (signer : OperatorID)
  deriving DecidableEq

def mKey (msg : Queue.SSVMessage) : Except Err MessageKey := do
  let msgSlot ← msg.slot.mapError (.wrap "couldn't get message slot")
  match msg.ssvMessage.msgType, msg.body with
  | .other 200, .event eventMsg =>
    let round ← (if eventMsg.type = .timeout then do
      let data ← (getTimeoutData eventMsg).mapError (.wrap "event message: get timeout data")
      return data.round
    else return 0 : Except Err ℕ)
    return .event msgSlot eventMsg.type round msg.ssvMessage.msgID
  | .other 200, _ => throw { text := "event message: invalid msg body" }
  | .ssvConsensusMsgType, .consensus sm =>
    return .consensus msgSlot sm.msgType sm.round msg.ssvMessage.msgID msg.operatorIDs
  | .ssvConsensusMsgType, _ => throw { text := "qbft message: invalid msg body" }
  | .ssvPartialSignatureMsgType, .partialSignature psm =>
    -- `PartialSigMsgSigner` indexes the first message; the source panics where there is none
    match psm.messages with
    | [] => throw { text := "index out of range [0] with length 0" }
    | m :: _ => return .partialSig msgSlot psm.type msg.ssvMessage.msgID m.signer
  | .ssvPartialSignatureMsgType, _ => throw { text := "partial-sig message: invalid msg body" }
  | .other _, _ =>
    throw { text := "unexpected message type (expected types: event, qbft, partial-sig)" }

/-- `logWithMessageFields`, of which only the errors matter. -/
def logWithMessageFields (msg : Queue.SSVMessage) : Except Err Unit := do
  let _ ← msg.slot.mapError (.wrap "couldn't get message slot")
  match msg.ssvMessage.msgType, msg.body with
  | .ssvConsensusMsgType, .consensus _ => return
  | .ssvConsensusMsgType, _ => throw { text := "invalid qbft msg body" }
  | .other 200, .event eventMsg =>
    if eventMsg.type = .timeout then
      let _ ← (getTimeoutData eventMsg).mapError (.wrap "event message: get timeout data")
  | .other 200, _ => throw { text := "event message: invalid msg body" }
  | _, _ => return

/-! ### The loop -/

/-- The messages that were handled, and those discarded as stale, each with the slot of the runner's
duty. -/
inductive Entry where
  | handed (msg : Queue.SSVMessage) (held : Option ℕ)
  | stale (msg : Queue.SSVMessage) (held : Option ℕ)

/-- `ConsumeQueue`, between two iterations. -/
structure Consumer (ρ : Type) where
  queue : PriorityQueue Queue.SSVMessage
  runner : ρ
  floor : ℕ
  /-- `msgStates`: the attempts made for a message. -/
  msgStates : GoMap MessageKey ℕ
  retries : List Queue.SSVMessage
  /-- A ghost. -/
  log : List Entry

structure ConsumerConfig where
  quorum : ℕ
  /-- `SlotDuration / retryDelay`. -/
  retryCount : ℕ

namespace Consumer

variable (R : SingleSlotRunner η ρ) (cfg : ConsumerConfig)

def new (r : ρ) (capacity : ℕ) : Consumer ρ where
  queue := .new capacity
  runner := r
  floor := 0
  msgStates := ∅
  retries := []
  log := []

def tryPush (msg : Queue.SSVMessage) (c : Consumer ρ) : Consumer ρ :=
  if c.queue.inbox.length < c.queue.capacity then { c with queue := c.queue.send msg } else c

/-- `EnqueueMessage`: a message without a slot is dropped. -/
def enqueueMessage (msg : Queue.SSVMessage) (c : Consumer ρ) : Consumer ρ :=
  match msg.slot with
  | .error _ => c
  | .ok _ => c.tryPush msg

def endStaleMessageState (msg : Queue.SSVMessage) (states : GoMap MessageKey ℕ) :
    GoMap MessageKey ℕ :=
  match mKey msg with
  | .error _ => states
  | .ok key => states.erase key

/-- A goroutine pushes its message again, if there is room. -/
def retry (i : ℕ) (c : Consumer ρ) : Consumer ρ :=
  match c.retries[i]? with
  | none => c
  | some msg =>
    let c := { c with retries := c.retries.eraseIdx i }
    if c.queue.inbox.length < c.queue.capacity then { c with queue := c.queue.send msg }
    else { c with msgStates := endStaleMessageState msg c.msgStates }

/-- A message that was popped below the floor. -/
def dropStale (msg : Queue.SSVMessage) (c : Consumer ρ) : Consumer ρ :=
  { c with
    msgStates := endStaleMessageState msg c.msgStates
    log := c.log ++ [.stale msg (R.currentDutySlot c.runner)] }

/-- `Purge`: the inbox is read first. -/
def purge (shouldDrop : Queue.SSVMessage → Bool) (c : Consumer ρ) : Consumer ρ :=
  let read := { c.queue with head := c.queue.inbox.reverse ++ c.queue.head, inbox := [] }
  let (removed, q) := read.purge shouldDrop
  { c with
    queue := q
    msgStates := removed.foldl (fun states m ↦ endStaleMessageState m states) c.msgStates
    log := c.log ++ removed.map fun m ↦ .stale m (R.currentDutySlot c.runner) }

/-- The handler; a retryable message it fails on is pushed again later. -/
def handle (env : HandlerEnv η) (msg : Queue.SSVMessage) (key : MessageKey) (c : Consumer ρ) :
    Consumer ρ :=
  let attempts := (c.msgStates.lookup key).getD 0
  let (r, result) := processMessage R env msg c.runner
  let c : Consumer ρ :=
    { c with runner := r, log := c.log ++ [.handed msg (R.currentDutySlot c.runner)] }
  match result with
  | .ok () => { c with msgStates := c.msgStates.erase key }
  | .error e =>
    if e.retryable && decide (attempts ≤ cfg.retryCount) then
      { c with msgStates := c.msgStates.insert key (attempts + 1), retries := c.retries ++ [msg] }
    else { c with msgStates := c.msgStates.erase key }

/-- After the start of a duty the floor is the runner's slot, and the tail of earlier duties is
purged if it was idle. -/
def syncFloor (idle : Bool) (msg : Queue.SSVMessage) (c : Consumer ρ) : Consumer ρ :=
  if isExecuteDuty msg then
    match R.currentDutySlot c.runner with
    | none => c
    | some dutySlot =>
      let c := { c with floor := dutySlot }
      if idle then c.purge R (slotBelow dutySlot) else c
  else c

/-- An iteration, from the message that was popped. -/
def consume (env : HandlerEnv η) (msg : Queue.SSVMessage) (c : Consumer ρ) : Consumer ρ :=
  let idle := !R.hasRunningDuty c.runner
  if slotBelow c.floor msg then c.dropStale R msg
  else
    match logWithMessageFields msg, mKey msg with
    | .ok (), .ok key => (c.handle R cfg env msg key).syncFloor R idle msg
    | _, _ => c

def rState (c : Consumer ρ) : Queue.State where
  hasRunningInstance := R.hasRunningQBFTInstance c.runner
  round := R.getLastRound c.runner
  slot := R.getLastHeight c.runner
  quorum := cfg.quorum

/-- An iteration of the loop, if the list has a message the filter accepts. -/
def iterate (env : HandlerEnv η) (c : Consumer ρ) : Consumer ρ :=
  let state := c.rState R cfg
  match c.queue.pop (Queue.Prioritizer.standard.prior state) (popFilter R c.runner state) with
  | (none, _) => c
  | (some msg, q) => { c with queue := q }.consume R cfg env msg

end Consumer

end Ssv.Validator
