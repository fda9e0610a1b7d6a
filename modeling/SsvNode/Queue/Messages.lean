import SsvNode.Lib.LastMax
import SsvNode.Validation.SignerState

/-!
# Queued messages and their order

A queue holds QBFT messages, partial signatures, internal events and messages without a body. The
two prioritizers compare messages by a cascade of scores: the kind of event, the height or slot
relative to the runner's `State`, what the message is, the round, and the type of QBFT message. Both
comparisons are total preorders (`totalPreorder_prior`).
-/

namespace Ssv.Queue

open List (TotalPreorder byScore)
open Validation (PartialSignatureMessages)

inductive EventType where
  | timeout
  | executeDuty
  | other (code : ℕ)
  deriving DecidableEq

structure EventMsg where
  type : EventType
  data : Bytes
  deriving DecidableEq

/-- The decoded data of a queued message; `none` is a `nil` body. -/
inductive Body where
  | none
  | consensus (m : Message)
  | partialSignature (m : PartialSignatureMessages)
  | event (m : EventMsg)
  deriving DecidableEq

/-- `queue.SSVMessage`: a message with its decoding. Events are not signed; other messages carry
what they came in. -/
structure SSVMessage where
  signedSSVMessage : Option SignedSSVMessage
  ssvMessage : Ssv.SSVMessage
  body : Body
  signed : ∀ m, body = .consensus m → signedSSVMessage.isSome = true

/-- The signers of a message; none for an unsigned one. -/
def SSVMessage.operatorIDs (m : SSVMessage) : List OperatorID :=
  (m.signedSSVMessage.map (·.operatorIDs)).getD []

/-- `queue.State`, what the prioritizers know of the runner. -/
structure State where
  hasRunningInstance : Bool
  round : ℕ
  slot : ℕ
  quorum : ℕ
  deriving DecidableEq

/-! ### Scores -/

/-- The three-way comparison of a height or slot with the current one. -/
def compareTo (current x : ℕ) : ℤ :=
  if x = current then 0 else if x > current then 1 else -1

variable (state : State)

def compareHeightOrSlot (m : SSVMessage) : ℤ :=
  match m.body with
  | .consensus qbftMsg => compareTo state.slot qbftMsg.height
  | .partialSignature pms => compareTo state.slot pms.slot
  | _ => -1

def scoreRound (m : SSVMessage) : ℤ :=
  match m.body with
  | .consensus qbftMsg =>
    if qbftMsg.round = state.round then 2 else if qbftMsg.round > state.round then 1 else -1
  | _ => 0

def scoreMessageType (m : SSVMessage) : ℤ :=
  match m.body with
  | .event mm =>
    match mm.type with
    | .executeDuty => 3
    | .timeout => 2
    | .other _ => 0
  | _ => 0

structure MessageClassification where
  isConsensusMessage : Bool
  isPreConsensusMessage : Bool
  isPostConsensusMessage : Bool
  consensusMsgType : MessageType

/-- `classifyMessage`; the zero value of `specqbft.MessageType` is a proposal. -/
def classifyMessage (m : SSVMessage) : MessageClassification :=
  match m.body with
  | .consensus mm => ⟨true, false, false, mm.msgType⟩
  | .partialSignature mm =>
    ⟨false, mm.type ≠ .postConsensus, mm.type = .postConsensus, .proposal⟩
  | _ => ⟨false, false, false, .proposal⟩

/-- `isDecidedMessage`: a commit with **more** signers than a quorum. -/
def isDecidedMessage (s : State) (m : SSVMessage) : Bool :=
  match m.body with
  | .consensus consensusMessage =>
    decide (consensusMessage.msgType = .commit) && decide (m.operatorIDs.length > s.quorum)
  | _ => false

/-- The score of a message below the current height, the same in both tables. -/
def scoreLowerHeight (m : SSVMessage) : ℤ :=
  let classification := classifyMessage m
  if isDecidedMessage state m then 2
  else if classification.isConsensusMessage && decide (classification.consensusMsgType = .commit)
  then 1
  else 0

def scoreMessageSubtype (m : SSVMessage) (relativeHeight : ℤ) : ℤ :=
  let classification := classifyMessage m
  if relativeHeight = 0 then
    if state.hasRunningInstance then
      if classification.isConsensusMessage then 3
      else if classification.isPreConsensusMessage then 2
      else if classification.isPostConsensusMessage then 1
      else 0
    else if classification.isPreConsensusMessage then 3
    else if classification.isPostConsensusMessage then 2
    else if classification.isConsensusMessage then 1
    else 0
  else if relativeHeight = 1 then
    if isDecidedMessage state m then 4
    else if classification.isPreConsensusMessage then 3
    else if classification.isConsensusMessage then 2
    else if classification.isPostConsensusMessage then 1
    else 0
  else scoreLowerHeight state m

def scoreCommitteeMessageSubtype (m : SSVMessage) (relativeHeight : ℤ) : ℤ :=
  let classification := classifyMessage m
  if relativeHeight = 0 then
    if state.hasRunningInstance then
      if classification.isPostConsensusMessage then 4
      else if classification.isConsensusMessage then 3
      else if classification.isPreConsensusMessage then 2
      else 0
    else if classification.isPostConsensusMessage then 3
    else if classification.isPreConsensusMessage then 2
    else if classification.isConsensusMessage then 1
    else 0
  else if relativeHeight = 1 then
    if classification.isPostConsensusMessage then 4
    else if isDecidedMessage state m then 3
    else if classification.isPreConsensusMessage then 2
    else if classification.isConsensusMessage then 1
    else 0
  else scoreLowerHeight state m

def scoreConsensusType (m : SSVMessage) : ℤ :=
  match m.body with
  | .consensus qbftMsg =>
    match qbftMsg.msgType with
    | .proposal => 4
    | .prepare => 3
    | .commit => 2
    | .roundChange => 1
    | .other _ => 0
  | _ => 0

def scoreHeight (relativeHeight : ℤ) : ℤ :=
  if relativeHeight = 0 then 2 else if relativeHeight = 1 then 1 else 0

/-! ### Prioritizers -/

/-- The two implementations of `MessagePrioritizer`. -/
inductive Prioritizer where
  | standard
  | committee
  deriving DecidableEq

/-- The table of subtypes each prioritizer uses. -/
def Prioritizer.scoreSubtype : Prioritizer → State → SSVMessage → ℤ → ℤ
  | .standard => scoreMessageSubtype
  | .committee => scoreCommitteeMessageSubtype

/-- The end of both cascades: ties are prior to each other. -/
def priorConsensusType (a b : SSVMessage) : Bool :=
  if scoreConsensusType a ≠ scoreConsensusType b then
    scoreConsensusType a > scoreConsensusType b
  else true

variable (p : Prioritizer)

/-- After the subtype, only the standard prioritizer looks at the round. -/
def Prioritizer.priorRound (a b : SSVMessage) : Bool :=
  match p with
  | .standard =>
    if scoreRound state a ≠ scoreRound state b then scoreRound state a > scoreRound state b
    else priorConsensusType a b
  | .committee => priorConsensusType a b

/-- `Prior` of `standardPrioritizer` and of `committeePrioritizer`. -/
def Prioritizer.prior (a b : SSVMessage) : Bool :=
  if scoreMessageType a ≠ scoreMessageType b then scoreMessageType a > scoreMessageType b
  else
    let relativeHeightA := compareHeightOrSlot state a
    let relativeHeightB := compareHeightOrSlot state b
    if relativeHeightA ≠ relativeHeightB then
      scoreHeight relativeHeightA > scoreHeight relativeHeightB
    else
      let scoreA := p.scoreSubtype state a relativeHeightA
      let scoreB := p.scoreSubtype state b relativeHeightB
      if scoreA ≠ scoreB then scoreA > scoreB else p.priorRound state a b

/-! ### The order they define -/

theorem scoreHeight_compareHeightOrSlot_inj (a b : SSVMessage) :
    scoreHeight (compareHeightOrSlot state a) = scoreHeight (compareHeightOrSlot state b) ↔
      compareHeightOrSlot state a = compareHeightOrSlot state b := by
  have range (m : SSVMessage) : compareHeightOrSlot state m = 0 ∨
      compareHeightOrSlot state m = 1 ∨ compareHeightOrSlot state m = -1 := by
    unfold compareHeightOrSlot compareTo
    grind
  rcases range a with ha | ha | ha <;> rcases range b with hb | hb | hb <;>
    simp [ha, hb, scoreHeight]

/-- The score of a message in the table of its own relative height. -/
def Prioritizer.subtype (m : SSVMessage) : ℤ :=
  p.scoreSubtype state m (compareHeightOrSlot state m)

theorem Prioritizer.prior_eq :
    p.prior state = byScore scoreMessageType
      (byScore (fun m ↦ scoreHeight (compareHeightOrSlot state m))
        (byScore (p.subtype state) (p.priorRound state))) := by
  funext a b
  unfold Prioritizer.prior byScore
  simp only [ne_eq, scoreHeight_compareHeightOrSlot_inj]
  rfl

theorem Prioritizer.totalPreorder_priorRound : TotalPreorder (p.priorRound state) := by
  have htype : TotalPreorder priorConsensusType := TotalPreorder.always.byScore scoreConsensusType
  cases p with
  | standard => exact htype.byScore (scoreRound state)
  | committee => exact htype

/-- **Both prioritizers are total preorders.** -/
theorem Prioritizer.totalPreorder_prior : TotalPreorder (p.prior state) := by
  rw [p.prior_eq]
  exact (((p.totalPreorder_priorRound state).byScore _).byScore _).byScore _

end Ssv.Queue
