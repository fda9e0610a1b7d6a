import SsvNode.Validation.Network

/-!
# What validation remembers of a signer

`seen_msg_types.go`, `signer_state.go` and `consensus_state.go`: for each message ID a state for
each operator, and in it a **ring** of states for slots, with the round reached and a bit for each
kind of message. A slot's state is at the index `slot % storedSlotCount`, if the state there says
so; another slot of the index evicts it.
-/

namespace Ssv.Validation

/-- `spectypes.PartialSigMsgType`, with the deprecated types of `ssvtypes`. -/
inductive PartialSigMsgType where
  | postConsensus
  | randao
  | selectionProof
  | contributionProofs
  | validatorRegistration
  | voluntaryExit
  | aggregatorCommittee
  | ptcAttester
  | proposerPreferences
  | requestAuth
  | other (code : ℕ)
  deriving DecidableEq

structure PartialSignatureMessage where
  partialSignature : Bytes
  signingRoot : Root
  signer : OperatorID
  validatorIndex : ℕ
  deriving DecidableEq

structure PartialSignatureMessages where
  type : PartialSigMsgType
  slot : ℕ
  messages : List PartialSignatureMessage
  deriving DecidableEq

/-! ### Kinds of messages seen -/

/-- The indices of the bits of `SeenMsgTypes`. -/
inductive SeenIdx where
  | preConsensus
  | proposal
  | prepare
  | commit
  | roundChange
  | postConsensus
  deriving DecidableEq

def SeenIdx.bit : SeenIdx → ℕ
  | .preConsensus => 0
  | .proposal => 1
  | .prepare => 2
  | .commit => 3
  | .roundChange => 4
  | .postConsensus => 5

abbrev SeenMsgTypes : Type := BitVec 8

namespace SeenMsgTypes

variable (c : SeenMsgTypes)

/-- `recordPreConsensus`, `recordProposal` and so on. -/
def record (idx : SeenIdx) : SeenMsgTypes := c ||| (1#8 <<< idx.bit)

/-- `reachedPreConsensusLimit`, `reachedProposalLimit` and so on. -/
def reached (idx : SeenIdx) : Bool := c &&& (1#8 <<< idx.bit) ≠ 0#8

/-- The bit a partial signature message is recorded under, if it has one. -/
def partialIdx : PartialSigMsgType → Except Err (Option SeenIdx)
  | .randao | .selectionProof | .contributionProofs | .validatorRegistration | .voluntaryExit
  | .aggregatorCommittee | .ptcAttester => .ok (some .preConsensus)
  | .proposerPreferences | .requestAuth => .ok none
  | .postConsensus => .ok (some .postConsensus)
  | .other _ => .error (.text "unexpected partial signature message type")

def recordPartialSignatureMessage (messages : PartialSignatureMessages) : Except Err SeenMsgTypes :=
  match partialIdx messages.type with
  | .error e => .error e
  | .ok none => .ok c
  | .ok (some idx) => .ok (c.record idx)

/-- `RecordConsensusMessage`, for a message with so many signers. -/
def recordConsensusMessage (signers : ℕ) (msgType : MessageType) : Except Err SeenMsgTypes :=
  match msgType with
  | .proposal => .ok (c.record .proposal)
  | .prepare => .ok (c.record .prepare)
  | .commit => .ok (if signers = 1 then c.record .commit else c)
  | .roundChange => .ok (c.record .roundChange)
  | .other code => .error (.text ("unexpected signed message type: " ++ toString code))

end SeenMsgTypes

/-! ### The state of a signer in a slot -/

abbrev PeerID : Type := String

structure SignerState where
  seenMsgTypes : SeenMsgTypes := 0#8
  hashedProposalData : Option Root := none
  seenDecidedMsgSignersCount : ℕ := 0

structure SignerStateForSlotRound where
  slot : ℕ
  round : ℕ
  peers : PeerID → Option SignerState
  world : SignerState
  seenProposerPreferencesRoots : List Root
  seenRequestAuthRoots : List Root

scoped instance (root : Root) (roots : List Root) : Decidable (root ∈ roots) := inferInstance

namespace SignerStateForSlotRound

/-- `newSignerState`, and what `Reset` leaves behind. -/
def new (slot round : ℕ) : SignerStateForSlotRound where
  slot := slot
  round := round
  peers := fun _ ↦ none
  world := {}
  seenProposerPreferencesRoots := []
  seenRequestAuthRoots := []

/-- `Reset`: everything is replaced. -/
def reset (_ : SignerStateForSlotRound) (slot round : ℕ) : SignerStateForSlotRound := new slot round

variable (s : SignerStateForSlotRound)

def peekPeer (peerID : PeerID) : SignerState :=
  (s.peers peerID).getD {}

/-- Assign to `Peer(peerID)`, which is added on first use. -/
def updatePeer (peerID : PeerID) (f : SignerState → SignerState) :
    SignerStateForSlotRound :=
  { s with peers := fun p ↦ if p = peerID then some (f (s.peekPeer peerID)) else s.peers p }

/-- Assign to `World`. -/
def updateWorld (f : SignerState → SignerState) :
    SignerStateForSlotRound :=
  { s with world := f s.world }

def seenRootsFor : PartialSigMsgType → List Root
  | .proposerPreferences => s.seenProposerPreferencesRoots
  | .requestAuth => s.seenRequestAuthRoots
  | _ => []

/-- `seenRootSet.record`. -/
def recordRoot (roots : List Root) (root : Root) : List Root :=
  if root ∈ roots then roots else roots ++ [root]

def recordRoots (m : PartialSignatureMessages) :
    SignerStateForSlotRound :=
  let record (roots : List Root) := (m.messages.map (·.signingRoot)).foldl recordRoot roots
  match m.type with
  | .proposerPreferences =>
    { s with seenProposerPreferencesRoots := record s.seenProposerPreferencesRoots }
  | .requestAuth => { s with seenRequestAuthRoots := record s.seenRequestAuthRoots }
  | _ => s

end SignerStateForSlotRound

/-! ### The state of an operator -/

structure EpochDuties where
  epoch : ℕ := 0
  count : ℕ := 0

structure OperatorState where
  signers : List (Option SignerStateForSlotRound)
  maxSlot : ℕ
  duties : List EpochDuties

namespace OperatorState

/-- `newOperatorState`. -/
def new (slotCount epochCount : ℕ) : OperatorState where
  signers := List.replicate slotCount none
  maxSlot := 0
  duties := List.replicate epochCount {}

variable (os : OperatorState)

/-- `GetSignerStateForSlot`, of an operator with state. -/
def getSignerStateForSlot (slot : ℕ) : Option SignerStateForSlotRound :=
  (os.signers[slot % os.signers.length]?).join.filter fun s ↦ s.slot = slot

def countDuty (duties : List EpochDuties) (epoch : ℕ) : List EpochDuties :=
  let i := epoch % duties.length
  match duties[i]? with
  | none => duties
  | some entry =>
    if entry.count = 0 ∨ epoch > entry.epoch then duties.set i { epoch := epoch, count := 1 }
    else if epoch = entry.epoch then duties.set i { entry with count := entry.count + 1 }
    else duties

def setSignerStateForSlot (slot epoch : ℕ) (state : SignerStateForSlotRound) : OperatorState where
  signers := os.signers.set (slot % os.signers.length) (some state)
  maxSlot := max os.maxSlot slot
  duties := countDuty os.duties epoch

def storeSignerState (slot : ℕ) (state : SignerStateForSlotRound) : OperatorState :=
  { os with signers := os.signers.set (slot % os.signers.length) (some state) }

/-- `DutyCount`, of an operator with state. -/
def dutyCount (epoch : ℕ) : ℕ :=
  match os.duties[epoch % os.duties.length]? with
  | none => 0
  | some entry => if entry.count = 0 ∨ entry.epoch ≠ epoch then 0 else entry.count

end OperatorState

/-! ### The state of a validator -/

structure ValidatorState where
  committeeID : Bytes
  operators : List (Option OperatorState)
  storedSlotCount : ℕ
  storedEpochCount : ℕ

namespace ValidatorState

variable (cs : ValidatorState)

/-- `OperatorState`: allocated on first use. -/
def operatorState (operatorIdx : ℕ) : OperatorState :=
  (cs.operators[operatorIdx]?).join.getD (.new cs.storedSlotCount cs.storedEpochCount)

def setOperatorState (operatorIdx : ℕ) (os : OperatorState) :
    ValidatorState :=
  { cs with operators := cs.operators.set operatorIdx (some os) }

def peekOperatorState (operatorIdx : ℕ) : Option OperatorState :=
  (cs.operators[operatorIdx]?).join

end ValidatorState

variable (os : Option OperatorState)

/-- `GetSignerStateForSlot`, of an operator that may have no state. -/
def peekSignerState (slot : ℕ) : Option SignerStateForSlotRound :=
  os.bind (·.getSignerStateForSlot slot)

/-- `MaxSlot`, of an operator that may have no state. -/
def peekMaxSlot : ℕ := (os.map (·.maxSlot)).getD 0

/-- `DutyCount`, of an operator that may have no state. -/
def peekDutyCount (epoch : ℕ) : ℕ := (os.map (·.dutyCount epoch)).getD 0

end Ssv.Validation
