import SsvNode.Lib.GoMap
import SsvNode.Lib.Machine
import Mathlib.Algebra.Group.Nat.Defs
import Mathlib.Data.Finset.Card

/-!
# Doppelganger protection

`doppelganger.go` and `state.go`. A validator may sign when its countdown of epochs in which it was
not seen live is over, or when a quorum of its operators was seen to sign. Each time the loop of
`Start` takes the lock is a step. `Evidence` is a ghost. `currentEpoch-1` and `previousEpoch+1`
wrap.
-/

namespace Ssv.Doppelganger

def initialRemainingDetectionEpochs : ℕ := 2

structure DoppelgangerState where
  remainingEpochs : ℕ
  observedQuorum : Bool
  deriving DecidableEq

namespace DoppelgangerState

/-- The state of a validator that is added to tracking. -/
def added : DoppelgangerState := ⟨initialRemainingDetectionEpochs, false⟩

variable (ds : DoppelgangerState)

def safe : Bool := decide (ds.remainingEpochs = 0) || ds.observedQuorum

/-- `decreaseRemainingEpochs`; an error is only logged. -/
def decreaseRemainingEpochs : DoppelgangerState :=
  if ds.remainingEpochs = 0 then ds else { ds with remainingEpochs := ds.remainingEpochs - 1 }

def resetRemainingEpochs : DoppelgangerState :=
  { ds with remainingEpochs := initialRemainingDetectionEpochs }

end DoppelgangerState

structure ValidatorLiveness where
  index : ℕ
  isLive : Bool
  deriving DecidableEq

/-- What was seen of a validator since its last reset: a quorum, and the epochs in which it was not
live. -/
structure Evidence where
  quorum : Bool
  notLive : Finset ℕ

def Evidence.none : Evidence := ⟨false, ∅⟩

/-- The local variables of `Start`. -/
structure Loop where
  startEpoch : ℕ
  previousEpoch : ℕ
  firstRun : Bool

/-- Waiting for a tick, resetting all states, collecting the validators to ask about, or waiting for
the beacon node. -/
inductive Phase where
  | waiting
  | resetting (currentEpoch : ℕ)
  | collecting (currentEpoch : ℕ)
  | querying (currentEpoch : ℕ)
  deriving DecidableEq

structure World where
  validatorsState : GoMap ℕ DoppelgangerState
  loop : Loop
  phase : Phase
  evidence : ℕ → Evidence

namespace World

/-- `NewHandler`, and the loop before its first tick. -/
def new : World := ⟨∅, ⟨0, 0, true⟩, .waiting, fun _ ↦ .none⟩

def canSign (w : World) (validatorIndex : ℕ) : Bool :=
  match w.validatorsState.lookup validatorIndex with
  | none => false
  | some state => state.safe

def reportQuorum (w : World) (validatorIndex : ℕ) : World :=
  match w.validatorsState.lookup validatorIndex with
  | none => w
  | some state =>
    { w with
      validatorsState := if state.safe then w.validatorsState
        else w.validatorsState.insert validatorIndex { state with observedQuorum := true }
      evidence := Function.update w.evidence validatorIndex
        { w.evidence validatorIndex with quorum := true } }

def removeValidatorState (w : World) (validatorIndex : ℕ) : World :=
  { w with validatorsState := w.validatorsState.erase validatorIndex }

/-- The first loop of `updateDoppelgangerState`, for one index. -/
def addValidator (w : World) (idx : ℕ) : World :=
  match w.validatorsState.lookup idx with
  | none =>
    { w with
      validatorsState := w.validatorsState.insert idx .added
      evidence := Function.update w.evidence idx .none }
  | some _ => w

def updateDoppelgangerState (w : World) (validatorIndices : List ℕ) : World :=
  let w' := validatorIndices.foldl addValidator w
  { w' with
    validatorsState := w'.validatorsState.purge fun idx _ ↦ decide (idx ∈ validatorIndices) }

def resetDoppelgangerStates (w : World) : World :=
  { w with
    validatorsState := w.validatorsState.mapVal fun _ state ↦ state.resetRemainingEpochs
    evidence := fun idx ↦
      if (w.validatorsState.lookup idx).isSome then .none else w.evidence idx }

/-- The loop of `processLivenessData`, for one response. -/
def processResponse (epoch : ℕ) (w : World) (response : ValidatorLiveness) : World :=
  match w.validatorsState.lookup response.index with
  | none => w
  | some state =>
    if response.isLive then
      { w with
        validatorsState := w.validatorsState.insert response.index state.resetRemainingEpochs
        evidence := Function.update w.evidence response.index .none }
    else
      { w with
        validatorsState := w.validatorsState.insert response.index state.decreaseRemainingEpochs
        evidence := Function.update w.evidence response.index
          { w.evidence response.index with
            notLive := insert epoch (w.evidence response.index).notLive } }

def processLivenessData (epoch : ℕ) (w : World) (livenessData : List ValidatorLiveness) : World :=
  livenessData.foldl (processResponse epoch) w

/-- The end of a tick that made a liveness check. -/
def endTick (w : World) (currentEpoch : ℕ) : World :=
  { w with loop := { w.loop with previousEpoch := currentEpoch }, phase := .waiting }

/-- It is the first run or the last slot of an epoch, and not the epoch the loop started in. -/
def checksLiveness (l : Loop) (slotsPerEpoch slot : ℕ) : Bool :=
  !((!l.firstRun && decide (slot % slotsPerEpoch ≠ slotsPerEpoch - 1)) ||
    decide (l.startEpoch = slot / slotsPerEpoch))

/-- An epoch has been skipped since the last check. -/
def skippedEpoch (l : Loop) (currentEpoch : ℕ) : Bool :=
  decide (l.previousEpoch > 0) && decide (currentEpoch ≠ (l.previousEpoch + 1) % 2 ^ 64)

/-- A tick of the loop, up to where it gives up the lock. -/
def tick (slotsPerEpoch : ℕ) (w : World) (slot : ℕ) (validatorIndices : List ℕ) : World :=
  let currentEpoch := slot / slotsPerEpoch
  let w := w.updateDoppelgangerState validatorIndices
  if checksLiveness w.loop slotsPerEpoch slot then
    let loop :=
      if w.loop.firstRun then { w.loop with startEpoch := currentEpoch, firstRun := false }
      else w.loop
    { w with
      loop := loop
      phase := if skippedEpoch loop currentEpoch then .resetting currentEpoch
        else .collecting currentEpoch }
  else w

/-- The validators `checkLiveness` asks about. -/
def validatorsToCheck (w : World) : List ℕ :=
  (w.validatorsState.entries.filter fun e ↦ !e.2.safe).map (·.1)

/-- `checkLiveness`, up to the query. -/
def collect (w : World) (currentEpoch : ℕ) : World :=
  if w.validatorsToCheck = [] then w.endTick currentEpoch
  else { w with phase := .querying currentEpoch }

/-- `checkLiveness` once the beacon node has answered; `none` is a failed query. -/
def respond (w : World) (currentEpoch : ℕ) : Option (List ValidatorLiveness) → World
  | none => w.endTick currentEpoch
  | some livenessData =>
    (w.processLivenessData ((currentEpoch + (2 ^ 64 - 1)) % 2 ^ 64) livenessData).endTick
      currentEpoch

end World

inductive Action where
  | tick (slot : ℕ) (validatorIndices : List ℕ)
  | reset
  | collect
  | respond (response : Option (List ValidatorLiveness))
  | reportQuorum (validatorIndex : ℕ)
  | removeValidatorState (validatorIndex : ℕ)

def next (slotsPerEpoch : ℕ) (w : World) : Action → World
  | .tick slot validatorIndices => w.tick slotsPerEpoch slot validatorIndices
  | .reset =>
    match w.phase with
    | .resetting currentEpoch =>
      { w.resetDoppelgangerStates with phase := .collecting currentEpoch }
    | _ => w
  | .collect =>
    match w.phase with
    | .collecting currentEpoch => w.collect currentEpoch
    | _ => w
  | .respond response =>
    match w.phase with
    | .querying currentEpoch => w.respond currentEpoch response
    | _ => w
  | .reportQuorum validatorIndex => w.reportQuorum validatorIndex
  | .removeValidatorState validatorIndex => w.removeValidatorState validatorIndex

def OneEach (response : Option (List ValidatorLiveness)) : Prop :=
  ((response.getD []).map (·.index)).Nodup

instance (response : Option (List ValidatorLiveness)) : Decidable (OneEach response) :=
  inferInstanceAs (Decidable (List.Nodup _))

/-- When each step may occur; the slot of a tick is any `uint64`. -/
def Enabled (w : World) : Action → Prop
  | .tick slot _ => w.phase = .waiting ∧ slot < 2 ^ 64
  | .respond response => OneEach response
  | _ => True

instance decidableEnabled (w : World) : ∀ a, Decidable (Enabled w a)
  | .tick slot _ => inferInstanceAs (Decidable (w.phase = .waiting ∧ slot < 2 ^ 64))
  | .respond response => inferInstanceAs (Decidable (OneEach response))
  | .reset | .collect | .reportQuorum _ | .removeValidatorState _ => .isTrue trivial

def machine (slotsPerEpoch : ℕ) : Machine World Action where
  initial w := w = .new
  enabled := Enabled
  next := next slotsPerEpoch

end Ssv.Doppelganger
