import SsvNode.Duties.Handler

/-!
# The attester handler

`attester.go`: fetching attester duties, subscribing to their committees and, before the Boole fork,
executing aggregations. Every call of the beacon node is answered by a `View` of its own, since the
set of validators changes in between.
-/

namespace Ssv.Duties

structure AttesterDuty where
  pubKey : Bytes
  slot : ℕ
  validatorIndex : ℕ
  committeeIndex : ℕ
  committeesAtSlot : ℕ
  deriving DecidableEq

structure BeaconCommitteeSubscription where
  validatorIndex : ℕ
  slot : ℕ
  committeeIndex : ℕ
  committeesAtSlot : ℕ
  isAggregator : Bool
  deriving DecidableEq

structure ReorgEvent where
  currentDutyDependentRootChanged : Bool
  previousDutyDependentRootChanged : Bool
  deriving DecidableEq

namespace Attester

inductive Event where
  /-- `beaconNode.AttesterDuties`, and whether it answered. -/
  | attesterDuties (epoch : ℕ) (indices : List ℕ) (ok : Bool)
  | submitBeaconCommitteeSubscriptions (subscriptions : List BeaconCommitteeSubscription)
  /-- `dutiesExecutor.ExecuteDuties`, with the slot whose start is the deadline. -/
  | executeDuties (duties : List ValidatorDuty) (deadline : ℕ)
  | indicesChange (currentEpoch : ℕ)
  | reorg (currentEpoch : ℕ) (event : ReorgEvent)
  deriving DecidableEq

abbrev Method : Type := Act Err Event (Handler AttesterDuty) Unit

/-- What a fetch finds: the node's validators and the answer of the beacon node. -/
structure View where
  selfValidators : List Share
  attesterDuties : Except Err (List AttesterDuty)

/-- Some validator of the node attests in the epoch. -/
def View.Eligible (view : View) (epoch : ℕ) : Prop :=
  ∃ share ∈ view.selfValidators, share.isAttesting epoch

def toSpecDuty (duty : AttesterDuty) (role : BeaconRole) : ValidatorDuty where
  type := role
  pubKey := duty.pubKey
  slot := duty.slot
  validatorIndex := duty.validatorIndex
  committeeIndex := duty.committeeIndex

def toBeaconCommitteeSubscription (duty : AttesterDuty) (role : BeaconRole) :
    BeaconCommitteeSubscription where
  validatorIndex := duty.validatorIndex
  slot := duty.slot
  committeeIndex := duty.committeeIndex
  committeesAtSlot := duty.committeesAtSlot
  isAggregator := role = .aggregator

def calculateSubscriptionInfo (duties : List AttesterDuty) (slot : ℕ) :
    List BeaconCommitteeSubscription :=
  (duties.filter fun duty ↦ slot ≤ duty.slot).flatMap fun duty ↦
    [toBeaconCommitteeSubscription duty .attester, toBeaconCommitteeSubscription duty .aggregator]

def eligibleIndices (view : View) (epoch : ℕ) : List ℕ :=
  (view.selfValidators.filter (·.isAttesting epoch)).map (·.validatorIndex)

def fetchAndProcessDuties (view : View) (currentSlot targetEpoch : ℕ) :
    Act Err Event (Handler AttesterDuty) Bool := do
  if (eligibleIndices view targetEpoch).isEmpty then pure false
  else
    Act.emit (.attesterDuties targetEpoch (eligibleIndices view targetEpoch)
      view.attesterDuties.toOption.isSome)
    let duties ← Act.lift
      (view.attesterDuties.mapError fun e ↦ "failed to fetch attester duties: " ++ e)
    let storeDuties := duties.map fun d ↦ ⟨d.slot, d.validatorIndex, d, true⟩
    Act.update fun h ↦ { h with duties := h.duties.set targetEpoch storeDuties }
    let h ← Act.read
    if h.exporterMode || (calculateSubscriptionInfo duties currentSlot).isEmpty then pure true
    else
      Act.emit (.submitBeaconCommitteeSubscriptions (calculateSubscriptionInfo duties currentSlot))
      pure true

structure Execution where
  currentSlot : ℕ
  validator : Bytes → Option Share
  order : MapOrder ((_ : ℕ) × StoreDuty AttesterDuty)

variable (net : Network)

def shouldExecute (env : Execution) (duty : AttesterDuty) : Bool :=
  match env.validator duty.pubKey with
  | none => false
  | some v =>
    if v.minParticipationEpoch > net.estimatedEpochAtSlot env.currentSlot then false
    else if duty.slot ≤ env.currentSlot ∧ env.currentSlot - duty.slot ≤ net.slotsPerEpoch then true
    else decide (env.currentSlot + 1 = duty.slot)

def executeAggregatorDuties (env : Execution) (epoch slot : ℕ) : Method := do
  let h ← Act.read
  let duties := h.duties.committeeSlotDuties env.order epoch slot
  if h.exporterMode || duties.isEmpty then pure ()
  else
    Act.emit (.executeDuties
      ((duties.filter (shouldExecute net env)).map (toSpecDuty · .aggregator))
      (slot + net.slotsPerEpoch + 1))

/-- An indices change that is received in a tick. -/
def handleIndicesChange (view : View) (currentSlot : ℕ) : Method := do
  let currentEpoch := net.estimatedEpochAtSlot currentSlot
  Act.emit (.indicesChange currentEpoch)
  Act.update fun h ↦ (h.declareIntent currentEpoch).declareIntent (currentEpoch + 1)
  Handler.prefetch net (fetchAndProcessDuties view currentSlot) currentSlot

structure TickEnv where
  current : View
  execution : Execution
  next : View
  /-- The view of the fetch after an indices change, if one comes before the deadline. -/
  indicesChange : Option View

/-- The case of the ticker in `HandleDuties`. -/
def handleTick (env : TickEnv) (currentSlot : ℕ) : Method :=
  let currentEpoch := net.estimatedEpochAtSlot currentSlot
  Handler.handleTick net
    { fetchCurrent := fetchAndProcessDuties env.current currentSlot currentEpoch
      execute :=
        if net.booleForkAtSlot currentSlot then pure ()
        else executeAggregatorDuties net env.execution currentEpoch currentSlot
      fetchNext := fetchAndProcessDuties env.next currentSlot (currentEpoch + 1)
      indicesChange :=
        match env.indicesChange with
        | none => pure ()
        | some view => handleIndicesChange net view currentSlot }
    currentSlot

/-- The case of a reorg in `HandleDuties`; the slot is that of the clock. -/
def handleReorg (view : View) (event : ReorgEvent) (currentSlot : ℕ) : Method := do
  let currentEpoch := net.estimatedEpochAtSlot currentSlot
  Act.emit (.reorg currentEpoch event)
  Act.update fun h ↦
    if event.previousDutyDependentRootChanged then h.declareIntent currentEpoch else h
  Act.update (·.declareIntent (currentEpoch + 1))
  Handler.prefetch net (fetchAndProcessDuties view currentSlot) currentSlot

def handleInitialDuties (view : View) (currentSlot : ℕ) : Method := do
  let currentEpoch := net.estimatedEpochAtSlot currentSlot
  Act.update fun h ↦ (h.declareIntent currentEpoch).declareIntent (currentEpoch + 1)
  Handler.prefetch net (fetchAndProcessDuties view currentSlot) currentSlot

end Attester

end Ssv.Duties
