import SsvNode.Duties.Handler

/-!
# The proposer handler

The fetch and the execution of `proposer.go`. The handler fetches the proposer duties of **all** the
validators the node knows of, since message validation reads them, and marks those of its own
validators as `InCommittee`. It executes these and no others.
-/

namespace Ssv.Duties

structure ProposerDuty where
  pubKey : Bytes
  slot : ℕ
  validatorIndex : ℕ
  deriving DecidableEq

namespace Proposer

/-- `BNRoleProposer`. -/
def proposerRole : BeaconRole := .other 2

structure View where
  validators : List Share
  selfValidators : List Share
  proposerDuties : Except Err (List ProposerDuty)

def toSpecDuty (duty : ProposerDuty) (role : BeaconRole) : ValidatorDuty where
  type := role
  pubKey := duty.pubKey
  slot := duty.slot
  validatorIndex := duty.validatorIndex
  committeeIndex := 0

/-- The descriptor under which a fetched duty is stored. -/
def toStoreDuty (view : View) (epoch : ℕ) (d : ProposerDuty) : StoreDuty ProposerDuty where
  slot := d.slot
  validatorIndex := d.validatorIndex
  duty := d
  inCommittee := view.selfValidators.any fun share ↦
    share.isAttesting epoch && decide (share.validatorIndex = d.validatorIndex)

/-- `fetchAndProcessDuties`: the store afterwards, and whether a fetch ran. -/
def fetchAndProcessDuties (view : View) (targetEpoch : ℕ) (duties : Store ProposerDuty) :
    Store ProposerDuty × Except Err Bool :=
  if view.validators.all fun share ↦ !share.isAttesting targetEpoch then (duties, .ok false)
  else
    match view.proposerDuties with
    | .error e => (duties, .error ("failed to fetch proposer duties: " ++ e))
    | .ok fetched => (duties.set targetEpoch (fetched.map (toStoreDuty view targetEpoch)), .ok true)

def shouldExecute (currentSlot : ℕ) (duty : ProposerDuty) : Bool :=
  if currentSlot = duty.slot then true else decide (currentSlot + 1 = duty.slot)

/-- `processExecution`: the duties that are handed to the executor. -/
def processExecution (exporterMode : Bool) (duties : Store ProposerDuty)
    (order : MapOrder ((_ : ℕ) × StoreDuty ProposerDuty)) (currentSlot epoch slot : ℕ) :
    List ValidatorDuty :=
  if exporterMode then []
  else ((duties.committeeSlotDuties order epoch slot).filter (shouldExecute currentSlot)).map
    (toSpecDuty · proposerRole)

end Proposer

end Ssv.Duties
