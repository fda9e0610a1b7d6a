import SsvNode.Lib.GoMap
import SsvNode.Validation.Validator
import SsvNode.Registry.ValidatorStore

/-!
# The running validators and committees

`operator/validator.Controller` keeps one `Validator` for each started share, and one `Committee`
for all shares with the same operators. Each runs QBFT with a `CommitteeMember` that
`committeeMemberFromShare` makes of a share, for a committee of **the share that was started
first**, with the operators in the order of its `ValidatorAdded` event.
-/

namespace Ssv.Registry

open Checks Validation.ValidationSpec

open Validation (ValidationSpec committeeRole)

variable [RegistrySpec]

/-- What starting a share reads of the rest of the node. -/
structure StartEnv where
  validateShareCommittee : Except Err Unit
  getOperatorData : OperatorID → Except Err (Option OperatorData)
  decodeString : Bytes → Except Err Bytes
  ownOperatorData : OperatorData
  setupRunners : Except Err Unit

def computeF (committeeSize : ℕ) : ℕ := (committeeSize - 1) / 3

/-- One round of the loop of `committeeMemberFromShare`. A removed operator keeps its place. -/
def operatorOfShareMember (env : StartEnv) (cm : ShareMember) : Except Err (Operator × Bool) := do
  match ← (env.getOperatorData cm.signer).mapError (·.wrap "could not get operator data") with
  | none => return ({ operatorID := cm.signer, ssvOperatorPubKey := [] }, false)
  | some opdata =>
    let operatorPEM ←
      (env.decodeString opdata.publicKey).mapError (·.wrap "could not decode public key")
    return ({ operatorID := cm.signer, ssvOperatorPubKey := operatorPEM }, true)

def committeeMemberFromShare (env : StartEnv) (share : SSVShare) : Except Err CommitteeMember := do
  let operators ← share.committee.mapM (operatorOfShareMember env)
  let activeOperators := operators.countP (·.2)
  let quorum := computeF share.committee.length * 2 + 1
  require (¬ activeOperators < quorum)
    { text := "insufficient active operators for quorum: " ++ toString activeOperators ++
        " available, " ++ toString quorum ++ " required" }
  let _ ← (env.decodeString env.ownOperatorData.publicKey).mapError
    (·.wrap "could not decode public key")
  return { operatorID := env.ownOperatorData.id, faultyNodes := computeF share.committee.length
           committee := operators.map (·.1) }

/-- `validator.Validator`. -/
structure RunningValidator where
  share : SSVShare
  operator : CommitteeMember

/-- `validator.Committee`. -/
structure RunningCommittee where
  operator : CommitteeMember
  shares : GoMap ℕ SSVShare

structure ValidatorsMap where
  validators : PubKey → Option RunningValidator
  committees : Bytes → Option RunningCommittee

namespace ValidatorsMap

def new : ValidatorsMap where
  validators _ := none
  committees _ := none

/-- `PutValidator` and `RemoveValidator`. -/
def setValidator (pubKey : PubKey) (v : Option RunningValidator) (m : ValidatorsMap) :
    ValidatorsMap :=
  { m with validators := Function.update m.validators pubKey v }

/-- `PutCommittee` and `RemoveCommittee`. -/
def setCommittee (id : Bytes) (vc : Option RunningCommittee) (m : ValidatorsMap) : ValidatorsMap :=
  { m with committees := Function.update m.committees id vc }

/-- The end of `onShareInit`: the share joins its committee. -/
def initInCommittee (operator : CommitteeMember) (share : SSVShare) (m : ValidatorsMap) :
    ValidatorsMap :=
  m.setCommittee share.committeeID (some (match m.committees share.committeeID with
    | none => { operator := operator, shares := AList.singleton share.validatorIndex share }
    | some vc => { vc with shares := vc.shares.insert share.validatorIndex share }))

/-- `onShareInit`. A share without beacon metadata is not started. -/
def onShareInit (env : StartEnv) (share : SSVShare) : Act Err Observation ValidatorsMap Unit := do
  Act.lift env.validateShareCommittee
  if share.hasBeaconMetadata then
    let operator ← Act.lift ((committeeMemberFromShare env share).mapError
      (·.wrap "build committee member from share"))
    if ((← Act.read).validators share.validatorPubKey).isNone then
      Act.lift (env.setupRunners.mapError (·.wrap "could not setup runners"))
      Act.update (setValidator share.validatorPubKey
        (some { share := share, operator := operator }))
    Act.update (initInCommittee operator share)

def onShareStop (pubKey : PubKey) (m : ValidatorsMap) : ValidatorsMap :=
  match m.validators pubKey with
  | none => m
  | some v =>
    let m := m.setValidator pubKey none
    match m.committees v.share.committeeID with
    | none => m
    | some vc =>
      let shares := vc.shares.erase v.share.validatorIndex
      m.setCommittee v.share.committeeID
        (if GoMap.len shares = 0 then none else some { vc with shares := shares })

/-- The committee member that the runners of an identifier were set up with. -/
def operatorOf [ValidationSpec] (m : ValidatorsMap) (msgID : Bytes) : Option CommitteeMember :=
  if committeeRole (getRoleType msgID) then
    (m.committees ((getDutyExecutorID msgID).drop 16)).map (·.operator)
  else (m.validators (getDutyExecutorID msgID)).map (·.operator)

end ValidatorsMap

end Ssv.Registry
