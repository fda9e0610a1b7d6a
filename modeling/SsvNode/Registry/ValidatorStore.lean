import SsvNode.Registry.Types

/-!
# The validator store

`validatorStore` of `registry/storage`: the indices over the shares in memory, updated by
`handleSharesAdded`, `handleSharesUpdated` and `handleShareRemoved`, which fail where an index
contradicts the share. The lists hold the contents of the objects; an assignment to an object
changes them all (`ValidatorStore.assign`).
-/

namespace Ssv.Registry

variable [RegistrySpec]

open RegistrySpec

structure Committee where
  id : Bytes
  operators : List OperatorID := []
  shares : List SSVShare := []
  indices : List ℕ := []
  deriving DecidableEq

structure SharesAndCommittees where
  shares : List SSVShare := []
  committees : List Committee := []
  deriving DecidableEq

structure ValidatorStore where
  byValidatorIndex : ℕ → Option SSVShare
  byCommitteeID : Bytes → Option Committee
  byOperatorID : OperatorID → Option SharesAndCommittees
  pubkeyToIndex : PubKey → Option ℕ
  indexToPubkey : ℕ → Option PubKey

namespace ValidatorStore

/-- `newValidatorStore`. -/
def empty : ValidatorStore where
  byValidatorIndex _ := none
  byCommitteeID _ := none
  byOperatorID _ := none
  pubkeyToIndex _ := none
  indexToPubkey _ := none

abbrev StoreAct (α : Type) : Type := Act Err Observation ValidatorStore α

/-- The share of a validator in a list. -/
def isShareOf (share s : SSVShare) : Bool := decide (s.validatorPubKey = share.validatorPubKey)

variable (shares : List SSVShare)

def containsShare (share : SSVShare) : Bool := shares.any (isShareOf share)

/-- `buildCommittee`; the first share says who is in it. -/
def buildCommittee : Committee where
  id := (shares.head?.map (·.committeeID)).getD []
  operators := sortIDs ((shares.head?.map (·.operatorIDs)).getD [])
  shares := shares
  indices := shares.map (·.validatorIndex)

/-- The error of a share that is not where it should be. -/
def shareError (text : String) (share : SSVShare) (place : String) : Err :=
  { text := text ++ ". validator_pubkey=" ++ hexEncode share.validatorPubKey ++ " " ++ place }

def removeShareFromCommittee (committee : Committee) (shareToRemove : SSVShare) :
    Except Err Committee :=
  let place := "committee_id=" ++ hexEncode committee.id
  match (committee.shares.zip committee.indices).find? fun (s, i) ↦
      isShareOf shareToRemove s && decide (s.validatorIndex ≠ i) with
  | some (s, i) =>
    .error (shareError "share index mismatch" s (place ++ " validator_index=" ++
      toString s.validatorIndex ++ " committee_index=" ++ toString i))
  | none =>
    if containsShare committee.shares shareToRemove then
      match committee.shares.filter fun s ↦ !isShareOf shareToRemove s with
      | [] => .ok { id := committee.id }
      | shares => .ok (buildCommittee shares)
    else .error (shareError "share not found in committee" shareToRemove place)

def updateCommitteeWithShare (committee : Committee) (shareToUpdate : SSVShare) :
    Except Err Committee :=
  if containsShare committee.shares shareToUpdate then
    .ok (buildCommittee (committee.shares.map fun s ↦
      if isShareOf shareToUpdate s then shareToUpdate else s))
  else
    .error (shareError "share not found in committee" shareToUpdate
      ("committee_id=" ++ hexEncode committee.id))

/-- Put a committee into an operator's list, where the one with this identifier stands. -/
def replaceCommittee (id : Bytes) (committee : Committee) (committees : List Committee) :
    List Committee :=
  committees.replaceF fun c ↦ if c.id = id then some committee else none

/-! ### The entries of the maps -/

/-- Record the index of a share whose validator the beacon node knows. -/
def indexShare (share : SSVShare) (v : ValidatorStore) : ValidatorStore :=
  if share.hasBeaconMetadata then
    { v with
      byValidatorIndex := Function.update v.byValidatorIndex share.validatorIndex (some share)
      pubkeyToIndex := Function.update v.pubkeyToIndex share.validatorPubKey
        (some share.validatorIndex)
      indexToPubkey := Function.update v.indexToPubkey share.validatorIndex
        (some share.validatorPubKey) }
  else v

/-- Forget the index of a share. The other two maps are permanent. -/
def unindexShare (share : SSVShare) (v : ValidatorStore) : ValidatorStore :=
  if share.hasBeaconMetadata then
    { v with byValidatorIndex := Function.update v.byValidatorIndex share.validatorIndex none }
  else v

def setCommittee (id : Bytes) (committee : Option Committee) (v : ValidatorStore) :
    ValidatorStore :=
  { v with byCommitteeID := Function.update v.byCommitteeID id committee }

def setOperator (id : OperatorID) (data : Option SharesAndCommittees) (v : ValidatorStore) :
    ValidatorStore :=
  { v with byOperatorID := Function.update v.byOperatorID id data }

def operatorShareError (text : String) (share : SSVShare) (operator : OperatorID) : Err :=
  shareError text share ("operator_id=" ++ toString operator)

/-! ### Adding -/

/-- `handleSharesAdded`, the loop over the operators of a share. -/
def addToOperators (share : SSVShare) (committee : Committee) :
    List OperatorID → List OperatorID → StoreAct Unit
  | _, [] => pure ()
  | seen, operator :: rest => do
    if operator ∈ seen then
      Act.fail { text := "duplicate operator in share. operator_id=" ++ toString operator }
    else
      let data := ((← Act.read).byOperatorID operator).getD {}
      if containsShare data.shares share then
        Act.fail (operatorShareError "share already exists in operator" share operator)
      else
        Act.update (setOperator operator (some {
          shares := data.shares ++ [share]
          committees :=
            if data.committees.any fun c ↦ decide (c.id = committee.id) then
              replaceCommittee committee.id committee data.committees
            else data.committees ++ [committee] }))
        addToOperators share committee (operator :: seen) rest

def handleShareAdded (share : SSVShare) : StoreAct Unit := do
  Act.update (indexShare share)
  let committee ← match (← Act.read).byCommitteeID share.committeeID with
    | some committee =>
      if containsShare committee.shares share then
        Act.fail (shareError "share already exists in committee" share
          ("committee_id=" ++ hexEncode share.committeeID))
      else pure (buildCommittee (committee.shares ++ [share]))
    | none => pure (buildCommittee [share])
  Act.update (setCommittee committee.id (some committee))
  addToOperators share committee [] share.operatorIDs

def handleSharesAdded : StoreAct Unit := forM shares handleShareAdded

/-! ### Updating -/

/-- `handleSharesUpdated`, the part for one operator of a share. -/
def updateInOperator (share : SSVShare) (committee : Committee) (operator : OperatorID) :
    StoreAct Unit := do
  match (← Act.read).byOperatorID operator with
  | none => Act.fail { text := "operator not found. operator_id=" ++ toString operator }
  | some data =>
    if containsShare data.shares share then
      Act.update (setOperator operator (some {
        shares := data.shares.replaceF fun s ↦ if isShareOf share s then some share else none
        committees := replaceCommittee share.committeeID committee data.committees }))
    else Act.fail (operatorShareError "share not found in operator" share operator)

def handleShareUpdated (share : SSVShare) : StoreAct Unit := do
  Act.update (indexShare share)
  match (← Act.read).byCommitteeID share.committeeID with
  | none => Act.fail { text := "committee not found. id=" ++ hexEncode share.committeeID }
  | some committee =>
    let newCommittee ← (Act.lift (updateCommitteeWithShare committee share)).mapError
      fun e ↦ { e with text := "failed to update share in committee. " ++ e.text }
    Act.update (setCommittee share.committeeID (some newCommittee))
    forM share.operatorIDs (updateInOperator share newCommittee)

def handleSharesUpdated : StoreAct Unit := forM shares handleShareUpdated

/-! ### Removing -/

/-- `handleShareRemoved`, the part for one operator of the share. -/
def removeFromOperator (share : SSVShare) (newCommittee : Committee) (operator : OperatorID) :
    StoreAct Unit := do
  match (← Act.read).byOperatorID operator with
  | none => Act.fail { text := "operator not found. operator_id=" ++ toString operator }
  | some data =>
    if containsShare data.shares share then
      let shares := data.shares.eraseP (isShareOf share)
      let committees :=
        if newCommittee.shares = [] then
          data.committees.eraseP fun c ↦ decide (c.id = share.committeeID)
        else replaceCommittee share.committeeID newCommittee data.committees
      Act.update (setOperator operator
        (if shares = [] then none else some { shares := shares, committees := committees }))
    else Act.fail (operatorShareError "share not found in operator" share operator)

def handleShareRemoved (share : SSVShare) : StoreAct Unit := do
  Act.update (unindexShare share)
  match (← Act.read).byCommitteeID share.committeeID with
  | none => Act.fail { text := "committee not found. id=" ++ hexEncode share.committeeID }
  | some committee =>
    let newCommittee ← (Act.lift (removeShareFromCommittee committee share)).mapError
      fun e ↦ { e with text := "failed to remove share from committee. " ++ e.text }
    Act.update (setCommittee newCommittee.id
      (if newCommittee.shares = [] then none else some newCommittee))
    forM share.operatorIDs (removeFromOperator share newCommittee)

end ValidatorStore

end Ssv.Registry
