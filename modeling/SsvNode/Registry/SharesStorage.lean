import SsvNode.Lib.GoMap
import SsvNode.Lib.Machine
import SsvNode.Registry.ValidatorStore

/-!
# The share store

`sharesStorage` of `registry/storage`: the shares in memory by public key, the indices over them,
and the database. Memory is changed first, and an operation that fails stops where it stands. Memory
holds pointers, so that an assignment to an object is seen **through every list that has it**
(`assign`); an object is of one validator for good (`owner`).
-/

namespace Ssv.Registry

variable [RegistrySpec]

/-! ### Beacon metadata -/

structure ValidatorMetadata where
  status : ValidatorState := .unknown
  index : ℕ := 0
  activationEpoch : ℕ := 0
  exitEpoch : ℕ := 0
  deriving DecidableEq

namespace SSVShare

def beaconMetadata (s : SSVShare) : ValidatorMetadata where
  status := s.status
  index := s.validatorIndex
  activationEpoch := s.activationEpoch
  exitEpoch := s.exitEpoch

def setBeaconMetadata (s : SSVShare) (metadata : ValidatorMetadata) : SSVShare :=
  { s with
    validatorIndex := metadata.index
    status := metadata.status
    activationEpoch := metadata.activationEpoch
    exitEpoch := metadata.exitEpoch }

end SSVShare

/-! ### Assignments to objects -/

/-- The content of an object, after an assignment that has left this one. -/
def SSVShare.assigned (share s : SSVShare) : SSVShare :=
  if s.object = share.object then share else s

namespace ValidatorStore

/-- The shares of a committee, through an assignment to an object. -/
def assignCommittee (share : SSVShare) (c : Committee) : Committee :=
  { c with shares := c.shares.map share.assigned }

/-- The effect of an assignment to an object. -/
def assign (share : SSVShare) (v : ValidatorStore) : ValidatorStore :=
  { v with
    byValidatorIndex := fun index ↦ (v.byValidatorIndex index).map share.assigned
    byCommitteeID := fun id ↦ (v.byCommitteeID id).map (assignCommittee share)
    byOperatorID := fun operator ↦ (v.byOperatorID operator).map fun data ↦
      { shares := data.shares.map share.assigned
        committees := data.committees.map (assignCommittee share) } }

/-- `handleDrop`. The mappings between keys and indices are permanent. -/
def handleDrop (v : ValidatorStore) : ValidatorStore :=
  { v with
    byValidatorIndex := fun _ ↦ none
    byCommitteeID := fun _ ↦ none
    byOperatorID := fun _ ↦ none }

end ValidatorStore

/-! ### The database -/

structure Share where
  validatorIndex : ℕ
  validatorPubKey : PubKey
  sharePubKey : PubKey
  committee : List ShareMember
  domainType : Bytes
  status : ValidatorState
  activationEpoch : ℕ
  exitEpoch : ℕ
  ownerAddress : Address
  liquidated : Bool
  deriving DecidableEq

def fromSSVShare (s : SSVShare) : Share where
  validatorIndex := s.validatorIndex
  validatorPubKey := s.validatorPubKey
  sharePubKey := s.sharePubKey
  committee := s.committee
  domainType := s.domainType
  status := s.status
  activationEpoch := s.activationEpoch
  exitEpoch := s.exitEpoch
  ownerAddress := s.ownerAddress
  liquidated := s.liquidated

/-- `ToSSVShare`, which makes a new object. -/
def toSSVShare (object : ℕ) (s : Share) : Except Err SSVShare :=
  if s.validatorPubKey.length ≠ 48 then
    .error { text := "invalid ValidatorPubKey length: got " ++ toString s.validatorPubKey.length ++
      ", expected 48" }
  else .ok {
    validatorIndex := s.validatorIndex
    validatorPubKey := s.validatorPubKey
    sharePubKey := s.sharePubKey
    committee := s.committee
    domainType := s.domainType
    status := s.status
    activationEpoch := s.activationEpoch
    exitEpoch := s.exitEpoch
    ownerAddress := s.ownerAddress
    liquidated := s.liquidated
    object := object }

/-- `Encode`: the sizes that SSZ allows. What is encoded is decoded as it was. -/
def Share.encode (s : Share) : Except Err Share :=
  if s.validatorPubKey.length = 48 ∧ s.sharePubKey.length ≤ 48 ∧ s.committee.length ≤ 13 ∧
      ∀ m ∈ s.committee, m.sharePubKey.length ≤ 48 then .ok s
  else .error { text := "marshal ssz" }

/-- The tables of the store: the shares, and the indices last saved. -/
structure Database where
  shares : GoMap PubKey Share
  pubkeyToIndex : GoMap PubKey ℕ

/-! ### The store -/

structure SharesStorage where
  shares : PubKey → Option SSVShare
  validatorStore : ValidatorStore
  db : Database

namespace SharesStorage

abbrev StorageAct (α : Type) : Type := Act Err Observation SharesStorage α

def onStore {α : Type} (x : ValidatorStore.StoreAct α) : StorageAct α := fun st ↦
  Act.onPart st.validatorStore (fun v st ↦ { st with validatorStore := v }) x st

def setShare (pubKey : PubKey) (share : Option SSVShare) (st : SharesStorage) : SharesStorage :=
  { st with shares := Function.update st.shares pubKey share }

/-- The effect of an assignment to an object. -/
def assign (share : SSVShare) (st : SharesStorage) : SharesStorage :=
  { st with
    shares := fun pubKey ↦ (st.shares pubKey).map share.assigned
    validatorStore := st.validatorStore.assign share }

def saveToDB (shares : List SSVShare) : StorageAct Unit := do
  Act.update fun st ↦ { st with db := { st.db with
    pubkeyToIndex := shares.foldl (fun m s ↦ m.insert s.validatorPubKey s.validatorIndex)
      st.db.pubkeyToIndex } }
  forM shares fun s ↦ do
    let value ← (Act.lift (fromSSVShare s).encode).mapError (·.wrap "failed to serialize share")
    Act.update fun st ↦
      { st with db := { st.db with shares := st.db.shares.insert s.validatorPubKey value } }

/-- The loop of `Save`: the shares that are updated, and those that are added. -/
def splitShares : List SSVShare → StorageAct (List SSVShare × List SSVShare)
  | [] => pure ([], [])
  | share :: rest => do
    let known := ((← Act.read).shares share.validatorPubKey).isSome
    Act.update (setShare share.validatorPubKey (some share))
    let (updateShares, addShares) ← splitShares rest
    return if known then (share :: updateShares, addShares) else (updateShares, share :: addShares)

def save (shares : List SSVShare) : StorageAct Unit := do
  if shares = [] then return
  let (updateShares, addShares) ← splitShares shares
  (onStore (ValidatorStore.handleSharesUpdated updateShares)).mapError
    (·.wrap "handleSharesUpdated")
  (onStore (ValidatorStore.handleSharesAdded addShares)).mapError (·.wrap "handleSharesAdded")
  saveToDB shares

def delete (pubKey : PubKey) : StorageAct Unit := do
  match (← Act.read).shares pubKey with
  | none => return
  | some share =>
    Act.update (setShare pubKey none)
    onStore (ValidatorStore.handleShareRemoved share)
    Act.update fun st ↦ { st with db := { st.db with shares := st.db.shares.erase pubKey } }

/-- The loop of `UpdateValidatorsMetadata`: the shares that have changed. -/
def setMetadata : List (PubKey × Option ValidatorMetadata) → StorageAct (List SSVShare)
  | [] => pure []
  | (pubKey, metadata) :: rest => do
    match metadata, (← Act.read).shares pubKey with
    | some metadata, some share =>
      if metadata = share.beaconMetadata then setMetadata rest
      else
        Act.update (assign (share.setBeaconMetadata metadata))
        return share.setBeaconMetadata metadata :: (← setMetadata rest)
    | _, _ => setMetadata rest

/-- `UpdateValidatorsMetadata`, in the order in which it ranges over the map. -/
def updateValidatorsMetadata (data : List (PubKey × Option ValidatorMetadata)) :
    StorageAct Unit := do
  let changedShares ← setMetadata data
  if changedShares = [] then return
  onStore (ValidatorStore.handleSharesUpdated changedShares)
  saveToDB changedShares

def drop : StorageAct Unit :=
  Act.update fun st ↦
    { st with
      shares := fun _ ↦ none
      validatorStore := st.validatorStore.handleDrop
      db := { st.db with shares := ∅ } }

/-! ### Loading -/

/-- `loadFromDB`: each record becomes an object. -/
def loadFromDB (records : List ((_ : PubKey) × Share)) : Except Err (List SSVShare) :=
  records.zipIdx.mapM fun (record, object) ↦
    (toSSVShare object record.2).mapError (·.wrap "failed to convert storage share to domain share")

/-- `newValidatorStore`. The table is inverted in some order. -/
def newValidatorStore (pubkeyToIndex : GoMap PubKey ℕ) (order : MapOrder ((_ : PubKey) × ℕ)) :
    ValidatorStore :=
  { ValidatorStore.empty with
    pubkeyToIndex := fun pubKey ↦ pubkeyToIndex.lookup pubKey
    indexToPubkey := (order.iterate pubkeyToIndex.entries).foldl
      (fun m entry ↦ Function.update m entry.2 (some entry.1)) fun _ ↦ none }

/-- The orders in which `NewSharesStorage` goes through its maps. -/
structure LoadOrder where
  indices : MapOrder ((_ : PubKey) × ℕ)
  shares : MapOrder SSVShare

def newSharesStorage (order : LoadOrder) (db : Database) : Except Err SharesStorage := do
  let shares ← loadFromDB db.shares.entries
  if db.pubkeyToIndex.entries.any fun entry ↦ decide (entry.1.length ≠ 48) then
    throw { text := "load validator pubkey index mapping: invalid validator PK: bad length" }
  let outcome := (ValidatorStore.handleSharesAdded (order.shares.iterate shares)).run
    (newValidatorStore db.pubkeyToIndex order.indices)
  outcome.result
  return {
    shares := fun pubKey ↦ shares.find? fun s ↦ decide (s.validatorPubKey = pubKey)
    validatorStore := outcome.state
    db := db }

end SharesStorage

/-! ### Runs -/

inductive StorageOp where
  /-- `Save`, of objects with these contents. -/
  | save (shares : List SSVShare)
  | delete (pubKey : PubKey)
  | updateValidatorsMetadata (data : List (PubKey × Option ValidatorMetadata))
  | drop

namespace StorageOp

/-- What an operation does. `Save` may be given objects that are in the store. -/
def act : StorageOp → SharesStorage.StorageAct Unit
  | save shares => do
    Act.update fun st ↦ shares.foldl (fun st share ↦ st.assign share) st
    SharesStorage.save shares
  | delete pubKey => SharesStorage.delete pubKey
  | updateValidatorsMetadata data => SharesStorage.updateValidatorsMetadata data
  | drop => SharesStorage.drop

/-- An object has one content and is of one validator, and a map has one value for a key. -/
def Possible (owner : ℕ → PubKey) : StorageOp → Prop
  | save shares => (∀ s ∈ shares, s.validatorPubKey = owner s.object) ∧
      ∀ s ∈ shares, ∀ t ∈ shares, s.object = t.object → s = t
  | updateValidatorsMetadata data => (data.map Prod.fst).Nodup
  | delete _ => True
  | drop => True

instance (owner : ℕ → PubKey) (op : StorageOp) : Decidable (op.Possible owner) :=
  match op with
  | save _ => inferInstanceAs (Decidable (_ ∧ _))
  | updateValidatorsMetadata _ => inferInstanceAs (Decidable (List.Nodup _))
  | delete _ => .isTrue trivial
  | drop => .isTrue trivial

def Succeeds (op : StorageOp) (st : SharesStorage) : Prop := (op.act.run st).result = .ok ()

instance (op : StorageOp) (st : SharesStorage) : Decidable (op.Succeeds st) :=
  inferInstanceAs (Decidable (_ = _))

end StorageOp

def SharesStorage.empty : SharesStorage where
  shares := fun _ ↦ none
  validatorStore := .empty
  db := { shares := ∅, pubkeyToIndex := ∅ }

/-- The runs of operations that succeed, from an empty database. -/
def storageMachine (owner : ℕ → PubKey) : Machine SharesStorage StorageOp where
  initial st := st = .empty
  enabled st op := op.Possible owner ∧ op.Succeeds st
  next st op := (op.act.run st).state

instance (owner : ℕ → PubKey) (st : SharesStorage) (op : StorageOp) :
    Decidable ((storageMachine owner).enabled st op) :=
  inferInstanceAs (Decidable (_ ∧ _))

end Ssv.Registry
