import SsvNode.Duties.Attester

/-!
# The committee handler

`committee.go`: the duties of a slot are grouped by committee, and a committee gets one duty for its
validators. One handler does so for attestations and sync committee messages and, since the Boole
fork, another for their aggregations.
-/

namespace Ssv.Duties

open Registry (RegistrySpec)

structure SyncCommitteeDuty where
  pubKey : Bytes
  validatorIndex : ℕ
  deriving DecidableEq

namespace Committee

variable [RegistrySpec]

/-- `committeeDuty`, with the slot and the duties in it. -/
structure CommitteeDuty where
  id : Bytes
  operatorIDs : List OperatorID
  slot : ℕ
  validatorDuties : List ValidatorDuty

structure Execution where
  currentSlot : ℕ
  validator : Bytes → Option Share
  selfParticipatingValidators : ℕ → List Share

def toSpecAttDuty (duty : AttesterDuty) (role : BeaconRole) : ValidatorDuty :=
  Attester.toSpecDuty duty role

def toSpecSyncDuty (duty : SyncCommitteeDuty) (slot : ℕ) (role : BeaconRole) : ValidatorDuty where
  type := role
  pubKey := duty.pubKey
  slot := slot
  validatorIndex := duty.validatorIndex
  committeeIndex := 0

variable (net : Network)

def canParticipate (share : Share) (currentSlot : ℕ) : Bool :=
  if share.minParticipationEpoch > net.estimatedEpochAtSlot currentSlot then false else true

def shouldExecuteAtt (env : Execution) (duty : AttesterDuty) (epoch : ℕ) : Bool :=
  match env.validator duty.pubKey with
  | none => false
  | some share =>
    if !share.isAttesting epoch then false
    else if !canParticipate net share env.currentSlot then false
    else if duty.slot ≤ env.currentSlot ∧ env.currentSlot - duty.slot ≤ net.slotsPerEpoch then true
    else decide (env.currentSlot + 1 = duty.slot)

def shouldExecuteSync (env : Execution) (duty : SyncCommitteeDuty) (slot epoch : ℕ) : Bool :=
  match env.validator duty.pubKey with
  | none => false
  | some share =>
    if !share.isParticipating net epoch then false
    else if env.currentSlot = slot then true
    else decide (env.currentSlot + 1 = slot)

/-- `addToCommitteeMap`, with the committee of each index. -/
def addToCommitteeMap (committeeDutyMap : GoMap Bytes CommitteeDuty)
    (validatorCommittees : GoMap ℕ (Bytes × List OperatorID)) (specDuty : ValidatorDuty) :
    GoMap Bytes CommitteeDuty :=
  match validatorCommittees.lookup specDuty.validatorIndex with
  | none => committeeDutyMap
  | some (id, operatorIDs) =>
    let cd := (committeeDutyMap.lookup id).getD ⟨id, operatorIDs, specDuty.slot, []⟩
    committeeDutyMap.insert id { cd with validatorDuties := cd.validatorDuties ++ [specDuty] }

def validatorCommittees (env : Execution) (epoch : ℕ) : GoMap ℕ (Bytes × List OperatorID) :=
  (env.selfParticipatingValidators epoch).foldl
    (fun m share ↦ m.insert share.validatorIndex (share.committeeID, share.operatorIDs)) ∅

def attRole (isAggregator : Bool) : BeaconRole := if isAggregator then .aggregator else .attester

def syncRole (isAggregator : Bool) : BeaconRole :=
  if isAggregator then .syncCommitteeContribution else .syncCommittee

/-- The duties that `buildCommitteeDuties` groups. -/
def specDuties (isAggregator : Bool) (env : Execution) (attDuties : List AttesterDuty)
    (syncDuties : List SyncCommitteeDuty) (epoch slot : ℕ) : List ValidatorDuty :=
  (attDuties.filter (shouldExecuteAtt net env · epoch)).map
    (toSpecAttDuty · (attRole isAggregator)) ++
    (syncDuties.filter (shouldExecuteSync net env · slot epoch)).map
      (toSpecSyncDuty · slot (syncRole isAggregator))

def buildCommitteeDuties (isAggregator : Bool) (env : Execution) (attDuties : List AttesterDuty)
    (syncDuties : List SyncCommitteeDuty) (epoch slot : ℕ) : GoMap Bytes CommitteeDuty :=
  (specDuties net isAggregator env attDuties syncDuties epoch slot).foldl
    (fun m duty ↦ addToCommitteeMap m (validatorCommittees env epoch) duty) ∅

/-! ### What is executed -/

variable {net : Network} {isAggregator : Bool} {env : Execution} {attDuties : List AttesterDuty}
  {syncDuties : List SyncCommitteeDuty} {epoch slot : ℕ} {id : Bytes} {cd : CommitteeDuty}
  {d : ValidatorDuty}

omit [RegistrySpec] in
theorem mem_addToCommitteeMap {m : GoMap Bytes CommitteeDuty}
    {committees : GoMap ℕ (Bytes × List OperatorID)} {duty : ValidatorDuty}
    (hcd : (addToCommitteeMap m committees duty).lookup id = some cd)
    (hd : d ∈ cd.validatorDuties) :
    d = duty ∨ ∃ cd', m.lookup id = some cd' ∧ d ∈ cd'.validatorDuties := by
  unfold addToCommitteeMap at hcd
  split at hcd
  · exact .inr ⟨cd, hcd, hd⟩
  · next id' operatorIDs _ =>
    by_cases hid : id = id'
    · obtain rfl := hid
      rw [AList.lookup_insert] at hcd
      cases hcd
      rcases List.mem_append.1 hd with hold | hnew
      · rcases hlookup : m.lookup id with - | cd'
        · rw [hlookup] at hold
          cases hold
        · rw [hlookup] at hold
          exact .inr ⟨cd', rfl, hold⟩
      · exact .inl (List.mem_singleton.1 hnew)
    · rw [AList.lookup_insert_ne hid] at hcd
      exact .inr ⟨cd, hcd, hd⟩

omit [RegistrySpec] in
theorem mem_foldl_addToCommitteeMap {committees : GoMap ℕ (Bytes × List OperatorID)}
    {duties : List ValidatorDuty} {m : GoMap Bytes CommitteeDuty}
    (hcd : (duties.foldl (fun m duty ↦ addToCommitteeMap m committees duty) m).lookup id = some cd)
    (hd : d ∈ cd.validatorDuties) :
    d ∈ duties ∨ ∃ cd', m.lookup id = some cd' ∧ d ∈ cd'.validatorDuties := by
  induction duties generalizing m with
  | nil => exact .inr ⟨cd, hcd, hd⟩
  | cons duty duties ih =>
    rcases ih hcd with hrest | ⟨cd', hcd', hd'⟩
    · exact .inl (.tail _ hrest)
    · rcases mem_addToCommitteeMap hcd' hd' with rfl | hbefore
      · exact .inl (.head _)
      · exact .inr hbefore

theorem mem_specDuties
    (hcd : (buildCommitteeDuties net isAggregator env attDuties syncDuties epoch slot).lookup id =
      some cd)
    (hd : d ∈ cd.validatorDuties) :
    d ∈ specDuties net isAggregator env attDuties syncDuties epoch slot := by
  rcases mem_foldl_addToCommitteeMap hcd hd with h | ⟨_, hnone, -⟩
  · exact h
  · cases hnone

end Committee

end Ssv.Duties
