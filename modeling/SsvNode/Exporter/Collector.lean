import SsvNode.Lib.GoMap
import SsvNode.Spec.Duties
import SsvNode.Validation.SignerState

/-!
# The duty tracer of an exporter

`exporter/dutytracer` keeps traces in memory by slot. When a slot is four slots old it takes them
out and **then** saves them, in batches that an encoding error drops as a whole. The trace of a
**late** message is loaded from the store, changed and saved again; roots and the signatures that
wait for them are in memory only. The rounds of a trace are left open (`γ` and `δ`), notifications
of quorums are left out, and the database does not fail.
-/

namespace Ssv.Exporter

open Validation (RunnerRole PartialSigMsgType PartialSignatureMessages)

/-! ### Traces -/

structure SignerData where
  signer : OperatorID
  validatorIdx : List ℕ
  receivedTime : ℕ

structure CommitteeDutyTrace (γ : Type) where
  consensusTrace : γ
  proposalData : Bytes := []
  operatorIDs : List OperatorID := []
  attester : List SignerData := []
  syncCommittee : List SignerData := []

/-- `committeeDutyTrace`, the trace in memory. -/
structure CommitteeTrace (γ : Type) extends CommitteeDutyTrace γ where
  /-- The sync committee root and the attestation root, once they are ready. -/
  roleRoots : Option (Root × Root) := none
  aggSelectionRoot : Option Root := none
  aggPostConsensusRoles : GoMap Root BeaconRole := ∅
  /-- `pendingByRoot`, by root, signer and time. -/
  pending : GoMap (Root × OperatorID × ℕ) (List ℕ) := ∅

/-- `traces.ValidatorDutyTrace`; its slot is the one it is filed under. -/
structure ValidatorDutyTrace (δ : Type) where
  role : BeaconRole
  validator : ℕ := 0
  content : δ

/-- The part of a trace that is left open is within its limits. -/
class Marshals (α : Type) where
  marshals : α → Bool

/-- `MarshalSSZ` succeeds: no field is above its limit. -/
def CommitteeDutyTrace.marshalSSZ {γ : Type} [Marshals γ] (t : CommitteeDutyTrace γ) : Bool :=
  Marshals.marshals t.consensusTrace && t.operatorIDs.length ≤ 13 &&
    t.proposalData.length ≤ 4194532 && t.syncCommittee.length ≤ 1512 && t.attester.length ≤ 1512 &&
    (t.syncCommittee ++ t.attester).all (·.validatorIdx.length ≤ 3000)

def ValidatorDutyTrace.marshalSSZ {δ : Type} [Marshals δ] (t : ValidatorDutyTrace δ) : Bool :=
  Marshals.marshals t.content

/-! ### Signatures of committees -/

/-- `computeRoleRoots` and `computeAggregatorCommitteePostConsensusRoles`. -/
inductive DerivedRoots where
  | committee (syncRoot attRoot : Root)
  | aggregatorCommittee (rolesByRoot : GoMap Root BeaconRole)

def inSyncBucket (role : BeaconRole) : Bool :=
  role = .syncCommittee || role = .syncCommitteeContribution

/-- `slices.Sort` and `slices.Compact`. -/
def sortCompact (l : List ℕ) : List ℕ := l.dedup.insertionSort (· ≤ ·)

namespace CommitteeTrace

variable {γ : Type} (t : CommitteeTrace γ)

def classifyRootForPending (root : Root) : Option BeaconRole :=
  if t.roleRoots.map (·.1) = some root then some .syncCommittee
  else if t.roleRoots.map (·.2) = some root then some .attester
  else t.aggPostConsensusRoles.lookup root

/-- Append a record to a bucket: `SyncCommittee` or `Attester`. -/
def append (sync : Bool) (data : SignerData) : CommitteeTrace γ :=
  if data.validatorIdx = [] then t
  else if sync then { t with syncCommittee := t.syncCommittee ++ [data] }
  else { t with attester := t.attester ++ [data] }

def addPending (root : Root) (signer : OperatorID) (idx receivedAt : ℕ) : CommitteeTrace γ :=
  { t with
    pending := t.pending.insert (root, signer, receivedAt)
      ((t.pending.lookup (root, signer, receivedAt)).getD [] ++ [idx]) }

/-- `flushPending`, in the order in which the maps are iterated. -/
def flushPending (order : MapOrder ((_ : Root × OperatorID × ℕ) × List ℕ)) : CommitteeTrace γ :=
  let flushed := (order.iterate t.pending.entries).foldl (fun t' e ↦
    match t.classifyRootForPending e.1.1 with
    | some role => t'.append (inSyncBucket role) ⟨e.1.2.1, sortCompact e.2, e.1.2.2⟩
    | none => t') t
  { flushed with pending := t.pending.purge fun key _ ↦ (t.classifyRootForPending key.1).isNone }

def bucket (type : PartialSigMsgType) (root : Root) : Option Bool :=
  match type, t.aggSelectionRoot with
  | PartialSigMsgType.aggregatorCommittee, some selection => some (decide (root ≠ selection))
  | _, _ => (t.classifyRootForPending root).map inSyncBucket

/-- `processPartialSigCommittee`, given the operators and the selection root. -/
def processPartialSigCommittee (receivedAt : ℕ) (msg : PartialSignatureMessages)
    (operators : List OperatorID) (selection : Option Root) : CommitteeTrace γ :=
  let signer := (msg.messages.head?.map (·.signer)).getD 0
  let t := { t with
    operatorIDs := if operators = [] then t.operatorIDs else operators
    aggSelectionRoot :=
      if msg.type = PartialSigMsgType.aggregatorCommittee then t.aggSelectionRoot.or selection
      else t.aggSelectionRoot }
  let idxs (sync : Bool) := sortCompact
    ((msg.messages.filter fun m ↦ t.bucket msg.type m.signingRoot = some sync).map
      (·.validatorIndex))
  let waiting := (msg.messages.filter fun m ↦ (t.bucket msg.type m.signingRoot).isNone).foldl
    (fun t m ↦ t.addPending m.signingRoot signer m.validatorIndex receivedAt) t
  (waiting.append true ⟨signer, idxs true, receivedAt⟩).append false
    ⟨signer, idxs false, receivedAt⟩

/-- What a proposal does to the trace, given the roots derived from it. -/
def processProposal (fullData : Bytes) (roots : Option DerivedRoots)
    (order : MapOrder ((_ : Root × OperatorID × ℕ) × List ℕ)) (rounds : γ → γ) : CommitteeTrace γ :=
  let t := { t with proposalData := fullData }
  let t := match roots with
    | some (.committee syncRoot attRoot) =>
      { t with roleRoots := some (syncRoot, attRoot) }.flushPending order
    | some (.aggregatorCommittee rolesByRoot) =>
      { t with aggPostConsensusRoles := rolesByRoot }.flushPending order
    | none => t
  { t with consensusTrace := rounds t.consensusTrace }

end CommitteeTrace

/-! ### The collector -/

structure CommitteeTraceKey where
  id : Bytes
  role : RunnerRole
  deriving DecidableEq

/-- A map of maps from slots. -/
abbrev SlotMap (κ ν : Type) : Type := GoMap (κ × ℕ) ν

/-- `slotToByteSlice`: the keys of the store have the low 32 bits of a slot. -/
def slotKey (slot : ℕ) : ℕ := slot % 2 ^ 32

/-- The roles with a key prefix (`CommitteeRunnerRoleToPrefix`). -/
def committeeRoles : List RunnerRole := [.committee, .aggregatorCommittee]

structure DutyTraceStore (γ δ : Type) where
  committeeDuties : SlotMap CommitteeTraceKey (CommitteeDutyTrace γ) := ∅
  /-- By slot, role and validator. -/
  validatorDuties : GoMap (ℕ × BeaconRole × ℕ) (ValidatorDutyTrace δ) := ∅
  links : SlotMap ℕ Bytes := ∅

/-- What a duty is filed under. -/
def ValidatorDutyTrace.key {δ : Type} (slot : ℕ) (duty : ValidatorDutyTrace δ) :
    ℕ × BeaconRole × ℕ :=
  (slotKey slot, duty.role, duty.validator)

namespace DutyTraceStore

variable {γ δ : Type} [Marshals γ] [Marshals δ] (store : DutyTraceStore γ δ)

omit [Marshals γ] [Marshals δ] in
def getCommitteeDuty (slot : ℕ) (key : CommitteeTraceKey) : Option (CommitteeDutyTrace γ) :=
  store.committeeDuties.lookup (key, slotKey slot)

/-- `SaveCommitteeDuties`, for a role. `SetMany` writes the whole batch or nothing. -/
def saveCommitteeDuties (slot : ℕ) (duties : List (CommitteeTraceKey × CommitteeDutyTrace γ)) :
    DutyTraceStore γ δ :=
  if duties.all (·.2.marshalSSZ) then
    { store with
      committeeDuties :=
        duties.foldl (fun m duty ↦ m.insert (duty.1, slotKey slot) duty.2) store.committeeDuties }
  else store

def saveCommitteeDuty (slot : ℕ) (key : CommitteeTraceKey) (duty : CommitteeDutyTrace γ) :
    DutyTraceStore γ δ :=
  if key.role ∈ committeeRoles then store.saveCommitteeDuties slot [(key, duty)] else store

/-- `SaveValidatorDuties`: of duties with one key the last stays. -/
def saveValidatorDuties (slot : ℕ) (duties : List (ValidatorDutyTrace δ)) : DutyTraceStore γ δ :=
  if duties.all (·.marshalSSZ) then
    { store with
      validatorDuties :=
        duties.foldl (fun m duty ↦ m.insert (duty.key slot) duty) store.validatorDuties }
  else store

omit [Marshals γ] [Marshals δ] in
def saveCommitteeDutyLinks (slot : ℕ) (links : List (ℕ × Bytes)) : DutyTraceStore γ δ :=
  { store with
    links := links.foldl (fun m link ↦ m.insert (link.1, slotKey slot) link.2) store.links }

end DutyTraceStore

/-- `Collector`, with its store. -/
structure Collector (γ δ : Type) where
  committeeTraces : SlotMap CommitteeTraceKey (CommitteeTrace γ) := ∅
  validatorTraces : SlotMap ℕ (List (ValidatorDutyTrace δ)) := ∅
  links : SlotMap ℕ Bytes := ∅
  lastEvictedSlot : ℕ := 0
  store : DutyTraceStore γ δ := {}

def slotTTL : ℕ := 4

/-- `currentSlot - slotTTL`, which wraps around below zero. -/
def threshold (currentSlot : ℕ) : ℕ :=
  if currentSlot < slotTTL then 2 ^ 64 + currentSlot - slotTTL else currentSlot - slotTTL

/-- `getOrCreate`, and what a message does to the trace of its role. -/
def updateRole {δ : Type} [Inhabited δ] (role : BeaconRole)
    (process : ValidatorDutyTrace δ → ValidatorDutyTrace δ) :
    List (ValidatorDutyTrace δ) → List (ValidatorDutyTrace δ)
  | [] => [process { role, content := default }]
  | duty :: duties => if duty.role = role then process duty :: duties
      else duty :: updateRole role process duties

namespace Collector

section

variable {γ δ : Type} [Inhabited γ] [Inhabited δ] [Marshals γ] [Marshals δ] (c : Collector γ δ)

/-- `collect`, for a message that does this to a committee's trace. -/
def collectCommittee (key : CommitteeTraceKey) (slot : ℕ)
    (process : CommitteeTrace γ → CommitteeTrace γ) : Collector γ δ :=
  if slot ≤ c.lastEvictedSlot then
    let duty := (c.store.getCommitteeDuty slot key).getD { consensusTrace := default }
    let trace := process { toCommitteeDutyTrace := duty }
    { c with store := c.store.saveCommitteeDuty slot key trace.toCommitteeDutyTrace }
  else
    let trace := (c.committeeTraces.lookup (key, slot)).getD { consensusTrace := default }
    { c with committeeTraces := c.committeeTraces.insert (key, slot) (process trace) }

/-- `collect`, for a message that does this to a validator's trace. -/
def collectValidator (role : BeaconRole) (index slot : ℕ)
    (process : ValidatorDutyTrace δ → ValidatorDutyTrace δ) : Collector γ δ :=
  if slot ≤ c.lastEvictedSlot then
    let duty := process <|
      (c.store.validatorDuties.lookup (slotKey slot, role, index)).getD { role, content := default }
    { c with store := c.store.saveValidatorDuties slot [duty] }
  else
    let duties := (c.validatorTraces.lookup (index, slot)).getD [{ role, content := default }]
    { c with
      validatorTraces := c.validatorTraces.insert (index, slot) (updateRole role process duties) }

/-- The link that `computeAndPersistScheduleForSlot` makes for a scheduled validator. -/
def link (index slot : ℕ) (committee : Bytes) : Collector γ δ :=
  { c with links := c.links.insert (index, slot) committee }

end

/-! ### Eviction -/

section

variable {γ δ : Type} (c : Collector γ δ) (slot : ℕ)

/-- The committee traces of the slot leave memory. -/
def forgetCommittees : Collector γ δ :=
  { c with committeeTraces := c.committeeTraces.purge fun key _ ↦ key.2 ≠ slot }

def forgetValidators : Collector γ δ :=
  { c with validatorTraces := c.validatorTraces.purge fun key _ ↦ key.2 ≠ slot }

def forgetLinks : Collector γ δ := { c with links := c.links.purge fun key _ ↦ key.2 ≠ slot }

/-- The duties that `dumpCommitteeToDBPeriodically` takes out of memory. -/
def committeeBatch (role : RunnerRole) : List (CommitteeTraceKey × CommitteeDutyTrace γ) :=
  (c.committeeTraces.entries.filter fun e ↦ e.1.2 = slot ∧ e.1.1.role = role).map fun e ↦
    (e.1.1, e.2.toCommitteeDutyTrace)

/-- `role.Validator = idx`, where it is missing. -/
def withValidator (index : ℕ) (duty : ValidatorDutyTrace δ) : ValidatorDutyTrace δ :=
  if duty.validator = 0 then { duty with validator := index } else duty

/-- An order in which the traces of validators are iterated. -/
abbrev DutyOrder (δ : Type) : Type := MapOrder ((_ : ℕ × ℕ) × List (ValidatorDutyTrace δ))

/-- The duties that `dumpValidatorToDBPeriodically` takes out of memory. -/
def validatorBatch (order : DutyOrder δ) : List (ValidatorDutyTrace δ) :=
  (order.iterate (c.validatorTraces.entries.filter (·.1.2 = slot))).flatMap fun e ↦
    e.2.map (withValidator e.1.1)

variable [Marshals γ] [Marshals δ]

/-- `dumpCommitteeToDBPeriodically`. Other roles have no key prefix and are not saved. -/
def dumpCommitteeToDBPeriodically : Collector γ δ :=
  let removed := c.forgetCommittees slot
  { removed with
    store := committeeRoles.foldl
      (fun store role ↦ store.saveCommitteeDuties slot (c.committeeBatch slot role)) removed.store }

def dumpValidatorToDBPeriodically (order : DutyOrder δ) : Collector γ δ :=
  let removed := c.forgetValidators slot
  { removed with store := removed.store.saveValidatorDuties slot (c.validatorBatch slot order) }

omit [Marshals γ] [Marshals δ] in
def dumpLinkToDBPeriodically : Collector γ δ :=
  let removed := c.forgetLinks slot
  { removed with
    store := removed.store.saveCommitteeDutyLinks slot
      ((c.links.entries.filter (·.1.2 = slot)).map fun e ↦ (e.1.1, e.2)) }

def evict (currentSlot : ℕ) (order : DutyOrder δ) : Collector γ δ :=
  let slot := threshold currentSlot
  ((({ c with lastEvictedSlot := slot }.dumpCommitteeToDBPeriodically
    slot).dumpValidatorToDBPeriodically slot order).dumpLinkToDBPeriodically slot)

end

end Collector

end Ssv.Exporter
