import SsvNode.Lib.Act
import SsvNode.Runner.PartialSigContainer

/-!
# The committee runner after consensus

`CommitteeRunner.ProcessPostConsensus`: a packet is validated and stored, the signatures for every
root that has reached a quorum are reconstructed, and the results are submitted. The goroutines of a
root work on different parts of the container; they and the iterations over maps are taken in
**any** order (`Schedule`). Reported outcomes other than success, the doppelganger handler and
cancellation are left out.
-/

namespace Ssv

open Checks Validation

/-! ### Types -/

structure Checkpoint where
  epoch : ℕ
  root : Root
  deriving DecidableEq

structure BeaconVote where
  blockRoot : Root
  source : Checkpoint
  target : Checkpoint
  deriving DecidableEq

structure GloasBeaconVote where
  blockRoot : Root
  source : Checkpoint
  target : Checkpoint
  attestationDataIndex : ℕ
  deriving DecidableEq

structure AttestationData where
  slot : ℕ
  index : ℕ
  beaconBlockRoot : Root
  source : Checkpoint
  target : Checkpoint
  deriving DecidableEq

structure SyncCommitteeMessage where
  slot : ℕ
  beaconBlockRoot : Root
  validatorIndex : ℕ
  signature : Bytes
  deriving DecidableEq

inductive SszObject where
  | attestationData (data : AttestationData)
  | blockRoot (root : Root)
  deriving DecidableEq

/-- `spectypes.CommitteeDuty`, with the `nil` entries the code skips. -/
structure CommitteeDuty where
  slot : ℕ
  validatorDuties : List (Option ValidatorDuty)
  deriving DecidableEq

/-- What the committee runner calls of `ssv-spec`. -/
class CommitteeSpec extends ThresholdSpec where
  validatePartialSignatureMessages : PartialSignatureMessages → Except Err Unit
  decodeBeaconVote : Bytes → Except Err BeaconVote
  validateBeaconVote : BeaconVote → Except Err Unit
  decodeGloasBeaconVote : Bytes → Except Err GloasBeaconVote
  validateGloasBeaconVote : GloasBeaconVote → Except Err Unit
  computeETHSigningRoot : SszObject → Bytes → Except Err Root
  VersionedAttestation : Type
  attestationValidatorIndex : VersionedAttestation → Option ℕ
  attestationDataOf : VersionedAttestation → Except Err AttestationData
  attestationSignature : VersionedAttestation → Bytes
  constructVersionedAttestationWithoutSignature :
    AttestationData → ℕ → ValidatorDuty → Except Err VersionedAttestation
  versionedAttestationWithSignature : VersionedAttestation → Bytes → Except Err VersionedAttestation
  /-- A signing root tells its domain. -/
  domain_of_signingRoot {o o' : SszObject} {d d' : Bytes} {root : Root} :
    computeETHSigningRoot o d = .ok root → computeETHSigningRoot o' d' = .ok root → d = d'
  /-- An attestation that was constructed takes a signature. -/
  withSignature_of_construct {data : AttestationData} {version : ℕ} {duty : ValidatorDuty}
    {att : VersionedAttestation} (signature : Bytes) :
    constructVersionedAttestationWithoutSignature data version duty = .ok att →
      ∃ att', versionedAttestationWithSignature att signature = .ok att' ∧
        attestationValidatorIndex att' = some duty.validatorIndex ∧
        attestationDataOf att' = .ok data ∧ attestationSignature att' = signature

variable [CommitteeSpec]

open CommitteeSpec

/-- What the runner asks of its surroundings. -/
structure CommitteeEnv where
  net : Validation.Network
  forkAtEpoch : ℕ → ℕ
  validDuty : BeaconRole → Bytes → ℕ → Except Err Unit
  domainData : ℕ → DomainType → Except Err Bytes
  submitAttestations : List VersionedAttestation → Except Err Unit
  submitSyncMessages : List SyncCommitteeMessage → Except Err Unit
  /-- A domain tells its type. -/
  type_of_domainData {e e' : ℕ} {t t' : DomainType} {d : Bytes} :
    domainData e t = .ok d → domainData e' t' = .ok d → t = t'

inductive BeaconObject where
  | attestation (att : VersionedAttestation)
  | syncMessage (msg : SyncCommitteeMessage)

/-- A call to the beacon node, made whether or not it succeeds. -/
inductive BeaconCall where
  | submitAttestations (attestations : List VersionedAttestation)
  | submitSyncMessages (messages : List SyncCommitteeMessage)

omit [CommitteeSpec] in
/-- `State`, as far as it is read after consensus. -/
structure CommitteeState where
  postConsensusContainer : PartialSigContainer
  /-- `RunningInstance`, with what its `IsDecided` returns. -/
  runningInstance : Option (Bool × Bytes)
  decidedValue : Bytes
  currentDuty : CommitteeDuty
  succeeded : Bool

omit [CommitteeSpec] in
structure CommitteeRunner where
  share : ShareMap
  state : Option CommitteeState
  submittedDuties : List (BeaconRole × ℕ)

/-- The orders in which maps, and the validators of a root, are gone through. -/
structure Schedule where
  shares : MapOrder Share
  roots : MapOrder Root
  validators : Root → MapOrder ℕ
  signatures : MapOrder ((_ : OperatorID) × Bytes)
  attestations : MapOrder VersionedAttestation

/-! ### Validation -/

def validatePartialSigMsg (shares : ShareMap) (order : MapOrder Share)
    (psigMsgs : PartialSignatureMessages) (expectedSlot : ℕ) : Except Err Unit := do
  (validatePartialSignatureMessages psigMsgs).mapError (.wrap "PartialSignatureMessages invalid")
  require (¬ psigMsgs.slot < expectedSlot) (.newError .partialSigMessageInvalidSlot
    ("invalid partial sig slot: " ++ toString psigMsgs.slot ++ ", expected slot: " ++
      toString expectedSlot))
  require (¬ psigMsgs.slot > expectedSlot) (.newRetryableError
    (.newError .partialSigMessageFutureSlot
    ("future partial sig msg: message slot: " ++ toString psigMsgs.slot ++ ", expected slot: " ++
      toString expectedSlot)))
  match psigMsgs.messages.head? with
  | none => throw { text := "index out of range" }
  | some message =>
    match (order.iterate shares.entries).head? with
    | none =>
      throw { text := "can not get committee because there is not a single Share in runner" }
    | some shareSample =>
      require (message.signer ∈ shareSample.committee.map (·.signer)) { text := "unknown signer" }

variable (env : CommitteeEnv)

/-- `ValidatePostConsensusMsg` for `RoleCommittee`. -/
def validatePostConsensusMsg (order : MapOrder Share) (r : CommitteeRunner)
    (psigMsgs : PartialSignatureMessages) : Except Err Unit :=
  match r.state with
  | none => .error (.newError .noRunningDuty "no duty assigned")
  | some s => do
    require (s.succeeded = false) (.newError .noRunningDuty "running duty already succeeded")
    -- `DutySlot() - 1` of an unsigned slot
    let minSlot := (s.currentDuty.slot + (2 ^ 64 - 1)) % 2 ^ 64
    let maxSlot := s.currentDuty.slot
    require (¬ psigMsgs.slot < minSlot) (.newError .partialSigMessageInvalidSlot
      ("invalid partial sig slot: " ++ toString psigMsgs.slot ++ ", want at least: " ++
        toString minSlot))
    require (¬ psigMsgs.slot > maxSlot) (.newRetryableError (.newError .partialSigMessageFutureSlot
      ("future partial sig msg: message slot: " ++ toString psigMsgs.slot ++ ", want at most: " ++
        toString maxSlot)))
    match s.runningInstance with
    | none =>
      throw (.newRetryableError (.newError .noRunningConsensusInstance "instance not found"))
    | some (decided, decidedValueBytes) => do
      require (decided = true ∧ s.decidedValue ≠ [])
        (.newRetryableError (.newError .noDecidedValue "no decided value"))
      let expectedSlot := s.currentDuty.slot
      if env.net.isGloasAtSlot expectedSlot then
        discard <| (decodeGloasBeaconVote decidedValueBytes).mapError
          (.wrap "failed to parse decided beacon vote")
      else
        discard <| (decodeBeaconVote decidedValueBytes).mapError
          (.wrap "failed to parse decided beacon vote")
      validatePartialSigMsg r.share order psigMsgs expectedSlot

/-! ### What is expected -/

def dataVersionElectra : ℕ := 6

omit [CommitteeSpec] in
def constructAttestationData (vote : BeaconVote) (duty : ValidatorDuty) (version : ℕ)
    (gloasIndex : Option ℕ) : AttestationData where
  slot := duty.slot
  index :=
    match gloasIndex with
    | some index => index
    | none => if version ≥ dataVersionElectra then 0 else duty.committeeIndex
  beaconBlockRoot := vote.blockRoot
  source := vote.source
  target := vote.target

/-- What `decidedAttestationVote` returns: the vote, and the index it carries on Gloas. -/
def decidedAttestationVote (gloas : Bool) (value : Bytes) : Except Err (BeaconVote × Option ℕ) :=
  if gloas then do
    let v ← (decodeGloasBeaconVote value).mapError (.wrap "could not decode beacon vote")
    validateGloasBeaconVote v
    return (⟨v.blockRoot, v.source, v.target⟩, some v.attestationDataIndex)
  else do
    let v ← (decodeBeaconVote value).mapError (.wrap "could not decode beacon vote")
    validateBeaconVote v
    return (v, none)

/-- What `expectedPostConsensusRootsAndBeaconObjects` returns. -/
structure ExpectedObjects where
  attestationMap : GoMap ℕ Root
  syncCommitteeMap : GoMap ℕ Root
  /-- `beaconObjects[validatorIndex][root]`. -/
  beaconObjects : List ((ℕ × Root) × BeaconObject)

namespace ExpectedObjects

def empty : ExpectedObjects := ⟨∅, ∅, []⟩

/-- `validatorObjects[root]` of a validator. -/
def objectOf (e : ExpectedObjects) (v : ℕ) (root : Root) : Option BeaconObject :=
  e.beaconObjects.lookup (v, root)

def insert (e : ExpectedObjects) (role : BeaconRole) (v : ℕ) (root : Root) (obj : BeaconObject) :
    ExpectedObjects where
  attestationMap := if role = .attester then e.attestationMap.insert v root else e.attestationMap
  syncCommitteeMap :=
    if role = .syncCommittee then e.syncCommitteeMap.insert v root else e.syncCommitteeMap
  beaconObjects := ((v, root), obj) :: e.beaconObjects

def rootOf (e : ExpectedObjects) (role : BeaconRole) (v : ℕ) : Option Root :=
  match role with
  | .attester => e.attestationMap.lookup v
  | .syncCommittee => e.syncCommitteeMap.lookup v
  | _ => none

end ExpectedObjects

omit [CommitteeSpec] in
/-- The name of a domain in the errors. -/
def DomainType.kind : DomainType → String
  | .attester => "attester"
  | _ => "sync committee"

/-- The signing root of an object in a domain, at the epoch of the duty. -/
def signingRoot (duty : ValidatorDuty) (domainType : DomainType) (obj : SszObject) :
    Except Err Root := do
  let domain ← (env.domainData (env.net.estimatedEpochAtSlot duty.slot) domainType).mapError
    (.wrap ("get " ++ domainType.kind ++ " domain (validator " ++
      toString duty.validatorIndex ++ ")"))
  (computeETHSigningRoot obj domain).mapError
    (.wrap ("compute " ++ domainType.kind ++ " root (validator " ++
      toString duty.validatorIndex ++ ")"))

def expectedAttestation (vote : BeaconVote) (gloasIndex : Option ℕ)
    (dataVersion : ℕ) (duty : ValidatorDuty) : Except Err (Root × BeaconObject) := do
  let attestationData := constructAttestationData vote duty dataVersion gloasIndex
  let att ← (constructVersionedAttestationWithoutSignature attestationData dataVersion
    duty).mapError
    (.wrap ("construct attestation (validator " ++ toString duty.validatorIndex ++ ")"))
  let root ← signingRoot env duty .attester (.attestationData attestationData)
  return (root, .attestation att)

def expectedSyncMessage (vote : BeaconVote) (duty : ValidatorDuty) :
    Except Err (Root × BeaconObject) := do
  let root ← signingRoot env duty .syncCommittee (.blockRoot vote.blockRoot)
  return (root, .syncMessage ⟨duty.slot, vote.blockRoot, duty.validatorIndex, []⟩)

omit [CommitteeSpec] in
/-- `errors.Join`. -/
def joinErr (constructionErr : Option Err) (e : Err) : Option Err :=
  match constructionErr with
  | none => some e
  | some e' => some { e' with text := e'.text ++ "\n" ++ e.text }

/-- The body of the loop over the duties, with `constructionErr`. -/
def expectDuty (vote : BeaconVote) (gloasIndex : Option ℕ) (dataVersion : ℕ)
    (acc : ExpectedObjects × Option Err) (validatorDuty : Option ValidatorDuty) :
    Except Err (ExpectedObjects × Option Err) :=
  match validatorDuty with
  | none => .ok acc
  | some duty =>
    if (env.validDuty duty.type duty.pubKey duty.slot).isOk then
      match duty.type with
      | .attester =>
        match expectedAttestation env vote gloasIndex dataVersion duty with
        | .error e => .ok (acc.1, joinErr acc.2 e)
        | .ok (root, obj) => .ok (acc.1.insert .attester duty.validatorIndex root obj, acc.2)
      | .syncCommittee =>
        match expectedSyncMessage env vote duty with
        | .error e => .ok (acc.1, joinErr acc.2 e)
        | .ok (root, obj) => .ok (acc.1.insert .syncCommittee duty.validatorIndex root obj, acc.2)
      | _ => .error { text := "invalid duty type" }
    else .ok acc

def expectedPostConsensusRootsAndBeaconObjects (s : CommitteeState) :
    Except Err ExpectedObjects := do
  let epoch := env.net.estimatedEpochAtSlot s.currentDuty.slot
  let dataVersion := env.forkAtEpoch epoch
  let (vote, gloasIndex) ← decidedAttestationVote (env.net.isGloas epoch) s.decidedValue
  let (expected, constructionErr) ← s.currentDuty.validatorDuties.foldlM
    (expectDuty env vote gloasIndex dataVersion) (ExpectedObjects.empty, none)
  match expected.beaconObjects, constructionErr with
  | [], some e => throw (e.wrap "no beacon objects could be built")
  | _, _ => return expected

/-! ### Reconstructing -/

omit [CommitteeSpec] in
def validatorsWith (root : Root) (m : GoMap ℕ Root) : List ℕ :=
  (m.entries.filter fun e ↦ decide (e.2 = root)).map (·.1)

omit [CommitteeSpec] in
def findValidators (expectedRoot : Root) (attestationMap committeeMap : GoMap ℕ Root) :
    Option (BeaconRole × List ℕ) :=
  if validatorsWith expectedRoot attestationMap ≠ [] then
    some (.attester, validatorsWith expectedRoot attestationMap)
  else if validatorsWith expectedRoot committeeMap ≠ [] then
    some (.syncCommittee, validatorsWith expectedRoot committeeMap)
  else none

/-- What the loop over the roots of `ProcessPostConsensus` fills. -/
structure Collected where
  attestationsToSubmit : GoMap ℕ VersionedAttestation
  syncCommitteeMessagesToSubmit : GoMap ℕ SyncCommitteeMessage
  recoverableErr : Option Err
  terminalErr : Option Err

namespace Collected

def empty : Collected := ⟨∅, ∅, none, none⟩

/-- The closure `classify`. -/
def classify (col : Collected) (e : ReconstructError) : Collected :=
  if e.recoverable then { col with recoverableErr := some e.err }
  else { col with terminalErr := some e.err }

/-- What is done with a signature. The type assertion panics for an object of the other role. -/
def store (col : Collected) (e : ExpectedObjects) (role : BeaconRole) (root : Root) (v : ℕ)
    (signature : Bytes) : Except Err Collected :=
  match e.objectOf v root with
  | none =>
    .ok { col with
          terminalErr := some
            { text :=
                if e.beaconObjects.any fun o ↦ decide (o.1.1 = v) then
                  "could not find ssz object for root: " ++ toString root.toNat
                else "could not find beacon object for validator index: " ++ toString v } }
  | some obj =>
    match role, obj with
    | .syncCommittee, .syncMessage msg =>
      .ok { col with
            syncCommitteeMessagesToSubmit :=
              col.syncCommitteeMessagesToSubmit.insert v { msg with signature := signature } }
    | .attester, .attestation att =>
      match versionedAttestationWithSignature att signature with
      | .error _ =>
        .ok { col with
          terminalErr := some { text := "could not insert signature in versioned attestation" } }
      | .ok att' =>
        .ok { col with attestationsToSubmit := col.attestationsToSubmit.insert v att' }
    | .syncCommittee, .attestation _ => .error { text := "interface conversion" }
    | .attester, .syncMessage _ => .error { text := "interface conversion" }
    | _, _ => .ok col

end Collected

def CommitteeRunner.hasSubmitted (r : CommitteeRunner) (role : BeaconRole) (v : ℕ) : Bool :=
  decide ((role, v) ∈ r.submittedDuties)

/-- The body of the loop over the validators of a root, with its goroutine. -/
def processValidator (r : CommitteeRunner) (sched : Schedule) (e : ExpectedObjects)
    (ahead : List Root) (role : BeaconRole) (root : Root) (acc : PartialSigContainer × Collected)
    (v : ℕ) : Except Err (PartialSigContainer × Collected) :=
  if !acc.1.hasQuorum v root then .ok acc
  else if r.hasSubmitted role v then .ok acc
  else
    match r.share.get v with
    | none => .ok acc
    | some share =>
      match reconstructQuorumSig sched.signatures acc.1 root share "post-consensus" with
      | (container, .error err) =>
        -- the roots still ahead are verified too
        .ok (ahead.foldl (fun c root ↦ fallBackAndVerifyEachSignature c root share.committee v)
          container, acc.2.classify err)
      | (container, .ok sig) => (acc.2.store e role root v sig).map fun col ↦ (container, col)

def processRoots (r : CommitteeRunner) (sched : Schedule) (e : ExpectedObjects)
    (acc : PartialSigContainer × Collected) :
    List Root → Except Err (PartialSigContainer × Collected)
  | [] => .ok acc
  | root :: ahead =>
    match findValidators root e.attestationMap e.syncCommitteeMap with
    | none => processRoots r sched e acc ahead
    | some (role, validators) => do
      let acc' ← ((sched.validators root).iterate validators).foldlM
        (processValidator r sched e ahead role root) acc
      processRoots r sched e acc' ahead

/-! ### Submitting -/

namespace CommitteeRunner

/-- `RecordSubmission`, for the validators of a map. -/
def recordSubmissions (role : BeaconRole) (validators : List ℕ) (r : CommitteeRunner) :
    CommitteeRunner :=
  { r with submittedDuties := validators.map (role, ·) ++ r.submittedDuties }

def hasSubmittedAllValidatorDuties (r : CommitteeRunner) (e : ExpectedObjects) : Bool :=
  decide ((e.attestationMap.keys.filter (r.hasSubmitted .attester)).length +
    (e.syncCommitteeMap.keys.filter (r.hasSubmitted .syncCommittee)).length ≥
      e.attestationMap.len + e.syncCommitteeMap.len)

def setContainer (c : PartialSigContainer) (r : CommitteeRunner) : CommitteeRunner :=
  { r with state := r.state.map fun s ↦ { s with postConsensusContainer := c } }

/-- `markDutySucceeded` and `markDutyNotRequired`. -/
def markDutySucceeded (r : CommitteeRunner) : CommitteeRunner :=
  { r with state := r.state.map fun s ↦ { s with succeeded := true } }

end CommitteeRunner

/-- The attestations that are submitted: those with a validator index. -/
def attestationsOf (sched : Schedule) (col : Collected) : List VersionedAttestation :=
  sched.attestations.iterate ((col.attestationsToSubmit.entries.map (·.2)).filter fun att ↦
    (attestationValidatorIndex att).isSome)

def submitAttestations (sched : Schedule) (col : Collected) :
    Act Err BeaconCall CommitteeRunner Unit :=
  match attestationsOf sched col with
  | [] => pure ()
  | att :: atts => do
    Act.emit (.submitAttestations (att :: atts))
    Act.lift ((env.submitAttestations (att :: atts)).mapError
      (.wrap "could not submit attestations"))
    discard <| Act.lift ((attestationDataOf att).mapError (.wrap "could not get attestation data"))
    Act.update (CommitteeRunner.recordSubmissions .attester col.attestationsToSubmit.keys)

def syncMessagesOf (col : Collected) : List SyncCommitteeMessage :=
  col.syncCommitteeMessagesToSubmit.entries.map (·.2)

def submitSyncMessages (col : Collected) : Act Err BeaconCall CommitteeRunner Unit :=
  match syncMessagesOf col with
  | [] => pure ()
  | msg :: msgs => do
    Act.emit (.submitSyncMessages (msg :: msgs))
    Act.lift ((env.submitSyncMessages (msg :: msgs)).mapError
      (.wrap "could not submit sync committee messages"))
    Act.update (CommitteeRunner.recordSubmissions .syncCommittee
      col.syncCommitteeMessagesToSubmit.keys)

/-- `basePostConsensusMsgProcessing`: the roots that have reached a quorum. -/
def basePostConsensusMsgProcessing (sched : Schedule)
    (signedMsg : PartialSignatureMessages) : Act Err BeaconCall CommitteeRunner (List Root) := do
  let r ← Act.read
  Act.lift ((validatePostConsensusMsg env sched.shares r signedMsg).mapError
    (.wrap "invalid post-consensus message"))
  match r.state with
  | none => Act.fail .nilDereference
  | some s =>
    let stored := basePartialSigMsgProcessing r.share signedMsg.messages s.postConsensusContainer
    Act.update (CommitteeRunner.setContainer stored.1)
    return sched.roots.iterate stored.2

/-- The end of `ProcessPostConsensus`: a terminal error comes first. -/
def concludePostConsensus (e : ExpectedObjects) (col : Collected) :
    Act Err BeaconCall CommitteeRunner Unit :=
  match col.terminalErr, col.recoverableErr with
  | some err, _ => Act.fail err
  | none, some err => Act.fail err
  | none, none => do
    let r ← Act.read
    if r.hasSubmittedAllValidatorDuties e then Act.update CommitteeRunner.markDutySucceeded
    else pure ()

/-- `ProcessPostConsensus` from where roots have reached a quorum. -/
def processQuorumRoots (sched : Schedule) (roots : List Root) (s : CommitteeState) :
    Act Err BeaconCall CommitteeRunner Unit := do
  let e ← Act.lift ((expectedPostConsensusRootsAndBeaconObjects env s).mapError
    (.wrap "could not get expected post consensus roots and beacon objects"))
  if e.beaconObjects.isEmpty then do
    Act.update CommitteeRunner.markDutySucceeded
    Act.fail { text := "committee has no valid duties to execute" }
  else do
    let r ← Act.read
    let (container, col) ← Act.lift
      (processRoots r sched e (s.postConsensusContainer, Collected.empty) roots)
    Act.update (CommitteeRunner.setContainer container)
    submitAttestations env sched col
    submitSyncMessages env col
    concludePostConsensus e col

def processPostConsensus (sched : Schedule) (signedMsg : PartialSignatureMessages) :
    Act Err BeaconCall CommitteeRunner Unit := do
  let roots ← (basePostConsensusMsgProcessing env sched signedMsg).mapError
    (.wrap "failed processing post consensus message")
  if roots = [] then pure ()
  else do
    let r ← Act.read
    match r.state with
    | none => Act.fail .nilDereference
    | some s => processQuorumRoots env sched roots s

end Ssv
