import SsvNode.Spec.Messages

/-!
# What the key manager signs, and what it signs with

The objects a share signs, the records kept for slashing protection, and `KeyManagerDeps`: one field
per function of the libraries that the package calls, followed by the laws the proofs rely on. Slots
and epochs are `ℕ`, time is in nanoseconds since genesis.
-/

namespace Ssv.Ekm

abbrev PubKey : Type := Bytes
abbrev Signature : Type := Bytes
abbrev Domain : Type := Bytes

/-- An error of the key manager. `shareDecryption` marks an `ssvsigner.ShareDecryptionError`. -/
structure KmError where
  text : String
  shareDecryption : Bool := false
  deriving DecidableEq

/-- `fmt.Errorf("…: %w", err)`, which keeps the kind. -/
def KmError.wrap (context : String) (e : KmError) : KmError :=
  { e with text := context ++ ": " ++ e.text }

structure Checkpoint where
  epoch : ℕ
  root : Root := 0
  deriving DecidableEq

structure AttestationData where
  slot : ℕ := 0
  index : ℕ := 0
  beaconBlockRoot : Root := 0
  source : Checkpoint
  target : Checkpoint
  deriving DecidableEq

/-- The fields all block types share. -/
structure BeaconBlock where
  slot : ℕ
  proposerIndex : ℕ
  parentRoot : Root
  stateRoot : Root
  body : Bytes
  deriving DecidableEq

/-- The packages `eth2-key-manager` has block types of. -/
inductive BlockPackage where
  | capella
  | deneb
  | electra
  deriving DecidableEq

def BlockPackage.name : BlockPackage → String
  | .capella => "capella"
  | .deneb => "deneb"
  | .electra => "electra"

/-- `spectypes.HashRoot`, by the dynamic types the managers switch on. Contents they do not look
into are bytes. -/
inductive BeaconObject where
  | attestationData (data : AttestationData)
  | beaconBlock (package : BlockPackage) (block : BeaconBlock)
  | blindedBeaconBlock (package : BlockPackage) (block : BeaconBlock)
  | gloasBeaconBlock (block : BeaconBlock)
  | voluntaryExit (content : Bytes)
  | phase0AggregateAndProof (content : Bytes)
  | electraAggregateAndProof (content : Bytes)
  | gloasAggregateAndProof (content : Bytes)
  | sszUint64 (value : ℕ)
  | sszBytes (value : Bytes)
  | syncAggregatorSelectionData (slot subcommitteeIndex : ℕ)
  | contributionAndProof (content : Bytes)
  | validatorRegistration (content : Bytes)
  | other (typeName : String) (content : Bytes)
  deriving DecidableEq

namespace BeaconObject

/-- The type as `%T` prints it. -/
def typeName : BeaconObject → String
  | .attestationData _ => "*phase0.AttestationData"
  | .beaconBlock p _ => "*" ++ p.name ++ ".BeaconBlock"
  | .blindedBeaconBlock p _ => "*" ++ p.name ++ ".BlindedBeaconBlock"
  | .gloasBeaconBlock _ => "*gloas.BeaconBlock"
  | .voluntaryExit _ => "*phase0.VoluntaryExit"
  | .phase0AggregateAndProof _ => "*phase0.AggregateAndProof"
  | .electraAggregateAndProof _ => "*electra.AggregateAndProof"
  | .gloasAggregateAndProof _ => "*gloas.AggregateAndProof"
  | .sszUint64 _ => "types.SSZUint64"
  | .sszBytes _ => "types.SSZBytes"
  | .syncAggregatorSelectionData _ _ => "*altair.SyncAggregatorSelectionData"
  | .contributionAndProof _ => "*altair.ContributionAndProof"
  | .validatorRegistration _ => "*v1.ValidatorRegistration"
  | .other name _ => name

/-- The block in an object of one of the block types. -/
def block? : BeaconObject → Option BeaconBlock
  | .beaconBlock _ b => some b
  | .blindedBeaconBlock _ b => some b
  | .gloasBeaconBlock b => some b
  | _ => none

end BeaconObject

/-- `phase0.DomainType`, by the constants of `spectypes`. -/
inductive DomainType where
  | attester
  | proposer
  | voluntaryExit
  | aggregateAndProof
  | selectionProof
  | randao
  | syncCommittee
  | syncCommitteeSelectionProof
  | contributionAndProof
  | applicationBuilder
  | ptcAttester
  | proposerPreferences
  | beaconBuilder
  | builderRequestAuth
  | other (code : ℕ)
  deriving DecidableEq

/-- `spec.DataVersion`, as far as the managers name one. -/
inductive DataVersion where
  | phase0
  | capella
  | other (name : String)
  deriving DecidableEq

def DataVersion.toString : DataVersion → String
  | .phase0 => "phase0"
  | .capella => "capella"
  | .other name => name

/-- `ekm.BeaconNetwork`. A fork is its encoding. -/
structure BeaconConfig where
  slotDuration : ℕ
  slotsPerEpoch : ℕ
  genesisRoot : Root
  forkAtEpoch : ℕ → DataVersion × Bytes
  forkAtVersion : DataVersion → Option Bytes

namespace BeaconConfig

def estimatedSlotAtTime (cfg : BeaconConfig) (time : ℕ) : ℕ := time / cfg.slotDuration

def estimatedEpochAtSlot (cfg : BeaconConfig) (slot : ℕ) : ℕ := slot / cfg.slotsPerEpoch

end BeaconConfig

/-- The database calls that can fail under the records of one public key. -/
inductive DbCall where
  | getAttestation
  | setAttestation
  | deleteAttestation
  | getProposal
  | setProposal
  | deleteProposal
  deriving DecidableEq

/-- What a call meets: the wall clock, which accesses fail, and what the remote signer answers. -/
structure Env where
  now : ℕ
  db : DbCall → Except KmError Unit := fun _ ↦ .ok ()
  /-- An error of `Wallet.AccountByPublicKey` other than "account not found". -/
  walletLookup : Except KmError Unit := .ok ()
  walletAdd : Except KmError Unit := .ok ()
  walletDelete : Except KmError Unit := .ok ()
  addValidators : Except KmError (List String) := .ok ["imported"]
  removeValidators : Except KmError (List String) := .ok ["deleted"]
  remoteSign : Except KmError Signature := .ok []

/-- The methods of `signer.ValidatorSigner` without slashing protection. -/
inductive PlainMethod where
  | signVoluntaryExit
  | signAggregateAndProof
  | signSlot
  | signEpoch
  | signSyncCommittee
  | signSyncCommitteeSelectionData
  | signSyncCommitteeContributionAndProof
  | signRegistration
  deriving DecidableEq

/-- What a slashing-protected method leaves: the record in the store, and its result. -/
structure Signing (ρ : Type) where
  record : Option ρ
  result : Except KmError (Signature × Root)

/-- The method fails and touches nothing, or the check has passed and the record is updated. -/
def Signing.Protected {ρ : Type} (stored : Option ρ) (accepts : Prop) (update : Except KmError ρ)
    (o : Signing ρ) : Prop :=
  (o.record = stored ∧ ∃ e, o.result = .error e) ∨
    accepts ∧ ∃ record, update = .ok record ∧ o.record = some record

/-- The functions of the libraries `ssvsigner/ekm` is written against. -/
class KeyManagerDeps where
  isValidFarFutureEpoch : BeaconConfig → ℕ → ℕ → Bool
  isValidFarFutureSlot : BeaconConfig → ℕ → ℕ → Bool
  /-- `NormalProtection.IsSlashableAttestation`: a status says why not to sign. -/
  isSlashableAttestation : Option AttestationData → AttestationData → Except KmError (Option String)
  /-- `NormalProtection.UpdateHighestAttestation`: the record to save. -/
  updateHighestAttestation : Option AttestationData → AttestationData →
    Except KmError AttestationData
  validProposal : String
  isSlashableProposal : Option ℕ → ℕ → Except KmError String
  /-- `NormalProtection.UpdateHighestProposal`: the slot to save. -/
  updateHighestProposal : Option ℕ → ℕ → Except KmError ℕ
  /-- `SimpleSigner.SignBeaconAttestation`, given whether there is an account and the stored record.
  -/
  signBeaconAttestation : BeaconConfig → Env → Bool → Option AttestationData → AttestationData →
    Domain → PubKey → Signing AttestationData
  signBeaconBlock : BeaconConfig → Env → Bool → Option ℕ → BlockPackage → BeaconBlock → Domain →
    PubKey → Signing ℕ
  signBlindedBeaconBlock : BeaconConfig → Env → Bool → Option ℕ → BlockPackage → BeaconBlock →
    Domain → PubKey → Signing ℕ
  /-- The methods of `SimpleSigner` without slashing protection. -/
  signPlain : PlainMethod → Env → Bool → BeaconObject → Domain → PubKey →
    Except KmError (Signature × Root)
  hashTreeRoot : BeaconObject → Except KmError Root
  /-- `HashTreeRoot` of the body of a block. -/
  bodyRoot : BeaconObject → Except KmError Root
  computeETHSigningRoot : BeaconObject → Domain → Except KmError Root
  decrypt : Bytes → Except KmError Bytes
  SecretKey : Type
  setHexString : Bytes → Except KmError SecretKey
  getPublicKey : SecretKey → PubKey
  hasHDKey : SecretKey → Bool
  /-- Without a record an attestation is not cleared. -/
  isSlashableAttestation_none {d : AttestationData} : ∃ e, isSlashableAttestation none d = .error e
  /-- A source below the record's, or a target not above it, is rejected. -/
  isSlashableAttestation_some {h d : AttestationData} :
    isSlashableAttestation (some h) d = .ok none →
      h.source.epoch ≤ d.source.epoch ∧ h.target.epoch < d.target.epoch
  /-- The saved record has the larger source and the larger target. -/
  updateHighestAttestation_some {h d h' : AttestationData} :
    updateHighestAttestation (some h) d = .ok h' →
      h'.source.epoch = max h.source.epoch d.source.epoch ∧
        h'.target.epoch = max h.target.epoch d.target.epoch
  /-- Without a record a proposal is not cleared. -/
  isSlashableProposal_none {slot : ℕ} : isSlashableProposal none slot ≠ .ok validProposal
  /-- A proposal at or below the recorded slot is rejected. -/
  isSlashableProposal_some {h slot : ℕ} :
    isSlashableProposal (some h) slot = .ok validProposal → h < slot
  /-- The saved slot is the larger one. -/
  updateHighestProposal_some {h slot h' : ℕ} :
    updateHighestProposal (some h) slot = .ok h' → h' = max h slot
  signBeaconAttestation_protected {cfg : BeaconConfig} {env : Env} {account : Bool}
      {stored : Option AttestationData} {d : AttestationData} {domain : Domain} {pk : PubKey} :
    (signBeaconAttestation cfg env account stored d domain pk).Protected stored
      (isSlashableAttestation stored d = .ok none) (updateHighestAttestation stored d)
  signBeaconBlock_protected {cfg : BeaconConfig} {env : Env} {account : Bool} {stored : Option ℕ}
      {p : BlockPackage} {b : BeaconBlock} {domain : Domain} {pk : PubKey} :
    (signBeaconBlock cfg env account stored p b domain pk).Protected stored
      (isSlashableProposal stored b.slot = .ok validProposal) (updateHighestProposal stored b.slot)
  signBlindedBeaconBlock_protected {cfg : BeaconConfig} {env : Env} {account : Bool}
      {stored : Option ℕ} {p : BlockPackage} {b : BeaconBlock} {domain : Domain} {pk : PubKey} :
    (signBlindedBeaconBlock cfg env account stored p b domain pk).Protected stored
      (isSlashableProposal stored b.slot = .ok validProposal) (updateHighestProposal stored b.slot)

end Ssv.Ekm
