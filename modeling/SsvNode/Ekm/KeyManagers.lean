import SsvNode.Ekm.SlashingProtector

/-!
# The two key managers

`LocalKeyManager` signs with `eth2-key-manager`, which checks attestations and blocks itself (all
but Gloas blocks); `RemoteKeyManager` checks here and has a Web3Signer sign. Signing, adding and
removing hold the share's lock, and a bump writes to a transaction that is committed by a step of
its own. A remote signature counts as given away once the request is sent.
-/

namespace Ssv.Ekm

variable [KeyManagerDeps]

open KeyManagerDeps

/-- An argument list of `SignBeaconObject`. -/
structure SignRequest where
  object : BeaconObject
  domain : Domain
  pubKey : PubKey
  slot : ℕ
  signatureDomain : DomainType

def SignRequest.signed (req : SignRequest) : Signed :=
  { pubKey := req.pubKey, object := req.object, domainType := req.signatureDomain }

def failWith {α : Type} (text : String) : StoreAct α := Act.fail { text := text }

variable (cfg : BeaconConfig)

variable (env : Env)

/-- Check a block's slot against the far-future bound and the record, and record it. -/
def guardProposal (pk : PubKey) (blockSlot : ℕ) : StoreAct Unit := do
  if isValidFarFutureSlot cfg env.now blockSlot then
    SlashingProtector.isBeaconBlockSlashable env pk blockSlot
    SlashingProtector.updateHighestProposal env pk blockSlot
  else failWith "proposed block slot too far into the future"

namespace LocalKeyManager

def signProtectedAttestation (pk : PubKey)
    (sign : Bool → Option AttestationData → Signing AttestationData) :
    StoreAct (Signature × Root) := do
  let s ← Act.read
  let o := sign (s.accounts pk) (s.highestAttestation pk)
  Act.write (s.withAttestation pk o.record)
  Act.lift o.result

def signProtectedProposal (pk : PubKey) (sign : Bool → Option ℕ → Signing ℕ) :
    StoreAct (Signature × Root) := do
  let s ← Act.read
  let o := sign (s.accounts pk) (s.highestProposal pk)
  Act.write (s.withProposal pk o.record)
  Act.lift o.result

def signUnprotected (req : SignRequest) (method : PlainMethod) : StoreAct (Signature × Root) := do
  Act.lift (signPlain method env ((← Act.read).accounts req.pubKey) req.object req.domain
    req.pubKey)

/-- `signSSZRoot`: the signer's generic method. -/
def signSSZRoot (req : SignRequest) : StoreAct (Signature × Root) :=
  signUnprotected env req .signAggregateAndProof

/-- `signBeaconObject`, the part under `DomainProposer`. -/
def signBlock (req : SignRequest) : StoreAct (Signature × Root) :=
  match req.object with
  | .beaconBlock package block =>
    signProtectedProposal req.pubKey fun account stored ↦
      signBeaconBlock cfg env account stored package block req.domain req.pubKey
  | .blindedBeaconBlock package block =>
    signProtectedProposal req.pubKey fun account stored ↦
      signBlindedBeaconBlock cfg env account stored package block req.domain req.pubKey
  | .gloasBeaconBlock block => do
    guardProposal cfg env req.pubKey block.slot
    signSSZRoot env req
  | object => failWith ("unexpected object type for proposer domain: " ++ object.typeName)

/-- Sign an object of the expected type, or fail naming the type. -/
def signCast (req : SignRequest) (expected : BeaconObject → Bool) (typeName : String)
    (method : PlainMethod) : StoreAct (Signature × Root) :=
  if expected req.object then signUnprotected env req method
  else failWith ("could not cast obj to " ++ typeName)

/-- `signBeaconObject`. -/
def signObject (req : SignRequest) : StoreAct (Signature × Root) :=
  match req.signatureDomain with
  | .attester =>
    match req.object with
    | .attestationData data =>
      signProtectedAttestation req.pubKey fun account stored ↦
        signBeaconAttestation cfg env account stored data req.domain req.pubKey
    | _ => failWith "could not cast obj to AttestationData"
  | .proposer => signBlock cfg env req
  | .voluntaryExit =>
    signCast env req (· matches .voluntaryExit _) "VoluntaryExit" .signVoluntaryExit
  | .aggregateAndProof => signUnprotected env req .signAggregateAndProof
  | .selectionProof => signCast env req (· matches .sszUint64 _) "SSZUint64" .signSlot
  | .randao => signCast env req (· matches .sszUint64 _) "SSZUint64" .signEpoch
  | .syncCommittee => signCast env req (· matches .sszBytes _) "SSZBytes" .signSyncCommittee
  | .syncCommitteeSelectionProof =>
    signCast env req (· matches .syncAggregatorSelectionData _ _) "SyncAggregatorSelectionData"
      .signSyncCommitteeSelectionData
  | .contributionAndProof =>
    signCast env req (· matches .contributionAndProof _) "ContributionAndProof"
      .signSyncCommitteeContributionAndProof
  | .applicationBuilder =>
    match req.object with
    | .validatorRegistration _ => signUnprotected env req .signRegistration
    | object => failWith ("obj type is unknown: " ++ object.typeName)
  | .ptcAttester | .proposerPreferences | .beaconBuilder | .builderRequestAuth =>
    signSSZRoot env req
  | .other _ => failWith "domain unknown"

def signBeaconObject (req : SignRequest) : StoreAct (Signature × Root) := do
  let signature ← signObject cfg env req
  Act.emit req.signed
  return signature

/-- An `ssvsigner.ShareDecryptionError`. -/
def shareDecryptionError (context : String) (e : KmError) : KmError :=
  { e.wrap context with shareDecryption := true }

def saveAccount (key : SecretKey) : StoreAct Unit := do
  if hasHDKey key then
    (Act.lift env.walletAdd).mapError (.wrap "add validator account to wallet")
    Act.update fun s ↦ { s with accounts := Function.update s.accounts (getPublicKey key) true }
  else failWith "could not generate HDKey"

def addShare (encryptedPrivKey : Bytes) (pk : PubKey) : StoreAct Unit := do
  let sharePrivKeyHex ← Act.lift ((decrypt encryptedPrivKey).mapError
    (shareDecryptionError "decrypt"))
  let sharePrivKey ← Act.lift ((setHexString sharePrivKeyHex).mapError
    (shareDecryptionError "decode hex"))
  if getPublicKey sharePrivKey = pk then
    (SlashingProtector.bumpSlashingProtection cfg env (getPublicKey sharePrivKey)).mapError
      (.wrap "could not bump slashing protection")
    (Act.lift env.walletLookup).mapError (.wrap "could not check share existence")
    if (← Act.read).accounts (getPublicKey sharePrivKey) then pure ()
    else (saveAccount env sharePrivKey).mapError (.wrap "save account")
  else
    Act.fail { text := "share private key does not match public key", shareDecryption := true }

def removeShare (pk : PubKey) : StoreAct Unit := do
  (SignerStorage.removeHighestAttestation env pk).mapError
    (.wrap "could not remove highest attestation")
  (SignerStorage.removeHighestProposal env pk).mapError (.wrap "could not remove highest proposal")
  (Act.lift env.walletLookup).mapError (.wrap "could not check share existence")
  if (← Act.read).accounts pk then
    (Act.lift env.walletDelete).mapError (.wrap "could not delete share")
    Act.update fun s ↦ { s with accounts := Function.update s.accounts pk false }
  else pure ()

end LocalKeyManager

namespace RemoteKeyManager

/-- `web3signer.SignRequestType`, by the constants the manager uses. -/
inductive RequestType where
  | attestation
  | blockV2
  | voluntaryExit
  | aggregateAndProof
  | aggregationSlot
  | randaoReveal
  | syncCommitteeMessage
  | syncCommitteeSelectionProof
  | syncCommitteeContributionAndProof
  | validatorRegistration
  deriving DecidableEq

structure ForkInfo where
  fork : Bytes
  genesisValidatorsRoot : Root

/-- `web3signer.SignRequest`, without the copy of the object it carries. -/
structure RemoteRequest where
  type : RequestType
  forkInfo : ForkInfo
  signingRoot : Root

/-- `phase0.BeaconBlockHeader`. -/
structure BlockHeader where
  slot : ℕ
  proposerIndex : ℕ
  parentRoot : Root
  stateRoot : Root
  bodyRoot : Root

def BlockHeader.ofBlock (b : BeaconBlock) (bodyRoot : Root) : BlockHeader where
  slot := b.slot
  proposerIndex := b.proposerIndex
  parentRoot := b.parentRoot
  stateRoot := b.stateRoot
  bodyRoot := bodyRoot

/-- `web3signer.ConvertBlockToBeaconBlockData`, which knows no Gloas block. -/
def convertBlockToBeaconBlockData (object : BeaconObject) (version : DataVersion) :
    Except KmError BlockHeader :=
  match object with
  | .beaconBlock _ b => do
    let root ← (bodyRoot object).mapError
      (.wrap ("could not hash beacon block (" ++ version.toString ++ ")"))
    return .ofBlock b root
  | .blindedBeaconBlock _ b => do
    let root ← (bodyRoot object).mapError
      (.wrap ("could not hash blinded beacon block (" ++ version.toString ++ ")"))
    return .ofBlock b root
  | _ => .error { text := "obj type is unknown: " ++ object.typeName }

def getForkInfo (epoch : ℕ) : ForkInfo where
  fork := (cfg.forkAtEpoch epoch).2
  genesisValidatorsRoot := cfg.genesisRoot

def voluntaryExitForkInfo : Except KmError ForkInfo :=
  match cfg.forkAtVersion .capella with
  | some fork => .ok { fork := fork, genesisValidatorsRoot := cfg.genesisRoot }
  | none => .error { text := "capella fork not configured" }

def validatorRegistrationForkInfo : Except KmError ForkInfo :=
  match cfg.forkAtVersion .phase0 with
  | some fork => .ok { fork := fork, genesisValidatorsRoot := 0 }
  | none => .error { text := "genesis fork not configured" }

def handleDomainAttester (object : BeaconObject) (pk : PubKey) : StoreAct Unit := do
  match object with
  | .attestationData data =>
    if ¬ isValidFarFutureEpoch cfg env.now data.target.epoch then
      failWith "target epoch too far into the future"
    else if ¬ isValidFarFutureEpoch cfg env.now data.source.epoch then
      failWith "source epoch too far into the future"
    else
      SlashingProtector.isAttestationSlashable env pk data
      SlashingProtector.updateHighestAttestation env pk data
  | _ => failWith "could not cast obj to AttestationData"

def handleDomainProposer (object : BeaconObject) (slot : ℕ) (pk : PubKey) : StoreAct Unit := do
  let version := (cfg.forkAtEpoch (cfg.estimatedEpochAtSlot slot)).1
  let header ← Act.lift (convertBlockToBeaconBlockData object version)
  guardProposal cfg env pk header.slot

/-- The request types that need an object of one type and the current fork. -/
def requestCast (req : SignRequest) (expected : BeaconObject → Bool)
    (typeName : String) (type : RequestType) : Except KmError (RequestType × ForkInfo) :=
  if expected req.object then
    .ok (type, getForkInfo cfg (cfg.estimatedEpochAtSlot req.slot))
  else .error { text := "could not cast obj to " ++ typeName }

/-- `prepareSignRequest`, the domains without slashing protection. -/
def preparePlain (req : SignRequest) : Except KmError (RequestType × ForkInfo) :=
  match req.signatureDomain with
  | .voluntaryExit => do
    if req.object matches .voluntaryExit _ then
      return (.voluntaryExit, ← voluntaryExitForkInfo cfg)
    else throw { text := "could not cast obj to VoluntaryExit" }
  | .aggregateAndProof =>
    match req.object with
    | .phase0AggregateAndProof _ | .electraAggregateAndProof _ =>
      .ok (.aggregateAndProof, getForkInfo cfg (cfg.estimatedEpochAtSlot req.slot))
    | .gloasAggregateAndProof _ =>
      .error { text :=
        "gloas aggregate and proof signing is not supported by the remote signer: " ++
        "Web3Signer has no Gloas aggregate-and-proof type, use local signing for aggregator " ++
        "duties on Gloas" }
    | object => .error { text := "obj type is unknown: " ++ object.typeName }
  | .selectionProof => requestCast cfg req (· matches .sszUint64 _) "SSZUint64" .aggregationSlot
  | .randao => requestCast cfg req (· matches .sszUint64 _) "SSZUint64" .randaoReveal
  | .syncCommittee => requestCast cfg req (· matches .sszBytes _) "SSZBytes" .syncCommitteeMessage
  | .syncCommitteeSelectionProof =>
    requestCast cfg req (· matches .syncAggregatorSelectionData _ _) "SyncAggregatorSelectionData"
      .syncCommitteeSelectionProof
  | .contributionAndProof =>
    requestCast cfg req (· matches .contributionAndProof _) "ContributionAndProof"
      .syncCommitteeContributionAndProof
  | .applicationBuilder => do
    if req.object matches .validatorRegistration _ then
      return (.validatorRegistration, ← validatorRegistrationForkInfo cfg)
    else throw { text := "could not cast obj to ValidatorRegistration" }
  | .ptcAttester =>
    .error { text := "payload attestation signing is not supported by the remote signer: " ++
      "Web3Signer has no payload-attestation type, use local signing for PTC-assigned validators" }
  | .proposerPreferences =>
    .error { text := "proposer preferences signing is not supported by the remote signer: " ++
      "Web3Signer has no proposer-preferences type, use local signing" }
  | .beaconBuilder =>
    .error { text := "execution payload envelope signing is not supported by the remote signer: " ++
      "Web3Signer has no envelope type, use local signing for self-build envelopes" }
  | .builderRequestAuth =>
    .error { text :=
      "request auth signing is not supported by the remote signer: Web3Signer has " ++
      "no request-auth type, use local signing for the direct-builder overlay" }
  | .attester | .proposer | .other _ => .error { text := "domain unknown" }

def prepareSignRequest (req : SignRequest) : StoreAct RemoteRequest := do
  let current := getForkInfo cfg (cfg.estimatedEpochAtSlot req.slot)
  let (type, forkInfo) ← (match req.signatureDomain with
    | .attester => do
      handleDomainAttester cfg env req.object req.pubKey
      return (.attestation, current)
    | .proposer => do
      handleDomainProposer cfg env req.object req.slot req.pubKey
      return (.blockV2, current)
    | _ => Act.lift (preparePlain cfg req))
  let root ← Act.lift ((computeETHSigningRoot req.object req.domain).mapError
    (.wrap "compute root"))
  return { type := type, forkInfo := forkInfo, signingRoot := root }

def signBeaconObject (req : SignRequest) : StoreAct (Signature × Root) := do
  let request ← prepareSignRequest cfg env req
  Act.emit req.signed
  let signature ← (Act.lift env.remoteSign).mapError (.wrap "remote signer")
  return (signature, request.signingRoot)

/-- The loop over the statuses of a batch request. -/
def checkStatuses (accepted : List String) (statuses : List String) : Except KmError Unit :=
  forM statuses fun status ↦
    if status ∈ accepted then .ok () else .error { text := "unexpected status " ++ status }

def addShare (pk : PubKey) : StoreAct Unit := do
  let statuses ← (Act.lift env.addValidators).mapError (.wrap "add validator")
  Act.lift (checkStatuses ["imported", "duplicate"] statuses)
  (SlashingProtector.bumpSlashingProtection cfg env pk).mapError
    (.wrap "could not bump slashing protection")

def removeShare (pk : PubKey) : StoreAct Unit := do
  let statuses ← (Act.lift env.removeValidators).mapError (.wrap "remove validator")
  Act.lift (checkStatuses ["deleted", "not_found"] statuses)
  (SignerStorage.removeHighestAttestation env pk).mapError
    (.wrap "could not remove highest attestation")
  (SignerStorage.removeHighestProposal env pk).mapError (.wrap "could not remove highest proposal")

end RemoteKeyManager

end Ssv.Ekm
