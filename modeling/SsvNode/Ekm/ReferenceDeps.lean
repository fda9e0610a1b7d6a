import SsvNode.Ekm.Dependencies
import SsvNode.Lib.Checks

/-!
# A model of the key manager's dependencies

`NormalProtection` and `SimpleSigner` as `eth2-key-manager` documents them, with its far-future
window of twenty minutes. The cryptography is a stand-in.
-/

namespace Ssv.Ekm.Reference

/-- `signer.MaxFarFutureDelta`, twenty minutes. -/
def maxFarFutureDelta : ℕ := 20 * 60 * 1000000000

def isValidFarFutureSlot (cfg : BeaconConfig) (now slot : ℕ) : Bool :=
  decide (slot ≤ cfg.estimatedSlotAtTime (now + maxFarFutureDelta))

def isValidFarFutureEpoch (cfg : BeaconConfig) (now epoch : ℕ) : Bool :=
  decide (epoch ≤ cfg.estimatedEpochAtSlot (cfg.estimatedSlotAtTime (now + maxFarFutureDelta)))

variable (stored : Option AttestationData)

def isSlashableAttestation (d : AttestationData) : Except KmError (Option String) :=
  match stored with
  | none => .error { text := "highest attestation data is not found" }
  | some h =>
    if d.source.epoch < h.source.epoch ∨ d.target.epoch ≤ h.target.epoch then
      .ok (some "HighestAttestationVote")
    else .ok none

def updateHighestAttestation (d : AttestationData) : Except KmError AttestationData :=
  match stored with
  | none => .ok d
  | some h => .ok { h with
      source := { h.source with epoch := max h.source.epoch d.source.epoch }
      target := { h.target with epoch := max h.target.epoch d.target.epoch } }

def isSlashableProposal (stored : Option ℕ) (slot : ℕ) : Except KmError String :=
  match stored with
  | none => .error { text := "highest proposal data is not found" }
  | some h => if slot ≤ h then .ok "HighestProposalVote" else .ok "ValidProposal"

def updateHighestProposal (stored : Option ℕ) (slot : ℕ) : Except KmError ℕ :=
  match stored with
  | none => .ok slot
  | some h => .ok (max h slot)

def hashTreeRoot : BeaconObject → Root
  | .attestationData d => d.beaconBlockRoot
  | .beaconBlock _ b => b.stateRoot
  | .blindedBeaconBlock _ b => b.stateRoot
  | .gloasBeaconBlock b => b.stateRoot
  | _ => 0

/-- Account, far-future bound, check, record, sign. -/
def signProtected {ρ : Type} (account valid : Bool) (stored : Option ρ)
    (check : Except KmError Unit) (update : Except KmError ρ) (signature : Signature × Root) :
    Signing ρ :=
  match (do
    Checks.require (account = true) { text := "account not found" }
    Checks.require (valid = true) { text := "too far into the future" }
    check
    update : Except KmError ρ) with
  | .error e => { record := stored, result := .error e }
  | .ok record => { record := some record, result := .ok signature }

def checkAttestation (d : AttestationData) : Except KmError Unit := do
  match ← isSlashableAttestation stored d with
  | none => return
  | some status => throw { text := "slashable attestation (" ++ status ++ "), not signing" }

def checkProposal (stored : Option ℕ) (slot : ℕ) : Except KmError Unit := do
  let status ← isSlashableProposal stored slot
  if status = "ValidProposal" then return
  else throw { text := "slashable proposal (" ++ status ++ "), not signing" }

theorem signProtected_protected {ρ : Type} {account valid : Bool} {stored : Option ρ}
    {check : Except KmError Unit} {update : Except KmError ρ} {signature : Signature × Root}
    {accepts : Prop} (h : check = .ok () → accepts) :
    (signProtected account valid stored check update signature).Protected stored accepts
      update := by
  unfold signProtected
  split
  · exact .inl ⟨rfl, _, rfl⟩
  · next record hrun =>
    simp only [Checks.bind_eq_ok, Checks.exists_check] at hrun
    obtain ⟨-, -, hcheck, hupdate⟩ := hrun
    exact .inr ⟨h hcheck, record, hupdate, rfl⟩

theorem isSlashableAttestation_of_check {stored : Option AttestationData} {d : AttestationData}
    (h : checkAttestation stored d = .ok ()) : isSlashableAttestation stored d = .ok none := by
  obtain ⟨status, hs, hok⟩ := Checks.bind_eq_ok.1 h
  cases status with
  | none => exact hs
  | some => exact absurd hok Checks.throw_ne_ok

theorem isSlashableProposal_of_check {stored : Option ℕ} {slot : ℕ}
    (h : checkProposal stored slot = .ok ()) :
    isSlashableProposal stored slot = .ok "ValidProposal" := by
  obtain ⟨status, hs, hok⟩ := Checks.bind_eq_ok.1 h
  split at hok
  · next hv => rw [hs, hv]
  · exact absurd hok Checks.throw_ne_ok

@[reducible]
def deps : KeyManagerDeps where
  isValidFarFutureEpoch := isValidFarFutureEpoch
  isValidFarFutureSlot := isValidFarFutureSlot
  isSlashableAttestation := isSlashableAttestation
  updateHighestAttestation := updateHighestAttestation
  validProposal := "ValidProposal"
  isSlashableProposal := isSlashableProposal
  updateHighestProposal := updateHighestProposal
  signBeaconAttestation cfg env account stored d _ pk :=
    signProtected account
      (isValidFarFutureEpoch cfg env.now d.target.epoch &&
        isValidFarFutureEpoch cfg env.now d.source.epoch)
      stored (checkAttestation stored d) (updateHighestAttestation stored d)
      (pk, hashTreeRoot (.attestationData d))
  signBeaconBlock cfg env account stored p b _ pk :=
    signProtected account (isValidFarFutureSlot cfg env.now b.slot) stored
      (checkProposal stored b.slot) (updateHighestProposal stored b.slot)
      (pk, hashTreeRoot (.beaconBlock p b))
  signBlindedBeaconBlock cfg env account stored p b _ pk :=
    signProtected account (isValidFarFutureSlot cfg env.now b.slot) stored
      (checkProposal stored b.slot) (updateHighestProposal stored b.slot)
      (pk, hashTreeRoot (.blindedBeaconBlock p b))
  signPlain _ _ account object _ pk :=
    if account then .ok (pk, hashTreeRoot object) else .error { text := "account not found" }
  hashTreeRoot object := .ok (hashTreeRoot object)
  bodyRoot object := .ok (hashTreeRoot object)
  computeETHSigningRoot object _ := .ok (hashTreeRoot object)
  decrypt := .ok
  SecretKey := Bytes
  setHexString := .ok
  getPublicKey key := key
  hasHDKey _ := true
  isSlashableAttestation_none := ⟨_, rfl⟩
  isSlashableAttestation_some {h d} hok := by
    simp only [isSlashableAttestation] at hok
    split at hok
    · cases hok
    · omega
  updateHighestAttestation_some hok := by
    cases hok
    exact ⟨rfl, rfl⟩
  isSlashableProposal_none := by simp [isSlashableProposal]
  isSlashableProposal_some {h slot} hok := by
    simp only [isSlashableProposal] at hok
    split at hok
    · simp at hok
    · omega
  updateHighestProposal_some hok := by
    cases hok
    rfl
  signBeaconAttestation_protected := signProtected_protected isSlashableAttestation_of_check
  signBeaconBlock_protected := signProtected_protected isSlashableProposal_of_check
  signBlindedBeaconBlock_protected := signProtected_protected isSlashableProposal_of_check

/-- Slots of twelve seconds, thirty-two to an epoch. -/
def config : BeaconConfig where
  slotDuration := 12 * 1000000000
  slotsPerEpoch := 32
  genesisRoot := 0
  forkAtEpoch _ := (.capella, [])
  forkAtVersion _ := none

end Ssv.Ekm.Reference
