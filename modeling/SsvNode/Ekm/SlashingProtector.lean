import SsvNode.Ekm.Dependencies
import SsvNode.Lib.Act
import SsvNode.Lib.Watermark

/-!
# The signer store and the slashing protector

`signer_storage.go` keeps the highest signed attestation and proposed slot per public key;
`slashing_protector.go` checks requests against them, raises them, and recreates them from the
clock. A method is an `Act` on the store, or on a transaction's view of it (`Txn.view`), whose
events are the signatures it gives away.
-/

namespace Ssv.Ekm

variable [KeyManagerDeps]

open KeyManagerDeps

/-- `ekm.storage`, together with the accounts of the wallet that is kept in it. -/
structure SignerStorage where
  highestAttestation : PubKey → Option AttestationData
  highestProposal : PubKey → Option ℕ
  accounts : PubKey → Bool

/-- A signature a share gave away, with the type of the domain it was made under. -/
structure Signed where
  pubKey : PubKey
  object : BeaconObject
  domainType : DomainType
  deriving DecidableEq

abbrev StoreAct (α : Type) : Type := Act KmError Signed SignerStorage α

namespace SignerStorage

def withAttestation (s : SignerStorage) (pk : PubKey) (record : Option AttestationData) :
    SignerStorage :=
  { s with highestAttestation := Function.update s.highestAttestation pk record }

def withProposal (s : SignerStorage) (pk : PubKey) (record : Option ℕ) : SignerStorage :=
  { s with highestProposal := Function.update s.highestProposal pk record }

def access (env : Env) (call : DbCall) : StoreAct Unit := Act.lift (env.db call)

def retrieveHighestAttestation (env : Env) (pk : PubKey) : StoreAct (Option AttestationData) := do
  (access env .getAttestation).mapError (.wrap "could not get highest attestation from db")
  return (← Act.read).highestAttestation pk

def saveHighestAttestation (env : Env) (pk : PubKey) (d : AttestationData) : StoreAct Unit := do
  access env .setAttestation
  Act.update (·.withAttestation pk (some d))

def removeHighestAttestation (env : Env) (pk : PubKey) : StoreAct Unit := do
  access env .deleteAttestation
  Act.update (·.withAttestation pk none)

def retrieveHighestProposal (env : Env) (pk : PubKey) : StoreAct (Option ℕ) := do
  (access env .getProposal).mapError (.wrap "could not get highest proposal from db")
  return (← Act.read).highestProposal pk

def saveHighestProposal (env : Env) (pk : PubKey) (slot : ℕ) : StoreAct Unit := do
  if slot = 0 then Act.fail { text := "invalid proposal slot, slot could not be 0" }
  else
    access env .setProposal
    Act.update (·.withProposal pk (some slot))

def removeHighestProposal (env : Env) (pk : PubKey) : StoreAct Unit := do
  access env .deleteProposal
  Act.update (·.withProposal pk none)

end SignerStorage

/-- The writes of an open transaction: what it has put in the place of a record, or nothing. -/
structure Txn where
  highestAttestation : PubKey → Option (Option AttestationData)
  highestProposal : PubKey → Option (Option ℕ)

namespace Txn

def empty : Txn := ⟨fun _ ↦ none, fun _ ↦ none⟩

variable (txn : Txn)

/-- The store as the transaction reads it, and as its commit leaves it. The wallet does not take
part. -/
def view (s : SignerStorage) : SignerStorage :=
  { s with
    highestAttestation := fun pk ↦ (txn.highestAttestation pk).getD (s.highestAttestation pk)
    highestProposal := fun pk ↦ (txn.highestProposal pk).getD (s.highestProposal pk) }

/-- The writes after a method that has found the records as in `s` and left them as in `s'`. To
delete a record that is not there changes nothing on commit either. -/
def write (s s' : SignerStorage) : Txn where
  highestAttestation pk :=
    if s'.highestAttestation pk = s.highestAttestation pk then txn.highestAttestation pk
    else some (s'.highestAttestation pk)
  highestProposal pk :=
    if s'.highestProposal pk = s.highestProposal pk then txn.highestProposal pk
    else some (s'.highestProposal pk)

/-- No record of the share waits for the commit. -/
def Settled (pk : PubKey) : Prop :=
  (txn.highestAttestation pk).join = none ∧ (txn.highestProposal pk).join = none

instance (txn : Txn) (pk : PubKey) : Decidable (txn.Settled pk) :=
  inferInstanceAs (Decidable (_ ∧ _))

omit [KeyManagerDeps]

theorem getD_write {ρ : Type} [DecidableEq ρ] (written : Option (Option ρ))
    (stored left : Option ρ) :
    (if left = written.getD stored then written else some left).getD stored = left := by
  by_cases h : left = written.getD stored
  · rw [if_pos h]
    exact h.symm
  · rw [if_neg h]
    rfl

/-- After its writes the transaction reads what the method has left. -/
theorem view_write {s t : SignerStorage} (s' : SignerStorage)
    (hatt : t.highestAttestation = s.highestAttestation)
    (hprop : t.highestProposal = s.highestProposal) :
    ((txn.write (txn.view s) s').view t).highestAttestation = s'.highestAttestation ∧
    ((txn.write (txn.view s) s').view t).highestProposal = s'.highestProposal := by
  simp only [view, write, hatt, hprop]
  exact ⟨funext fun pk ↦ getD_write .., funext fun pk ↦ getD_write ..⟩

end Txn

namespace SlashingProtector

open SignerStorage

def minSPAttestationEpochGap : ℕ := 0

def minSPProposalSlotGap : ℕ := 0

def isAttestationSlashable (env : Env) (pk : PubKey) (d : AttestationData) : StoreAct Unit := do
  match isSlashableAttestation (← retrieveHighestAttestation env pk) d with
  | .error e => Act.fail e
  | .ok (some status) =>
    Act.fail { text := "slashable attestation (" ++ status ++ "), not signing" }
  | .ok none => pure ()

def isBeaconBlockSlashable (env : Env) (pk : PubKey) (slot : ℕ) : StoreAct Unit := do
  match isSlashableProposal (← retrieveHighestProposal env pk) slot with
  | .error e => Act.fail e
  | .ok status =>
    if status = validProposal then pure ()
    else Act.fail { text := "slashable proposal (" ++ status ++ "), not signing" }

def updateHighestAttestation (env : Env) (pk : PubKey) (d : AttestationData) : StoreAct Unit := do
  match KeyManagerDeps.updateHighestAttestation (← retrieveHighestAttestation env pk) d with
  | .error e => Act.fail e
  | .ok record => saveHighestAttestation env pk record

def updateHighestProposal (env : Env) (pk : PubKey) (slot : ℕ) : StoreAct Unit := do
  match KeyManagerDeps.updateHighestProposal (← retrieveHighestProposal env pk) slot with
  | .error e => Act.fail e
  | .ok record => saveHighestProposal env pk record

def computeMinimalAttestationSP (epoch : ℕ) : AttestationData :=
  let highestTarget := epoch + minSPAttestationEpochGap
  let highestSource := if highestTarget > 0 then highestTarget - 1 else 0
  { source := { epoch := highestSource }, target := { epoch := highestTarget } }

def computeMinimalProposerSP (slot : ℕ) : ℕ := slot + minSPProposalSlotGap

/-- Both unexported updates: keep a record that is up to date, or save the minimal one. -/
def bumpRecord {ρ : Type} (retrieve : StoreAct (Option ρ)) (upToDate : ρ → Bool)
    (save : StoreAct Unit) : StoreAct Unit := do
  match ← retrieve with
  | some record => if upToDate record then pure () else save
  | none => save

/-- The unexported `updateHighestAttestation`. One recent epoch is enough to keep the record. -/
def bumpHighestAttestation (cfg : BeaconConfig) (env : Env) (pk : PubKey) (slot : ℕ) :
    StoreAct Unit :=
  let minimalSP := computeMinimalAttestationSP (cfg.estimatedEpochAtSlot slot)
  bumpRecord
    ((retrieveHighestAttestation env pk).mapError (.wrap "could not retrieve highest attestation"))
    (fun record ↦ decide (minimalSP.source.epoch ≤ record.source.epoch ∨
      minimalSP.target.epoch ≤ record.target.epoch))
    ((saveHighestAttestation env pk minimalSP).mapError
      (.wrap "could not save highest attestation"))

def bumpHighestProposal (env : Env) (pk : PubKey) (slot : ℕ) : StoreAct Unit :=
  let minimalSPSlot := computeMinimalProposerSP slot
  bumpRecord
    ((retrieveHighestProposal env pk).mapError (.wrap "could not retrieve highest proposal"))
    (fun record ↦ decide (record ≠ 0 ∧ minimalSPSlot ≤ record))
    ((saveHighestProposal env pk minimalSPSlot).mapError (.wrap "could not save highest proposal"))

def bumpSlashingProtection (cfg : BeaconConfig) (env : Env) (pk : PubKey) : StoreAct Unit := do
  let currentSlot := cfg.estimatedSlotAtTime env.now
  bumpHighestAttestation cfg env pk currentSlot
  bumpHighestProposal env pk currentSlot

end SlashingProtector

end Ssv.Ekm
