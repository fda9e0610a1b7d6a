import SsvNode.Spec.Duties
import SsvNode.Ekm.KeyManagers
import SsvNode.Eth.Types

/-!
# The records of the registry

The types of `registry/storage`, and the libraries that the handlers of the contract's events call.
Identifiers, block numbers and indices are `ℕ`. Of an `SSVShare` the fields that no handler reads
are left out, and so is `minParticipationEpoch`, which is never stored. Shares are pointers in the
source, and a share here says which object it is the content of.
-/

namespace Ssv.Registry

/-- `common.Address`, and `bellatrix.ExecutionAddress`. -/
abbrev Address : Type := BitVec 160

abbrev PubKey : Type := Bytes

def littleEndian (size n : ℕ) : Bytes := (List.range size).map fun i ↦ UInt8.ofNat (n / 256 ^ i)

/-- An error. `malformed` says that `errors.As` finds a `MalformedEventError` in it. -/
structure Err where
  text : String
  malformed : Bool := false
  deriving DecidableEq

def Err.wrap (context : String) (e : Err) : Err := { e with text := context ++ ": " ++ e.text }

/-- `hex.EncodeToString`. -/
def hexEncode (b : Bytes) : String :=
  String.ofList (b.flatMap fun x ↦ [Nat.digitChar (x.toNat / 16), Nat.digitChar (x.toNat % 16)])

/-- A failed access to the storage, and the nonce a `ValidatorAdded` was checked against. -/
inductive Observation where
  | fault
  | nonceChecked (owner : Address) (nonce : UInt16)
  deriving DecidableEq

/-- What is called of `go-ethereum`, `crypto/sha256` and the BLS library. -/
class RegistrySpec where
  keccak256 : Bytes → Bytes
  sha256 : Bytes → Bytes
  addressString : Address → String
  Sign : Type
  PublicKey : Type
  ID : Type
  deserializeSign : Bytes → Except Err Sign
  deserializePublicKey : Bytes → Except Err PublicKey
  serialize : PublicKey → Bytes
  verifyByte : Sign → PublicKey → Bytes → Bool
  /-- `ID.SetDecString` of an operator's identifier. -/
  setDecString : OperatorID → Except Err ID
  recover : List PublicKey → List ID → Except Err PublicKey
  isEqual : PublicKey → PublicKey → Bool
  /-- The encoding of a key in 48 bytes is unique. -/
  serialize_of_deserialize {b : Bytes} {k : PublicKey} :
    b.length = 48 → deserializePublicKey b = .ok k → serialize k = b

variable [RegistrySpec]

open RegistrySpec List

/-! ### Records -/

structure OperatorData where
  id : OperatorID
  publicKey : Bytes
  ownerAddress : Address
  deriving DecidableEq

inductive ValidatorState where
  | unknown
  | pendingInitialized
  | pendingQueued
  | activeOngoing
  | activeExiting
  | activeSlashed
  | exitedUnslashed
  | exitedSlashed
  | withdrawalPossible
  | withdrawalDone
  deriving DecidableEq

structure SSVShare where
  validatorIndex : ℕ := 0
  validatorPubKey : PubKey
  /-- Empty unless the node's operator is in the committee. -/
  sharePubKey : PubKey := []
  committee : List ShareMember
  domainType : Bytes
  status : ValidatorState := .unknown
  ownerAddress : Address
  liquidated : Bool := false
  activationEpoch : ℕ := 0
  exitEpoch : ℕ := 0
  /-- The object in memory whose content this is. -/
  object : ℕ := 0
  deriving DecidableEq

namespace SSVShare

def operatorIDs (s : SSVShare) : List OperatorID := s.committee.map (·.signer)

def belongsToOperator (s : SSVShare) (operatorID : OperatorID) : Bool :=
  if operatorID = 0 then false else s.committee.any fun m ↦ decide (m.signer = operatorID)

def hasBeaconMetadata (s : SSVShare) : Bool := decide (s.status ≠ .unknown)

end SSVShare

/-- `slices.Sort`. -/
def sortIDs (ids : List OperatorID) : List OperatorID := ids.insertionSort (· ≤ ·)

/-- `ComputeCommitteeID`: every identifier is cut to 32 bits. -/
def computeCommitteeID (committee : List OperatorID) : Bytes :=
  sha256 ((sortIDs committee).flatMap (littleEndian 4))

omit [RegistrySpec] in
theorem sortIDs_perm {ids ids' : List OperatorID} (h : ids'.Perm ids) :
    sortIDs ids' = sortIDs ids := by
  refine List.Perm.eq_of_pairwise (fun _ _ _ _ ↦ le_antisymm) (pairwise_insertionSort _ _)
    (pairwise_insertionSort _ _) ?_
  exact (perm_insertionSort _ _).trans (h.trans (perm_insertionSort _ _).symm)

theorem computeCommitteeID_perm {ids ids' : List OperatorID} (h : ids'.Perm ids) :
    computeCommitteeID ids' = computeCommitteeID ids := by
  rw [computeCommitteeID, sortIDs_perm h, computeCommitteeID]

def SSVShare.committeeID (s : SSVShare) : Bytes := computeCommitteeID s.operatorIDs

end Ssv.Registry
