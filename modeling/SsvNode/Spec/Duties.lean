import SsvNode.Spec.Messages

/-!
# The duties and the committees of validators

The records of `spectypes` that say what a validator has to do in a slot, as far as the committee
runners read them, and who holds the shares of its key.
-/

namespace Ssv

/-- `spectypes.BeaconRole`, of the committee runners. -/
inductive BeaconRole where
  | attester
  | aggregator
  | syncCommittee
  | syncCommitteeContribution
  | other (code : ℕ)
  deriving DecidableEq

/-- The `phase0.DomainType`s the committee runners sign in. -/
inductive DomainType where
  | attester
  | syncCommittee
  | aggregateAndProof
  | contributionAndProof
  deriving DecidableEq

structure ValidatorDuty where
  type : BeaconRole
  pubKey : Bytes
  slot : ℕ
  validatorIndex : ℕ
  committeeIndex : ℕ
  deriving DecidableEq

structure ShareMember where
  sharePubKey : Bytes
  signer : OperatorID
  deriving DecidableEq

end Ssv
