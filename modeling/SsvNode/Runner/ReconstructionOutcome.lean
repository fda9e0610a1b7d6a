import Mathlib.Data.UInt
import SsvNode.Runner.PartialSigContainer

/-!
# What a reconstruction ends with

`reconstructQuorumSig` combines all shares; if that gives no signature of the validator it drops the
bad ones and tries again if enough are left. After the first round every share verifies, so that the
loop runs **at most twice** (`reconstructQuorumSig_eq`). Shares that do not verify can still combine
to a signature that does.
-/

namespace Ssv

variable [ThresholdSpec]

open ThresholdSpec PartialSigContainer

variable {order : MapOrder ((_ : OperatorID) × Bytes)} {c : PartialSigContainer} {root : Root}
  {share : Share} {phase : String}

/-- The stored shares of the validator for the root that verify. -/
def verifiedShares (c : PartialSigContainer) (root : Root) (share : Share) :
    List ((_ : OperatorID) × Bytes) :=
  (c.getSignatures share.validatorIndex root).entries.filter fun e ↦
    verifies share.committee root e.1 e.2

def dropInvalid (c : PartialSigContainer) (root : Root) (share : Share) : PartialSigContainer :=
  fallBackAndVerifyEachSignature c root share.committee share.validatorIndex

variable {op : OperatorID} {v : ℕ} {sig : Bytes}

theorem getSignature_dropInvalid :
    (dropInvalid c root share).getSignature share.validatorIndex op root =
      (c.getSignature share.validatorIndex op root).filter (verifies share.committee root op) := by
  rw [dropInvalid, getSignature, getSignatures_fallBack, GoMap.lookup_purge]
  rfl

theorem getSignature_dropInvalid_other {root' : Root}
    (h : ¬ (v = share.validatorIndex ∧ root' = root)) :
    (dropInvalid c root share).getSignature v op root' = c.getSignature v op root' := by
  rw [dropInvalid, fallBack_eq, getSignature, getSignatures_set, if_neg h]
  rfl

theorem verifies_of_getSignature_dropInvalid
    (h : (dropInvalid c root share).getSignature share.validatorIndex op root = some sig) :
    verifies share.committee root op sig := by
  rw [getSignature_dropInvalid, Option.filter_eq_some_iff] at h
  exact h.2

theorem len_dropInvalid :
    ((dropInvalid c root share).getSignatures share.validatorIndex root).len =
      (verifiedShares c root share).length := by
  rw [dropInvalid, getSignatures_fallBack, GoMap.len_purge]
  rfl

theorem quorum_dropInvalid : (dropInvalid c root share).quorum = c.quorum := by
  rw [dropInvalid, fallBack_eq]
  rfl

theorem hasQuorum_dropInvalid :
    (dropInvalid c root share).hasQuorum share.validatorIndex root =
      decide (c.quorum ≤ (verifiedShares c root share).length) := by
  rw [hasQuorum, len_dropInvalid, quorum_dropInvalid]

theorem dropInvalid_eq_self
    (h : ∀ op sig, c.getSignature share.validatorIndex op root = some sig →
      verifies share.committee root op sig) : dropInvalid c root share = c := by
  rw [dropInvalid, fallBack_eq, GoMap.purge_eq_self h, set_getSignatures]

theorem dropInvalid_dropInvalid :
    dropInvalid (dropInvalid c root share) root share = dropInvalid c root share :=
  dropInvalid_eq_self fun _ _ ↦ verifies_of_getSignature_dropInvalid

/-- One try to combine all stored shares. -/
def combine (order : MapOrder ((_ : OperatorID) × Bytes)) (c : PartialSigContainer) (root : Root)
    (share : Share) : Except Err Bytes :=
  reconstructBeaconSig order c root share.validatorPubKey share.validatorIndex

def quorumError (phase : String) (e : Err) : Err :=
  e.wrap ("got " ++ phase ++ " quorum but it has invalid signatures")

theorem reconstructQuorumSig_of_kept {e : Err} (hfailed : combine order c root share = .error e)
    (hkept : dropInvalid c root share = c) (hquorum : c.hasQuorum share.validatorIndex root) :
    reconstructQuorumSig order c root share phase = (c, .error ⟨quorumError phase e, false⟩) := by
  unfold combine at hfailed
  unfold dropInvalid at hkept
  rw [reconstructQuorumSig, hfailed]
  simp only [hkept, hquorum, Bool.not_true, Bool.false_eq_true, if_false, dite_true]
  rfl

/-- **The loop, written out**: it ends in the first round or in the second. -/
theorem reconstructQuorumSig_eq :
    reconstructQuorumSig order c root share phase =
      match combine order c root share with
      | .ok sig => (c, .ok (copy96 sig))
      | .error e =>
        if (verifiedShares c root share).length < c.quorum then
          (dropInvalid c root share, .error ⟨quorumError phase e, true⟩)
        else
          match combine order (dropInvalid c root share) root share with
          | .ok sig => (dropInvalid c root share, .ok (copy96 sig))
          | .error e' => (dropInvalid c root share, .error ⟨quorumError phase e', false⟩) := by
  rcases hfirst : combine order c root share with e | sig
  · have hquorum : (dropInvalid c root share).hasQuorum share.validatorIndex root =
        decide (c.quorum ≤ (verifiedShares c root share).length) := hasQuorum_dropInvalid
    by_cases hfew : (verifiedShares c root share).length < c.quorum
    · rw [decide_eq_false (by omega)] at hquorum
      unfold combine at hfirst
      unfold dropInvalid at hquorum
      rw [reconstructQuorumSig, hfirst]
      simp only [hquorum, Bool.not_false, if_true, if_pos hfew]
      rfl
    · rw [decide_eq_true (by omega)] at hquorum
      simp only [if_neg hfew]
      by_cases hlen : ((dropInvalid c root share).getSignatures share.validatorIndex root).len =
          (c.getSignatures share.validatorIndex root).len
      · -- nothing was dropped: the second round would be the first one again
        have hkept : dropInvalid c root share = c := dropInvalid_eq_self fun op sig hsig ↦
          GoMap.ok_of_len_purge_eq (getSignatures_fallBack ▸ hlen) hsig
        rw [hkept] at hquorum ⊢
        rw [reconstructQuorumSig_of_kept hfirst hkept hquorum, hfirst]
      · have hloop : reconstructQuorumSig order c root share phase =
            reconstructQuorumSig order (dropInvalid c root share) root share phase := by
          conv_lhs => rw [reconstructQuorumSig]
          unfold combine at hfirst
          unfold dropInvalid at hquorum hlen ⊢
          simp only [hfirst, hquorum, Bool.not_true, Bool.false_eq_true, if_false, dif_neg hlen]
        rw [hloop]
        rcases hsecond : combine order (dropInvalid c root share) root share with e' | sig
        · exact reconstructQuorumSig_of_kept hsecond dropInvalid_dropInvalid hquorum
        · unfold combine at hsecond
          rw [reconstructQuorumSig, hsecond]
  · unfold combine at hfirst
    rw [reconstructQuorumSig, hfirst]

theorem validatorSignature_of_reconstructQuorumSig {c' : PartialSigContainer}
    (h : reconstructQuorumSig order c root share phase = (c', .ok sig)) :
    ValidatorSignature share root sig := by
  rw [reconstructQuorumSig_eq] at h
  rcases hfirst : combine order c root share with e | sig'
  · rw [hfirst] at h
    dsimp only at h
    split at h
    · cases h
    · rcases hsecond : combine order (dropInvalid c root share) root share with e' | sig'
      · rw [hsecond] at h
        cases h
      · rw [hsecond] at h
        cases h
        exact validatorSignature_of_reconstruct hsecond
  · rw [hfirst] at h
    cases h
    exact validatorSignature_of_reconstruct hfirst

theorem reconstructQuorumSig_container (order : MapOrder ((_ : OperatorID) × Bytes))
    (c : PartialSigContainer) (root : Root) (share : Share) (phase : String) :
    (reconstructQuorumSig order c root share phase).1 = c ∨
      (reconstructQuorumSig order c root share phase).1 = dropInvalid c root share := by
  rw [reconstructQuorumSig_eq]
  rcases combine order c root share with e | sig
  · refine .inr ?_
    dsimp only
    split
    · rfl
    · rcases combine order (dropInvalid c root share) root share with e' | sig <;> rfl
  · exact .inl rfl

/-- **A quorum is reconstructed or broken up**: what does not verify is dropped until it can be or
there is none. -/
theorem reconstructQuorumSig_spec (order : MapOrder ((_ : OperatorID) × Bytes)) (phase : String)
    {shares : ShareMap} (hshare : shares.get v = some share) (c : PartialSigContainer) :
    Purged shares c (reconstructQuorumSig order c root share phase).1 ∧
      match (reconstructQuorumSig order c root share phase).2 with
      | .ok sig => ValidatorSignature share root sig
      | .error _ => Combines c.quorum share root →
          (reconstructQuorumSig order c root share phase).1.hasQuorum v root = false := by
  obtain rfl := ShareMap.validatorIndex_of_get hshare
  constructor
  · rcases reconstructQuorumSig_container order c root share phase with h | h <;> rw [h]
    · exact .refl
    · exact purged_fallBack hshare
  rcases hrec : reconstructQuorumSig order c root share phase with ⟨c', err | sig⟩
  · intro hcombine
    rw [reconstructQuorumSig_eq] at hrec
    rcases hfirst : combine order c root share with e | sig
    · rw [hfirst] at hrec
      dsimp only at hrec
      split at hrec
      · next hfew =>
        cases hrec
        rw [hasQuorum_dropInvalid]
        exact decide_eq_false (by omega)
      · -- all that is left verifies and is a quorum, so that it combines
        next hmany =>
        obtain ⟨sig, hsig⟩ := reconstruct_of_verified order (quorum_dropInvalid.symm ▸ hcombine)
          (hasQuorum_dropInvalid.trans (decide_eq_true (by omega)))
          fun _ _ ↦ verifies_of_getSignature_dropInvalid
        rw [show combine order (dropInvalid c root share) root share = .ok sig from hsig] at hrec
        cases hrec
    · rw [hfirst] at hrec
      cases hrec
  · exact validatorSignature_of_reconstructQuorumSig hrec

/-- **Verifying shares are never removed**, nor are those of other validators and roots. -/
theorem reconstructQuorumSig_keeps {root' : Root} (hsig : c.getSignature v op root' = some sig)
    (hvalid : v = share.validatorIndex ∧ root' = root → verifies share.committee root op sig) :
    (reconstructQuorumSig order c root share phase).1.getSignature v op root' = some sig := by
  rcases reconstructQuorumSig_container order c root share phase with h | h <;> rw [h]
  · exact hsig
  · by_cases hpair : v = share.validatorIndex ∧ root' = root
    · obtain ⟨rfl, rfl⟩ := hpair
      rw [getSignature_dropInvalid, hsig, Option.filter_some, if_pos (hvalid ⟨rfl, rfl⟩)]
    · rw [getSignature_dropInvalid_other hpair, hsig]

/-- **How a reconstruction ends**: with a signature of the validator; recoverably, exactly if the
shares do not combine and fewer than a quorum verify; or terminally, if a quorum that verifies does
not combine. -/
theorem reconstructQuorumSig_outcome (order : MapOrder ((_ : OperatorID) × Bytes))
    (c : PartialSigContainer) (root : Root) (share : Share) (phase : String) :
    (∀ v root' op sig, c.getSignature v op root' = some sig →
        (v = share.validatorIndex ∧ root' = root → verifies share.committee root op sig) →
        (reconstructQuorumSig order c root share phase).1.getSignature v op root' = some sig) ∧
      (∀ sig, (reconstructQuorumSig order c root share phase).2 = .ok sig →
        ValidatorSignature share root sig) ∧
      ((∃ e, (reconstructQuorumSig order c root share phase).2 = .error ⟨e, true⟩) ↔
        (∃ e, combine order c root share = .error e) ∧
          (verifiedShares c root share).length < c.quorum) ∧
      ∀ e, (reconstructQuorumSig order c root share phase).2 = .error ⟨e, false⟩ →
        (∀ op sig, (reconstructQuorumSig order c root share phase).1.getSignature
            share.validatorIndex op root = some sig → verifies share.committee root op sig) ∧
          c.quorum ≤ ((reconstructQuorumSig order c root share phase).1.getSignatures
            share.validatorIndex root).len ∧
          ∃ e', combine order (reconstructQuorumSig order c root share phase).1 root share =
            .error e' := by
  refine ⟨fun v root' op sig hsig hvalid ↦ reconstructQuorumSig_keeps hsig hvalid,
    fun sig hok ↦ validatorSignature_of_reconstructQuorumSig (Prod.ext rfl hok), ?_⟩
  rw [reconstructQuorumSig_eq]
  rcases hfirst : combine order c root share with e | sig
  · by_cases hfew : (verifiedShares c root share).length < c.quorum
    · simp only [if_pos hfew]
      exact ⟨⟨fun _ ↦ ⟨⟨e, rfl⟩, hfew⟩, fun _ ↦ ⟨_, rfl⟩⟩, fun _ h ↦ by cases h⟩
    · simp only [if_neg hfew]
      rcases hsecond : combine order (dropInvalid c root share) root share with e' | sig
      · refine ⟨⟨by simp, fun h ↦ absurd h.2 hfew⟩,
          fun _ _ ↦ ⟨fun op sig ↦ ?_, ?_, e', hsecond⟩⟩
        · exact verifies_of_getSignature_dropInvalid
        · rw [len_dropInvalid]
          omega
      · exact ⟨⟨by simp, fun h ↦ absurd h.2 hfew⟩, by simp⟩
  · exact ⟨⟨by simp, by simp⟩, by simp⟩

end Ssv

/-! ### Errors that cancel -/

namespace Ssv.LinearShares

/-- Three signatures are combined as the values at `1`, `2` and `3` of a polynomial of degree two
are to its value at `0`. -/
local instance : ThresholdSpec where
  PublicKey := UInt8
  Sign := UInt8
  ID := OperatorID
  deserializeBLSPublicKey b := .ok (b.headD 0)
  deserialize b := if b.length = 96 then .ok (b.headD 0) else .error { text := "length" }
  serialize s := s :: List.replicate 95 0
  verifyByte sig pk _ := decide (sig = pk)
  setDecString id := .ok id
  recover sigs ids := .ok ((sigs.zip ids).map fun (s, id) ↦
    if id = 1 then 3 * s else if id = 2 then 253 * s else s).sum
  length_of_deserialize {b _} h := by
    by_contra hlength
    simp [hlength] at h

/-- The values of `7 + x + x ^ 2`. -/
def share : Share where
  validatorIndex := 0
  validatorPubKey := [7]
  committee := [⟨[9], 1⟩, ⟨[13], 2⟩, ⟨[19], 3⟩]

/-- The first two operators both sent a share that is one too large. -/
def container : PartialSigContainer :=
  [(1, 10), (2, 14), (3, 19)].foldl (fun c (op, s) ↦ c.addSignature
    { partialSignature := s :: List.replicate 95 0, signingRoot := 0, signer := op
      validatorIndex := 0 }) (PartialSigContainer.new 3)

/-- **Two wrong shares can make a right signature**: one of the three verifies, and there is no
error. -/
theorem reconstructs_from_invalid_shares :
    (verifiedShares container 0 share).length < container.quorum ∧
      ¬ ∃ e, (reconstructQuorumSig .stored container 0 share "post-consensus").2 =
        .error ⟨e, true⟩ := by
  have hcombine : combine .stored container 0 share = .ok (7 :: List.replicate 95 0) := by
    rfl
  refine ⟨by decide +kernel, ?_⟩
  rw [reconstructQuorumSig_eq, hcombine]
  nofun

end Ssv.LinearShares
