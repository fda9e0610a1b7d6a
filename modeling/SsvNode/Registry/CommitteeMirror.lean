import SsvNode.Registry.ReferenceSpec
import SsvNode.Registry.StorageSteps

/-!
# Committees and operators mirror the shares

After operations that succeed and keep the committees there is **one committee for each committee ID
of a stored share**, with these shares, and one entry for each operator (`mirrors_of_reachable`).
The identifier hashes the lower 32 bits of the operators, so two committees may have the same one
(`sharedID_not_mirrored`).
-/

namespace Ssv.Registry

variable [RegistrySpec]

/-- The indices have exactly what is in the stored shares. -/
structure Mirrors (st : SharesStorage) : Prop where
  committee_iff : ∀ id, (∃ c, st.validatorStore.byCommitteeID id = some c) ↔
    ∃ s, Listed st.shares s ∧ s.committeeID = id
  committee : ∀ id c, st.validatorStore.byCommitteeID id = some c →
    c.id = id ∧ (c.shares.map (·.validatorPubKey)).Nodup ∧
      (∀ s, s ∈ c.shares ↔ Listed st.shares s ∧ s.committeeID = id) ∧
      c.operators.Pairwise (· ≤ ·) ∧ (∀ s ∈ c.shares, c.operators.Perm s.operatorIDs) ∧
      c.indices = c.shares.map (·.validatorIndex)
  operator_iff : ∀ op, (∃ data, st.validatorStore.byOperatorID op = some data) ↔
    ∃ s, Listed st.shares s ∧ op ∈ s.operatorIDs
  operator : ∀ op data, st.validatorStore.byOperatorID op = some data →
    (data.shares.map (·.validatorPubKey)).Nodup ∧
      (∀ s, s ∈ data.shares ↔ Listed st.shares s ∧ op ∈ s.operatorIDs) ∧
      (data.committees.map (·.id)).Nodup ∧
      ∀ c, c ∈ data.committees ↔ ∃ s, Listed st.shares s ∧ op ∈ s.operatorIDs ∧
        st.validatorStore.byCommitteeID s.committeeID = some c

/-- A share of a stored validator has its operators, and so have shares with one committee ID. -/
def StorageOp.KeepsCommittees (st : SharesStorage) : StorageOp → Prop
  | save shares => OneCommittee st.shares shares
  | updateValidatorsMetadata _ | delete _ | drop => True

namespace Indexed

variable {owner : ℕ → PubKey} {st : SharesStorage} {op : StorageOp}

theorem oneCommittee (h : Indexed owner st) (hkeeps : op.KeepsCommittees st) :
    OneCommittee st.shares (op.written st) := by
  cases op with
  | save => exact hkeeps
  | updateValidatorsMetadata => exact (SharesStorage.ready_changedShares h.linked h.owned).one
  | delete | drop => exact nofun

theorem of_reachable
    (h : ((storageMachine owner).restrict StorageOp.KeepsCommittees).Reachable st) :
    Indexed owner st := by
  refine Machine.Reachable.invariant ?_ ?_ h
  · rintro _ rfl
    exact empty
  · rintro st op - hst ⟨⟨hpossible, hsucceeds⟩, hkeeps⟩
    exact hst.step hpossible (hst.oneCommittee hkeeps) hsucceeds

end Indexed

theorem Linked.mirrors {st : SharesStorage} (h : Linked st.shares st.validatorStore)
    (hbuilt : ∀ id, st.validatorStore.Built id) : Mirrors st := by
  have hshares : ∀ id c, st.validatorStore.byCommitteeID id = some c →
      st.validatorStore.sharesOf id = c.shares := by
    intro id c hc
    rw [ValidatorStore.sharesOf, hc]
    rfl
  have hdata : ∀ op data, st.validatorStore.byOperatorID op = some data →
      st.validatorStore.operatorValidators op = data.shares ∧
        st.validatorStore.operatorCommittees op = data.committees := by
    intro op data hd
    rw [ValidatorStore.operatorValidators, ValidatorStore.operatorCommittees, hd]
    exact ⟨rfl, rfl⟩
  refine ⟨fun id ↦ ?_, fun id c hc ↦ ?_, fun op ↦ ?_, fun op data hd ↦ ?_⟩
  · constructor
    · rintro ⟨c, hc⟩
      obtain ⟨s, hs⟩ := List.exists_mem_of_ne_nil _ (h.committee_some id c hc).2
      exact ⟨s, ((h.committees id).mem s).1 (hshares id c hc ▸ hs)⟩
    · rintro ⟨s, hs, rfl⟩
      exact h.exists_committee hs
  · have hroster := h.committees id
    rw [hshares id c hc] at hroster
    have hbuilt := hbuilt id c hc
    -- the first share says who is in the committee, and the others agree
    obtain ⟨first, rest, hfirst⟩ := List.exists_cons_of_ne_nil (h.committee_some id c hc).2
    have hoperators : c.operators = sortIDs first.operatorIDs := by
      rw [hbuilt, hfirst]
      rfl
    refine ⟨(h.committee_some id c hc).1, hroster.nodup, hroster.mem, ?_, fun s hs ↦ ?_, ?_⟩
    · rw [hoperators]
      exact List.pairwise_insertionSort _ _
    · obtain ⟨hs, hid⟩ := (hroster.mem s).1 hs
      obtain ⟨hf, hfid⟩ := (hroster.mem first).1 (hfirst ▸ (.head _))
      rw [hoperators]
      exact (List.perm_insertionSort _ _).trans (h.oneCommittee first s hf hs (hfid.trans hid.symm))
    · rw [hbuilt]
      rfl
  · constructor
    · rintro ⟨data, hd⟩
      obtain ⟨s, hs⟩ := List.exists_mem_of_ne_nil _ (h.operator_some op data hd)
      exact ⟨s, ((h.operators op).mem s).1 ((hdata op data hd).1 ▸ hs)⟩
    · rintro ⟨s, hs⟩
      have hmem := ((h.operators op).mem s).2 hs
      refine Option.ne_none_iff_exists'.1 fun hnone ↦ ?_
      rw [ValidatorStore.operatorValidators, hnone] at hmem
      cases hmem
  · have hroster := h.operators op
    have hcurrent := h.current op
    rw [(hdata op data hd).1] at hroster
    rw [(hdata op data hd).2] at hcurrent
    exact ⟨hroster.nodup, hroster.mem, hcurrent.nodup, hcurrent.mem⟩

/-- **After operations that succeed and keep the committees, the indices mirror the shares.** -/
theorem mirrors_of_reachable {owner : ℕ → PubKey} {st : SharesStorage}
    (h : ((storageMachine owner).restrict StorageOp.KeepsCommittees).Reachable st) : Mirrors st :=
  (Indexed.of_reachable h).linked.mirrors (Indexed.of_reachable h).built

end Ssv.Registry

namespace Ssv.Registry.Reference

def shareOf (key : UInt8) (operators : List OperatorID) (object : ℕ) : SSVShare where
  validatorPubKey := List.replicate 48 key
  committee := operators.map fun op ↦ { sharePubKey := [], signer := op }
  domainType := [0, 0, 0, 1]
  ownerAddress := 0
  object := object

/-- The object with a number is of the validator whose key is the number. -/
def ownerOf (object : ℕ) : PubKey := List.replicate 48 (UInt8.ofNat object)

/-- Two shares of one committee are saved, one gets its metadata, the other is deleted. -/
def mirrorRun : List StorageOp :=
  [.save [shareOf 1 [3, 1, 2, 4] 1, shareOf 2 [1, 2, 3, 4] 2],
    .updateValidatorsMetadata [(ownerOf 1, some { status := .activeOngoing, index := 5 })],
    .delete (ownerOf 2)]

def mirrorStore : SharesStorage := mirrorRun.foldl (storageMachine ownerOf).next .empty

theorem mirrorStore_reachable :
    ((storageMachine ownerOf).restrict StorageOp.KeepsCommittees).Reachable mirrorStore := by
  have hone : OneCommittee (fun _ ↦ none) [shareOf 1 [3, 1, 2, 4] 1, shareOf 2 [1, 2, 3, 4] 2] := by
    rintro s hs t (ht | ht) -
    · cases ht
    · have hperm : ∀ s ∈ [shareOf 1 [3, 1, 2, 4] 1, shareOf 2 [1, 2, 3, 4] 2],
          ∀ t ∈ [shareOf 1 [3, 1, 2, 4] 1, shareOf 2 [1, 2, 3, 4] 2],
            t.operatorIDs.Perm s.operatorIDs := by decide
      exact hperm s hs t ht
  refine (Machine.Reachable.initial rfl).foldl ⟨⟨?_, hone⟩, ⟨?_, trivial⟩, ⟨?_, trivial⟩, trivial⟩
  · decide +kernel
  · decide +kernel
  · decide +kernel

theorem mirrors_afterUpdate : Mirrors mirrorStore := mirrors_of_reachable mirrorStore_reachable

/-- Two shares are saved whose committees differ in the upper bits of an operator. -/
def sharedIDStore : SharesStorage :=
  [StorageOp.save [shareOf 1 [1, 2, 3, 4] 1], .save [shareOf 2 [1, 2, 3, 2 ^ 32 + 4] 2]].foldl
    (storageMachine ownerOf).next .empty

/-- The operator of the first committee alone is left with it as it was before the second share. -/
theorem sharedID_not_mirrored :
    (storageMachine ownerOf).Reachable sharedIDStore ∧
    sharedIDStore.validatorStore.operatorCommittees 4 =
      [ValidatorStore.buildCommittee [shareOf 1 [1, 2, 3, 4] 1]] ∧
    sharedIDStore.validatorStore.byCommitteeID (shareOf 1 [1, 2, 3, 4] 1).committeeID =
      some (ValidatorStore.buildCommittee
        [shareOf 1 [1, 2, 3, 4] 1, shareOf 2 [1, 2, 3, 2 ^ 32 + 4] 2]) ∧
    ¬ Mirrors sharedIDStore := by
  have hcommittees : sharedIDStore.validatorStore.byOperatorID 4 = some {
      shares := [shareOf 1 [1, 2, 3, 4] 1]
      committees := [ValidatorStore.buildCommittee [shareOf 1 [1, 2, 3, 4] 1]] } := by
    decide +kernel
  refine ⟨?_, by decide +kernel, by decide +kernel, fun h ↦ ?_⟩
  · refine (Machine.Reachable.initial rfl).foldl ⟨?_, ?_, trivial⟩
    · decide +kernel
    · decide +kernel
  · obtain ⟨-, -, -, hcurrent⟩ := h.operator 4 _ hcommittees
    obtain ⟨s, -, -, hc⟩ := (hcurrent _).1 (List.mem_singleton.2 rfl)
    obtain ⟨hid, -, hmem, -⟩ := h.committee _ _ hc
    have hsecond := (hmem (shareOf 2 [1, 2, 3, 2 ^ 32 + 4] 2)).2
      ⟨by decide +kernel, hid ▸ by decide⟩
    exact absurd hsecond (by decide)

end Ssv.Registry.Reference
