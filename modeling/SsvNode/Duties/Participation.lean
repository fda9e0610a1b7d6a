import SsvNode.Duties.Committee
import SsvNode.Duties.Proposer
import SsvNode.Lib.Latch
import SsvNode.Lib.Machine
import SsvNode.Registry.ReferenceSpec
import SsvNode.Validation.ReferenceSpec

/-!
# The participation delay

A registered or reactivated validator has a **minimum participation epoch**, so that another
instance of the operator cannot sign something conflicting. The committee handler looks at it before
it hands over an attestation; the proposer handler does not (`respects_iff_undelayed`).
-/

namespace Ssv.Duties.Participation

open List AList

open Registry (RegistrySpec PubKey SSVShare)

inductive Event where
  /-- `SetMinParticipationEpoch` of an own share. -/
  | assigned (pubKey : PubKey) (epoch : ℕ)
  | removed (pubKey : PubKey)
  /-- A duty is handed to the executor, with the slot of the clock. -/
  | handedOff (duty : ValidatorDuty) (currentSlot : ℕ)

/-- The shares of the node and the duties it has fetched. -/
structure Node where
  operatorID : OperatorID
  exporterMode : Bool
  shares : GoMap PubKey Share := ∅
  attDuties : Store AttesterDuty := {}
  syncDuties : ℕ → List SyncCommitteeDuty := fun _ ↦ []
  proposerDuties : Store ProposerDuty := {}

def contractParticipationDelay : ℕ := 1

/-- Store a share, an own one with its minimum participation epoch. -/
def Node.storeShare (n : Node) (pubKey : PubKey) (share : Share) (currentEpoch : ℕ) :
    Node × List Event :=
  let epoch := currentEpoch + contractParticipationDelay
  if share.belongsToOperator n.operatorID then
    ({ n with shares := n.shares.insert pubKey { share with minParticipationEpoch := epoch } },
      [.assigned pubKey epoch])
  else ({ n with shares := n.shares.insert pubKey share }, [])

section

variable [RegistrySpec]

inductive Action where
  /-- The end of `handleShareCreation`, for a share the key manager took. -/
  | createShare (share : Share) (currentEpoch : ℕ)
  /-- `handleClusterReactivated`, for one of the shares. -/
  | reactivate (pubKey : PubKey) (currentEpoch : ℕ)
  /-- A liquidation or a metadata update: other fields are assigned to. -/
  | modifyShare (pubKey : PubKey) (f : SSVShare → SSVShare)
  | removeShare (pubKey : PubKey)
  /-- The attester and sync committee handlers store duties. -/
  | fetchAttestations (duties : Store AttesterDuty) (syncDuties : ℕ → List SyncCommitteeDuty)
  | fetchProposals (view : Proposer.View) (targetEpoch : ℕ)
  | eraseProposals (epoch : ℕ)
  | executeCommittee (isAggregator : Bool) (selfParticipating : ℕ → List Share)
      (order : MapOrder ((_ : ℕ) × StoreDuty AttesterDuty)) (currentSlot slot : ℕ)
  | executeProposals (order : MapOrder ((_ : ℕ) × StoreDuty ProposerDuty)) (currentSlot slot : ℕ)

variable (net : Network)

def Node.perform (n : Node) : Action → Node × List Event
  | .createShare share currentEpoch => n.storeShare share.validatorPubKey share currentEpoch
  | .reactivate pubKey currentEpoch =>
    match n.shares.lookup pubKey with
    | none => (n, [])
    | some share => n.storeShare pubKey { share with liquidated := false } currentEpoch
  | .modifyShare pubKey f =>
    match n.shares.lookup pubKey with
    | none => (n, [])
    | some share =>
      ({ n with shares := n.shares.insert pubKey { share with toSSVShare := f share.toSSVShare } },
        [])
  | .removeShare pubKey => ({ n with shares := n.shares.erase pubKey }, [.removed pubKey])
  | .fetchAttestations duties syncDuties =>
    ({ n with attDuties := duties, syncDuties := syncDuties }, [])
  | .fetchProposals view targetEpoch => ({ n with
      proposerDuties := (Proposer.fetchAndProcessDuties view targetEpoch n.proposerDuties).1 }, [])
  | .eraseProposals epoch =>
    ({ n with proposerDuties := n.proposerDuties.eraseEpochData epoch }, [])
  | .executeCommittee isAggregator selfParticipating order currentSlot slot =>
    let epoch := net.estimatedEpochAtSlot slot
    let duties := Committee.buildCommitteeDuties net isAggregator
      ⟨currentSlot, n.shares.lookup, selfParticipating⟩
        (n.attDuties.committeeSlotDuties order epoch slot)
      (n.syncDuties (net.estimatedSyncCommitteePeriodAtEpoch epoch)) epoch slot
    (n, (duties.entries.flatMap (·.2.validatorDuties)).map (.handedOff · currentSlot))
  | .executeProposals order currentSlot slot =>
    (n, (Proposer.processExecution n.exporterMode n.proposerDuties order currentSlot
      (net.estimatedEpochAtSlot slot) slot).map (.handedOff · currentSlot))

structure Run where
  node : Node
  events : List Event := []

/-- The runs without a restart. A share is created once, until it is removed. -/
def machine : Machine Run Action where
  initial r := ∃ operatorID exporterMode, r = { node := { operatorID, exporterMode } }
  enabled r
    | .createShare share _ =>
      r.node.shares.lookup share.validatorPubKey = none ∧ share.minParticipationEpoch = 0
    | _ => True
  next r a := ⟨(r.node.perform net a).1, r.events ++ (r.node.perform net a).2⟩

/-! ### The delay -/

/-- The epoch that an event assigns to a validator; a removed one has none. -/
def Event.assigns (pubKey : PubKey) : Event → Option ℕ
  | .assigned pubKey' epoch => if pubKey' = pubKey then some epoch else none
  | .removed pubKey' => if pubKey' = pubKey then some 0 else none
  | .handedOff _ _ => none

/-- The minimum participation epoch that was assigned last, or `0`. -/
def minEpoch (evs : List Event) (pubKey : PubKey) : ℕ := latch (Event.assigns pubKey) 0 evs

/-- An attestation or a proposal of a validator whose delay is not over. -/
def Early (past : List Event) (duty : ValidatorDuty) (currentSlot : ℕ) : Prop :=
  (duty.type = .attester ∨ duty.type = Proposer.proposerRole) ∧
    net.estimatedEpochAtSlot currentSlot < minEpoch past duty.pubKey

def Respects (r : Run) (a : Action) : Prop :=
  ∀ duty currentSlot, .handedOff duty currentSlot ∈ (r.node.perform net a).2 →
    ¬ Early net r.events duty currentSlot

/-- No proposal of an own validator is due before the epoch of its share. -/
def Undelayed (r : Run) : Action → Prop
  | .executeProposals order currentSlot slot => r.node.exporterMode = false →
    ∀ duty ∈ r.node.proposerDuties.committeeSlotDuties order (net.estimatedEpochAtSlot slot) slot,
      Proposer.shouldExecute currentSlot duty → ∀ share,
      r.node.shares.lookup duty.pubKey = some share →
        share.minParticipationEpoch ≤ net.estimatedEpochAtSlot currentSlot
  | _ => True

/-- The stored shares name the epochs that were assigned. -/
def Linked (r : Run) : Prop :=
  ∀ pubKey, minEpoch r.events pubKey =
    ((r.node.shares.lookup pubKey).map (·.minParticipationEpoch)).getD 0

variable {net : Network} {r : Run} {a : Action} {pubKey : PubKey}

omit [RegistrySpec] in
theorem minEpoch_append_silent {evs evs' : List Event}
    (h : ∀ ev ∈ evs', ev.assigns pubKey = none) :
    minEpoch (evs ++ evs') pubKey = minEpoch evs pubKey := by
  rw [minEpoch, latch_append, latch_eq_self h, minEpoch]

variable {share : Share}

omit [RegistrySpec] in
theorem Linked.storeShare (h : Linked r) {currentEpoch : ℕ}
    (hshare : share.minParticipationEpoch = minEpoch r.events pubKey) :
    Linked ⟨(r.node.storeShare pubKey share currentEpoch).1,
      r.events ++ (r.node.storeShare pubKey share currentEpoch).2⟩ := by
  intro pk
  unfold Node.storeShare
  split
  · obtain rfl | hpk := eq_or_ne pk pubKey
    · simp [minEpoch, Event.assigns]
    · rw [minEpoch_append_silent (by simpa [Event.assigns] using Ne.symm hpk), h pk]
      simp [lookup_insert_ne hpk]
  · obtain rfl | hpk := eq_or_ne pk pubKey
    · simp [hshare]
    · simp [lookup_insert_ne hpk, h pk]

omit [RegistrySpec] in
theorem Linked.of_lookup (h : Linked r)
    (hshare : r.node.shares.lookup pubKey = some share) :
    minEpoch r.events pubKey = share.minParticipationEpoch := by
  rw [h pubKey, hshare]
  rfl

theorem Linked.silent (h : Linked r) (hshares : (r.node.perform net a).1.shares = r.node.shares)
    (hevents : ∀ ev ∈ (r.node.perform net a).2, ∃ duty currentSlot,
      ev = .handedOff duty currentSlot) :
    Linked ((machine net).next r a) := by
  intro pubKey
  refine (minEpoch_append_silent fun ev hev ↦ ?_).trans ((h pubKey).trans ?_)
  · obtain ⟨duty, currentSlot, rfl⟩ := hevents ev hev
    rfl
  · rw [← hshares]
    rfl

theorem Linked.step (h : Linked r) (ha : (machine net).enabled r a) :
    Linked ((machine net).next r a) := by
  cases a with
  | createShare =>
    obtain ⟨habsent, hzero⟩ := ha
    refine h.storeShare (hzero.trans ?_)
    rw [h, habsent]
    rfl
  | reactivate =>
    unfold machine Node.perform
    dsimp only
    split
    · simpa using h
    · next share hshare => exact h.storeShare (h.of_lookup hshare).symm
  | modifyShare pubKey =>
    intro pk
    unfold machine Node.perform
    dsimp only
    split
    · simpa using h pk
    · next share hshare =>
      rw [append_nil, h pk]
      obtain rfl | hpk := eq_or_ne pk pubKey
      · simp [hshare]
      · rw [lookup_insert_ne hpk]
  | removeShare pubKey =>
    intro pk
    obtain rfl | hpk := eq_or_ne pk pubKey
    · simp [machine, Node.perform, minEpoch, Event.assigns]
    · refine (minEpoch_append_silent ?_).trans ((h pk).trans ?_)
      · simpa [Node.perform, Event.assigns] using Ne.symm hpk
      · simp [machine, Node.perform, lookup_erase_ne hpk]
  | fetchAttestations | fetchProposals | eraseProposals =>
    exact h.silent rfl fun ev hev ↦ by cases hev
  | executeCommittee isAggregator selfParticipating order currentSlot =>
    refine h.silent rfl fun ev hev ↦ ?_
    obtain ⟨duty, -, rfl⟩ := mem_map.1 hev
    exact ⟨duty, currentSlot, rfl⟩
  | executeProposals order currentSlot =>
    refine h.silent rfl fun ev hev ↦ ?_
    obtain ⟨duty, -, rfl⟩ := mem_map.1 hev
    exact ⟨duty, currentSlot, rfl⟩

/-- **In every run the stored shares name the epochs that were assigned.** -/
theorem linked_of_reachable (hr : (machine net).Reachable r) : Linked r :=
  hr.invariant (P := Linked) (by rintro _ ⟨operatorID, exporterMode, rfl⟩ _; rfl) fun _ _ _ h ha ↦
    h.step ha

/-! ### What is handed off -/

omit [RegistrySpec] in
theorem handedOff_notMem_storeShare {n : Node} {epoch : ℕ}
    {duty : ValidatorDuty} {slot : ℕ} :
    .handedOff duty slot ∉ (n.storeShare pubKey share epoch).2 := by
  unfold Node.storeShare
  split <;> simp

omit [RegistrySpec] in
/-- **An attestation is handed off only if the share lets it.** -/
theorem participates_of_mem_specDuties {isAggregator : Bool} {env : Committee.Execution}
    {attDuties : List AttesterDuty} {syncDuties : List SyncCommitteeDuty} {epoch slot : ℕ}
    {d : ValidatorDuty}
    (hd : d ∈ Committee.specDuties net isAggregator env attDuties syncDuties epoch slot)
    (htype : d.type = .attester ∨ d.type = Proposer.proposerRole) :
    ∃ share, env.validator d.pubKey = some share ∧
      share.minParticipationEpoch ≤ net.estimatedEpochAtSlot env.currentSlot := by
  rcases mem_append.1 hd with hatt | hsync
  · obtain ⟨duty, hduty, rfl⟩ := mem_map.1 hatt
    have hshould := (mem_filter.1 hduty).2
    unfold Committee.shouldExecuteAtt at hshould
    split at hshould
    · cases hshould
    · next share hshare =>
      refine ⟨share, hshare, ?_⟩
      by_contra hlater
      simp [Committee.canParticipate, not_le.1 hlater] at hshould
  · obtain ⟨duty, -, rfl⟩ := mem_map.1 hsync
    cases isAggregator <;> rcases htype with htype | htype <;> cases htype

theorem respects_executeCommittee (h : Linked r) {isAggregator : Bool}
    {selfParticipating : ℕ → List Share} {order : MapOrder ((_ : ℕ) × StoreDuty AttesterDuty)}
    {currentSlot slot : ℕ} :
    Respects net r (.executeCommittee isAggregator selfParticipating order currentSlot slot) := by
  rintro duty currentSlot' hmem ⟨htype, hearly⟩
  obtain ⟨d, hd, heq⟩ := mem_map.1 hmem
  obtain ⟨rfl, rfl⟩ := Event.handedOff.inj heq
  obtain ⟨⟨id, cd⟩, hcd, hmem⟩ := mem_flatMap.1 hd
  obtain ⟨share, hshare, hle⟩ := participates_of_mem_specDuties
    (Committee.mem_specDuties (mem_lookup_iff.2 hcd) hmem) htype
  rw [h.of_lookup hshare] at hearly
  exact absurd hle (not_le.2 hearly)

theorem respects_executeProposals_iff (h : Linked r)
    {order : MapOrder ((_ : ℕ) × StoreDuty ProposerDuty)} {currentSlot slot : ℕ} :
    Respects net r (.executeProposals order currentSlot slot) ↔
      Undelayed net r (.executeProposals order currentSlot slot) := by
  constructor
  · intro hrespects hmode duty hduty hdue share hshare
    by_contra hlater
    refine hrespects (Proposer.toSpecDuty duty Proposer.proposerRole) currentSlot
      (mem_map.2 ⟨_, ?_, rfl⟩) ⟨.inr rfl, ?_⟩
    · rw [Proposer.processExecution, hmode]
      exact mem_map.2 ⟨duty, mem_filter.2 ⟨hduty, hdue⟩, rfl⟩
    · show net.estimatedEpochAtSlot currentSlot < minEpoch r.events duty.pubKey
      rw [h.of_lookup hshare]
      exact not_le.1 hlater
  · rintro hundelayed duty currentSlot' hmem ⟨-, hearly⟩
    obtain ⟨d, hd, heq⟩ := mem_map.1 hmem
    obtain ⟨rfl, rfl⟩ := Event.handedOff.inj heq
    unfold Proposer.processExecution at hd
    split at hd
    · cases hd
    · next hmode =>
      obtain ⟨duty, hfiltered, rfl⟩ := mem_map.1 hd
      obtain ⟨hduty, hdue⟩ := mem_filter.1 hfiltered
      change net.estimatedEpochAtSlot currentSlot < minEpoch r.events duty.pubKey at hearly
      -- an epoch is later only where a share names it
      rcases hshare : r.node.shares.lookup duty.pubKey with - | share
      · rw [h, hshare] at hearly
        cases hearly
      · rw [h.of_lookup hshare] at hearly
        exact absurd (hundelayed (by simpa using hmode) duty hduty hdue share hshare)
          (not_le.2 hearly)

/-- **A step respects the participation delay just in case no proposal is due before it is over.**
-/
theorem respects_iff_undelayed (hr : (machine net).Reachable r) (ha : (machine net).enabled r a) :
    Respects net r a ↔ Undelayed net r a := by
  have h := linked_of_reachable hr
  cases a with
  | executeProposals => exact respects_executeProposals_iff h
  | executeCommittee =>
    exact iff_of_true (respects_executeCommittee h) trivial
  | fetchAttestations => exact iff_of_true (fun _ _ hmem ↦ by cases hmem) trivial
  | fetchProposals | eraseProposals => exact iff_of_true (fun _ _ hmem ↦ by cases hmem) trivial
  | removeShare => exact iff_of_true (fun _ _ hmem ↦ by simp [Node.perform] at hmem) trivial
  | createShare =>
    exact iff_of_true (fun _ _ hmem ↦ absurd hmem handedOff_notMem_storeShare) trivial
  | modifyShare =>
    refine iff_of_true (fun _ _ hmem ↦ ?_) trivial
    simp only [Node.perform] at hmem
    split at hmem <;> cases hmem
  | reactivate =>
    refine iff_of_true (fun _ _ hmem ↦ ?_) trivial
    simp only [Node.perform] at hmem
    split at hmem
    · cases hmem
    · exact absurd hmem handedOff_notMem_storeShare

end

namespace Reference

open Validation.Reference (network)

/-- A validator of operator `1` that attests. -/
def share : Share where
  validatorIndex := 7
  validatorPubKey := [1]
  committee := [⟨[], 1⟩]
  domainType := []
  status := .activeOngoing
  ownerAddress := 0

/-- The validator is registered in epoch 0, and proposes in a slot of the epoch that is fetched. -/
def registered (slot epoch : ℕ) : Run :=
  [Action.createShare share 0, .fetchProposals ⟨[share], [share], .ok [⟨[1], slot, 7⟩]⟩ epoch].foldl
    (machine network).next { node := { operatorID := 1, exporterMode := false } }

theorem registered_reachable (slot epoch : ℕ) :
    (machine network).Reachable (registered slot epoch) := by
  have hstart :
      (machine network).Reachable { node := { operatorID := 1, exporterMode := false } } :=
    .initial ⟨1, false, rfl⟩
  exact hstart.foldl ⟨⟨rfl, rfl⟩, trivial, trivial⟩

/-- In slot 35, of epoch 1, the proposal is handed off, and may be. -/
theorem respects_iff_undelayed_nextEpoch :
    .handedOff ⟨Proposer.proposerRole, [1], 35, 7, 0⟩ 35 ∈
      ((registered 35 1).node.perform network (.executeProposals .stored 35 35)).2 ∧
    Respects network (registered 35 1) (.executeProposals .stored 35 35) := by
  have hundelayed : Undelayed network (registered 35 1) (.executeProposals .stored 35 35) := by
    intro _ duty hduty _ stored hstored
    obtain rfl := List.mem_singleton.1 hduty
    cases hstored
    decide
  exact ⟨List.mem_singleton.2 rfl,
    (respects_iff_undelayed (a := .executeProposals .stored 35 35) (registered_reachable 35 1)
      trivial).2 hundelayed⟩

/-- In slot 3 it is handed off, although the validator is to participate from epoch 1 on. -/
theorem proposal_handed_off_early : (machine network).Reachable (registered 3 0) ∧
    .handedOff ⟨Proposer.proposerRole, [1], 3, 7, 0⟩ 3 ∈
      ((registered 3 0).node.perform network (.executeProposals .stored 3 3)).2 ∧
    network.estimatedEpochAtSlot 3 = 0 ∧ minEpoch (registered 3 0).events [1] = 1 ∧
    ¬ Respects network (registered 3 0) (.executeProposals .stored 3 3) := by
  have hmem : Event.handedOff ⟨Proposer.proposerRole, [1], 3, 7, 0⟩ 3 ∈
      ((registered 3 0).node.perform network (.executeProposals .stored 3 3)).2 :=
        List.mem_singleton.2 rfl
  have hepoch : network.estimatedEpochAtSlot 3 = 0 := by decide
  have hmin : minEpoch (registered 3 0).events [1] = 1 := rfl
  refine ⟨registered_reachable 3 0, hmem, hepoch, hmin, fun h ↦ h _ _ hmem ⟨.inr rfl, ?_⟩⟩
  rw [hepoch]
  exact hmin.symm ▸ Nat.one_pos

end Reference

end Ssv.Duties.Participation
