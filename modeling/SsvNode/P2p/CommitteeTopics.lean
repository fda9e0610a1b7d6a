import SsvNode.P2p.ForkWindow
import SsvNode.Registry.Leaders

/-!
# The topic of a message, for its sender and its receivers

`BroadcastAtSlot` publishes on the topic of the committee's subnet, and `validateTopicAtSlot`
accepts on no other, but the two have the subnet from **different records**: a share, a sorted
`Committee`, or the message itself. They agree, since only the lowest hash of an operator decides on
the Boole side.
-/

namespace Ssv.P2p

open Validation Validation.ValidationSpec List
open Registry (Shares Registrations SSVShare ValidatorStore RegistrySpec)

variable [RegistrySpec]

/-- The topic that `BroadcastAtSlot` publishes on; `validator` finds the share of a validator. -/
def topicAtSlot [ValidationSpec] (net : Validation.Network) (store : ValidatorStore)
    (validator : Bytes → Option SSVShare) (msgID : Bytes) (slot : ℕ) : Except Registry.Err String :=
  let executorID := getDutyExecutorID msgID
  if committeeRole (getRoleType msgID) then
    let committeeID := executorID.drop 16
    if net.booleForkAtSlot slot then
      match store.byCommitteeID committeeID with
      | none =>
        .error { text := "could not find share for committee " ++ Registry.hexEncode executorID }
      | some val => .ok (booleTopic net.name (booleCommitteeSubnet val.operators))
    else .ok (getTopicFullName (subnetTopicID (alanCommitteeSubnet committeeID)))
  else
    match validator executorID with
    | none =>
      .error { text := "could not find share for validator " ++ Registry.hexEncode executorID }
    | some val =>
      .ok (if net.booleForkAtSlot slot then booleTopic net.name
        (booleCommitteeSubnet val.operatorIDs)
        else getTopicFullName (subnetTopicID (alanCommitteeSubnet val.committeeID)))

/-- Node `n` publishes, and `rc` is what `n'` reads of its own stores. The shares that either finds
are registered. -/
structure Exchange (R : Registrations) (n n' : Shares)
    (validator validator' : Bytes → Option SSVShare)
    (rc : Receipt) : Prop where
  sender : (Shares.machine R).Reachable n
  receiver : (Shares.machine R).Reachable n'
  registered : ∀ pubKey s, validator pubKey = some s ∨ validator' pubKey = some s →
    R.registered s ∧ s.validatorPubKey = pubKey
  committee : ∀ id c, rc.committee id = some c → ∃ stored,
    n'.validatorStore.byCommitteeID id = some stored ∧
    c.booleCommitteeSubnet = booleCommitteeSubnet stored.operators ∧
    c.alanCommitteeSubnet = alanCommitteeSubnet stored.id
  validator : ∀ pubKey s, rc.validator pubKey = some s → ∃ share, validator' pubKey = some share ∧
    s.booleCommitteeSubnet = booleCommitteeSubnet share.operatorIDs ∧
    s.alanCommitteeSubnet = alanCommitteeSubnet share.committeeID

/-- A stored committee has its identifier, and the operators of a registered share. -/
theorem exists_registered {R : Registrations} {n : Shares} (hn : (Shares.machine R).Reachable n)
    {id : Bytes} {c : Registry.Committee} (hc : n.validatorStore.byCommitteeID id = some c) :
    c.id = id ∧ ∃ share, R.registered share ∧ share.committeeID = id ∧
      c.operators.Perm share.operatorIDs := by
  have hbuilt := (Shares.builtFrom_and_setUpFrom hn).1
  obtain ⟨hne, hcommittee, hshares⟩ := hbuilt id c hc
  obtain ⟨first, rest, hfirst⟩ := exists_cons_of_ne_nil hne
  obtain ⟨hregistered, hid⟩ := hshares first (hfirst ▸ .head _)
  refine ⟨?_, first, hregistered, hid, (hbuilt.operators hregistered (hid ▸ hc)).2⟩
  rw [hcommittee, hfirst]
  exact hid

variable [ValidationSpec]

theorem expectedTopic_eq {R : Registrations} {net : Validation.Network} {n n' : Shares}
    {validator validator' : Bytes → Option SSVShare} {rc : Receipt} {msgID : Bytes}
    {ci : CommitteeInfo} {slot : ℕ} {topic : String} (h : Exchange R n n' validator validator' rc)
    (hci : getCommitteeAndValidatorIndices net rc msgID = .ok ci)
    (htopic : topicAtSlot net n.validatorStore validator msgID slot = .ok topic) :
    (if net.booleForkAtSlot slot then booleTopic net.name ci.subnet
      else getTopicFullName (subnetTopicID ci.subnetAlan)) = topic := by
  have hsource := committee_of_getCommitteeAndValidatorIndices hci
  unfold topicAtSlot at htopic
  dsimp only at htopic
  split at hsource
  · next hrole =>
    obtain ⟨c', hc', -, hsubnet, halan⟩ := hsource
    obtain ⟨stored', hstored', hsubnet', halan'⟩ := h.committee _ c' hc'
    obtain ⟨hid', share', hshare', hshareID', hperm'⟩ := exists_registered h.receiver hstored'
    rw [if_pos hrole] at htopic
    split
    · next hfork =>
      rw [if_pos hfork] at htopic
      split at htopic
      · cases htopic
      · next stored hstored =>
        -- the two nodes may have built the committee from different shares
        obtain ⟨-, share, hshare, hshareID, hperm⟩ := exists_registered h.sender hstored
        have hsame := R.one_committee hshare' hshare (hshareID'.trans hshareID.symm)
        rw [← Except.ok.inj htopic, hsubnet, hsubnet',
          booleCommitteeSubnet_perm (hperm'.trans (hsame.trans hperm.symm))]
    · next hfork =>
      rw [if_neg hfork] at htopic
      rw [← Except.ok.inj htopic, halan, halan', hid']
  · next hrole =>
    obtain ⟨s', hs', -, hsubnet, halan⟩ := hsource
    obtain ⟨share', hfound', hsubnet', halan'⟩ := h.validator _ s' hs'
    obtain ⟨hshare', hkey'⟩ := h.registered _ share' (.inr hfound')
    rw [if_neg hrole] at htopic
    split at htopic
    · cases htopic
    · next share hfound =>
      obtain ⟨hshare, hkey⟩ := h.registered _ share (.inl hfound)
      have hsame := R.one_share hshare' hshare (hkey'.trans hkey.symm)
      rw [← Except.ok.inj htopic, hsubnet, hsubnet', halan, halan', SSVShare.committeeID, hsame,
        SSVShare.committeeID]

/-- **The laws of committee subnets**: a message is published on the one topic on which every node
accepts it. -/
theorem committee_subnet_laws (R : Registrations) :
    (∀ A B : List OperatorID, (∀ op, op ∈ A ↔ op ∈ B) →
      booleCommitteeSubnet A = booleCommitteeSubnet B) ∧
    (∀ A B : List OperatorID, A ≠ [] → B ≠ [] →
      booleCommitteeSubnet (A ++ B) = booleCommitteeSubnet A ∨
      booleCommitteeSubnet (A ++ B) = booleCommitteeSubnet B) ∧
    ∀ (net : Validation.Network) (n n' : Shares) (validator validator' : Bytes → Option SSVShare)
      (rc : Receipt) (msgID : Bytes) (ci : CommitteeInfo) (slot : ℕ) (topic : String),
      Exchange R n n' validator validator' rc →
      getCommitteeAndValidatorIndices net rc msgID = .ok ci →
      topicAtSlot net n.validatorStore validator msgID slot = .ok topic →
      (validateTopicAtSlot net rc ci slot = .ok () ↔ rc.topic = topic) := by
  refine ⟨fun A B ↦ booleCommitteeSubnet_congr, fun A B ↦ booleCommitteeSubnet_append, ?_⟩
  intro net n n' validator validator' rc msgID ci slot topic h hci htopic
  rw [validateTopicAtSlot, Checks.require_eq_ok, ← expectedTopic_eq h hci htopic]
  exact eq_comm

end Ssv.P2p

namespace Ssv.P2p.Reference

open Validation Registry.Reference Validation.Reference

/-- The share, found by the public key of its validator. -/
def ownValidator (pubKey : Bytes) : Option Registry.SSVShare :=
  if pubKey = Registry.Reference.share.validatorPubKey then some Registry.Reference.share else none

/-- What the node of the share reads of its own stores. -/
def ownReceipt : Receipt :=
  { storeReceipt with
    committee := fun id ↦ (node.validatorStore.byCommitteeID id).map fun c ↦
      { operators := c.operators, indices := c.indices
        booleCommitteeSubnet := booleCommitteeSubnet c.operators
        alanCommitteeSubnet := alanCommitteeSubnet c.id }
    validator := fun pubKey ↦ (ownValidator pubKey).map fun s ↦
      { validatorIndex := s.validatorIndex, committee := s.operatorIDs, committeeID := s.committeeID
        booleCommitteeSubnet := booleCommitteeSubnet s.operatorIDs
        alanCommitteeSubnet := alanCommitteeSubnet s.committeeID
        liquidated := s.liquidated, hasBeaconMetadata := true, statusIsAttesting := true
        pendingQueued := false, activationEpoch := 0 } }

theorem exchange : Exchange registrations node node ownValidator ownValidator ownReceipt where
  sender := node_reachable
  receiver := node_reachable
  registered pubKey s hs := by
    obtain ⟨hkey, hshare⟩ := Option.ite_none_right_eq_some.1 (or_self_iff.1 hs)
    cases hshare
    exact ⟨rfl, hkey.symm⟩
  committee id c hc := by
    obtain ⟨stored, hstored, rfl⟩ := Option.map_eq_some_iff.1 hc
    exact ⟨stored, hstored, rfl, rfl⟩
  validator pubKey s hs := by
    obtain ⟨stored, hstored, rfl⟩ := Option.map_eq_some_iff.1 hs
    exact ⟨stored, hstored, rfl, rfl⟩

/-- The message ID of the validator as a proposer. -/
def proposerMsgID : Bytes :=
  [0, 0, 0, 1] ++ [2, 0, 0, 0] ++ Registry.Reference.share.validatorPubKey

/-- Messages of the committee and of the validator, before the fork and after it. -/
theorem committee_subnet_laws_ownMessages :
    ∀ id ∈ [msgID, proposerMsgID], ∀ slot ∈ [0, 32 * 1000000], ∃ ci topic,
      getCommitteeAndValidatorIndices network ownReceipt id = .ok ci ∧
      topicAtSlot network node.validatorStore ownValidator id slot = .ok topic ∧
      (validateTopicAtSlot network ownReceipt ci slot = .ok () ↔ ownReceipt.topic = topic) := by
  have accepted (id : Bytes) (slot : ℕ) (ci : CommitteeInfo) (topic : String)
      (hci : getCommitteeAndValidatorIndices network ownReceipt id = .ok ci)
      (htopic : topicAtSlot network node.validatorStore ownValidator id slot = .ok topic) :=
    (committee_subnet_laws registrations).2.2 _ _ _ _ _ _ _ _ _ _ exchange hci htopic
  intro id hid slot hslot
  simp only [List.mem_cons, List.not_mem_nil, or_false] at hid hslot
  rcases hid with rfl | rfl <;> rcases hslot with rfl | rfl
  · exact ⟨_, _, rfl, rfl, accepted msgID _ _ _ rfl rfl⟩
  · exact ⟨_, _, rfl, rfl, accepted msgID _ _ _ rfl rfl⟩
  · exact ⟨_, _, rfl, rfl, accepted proposerMsgID _ _ _ rfl rfl⟩
  · exact ⟨_, _, rfl, rfl, accepted proposerMsgID _ _ _ rfl rfl⟩

end Ssv.P2p.Reference
