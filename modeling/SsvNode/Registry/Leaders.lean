import SsvNode.Lib.RoundRobin
import SsvNode.Qbft.Instance
import SsvNode.Registry.ReferenceSpec
import SsvNode.Registry.StoreEffects
import SsvNode.Registry.ValidatorsMap
import SsvNode.Validation.ReferenceSpec

/-!
# Who leads a round

Message validation and a QBFT instance compute the leader of a round by `Proposer`, but go around
**different lists**: the store sorts the operators of a committee, a share lists them as its event
did, and a committee's runners use the list of the share that was started first. For a validator's
messages, and from the Boole fork on, the leaders agree; else exactly if that first list is in
ascending order (`leaders_agree_iff`).
-/

namespace Ssv.Validation

open RoundRobin List Finset Option

variable {net : Network} {height round : ℕ} {committee committee' : List OperatorID}

/-! ### Turns -/

/-- The list that `Proposer` goes around. -/
def leadOrder (net : Network) (height : ℕ) (committee : List OperatorID) : List OperatorID :=
  if net.booleForkAtSlot height then committee.insertionSort (· ≤ ·) else committee

/-- Where a committee stands in the circle in the first round of a height. -/
def leadOffset (net : Network) (height size : ℕ) : ℕ :=
  (if height ≠ firstHeight then height % size else 0) +
    if net.booleForkAtSlot height then net.estimatedEpochAtSlot height else 0

theorem leadOrder_perm : (leadOrder net height committee).Perm committee := by
  unfold leadOrder
  split
  · exact perm_insertionSort (· ≤ ·) committee
  · exact .refl _

@[simp] theorem length_leadOrder : (leadOrder net height committee).length = committee.length :=
  leadOrder_perm.length_eq

theorem proposer_eq_turn (hround : firstRound ≤ round) :
    proposer height round committee net =
      turn (leadOrder net height committee)
        (leadOffset net height committee.length + (round - firstRound)) := by
  unfold proposer leadOrder leadOffset
  split
  · rw [roundRobinProposer, turn]
    simp only [length_insertionSort, subUint64]
    rw [if_pos (by omega)]
    congr 2
    omega
  · rw [roundRobinProposerPreBooleFork, turn]
    simp only [subUint64]
    rw [if_pos (by omega), Nat.add_sub_assoc hround]
    rfl

theorem proposer_isSome (hne : committee ≠ []) (hround : firstRound ≤ round) :
    (proposer height round committee net).isSome := by
  rw [proposer_eq_turn hround]
  refine turn_isSome fun hnil ↦ hne ?_
  exact eq_nil_of_length_eq_zero (by simpa using congrArg length hnil)

/-- Committees of one size have the same leaders exactly if `Proposer` goes around one list. -/
theorem forall_proposer_eq_iff (hlen : committee.length = committee'.length) :
    (∀ round, firstRound ≤ round →
      proposer height round committee net = proposer height round committee' net) ↔
    leadOrder net height committee = leadOrder net height committee' := by
  constructor
  · intro h
    refine eq_of_turn_eq (by simpa using hlen) fun k
      (hk : leadOffset net height committee.length ≤ k) ↦ ?_
    have hturn := h (k - leadOffset net height committee.length + firstRound) (Nat.le_add_left _ _)
    rw [proposer_eq_turn (Nat.le_add_left _ _), proposer_eq_turn (Nat.le_add_left _ _), ← hlen,
      Nat.add_sub_cancel, Nat.add_sub_cancel' hk] at hturn
    exact hturn
  · intro h round hround
    rw [proposer_eq_turn hround, proposer_eq_turn hround, h, hlen]

/-- A committee and its sorted list have the same leaders from the Boole fork on, and before it if
it is sorted. -/
theorem forall_proposer_sorted_iff {sorted : List OperatorID}
    (hsorted : sorted.Pairwise (· ≤ ·)) (hperm : sorted.Perm committee) :
    (∀ round, firstRound ≤ round →
      proposer height round sorted net = proposer height round committee net) ↔
    net.booleForkAtSlot height ∨ committee.Pairwise (· ≤ ·) := by
  rw [forall_proposer_eq_iff hperm.length_eq, leadOrder, leadOrder]
  by_cases hfork : net.booleForkAtSlot height
  · have hsame : sorted.insertionSort (· ≤ ·) = committee.insertionSort (· ≤ ·) :=
      ((perm_insertionSort _ _).trans
        (hperm.trans (perm_insertionSort _ _).symm)).eq_of_pairwise' 
          (pairwise_insertionSort _ _) (pairwise_insertionSort _ _)
    simp only [hfork, if_true, true_or, iff_true]
    exact hsame
  · simp only [hfork, Bool.false_eq_true, if_false, false_or]
    constructor
    · rintro rfl
      exact hsorted
    · exact fun hcommittee ↦ hperm.eq_of_pairwise' hsorted hcommittee

/-- **Rotation.** Every operator leads one of `n` consecutive rounds. -/
theorem card_leads_eq_one (hnodup : committee.Nodup) {op : OperatorID} (hop : op ∈ committee)
    {start : ℕ} (hstart : firstRound ≤ start) :
    ((Finset.Ico start (start + committee.length)).filter
      fun round ↦ proposer height round committee net = some op).card = 1 := by
  have hperm : (leadOrder net height committee).Perm committee := leadOrder_perm
  have hcircle := card_turns_eq_one (hperm.nodup_iff.2 hnodup) (hperm.mem_iff.2 hop)
    (leadOffset net height committee.length + (start - firstRound))
  rw [length_leadOrder] at hcircle
  rw [← hcircle]
  -- The rounds of the window and the turns of the circle are the same numbers, shifted.
  refine card_nbij' (leadOffset net height committee.length + · - firstRound)
    (· + firstRound - leadOffset net height committee.length) ?_ ?_ ?_ ?_
  · intro round hround
    simp only [Finset.mem_coe, Finset.mem_filter, Finset.mem_Ico] at hround ⊢
    rw [proposer_eq_turn (by omega), ← Nat.add_sub_assoc (by omega)] at hround
    exact ⟨by omega, hround.2⟩
  · intro k hk
    simp only [Finset.mem_coe, Finset.mem_filter, Finset.mem_Ico] at hk ⊢
    rw [proposer_eq_turn (by omega), ← Nat.add_sub_assoc (by omega), Nat.add_sub_cancel' (by omega),
      Nat.add_sub_cancel]
    exact ⟨by omega, hk.2⟩
  · intro round hround
    simp only [Finset.mem_coe, Finset.mem_filter, Finset.mem_Ico] at hround
    dsimp only
    omega
  · intro k hk
    simp only [Finset.mem_coe, Finset.mem_filter, Finset.mem_Ico] at hk
    dsimp only
    omega

/-! ### The leaders of an instance -/

section

variable [SsvSpec]

/-- The `ProposerF` that the runners are set up with. Zero stands for the panic on an empty
committee. -/
def proposerF (net : Network) (state : State) (round : ℕ) : OperatorID :=
  (proposer state.height round state.committeeMember.members net).getD 0

theorem some_proposerForRound {i : Instance} (hproposerF : i.config.proposerF = proposerF net)
    (hne : i.state.committeeMember.members ≠ []) (hround : firstRound ≤ round) :
    some (i.proposerForRound round) =
      proposer i.getHeight round i.state.committeeMember.members net := by
  have hsome : (proposer i.getHeight round i.state.committeeMember.members net).isSome :=
    proposer_isSome hne hround
  obtain ⟨leader, hleader⟩ := isSome_iff_exists.1 hsome
  rw [Instance.proposerForRound, hproposerF, proposerF, show i.state.height = i.getHeight from rfl,
    hleader, getD_some]

end

/-! ### The committee of a message -/

variable [ValidationSpec] {rc : Receipt} {msgID : Bytes} {ci : CommitteeInfo}

open ValidationSpec

theorem committee_of_getCommitteeAndValidatorIndices
    (h : getCommitteeAndValidatorIndices net rc msgID = .ok ci) :
    if committeeRole (getRoleType msgID) then
      ∃ c, rc.committee ((getDutyExecutorID msgID).drop 16) = some c ∧ ci.committee = c.operators ∧
        ci.subnet = c.booleCommitteeSubnet ∧ ci.subnetAlan = c.alanCommitteeSubnet
    else ∃ s, rc.validator (getDutyExecutorID msgID) = some s ∧ ci.committee = s.committee ∧
      ci.subnet = s.booleCommitteeSubnet ∧ ci.subnetAlan = s.alanCommitteeSubnet := by
  unfold getCommitteeAndValidatorIndices at h
  split
  · next hrole =>
    rw [if_pos hrole] at h
    dsimp only at h
    split at h
    · cases h
    · next c hc =>
      simp only [Checks.bind_eq_ok, Checks.pure_eq_ok] at h
      obtain ⟨-, -, rfl⟩ := h
      exact ⟨c, hc, rfl, rfl, rfl⟩
  · next hrole =>
    rw [if_neg hrole] at h
    split at h
    · cases h
    · next s hs =>
      simp only [Checks.bind_eq_ok, Checks.pure_eq_ok] at h
      obtain ⟨-, -, -, -, -, -, -, -, rfl⟩ := h
      exact ⟨s, hs, rfl, rfl, rfl⟩

end Ssv.Validation

namespace Ssv.Registry

open Act Validation Validation.ValidationSpec

variable [RegistrySpec]

/-! ### The store keeps sorted committees -/

/-- The operators of a share are distinct, an identifier is of one committee, in any order, and a
validator is registered once. -/
structure Registrations where
  registered : SSVShare → Prop
  nodup : ∀ {s}, registered s → s.operatorIDs.Nodup
  ne_nil : ∀ {s}, registered s → s.operatorIDs ≠ []
  one_committee : ∀ {s t}, registered s → registered t → s.committeeID = t.committeeID →
    s.operatorIDs.Perm t.operatorIDs
  one_share : ∀ {s t}, registered s → registered t → s.validatorPubKey = t.validatorPubKey →
    s.operatorIDs = t.operatorIDs

variable (R : Registrations)

/-- The stored committees are built from registered shares with their identifier. -/
def ValidatorStore.BuiltFrom (v : ValidatorStore) : Prop :=
  ∀ id c, v.byCommitteeID id = some c → c.shares ≠ [] ∧ c = ValidatorStore.buildCommittee c.shares ∧
    ∀ s ∈ c.shares, R.registered s ∧ s.committeeID = id

namespace ValidatorStore

variable {R} {v : ValidatorStore} {share : SSVShare}

variable {shares : List SSVShare} {committee c : Committee}

theorem BuiltFrom.setCommittee {id : Bytes} {committee : Option Committee} (hv : v.BuiltFrom R)
    (h : ∀ c, committee = some c → c.shares ≠ [] ∧ c = buildCommittee c.shares ∧
      ∀ s ∈ c.shares, R.registered s ∧ s.committeeID = id) :
    (v.setCommittee id committee).BuiltFrom R := by
  intro id' c hc
  rcases eq_or_ne id' id with rfl | hid
  · exact h c (by simpa [ValidatorStore.setCommittee] using hc)
  · exact hv id' c (by simpa [ValidatorStore.setCommittee, hid] using hc)

theorem BuiltFrom.of_byCommitteeID {w : ValidatorStore} (hv : v.BuiltFrom R)
    (h : w.byCommitteeID = v.byCommitteeID) : w.BuiltFrom R := by
  unfold BuiltFrom
  rw [h]
  exact hv

theorem BuiltFrom.indexShare (hv : v.BuiltFrom R) : (v.indexShare share).BuiltFrom R := by
  refine hv.of_byCommitteeID ?_
  unfold ValidatorStore.indexShare
  split <;> rfl

theorem BuiltFrom.unindexShare (hv : v.BuiltFrom R) : (v.unindexShare share).BuiltFrom R := by
  refine hv.of_byCommitteeID ?_
  unfold ValidatorStore.unindexShare
  split <;> rfl

/-! The loops over the operators of a share leave the committees alone. -/

theorem addToOperators_builtFrom {seen rest : List OperatorID} :
    Quiet (BuiltFrom R) (BuiltFrom R) (addToOperators share committee seen rest) := by
  induction rest generalizing seen with
  | nil => exact .pure fun _ hv ↦ hv
  | cons operator rest ih =>
    rw [addToOperators]
    refine .ite (fun _ ↦ .fail fun _ hv ↦ hv) fun _ ↦ .bind_read fun v hv ↦ ?_
    refine .ite (fun _ ↦ .fail ?_) fun _ ↦ .bind (.update ?_) (fun _ hw ↦ hw) fun _ ↦ ih
    · rintro _ rfl
      exact hv
    · rintro _ rfl
      exact hv.of_byCommitteeID rfl

theorem updateInOperator_builtFrom {operator : OperatorID} :
    Quiet (BuiltFrom R) (BuiltFrom R) (updateInOperator share committee operator) := by
  refine .bind_read fun v hv ↦ ?_
  cases v.byOperatorID operator with
  | none =>
    refine .fail ?_
    rintro _ rfl
    exact hv
  | some =>
    refine .ite (fun _ ↦ .update ?_) fun _ ↦ .fail ?_
    · rintro _ rfl
      exact hv.of_byCommitteeID rfl
    · rintro _ rfl
      exact hv

theorem removeFromOperator_builtFrom {operator : OperatorID} :
    Quiet (BuiltFrom R) (BuiltFrom R) (removeFromOperator share committee operator) := by
  refine .bind_read fun v hv ↦ ?_
  cases v.byOperatorID operator with
  | none =>
    refine .fail ?_
    rintro _ rfl
    exact hv
  | some =>
    refine .ite (fun _ ↦ .update ?_) fun _ ↦ .fail ?_
    · rintro _ rfl
      exact hv.of_byCommitteeID rfl
    · rintro _ rfl
      exact hv

theorem storeCommittee_builtFrom (hv : v.BuiltFrom R) (hne : shares ≠ [])
    (hshares : ∀ s ∈ shares, R.registered s ∧ s.committeeID = share.committeeID)
    {f : Unit → StoreAct Unit} (hf : ∀ u, Quiet (BuiltFrom R) (BuiltFrom R) (f u)) :
    Quiet (· = v) (BuiltFrom R)
      (Act.update (setCommittee share.committeeID (some (buildCommittee shares))) >>= f) := by
  refine .bind (.update ?_) (fun _ hw ↦ hw) hf
  rintro _ rfl
  refine hv.setCommittee fun c hc ↦ ?_
  cases hc
  exact ⟨hne, rfl, hshares⟩

theorem handleShareAdded_builtFrom (hshare : R.registered share) :
    Quiet (BuiltFrom R) (BuiltFrom R) (handleShareAdded share) := by
  refine .bind (.update fun v hv ↦ hv.indexShare) (fun _ hv ↦ hv) fun _ ↦ .bind_read fun v hv ↦ ?_
  have hself : ∀ s ∈ [share], R.registered s ∧ s.committeeID = share.committeeID := by
    simpa using hshare
  cases hc : v.byCommitteeID share.committeeID with
  | none =>
    change Quiet _ _ (Act.lift (.ok (buildCommittee [share])) >>= _)
    rw [lift_ok_bind]
    exact storeCommittee_builtFrom hv (List.cons_ne_nil _ _) hself fun _ ↦ addToOperators_builtFrom
  | some committee =>
    obtain ⟨hne, -, hshares⟩ := hv _ _ hc
    have hadded : ∀ s ∈ committee.shares ++ [share],
        R.registered s ∧ s.committeeID = share.committeeID :=
      fun s hs ↦ (List.mem_append.1 hs).elim (hshares s) (hself s)
    by_cases hcontains : containsShare committee.shares share
    · simp only [hcontains, if_true]
      exact fun w hw ↦ ⟨rfl, hw ▸ hv⟩
    · simp only [hcontains, Bool.false_eq_true, if_false]
      change Quiet _ _ (Act.lift (.ok (buildCommittee (committee.shares ++ [share]))) >>= _)
      rw [lift_ok_bind, id_buildCommittee (by simp) fun s hs ↦ (hadded s hs).2]
      exact storeCommittee_builtFrom hv (by simp) hadded fun _ ↦ addToOperators_builtFrom

theorem handleShareUpdated_builtFrom (hshare : R.registered share) :
    Quiet (BuiltFrom R) (BuiltFrom R) (handleShareUpdated share) := by
  refine .bind (.update fun v hv ↦ hv.indexShare) (fun _ hv ↦ hv) fun _ ↦ .bind_read fun v hv ↦ ?_
  cases hc : v.byCommitteeID share.committeeID with
  | none => exact .fail fun w hw ↦ hw ▸ hv
  | some =>
    obtain ⟨hne, -, hshares⟩ := hv _ _ hc
    dsimp only
    rw [mapError_lift]
    refine .bind_lift (fun w hw ↦ hw ▸ hv) fun c hc ↦ ?_
    rw [Checks.mapError_eq_ok] at hc
    rw [(updateCommitteeWithShare_eq_ok.1 hc).2]
    refine storeCommittee_builtFrom hv (by simpa using hne) ?_
      fun _ ↦ .forM fun _ _ ↦ updateInOperator_builtFrom
    intro s hs
    obtain ⟨t, ht, rfl⟩ := List.mem_map.1 hs
    split
    · exact ⟨hshare, rfl⟩
    · exact hshares t ht

theorem handleShareRemoved_builtFrom :
    Quiet (BuiltFrom R) (BuiltFrom R) (handleShareRemoved share) := by
  refine .bind (.update fun v hv ↦ hv.unindexShare) (fun _ hv ↦ hv) fun _ ↦ .bind_read fun v hv ↦ ?_
  cases hc : v.byCommitteeID share.committeeID with
  | none => exact .fail fun w hw ↦ hw ▸ hv
  | some committee =>
    obtain ⟨hne, hbuilt, hshares⟩ := hv _ _ hc
    dsimp only
    rw [mapError_lift]
    refine .bind_lift (fun w hw ↦ hw ▸ hv) fun c hc ↦ ?_
    rw [Checks.mapError_eq_ok] at hc
    obtain rfl := of_removeShareFromCommittee_eq_ok hc
    dsimp only
    split
    · refine .bind (.update fun w hw ↦ ?_) (fun _ hw ↦ hw)
        fun _ ↦ .forM fun _ _ ↦ removeFromOperator_builtFrom
      exact hw ▸ hv.setCommittee nofun
    · next hleft =>
      have hmem := fun s (hs : s ∈ committee.shares.filter (!isShareOf share ·)) ↦
        hshares s (List.mem_filter.1 hs).1
      rw [id_buildCommittee hleft fun s hs ↦ (hmem s hs).2,
        if_neg (show (buildCommittee _).shares ≠ [] from hleft)]
      exact storeCommittee_builtFrom hv hleft hmem
        fun _ ↦ .forM fun _ _ ↦ removeFromOperator_builtFrom

theorem BuiltFrom.operators (hv : v.BuiltFrom R) (hshare : R.registered share)
    (hc : v.byCommitteeID share.committeeID = some c) :
    c.operators.Pairwise (· ≤ ·) ∧ c.operators.Perm share.operatorIDs := by
  obtain ⟨hne, hbuilt, hshares⟩ := hv _ _ hc
  obtain ⟨first, rest, hfirst⟩ := List.exists_cons_of_ne_nil hne
  have hoperators : c.operators = sortIDs first.operatorIDs := by
    rw [hbuilt, hfirst]
    rfl
  obtain ⟨hregistered, hid⟩ := hshares first (hfirst ▸ (.head _))
  rw [hoperators]
  exact ⟨List.pairwise_insertionSort _ _,
    (List.perm_insertionSort _ _).trans (R.one_committee hregistered hshare hid)⟩

end ValidatorStore

/-! ### Runners keep the order of a share -/

variable {env : StartEnv}

omit [RegistrySpec] in
theorem operatorID_of_operatorOfShareMember {cm : ShareMember}
    {o : Operator × Bool} (h : operatorOfShareMember env cm = .ok o) :
    o.1.operatorID = cm.signer := by
  unfold operatorOfShareMember at h
  rw [Checks.bind_eq_ok] at h
  obtain ⟨found, -, h⟩ := h
  cases found with
  | none => rw [← Checks.pure_eq_ok.1 h]
  | some =>
    obtain ⟨operatorPEM, -, h⟩ := Checks.bind_eq_ok.1 h
    rw [← Checks.pure_eq_ok.1 h]

omit [RegistrySpec] in
theorem members_of_committeeMemberFromShare {share : SSVShare}
    {member : CommitteeMember} (h : committeeMemberFromShare env share = .ok member) :
    member.members = share.operatorIDs := by
  obtain ⟨operators, hoperators, h⟩ := Checks.bind_eq_ok.1 h
  simp only [Checks.bind_eq_ok, Checks.pure_eq_ok] at h
  obtain ⟨-, -, -, -, rfl⟩ := h
  rw [CommitteeMember.members, List.map_map]
  exact Checks.map_eq_of_mapM_eq_ok (fun _ _ ↦ operatorID_of_operatorOfShareMember) hoperators

/-- The runners were set up from registered shares. -/
structure ValidatorsMap.SetUpFrom (m : ValidatorsMap) : Prop where
  validator : ∀ pubKey v, m.validators pubKey = some v →
    R.registered v.share ∧ v.share.validatorPubKey = pubKey ∧
    v.operator.members = v.share.operatorIDs
  committee : ∀ id vc, m.committees id = some vc →
    ∃ share, R.registered share ∧ share.committeeID = id ∧ vc.operator.members = share.operatorIDs

namespace ValidatorsMap

variable {R} {m : ValidatorsMap} {share : SSVShare}

theorem SetUpFrom.setValidator {operator : CommitteeMember} (hm : m.SetUpFrom R)
    (hshare : R.registered share) (hoperator : operator.members = share.operatorIDs) :
    (m.setValidator share.validatorPubKey (some ⟨share, operator⟩)).SetUpFrom R where
  validator pubKey v hv := by
    rcases eq_or_ne pubKey share.validatorPubKey with rfl | hpubKey
    · obtain rfl : (⟨share, operator⟩ : RunningValidator) = v := by
        simpa [ValidatorsMap.setValidator] using hv
      exact ⟨hshare, rfl, hoperator⟩
    · exact hm.validator pubKey v (by simpa [ValidatorsMap.setValidator, hpubKey] using hv)
  committee := hm.committee

theorem SetUpFrom.deleteValidator {pubKey : PubKey} (hm : m.SetUpFrom R) :
    (m.setValidator pubKey none).SetUpFrom R where
  validator pubKey' v hv := by
    rcases eq_or_ne pubKey' pubKey with rfl | hpubKey
    · simp [ValidatorsMap.setValidator] at hv
    · exact hm.validator pubKey' v (by simpa [ValidatorsMap.setValidator, hpubKey] using hv)
  committee := hm.committee

theorem SetUpFrom.setCommittee {id : Bytes} {vc : Option RunningCommittee} (hm : m.SetUpFrom R)
    (hvc : ∀ c, vc = some c → ∃ share, R.registered share ∧ share.committeeID = id ∧
      c.operator.members = share.operatorIDs) :
    (m.setCommittee id vc).SetUpFrom R where
  validator := hm.validator
  committee id' c hc := by
    rcases eq_or_ne id' id with rfl | hid
    · exact hvc c (by simpa [ValidatorsMap.setCommittee] using hc)
    · exact hm.committee id' c (by simpa [ValidatorsMap.setCommittee, hid] using hc)

theorem SetUpFrom.initInCommittee {operator : CommitteeMember} (hm : m.SetUpFrom R)
    (hshare : R.registered share) (hoperator : operator.members = share.operatorIDs) :
    (m.initInCommittee operator share).SetUpFrom R := by
  refine hm.setCommittee fun c hc ↦ ?_
  cases hc
  split
  · exact ⟨share, hshare, rfl, hoperator⟩
  · next vc hvc => exact hm.committee _ vc hvc

theorem onShareInit_setUpFrom (hshare : R.registered share) :
    Quiet (SetUpFrom R) (SetUpFrom R) (onShareInit env share) := by
  refine .bind_lift (fun _ hm ↦ hm) fun _ _ ↦ .ite (fun _ ↦ ?_) fun _ ↦ .pure fun _ hm ↦ hm
  refine .bind_lift (fun _ hm ↦ hm) fun operator hoperator ↦ ?_
  rw [Checks.mapError_eq_ok] at hoperator
  have hmembers := members_of_committeeMemberFromShare hoperator
  have hinit : ∀ m : ValidatorsMap, m.SetUpFrom R →
      (m.initInCommittee operator share).SetUpFrom R :=
    fun m hm ↦ hm.initInCommittee hshare hmembers
  refine .bind_read fun m hm ↦ .ite (fun _ ↦ ?_) fun _ ↦ .update fun w hw ↦ hinit w (hw ▸ hm)
  refine .bind_lift (fun w hw ↦ hw ▸ hm) fun _ _ ↦ ?_
  refine .bind (.update fun w hw ↦ ?_) (fun _ hw ↦ hw) fun _ ↦ .update hinit
  exact hw ▸ hm.setValidator hshare hmembers

theorem onShareStop_setUpFrom {pubKey : PubKey} (hm : m.SetUpFrom R) :
    (m.onShareStop pubKey).SetUpFrom R := by
  unfold onShareStop
  split
  · exact hm
  · next v hv =>
    dsimp only
    split
    · exact hm.deleteValidator
    · next vc hvc =>
      refine hm.deleteValidator.setCommittee fun c hc ↦ ?_
      split at hc
      · cases hc
      · cases hc
        exact hm.committee _ vc hvc

end ValidatorsMap

/-! ### Runs of a node -/

/-- What the events and the duties of a node change of its shares. -/
structure Shares where
  validatorStore : ValidatorStore
  validatorsMap : ValidatorsMap

/-- The calls that change them. -/
inductive ShareCall where
  | handleShareAdded (share : SSVShare)
  | handleShareUpdated (share : SSVShare)
  | handleShareRemoved (share : SSVShare)
  | onShareInit (env : StartEnv) (share : SSVShare)
  | onShareStop (pubKey : PubKey)

namespace Shares

def next (n : Shares) : ShareCall → Shares
  | .handleShareAdded share =>
    { n with
      validatorStore := ((ValidatorStore.handleShareAdded share).run n.validatorStore).state }
  | .handleShareUpdated share =>
    { n with
      validatorStore := ((ValidatorStore.handleShareUpdated share).run n.validatorStore).state }
  | .handleShareRemoved share =>
    { n with
      validatorStore := ((ValidatorStore.handleShareRemoved share).run n.validatorStore).state }
  | .onShareInit env share =>
    { n with validatorsMap := ((ValidatorsMap.onShareInit env share).run n.validatorsMap).state }
  | .onShareStop pubKey => { n with validatorsMap := n.validatorsMap.onShareStop pubKey }

/-- A node that stores and starts registered shares, in any order. -/
def machine (R : Registrations) : Machine Shares ShareCall where
  initial n := n = ⟨.empty, .new⟩
  enabled
    | _, .handleShareAdded share => R.registered share
    | _, .handleShareUpdated share => R.registered share
    | _, .onShareInit _ share => R.registered share
    | _, .handleShareRemoved _ => True
    | _, .onShareStop _ => True
  next := next

variable {R} {n : Shares}

theorem builtFrom_and_setUpFrom (hn : (machine R).Reachable n) :
    n.validatorStore.BuiltFrom R ∧ n.validatorsMap.SetUpFrom R := by
  refine Machine.Reachable.invariant
    (P := fun n ↦ n.validatorStore.BuiltFrom R ∧ n.validatorsMap.SetUpFrom R) ?_ ?_ hn
  · rintro _ rfl
    exact ⟨nofun, nofun, nofun⟩
  · rintro n call - ⟨hstore, hmap⟩ hcall
    cases call with
    | handleShareAdded =>
      exact ⟨(ValidatorStore.handleShareAdded_builtFrom hcall _ hstore).2, hmap⟩
    | handleShareUpdated =>
      exact ⟨(ValidatorStore.handleShareUpdated_builtFrom hcall _ hstore).2, hmap⟩
    | handleShareRemoved =>
      exact ⟨(ValidatorStore.handleShareRemoved_builtFrom _ hstore).2, hmap⟩
    | onShareInit =>
      exact ⟨hstore, (ValidatorsMap.onShareInit_setUpFrom hcall _ hmap).2⟩
    | onShareStop => exact ⟨hstore, ValidatorsMap.onShareStop_setUpFrom hmap⟩

end Shares

/-! ### The two leaders -/

variable [ValidationSpec]

/-- Validation reads a committee's operators, and a validator's as its share lists them, from the
stores. -/
structure ReadsShares (n : Shares) (rc : Receipt) : Prop where
  committee : ∀ id c, rc.committee id = some c →
    ∃ stored, n.validatorStore.byCommitteeID id = some stored ∧ c.operators = stored.operators
  validator : ∀ pubKey s, rc.validator pubKey = some s →
    ∃ share, R.registered share ∧ share.validatorPubKey = pubKey ∧ s.committee = share.operatorIDs

variable {R} {n n' : Shares} {net : Validation.Network} {rc : Receipt} {msgID : Bytes}
    {ci : CommitteeInfo}
  {member : CommitteeMember}

theorem members_of_operatorOf (hn : (Shares.machine R).Reachable n)
    (hmember : n.validatorsMap.operatorOf msgID = some member) :
    ∃ share, R.registered share ∧ member.members = share.operatorIDs ∧
      if committeeRole (getRoleType msgID) then
        share.committeeID = (getDutyExecutorID msgID).drop 16
      else share.validatorPubKey = getDutyExecutorID msgID := by
  have hmap := (Shares.builtFrom_and_setUpFrom hn).2
  unfold ValidatorsMap.operatorOf at hmember
  split at hmember
  · obtain ⟨vc, hvc, rfl⟩ := Option.map_eq_some_iff.1 hmember
    obtain ⟨share, hshare, hid, hmembers⟩ := hmap.committee _ vc hvc
    exact ⟨share, hshare, hmembers, by rwa [if_pos ‹_›]⟩
  · obtain ⟨v, hv, rfl⟩ := Option.map_eq_some_iff.1 hmember
    obtain ⟨hshare, hpubKey, hmembers⟩ := hmap.validator _ v hv
    exact ⟨v.share, hshare, hmembers, by rwa [if_neg ‹_›]⟩

/-- **The two lists** are the same for a validator. For a committee one is the other, sorted. -/
theorem committee_of_members (hn : (Shares.machine R).Reachable n)
    (hn' : (Shares.machine R).Reachable n') (hrc : ReadsShares R n rc)
    (hci : getCommitteeAndValidatorIndices net rc msgID = .ok ci)
    (hmember : n'.validatorsMap.operatorOf msgID = some member) :
    if committeeRole (getRoleType msgID) then
      ci.committee.Pairwise (· ≤ ·) ∧ ci.committee.Perm member.members
    else ci.committee = member.members := by
  obtain ⟨share, hshare, hmembers, hid⟩ := members_of_operatorOf hn' hmember
  have hcommittee := committee_of_getCommitteeAndValidatorIndices hci
  rw [hmembers]
  split
  · next hrole =>
    rw [if_pos hrole] at hid hcommittee
    obtain ⟨c, hc, hoperators, -⟩ := hcommittee
    obtain ⟨stored, hstored, hsame⟩ := hrc.committee _ c hc
    rw [hoperators, hsame]
    exact (Shares.builtFrom_and_setUpFrom hn).1.operators hshare (hid ▸ hstored)
  · next hrole =>
    rw [if_neg hrole] at hid hcommittee
    obtain ⟨s, hs, hoperators, -⟩ := hcommittee
    obtain ⟨share', hshare', hpubKey, hsame⟩ := hrc.validator _ s hs
    rw [hoperators, hsame]
    exact R.one_share hshare' hshare (hpubKey.trans hid.symm)

variable [SsvSpec]

/-- **Agreement and rotation.** The leaders that validation of a message and an instance of its
runners compute agree exactly if the message is a validator's, the height is past the Boole fork, or
the runners' operators ascend. Every operator leads one of `n` consecutive rounds. -/
theorem leaders_agree_iff (hn : (Shares.machine R).Reachable n)
    (hn' : (Shares.machine R).Reachable n') (hrc : ReadsShares R n rc)
    (hci : getCommitteeAndValidatorIndices net rc msgID = .ok ci) {i : Instance}
    (hoperator : n'.validatorsMap.operatorOf msgID = some i.state.committeeMember)
    (hproposerF : i.config.proposerF = proposerF net) :
    ((∀ round, firstRound ≤ round →
        proposer i.getHeight round ci.committee net = some (i.proposerForRound round)) ↔
      committeeRole (getRoleType msgID) = false ∨ net.booleForkAtSlot i.getHeight ∨
        i.state.committeeMember.members.Pairwise (· ≤ ·)) ∧
    ∀ op ∈ i.state.committeeMember.members, ∀ start, firstRound ≤ start →
      ((Finset.Ico start (start + i.state.committeeMember.members.length)).filter
        fun round ↦ proposer i.getHeight round ci.committee net = some op).card = 1 ∧
      ((Finset.Ico start (start + i.state.committeeMember.members.length)).filter
        fun round ↦ i.proposerForRound round = op).card = 1 := by
  obtain ⟨share, hshare, hmembers, -⟩ := members_of_operatorOf hn' hoperator
  have hne : i.state.committeeMember.members ≠ [] := hmembers ▸ R.ne_nil hshare
  have hnodup : i.state.committeeMember.members.Nodup := hmembers ▸ R.nodup hshare
  have hlists := committee_of_members hn hn' hrc hci hoperator
  have hleads {round : ℕ} (hround : firstRound ≤ round) :=
    some_proposerForRound hproposerF hne hround
  refine ⟨?_, fun op hop start hstart ↦ ⟨?_, ?_⟩⟩
  · have hsame : (∀ round, firstRound ≤ round →
          proposer i.getHeight round ci.committee net = some (i.proposerForRound round)) ↔
        ∀ round, firstRound ≤ round → proposer i.getHeight round ci.committee net =
          proposer i.getHeight round i.state.committeeMember.members net :=
      forall₂_congr fun round hround ↦ by rw [hleads hround]
    rw [hsame]
    cases hrole : committeeRole (getRoleType msgID) with
    | false =>
      rw [hrole, if_neg Bool.false_ne_true] at hlists
      simp only [hlists, implies_true, true_or]
    | true =>
      rw [hrole, if_pos rfl] at hlists
      rw [forall_proposer_sorted_iff hlists.1 hlists.2]
      simp only [Bool.true_eq_false, false_or]
  · have hperm : ci.committee.Perm i.state.committeeMember.members := by
      split at hlists
      · exact hlists.2
      · rw [hlists]
    rw [← hperm.length_eq]
    exact card_leads_eq_one (hperm.nodup_iff.2 hnodup) (hperm.mem_iff.2 hop) hstart
  · have hcard : ((Finset.Ico start (start + i.state.committeeMember.members.length)).filter
        fun round ↦ proposer i.getHeight round i.state.committeeMember.members net = some op).card =
          1 :=
      card_leads_eq_one hnodup hop hstart
    rw [← hcard]
    refine congrArg Finset.card (Finset.filter_congr fun round hround ↦ ?_)
    rw [← hleads (hstart.trans (Finset.mem_Ico.1 hround).1), Option.some.injEq]

end Ssv.Registry

/-! ### A share whose operators are not in order -/

namespace Ssv.Registry.Reference

open Validation Validation.Reference

local instance leadersSpec : SsvSpec := Ssv.Reference.spec

/-- A share that lists the operators of its committee as `3, 1, 2, 4`. -/
def share : SSVShare where
  validatorIndex := 17
  validatorPubKey := List.replicate 48 7
  committee := [3, 1, 2, 4].map fun op ↦ { sharePubKey := [], signer := op }
  domainType := [0, 0, 0, 1]
  status := .activeOngoing
  ownerAddress := 0

def registrations : Registrations where
  registered s := s = share
  nodup := by rintro _ rfl; decide
  ne_nil := by rintro _ rfl; decide
  one_committee := by rintro _ _ rfl rfl _; exact .refl _
  one_share := by rintro _ _ rfl rfl _; rfl

def startEnv : StartEnv where
  validateShareCommittee := .ok ()
  getOperatorData op := .ok (some { id := op, publicKey := [], ownerAddress := 0 })
  decodeString := .ok
  ownOperatorData := { id := 1, publicKey := [], ownerAddress := 0 }
  setupRunners := .ok ()

def node : Shares :=
  (Shares.next ⟨.empty, .new⟩ (.handleShareAdded share)).next (.onShareInit startEnv share)

theorem node_reachable : (Shares.machine registrations).Reachable node :=
  ((Machine.Reachable.initial rfl).step (a := ShareCall.handleShareAdded share) rfl).step
    (a := ShareCall.onShareInit startEnv share) rfl

def msgID : Bytes := [0, 0, 0, 1] ++ [0, 0, 0, 0] ++ List.replicate 16 0 ++ share.committeeID

def storeReceipt : Receipt :=
  { receipt "peer" 0 with
    committee := fun id ↦ (node.validatorStore.byCommitteeID id).map fun c ↦
      { operators := c.operators, indices := c.indices
        booleCommitteeSubnet := 5, alanCommitteeSubnet := 5 } }

theorem readsShares : ReadsShares registrations node storeReceipt where
  committee id c hc := by
    obtain ⟨stored, hstored, rfl⟩ := Option.map_eq_some_iff.1 hc
    exact ⟨stored, hstored, rfl⟩
  validator := nofun

def committeeInfo : CommitteeInfo where
  committeeID := share.committeeID
  committee := [1, 2, 3, 4]
  validatorIndices := [17]
  subnet := 5
  subnetAlan := 5

def committeeMember : CommitteeMember where
  operatorID := 1
  faultyNodes := 1
  committee := [3, 1, 2, 4].map fun op ↦ { operatorID := op, ssvOperatorPubKey := [] }

/-- An instance of theirs, for the first height. -/
def committeeInstance : Instance :=
  .newInstance { proposerF := proposerF network, network := fun _ _ _ ↦ .ok (), cutOffRound := 12 }
    committeeMember msgID firstHeight fun _ _ ↦ .ok []

theorem getCommittee_msgID :
    getCommitteeAndValidatorIndices network storeReceipt msgID = .ok committeeInfo := by
  rfl

theorem operatorOf_msgID :
    node.validatorsMap.operatorOf msgID = some committeeInstance.state.committeeMember := by
  rfl

/-- Operator `3`, who leads the runners' first round, leads one of the first four in validation. -/
theorem leaders_agree_iff_unorderedShare :
    ((Finset.Ico 1 5).filter fun round ↦
      proposer firstHeight round [1, 2, 3, 4] network = some 3).card = 1 :=
  ((leaders_agree_iff node_reachable node_reachable readsShares getCommittee_msgID operatorOf_msgID
    rfl).2 3 (by decide) 1 (by decide)).1

/-- Before the fork operator `1` leads the first round for validation, and `3` for the runners. -/
theorem leaders_differ_unorderedShare :
    (Shares.machine registrations).Reachable node ∧ ReadsShares registrations node storeReceipt ∧
    getCommitteeAndValidatorIndices network storeReceipt msgID = .ok committeeInfo ∧
    node.validatorsMap.operatorOf msgID = some committeeInstance.state.committeeMember ∧
    proposer committeeInstance.getHeight firstRound committeeInfo.committee network = some 1 ∧
    committeeInstance.proposerForRound firstRound = 3 :=
  ⟨node_reachable, readsShares, getCommittee_msgID, operatorOf_msgID, by decide, by decide⟩

end Ssv.Registry.Reference
