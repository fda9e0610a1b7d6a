import SsvNode.Validation.ReferenceSpec
import SsvNode.Validation.Steps

/-!
# What a message does at a seat

A **seat** is an operator's place in a committee, under a message ID. `Plan.after` is what an
accepted message makes of the state at a seat of one of its signers, and `Plan.Passes` what its
checks say of that state. The places are those of the list the state was made for (`seating`): a
message with **the same committee in another order** is looked up at the places of others.
-/

namespace Ssv.Validation

open ValidationSpec Checks List Option

/-! ### Indices -/

theorem foldl_signerIndex (l : List (OperatorID × ℕ)) (signer : OperatorID) (idx : ℕ) :
    let r := l.foldl (fun idx p ↦ if p.1 = signer then p.2 else idx) idx
    (r = idx ∧ ∀ p ∈ l, p.1 ≠ signer) ∨ (signer, r) ∈ l := by
  induction l generalizing idx with
  | nil => exact .inl ⟨rfl, nofun⟩
  | cons p l ih =>
    rw [foldl_cons]
    split
    · next hp =>
      rcases ih p.2 with ⟨hr, -⟩ | hmem
      · refine .inr ?_
        rw [hr, ← hp]
        exact .head _
      · exact .inr (.tail _ hmem)
    · next hp =>
      rcases ih idx with ⟨hr, hall⟩ | hmem
      · exact .inl ⟨hr, forall_mem_cons.2 ⟨hp, hall⟩⟩
      · exact .inr (.tail _ hmem)

variable {committee : List OperatorID} {signer : OperatorID}

theorem getElem?_signerIndices
    (h : signer ∈ committee) : committee[signerIndices committee signer]? = some signer := by
  obtain ⟨i, hi, hget⟩ := getElem_of_mem h
  have hpair : (signer, i) ∈ committee.zipIdx :=
    mem_zipIdx_iff_getElem?.2 (by rw [getElem?_eq_getElem hi, hget])
  rcases foldl_signerIndex committee.zipIdx signer 0 with ⟨-, hall⟩ | hmem
  · exact absurd rfl (hall _ hpair)
  · exact mem_zipIdx_iff_getElem?.1 hmem

theorem signerIndices_lt
    (h : signer ∈ committee) : signerIndices committee signer < committee.length :=
  (List.getElem?_eq_some_iff.1 (getElem?_signerIndices h)).1

theorem signerIndices_inj {signer' : OperatorID} (h : signer ∈ committee)
    (h' : signer' ∈ committee)
    (heq : signerIndices committee signer = signerIndices committee signer') :
    signer = signer' := by
  have hget := getElem?_signerIndices h
  rw [heq, getElem?_signerIndices h'] at hget
  exact (some.inj hget).symm

/-! ### Recording at a seat -/

/-- Record in the state of a slot, which is put in place if need be. -/
def OperatorState.recordIn (os : OperatorState) (slot epoch : ℕ) (fresh : SignerStateForSlotRound)
    (record : SignerStateForSlotRound → SignerStateForSlotRound) : OperatorState :=
  match os.getSignerStateForSlot slot with
  | none => (os.setSignerStateForSlot slot epoch fresh).storeSignerState slot (record fresh)
  | some s => os.storeSignerState slot (record s)

namespace Plan

def slot : Plan → ℕ
  | consensus _ _ msg => msg.height
  | partialSignature _ _ m _ => m.slot

/-- The slot state that the first message of a slot finds. -/
def fresh : Plan → SignerStateForSlotRound
  | consensus _ _ msg => .new msg.height msg.round
  | partialSignature _ _ m _ => .new m.slot firstRound

def record (rc : Receipt) : Plan → SignerStateForSlotRound → SignerStateForSlotRound
  | consensus signed _ msg => fun s ↦ ((processSignerState rc signed msg).run
      (if msg.round > s.round then s.reset msg.height msg.round else s)).state
  | partialSignature _ _ m _ => fun s ↦ ((processPartialSignerState rc m).run s).state

/-- What the message makes of the state at a seat of one of its signers. -/
def after (net : Network) (rc : Receipt) (p : Plan) (os : OperatorState) : OperatorState :=
  os.recordIn p.slot (net.estimatedEpochAtSlot p.slot) p.fresh (p.record rc)

end Plan

section

variable {net : Network} {rc : Receipt} {st : ValidatorState}

theorem updateSignerConsensusState_state (signed : SignedSSVMessage) (msg : Message)
    (ci : CommitteeInfo) (signer : OperatorID) (st : ValidatorState) :
    ((updateSignerConsensusState net rc signed msg ci signer).run st).state =
      st.setOperatorState (ci.signerIndex signer)
        ((Plan.consensus signed ci msg).after net rc
          (st.operatorState (ci.signerIndex signer))) := by
  change (updateSignerConsensusState net rc signed msg ci signer).wp (fun st' _ _ ↦ st' = _) st
  unfold updateSignerConsensusState Plan.after OperatorState.recordIn
  simp only [Act.wp_bind, Act.wp_read]
  cases hold : (st.operatorState (ci.signerIndex signer)).getSignerStateForSlot msg.height with
  | none =>
    refine Act.wp_onPart.2 ?_
    simp only [Act.wp_iff, Plan.slot, hold, Plan.fresh, Plan.record, SignerStateForSlotRound.new,
      gt_iff_lt, lt_irrefl, if_false]
  | some =>
    refine Act.wp_onPart.2 ?_
    simp only [Act.wp_iff, Plan.slot, hold, Plan.record]

theorem updatePartialSignatureState_state (signed : SignedSSVMessage) (m : PartialSignatureMessages)
    (ci : CommitteeInfo) (signer : OperatorID) (st : ValidatorState) :
    ((updatePartialSignatureState net rc m signer ci).run st).state =
      st.setOperatorState (ci.signerIndex signer)
        ((Plan.partialSignature signed ci m signer).after net rc
          (st.operatorState (ci.signerIndex signer))) := by
  change (updatePartialSignatureState net rc m signer ci).wp (fun st' _ _ ↦ st' = _) st
  unfold updatePartialSignatureState Plan.after OperatorState.recordIn
  simp only [Act.wp_bind, Act.wp_read]
  cases hold : (st.operatorState (ci.signerIndex signer)).getSignerStateForSlot m.slot with
  | none =>
    refine Act.wp_onPart.2 ?_
    simp only [Act.wp_iff, Plan.slot, hold, Plan.fresh, Plan.record]
  | some =>
    refine Act.wp_onPart.2 ?_
    simp only [Act.wp_iff, Plan.slot, hold, Plan.record]

def ValidatorState.modifyAt (st : ValidatorState) (g : OperatorState → OperatorState) (idx : ℕ) :
    ValidatorState :=
  st.setOperatorState idx (g (st.operatorState idx))

section

variable (g : OperatorState → OperatorState)

theorem peekOperatorState_modifyAt (i idx : ℕ) :
    (st.modifyAt g i).peekOperatorState idx =
      if i = idx ∧ idx < st.operators.length then some (g (st.operatorState idx))
      else st.peekOperatorState idx := by
  unfold ValidatorState.modifyAt ValidatorState.setOperatorState ValidatorState.peekOperatorState
  by_cases hi : i = idx
  · subst hi
    by_cases hlt : i < st.operators.length
    · rw [if_pos ⟨rfl, hlt⟩, getElem?_set_self hlt]
      rfl
    · rw [if_neg fun h ↦ hlt h.2]
      rw [getElem?_eq_none (by rw [length_set]; omega), getElem?_eq_none (by omega)]
  · rw [if_neg fun h ↦ hi h.1, getElem?_set_ne hi]

theorem operatorState_modifyAt_of_ne {i idx : ℕ} (h : i ≠ idx) :
    (st.modifyAt g i).operatorState idx = st.operatorState idx := by
  unfold ValidatorState.modifyAt ValidatorState.setOperatorState ValidatorState.operatorState
  rw [getElem?_set_ne h]

theorem committeeID_foldl_modifyAt (is : List ℕ)
    (st : ValidatorState) : (is.foldl (·.modifyAt g ·) st).committeeID = st.committeeID := by
  induction is generalizing st with
  | nil => rfl
  | cons i is ih => exact ih _

theorem peekOperatorState_foldl_modifyAt {is : List ℕ} (hnodup : is.Nodup)
    (st : ValidatorState) (idx : ℕ) :
    (is.foldl (·.modifyAt g ·) st).peekOperatorState idx =
      if idx ∈ is ∧ idx < st.operators.length then some (g (st.operatorState idx))
      else st.peekOperatorState idx := by
  induction is generalizing st with
  | nil => simp
  | cons i is ih =>
    obtain ⟨hi, hnodup⟩ := nodup_cons.1 hnodup
    have hlength : (st.modifyAt g i).operators.length = st.operators.length := length_set
    rw [foldl_cons, ih hnodup, hlength, peekOperatorState_modifyAt]
    by_cases hmem : idx ∈ is
    · have hne : i ≠ idx := fun h ↦ hi (h ▸ hmem)
      rw [operatorState_modifyAt_of_ne g hne]
      simp only [hmem, mem_cons, or_true, true_and, hne, false_and, if_false]
    · simp only [hmem, false_and, if_false, mem_cons, or_false, eq_comm (a := idx)]

end

end

/-! ### The signers of a message -/

theorem pairwise_lt_of_validateSigners {rc : Receipt} {prev : OperatorID}
    {signers : List OperatorID} (h : validateSigners rc prev signers = .ok ())
    (hsorted : signers.Pairwise (· ≤ ·)) : signers.Pairwise (· < ·) := by
  induction signers generalizing prev with
  | nil => exact .nil
  | cons a rest ih =>
    obtain ⟨hle, hsorted⟩ := pairwise_cons.1 hsorted
    simp only [validateSigners, bind_eq_ok, exists_check, require_eq_ok] at h
    have hrest := ih h.2.2.2 hsorted
    refine pairwise_cons.2 ⟨fun x hx ↦ ?_, hrest⟩
    refine lt_of_le_of_ne (hle x hx) fun heq ↦ ?_
    subst heq
    -- An equal signer would stand first in the rest, and is refused there.
    cases rest with
    | nil => cases hx
    | cons b =>
      have hne : b ≠ a := by
        have hb := h.2.2.2
        simp only [validateSigners, bind_eq_ok, exists_check,
          require_eq_ok] at hb
        exact hb.2.1
      rcases mem_cons.1 hx with rfl | hx
      · exact hne rfl
      · exact not_le_of_gt ((pairwise_cons.1 hrest).1 a hx) (hle b (.head _))

section

variable [ValidationSpec] {net : Network} {rc : Receipt}

variable {message : Option WireMessage} {signed : SignedSSVMessage} {p : Plan} {signer : OperatorID}
  {st : ValidatorState} {key : Bytes}

theorem admission_signers
    (h : admission net rc message = .ok (signed, ci)) : signed.operatorIDs.Pairwise (· < ·) := by
  simp only [admission, bind_eq_ok, exists_check, pure_eq_ok] at h
  obtain ⟨-, signed', hsigned, -, -, ci', -, -, -, heq⟩ := h
  cases heq
  cases message with
  | none => cases hsigned
  | some =>
    simp only [validateSignedSSVMessage, bind_eq_ok, exists_check,
      require_eq_ok] at hsigned
    obtain ⟨-, -, -, hsorted, -, hsigners, hsigned⟩ := hsigned
    split at hsigned
    · cases hsigned
    · cases hsigned
      exact pairwise_lt_of_validateSigners hsigners hsorted

section

variable (h : plan net rc message = .ok p)
include h

theorem plan_indices_nodup : (p.signed.operatorIDs.map p.ci.signerIndex).Nodup := by
  obtain ⟨hadmitted, -⟩ := plan_cases h
  have hnodup : p.signed.operatorIDs.Nodup := (admission_signers hadmitted).imp fun hlt ↦
    ne_of_lt hlt
  have hmem := (admission_spec hadmitted).2.2
  exact hnodup.map_on fun a ha b hb heq ↦ signerIndices_inj (hmem a ha) (hmem b hb) heq

theorem Plan.update_state (st : ValidatorState) :
    ((p.update net rc).run st).state =
      (p.signed.operatorIDs.map p.ci.signerIndex).foldl (·.modifyAt (p.after net rc) ·) st := by
  have hvalid := plan_valid h
  cases p with
  | consensus =>
    rw [foldl_map]
    refine (Act.state_forM (fun signer _ st ↦ ?_) st).trans ?_
    · exact updateSignerConsensusState_ok hvalid st
    · simp only [updateSignerConsensusState_state]
      rfl
  | partialSignature signed ci m signer =>
    have hsigner : (Plan.partialSignature signed ci m signer).signed.operatorIDs = [signer] :=
      hvalid.2
    rw [hsigner]
    exact updatePartialSignatureState_state signed m ci signer st

theorem Plan.committeeID_update (st : ValidatorState) :
    ((p.update net rc).run st).state.committeeID = st.committeeID := by
  rw [p.update_state h]
  exact committeeID_foldl_modifyAt _ _ st

end

/-! ### Seats -/

/-- An operator's place in a committee, under a message ID. -/
structure Seat where
  key : Bytes
  committeeID : Bytes
  signer : OperatorID
  deriving DecidableEq

/-- What the state of a committee says of the operator at a seat. -/
def Seat.peek (seat : Seat) (operators : List OperatorID) (st : ValidatorState) :
    Option OperatorState :=
  if st.committeeID = seat.committeeID ∧ seat.signer ∈ operators then
    st.peekOperatorState (signerIndices operators seat.signer)
  else none

/-- What is remembered at a seat; `seating` has the order of the places under each message ID. -/
def seatState (seating : Bytes → List OperatorID) (σ : States) (seat : Seat) :
    Option OperatorState :=
  (σ seat.key).bind (seat.peek (seating seat.key))

/-- There is a state for the committee of the message under its ID. -/
def Plan.seated (p : Plan) (σ : States) : Bool :=
  (σ p.key).any fun st ↦ st.committeeID = p.ci.committeeID

/-- A fresh state has the places in the order of the message. -/
def Plan.reseat (p : Plan) (σ : States) (seating : Bytes → List OperatorID) :
    Bytes → List OperatorID :=
  fun key ↦ if key = p.key ∧ !p.seated σ then p.ci.committee else seating key

/-- The operators are listed in the order of the places, if there is a state. -/
def Plan.keepsOrder (p : Plan) (σ : States) (seating : Bytes → List OperatorID) : Bool :=
  !p.seated σ || decide (p.ci.committee = seating p.key)

/-- The message is one of the operator at the seat. -/
def Plan.At (p : Plan) (seat : Seat) : Prop :=
  p.key = seat.key ∧ p.ci.committeeID = seat.committeeID ∧ seat.signer ∈ p.signed.operatorIDs

instance {p : Plan} {seat : Seat} : Decidable (p.At seat) := inferInstanceAs (Decidable (_ ∧ _ ∧ _))

/-- The checks of a message against a slot state of its signer. -/
def Plan.checkSlot (rc : Receipt) : Plan → SignerStateForSlotRound → Except Err Unit
  | consensus signed _ msg, s => validateSignerQBFTLogic rc signed msg s
  | partialSignature _ _ m _, s => validatePartialSignatureMessageLimit m rc.receivedFrom s

/-- What the checks of a message say about the state at a signer's seat. -/
structure Plan.Passes (net : Network) (rc : Receipt) (p : Plan) (os : Option OperatorState) :
    Prop where
  slot : ∀ s, peekSignerState os p.slot = some s → p.checkSlot rc s = .ok ()
  monotonic : monotonicSlotRole (getRoleType p.key) = true → peekMaxSlot os ≤ p.slot
  time : validateSlotTime net p.slot (getRoleType p.key) rc.receivedAt = .ok ()
  duties : validateDutyCount net rc (getRoleType p.key) (getDutyExecutorID p.key) p.slot
    p.ci.validatorIndices os = .ok ()

omit [ValidationSpec] in
theorem signerLogic_of_validateQBFTLogic {msg : Message}
    (h : validateQBFTLogic net rc signed msg ci st = .ok ())
    (hsigner : signer ∈ signed.operatorIDs) (s : SignerStateForSlotRound)
    (hs : peekSignerState (st.peekOperatorState (ci.signerIndex signer)) msg.height = some s) :
    validateSignerQBFTLogic rc signed msg s = .ok () := by
  unfold validateQBFTLogic at h
  split at h
  · split at h
    · cases h
    · simp only [bind_eq_ok, exists_check, forM_eq_ok] at h
      have hturn := h.2 signer hsigner
      rwa [hs] at hturn
  · have hturn := forM_eq_ok.1 h signer hsigner
    rwa [hs] at hturn

theorem passes_consensus {msg : Message} (h :
    checkConsensusMessage net rc signed msg ci st = .ok ())
      (hsigner : signer ∈ signed.operatorIDs) :
    (Plan.consensus signed ci msg).Passes net rc
      (st.peekOperatorState (ci.signerIndex signer)) := by
  simp only [checkConsensusMessage, bind_eq_ok, exists_check] at h
  obtain ⟨hlogic, hduty, -, -⟩ := h
  simp only [validateQBFTMessageByDutyLogic, when_eq_ok, bind_eq_ok,
    exists_check, forM_eq_ok, require_eq_ok] at hduty
  obtain ⟨hmonotonic, -, htime, -, hduties⟩ := hduty
  refine ⟨signerLogic_of_validateQBFTLogic hlogic hsigner, fun hrole ↦ ?_, htime,
    hduties signer hsigner⟩
  · rw [monotonicSlotRole, Bool.and_eq_true] at hrole
    exact Nat.le_of_not_lt (hmonotonic hrole.1 signer hsigner)

theorem passes_partialSignature {m : PartialSignatureMessages}
    (h : checkPartialSignatureMessage net rc signed m signer ci st = .ok ()) :
    (Plan.partialSignature signed ci m signer).Passes net rc
      (st.peekOperatorState (ci.signerIndex signer)) := by
  rw [checkPartialSignatureMessage, bind_eq_ok, exists_check] at h
  have hduty := h.1
  simp only [validatePartialSigMessagesByDutyLogic, when_bind_eq_ok, when_eq_ok,
    bind_eq_ok, exists_check, require_eq_ok] at hduty
  obtain ⟨-, hmonotonic, -, hduty⟩ := hduty
  have hmax : monotonicSlotRole (getRoleType signed.ssvMessage.msgID) = true →
      peekMaxSlot (st.peekOperatorState (ci.signerIndex signer)) ≤ m.slot := by
    intro hrole
    have := hmonotonic hrole
    omega
  split at hduty
  · next hnone =>
    simp only [bind_eq_ok, exists_check] at hduty
    refine ⟨fun s hs ↦ ?_, hmax, hduty.1, hduty.2.1⟩
    cases hnone.symm.trans hs
  · next s hsome =>
    simp only [bind_eq_ok, exists_check] at hduty
    refine ⟨fun s' hs' ↦ ?_, hmax, hduty.2.1, hduty.2.2.1⟩
    obtain rfl := some.inj (hsome.symm.trans hs')
    exact hduty.1

theorem Plan.passes_of_check (h : plan net rc message = .ok p)
    (hcheck : p.check net rc st = .ok ()) (hsigner : signer ∈ p.signed.operatorIDs) :
    p.Passes net rc (st.peekOperatorState (p.ci.signerIndex signer)) := by
  have hvalid := plan_valid h
  cases p with
  | consensus => exact passes_consensus hcheck hsigner
  | partialSignature signed ci m signer' =>
    obtain rfl : signer = signer' := by
      rw [show (Plan.partialSignature signed ci m signer').signed.operatorIDs = _ from hvalid.2]
        at hsigner
      exact mem_singleton.1 hsigner
    exact passes_partialSignature hcheck

/-! ### The shape of the states -/

variable (net) in
/-- The state has the sizes that `freshState` gives it. -/
structure FitsKey (operators : List OperatorID) (key : Bytes) (st : ValidatorState) : Prop where
  operators : st.operators.length = operators.length
  slots : st.storedSlotCount = storedSlotCount net (getRoleType key)
  epochs : st.storedEpochCount = storedEpochCount (getRoleType key)

variable (net) in
/-- Every state has a place for each operator of its seating. -/
def States.WellFormed (seating : Bytes → List OperatorID) (σ : States) : Prop :=
  ∀ key st, σ key = some st → FitsKey net (seating key) key st

variable {seating : Bytes → List OperatorID} {operators : List OperatorID} {σ : States}
    {seat : Seat}
  {ci : CommitteeInfo}

variable (net) in
/-- What `validatorState` finds for a message: the state of its committee, or a fresh one. -/
theorem Plan.validatorState_cases (p : Plan) (σ : States) :
    (p.seated σ = true ∧ σ p.key = some (validatorState net σ p.key p.ci)) ∨
    (p.seated σ = false ∧ validatorState net σ p.key p.ci = freshState net (getRoleType p.key)
      p.ci) := by
  unfold seated validatorState
  cases σ p.key with
  | none => exact .inr ⟨rfl, rfl⟩
  | some st =>
    by_cases hid : st.committeeID = p.ci.committeeID
    · exact .inl ⟨by simp [hid], by simp only [if_pos hid]⟩
    · exact .inr ⟨by simp [hid], by simp only [if_neg hid]⟩

omit [ValidationSpec] in
/-- A message that keeps the order finds the places in its own order. -/
theorem Plan.reseat_self (h : p.keepsOrder σ seating = true) :
    p.reseat σ seating p.key = p.ci.committee := by
  unfold reseat
  unfold keepsOrder at h
  cases hseated : p.seated σ with
  | false => simp
  | true =>
    rw [hseated, Bool.not_true, Bool.false_or, decide_eq_true_eq] at h
    simpa using h.symm

omit [ValidationSpec] in
theorem Plan.reseat_of_ne (h : key ≠ p.key) : p.reseat σ seating key = seating key :=
  if_neg fun hkey ↦ h hkey.1

theorem fits_validatorState (hσ : σ.WellFormed net seating) (h : p.keepsOrder σ seating = true) :
    FitsKey net p.ci.committee p.key (validatorState net σ p.key p.ci) := by
  rcases p.validatorState_cases net σ with ⟨hseated, hst⟩ | ⟨-, hfresh⟩
  · unfold Plan.keepsOrder at h
    rw [hseated, Bool.not_true, Bool.false_or, decide_eq_true_eq] at h
    exact h ▸ hσ _ _ hst
  · rw [hfresh]
    exact ⟨List.length_replicate, rfl, rfl⟩

theorem FitsKey.foldl_modifyAt
    (h : FitsKey net operators key st) (g : OperatorState → OperatorState) (is : List ℕ) :
    FitsKey net operators key (is.foldl (·.modifyAt g ·) st) := by
  induction is generalizing st with
  | nil => exact h
  | cons i is ih =>
    refine ih ⟨?_, h.slots, h.epochs⟩
    exact length_set.trans h.operators

theorem States.WellFormed.set (hσ : σ.WellFormed net seating) (h : p.keepsOrder σ seating = true)
    (hst : FitsKey net p.ci.committee p.key st) :
    (σ.set p.key st).WellFormed net (p.reseat σ seating) := by
  intro key' st' hst'
  unfold States.set at hst'
  split at hst'
  · next hkey =>
    cases hst'
    rw [hkey, Plan.reseat_self h]
    exact hst
  · next hkey =>
    rw [Plan.reseat_of_ne hkey]
    exact hσ key' st' hst'

theorem operatorState_eq_getD (h : FitsKey net operators key st)
    (idx : ℕ) : st.operatorState idx = (st.peekOperatorState idx).getD
      (.new (storedSlotCount net (getRoleType key)) (storedEpochCount (getRoleType key))) := by
  rw [← h.slots, ← h.epochs]
  rfl

end

end Ssv.Validation
