import SsvNode.Validation.Validator

/-!
# What recording a message does

One specification for each of the updates of a slot state, and what is found in the ring of slot
states after one is put there. An update that records a message of a valid kind does not fail.
-/

namespace Ssv.Validation

open SignerStateForSlotRound SeenMsgTypes List

/-! ### Bits -/

theorem SeenIdx.bit_lt (i : SeenIdx) : i.bit < 8 := by
  cases i <;> decide

theorem SeenIdx.bit_inj {i j : SeenIdx} : i.bit = j.bit ↔ i = j := by
  cases i <;> cases j <;> decide

variable (c : SeenMsgTypes)

theorem SeenMsgTypes.reached_eq_getLsbD (i : SeenIdx) :
    c.reached i = c.getLsbD i.bit := by
  have htwoPow : BitVec.twoPow 8 i.bit ≠ 0#8 := by
    cases i <;> decide
  unfold reached
  rw [← BitVec.twoPow_eq, BitVec.and_twoPow]
  cases c.getLsbD i.bit with
  | false => simp
  | true => simpa using htwoPow

theorem SeenMsgTypes.reached_record (i j : SeenIdx) :
    (c.record i).reached j = (decide (i = j) || c.reached j) := by
  rw [reached_eq_getLsbD, reached_eq_getLsbD, record, ← BitVec.twoPow_eq, BitVec.getLsbD_or,
    BitVec.getLsbD_twoPow, Bool.or_comm]
  simp only [i.bit_lt, decide_true, Bool.true_and, SeenIdx.bit_inj]

theorem SeenMsgTypes.reached_record_self (i : SeenIdx) :
    (c.record i).reached i = true := by
  rw [reached_record, decide_eq_true rfl, Bool.true_or]

theorem SeenMsgTypes.reached_record_of_reached {c : SeenMsgTypes} {i j : SeenIdx}
    (h : c.reached j = true) : (c.record i).reached j = true := by
  rw [reached_record, h, Bool.or_true]

theorem reached_recordConsensusMessage {c c' : SeenMsgTypes} {signers : ℕ} {msgType : MessageType}
    {j : SeenIdx} (h : c.recordConsensusMessage signers msgType = .ok c')
    (hj : c.reached j = true) : c'.reached j = true := by
  cases msgType with
  | other => cases h
  | commit =>
    simp only [recordConsensusMessage, Except.ok.injEq] at h
    subst h
    split
    · exact reached_record_of_reached hj
    · exact hj
  | proposal | prepare | roundChange =>
    cases h
    exact reached_record_of_reached hj

theorem recordConsensusMessage_ok {c : SeenMsgTypes} {signers : ℕ} {msgType : MessageType}
    (h : validConsensusMsgType msgType = true) :
    ∃ c', c.recordConsensusMessage signers msgType = .ok c' := by
  cases msgType with
  | other => cases h
  | proposal | prepare | commit | roundChange => exact ⟨_, rfl⟩

variable {m : PartialSignatureMessages}

theorem recordPartialSignatureMessage_ok (h : validPartialSigMsgType m.type = true) :
    ∃ idx, partialIdx m.type = .ok idx ∧ ∀ c : SeenMsgTypes,
      c.recordPartialSignatureMessage m = .ok (idx.elim c c.record) := by
  unfold recordPartialSignatureMessage
  cases htype : m.type with
  | other => rw [htype] at h; cases h
  | _ => exact ⟨_, rfl, fun _ ↦ rfl⟩

theorem reached_recordPartialSignatureMessage {c c' : SeenMsgTypes}
    {j : SeenIdx} (h : c.recordPartialSignatureMessage m = .ok c') (hj : c.reached j = true) :
    c'.reached j = true := by
  unfold recordPartialSignatureMessage at h
  split at h
  · cases h
  · cases h
    exact hj
  · cases h
    exact reached_record_of_reached hj

/-! ### The ring -/

namespace OperatorState

variable {os : OperatorState} {slot slot' epoch : ℕ} {s s' : SignerStateForSlotRound}

theorem slot_of_getSignerStateForSlot (h : os.getSignerStateForSlot slot = some s) :
    s.slot = slot := by
  simpa using (Option.filter_eq_some_iff.1 h).2

theorem getSignerStateForSlot_store
    (h : (os.storeSignerState slot s).getSignerStateForSlot slot' = some s') :
    (slot' = s.slot ∧ s' = s) ∨ (slot' % os.signers.length ≠ slot % os.signers.length ∧
      os.getSignerStateForSlot slot' = some s') := by
  unfold storeSignerState getSignerStateForSlot at h
  rw [length_set] at h
  by_cases hidx : slot % os.signers.length = slot' % os.signers.length
  · left
    obtain ⟨hs, hslot⟩ := Option.filter_eq_some_iff.1 h
    rw [← hidx, getElem?_set_self'] at hs
    cases hget : os.signers[slot % os.signers.length]? with
    | none => simp [hget] at hs
    | some =>
      obtain rfl : s = s' := by simpa [hget, Function.const] using hs
      exact ⟨(decide_eq_true_iff.1 hslot).symm, rfl⟩
  · right
    rw [getElem?_set_ne hidx] at h
    exact ⟨fun heq ↦ hidx heq.symm, h⟩

theorem getSignerStateForSlot_set
    (hne : slot' % (os.setSignerStateForSlot slot epoch s).signers.length ≠
      slot % (os.setSignerStateForSlot slot epoch s).signers.length)
    (h : (os.setSignerStateForSlot slot epoch s).getSignerStateForSlot slot' = some s')
    (hslot : s.slot = slot) :
    os.getSignerStateForSlot slot' = some s' := by
  rcases getSignerStateForSlot_store h with ⟨heq, -⟩ | ⟨-, hget⟩
  · exact absurd (by rw [heq, hslot]) hne
  · exact hget

theorem getSignerStateForSlot_new (slotCount epochCount slot : ℕ) :
    (new slotCount epochCount).getSignerStateForSlot slot = none := by
  unfold new getSignerStateForSlot
  cases h : (replicate slotCount (none : Option SignerStateForSlotRound))[slot %
      (replicate slotCount (none : Option SignerStateForSlotRound)).length]? with
  | none => rfl
  | some o =>
    obtain rfl := eq_of_mem_replicate (mem_of_getElem? h)
    rfl

theorem getSignerStateForSlot_getD_new (os : Option OperatorState) (slotCount epochCount slot : ℕ) :
    (os.getD (.new slotCount epochCount)).getSignerStateForSlot slot = peekSignerState os slot := by
  cases os with
  | some => rfl
  | none => exact getSignerStateForSlot_new slotCount epochCount slot

end OperatorState

/-! ### Slot states -/

/-- The state recorded for an operator of the committee in a slot. -/
def ValidatorState.signerAt (st : ValidatorState) (idx slot : ℕ) : Option SignerStateForSlotRound :=
  peekSignerState (st.peekOperatorState idx) slot

/-! ### Recording in a slot state -/

variable {net : Network} {rc : Receipt}

/-- What recording a kind of message leaves in a slot state. -/
structure RecordsType (record : SeenMsgTypes → Except Err SeenMsgTypes)
    (s s' : SignerStateForSlotRound) : Prop where
  slot : s'.slot = s.slot
  round : s'.round = s.round
  types : record s.world.seenMsgTypes = .ok s'.world.seenMsgTypes
  hashed : s'.world.hashedProposalData = s.world.hashedProposalData
  decided : s'.world.seenDecidedMsgSignersCount = s.world.seenDecidedMsgSignersCount
  proposerPreferences : s'.seenProposerPreferencesRoots = s.seenProposerPreferencesRoots
  requestAuth : s'.seenRequestAuthRoots = s.seenRequestAuthRoots

theorem recordSeenMsgTypes_spec {record : SeenMsgTypes → Except Err SeenMsgTypes}
    (h : ∀ c, ∃ c', record c = .ok c') (s : SignerStateForSlotRound) :
    (recordSeenMsgTypes rc record).wp (fun s' _ r ↦ r = .ok () ∧ RecordsType record s s') s := by
  obtain ⟨c, hc⟩ := h (s.peekPeer rc.receivedFrom).seenMsgTypes
  obtain ⟨c', hc'⟩ := h s.world.seenMsgTypes
  simp only [recordSeenMsgTypes, Act.wp_bind, Act.wp_read, Act.wp_lift, hc, hc', Act.wp_update]
  exact ⟨trivial, rfl, rfl, hc', rfl, rfl, rfl, rfl⟩

theorem updatePeerAndWorld_ite (rc : Receipt) (p : Prop) [Decidable p]
    (f : SignerState → SignerState) (s : SignerStateForSlotRound) :
    ∃ peers, (if p then updatePeerAndWorld rc f s else s) =
      { s with peers := peers, world := if p then f s.world else s.world } := by
  by_cases hp : p
  · exact ⟨_, by simp only [if_pos hp]; rfl⟩
  · exact ⟨s.peers, by simp only [if_neg hp]⟩

/-- What recording a consensus message leaves in a slot state of its round. -/
structure RecordsMessage (signed : SignedSSVMessage) (msg : Message)
    (s s' : SignerStateForSlotRound) : Prop where
  slot : s'.slot = s.slot
  round : s'.round = s.round
  types : s.world.seenMsgTypes.recordConsensusMessage signed.operatorIDs.length msg.msgType =
    .ok s'.world.seenMsgTypes
  hashed : s'.world.hashedProposalData =
    if signed.fullData.bytes ≠ [] ∧ msg.msgType = .proposal then some msg.root
    else s.world.hashedProposalData
  decided : s'.world.seenDecidedMsgSignersCount =
    if signed.operatorIDs.length > 1 then signed.operatorIDs.length
    else s.world.seenDecidedMsgSignersCount
  roots : ∀ t, s'.seenRootsFor t = s.seenRootsFor t

theorem processSignerState_spec {signed : SignedSSVMessage} {msg : Message}
    (h : validConsensusMsgType msg.msgType = true) (s : SignerStateForSlotRound) :
    (processSignerState rc signed msg).wp
      (fun s' _ r ↦ r = .ok () ∧ RecordsMessage signed msg s s') s := by
  simp only [processSignerState, Act.wp_bind, Act.wp_update]
  refine Act.wp_mono (recordSeenMsgTypes_spec (fun c ↦ recordConsensusMessage_ok h) _) ?_
  rintro s' _ r ⟨hr, hslot, hround, htypes, hhashed, hdecided, hpreferences, hauth⟩
  obtain ⟨peers₁, heq₁⟩ := updatePeerAndWorld_ite rc
    (signed.fullData.bytes ≠ [] ∧ msg.msgType = .proposal)
    ({ · with hashedProposalData := some msg.root }) s
  rw [heq₁] at hslot hround htypes hhashed hdecided hpreferences hauth
  obtain ⟨peers₂, heq₂⟩ := updatePeerAndWorld_ite rc (signed.operatorIDs.length > 1)
    ({ · with seenDecidedMsgSignersCount := signed.operatorIDs.length })
    { s with
      peers := peers₁
      world := if signed.fullData.bytes ≠ [] ∧ msg.msgType = .proposal then
        { s.world with hashedProposalData := some msg.root } else s.world }
  rw [heq₂] at hslot hround htypes hhashed hdecided hpreferences hauth
  refine ⟨hr, hslot, hround, ?_, hhashed.trans ?_, hdecided.trans ?_, fun t ↦ ?_⟩
  · rw [← htypes]
    split <;> split <;> rfl
  · split <;> split <;> rfl
  · split <;> split <;> rfl
  · simp only [seenRootsFor, hpreferences, hauth]

/-- What recording a packet leaves in a slot state. -/
structure RecordsPacket (m : PartialSignatureMessages) (s s' : SignerStateForSlotRound) : Prop where
  slot : s'.slot = s.slot
  round : s'.round = s.round
  types : s.world.seenMsgTypes.recordPartialSignatureMessage m = .ok s'.world.seenMsgTypes
  hashed : s'.world.hashedProposalData = s.world.hashedProposalData
  decided : s'.world.seenDecidedMsgSignersCount = s.world.seenDecidedMsgSignersCount
  roots : ∀ t, s'.seenRootsFor t = (s.recordRoots m).seenRootsFor t

theorem processPartialSignerState_spec
    (h : validPartialSigMsgType m.type = true) (s : SignerStateForSlotRound) :
    (processPartialSignerState rc m).wp (fun s' _ r ↦ r = .ok () ∧ RecordsPacket m s s') s := by
  obtain ⟨idx, -, hidx⟩ := recordPartialSignatureMessage_ok h
  refine Act.wp_seq (recordSeenMsgTypes_spec (fun c ↦ ⟨_, hidx c⟩) s) ?_ ?_
  · rintro s' _ e ⟨hr, -⟩
    cases hr
  · rintro s' _ _ ⟨-, hslot, hround, htypes, hhashed, hdecided, hpreferences, hauth⟩
    have hsame : (s'.recordRoots m).slot = s'.slot ∧ (s'.recordRoots m).round = s'.round ∧
        (s'.recordRoots m).world = s'.world := by
      unfold recordRoots
      cases m.type <;> exact ⟨rfl, rfl, rfl⟩
    refine Act.wp_update.2 ⟨rfl, hsame.1.trans hslot, hsame.2.1.trans hround, ?_, ?_, ?_,
      fun t ↦ ?_⟩
    · rw [hsame.2.2]
      exact htypes
    · rw [hsame.2.2, hhashed]
    · rw [hsame.2.2, hdecided]
    · simp only [recordRoots, hpreferences, hauth]
      cases m.type <;> simp only [seenRootsFor, hpreferences, hauth]

/-! ### Recording in the state of a validator -/

theorem updateSignerConsensusState_ok {signed : SignedSSVMessage} {msg : Message}
    {ci : CommitteeInfo} {signer : OperatorID} (h : validConsensusMsgType msg.msgType = true)
    (st : ValidatorState) :
    (updateSignerConsensusState net rc signed msg ci signer).wp (fun _ _ r ↦ r = .ok ()) st := by
  unfold updateSignerConsensusState
  simp only [Act.wp_bind, Act.wp_read]
  split
  · exact Act.wp_onPart.2 (Act.wp_mono (processSignerState_spec h _) fun _ _ _ hs ↦ hs.1)
  · exact Act.wp_onPart.2 (Act.wp_mono (processSignerState_spec h _) fun _ _ _ hs ↦ hs.1)

theorem updatePartialSignatureState_ok {ci : CommitteeInfo}
    {signer : OperatorID} (h : validPartialSigMsgType m.type = true) (st : ValidatorState) :
    (updatePartialSignatureState net rc m signer ci).wp (fun _ _ r ↦ r = .ok ()) st := by
  unfold updatePartialSignatureState
  simp only [Act.wp_bind, Act.wp_read]
  split
  · exact Act.wp_onPart.2 (Act.wp_mono (processPartialSignerState_spec h _) fun _ _ _ hs ↦ hs.1)
  · exact Act.wp_onPart.2 (Act.wp_mono (processPartialSignerState_spec h _) fun _ _ _ hs ↦ hs.1)

end Ssv.Validation
