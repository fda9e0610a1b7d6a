import SsvNode.Validation.Histories

/-!
# No consensus message twice

`SeenInRound` is the mark that an accepted message of a signer alone leaves: **it is of the round
reached or an earlier one, and in the round reached its bit is set**. The mark is left at the
signer's place **as the message lists the committee**; one that lists it in another order looks
elsewhere (`Reference.prepare_accepted_twice`).
-/

namespace Ssv.Validation

open ValidationSpec

/-- The consensus message, if its signer has signed it alone. -/
def Accepted.single? (a : Accepted) : Option Message :=
  match a.plan with
  | .consensus signed _ msg => if signed.operatorIDs.length = 1 then some msg else none
  | .partialSignature _ _ _ _ => none

theorem Accepted.single?_eq_some {a : Accepted} {msg : Message} (h : a.single? = some msg) :
    ∃ signed ci, a.plan = .consensus signed ci msg ∧ signed.operatorIDs.length = 1 := by
  unfold single? at h
  split at h
  · next signed ci msg' hplan =>
    split at h
    · next hlength =>
      cases h
      exact ⟨signed, ci, hplan, hlength⟩
    · cases h
  · cases h

/-- A message of a signer may come after an earlier one. -/
structure Follows (later earlier : Message) : Prop where
  round : earlier.round ≤ later.round
  type : later.msgType = earlier.msgType → later.round ≠ earlier.round
  root : later.msgType = .proposal → earlier.msgType = .proposal → later.round = earlier.round →
    later.root = earlier.root

/-! ### Bits of consensus messages -/

theorem exists_consensusLimitIdx {msgType : MessageType}
    (h : validConsensusMsgType msgType = true) :
    ∃ idx, consensusLimitIdx 1 msgType = .ok (some idx) ∧ ∀ {c c' : SeenMsgTypes},
      c.recordConsensusMessage 1 msgType = .ok c' → c'.reached idx = true := by
  cases msgType with
  | other => cases h
  | proposal | prepare | commit | roundChange =>
    refine ⟨_, rfl, fun hrecord ↦ ?_⟩
    cases hrecord
    exact SeenMsgTypes.reached_record_self _ _

/-! ### The mark of a message -/

/-- A message of its signer alone is of the round reached, with its bit set, or of an earlier one.
-/
def SeenInRound (a : Accepted) (s : SignerStateForSlotRound) : Prop :=
  ∀ msg, a.single? = some msg → msg.round ≤ s.round ∧
    (msg.round = s.round → ∀ idx, consensusLimitIdx 1 msg.msgType = .ok (some idx) →
      s.world.seenMsgTypes.reached idx = true)

theorem SeenInRound.mono {a : Accepted} {s s' : SignerStateForSlotRound} (h : SeenInRound a s)
    (hround : s'.round = s.round)
    (hbits : ∀ j, s.world.seenMsgTypes.reached j = true → s'.world.seenMsgTypes.reached j = true) :
    SeenInRound a s' := by
  intro msg hmsg
  obtain ⟨hle, hseen⟩ := h msg hmsg
  exact ⟨hround ▸ hle, fun heq idx hidx ↦ hbits idx (hseen (heq.trans hround) idx hidx)⟩

theorem SeenInRound.later {a : Accepted} {s s' : SignerStateForSlotRound} (h : SeenInRound a s)
    (hround : s.round < s'.round) : SeenInRound a s' := by
  intro msg hmsg
  have hle := (h msg hmsg).1
  exact ⟨hle.trans hround.le, fun heq ↦ absurd (heq ▸ hle) (Nat.not_le.2 hround)⟩

variable {s : SignerStateForSlotRound}

theorem single_of_validateSignerQBFTLogic {rc : Receipt} {signed : SignedSSVMessage} {msg : Message}
    (hlength : signed.operatorIDs.length = 1)
    (h : validateSignerQBFTLogic rc signed msg s = .ok ()) :
    s.round ≤ msg.round ∧ (msg.round = s.round → ∀ idx,
      consensusLimitIdx 1 msg.msgType = .ok (some idx) →
      s.world.seenMsgTypes.reached idx = false) := by
  rw [validateSignerQBFTLogic, if_pos hlength, Checks.bind_eq_ok, Checks.exists_check,
    Checks.require_eq_ok] at h
  refine ⟨Nat.not_lt.1 h.1, fun hround idx hidx ↦ ?_⟩
  have hlimit : validateConsensusMessageLimit signed msg rc.receivedFrom s = .ok () := by
    have hrest := h.2
    rw [if_pos hround] at hrest
    split at hrest
    · simp only [Checks.bind_eq_ok, Checks.exists_check] at hrest
      exact hrest.2.2
    · exact hrest
  rw [validateConsensusMessageLimit, hlength, hidx, Checks.bind_eq_ok] at hlimit
  obtain ⟨_, ⟨⟩, hlimit⟩ := hlimit
  simp only [validateLimit, Checks.bind_eq_ok, Checks.exists_check, Checks.require_eq_ok] at hlimit
  simpa using hlimit.2

section

variable [ValidationSpec] {net : Network} {seat : Seat} {slot : ℕ} {a b : Accepted}

/-- **Accepting a message keeps the marks.** -/
theorem SeenInRound.accept (h : SeenInRound b s)
    (ha : (slotRecorder net seat slot).Accepts a (some s)) :
    SeenInRound b ((slotRecorder net seat slot).record a (some s)) := by
  obtain ⟨rc, p⟩ := a
  obtain ⟨⟨message, hmessage⟩, -⟩ := ha
  have hvalid := plan_valid hmessage
  cases p with
  | partialSignature signed ci m signer =>
    have hrecord := Plan.record_partialSignature rc signed ci signer hvalid.1 s
    exact h.mono hrecord.round fun j ↦ reached_recordPartialSignatureMessage hrecord.types
  | consensus signed ci msg =>
    have hrecord := Plan.record_consensus rc signed ci hvalid s
    have hreset :
        SeenInRound b (if msg.round > s.round then s.reset msg.height msg.round else s) := by
      split
      · next hlater => exact h.later hlater
      · exact h
    exact hreset.mono hrecord.round fun j ↦ reached_recordConsensusMessage hrecord.types

/-- **An accepted message is marked**: it is alone in a later round, or its bit joins those of the
round reached. -/
theorem seenInRound_record {s : Option SignerStateForSlotRound}
    (ha : (slotRecorder net seat slot).Accepts a s) :
    SeenInRound a ((slotRecorder net seat slot).record a s) := by
  intro msg hsingle
  obtain ⟨rc, p⟩ := a
  obtain ⟨⟨message, hmessage⟩, -, -, hcheck⟩ := ha
  obtain ⟨signed, ci, hplan, hlength⟩ := Accepted.single?_eq_some hsingle
  obtain rfl : p = .consensus signed ci msg := hplan
  have hvalid : validConsensusMsgType msg.msgType = true := plan_valid hmessage
  have hrecord := Plan.record_consensus rc signed ci hvalid (s.getD (.new msg.height msg.round))
  have hround : (s.getD (.new msg.height msg.round)).round ≤ msg.round := by
    cases s with
    | none => exact le_rfl
    | some s => exact (single_of_validateSignerQBFTLogic hlength (hcheck s rfl)).1
  refine ⟨le_of_eq ?_, fun _ idx hidx ↦ ?_⟩
  · refine Eq.trans ?_ hrecord.round.symm
    split
    · rfl
    · omega
  · obtain ⟨idx', hidx', hreached⟩ := exists_consensusLimitIdx hvalid
    obtain rfl : idx' = idx := by
      rw [hidx'] at hidx
      cases hidx
      rfl
    exact hreached (hlength ▸ hrecord.types)

theorem SeenInRound.follows (h : SeenInRound b s)
    (ha : (slotRecorder net seat slot).Accepts a (some s)) {later earlier : Message}
    (hlater : a.single? = some later) (hearlier : b.single? = some earlier) :
    Follows later earlier := by
  obtain ⟨rc, p⟩ := a
  obtain ⟨⟨message, hmessage⟩, -, -, hcheck⟩ := ha
  obtain ⟨signed, ci, hplan, hlength⟩ := Accepted.single?_eq_some hlater
  obtain rfl : p = .consensus signed ci later := hplan
  have hvalid : validConsensusMsgType later.msgType = true := plan_valid hmessage
  obtain ⟨hle, hseen⟩ := h earlier hearlier
  obtain ⟨hround, hfree⟩ := single_of_validateSignerQBFTLogic hlength (hcheck s rfl)
  have htype : later.msgType = earlier.msgType → later.round ≠ earlier.round := by
    intro htype heq
    obtain ⟨idx, hidx, -⟩ := exists_consensusLimitIdx hvalid
    have hreached := hseen (le_antisymm hle (heq ▸ hround)) idx (htype ▸ hidx)
    rw [hfree (le_antisymm (heq ▸ hle) hround) idx hidx] at hreached
    cases hreached
  exact ⟨hle.trans hround, htype, fun hl he heq ↦ absurd heq (htype (hl.trans he.symm))⟩

end

/-! ### The result -/

/-- **No consensus message twice.** If none lists its committee in another order than the state it
meets, the messages accepted of a signer alone for a slot have rounds that do not decrease, one of a
type in each, and proposals of a round with one root. -/
theorem singles_follow [ValidationSpec] (net : Network) (run : LoggedRun)
    (hrun : (orderedMachine net).Reachable run) (seat : Seat) (slot : ℕ) :
    ((run.atSlot seat slot).filterMap Accepted.single?).Pairwise Follows := by
  rw [List.pairwise_filterMap]
  refine (slot_history_of_ordered hrun seat slot).pairwise (P := SeenInRound)
    (fun _ _ _ _ ↦ seenInRound_record) (fun _ _ _ _ _ ha h ↦ h.accept ha) ?_
  exact fun s a b ha hb later hlater earlier hearlier ↦ hb.follows ha hlater hearlier

namespace Reference

/-- An operator takes part in round 1, another peer repeats a message, and it goes on to round 2. -/
theorem singles_follow_twoRounds :
    let run := loggedRunOf network <| incoming [(5 * second, consensus .prepare 1 1),
      (5 * second, consensus .commit 1 1), (6 * second, consensus .commit 1 1),
      (7 * second, consensus .roundChange 1 2), (7 * second, consensus .prepare 1 2)]
    ((run.atSlot (committeeSeat 1) 0).filterMap Accepted.single?).map (·.round) = [2, 2, 1, 1] ∧
    ((run.atSlot (committeeSeat 1) 0).filterMap Accepted.single?).Pairwise Follows := by
  refine ⟨by decide +kernel, singles_follow network _ ?_ _ _⟩
  exact reachable_loggedRunOf rfl rfl (by decide +kernel)

/-- The message ID of the validator in the role of aggregator. -/
def aggregatorMsgID : Bytes := [0, 0, 0, 1] ++ [1, 0, 0, 0] ++ List.replicate 48 0

/-- The prepare message of operator `1`, with the operators in an order. -/
def aggregatorPrepare (operators : List OperatorID) : ValidatorEvent :=
  .message (validatorReceipt operators) <| wireMessageCodec.write
    { signatures := [rsaSignature 1], operatorIDs := [1], fullData := none
      ssvMessage := some
        { msgType := .ssvConsensusMsgType, msgID := aggregatorMsgID
          data := Ssv.Reference.messageCodec.write
            { msgType := .prepare, height := 0, round := 1, identifier := aggregatorMsgID, root := 0
              dataRound := 0, roundChangeJustification := [], prepareJustification := [] } } }

/-- The first two operators are exchanged, and the prepare message of operator `1` is accepted a
second time. -/
theorem prepare_accepted_twice :
    let run := loggedRunOf network
      [aggregatorPrepare [1, 2, 3, 4], aggregatorPrepare [2, 1, 3, 4]]
    let singles := (run.atSlot ⟨aggregatorMsgID, List.replicate 32 0, 1⟩ 0).filterMap
      Accepted.single?
    (loggedMachine network).Reachable run ∧
    singles.map (fun msg ↦ (msg.msgType, msg.round)) = [(.prepare, 1), (.prepare, 1)] ∧
    ¬ singles.Pairwise Follows := by
  intro run singles
  have hsingles : singles.map (fun msg ↦ (msg.msgType, msg.round)) =
      [(.prepare, 1), (.prepare, 1)] := by
    decide +kernel
  refine ⟨reachable_loggedMachine _ _, hsingles, fun hfollows ↦ ?_⟩
  obtain ⟨later, rest, hlater, hfirst, hrest⟩ := List.map_eq_cons_iff.1 hsingles
  obtain ⟨earlier, rest', hearlier, hsecond, -⟩ := List.map_eq_cons_iff.1 hrest
  rw [hlater, hearlier] at hfollows
  have htwo := (List.pairwise_cons.1 hfollows).1 earlier (.head _)
  obtain ⟨htype, hround⟩ := Prod.mk.inj (hfirst.trans hsecond.symm)
  exact htwo.type htype hround

end Reference

end Ssv.Validation
