import SsvNode.Validation.Histories

/-!
# Decided messages grow

The slot state of a signer counts the signers of decided messages, and a later one must have more.
But `Reset` clears the count when the signer goes on to a later round
(`Reference.decided_accepted_twice`). The numbers grow in runs in which no signer goes on **by a
message of its own** once it has signed a decided message (`keepsDecided`).
-/

namespace Ssv.Validation

open ValidationSpec

/-- The number of signers, if the message is a decided one. -/
def Accepted.decidedSigners? (a : Accepted) : Option ℕ :=
  match a.plan with
  | .consensus signed _ _ =>
    if signed.operatorIDs.length > 1 then some signed.operatorIDs.length else none
  | .partialSignature _ _ _ _ => none

theorem Accepted.decidedSigners?_eq_some {a : Accepted} {n : ℕ} (h : a.decidedSigners? = some n) :
    1 < n ∧ ∃ signed ci msg, a.plan = .consensus signed ci msg ∧ signed.operatorIDs.length = n := by
  unfold decidedSigners? at h
  split at h
  · next signed ci msg hplan =>
    split at h
    · next hlength =>
      cases h
      exact ⟨hlength, signed, ci, msg, hplan, rfl⟩
    · cases h
  · cases h

/-- A message of its signer alone and of a later round, for a slot in which the signer has signed a
decided one. -/
def OutrunsDecided (signed : SignedSSVMessage) (msg : Message) (s : SignerStateForSlotRound) :
    Bool :=
  decide (signed.operatorIDs.length = 1) && decide (s.world.seenDecidedMsgSignersCount ≠ 0) &&
    decide (msg.round > s.round)

/-- No authentic message of a signer alone takes a signer of a decided message to a later round. -/
def keepsDecided [ValidationSpec] (net : Network) : States → ValidatorEvent → Bool :=
  keepsSigners net OutrunsDecided

/-! ### The mark of a decided message -/

def DecidedCounted (a : Accepted) (s : SignerStateForSlotRound) : Prop :=
  ∀ n, a.decidedSigners? = some n → n ≤ s.world.seenDecidedMsgSignersCount

variable {s : SignerStateForSlotRound}

theorem lt_of_validateSignerQBFTLogic {rc : Receipt} {signed : SignedSSVMessage} {msg : Message}
    (hlength : signed.operatorIDs.length > 1)
    (h : validateSignerQBFTLogic rc signed msg s = .ok ()) :
    s.world.seenDecidedMsgSignersCount < signed.operatorIDs.length := by
  rw [validateSignerQBFTLogic, if_neg (by omega), if_pos hlength, Checks.require_eq_ok] at h
  exact Nat.not_le.1 h

section

variable [ValidationSpec] {net : Network} {seat : Seat} {slot : ℕ} {a b : Accepted}

/-- **Accepting a message keeps the count**, if it does not outrun a decided one. -/
theorem DecidedCounted.accept (h : DecidedCounted b s)
    (hkeeps : KeepsSigner OutrunsDecided (some s) a)
    (ha : (slotRecorder net seat slot).Accepts a (some s)) :
    DecidedCounted b ((slotRecorder net seat slot).record a (some s)) := by
  intro n hn
  refine (h n hn).trans ?_
  obtain ⟨rc, p⟩ := a
  obtain ⟨⟨message, hmessage⟩, hat, -, hcheck⟩ := ha
  have hvalid := plan_valid hmessage
  cases p with
  | partialSignature signed ci m signer =>
    exact (Plan.record_partialSignature rc signed ci signer hvalid.1 s).decided.ge
  | consensus signed ci msg =>
    refine le_of_le_of_eq ?_ (Plan.record_consensus rc signed ci hvalid s).decided.symm
    split
    · next hlength => exact (lt_of_validateSignerQBFTLogic hlength (hcheck s rfl)).le
    · next hlength =>
      split
      · next hlater =>
        -- The count is cleared, so that there was none.
        have hone : signed.operatorIDs.length = 1 :=
          le_antisymm (Nat.not_lt.1 hlength) (List.length_pos_of_mem hat.2.2)
        have hzero := hkeeps signed ci msg rfl s rfl
        rw [OutrunsDecided, decide_eq_true hone, decide_eq_true hlater, Bool.and_true,
          Bool.true_and, decide_eq_false_iff_not, not_not] at hzero
        exact hzero.le.trans (Nat.zero_le _)
      · exact le_rfl

theorem decidedCounted_record {s : Option SignerStateForSlotRound}
    (ha : (slotRecorder net seat slot).Accepts a s) :
    DecidedCounted a ((slotRecorder net seat slot).record a s) := by
  intro n hn
  obtain ⟨rc, p⟩ := a
  obtain ⟨⟨message, hmessage⟩, -⟩ := ha
  obtain ⟨hlength, signed, ci, msg, hplan, rfl⟩ := Accepted.decidedSigners?_eq_some hn
  obtain rfl : p = .consensus signed ci msg := hplan
  refine le_of_le_of_eq ?_ (Plan.record_consensus rc signed ci (plan_valid hmessage) _).decided.symm
  rw [if_pos hlength]

theorem DecidedCounted.lt (h : DecidedCounted b s)
    (ha : (slotRecorder net seat slot).Accepts a (some s)) {later earlier : ℕ}
    (hlater : a.decidedSigners? = some later) (hearlier : b.decidedSigners? = some earlier) :
    earlier < later := by
  obtain ⟨rc, p⟩ := a
  obtain ⟨-, -, -, hcheck⟩ := ha
  obtain ⟨hlength, signed, ci, msg, hplan, rfl⟩ := Accepted.decidedSigners?_eq_some hlater
  obtain rfl : p = .consensus signed ci msg := hplan
  exact (h earlier hearlier).trans_lt (lt_of_validateSignerQBFTLogic hlength (hcheck s rfl))

end

/-! ### The result -/

/-- **Decided messages grow.** If no signer of a decided message goes on to a later round by a
message of its own, and none lists its committee in another order than the state it meets, the
decided messages accepted of a signer for a slot have more and more signers. -/
theorem decided_signers_grow [ValidationSpec] (net : Network) (run : LoggedRun)
    (hrun : ((orderedMachine net).restrict fun run event ↦
      keepsDecided net run.states event = true).Reachable run) (seat : Seat) (slot : ℕ) :
    ((run.atSlot seat slot).filterMap Accepted.decidedSigners?).Pairwise
      fun later earlier ↦ earlier < later := by
  have hhistory := slot_history_of_keepsSigners hrun seat slot
  rw [List.pairwise_filterMap]
  refine hhistory.pairwise (P := DecidedCounted) (fun _ _ _ _ ↦ decidedCounted_record)
    (fun _ _ _ _ hC ha h ↦ h.accept hC ha) ?_
  exact fun s a b ha hb later hlater earlier hearlier ↦ hb.lt ha hlater hearlier

namespace Reference

def decided (ops : List OperatorID) (round : ℕ) : WireMessage where
  signatures := ops.map rsaSignature
  operatorIDs := ops
  ssvMessage := (consensus .commit 1 round).ssvMessage
  fullData := none

/-- The decided message of three operators is followed by one of all four, of a later round. -/
theorem decided_signers_grow_threeFour :
    let run := loggedRunOf network <| incoming [(5 * second, consensus .commit 1 1),
      (5 * second, decided [1, 2, 3] 1), (7 * second, decided [1, 2, 3, 4] 2)]
    (run.atSlot (committeeSeat 1) 0).filterMap Accepted.decidedSigners? = [4, 3] ∧
    ((run.atSlot (committeeSeat 1) 0).filterMap Accepted.decidedSigners?).Pairwise
      fun later earlier ↦ earlier < later := by
  refine ⟨by decide +kernel, decided_signers_grow network _ ?_ _ _⟩
  exact reachable_loggedRunOf rfl rfl (by decide +kernel)

/-- Three operators have sent a decided message and each goes on to round 2; the message is accepted
again. -/
theorem decided_accepted_twice :
    let run := loggedRunOf network <| incoming [(5 * second, decided [1, 2, 3] 1),
      (6 * second, consensus .roundChange 1 2), (6 * second, consensus .roundChange 2 2),
      (6 * second, consensus .roundChange 3 2), (7 * second, decided [1, 2, 3] 1)]
    (orderedMachine network).Reachable run ∧
    (run.atSlot (committeeSeat 1) 0).filterMap Accepted.decidedSigners? = [3, 3] :=
  ⟨reachable_loggedRunOf rfl rfl (by decide +kernel), by decide +kernel⟩

end Reference

end Ssv.Validation
