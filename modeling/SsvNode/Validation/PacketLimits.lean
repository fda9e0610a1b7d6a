import SsvNode.Validation.Histories

/-!
# How many packets of a signer are accepted

A bit limits a signer to one post-consensus and one pre-consensus packet for a slot. It shares its
bitset with the bits of a **round**, which `Reset` clears, so that the limit starts anew with each
round (`Reference.packet_accepted_twice`), unless no authentic consensus message takes the signer to
a later round after a packet (`keepsRound`).
-/

namespace Ssv.Validation

open ValidationSpec SeenMsgTypes

/-- The bit that limits the packet, if there is one. -/
def Accepted.packetBit? (a : Accepted) : Option SeenIdx :=
  match a.plan with
  | .consensus _ _ _ => none
  | .partialSignature _ _ m _ => (partialIdx m.type).toOption.join

variable {bit : SeenIdx}

theorem Accepted.packetBit?_eq_some {a : Accepted} (h : a.packetBit? = some bit) :
    ∃ signed ci m signer, a.plan = .partialSignature signed ci m signer ∧
      partialIdx m.type = .ok (some bit) := by
  unfold packetBit? at h
  split at h
  · cases h
  · next signed ci m signer hplan =>
    refine ⟨signed, ci, m, signer, hplan, ?_⟩
    cases hidx : partialIdx m.type with
    | error => rw [hidx] at h; cases h
    | ok idx =>
      rw [hidx] at h
      exact congrArg _ h

/-- Only pre-consensus and post-consensus packets are limited by a bit. -/
theorem partialIdx_cases {type : PartialSigMsgType}
    (h : partialIdx type = .ok (some bit)) : bit = .preConsensus ∨ bit = .postConsensus := by
  cases type <;> cases h <;> simp

/-- A message of a later round, for a slot in which the signer has sent a packet. -/
def OutrunsPacket (_signed : SignedSSVMessage) (msg : Message) (s : SignerStateForSlotRound) :
    Bool :=
  (s.world.seenMsgTypes.reached .preConsensus || s.world.seenMsgTypes.reached .postConsensus) &&
    decide (msg.round > s.round)

/-- No authentic message takes a signer of a packet to a later round. -/
def keepsRound [ValidationSpec] (net : Network) : States → ValidatorEvent → Bool :=
  keepsSigners net OutrunsPacket

/-! ### The mark of a packet -/

/-- The bit of the packet is set. -/
def PacketSeen (a : Accepted) (s : SignerStateForSlotRound) : Prop :=
  ∀ bit, a.packetBit? = some bit → s.world.seenMsgTypes.reached bit = true

variable {s : SignerStateForSlotRound}

theorem not_reached_of_limit {m : PartialSignatureMessages} {peer : PeerID}
    (hbit : partialIdx m.type = .ok (some bit))
    (h : validatePartialSignatureMessageLimit m peer s = .ok ()) :
    s.world.seenMsgTypes.reached bit = false := by
  unfold validatePartialSignatureMessageLimit at h
  cases htype : m.type <;> simp_all [partialIdx, validateLimit]

theorem reached_of_recordPartial {m : PartialSignatureMessages}
    {c c' : SeenMsgTypes} (hbit : partialIdx m.type = .ok (some bit))
    (h : c.recordPartialSignatureMessage m = .ok c') : c'.reached bit = true := by
  rw [recordPartialSignatureMessage, hbit] at h
  cases h
  exact reached_record_self _ bit

section

variable [ValidationSpec] {net : Network} {seat : Seat} {slot : ℕ} {a b : Accepted}

/-- **Accepting a message keeps the bits of packets**, if it does not outrun one. -/
theorem PacketSeen.accept (h : PacketSeen b s) (hkeeps : KeepsSigner OutrunsPacket (some s) a)
    (ha : (slotRecorder net seat slot).Accepts a (some s)) :
    PacketSeen b ((slotRecorder net seat slot).record a (some s)) := by
  intro bit hb
  have hbit := h bit hb
  obtain ⟨rc, p⟩ := a
  obtain ⟨⟨message, hmessage⟩, -⟩ := ha
  have hvalid := plan_valid hmessage
  cases p with
  | partialSignature signed ci m signer =>
    exact reached_recordPartialSignatureMessage
      (Plan.record_partialSignature rc signed ci signer hvalid.1 s).types hbit
  | consensus signed ci msg =>
    have hpacket : (s.world.seenMsgTypes.reached .preConsensus ||
        s.world.seenMsgTypes.reached .postConsensus) = true := by
      obtain ⟨_, _, _, _, -, hidx⟩ := Accepted.packetBit?_eq_some hb
      rcases partialIdx_cases hidx with rfl | rfl <;> simp [hbit]
    have hround := hkeeps signed ci msg rfl s rfl
    rw [OutrunsPacket, hpacket, Bool.true_and, decide_eq_false_iff_not] at hround
    have hrecord := (Plan.record_consensus rc signed ci hvalid s).types
    rw [if_neg hround] at hrecord
    exact reached_recordConsensusMessage hrecord hbit

theorem packetSeen_record {s : Option SignerStateForSlotRound}
    (ha : (slotRecorder net seat slot).Accepts a s) :
    PacketSeen a ((slotRecorder net seat slot).record a s) := by
  intro bit hbit
  obtain ⟨rc, p⟩ := a
  obtain ⟨⟨message, hmessage⟩, -⟩ := ha
  obtain ⟨signed, ci, m, signer, hplan, hidx⟩ := Accepted.packetBit?_eq_some hbit
  obtain rfl : p = .partialSignature signed ci m signer := hplan
  exact reached_of_recordPartial hidx
    (Plan.record_partialSignature rc signed ci signer (plan_valid hmessage).1 _).types

/-- A packet is not accepted once its bit is set. -/
theorem PacketSeen.ne (h : PacketSeen b s) (ha : (slotRecorder net seat slot).Accepts a (some s))
    {later earlier : SeenIdx} (hlater : a.packetBit? = some later)
    (hearlier : b.packetBit? = some earlier) : later ≠ earlier := by
  rintro rfl
  obtain ⟨rc, p⟩ := a
  obtain ⟨-, -, -, hcheck⟩ := ha
  obtain ⟨signed, ci, m, signer, hplan, hidx⟩ := Accepted.packetBit?_eq_some hlater
  obtain rfl : p = .partialSignature signed ci m signer := hplan
  have hlimit : validatePartialSignatureMessageLimit m rc.receivedFrom s = .ok () := hcheck s rfl
  exact absurd (h later hearlier) (by rw [not_reached_of_limit hidx hlimit]; exact nofun)

end

/-! ### The result -/

/-- **One packet of a kind.** If no authentic consensus message takes a signer to a later round once
it has sent a packet for the slot, and none lists its committee in another order than the state it
meets, no signer has two packets of a kind accepted for a slot. -/
theorem packets_nodup [ValidationSpec] (net : Network) (run : LoggedRun)
    (hrun : ((orderedMachine net).restrict fun run event ↦
      keepsRound net run.states event = true).Reachable run) (seat : Seat) (slot : ℕ) :
    ((run.atSlot seat slot).filterMap Accepted.packetBit?).Nodup := by
  have hhistory := slot_history_of_keepsSigners hrun seat slot
  rw [List.Nodup, List.pairwise_filterMap]
  refine hhistory.pairwise (P := PacketSeen) (fun _ _ _ _ ↦ packetSeen_record)
    (fun _ _ _ _ hC ha h ↦ h.accept hC ha) ?_
  exact fun s a b ha hb later hlater earlier hearlier ↦ hb.ne ha hlater hearlier

namespace Reference

/-- An operator takes part in round 1 and sends its packet, which a peer repeats in vain. -/
theorem packets_nodup_roundOne :
    let run := loggedRunOf network <| incoming [(5 * second, consensus .prepare 1 1),
      (5 * second, postConsensus 1 0 (rsaSignature 1)), (5 * second, consensus .commit 1 1),
      (6 * second, postConsensus 1 0 (rsaSignature 1))]
    (run.atSlot (committeeSeat 1) 0).filterMap Accepted.packetBit? = [.postConsensus] ∧
    ((run.atSlot (committeeSeat 1) 0).filterMap Accepted.packetBit?).Nodup := by
  refine ⟨by decide +kernel, packets_nodup network _ ?_ _ _⟩
  exact reachable_loggedRunOf rfl rfl (by decide +kernel)

/-- A packet, a round change for round 2, and the packet again: all are accepted. -/
theorem packet_accepted_twice :
    let run := loggedRunOf network <| incoming [(5 * second, postConsensus 1 0 (rsaSignature 1)),
      (5 * second, consensus .roundChange 1 2), (5 * second, postConsensus 1 0 (rsaSignature 1))]
    (orderedMachine network).Reachable run ∧
    (run.atSlot (committeeSeat 1) 0).filterMap Accepted.packetBit? =
      [.postConsensus, .postConsensus] :=
  ⟨reachable_loggedRunOf rfl rfl (by decide +kernel), by decide +kernel⟩

end Reference

end Ssv.Validation
