import SsvNode.Qbft.Peers

/-!
# Honest messages are valid for peers

Every round change and proposal an honest operator broadcasts passes the checks of **every**
instance of the height and committee, up to the receiver's own value check and round. What carries
this is `Instance.Backed`, that the prepared round has a stored quorum of prepares for the prepared
value, and what the code puts into a message (`Instance.Creates`).
-/

namespace Ssv

open SsvSpec PeerSpec Checks

variable [PeerSpec]

/-! ### The stored evidence -/

/-- The stored messages decode to themselves, and their signatures are the signers'. -/
def ReceivedAndVerified (cm : CommitteeMember) (c : MsgContainer) : Prop :=
  ∀ r, ∀ x ∈ messagesForRound c r,
    newProcessingMessage x.signedMessage = .ok x ∧ verify x.signedMessage cm.committee = .ok ()

variable {cm : CommitteeMember}

theorem ReceivedAndVerified.new :
    ReceivedAndVerified cm newMsgContainer := by
  intro r x hx
  rw [messagesForRound_new] at hx
  exact nomatch hx

theorem ReceivedAndVerified.add {c c' : MsgContainer}
    {msg : ProcessingMessage} (h : ReceivedAndVerified cm c)
    (hdecoded : newProcessingMessage msg.signedMessage = .ok msg)
    (hverified : verify msg.signedMessage cm.committee = .ok ())
    (hadd : addFirstMsgForSignerAndRound c msg = .ok (true, c')) : ReceivedAndVerified cm c' := by
  intro r x hx
  rcases (addFirst_added hadd).1 hx with hx | ⟨rfl, -⟩
  · exact h r x hx
  · exact ⟨hdecoded, hverified⟩

namespace Instance

variable {i i' j : Instance} {now : ℕ} {sm : SignedSSVMessage}

/-- The evidence an undecided instance holds for what it says. -/
structure Backed (i : Instance) : Prop where
  prepares : ReceivedAndVerified i.state.committeeMember i.state.prepareContainer
  roundChanges : ReceivedAndVerified i.state.committeeMember i.state.roundChangeContainer
  prepared : i.state.lastPreparedRound ≠ noRound →
    i.state.lastPreparedRound ≤ i.state.round ∧
    hasQuorum i.state.committeeMember
      (messagesForRound i.state.prepareContainer i.state.lastPreparedRound) = true ∧
    ∀ x ∈ messagesForRound i.state.prepareContainer i.state.lastPreparedRound,
      x.qbftMessage.root = hashDataRoot i.state.lastPreparedValue

namespace Backed

theorem newInstance {config : Config} {id : Bytes} {h : ℕ}
    {signer : OperatorSigner} : (newInstance config cm id h signer).Backed :=
  ⟨.new, .new, fun hne ↦ absurd rfl hne⟩

theorem frame (h : Backed i) (hcm : i'.state.committeeMember = i.state.committeeMember)
    (hprepares : i'.state.prepareContainer = i.state.prepareContainer)
    (hroundChanges : ReceivedAndVerified i.state.committeeMember i'.state.roundChangeContainer)
    (hround : i.state.round ≤ i'.state.round)
    (hprepared : i'.state.lastPreparedRound = i.state.lastPreparedRound)
    (hvalue : i'.state.lastPreparedValue = i.state.lastPreparedValue) : Backed i' where
  prepares := by rw [hcm, hprepares]; exact h.prepares
  roundChanges := by rw [hcm]; exact hroundChanges
  prepared hne := by
    rw [hprepared] at hne
    obtain ⟨hle, hquorum, hroots⟩ := h.prepared hne
    rw [hcm, hprepares, hprepared, hvalue]
    exact ⟨hle.trans hround, hquorum, hroots⟩

/-- A prepare of the same round joins the evidence for the prepared value. -/
theorem withPrepares {log : List Event} {msg p : ProcessingMessage} {c : MsgContainer}
    (h : Backed i) (hsound : i.Sound log)
    (hdecoded : newProcessingMessage msg.signedMessage = .ok msg)
    (hverified : verify msg.signedMessage i.state.committeeMember.committee = .ok ())
    (accepted : i.state.proposalAcceptedForCurrentRound = some p)
    (valid : ValidPrepare i.scope msg i.state.round p.qbftMessage.root)
    (added : addFirstMsgForSignerAndRound i.state.prepareContainer msg = .ok (true, c)) :
    Backed (i.withPrepares c) := by
  refine ⟨h.prepares.add hdecoded hverified added, h.roundChanges, fun hne ↦ ?_⟩
  obtain ⟨hle, hquorum, hroots⟩ := h.prepared hne
  have hkeep : ∀ x ∈ messagesForRound i.state.prepareContainer i.state.lastPreparedRound,
      x ∈ messagesForRound c i.state.lastPreparedRound := fun x hx ↦
    (addFirst_added added).2 (.inl hx)
  refine ⟨hle, hasQuorum_mono hkeep hquorum, fun x hx ↦ ?_⟩
  rcases (addFirst_added added).1 hx with hx | ⟨rfl, hround⟩
  · exact hroots x hx
  · -- the round is the current one; a stored prepare of it has the root of both
    have heq : i.state.lastPreparedRound = i.state.round := hround.trans valid.round
    obtain ⟨y, hy⟩ := exists_mem_of_hasQuorum hquorum
    have hyroot := hroots y hy
    rw [heq] at hy
    obtain ⟨p', hp', hyp⟩ := hsound.stored_accepted hy
    obtain rfl := Option.some.inj (accepted.symm.trans hp')
    rw [valid.root, ← hyp]
    exact hyroot

theorem withPrepared {log : List Event} {msg p : ProcessingMessage} {c : MsgContainer}
    (h : Backed (i.withPrepares c)) (hsound : i.Sound log)
    (accepted : i.state.proposalAcceptedForCurrentRound = some p)
    (valid : ValidPrepare i.scope msg i.state.round p.qbftMessage.root)
    (added : addFirstMsgForSignerAndRound i.state.prepareContainer msg = .ok (true, c))
    (quorum : hasQuorum i.state.committeeMember (messagesForRound c i.state.round) = true) :
    Backed ((i.withPrepares c).withPrepared p.signedMessage.fullData) := by
  refine ⟨h.prepares, h.roundChanges, fun _ ↦ ⟨le_rfl, quorum, fun x hx ↦ ?_⟩⟩
  have hroot : x.qbftMessage.root = p.qbftMessage.root := by
    rcases (addFirst_added added).1 hx with hx | ⟨rfl, -⟩
    · obtain ⟨p', hp', hxp⟩ := hsound.stored_accepted hx
      obtain rfl := Option.some.inj (accepted.symm.trans hp')
      exact hxp
    · exact valid.root
  rw [hroot]
  exact hsound.accepted_root accepted

/-- **Every transition on an authenticated message keeps the evidence.** -/
theorem step {log es : List Event} {input : Input} (h : Backed i) (hsound : i.Sound log)
    (hstep : i.Step now input i' es) (hund : i'.state.decided = false)
    (hinput : ∀ msg, input = .message msg → newProcessingMessage msg.signedMessage = .ok msg ∧
      verify msg.signedMessage i.state.committeeMember.committee = .ok ()) : Backed i' := by
  cases hstep with
  | skip => exact h
  | giveUp valid lt => exact h.frame rfl rfl h.roundChanges lt.le rfl rfl
  | @acceptProposal msg c es valid sends =>
    refine h.frame rfl rfl h.roundChanges ?_ rfl rfl
    rcases (isValidProposal_iff.1 valid).current with ⟨-, heq⟩ | hlt
    · exact heq.ge
    · exact hlt.le
  | storePrepare accepted valid added =>
    obtain ⟨hdecoded, hverified⟩ := hinput _ rfl
    exact h.withPrepares hsound hdecoded hverified accepted (validPrepare_iff.1 valid) added
  | prepareQuorum accepted valid added quorum =>
    obtain ⟨hdecoded, hverified⟩ := hinput _ rfl
    have hvalid := validPrepare_iff.1 valid
    exact (h.withPrepares hsound hdecoded hverified accepted hvalid added).withPrepared hsound
      accepted hvalid added quorum
  | storeCommit => exact h.frame rfl rfl h.roundChanges le_rfl rfl rfl
  | decide => cases hund
  | storeRoundChange valid added =>
    obtain ⟨hdecoded, hverified⟩ := hinput _ rfl
    exact h.frame rfl rfl (h.roundChanges.add hdecoded hverified added) le_rfl rfl rfl
  | @lead msg c es valid added quorum current sends =>
    obtain ⟨hdecoded, hverified⟩ := hinput _ rfl
    refine h.frame rfl rfl (h.roundChanges.add hdecoded hverified added) ?_ rfl rfl
    rcases current with ⟨-, heq⟩ | hlt
    · exact heq.le
    · exact hlt.le
  | follow valid added stored quorum lt =>
    obtain ⟨hdecoded, hverified⟩ := hinput _ rfl
    exact h.frame rfl rfl (h.roundChanges.add hdecoded hverified added) lt.le rfl rfl
  | timeout => exact h.frame rfl rfl h.roundChanges (Nat.le_succ _) rfl rfl

end Backed

end Instance

end Ssv
