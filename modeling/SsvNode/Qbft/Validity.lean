import SsvNode.Qbft.Instance

/-!
# What the validators establish

Each validator of `Instance` is read once, as an equivalence between "the validator accepts" and a
structure with one field per fact. No structure mentions the identifier of an embedded message.
-/

namespace Ssv

open SsvSpec Checks List

variable [SsvSpec]

/-- A message with exactly one signer, who is a member of the committee. -/
def SoleSigner (cm : CommitteeMember) (sm : SignedSSVMessage) : Prop :=
  sm.operatorIDs.length = 1 ∧ checkSignersInCommittee sm cm.committee = true

theorem SoleSigner.exists {cm : CommitteeMember} {sm : SignedSSVMessage} (h : SoleSigner cm sm) :
    ∃ id ∈ cm.members, sm.operatorIDs = [id] := by
  obtain ⟨id, hid⟩ := length_eq_one_iff.1 h.1
  refine ⟨id, ?_, hid⟩
  exact checkSignersInCommittee_iff.1 h.2 id (by simp [hid])

/-- What the validators read of an instance: its committee and its height. -/
structure Scope where
  committeeMember : CommitteeMember
  height : ℕ

namespace Instance

/-- The committee and height of an instance. They never change. -/
def scope (i : Instance) : Scope := ⟨i.state.committeeMember, i.state.height⟩

variable {msg : ProcessingMessage} {ops : List Operator} {i : Instance} {round : ℕ}
    {fullData : Data}

theorem verifySignature_eq_ok :
    verifySignature ops msg = .ok () ↔ verify msg.signedMessage ops = .ok () := by
  unfold verifySignature
  rw [mapError_eq_ok]

theorem mem_processingMessages {context : String} {sms : List SignedSSVMessage}
    {pms : List ProcessingMessage} (h : processingMessages context sms = .ok pms)
    {pm : ProcessingMessage} (hpm : pm ∈ pms) : ∃ sm ∈ sms, newProcessingMessage sm = .ok pm := by
  obtain ⟨sm, hsm, hdec⟩ := mem_of_mapM_eq_ok h hpm
  exact ⟨sm, hsm, mapError_eq_ok.1 hdec⟩

/-! ### Prepares -/

/-- What `validSignedPrepareForHeightRoundAndRootIgnoreSignature` checks. -/
structure ValidPrepare (s : Scope) (msg : ProcessingMessage) (r : ℕ) (digest : Root) :
    Prop where
  msgType : msg.qbftMessage.msgType = .prepare
  height : msg.qbftMessage.height = s.height
  round : msg.qbftMessage.round = r
  validated : validate msg = .ok ()
  root : msg.qbftMessage.root = digest
  signer : SoleSigner s.committeeMember msg.signedMessage

theorem validPrepare_iff {root : Root} :
    i.validSignedPrepareForHeightRoundAndRootIgnoreSignature msg round root = .ok () ↔
      ValidPrepare i.scope msg round root := by
  simp only [validSignedPrepareForHeightRoundAndRootIgnoreSignature, bind_eq_ok, exists_check,
    mapError_eq_ok, require_eq_ok]
  constructor
  · rintro ⟨htype, hheight, hround, hval, hroot, hone, hmem⟩
    exact ⟨htype, hheight, hround, hval, hroot, hone, hmem⟩
  · rintro ⟨htype, hheight, hround, hval, hroot, hone, hmem⟩
    exact ⟨htype, hheight, hround, hval, hroot, hone, hmem⟩

theorem validPrepare_verified_iff {root : Root} :
    i.validSignedPrepareForHeightRoundAndRootVerifySignature msg round root = .ok () ↔
      ValidPrepare i.scope msg round root ∧
        verify msg.signedMessage i.state.committeeMember.committee = .ok () := by
  simp only [validSignedPrepareForHeightRoundAndRootVerifySignature, bind_eq_ok, exists_check,
    validPrepare_iff, verifySignature_eq_ok]

/-! ### Round changes -/

/-- The list `pms` is a verified quorum of prepares for a round and root. -/
structure PrepareQuorum (s : Scope) (pms : List ProcessingMessage) (round : ℕ) (root : Root) :
    Prop where
  valid : ∀ pm ∈ pms, ValidPrepare s pm round root
  verified : ∀ pm ∈ pms, verify pm.signedMessage s.committeeMember.committee = .ok ()
  quorum : hasQuorum s.committeeMember pms = true

/-- The embedded prepares of a round change, as the validator decodes them. -/
def embeddedPrepares (msg : ProcessingMessage) : Except Err (List ProcessingMessage) :=
  processingMessages
    "could not create ProcessingMessage from prepare message in round change justification"
    (justifications (getRoundChangeJustifications msg.qbftMessage))

/-- What `validRoundChangeForDataIgnoreSignature` checks. -/
structure ValidRoundChange (s : Scope) (msg : ProcessingMessage) (r : ℕ)
    (fullData : Data) : Prop where
  msgType : msg.qbftMessage.msgType = .roundChange
  height : msg.qbftMessage.height = s.height
  round : msg.qbftMessage.round = r
  validated : validate msg = .ok ()
  signer : SoleSigner s.committeeMember msg.signedMessage
  /-- A prepared round change carries a quorum of prepares for its round and root. -/
  prepared : roundChangePrepared msg.qbftMessage = true →
    (∃ pms, embeddedPrepares msg = .ok pms ∧
      PrepareQuorum s pms msg.qbftMessage.dataRound msg.qbftMessage.root) ∧
    hashDataRoot fullData = msg.qbftMessage.root ∧ msg.qbftMessage.dataRound ≤ r

theorem validRoundChange_iff :
    i.validRoundChangeForDataIgnoreSignature msg round fullData = .ok () ↔
      ValidRoundChange i.scope msg round fullData := by
  simp only [validRoundChangeForDataIgnoreSignature, bind_eq_ok, exists_check, mapError_eq_ok,
    require_eq_ok]
  constructor
  · rintro ⟨htype, hheight, hround, hone, hval, hmem, hprep⟩
    refine ⟨htype, hheight, hround, hval, ⟨hone, hmem⟩, fun hp ↦ ?_⟩
    simp only [hp, if_true, bind_eq_ok, exists_check, forM_eq_ok, mapError_eq_ok,
      validPrepare_verified_iff, require_eq_ok] at hprep
    obtain ⟨pms, hpms, hvalid, hroot, hquorum, hle⟩ := hprep
    exact ⟨⟨pms, hpms, fun pm h ↦ (hvalid pm h).1, fun pm h ↦ (hvalid pm h).2, hquorum⟩, hroot, hle⟩
  · intro h
    refine ⟨h.msgType, h.height, h.round, h.signer.1, h.validated, h.signer.2, ?_⟩
    by_cases hp : roundChangePrepared msg.qbftMessage = true
    · obtain ⟨⟨pms, hpms, hq⟩, hroot, hle⟩ := h.prepared hp
      simp only [hp, if_true, bind_eq_ok, exists_check, forM_eq_ok, mapError_eq_ok,
        validPrepare_verified_iff, require_eq_ok]
      exact ⟨pms, hpms, fun pm h ↦ ⟨hq.valid pm h, hq.verified pm h⟩, hroot, hq.quorum, hle⟩
    · simp [hp]

theorem validRoundChange_verified_iff :
    i.validRoundChangeForDataVerifySignature msg round fullData = .ok () ↔
      ValidRoundChange i.scope msg round fullData ∧
        verify msg.signedMessage i.state.committeeMember.committee = .ok () := by
  simp only [validRoundChangeForDataVerifySignature, bind_eq_ok, exists_check,
    validRoundChange_iff, verifySignature_eq_ok]

/-! ### Proposals -/

/-- What `isProposalJustification` checks above the first round: a verified quorum of round changes,
all valid **for the one proposed value**, and a quorum of prepares for the highest prepared round.
-/
structure RoundChangesJustify (s : Scope) (rcs prepares : List ProcessingMessage) (r : ℕ)
    (fullData : Data) : Prop where
  valid : ∀ rc ∈ rcs, ValidRoundChange s rc r fullData
  verified : ∀ rc ∈ rcs, verify rc.signedMessage s.committeeMember.committee = .ok ()
  quorum : hasQuorum s.committeeMember rcs = true
  prepared : ∀ best, highestPrepared rcs = some best →
    hashDataRoot fullData = best.qbftMessage.root ∧
      PrepareQuorum s prepares best.qbftMessage.dataRound best.qbftMessage.root

theorem isProposalJustification_iff {now : ℕ} {rcs prepares : List ProcessingMessage} {r : ℕ} :
    i.isProposalJustification now rcs prepares r fullData = .ok () ↔
      i.checkValue now fullData = .ok () ∧
        (r ≠ firstRound → RoundChangesJustify i.scope rcs prepares r fullData) := by
  simp only [isProposalJustification, bind_eq_ok, exists_check, mapError_eq_ok]
  refine and_congr_right fun _ ↦ ?_
  by_cases hr : r = firstRound
  · simp [hr]
  simp only [hr, if_false, bind_eq_ok, exists_check, forM_eq_ok, mapError_eq_ok,
    validRoundChange_verified_iff, require_eq_ok, ne_eq, not_false_eq_true, forall_const]
  constructor
  · rintro ⟨hrcs, hquorum, hrest⟩
    refine ⟨fun rc h ↦ (hrcs rc h).1, fun rc h ↦ (hrcs rc h).2, hquorum, fun best hbest ↦ ?_⟩
    obtain ⟨hmem, hp, -⟩ := firstMax_some hbest
    have hany : (rcs.any fun rc ↦ roundChangePrepared rc.qbftMessage) = true :=
      any_eq_true.2 ⟨best, hmem, hp⟩
    simp only [hany, if_true, hbest, bind_eq_ok, exists_check, require_eq_ok, forM_eq_ok,
      mapError_eq_ok, validPrepare_verified_iff] at hrest
    obtain ⟨hpq, hroot, hprepares⟩ := hrest
    exact ⟨hroot, fun pm h ↦ (hprepares pm h).1, fun pm h ↦ (hprepares pm h).2, hpq⟩
  · intro h
    refine ⟨fun rc hrc ↦ ⟨h.valid rc hrc, h.verified rc hrc⟩, h.quorum, ?_⟩
    by_cases hany : (rcs.any fun rc ↦ roundChangePrepared rc.qbftMessage) = true
    · obtain ⟨rc, hrc, hp⟩ := any_eq_true.1 hany
      obtain ⟨best, hbest⟩ : ∃ best, highestPrepared rcs = some best := exists_firstMax hrc hp
      obtain ⟨hroot, hq⟩ := h.prepared best hbest
      simp only [hany, if_true, hbest, bind_eq_ok, exists_check, require_eq_ok, forM_eq_ok,
        mapError_eq_ok, validPrepare_verified_iff]
      exact ⟨hq.quorum, hroot, fun pm hpm ↦ ⟨hq.valid pm hpm, hq.verified pm hpm⟩⟩
    · simp [hany]

/-- The embedded round changes of a proposal, as `isValidProposal` decodes them. -/
def embeddedRoundChanges (msg : ProcessingMessage) : Except Err (List ProcessingMessage) :=
  processingMessages "could not create ProcessingMessage from round change justification"
    (justifications (getRoundChangeJustifications msg.qbftMessage))

/-- The embedded prepares of a proposal, as `isValidProposal` decodes them. -/
def proposalPrepares (msg : ProcessingMessage) : Except Err (List ProcessingMessage) :=
  processingMessages "could not create ProcessingMessage from prepare justification"
    (justifications (getPrepareJustifications msg.qbftMessage))

/-- What `isValidProposal` checks. -/
structure ValidProposal (i : Instance) (now : ℕ) (msg : ProcessingMessage) : Prop where
  msgType : msg.qbftMessage.msgType = .proposal
  height : msg.qbftMessage.height = i.state.height
  signer : SoleSigner i.state.committeeMember msg.signedMessage
  leader : matchedSigners msg.signedMessage [i.proposerForRound msg.qbftMessage.round] = true
  validated : validate msg = .ok ()
  root : msg.qbftMessage.root = hashDataRoot msg.signedMessage.fullData
  justified : ∃ rcs prepares, embeddedRoundChanges msg = .ok rcs ∧
    proposalPrepares msg = .ok prepares ∧
    i.isProposalJustification now rcs prepares msg.qbftMessage.round msg.signedMessage.fullData =
      .ok ()
  current : (i.state.proposalAcceptedForCurrentRound = none ∧
    msg.qbftMessage.round = i.state.round) ∨ i.state.round < msg.qbftMessage.round

theorem isValidProposal_iff {now : ℕ} :
    i.isValidProposal now msg = .ok () ↔ i.ValidProposal now msg := by
  simp only [isValidProposal, bind_eq_ok, exists_check, mapError_eq_ok, require_eq_ok]
  constructor
  · rintro ⟨htype, hheight, hone, hmem, hleader, hval, hroot, rcs, hrcs, prepares, hprepares,
      hjust, hcur⟩
    exact ⟨htype, hheight, ⟨hone, hmem⟩, hleader, hval, hroot,
      ⟨rcs, prepares, hrcs, hprepares, hjust⟩, hcur⟩
  · intro h
    obtain ⟨rcs, prepares, hrcs, hprepares, hjust⟩ := h.justified
    exact ⟨h.msgType, h.height, h.signer.1, h.signer.2, h.leader, h.validated, h.root, rcs, hrcs,
      prepares, hprepares, hjust, h.current⟩

/-! ### Commits -/

/-- What `baseCommitValidationIgnoreSignature` checks. -/
structure ValidCommit (msg : ProcessingMessage) (h : ℕ) (ops : List Operator) : Prop where
  validated : validate msg = .ok ()
  msgType : msg.qbftMessage.msgType = .commit
  height : msg.qbftMessage.height = h
  members : checkSignersInCommittee msg.signedMessage ops = true

theorem validCommit_iff {h : ℕ} :
    baseCommitValidationIgnoreSignature msg h ops = .ok () ↔ ValidCommit msg h ops := by
  simp only [baseCommitValidationIgnoreSignature, bind_eq_ok, exists_check, mapError_eq_ok,
    require_eq_ok]
  constructor
  · rintro ⟨hval, htype, hheight, hmem⟩
    exact ⟨hval, htype, hheight, hmem⟩
  · rintro ⟨hval, htype, hheight, hmem⟩
    exact ⟨hval, htype, hheight, hmem⟩

theorem validCommit_verified_iff {h : ℕ} : baseCommitValidationVerifySignature msg h ops = .ok () ↔
      ValidCommit msg h ops ∧ verify msg.signedMessage ops = .ok () := by
  simp only [baseCommitValidationVerifySignature, bind_eq_ok, exists_check, validCommit_iff,
    verifySignature_eq_ok]

/-- A commit that `validateCommit` lets through is for the accepted proposal. -/
theorem validateCommit_iff : i.validateCommit msg = .ok () ↔
      ValidCommit msg i.state.height i.state.committeeMember.committee ∧
        msg.signedMessage.operatorIDs.length = 1 ∧ msg.qbftMessage.round = i.state.round ∧
        ∃ p, i.state.proposalAcceptedForCurrentRound = some p ∧
          p.qbftMessage.root = msg.qbftMessage.root := by
  simp only [validateCommit, bind_eq_ok, exists_check, validCommit_iff, require_eq_ok, acceptedRoot]
  refine and_congr_right fun _ ↦ and_congr_right fun _ ↦ and_congr_right fun _ ↦ ?_
  rcases i.state.proposalAcceptedForCurrentRound with - | p
  · simp
  · simp

end Instance

end Ssv
