import SsvNode.Qbft.Handlers
import SsvNode.Qbft.Validity

/-!
# What one call can do to an instance

`Instance.Step now i input i' es` lists the transitions of an instance, each with the checks the
code has made by then, and `Instance.Creates` says what is in the messages that leave the node. The
code does nothing else (`step_processMsg`, `processMsg_creates`, …). The handlers are read **once**,
here; invariants of runs are proved by cases on `Step`. An error after a state change is the
transition without its message.
-/

namespace Ssv

open SsvSpec Checks Act List

variable [SsvSpec]

/-- `sm` is the message `m`, signed by the operator `op` alone. -/
structure IsSigned (op : OperatorID) (m : Message) (sm : SignedSSVMessage) : Prop where
  operatorIDs : sm.operatorIDs = [op]
  encoded : encode m = .ok sm.ssvMessage.data

theorem IsSigned.decodes {op : OperatorID} {m : Message} {sm : SignedSSVMessage}
    (h : IsSigned op m sm) : newProcessingMessage sm = .ok ⟨sm, m⟩ :=
  newProcessingMessage_of_encode h.encoded

namespace Instance

/-! ### Signed messages -/

variable {now : ℕ} {sm : SignedSSVMessage} {i : Instance}

theorem isSigned_of_sign {m : Message} {op : OperatorID} {signer : OperatorSigner}
    (h : sign now m op signer = .ok sm) : IsSigned op m sm := by
  simp only [sign, bind_eq_ok, mapError_eq_ok, pure_eq_ok] at h
  obtain ⟨byts, hb, sig, -, rfl⟩ := h
  exact ⟨rfl, hb⟩

theorem isSigned_of_createPrepare {r : ℕ} {root : Root} (h : i.createPrepare now r root = .ok sm) :
    ∃ m : Message, IsSigned i.state.committeeMember.operatorID m sm ∧ m.msgType = .prepare ∧
      m.height = i.state.height ∧ m.round = r ∧ m.root = root :=
  ⟨_, isSigned_of_sign h, rfl, rfl, rfl, rfl⟩

theorem isSigned_of_createCommit {root : Root} (h : i.createCommit now root = .ok sm) :
    ∃ m : Message, IsSigned i.state.committeeMember.operatorID m sm ∧ m.msgType = .commit ∧
      m.height = i.state.height ∧ m.round = i.state.round ∧ m.root = root :=
  ⟨_, isSigned_of_sign h, rfl, rfl, rfl, rfl⟩

theorem isSigned_of_createProposal {value : Data} {rcs prepares : List ProcessingMessage}
    (h : i.createProposal now value rcs prepares = .ok sm) :
    ∃ m : Message, IsSigned i.state.committeeMember.operatorID m sm ∧ m.msgType = .proposal ∧
      m.height = i.state.height ∧ m.round = i.state.round := by
  simp only [createProposal, bind_eq_ok, mapError_eq_ok, pure_eq_ok] at h
  obtain ⟨_, -, _, -, sm', hsign, rfl⟩ := h
  have hs := isSigned_of_sign hsign
  exact ⟨_, ⟨hs.operatorIDs, hs.encoded⟩, rfl, rfl, rfl⟩

/-- The prepared round a round change of this instance names. -/
def preparedRound (i : Instance) : ℕ := i.getRoundChangeData.1

theorem isSigned_of_createRoundChange {r : ℕ} (h : i.createRoundChange now r = .ok sm) :
    ∃ m : Message, IsSigned i.state.committeeMember.operatorID m sm ∧ m.msgType = .roundChange ∧
      m.height = i.state.height ∧ m.round = r ∧ m.dataRound = i.preparedRound := by
  simp only [createRoundChange, bind_eq_ok, mapError_eq_ok, pure_eq_ok] at h
  obtain ⟨_, -, sm', hsign, rfl⟩ := h
  have hs := isSigned_of_sign hsign
  exact ⟨_, ⟨hs.operatorIDs, hs.encoded⟩, rfl, rfl, rfl, rfl⟩

/-- The events of a transition that sends at most one message, satisfying `P`. -/
def Sends (i : Instance) (P : Message → Prop) (es : List Event) : Prop :=
  es = [] ∨ ∃ sm m, es = [.broadcast sm i.state.height] ∧
    IsSigned i.state.committeeMember.operatorID m sm ∧ m.height = i.state.height ∧ P m

theorem Sends.nil {P : Message → Prop} : i.Sends P [] := Or.inl rfl

/-! ### The transitions -/

inductive Input where
  | message (msg : ProcessingMessage)
  | timeout

/-- What one input makes of an instance. -/
inductive Step (now : ℕ) (i : Instance) : Input → Instance → List Event → Prop
  /-- The message was refused, was not new, or changed nothing of interest. -/
  | skip {input : Input} : Step now i input i []
  /-- A justified proposal for the cut-off round: enter the round and stop. -/
  | giveUp {msg : ProcessingMessage} {c : MsgContainer}
      (valid : i.isValidProposal now msg = .ok ()) (lt : i.state.round < msg.qbftMessage.round) :
      Step now i (.message msg) ((i.withProposals c).enterRound msg.qbftMessage.round) []
  /-- A valid proposal: enter its round, accept it, prepare. -/
  | acceptProposal {msg : ProcessingMessage} {c : MsgContainer} {es : List Event}
      (valid : i.isValidProposal now msg = .ok ())
      (sends : i.Sends (fun m ↦ m.msgType = .prepare ∧ m.round = msg.qbftMessage.round ∧
        m.root = hashDataRoot msg.signedMessage.fullData) es) :
      Step now i (.message msg) (((i.withProposals c).enterRound msg.qbftMessage.round).withAccepted
        msg) es
  | storePrepare {msg proposal : ProcessingMessage} {c : MsgContainer}
      (accepted : i.state.proposalAcceptedForCurrentRound = some proposal)
      (valid : i.validSignedPrepareForHeightRoundAndRootIgnoreSignature msg i.state.round
        proposal.qbftMessage.root = .ok ())
      (added : addFirstMsgForSignerAndRound i.state.prepareContainer msg = .ok (true, c)) :
      Step now i (.message msg) (i.withPrepares c) []
  /-- A new prepare that completes a quorum: lock the value, commit. -/
  | prepareQuorum {msg proposal : ProcessingMessage} {c : MsgContainer} {es : List Event}
      (accepted : i.state.proposalAcceptedForCurrentRound = some proposal)
      (valid : i.validSignedPrepareForHeightRoundAndRootIgnoreSignature msg i.state.round
        proposal.qbftMessage.root = .ok ())
      (added : addFirstMsgForSignerAndRound i.state.prepareContainer msg = .ok (true, c))
      (quorum : hasQuorum i.state.committeeMember (messagesForRound c i.state.round) = true)
      (sends : i.Sends (fun m ↦ m.msgType = .commit ∧ m.round = i.state.round ∧
        m.root = proposal.qbftMessage.root) es) :
      Step now i (.message msg) ((i.withPrepares c).withPrepared proposal.signedMessage.fullData) es
  | storeCommit {msg : ProcessingMessage} {c : MsgContainer}
      (valid : i.validateCommit msg = .ok ())
      (added : addFirstMsgForSignerAndRound i.state.commitContainer msg = .ok (true, c)) :
      Step now i (.message msg) (i.withCommits c) []
  /-- A new commit that completes a quorum: decide. -/
  | decide {msg proposal : ProcessingMessage} {c : MsgContainer}
      (accepted : i.state.proposalAcceptedForCurrentRound = some proposal)
      (valid : i.validateCommit msg = .ok ())
      (added : addFirstMsgForSignerAndRound i.state.commitContainer msg = .ok (true, c))
      (quorum : memberHasQuorum i.state.committeeMember (longestUniqueSignersForRoundAndRoot c
        msg.qbftMessage.round msg.qbftMessage.root).1.length = true) :
      Step now i (.message msg) ((i.withCommits c).withDecision msg.qbftMessage.round
          proposal.signedMessage.fullData)
        [.markDecided i.state.height msg.qbftMessage.round proposal.signedMessage.fullData]
  | storeRoundChange {msg : ProcessingMessage} {c : MsgContainer}
      (valid : i.validRoundChangeForDataIgnoreSignature msg msg.qbftMessage.round
        msg.signedMessage.fullData = .ok ())
      (added : addFirstMsgForSignerAndRound i.state.roundChangeContainer msg = .ok (true, c)) :
      Step now i (.message msg) (i.withRoundChanges c) []
  /-- A new round change that completes a quorum for a round it leads: enter the round, propose. -/
  | lead {msg : ProcessingMessage} {c : MsgContainer} {es : List Event}
      (valid : i.validRoundChangeForDataIgnoreSignature msg msg.qbftMessage.round
        msg.signedMessage.fullData = .ok ())
      (added : addFirstMsgForSignerAndRound i.state.roundChangeContainer msg = .ok (true, c))
      (quorum : hasQuorum i.state.committeeMember (messagesForRound c msg.qbftMessage.round) = true)
      (current : (i.state.proposalAcceptedForCurrentRound = none ∧
        i.state.round = msg.qbftMessage.round) ∨ i.state.round < msg.qbftMessage.round)
      (sends : i.Sends (fun m ↦ m.msgType = .proposal) es) :
      Step now i (.message msg) ((i.withRoundChanges c).enterRound msg.qbftMessage.round) es
  /-- A new round change that completes a partial quorum: join the lowest later round. -/
  | follow {msg : ProcessingMessage} {c : MsgContainer} {rcs : List ProcessingMessage}
      {es : List Event}
      (valid : i.validRoundChangeForDataIgnoreSignature msg msg.qbftMessage.round
        msg.signedMessage.fullData = .ok ())
      (added : addFirstMsgForSignerAndRound i.state.roundChangeContainer msg = .ok (true, c))
      (stored : ∀ x ∈ rcs, x ∈ allMessages c ∧ i.state.round < x.qbftMessage.round)
      (quorum : hasPartialQuorum i.state.committeeMember rcs = true)
      (lt : i.state.round < minRound rcs)
      (sends : i.Sends (fun m ↦ m.msgType = .roundChange ∧ m.round = minRound rcs ∧
        m.dataRound = i.preparedRound) es) :
      Step now i (.message msg) ((i.withRoundChanges c).enterRound (minRound rcs)) es
  /-- A timeout: enter the next round. -/
  | timeout {es : List Event}
      (sends : i.Sends (fun m ↦ m.msgType = .roundChange ∧ m.round = i.state.round + 1 ∧
        m.dataRound = i.preparedRound) es) :
      Step now i .timeout (i.enterRound (i.state.round + 1)) es

/-- How a message that an instance sends was created, for a round below the cut-off round. -/
inductive Creates (now : ℕ) (i : Instance) (sm : SignedSSVMessage) : Input → Prop
  | prepare {msg : ProcessingMessage} (valid : i.isValidProposal now msg = .ok ())
      (below : msg.qbftMessage.round < i.config.cutOffRound)
      (created : i.createPrepare now msg.qbftMessage.round
        (hashDataRoot msg.signedMessage.fullData) = .ok sm) : Creates now i sm (.message msg)
  | commit {input : Input} {root : Root} (below : i.state.round < i.config.cutOffRound)
      (created : i.createCommit now root = .ok sm) : Creates now i sm input
  | roundChange {input : Input} {r : ℕ} (lt : i.state.round < r) (below : r < i.config.cutOffRound)
      (created : i.createRoundChange now r = .ok sm) : Creates now i sm input
  /-- A proposal for a later round, with the checked round changes and the prepares of the one whose
  value is proposed. -/
  | proposal {msg rc : ProcessingMessage} {c : MsgContainer} {r : ℕ} {value : Data}
      {prepares : List ProcessingMessage} (le : i.state.round ≤ r)
      (below : r < i.config.cutOffRound)
      (added : addFirstMsgForSignerAndRound i.state.roundChangeContainer msg = .ok (true, c))
      (embedded : roundChangeJustification rc = .ok prepares)
      (justified : (i.withRoundChanges c).isProposalJustification now (messagesForRound c r)
        prepares r value = .ok ())
      (leader : (i.withRoundChanges c).proposerForRound r = i.state.committeeMember.operatorID)
      (created : ((i.withRoundChanges c).enterRound r).createProposal now value
        (messagesForRound c r) prepares = .ok sm) : Creates now i sm (.message msg)

/-- Every message among the events is one the instance creates. -/
def CreatesAll (now : ℕ) (i : Instance) (input : Input) (es : List Event) : Prop :=
  ∀ sm slot, Event.broadcast sm slot ∈ es → slot = i.getHeight ∧ i.Creates now sm input

/-! ### The handlers take these transitions -/

/-- One step of `i` on `input`, with messages that `i` creates. -/
structure Performs (now : ℕ) (i : Instance) (input : Input) (i' : Instance) (es : List Event) :
    Prop where
  step : i.Step now input i' es
  creates : i.CreatesAll now input es

namespace Performs

variable {now : ℕ} {i i' : Instance} {input : Input} {sm : SignedSSVMessage}

theorem silent (hstep : i.Step now input i' []) : i.Performs now input i' [] :=
  ⟨hstep, fun _ _ hmem ↦ nomatch hmem⟩

theorem skip : i.Performs now input i [] := .silent .skip

theorem sent (hstep : i.Step now input i' [.broadcast sm i.state.height])
    (h : i.Creates now sm input) : i.Performs now input i' [.broadcast sm i.state.height] := by
  refine ⟨hstep, fun sm' slot hmem ↦ ?_⟩
  obtain ⟨rfl, rfl⟩ := Event.broadcast.inj (mem_singleton.1 hmem)
  exact ⟨rfl, h⟩

end Performs

/-- `x`, run from `i`, performs one step of `i` on `input`. -/
def TakesStep {α : Type} (now : ℕ) (i : Instance) (input : Input) (x : InstanceAct α) : Prop :=
  x.wp (fun i' es _ ↦ i.Performs now input i' es) i

variable {i : Instance} {now r : ℕ} {msg : ProcessingMessage}

theorem round_lt_of_isRelevant (h : i.isRelevant = true) : i.state.round < i.config.cutOffRound :=
  of_decide_eq_true (Bool.and_eq_true_iff.1 h).2

theorem wp_send {s : Instance} {ctx ctx' : String} {x : Except Err SignedSSVMessage}
    {Q : Instance → List Event → Except Err Unit → Prop} (hnil : ∀ r, Q s [] r)
    (hsent : ∀ sm r, s.isRelevant = true → x = .ok sm → Q s [.broadcast sm s.state.height] r) :
    (send now ctx ctx' x).wp Q s := by
  unfold send broadcast wrapErr
  simp only [wp_bind, wp_lift, wp_mapError, wp_read, wp_ite, wp_emit,
    wp_fail, nil_append, append_nil]
  rcases x with e | sm
  · exact hnil _
  · change if s.isRelevant = true then _ else _
    split
    · exact hsent sm _ ‹_› rfl
    · exact hnil _

theorem bumpToRound_withAccepted (h : i.state.round ≤ r) (msg : ProcessingMessage) :
    (i.bumpToRound r).withAccepted msg = (i.enterRound r).withAccepted msg := by
  unfold bumpToRound
  split
  · rfl
  · obtain rfl : r = i.state.round := by omega
    rfl

theorem bumpToRound_of_lt (h : i.state.round < r) : i.bumpToRound r = i.enterRound r := if_pos h

theorem bumpToRound_of_le (h : r ≤ i.state.round) : i.bumpToRound r = i := if_neg (by omega)

theorem takesStep_uponProposal
    (hrel : i.isRelevant = true) (valid : i.isValidProposal now msg = .ok ()) :
    TakesStep now i (.message msg) (uponProposal now msg) := by
  have hround := (isValidProposal_iff.1 valid).current
  unfold TakesStep uponProposal wrapErr
  simp only [wp_bind, wp_read, wp_lift, wp_write, wp_update, wp_ite,
    wp_pure, nil_append]
  rcases hadd : addFirstMsgForSignerAndRound i.state.proposeContainer msg with e | ⟨added, c⟩
  · exact .skip
  cases added with
  | false =>
    obtain rfl := addFirst_notAdded hadd
    exact .skip
  | true =>
    change if ((i.withProposals c).bumpToRound msg.qbftMessage.round).isRelevant = true then _
      else _
    split
    · rw [bumpToRound_withAccepted (i := i.withProposals c) (by rcases hround with h | h <;>
        simp only [withProposals] <;> omega)]
      apply wp_send
      · intro _
        exact .silent (.acceptProposal valid .nil)
      · intro sm _ hrel' hsm
        obtain ⟨m, hm, htype, hheight, hr, hroot⟩ := isSigned_of_createPrepare hsm
        exact .sent (.acceptProposal valid (.inr ⟨sm, m, rfl, hm, hheight, htype, hr, hroot⟩))
          (.prepare valid (round_lt_of_isRelevant hrel') hsm)
    · rename_i hnot
      rcases hround with ⟨-, heq⟩ | hlt
      · -- without a bump the instance would still be relevant
        rw [bumpToRound_of_le (i := i.withProposals c) heq.le] at hnot
        exact absurd hrel hnot
      · rw [bumpToRound_of_lt (i := i.withProposals c) hlt]
        exact .silent (.giveUp valid hlt)

theorem takesStep_uponPrepare {proposal : ProcessingMessage}
    (accepted : i.state.proposalAcceptedForCurrentRound = some proposal)
    (valid : i.validSignedPrepareForHeightRoundAndRootIgnoreSignature msg i.state.round
      proposal.qbftMessage.root = .ok ()) :
    TakesStep now i (.message msg) (uponPrepare now msg) := by
  unfold TakesStep uponPrepare wrapErr
  simp only [wp_bind, wp_read, accepted, wp_lift, wp_write, wp_update,
    wp_ite, wp_pure, nil_append]
  rcases hadd : addFirstMsgForSignerAndRound i.state.prepareContainer msg with e | ⟨added, c⟩
  · exact .skip
  cases added with
  | false =>
    obtain rfl := addFirst_notAdded hadd
    change if _ ∧ _ then _ else _
    rw [if_neg (by simp)]
    exact .skip
  | true =>
    change if _ then _ else _
    split
    · rename_i hq
      apply wp_send
      · intro _
        exact .silent (.prepareQuorum accepted valid hadd hq.2.2 .nil)
      · intro sm _ hrel hsm
        obtain ⟨m, hm, htype, hheight, hr, hroot⟩ := isSigned_of_createCommit hsm
        exact .sent (.prepareQuorum accepted valid hadd hq.2.2
          (.inr ⟨sm, m, rfl, hm, hheight, htype, hr, hroot⟩))
          (.commit (round_lt_of_isRelevant hrel) hsm)
    · exact .silent (.storePrepare accepted valid hadd)

theorem takesStep_uponCommit (valid : i.validateCommit msg = .ok ()) :
    TakesStep now i (.message msg) (do
      match ← uponCommit msg with
      | none => pure none
      | some (decidedValue, aggregatedCommit) => do
        (markDecided msg.qbftMessage.round decidedValue).mapError (.wrap "mark as decided")
        pure (some (decidedValue, aggregatedCommit))) := by
  unfold TakesStep uponCommit wrapErr
  simp only [wp_bind, wp_read, wp_lift, wp_write, wp_ite, wp_pure, nil_append]
  rcases hadd : addFirstMsgForSignerAndRound i.state.commitContainer msg with e | ⟨added, c⟩
  · exact .skip
  cases added with
  | false =>
    obtain rfl := addFirst_notAdded hadd
    change if _ ∧ _ then _ else _
    rw [if_neg (by simp)]
    exact .skip
  | true =>
    have hstored : i.Performs now (.message msg) (i.withCommits c) [] :=
      .silent (.storeCommit valid hadd)
    change if _ ∧ _ then _ else _
    split
    · split
      · rename_i hquorum
        rcases hacc : i.state.proposalAcceptedForCurrentRound with - | proposal
        · rw [show (i.withCommits c).state.proposalAcceptedForCurrentRound = none from hacc]
          exact hstored
        · rw [show (i.withCommits c).state.proposalAcceptedForCurrentRound = some proposal
            from hacc]
          simp only [wp_bind, wp_lift, nil_append]
          rcases aggregateCommitMsgs _ proposal.signedMessage.fullData with e | agg
          · exact hstored
          · simp only [Except.mapError, wp_pure, nil_append, markDecided, wp_bind,
              wp_mapError, wp_read, wp_ite, wp_fail, wp_write, wp_emit,
              append_nil]
            split
            · exact hstored
            · exact ⟨.decide hacc valid hadd hquorum, fun _ _ hmem ↦ by simp at hmem⟩
      · exact hstored
    · exact hstored

/-! ### Round changes -/

theorem takesStep_changeRound {j : Instance} {input : Input} {ctx ctx' : String}
    (hlt : j.state.round < r) (hheight : j.state.height = i.state.height)
    (hstep : ∀ es, j.Sends (fun m ↦ m.msgType = .roundChange ∧ m.round = r ∧
      m.dataRound = j.preparedRound) es → i.Step now input (j.enterRound r) es)
    (hcreates : ∀ sm, r < j.config.cutOffRound → j.createRoundChange now r = .ok sm →
      i.Creates now sm input) :
    (changeRound now r ctx ctx').wp (fun i' es _ ↦ i.Performs now input i' es) j := by
  unfold changeRound
  simp only [wp_bind, wp_read, wp_update, wp_ite, wp_pure, nil_append, bumpToRound_of_lt hlt]
  split
  · apply wp_send
    · intro _
      exact .silent (hstep [] .nil)
    · intro sm _ hrel hsm
      obtain ⟨m, hm, htype, hheight', hr, hdata⟩ := isSigned_of_createRoundChange hsm
      have hs := hstep _ (.inr ⟨sm, m, rfl, hm, hheight', htype, hr, hdata⟩)
      have hc := hcreates sm (round_lt_of_isRelevant hrel) hsm
      change i.Performs now input _ [.broadcast sm j.state.height]
      rw [hheight] at hs ⊢
      exact .sent hs hc
  · exact .silent (hstep [] .nil)

/-- A justified round change comes with all that was checked, and this operator leads its round. -/
theorem findJustifiedRoundChange_some {rcs l : List ProcessingMessage}
    {newRound : ℕ} {rc : ProcessingMessage} {v : Data}
    (h : i.findJustifiedRoundChange now rcs newRound l = .ok (some (rc, v))) :
    rc ∈ l ∧ ∃ prepares, roundChangeJustification rc = .ok prepares ∧
      i.isProposalJustification now rcs prepares rc.qbftMessage.round v = .ok () ∧
      i.proposerForRound rc.qbftMessage.round = i.state.committeeMember.operatorID ∧
      ((i.state.proposalAcceptedForCurrentRound = none ∧ i.state.round = newRound) ∨
        i.state.round < newRound) := by
  induction l with
  | nil => simp [findJustifiedRoundChange] at h
  | cons x l ih =>
    simp only [findJustifiedRoundChange, bind_eq_ok] at h
    obtain ⟨prepares, hprepares, h⟩ := h
    split at h
    · rename_i hok
      obtain ⟨rfl, rfl⟩ : x = rc ∧ _ = v := by simpa using h
      refine ⟨by simp, prepares, hprepares, ?_⟩
      rcases hx : i.isProposalJustificationForLeadingRound now x rcs prepares
        (i.valueToPropose x) newRound with e | u
      · simp [hx, Except.isOk, Except.toBool] at hok
      replace hx : _ = Except.ok () := hx
      simp only [isProposalJustificationForLeadingRound, bind_eq_ok, exists_check, mapError_eq_ok,
        require_eq_ok] at hx
      exact hx
    · obtain ⟨hmem, hchecked⟩ := ih h
      exact ⟨by simp [hmem], hchecked⟩

theorem hasReceivedProposalJustificationForLeadingRound_some {rc : ProcessingMessage} {v : Data}
    (h : i.hasReceivedProposalJustificationForLeadingRound now msg = .ok (some (rc, v))) :
    rc.qbftMessage.round = msg.qbftMessage.round ∧
      hasQuorum i.state.committeeMember
        (messagesForRound i.state.roundChangeContainer msg.qbftMessage.round) = true ∧
      ∃ prepares, roundChangeJustification rc = .ok prepares ∧
        i.isProposalJustification now
          (messagesForRound i.state.roundChangeContainer msg.qbftMessage.round) prepares
          msg.qbftMessage.round v = .ok () ∧
        i.proposerForRound msg.qbftMessage.round = i.state.committeeMember.operatorID ∧
        ((i.state.proposalAcceptedForCurrentRound = none ∧
          i.state.round = msg.qbftMessage.round) ∨ i.state.round < msg.qbftMessage.round) := by
  unfold hasReceivedProposalJustificationForLeadingRound at h
  simp only at h
  split at h
  · rename_i hq
    obtain ⟨hmem, hchecked⟩ := findJustifiedRoundChange_some h
    have hround := round_of_mem_messagesForRound hmem
    rw [hround] at hchecked
    exact ⟨hround, hq, hchecked⟩
  · simp at h

theorem enterRound_of_current
    (h : (i.state.proposalAcceptedForCurrentRound = none ∧ i.state.round = r) ∨ i.state.round < r) :
    i.bumpToRound r = i.enterRound r := by
  rcases h with ⟨hacc, rfl⟩ | hlt
  · rw [bumpToRound_of_le le_rfl]
    unfold enterRound
    rw [← hacc]
  · exact bumpToRound_of_lt hlt

theorem takesStep_uponRoundChange
    (valid : i.validRoundChangeForDataIgnoreSignature msg msg.qbftMessage.round
      msg.signedMessage.fullData = .ok ()) :
    TakesStep now i (.message msg) (uponRoundChange now msg) := by
  unfold TakesStep uponRoundChange wrapErr
  simp only [wp_bind, wp_read, wp_lift, wp_write, wp_ite, wp_pure, nil_append]
  rcases hadd : addFirstMsgForSignerAndRound i.state.roundChangeContainer msg with e | ⟨added, c⟩
  · exact .skip
  cases added with
  | false =>
    obtain rfl := addFirst_notAdded hadd
    change if _ ∧ _ then _ else _
    rw [if_neg (by simp)]
    exact .skip
  | true =>
    have hstored : i.Performs now (.message msg) (i.withRoundChanges c) [] :=
      .silent (.storeRoundChange valid hadd)
    change if _ ∧ _ then _ else _
    split
    · rcases hj : (i.withRoundChanges c).hasReceivedProposalJustificationForLeadingRound now msg
        with e | - | ⟨rc, v⟩
      · exact hstored
      · -- no round to lead: perhaps a partial quorum for a later round
        change (if _ ∧ _ then _ else _ : InstanceAct Unit).wp _ _
        rw [wp_ite]
        split
        · rename_i hq
          refine takesStep_changeRound hq.2 rfl (fun es hes ↦ ?_)
            fun sm below hsm ↦ .roundChange hq.2 below hsm
          refine .follow valid hadd ?_ hq.1 hq.2 hes
          intro x hx
          obtain ⟨hmem, hlater⟩ := mem_filter.1 hx
          exact ⟨hmem, of_decide_eq_true hlater⟩
        · exact hstored
      · obtain ⟨hround, hq, prepares, hprepares, hjust, hleader, hcur⟩ :=
          hasReceivedProposalJustificationForLeadingRound_some hj
        change (proposeJustified now rc v).wp _ (i.withRoundChanges c)
        unfold proposeJustified
        have hlead : ∀ es, i.Sends (fun m ↦ m.msgType = .proposal) es →
            i.Step now (.message msg) ((i.withRoundChanges c).enterRound msg.qbftMessage.round)
              es :=
          fun es hes ↦ .lead valid hadd hq hcur hes
        simp only [wp_bind, wp_read, wp_update, wp_ite, wp_pure, wp_lift,
          nil_append, hround, enterRound_of_current hcur]
        split
        · rw [hprepares]
          apply wp_send
          · intro _
            exact .silent (hlead [] .nil)
          · intro sm _ hrel hsm
            obtain ⟨m, hm, htype, hheight, -⟩ := isSigned_of_createProposal hsm
            have hle : i.state.round ≤ msg.qbftMessage.round := by
              rcases hcur with ⟨-, heq⟩ | hlt
              · exact heq.le
              · exact hlt.le
            exact .sent (hlead _ (.inr ⟨sm, m, rfl, hm, hheight, htype⟩))
              (.proposal hle (round_lt_of_isRelevant hrel) hadd hprepares hjust hleader hsm)
        · exact .silent (hlead [] .nil)
    · exact hstored

/-! ### One call, one step -/

theorem takesStep_andThen_none {input : Input} {x : InstanceAct Unit}
    (h : TakesStep now i input x) :
    TakesStep now i input (do x; pure (none : Option (Data × SignedSSVMessage))) := by
  unfold TakesStep at h ⊢
  rw [wp_bind]
  refine wp_mono h fun i' es r hstep ↦ ?_
  cases r with
  | error => exact hstep
  | ok => simpa using hstep

theorem takesStep_processMsg (now : ℕ) (msg : ProcessingMessage) (i : Instance) :
    TakesStep now i (.message msg) (processMsg now msg) := by
  unfold TakesStep processMsg wrapErr
  simp only [wp_bind, wp_read, wp_ite, wp_lift, wp_fail, nil_append]
  split
  · rename_i hrel
    rcases hv : i.baseMsgValidation now msg with e | u
    · exact .skip
    replace hv : _ = Except.ok () := hv
    simp only [baseMsgValidation, bind_eq_ok, exists_check, require_eq_ok] at hv
    obtain ⟨-, -, hv⟩ := hv
    simp only [Except.mapError]
    cases htype : msg.qbftMessage.msgType with
    | proposal =>
      simp only [htype] at hv ⊢
      exact takesStep_andThen_none (takesStep_uponProposal hrel hv)
    | prepare =>
      simp only [htype] at hv ⊢
      rcases hacc : i.state.proposalAcceptedForCurrentRound with - | proposal
      · simp [hacc] at hv
      · simp only [hacc] at hv
        exact takesStep_andThen_none (takesStep_uponPrepare hacc hv)
    | commit =>
      simp only [htype] at hv ⊢
      rcases hacc : i.state.proposalAcceptedForCurrentRound with - | proposal
      · simp [hacc] at hv
      · simp only [hacc] at hv
        exact takesStep_uponCommit hv
    | roundChange =>
      simp only [htype] at hv ⊢
      exact takesStep_andThen_none (takesStep_uponRoundChange hv)
    | other =>
      simp [htype] at hv
  · exact .skip

theorem takesStep_uponRoundTimeout (now : ℕ) (i : Instance) :
    TakesStep now i .timeout (uponRoundTimeout now) := by
  unfold TakesStep uponRoundTimeout
  simp only [wp_bind, wp_read, wp_ite, wp_fail, nil_append]
  split
  · exact takesStep_changeRound (Nat.lt_succ_self _) rfl (fun es hes ↦ .timeout hes)
      fun sm below hsm ↦ .roundChange (Nat.lt_succ_self _) below hsm
  · exact .skip

/-- **A processed message is one step** of the instance, whatever the outcome. -/
theorem step_processMsg (now : ℕ) (msg : ProcessingMessage) (i : Instance) :
    i.Step now (.message msg) ((processMsg now msg).run i).state
      ((processMsg now msg).run i).events :=
  (takesStep_processMsg now msg i).step

/-- **A timeout is one step** of the instance. -/
theorem step_uponRoundTimeout (now : ℕ) (i : Instance) :
    i.Step now .timeout ((uponRoundTimeout now).run i).state
      ((uponRoundTimeout now).run i).events :=
  (takesStep_uponRoundTimeout now i).step

/-- **What a processed message makes an instance send.** -/
theorem processMsg_creates (now : ℕ) (msg : ProcessingMessage) (i : Instance) :
    i.CreatesAll now (.message msg) ((processMsg now msg).run i).events :=
  (takesStep_processMsg now msg i).creates

theorem uponRoundTimeout_creates (now : ℕ) (i : Instance) :
    i.CreatesAll now .timeout ((uponRoundTimeout now).run i).events :=
  (takesStep_uponRoundTimeout now i).creates

end Instance

end Ssv
