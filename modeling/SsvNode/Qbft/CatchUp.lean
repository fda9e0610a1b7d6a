import SsvNode.Qbft.RoundProgress

/-!
# Catching up with later rounds

When `f + 1` signers have sent round changes for later rounds, `uponRoundChange` jumps to the
**lowest** of these rounds, once. If every one of the signers has gone further, the instance is left
behind until the next message. In runs in which every round change meets `CatchesUp`, at most `f`
signers are ahead of an undecided instance (`caughtUp_iff`).
-/

namespace Ssv

open SsvSpec Checks Act List Finset

variable [SsvSpec]

namespace Instance

variable {i i' : Instance} {now : ℕ} {msg x : ProcessingMessage} {c : MsgContainer}

/-! ### Who is ahead -/

def laterRoundChanges (i : Instance) : List ProcessingMessage := i.hasReceivedPartialQuorum.2

def ahead (i : Instance) : Finset OperatorID := uniqueSigners i.laterRoundChanges

/-- Fewer than `f + 1` signers are ahead. -/
def CaughtUp (i : Instance) : Prop := i.ahead.card ≤ i.state.committeeMember.faultyNodes

theorem mem_laterRoundChanges : x ∈ i.laterRoundChanges ↔
    x ∈ allMessages i.state.roundChangeContainer ∧ i.state.round < x.qbftMessage.round := by
  unfold laterRoundChanges hasReceivedPartialQuorum
  rw [mem_filter, decide_eq_true_iff]

variable {id : OperatorID} {P : Instance → Prop}

theorem mem_ahead : id ∈ i.ahead ↔
    ∃ x ∈ allMessages i.state.roundChangeContainer, i.state.round < x.qbftMessage.round ∧
      id ∈ x.signedMessage.operatorIDs := by
  unfold ahead
  simp only [mem_uniqueSigners, mem_laterRoundChanges, and_assoc]

theorem caughtUp_iff_not_partialQuorum :
    i.CaughtUp ↔ hasPartialQuorum i.state.committeeMember i.laterRoundChanges = false := by
  rw [← Bool.not_eq_true, hasPartialQuorum_iff, CaughtUp, ahead]
  omega

/-- With fewer round changes, and in a later round, nobody new is ahead. -/
theorem CaughtUp.mono (h : i.CaughtUp)
    (hmember : i'.state.committeeMember = i.state.committeeMember)
    (hstored : i'.state.roundChangeContainer = i.state.roundChangeContainer)
    (hround : i.state.round ≤ i'.state.round) : i'.CaughtUp := by
  have hsub : i'.ahead ⊆ i.ahead := fun id hid ↦ by
    obtain ⟨x, hx, hlt, hid⟩ := mem_ahead.1 hid
    exact mem_ahead.2 ⟨x, hstored ▸ hx, by omega, hid⟩
  unfold CaughtUp at h ⊢
  rw [hmember]
  exact (card_le_card hsub).trans h

/-! ### Adding a round change -/

section

variable (hadd : addFirstMsgForSignerAndRound i.state.roundChangeContainer msg = .ok (true, c))
include hadd

theorem mem_allMessages_of_added :
    x ∈ allMessages c ↔ x ∈ allMessages i.state.roundChangeContainer ∨ x = msg := by
  simp only [mem_allMessages, addFirst_added hadd]
  constructor
  · rintro ⟨r, hr | ⟨rfl, -⟩⟩
    · exact .inl ⟨r, hr⟩
    · exact .inr rfl
  · rintro (⟨r, hr⟩ | rfl)
    · exact ⟨r, .inl hr⟩
    · exact ⟨_, .inr ⟨rfl, rfl⟩⟩

theorem ahead_withRoundChanges (hsigner : msg.signedMessage.operatorIDs = [id]) :
    (i.withRoundChanges c).ahead =
      if i.state.round < msg.qbftMessage.round then insert id i.ahead else i.ahead := by
  ext op
  have hiff : op ∈ (i.withRoundChanges c).ahead ↔
      op ∈ i.ahead ∨ i.state.round < msg.qbftMessage.round ∧ op = id := by
    rw [mem_ahead, mem_ahead]
    simp only [withRoundChanges, mem_allMessages_of_added hadd]
    constructor
    · rintro ⟨x, hx | rfl, hlt, hop⟩
      · exact .inl ⟨x, hx, hlt, hop⟩
      · exact .inr ⟨hlt, by simpa [hsigner] using hop⟩
    · rintro (⟨x, hx, hlt, hop⟩ | ⟨hlt, rfl⟩)
      · exact ⟨x, .inl hx, hlt, hop⟩
      · exact ⟨msg, .inr rfl, hlt, by simp [hsigner]⟩
  rw [hiff]
  split
  · next hlt => simp [hlt, or_comm]
  · next hlt => simp [hlt]

theorem card_ahead_withRoundChanges_le (hsigner : msg.signedMessage.operatorIDs = [id]) :
    (i.withRoundChanges c).ahead.card ≤ i.ahead.card + 1 := by
  rw [ahead_withRoundChanges hadd hsigner]
  split
  · exact card_insert_le id i.ahead
  · exact Nat.le_succ _

end

/-- Before a quorum for a later round, `f + 1` of its signers are ahead. -/
theorem CaughtUp.not_later_of_hasQuorum (h : i.CaughtUp)
    (hf : 1 ≤ i.state.committeeMember.faultyNodes)
    (hadd : addFirstMsgForSignerAndRound i.state.roundChangeContainer msg = .ok (true, c))
    (hsigner : msg.signedMessage.operatorIDs = [id])
    (hquorum : hasQuorum i.state.committeeMember (messagesForRound c msg.qbftMessage.round) =
      true) :
    ¬ i.state.round < msg.qbftMessage.round := by
  intro hlt
  have hsub : uniqueSigners (messagesForRound c msg.qbftMessage.round) ⊆
      (i.withRoundChanges c).ahead := fun op hop ↦ by
    obtain ⟨x, hx, hop⟩ := mem_uniqueSigners.1 hop
    refine mem_ahead.2 ⟨x, mem_allMessages.2 ⟨_, hx⟩, ?_, hop⟩
    rw [round_of_mem_messagesForRound hx]
    exact hlt
  have hcard := hasQuorum_iff.1 hquorum
  have hle := card_le_card hsub
  have hadded := card_ahead_withRoundChanges_le hadd hsigner
  unfold CaughtUp at h
  omega

theorem CaughtUp.withRoundChanges_of_hasQuorum (h : i.CaughtUp)
    (hf : 1 ≤ i.state.committeeMember.faultyNodes)
    (hadd : addFirstMsgForSignerAndRound i.state.roundChangeContainer msg = .ok (true, c))
    (hsigner : msg.signedMessage.operatorIDs = [id])
    (hquorum : hasQuorum i.state.committeeMember
      (messagesForRound c msg.qbftMessage.round) = true) : (i.withRoundChanges c).CaughtUp := by
  have hround := h.not_later_of_hasQuorum hf hadd hsigner hquorum
  rw [CaughtUp, ahead_withRoundChanges hadd hsigner, if_neg hround]
  exact h

/-! ### The lowest round -/

omit [SsvSpec] in
theorem foldl_minRound_eq (rcs : List ProcessingMessage) (ret : ℕ) :
    let r := rcs.foldl (fun ret msg ↦ if ret = noRound ∨ ret > msg.qbftMessage.round then
      msg.qbftMessage.round else ret) ret
    r = ret ∨ ∃ x ∈ rcs, r = x.qbftMessage.round := by
  induction rcs generalizing ret with
  | nil => exact .inl rfl
  | cons y rcs ih =>
    rw [foldl_cons]
    split
    · rcases ih y.qbftMessage.round with h | ⟨x, hx, h⟩
      · exact .inr ⟨y, .head _, h⟩
      · exact .inr ⟨x, .tail _ hx, h⟩
    · exact (ih ret).imp_right fun ⟨x, hx, h⟩ ↦ ⟨x, .tail _ hx, h⟩

omit [SsvSpec] in
theorem exists_minRound_eq {rcs : List ProcessingMessage} (hne : rcs ≠ []) :
    ∃ x ∈ rcs, minRound rcs = x.qbftMessage.round := by
  obtain ⟨y, rest, rfl⟩ := exists_cons_of_ne_nil hne
  unfold minRound
  rw [foldl_cons, if_pos (.inl rfl)]
  rcases foldl_minRound_eq rest y.qbftMessage.round with h | ⟨x, hx, h⟩
  · exact ⟨y, .head _, h⟩
  · exact ⟨x, .tail _ hx, h⟩

/-! ### What a round change does -/

/-- What `uponRoundChange` makes of the instance, whether it fails or not. -/
inductive RoundChanged (i : Instance) (msg : ProcessingMessage) : Instance → Prop
  | known (notAdded : ∀ c,
      addFirstMsgForSignerAndRound i.state.roundChangeContainer msg ≠ .ok (true, c)) :
      RoundChanged i msg i
  /-- The message is stored, and nothing follows from it. -/
  | stored {c : MsgContainer}
      (added : addFirstMsgForSignerAndRound i.state.roundChangeContainer msg = .ok (true, c))
      (stays : hasQuorum i.state.committeeMember
          (messagesForRound c msg.qbftMessage.round) = true ∨ (i.withRoundChanges c).CaughtUp) :
      RoundChanged i msg (i.withRoundChanges c)
  /-- The message completes a quorum for a round this operator leads. -/
  | leads {c : MsgContainer}
      (added : addFirstMsgForSignerAndRound i.state.roundChangeContainer msg = .ok (true, c))
      (quorum : hasQuorum i.state.committeeMember (messagesForRound c msg.qbftMessage.round) =
        true) :
      RoundChanged i msg ((i.withRoundChanges c).bumpToRound msg.qbftMessage.round)
  /-- The message completes a partial quorum: the lowest later round is entered. -/
  | joins {c : MsgContainer}
      (added : addFirstMsgForSignerAndRound i.state.roundChangeContainer msg = .ok (true, c))
      (behind : ¬ (i.withRoundChanges c).CaughtUp) :
      RoundChanged i msg
        ((i.withRoundChanges c).bumpToRound (minRound (i.withRoundChanges c).laterRoundChanges))

theorem wp_changeRound_state {r : ℕ} {ctx ctx' : String}
    (h : P (i.bumpToRound r)) : (changeRound now r ctx ctx').wp (fun i' _ _ ↦ P i') i := by
  unfold changeRound
  simp only [wp_bind, wp_read, wp_update, wp_ite, wp_pure]
  split
  · exact wp_send (fun _ ↦ h) fun _ _ _ _ ↦ h
  · exact h

theorem wp_proposeJustified_state {rc : ProcessingMessage} {v : Data}
    (h : P (i.bumpToRound rc.qbftMessage.round)) :
    (proposeJustified now rc v).wp (fun i' _ _ ↦ P i') i := by
  unfold proposeJustified
  simp only [wp_bind, wp_read, wp_update, wp_ite, wp_pure, wp_lift]
  split
  · rcases roundChangeJustification rc with e | prepares
    · exact h
    · exact wp_send (fun _ ↦ h) fun _ _ _ _ ↦ h
  · exact h

theorem quorum_of_hasReceivedProposalJustification
    (h : i.hasReceivedProposalJustificationForLeadingRound now msg ≠ .ok none) :
    hasQuorum i.state.committeeMember
      (messagesForRound i.state.roundChangeContainer msg.qbftMessage.round) = true := by
  by_contra hquorum
  refine h ?_
  unfold hasReceivedProposalJustificationForLeadingRound
  dsimp only
  rw [if_neg hquorum]
  rfl

theorem hasQuorum_of_added
    (hadd : addFirstMsgForSignerAndRound i.state.roundChangeContainer msg = .ok (true, c)) {r : ℕ}
    (hquorum : hasQuorum i.state.committeeMember
      (messagesForRound i.state.roundChangeContainer r) = true) :
    hasQuorum i.state.committeeMember (messagesForRound c r) = true := by
  rw [hasQuorum_iff] at hquorum ⊢
  refine hquorum.trans (card_le_card fun op hop ↦ ?_)
  obtain ⟨x, hx, hop⟩ := mem_uniqueSigners.1 hop
  exact mem_uniqueSigners.2 ⟨x, (addFirst_added hadd).2 (.inl hx), hop⟩

theorem laterRoundChanges_ne_nil (h : ¬ i.CaughtUp) : i.laterRoundChanges ≠ [] := fun hnil ↦
  h (by simp [CaughtUp, ahead, hnil, uniqueSigners])

theorem lt_minRound_of_not_caughtUp (h : ¬ i.CaughtUp) :
    i.state.round < minRound i.laterRoundChanges := by
  obtain ⟨x, hx, hround⟩ := exists_minRound_eq (laterRoundChanges_ne_nil h)
  rw [hround]
  exact (mem_laterRoundChanges.1 hx).2

theorem roundChanged_uponRoundChange (now : ℕ) (msg : ProcessingMessage) (i : Instance) :
    i.RoundChanged msg ((uponRoundChange now msg).run i).state := by
  change (uponRoundChange now msg).wp (fun i' _ _ ↦ i.RoundChanged msg i') i
  unfold uponRoundChange wrapErr
  simp only [wp_bind, wp_read, wp_lift, wp_write, wp_ite, wp_pure]
  rcases hadd : addFirstMsgForSignerAndRound i.state.roundChangeContainer msg with e | ⟨added, c⟩
  · exact .known fun c hc ↦ by rw [hadd] at hc; cases hc
  cases added with
  | false =>
    obtain rfl := addFirst_notAdded hadd
    change if _ ∧ _ then _ else _
    rw [if_neg (by simp)]
    exact .known fun c hc ↦ by rw [hadd] at hc; cases hc
  | true =>
    change if _ ∧ _ then _ else _
    split
    · rcases hj : (i.withRoundChanges c).hasReceivedProposalJustificationForLeadingRound now msg
        with e | - | ⟨rc, v⟩
      · exact .stored hadd (.inl (quorum_of_hasReceivedProposalJustification (by rw [hj]; simp)))
      · change (if _ ∧ _ then _ else _ : InstanceAct Unit).wp _ _
        rw [wp_ite]
        split
        · next hq =>
          refine wp_changeRound_state (.joins hadd fun hup ↦ ?_)
          rw [caughtUp_iff_not_partialQuorum] at hup
          exact Bool.false_ne_true (hup.symm.trans hq.1)
        · next hq =>
          refine .stored hadd (.inr (by_contra fun hbehind ↦
            hq ⟨?_, lt_minRound_of_not_caughtUp hbehind⟩))
          rw [caughtUp_iff_not_partialQuorum, Bool.not_eq_false] at hbehind
          exact hbehind
      · obtain ⟨hround, hquorum, -⟩ := hasReceivedProposalJustificationForLeadingRound_some hj
        refine wp_proposeJustified_state ?_
        rw [hround]
        exact .leads hadd hquorum
    · next hnot =>
      refine .stored hadd (.inl (hasQuorum_of_added hadd ?_))
      simpa using hnot

/-! ### When one jump is enough -/

/-- One of the signers ahead has not gone beyond the lowest of the later rounds. -/
def HasStraggler (i : Instance) : Prop :=
  ∃ op ∈ i.ahead, ∀ x ∈ i.laterRoundChanges, op ∈ x.signedMessage.operatorIDs →
    ∀ y ∈ i.laterRoundChanges, x.qbftMessage.round ≤ y.qbftMessage.round

instance : DecidablePred HasStraggler := fun i ↦
  inferInstanceAs (Decidable (∃ op ∈ i.ahead, _))

instance : DecidablePred CaughtUp := fun _ ↦ inferInstanceAs (Decidable (_ ≤ _))

/-- Nobody new is ahead, or they are not `f + 1`, or one of them has not gone further. -/
def CatchesUp (i : Instance) (msg : ProcessingMessage) : Prop :=
  match addFirstMsgForSignerAndRound i.state.roundChangeContainer msg with
  | .ok (true, c) => (i.withRoundChanges c).CaughtUp ∨ (i.withRoundChanges c).HasStraggler
  | _ => True

instance {i : Instance} {msg : ProcessingMessage} : Decidable (i.CatchesUp msg) := by
  unfold CatchesUp
  split <;> infer_instance

theorem minRound_laterRoundChanges_le (hx : x ∈ i.laterRoundChanges) :
    minRound i.laterRoundChanges ≤ x.qbftMessage.round := by
  refine minRound_le (fun y hy hzero ↦ ?_) hx
  have hlater := (mem_laterRoundChanges.1 hy).2
  rw [hzero] at hlater
  exact Nat.not_lt_zero _ hlater

theorem mem_ahead_bumpToRound (hbehind : ¬ i.CaughtUp) {op : OperatorID} :
    op ∈ (i.bumpToRound (minRound i.laterRoundChanges)).ahead ↔
      ∃ x ∈ i.laterRoundChanges, op ∈ x.signedMessage.operatorIDs ∧
        minRound i.laterRoundChanges < x.qbftMessage.round := by
  have hlt := lt_minRound_of_not_caughtUp hbehind
  rw [bumpToRound_of_lt hlt, mem_ahead]
  constructor
  · rintro ⟨x, hx, hround, hop⟩
    exact ⟨x, mem_laterRoundChanges.2 ⟨hx, hlt.trans hround⟩, hop, hround⟩
  · rintro ⟨x, hx, hop, hround⟩
    exact ⟨x, (mem_laterRoundChanges.1 hx).1, hround, hop⟩

/-- If `f + 1` signers are ahead, one jump is enough exactly if one has not gone further. -/
theorem caughtUp_bumpToRound_iff (hbehind : ¬ i.CaughtUp)
    (hcard : i.ahead.card ≤ i.state.committeeMember.faultyNodes + 1) :
    (i.bumpToRound (minRound i.laterRoundChanges)).CaughtUp ↔ i.HasStraggler := by
  have hlt := lt_minRound_of_not_caughtUp hbehind
  have hsub : (i.bumpToRound (minRound i.laterRoundChanges)).ahead ⊆ i.ahead := fun op hop ↦ by
    obtain ⟨x, hx, hop, -⟩ := (mem_ahead_bumpToRound hbehind).1 hop
    exact mem_uniqueSigners.2 ⟨x, hx, hop⟩
  have hmember : (i.bumpToRound (minRound i.laterRoundChanges)).state.committeeMember =
      i.state.committeeMember := by
    rw [bumpToRound_of_lt hlt]
    rfl
  unfold CaughtUp at hbehind
  rw [CaughtUp, hmember]
  -- All `f + 1` are still ahead, or one is not.
  constructor
  · intro hup
    obtain ⟨op, hop, hnot⟩ := exists_mem_notMem_of_card_lt_card
      (show (i.bumpToRound (minRound i.laterRoundChanges)).ahead.card < i.ahead.card by omega)
    refine ⟨op, hop, fun x hx hxop y hy ↦ le_trans ?_ (minRound_laterRoundChanges_le hy)⟩
    by_contra hgt
    exact hnot ((mem_ahead_bumpToRound hbehind).2 ⟨x, hx, hxop, by omega⟩)
  · rintro ⟨op, hop, hlowest⟩
    have hnot : op ∉ (i.bumpToRound (minRound i.laterRoundChanges)).ahead := fun hmem ↦ by
      obtain ⟨x, hx, hxop, hgt⟩ := (mem_ahead_bumpToRound hbehind).1 hmem
      obtain ⟨y, hy, hmin⟩ := exists_minRound_eq (laterRoundChanges_ne_nil hbehind)
      have := hlowest x hx hxop y hy
      omega
    have hcard' := card_lt_card (ssubset_iff_of_subset hsub |>.2 ⟨op, hop, hnot⟩)
    omega

/-- **One round change.** At most `f` signers stay ahead exactly if the message catches up. -/
theorem caughtUp_uponRoundChange_iff {op : OperatorID} (h : i.CaughtUp)
    (hf : 1 ≤ i.state.committeeMember.faultyNodes)
    (hsigner : msg.signedMessage.operatorIDs = [op]) :
    ((uponRoundChange now msg).run i).state.CaughtUp ↔ i.CatchesUp msg := by
  have hchanged := roundChanged_uponRoundChange now msg i
  generalize ((uponRoundChange now msg).run i).state = i' at hchanged
  unfold CatchesUp
  cases hchanged with
  | known notAdded =>
    split
    · next c hc => exact absurd hc (notAdded c)
    · exact iff_true_intro h
  | @stored c added stays =>
    have hup : (i.withRoundChanges c).CaughtUp :=
      stays.elim (h.withRoundChanges_of_hasQuorum hf added hsigner) id
    rw [added]
    exact iff_of_true hup (.inl hup)
  | @leads c added quorum =>
    have hup := h.withRoundChanges_of_hasQuorum hf added hsigner quorum
    have hround := h.not_later_of_hasQuorum hf added hsigner quorum
    rw [added, bumpToRound_of_le (i := i.withRoundChanges c) (Nat.le_of_not_lt hround)]
    exact iff_of_true hup (.inl hup)
  | @joins c added behind =>
    rw [added]
    have hcard := card_ahead_withRoundChanges_le added hsigner
    have hcard' : (i.withRoundChanges c).ahead.card ≤
        (i.withRoundChanges c).state.committeeMember.faultyNodes + 1 :=
      hcard.trans (Nat.add_le_add_right h 1)
    rw [caughtUp_bumpToRound_iff behind hcard']
    exact (or_iff_right behind).symm

/-! ### Runs of an instance -/

inductive InstanceCall where
  | start (now : ℕ) (value : Data) (valueChecker : ValueChecker)
  | processMsg (now : ℕ) (msg : ProcessingMessage)
  | uponRoundTimeout (now : ℕ)
  | concludeInstance (msg : ProcessingMessage)
  | markIrrelevant

/-- What a call leaves behind, whether it fails or not. -/
def next (i : Instance) : InstanceCall → Instance
  | .start now value valueChecker => ((start now value valueChecker).run i).state
  | .processMsg now msg => ((processMsg now msg).run i).state
  | .uponRoundTimeout now => ((uponRoundTimeout now).run i).state
  | .concludeInstance msg => ((Controller.concludeInstance msg).run i).state
  | .markIrrelevant => i.markIrrelevant

/-- An instance of a committee that tolerates a fault, driven in any way. -/
def machine : Machine Instance InstanceCall where
  initial i := ∃ config committeeMember identifier height signer,
    1 ≤ committeeMember.faultyNodes ∧ i = newInstance config committeeMember identifier height
      signer
  enabled _ _ := True
  next := next

def TakesRoundChange (i : Instance) (now : ℕ) (msg : ProcessingMessage) : Prop :=
  i.isRelevant = true ∧ i.baseMsgValidation now msg = .ok () ∧
  msg.qbftMessage.msgType = .roundChange

instance : Decidable (i.TakesRoundChange now msg) := inferInstanceAs (Decidable (_ ∧ _ ∧ _))

/-- The round changes that reach an undecided instance catch up. -/
def AllCatchUp (i : Instance) : InstanceCall → Prop
  | .processMsg now msg =>
    i.state.decided = false → i.TakesRoundChange now msg → i.CatchesUp msg
  | _ => True

structure KeepsUp (i : Instance) : Prop where
  tolerates : 1 ≤ i.state.committeeMember.faultyNodes
  caughtUp : i.state.decided = false → i.CaughtUp

theorem KeepsUp.frame (h : i.KeepsUp)
    (hmember : i'.state.committeeMember = i.state.committeeMember)
    (hstep : i'.state.decided = true ∨ i'.state.decided = i.state.decided ∧
      i'.state.roundChangeContainer = i.state.roundChangeContainer ∧
        i.state.round ≤ i'.state.round) :
    i'.KeepsUp where
  tolerates := hmember ▸ h.tolerates
  caughtUp hund := by
    rcases hstep with hdecided | ⟨hdecided, hstored, hround⟩
    · rw [hdecided] at hund
      cases hund
    · exact (h.caughtUp (hdecided ▸ hund)).mono hmember hstored hround

theorem KeepsUp.step {input : Input} {es : List Event} (h : i.KeepsUp)
    (hstep : i.Step now input i' es)
    (hinput : ∀ msg, input = .message msg → msg.qbftMessage.msgType ≠ .roundChange) :
    i'.KeepsUp := by
  have hmember : i'.state.committeeMember = i.state.committeeMember :=
    congrArg Scope.committeeMember hstep.scope_eq
  have hnot {msg : ProcessingMessage} (heq : input = .message msg) {α : Prop}
      (hvalid : i.validRoundChangeForDataIgnoreSignature msg msg.qbftMessage.round
        msg.signedMessage.fullData = .ok ()) : α :=
    absurd (validRoundChange_iff.1 hvalid).msgType (hinput msg heq)
  refine h.frame hmember ?_
  cases hstep with
  | skip | storePrepare | prepareQuorum | storeCommit => exact .inr ⟨rfl, rfl, le_rfl⟩
  | giveUp valid lt => exact .inr ⟨rfl, rfl, lt.le⟩
  | acceptProposal valid =>
    refine .inr ⟨rfl, rfl, ?_⟩
    rcases (isValidProposal_iff.1 valid).current with ⟨-, heq⟩ | hlt
    · exact heq.ge
    · exact hlt.le
  | decide => exact .inl rfl
  | storeRoundChange valid | lead valid | follow valid => exact hnot rfl valid
  | timeout => exact .inr ⟨rfl, rfl, Nat.le_succ _⟩

theorem processMsg_roundChange_state (htype : msg.qbftMessage.msgType = .roundChange)
    (htaken : i.TakesRoundChange now msg → P ((uponRoundChange now msg).run i).state)
    (hrefused : P i) : P ((processMsg now msg).run i).state := by
  change (processMsg now msg).wp (fun i' _ _ ↦ P i') i
  unfold processMsg wrapErr
  simp only [wp_bind, wp_read, wp_ite, wp_lift, wp_fail, htype]
  split
  · next hrelevant =>
    rcases hvalid : i.baseMsgValidation now msg with e | ⟨⟩
    · exact hrefused
    · have hP := htaken ⟨hrelevant, hvalid, htype⟩
      change (uponRoundChange now msg).wp _ i
      rw [wp_iff]
      split
      · exact hP
      · exact hP
  · exact hrefused

theorem TakesRoundChange.signer (h : i.TakesRoundChange now msg) :
    ∃ op, msg.signedMessage.operatorIDs = [op] := by
  obtain ⟨-, hvalid, htype⟩ := h
  simp only [baseMsgValidation, bind_eq_ok, exists_check, htype] at hvalid
  obtain ⟨op, -, hop⟩ := (validRoundChange_iff.1 hvalid.2.2).signer.exists
  exact ⟨op, hop⟩

theorem uponRoundChange_frame (now : ℕ) (msg : ProcessingMessage) (i : Instance) :
    ((uponRoundChange now msg).run i).state.state.committeeMember = i.state.committeeMember ∧
      ((uponRoundChange now msg).run i).state.state.decided = i.state.decided := by
  have hchanged := roundChanged_uponRoundChange now msg i
  generalize ((uponRoundChange now msg).run i).state = i' at hchanged
  cases hchanged with
  | known | stored => exact ⟨rfl, rfl⟩
  | leads | joins => unfold bumpToRound; split <;> exact ⟨rfl, rfl⟩

theorem concludeInstance_of_decided (h : i.state.decided = true) :
    ((Controller.concludeInstance msg).run i).state = i := by
  change (Controller.concludeInstance msg).wp (fun i' _ _ ↦ i' = i) i
  unfold Controller.concludeInstance markDecided
  simp only [wp_bind, wp_mapError, wp_read, wp_ite, wp_fail, h, if_true]
  trivial

theorem next_rule {call : InstanceCall} (hi : P i)
    (hstart : ∀ value valueChecker, P (i.withStart value valueChecker))
    (hmessage : ∀ now msg, call = .processMsg now msg → P ((processMsg now msg).run i).state)
    (htimeout : ∀ now, P ((uponRoundTimeout now).run i).state)
    (hconclude : i.state.decided = false → ∀ msg i', i.Concluded msg i' → P i')
    (hirrelevant : P i.markIrrelevant) : P (i.next call) := by
  cases call with
  | start now value valueChecker =>
    exact wp_start (i := i) (Q := fun i' _ _ ↦ P i') fun _ _ _ ↦ hstart value valueChecker
  | processMsg now msg => exact hmessage now msg rfl
  | uponRoundTimeout now => exact htimeout now
  | concludeInstance msg =>
    cases hdecided : i.state.decided with
    | true =>
      rw [Instance.next, concludeInstance_of_decided hdecided]
      exact hi
    | false =>
      exact wp_concludeInstance (Q := fun i' _ _ ↦ P i') hdecided
        fun i' _ hi' ↦ hconclude hdecided msg i' hi'
  | markIrrelevant => exact hirrelevant

/-- **The invariant.** It is kept by every call that meets the condition. -/
theorem KeepsUp.next {call : InstanceCall} (h : i.KeepsUp) (hcall : i.AllCatchUp call) :
    (i.next call).KeepsUp := by
  refine next_rule h ?start ?message ?timeout ?conclude ?irrelevant
  case start => exact fun _ _ ↦ h.frame rfl (.inr ⟨rfl, rfl, le_rfl⟩)
  case message =>
    rintro now msg rfl
    by_cases htype : msg.qbftMessage.msgType = .roundChange
    · refine processMsg_roundChange_state htype (fun htakes ↦ ?_) h
      obtain ⟨op, hop⟩ := htakes.signer
      obtain ⟨hmember, hdecided⟩ := uponRoundChange_frame now msg i
      refine ⟨hmember ▸ h.tolerates, fun hund ↦ ?_⟩
      rw [hdecided] at hund
      exact (caughtUp_uponRoundChange_iff (h.caughtUp hund) h.tolerates hop).2 (hcall hund htakes)
    · refine h.step (step_processMsg now msg i) fun msg' heq ↦ ?_
      cases heq
      exact htype
  case timeout => exact fun now ↦ h.step (step_uponRoundTimeout now i) nofun
  case conclude =>
    rintro - msg _ ⟨c, rfl⟩
    exact h.frame rfl (.inl rfl)
  case irrelevant => exact h.frame rfl (.inr ⟨rfl, rfl, le_rfl⟩)

theorem keepsUp_of_reachable (hi : (machine.restrict AllCatchUp).Reachable i) : i.KeepsUp := by
  refine Machine.Reachable.invariant (P := KeepsUp) ?_ ?_ hi
  · rintro _ ⟨config, committeeMember, identifier, height, signer, hf, rfl⟩
    refine ⟨hf, fun _ ↦ ?_⟩
    have hnil : (newInstance config committeeMember identifier height signer).ahead = ∅ := by
      refine eq_empty_of_forall_notMem fun op hop ↦ ?_
      obtain ⟨x, hx, -⟩ := mem_ahead.1 hop
      obtain ⟨r, hr⟩ := mem_allMessages.1 hx
      rw [newInstance, messagesForRound_new] at hr
      cases hr
    rw [CaughtUp, hnil]
    exact Nat.zero_le _
  · exact fun i call _ h hcall ↦ h.next hcall.2

/-- **Catching up.** If all round changes catch up, at most `f` signers are ahead of an undecided
instance, and the jump before a leader's proposal goes nowhere. The next one leaves it so exactly if
it catches up as well. -/
theorem caughtUp_iff (hi : (machine.restrict AllCatchUp).Reachable i)
    (hund : i.state.decided = false) :
    i.CaughtUp ∧ ∀ now msg, i.TakesRoundChange now msg →
      (((uponRoundChange now msg).run i).state.CaughtUp ↔ i.CatchesUp msg) ∧
      ∀ c rc v,
        addFirstMsgForSignerAndRound i.state.roundChangeContainer msg = .ok (true, c) →
        (i.withRoundChanges c).hasReceivedProposalJustificationForLeadingRound now msg =
          .ok (some (rc, v)) →
        (i.withRoundChanges c).bumpToRound rc.qbftMessage.round = i.withRoundChanges c := by
  have hkeeps := keepsUp_of_reachable hi
  have hup := hkeeps.caughtUp hund
  refine ⟨hup, fun now msg htakes ↦ ?_⟩
  obtain ⟨op, hop⟩ := htakes.signer
  refine ⟨caughtUp_uponRoundChange_iff hup hkeeps.tolerates hop, fun c rc v hadd hjustified ↦ ?_⟩
  obtain ⟨hround, hquorum, -⟩ := hasReceivedProposalJustificationForLeadingRound_some hjustified
  refine bumpToRound_of_le (i := i.withRoundChanges c) ?_
  rw [hround]
  exact Nat.le_of_not_lt (hup.not_later_of_hasQuorum hkeeps.tolerates hadd hop hquorum)

end Instance

end Ssv

/-! ### A signer with two round changes -/

namespace Ssv.Reference

open SsvSpec Instance

local instance catchUpSpec : SsvSpec := spec

/-- An instance of operator `1`, who leads every round. -/
def leaderInstance : Instance :=
  newInstance { proposerF := fun _ _ ↦ 1, network := fun _ _ _ ↦ .ok (), cutOffRound := 12 }
    (fourOperators.member 1) [7] 1 fun _ s ↦ .ok (signature 1 s)

def roundChangeOf (op : OperatorID) (round : ℕ) : ProcessingMessage where
  signedMessage := signed op (message .roundChange round 0) none
  qbftMessage := message .roundChange round 0

/-- Operator `2` sends round changes for rounds `2` and `3`. -/
def twiceTwo : List InstanceCall :=
  [.start 0 value nonEmpty, .processMsg 0 (roundChangeOf 2 2), .processMsg 0 (roundChangeOf 2 3)]

def twoAhead : Instance := twiceTwo.foldl Instance.next leaderInstance

def leftBehind : Instance := twoAhead.next (.processMsg 0 (roundChangeOf 3 3))

theorem leaderInstance_initial : machine.initial leaderInstance := ⟨_, _, _, _, _, by decide, rfl⟩

theorem twoAhead_reachable : (machine.restrict AllCatchUp).Reachable twoAhead := by
  have hstart : (machine.restrict AllCatchUp).Reachable leaderInstance :=
    .initial leaderInstance_initial
  have henables : (machine.restrict AllCatchUp).Enables leaderInstance twiceTwo :=
    ⟨⟨trivial, trivial⟩, ⟨trivial, fun _ _ ↦ by decide +kernel⟩,
      ⟨trivial, fun _ _ ↦ by decide +kernel⟩, trivial⟩
  exact hstart.foldl henables

/-- Operator `3` sends its round change for round `2` or, in the other case, for round `3`. -/
theorem caughtUp_iff_twoAhead :
    twoAhead.CaughtUp ∧ ((uponRoundChange 0 (roundChangeOf 3 2)).run twoAhead).state.CaughtUp := by
  obtain ⟨hup, hnext⟩ := caughtUp_iff twoAhead_reachable (by decide +kernel)
  exact ⟨hup, (hnext 0 (roundChangeOf 3 2) (by decide +kernel)).1.2 (by decide +kernel)⟩

/-- The round changes for round `3` make the instance jump to round `2` only; a third one takes it
to round `3`. -/
theorem leftBehind_twoRoundChanges :
    machine.Reachable leftBehind ∧ leftBehind.state.decided = false ∧ leftBehind.isRelevant = true ∧
    ((uponRoundChange 0 (roundChangeOf 3 3)).run twoAhead).result = .ok () ∧
    leftBehind.state.round = 2 ∧ leftBehind.ahead = {2, 3} ∧
    leftBehind.state.committeeMember.faultyNodes = 1 ∧
    ∃ c rc v,
      addFirstMsgForSignerAndRound leftBehind.state.roundChangeContainer (roundChangeOf 4 3) =
        .ok (true, c) ∧
      (leftBehind.withRoundChanges c).hasReceivedProposalJustificationForLeadingRound 0
        (roundChangeOf 4 3) = .ok (some (rc, v)) ∧
      ((leftBehind.withRoundChanges c).bumpToRound rc.qbftMessage.round).state.round = 3 := by
  have hstart : machine.Reachable leaderInstance := .initial leaderInstance_initial
  have henables : machine.Enables leaderInstance twiceTwo := ⟨trivial, trivial, trivial, trivial⟩
  have hrun : machine.Reachable leftBehind := (hstart.foldl henables).step
    (a := InstanceCall.processMsg 0 (roundChangeOf 3 3)) trivial
  refine ⟨hrun, by decide +kernel, by decide +kernel, by decide +kernel, by decide +kernel,
    by decide +kernel, by decide +kernel,
    [roundChangeOf 2 2, roundChangeOf 2 3, roundChangeOf 3 3, roundChangeOf 4 3], roundChangeOf 2 3,
    value, by decide +kernel, by decide +kernel, by decide +kernel⟩

end Ssv.Reference
