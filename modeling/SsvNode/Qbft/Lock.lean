import SsvNode.Qbft.NonEquivocation

/-!
# The lock of an operator that has committed

An operator that has committed says in its round changes what it was prepared for.
`Instance.Locked`: the prepared round of an undecided instance is at least that of every commit its
operator has sent. `getRoundChangeData` takes a nil value for "not prepared", so the lock needs
values that are not nil.
-/

namespace Ssv

open SsvSpec

/-- A value check that lets no empty value through. -/
def RejectsEmpty (checker : ValueChecker) : Prop :=
  ∀ now v, checker now v = .ok () → Data.bytes v ≠ []

variable [SsvSpec]

namespace Instance

variable {log es : List Event} {i i' : Instance} {m : Message}

/-- The log of an operator and the value its undecided instance is locked on. -/
structure Locked (log : List Event) (i : Instance) : Prop where
  checker : ∀ checker, i.valueChecker = some checker → RejectsEmpty checker
  accepted : ∀ p, i.state.proposalAcceptedForCurrentRound = some p → p.signedMessage.fullData ≠ none
  committed : ∀ m, Sent log m → m.height = i.state.height → m.msgType = .commit →
    m.round ≤ i.state.lastPreparedRound ∧ i.state.lastPreparedValue ≠ none

namespace Locked

theorem round_le_preparedRound (h : Locked log i) (hm : Sent log m)
    (hheight : m.height = i.state.height) (htype : m.msgType = .commit) :
    m.round ≤ i.preparedRound := by
  obtain ⟨hle, hval⟩ := h.committed m hm hheight htype
  unfold preparedRound getRoundChangeData
  split
  · exact hle
  · rename_i hnot
    have hzero : i.state.lastPreparedRound = noRound := by
      by_contra hne
      exact hnot ⟨hne, hval⟩
    rw [hzero] at hle
    exact hle

theorem ne_none_of_checkValue {now : ℕ} {v : Data} (h : Locked log i)
    (hv : i.checkValue now v = .ok ()) : v ≠ none := by
  unfold checkValue at hv
  split at hv
  · simp at hv
  · rintro rfl
    exact h.checker _ ‹_› now none hv rfl

/-- Whatever leaves the accepted proposal and the prepared value, and sends no commit. -/
theorem frame (h : Locked log i) (hheight : i'.state.height = i.state.height)
    (hchecker : i'.valueChecker = i.valueChecker)
    (hacc : ∀ p, i'.state.proposalAcceptedForCurrentRound = some p →
      i.state.proposalAcceptedForCurrentRound = some p)
    (hround : i'.state.lastPreparedRound = i.state.lastPreparedRound)
    (hvalue : i'.state.lastPreparedValue = i.state.lastPreparedValue)
    (hes : ∀ m, Sent es m → m.height = i.state.height → m.msgType ≠ .commit) :
    Locked (log ++ es) i' where
  checker := by rw [hchecker]; exact h.checker
  accepted p hp := h.accepted p (hacc p hp)
  committed m hm hh ht := by
    rw [hheight] at hh
    rw [hround, hvalue]
    rcases sent_append.1 hm with hm | hm
    · exact h.committed m hm hh ht
    · exact absurd ht (hes m hm hh)

/-- **Every transition keeps the lock.** The commit of `prepareQuorum` is for the round it locks. -/
theorem step {now : ℕ} {input : Input} (h : Locked log i) (hsound : i.Sound log)
    (hstep : i.Step now input i' es) : Locked (log ++ es) i' := by
  cases hstep with
  | skip => exact h.frame rfl rfl (fun _ hp ↦ hp) rfl rfl fun _ hm ↦ absurd hm not_sent_nil
  | giveUp =>
    refine h.frame rfl rfl (fun p hp ↦ ?_) rfl rfl fun _ hm ↦ absurd hm not_sent_nil
    simp [enterRound] at hp
  | @acceptProposal msg c es valid sends =>
    obtain ⟨rcs, prepares, -, -, hjust⟩ := (isValidProposal_iff.1 valid).justified
    have hvalue := h.ne_none_of_checkValue (isProposalJustification_iff.1 hjust).1
    refine ⟨h.checker, fun p hp ↦ ?_, fun m hm hh ht ↦ ?_⟩
    · obtain rfl : msg = p := by simpa [withAccepted] using hp
      exact hvalue
    · rcases sent_append.1 hm with hm | hm
      · exact h.committed m hm hh ht
      · have := (sends.of_sent hm).2.1
        simp [ht] at this
  | storePrepare | storeCommit | storeRoundChange =>
    exact h.frame rfl rfl (fun _ hp ↦ hp) rfl rfl fun _ hm ↦ absurd hm not_sent_nil
  | @prepareQuorum msg p c es accepted valid added quorum sends =>
    refine ⟨h.checker, h.accepted, fun m hm hh ht ↦ ⟨?_, h.accepted p accepted⟩⟩
    rcases sent_append.1 hm with hm | hm
    · exact hsound.votes_le hm hh (.inr (.inl ht))
    · exact (sends.of_sent hm).2.2.1.le
  | decide =>
    exact h.frame rfl rfl (fun _ hp ↦ hp) rfl rfl fun _ hm ↦ absurd hm not_sent_markDecided
  | lead valid added quorum current sends =>
    refine h.frame rfl rfl (fun p hp ↦ ?_) rfl rfl fun m hm _ ht ↦ ?_
    · simp [enterRound] at hp
    · have := (sends.of_sent hm).2
      simp [ht] at this
  | follow valid added stored quorum lt sends | timeout sends =>
    refine h.frame rfl rfl (fun p hp ↦ ?_) rfl rfl fun m hm _ ht ↦ ?_
    · simp [enterRound] at hp
    · have := (sends.of_sent hm).2.1
      simp [ht] at this

end Locked

end Instance

/-- Instances are started with a value check that rejects the empty value. -/
def Call.ChecksValues : Call → Prop
  | .startNewInstance _ _ _ checker => RejectsEmpty checker
  | _ => True

namespace Node

variable {n : Node} {call : Call}

/-- The node is locked on what its operator committed to. -/
structure Locked (n : Node) : Prop where
  instances : ∀ x ∈ n.controller.items, x.state.decided = false → x.Locked n.log
  commit_pos : ∀ m, Sent n.log m → m.msgType = .commit → firstRound ≤ m.round
  /-- After a commit, a round change names its round or a later one. -/
  roundChange : ∀ m m', Sent n.log m → Sent n.log m' → m.msgType = .commit →
    m'.msgType = .roundChange → m.height = m'.height → m.round < m'.round → m.round ≤ m'.dataRound

theorem Locked.init {identifier : Bytes} {fn : Option (ℕ → Bytes)} {cm : CommitteeMember}
    {config : Config} {signer : OperatorSigner} :
    (Node.init (.newController identifier fn cm config signer)).Locked where
  instances _ hx := nomatch hx
  commit_pos _ hm := absurd hm not_sent_nil
  roundChange _ _ hm := absurd hm not_sent_nil

theorem Locked.instances_perform (h : n.Locked) (hn : n.Inv) (hcall : call.ChecksValues)
    {x : Instance} (hx : x ∈ (n.perform call).controller.items) (hund : x.state.decided = false) :
    x.Locked (n.perform call).log := by
  cases (n.step call).origin hn.wellFormed hx hund with
  | @kept y mem same quiet =>
    have hy : y.state.decided = false := by
      rcases same with rfl | rfl <;> exact hund
    have hquiet : ∀ m, Sent (n.eventsOf call) m → m.height = y.state.height →
        m.msgType ≠ .commit := fun m hm hheight ↦ absurd hheight (quiet m hm)
    rcases same with rfl | rfl
    · exact (h.instances x mem hy).frame rfl rfl (fun _ hp ↦ hp) rfl rfl hquiet
    · exact (h.instances y mem hy).frame rfl rfl (fun _ hp ↦ hp) rfl rfl hquiet
  | @started now height value checker call_eq le absent eq sends =>
    subst eq call_eq
    refine ⟨fun c hc ↦ ?_, fun p hp ↦ ?_, fun m hm hheight ht ↦ ?_⟩
    · obtain rfl : checker = c := by simpa [Instance.withStart] using hc
      exact hcall
    · simp [Instance.withStart, Controller.newInstance, Instance.newInstance] at hp
    · rcases sent_append.1 hm with hm | hm
      · exact absurd hheight (hn.no_votes_of_absent le absent hm)
      · have := (sends.of_sent hm).2
        simp [ht] at this
  | stepped mem undecided hands hstep events =>
    have hnew := (h.instances _ mem undecided).step (hn.sound _ mem undecided) hstep
    refine ⟨hnew.checker, hnew.accepted, fun m hm ↦ hnew.committed m ?_⟩
    exact sent_append.2 ((sent_append.1 hm).imp_right events.1)

theorem Locked.commit_pos_of_new (hn : n.Inv) {m : Message} (hm : Sent (n.eventsOf call) m)
    (ht : m.msgType = .commit) : firstRound ≤ m.round := by
  cases (n.step call).sentBy hn.wellFormed hm with
  | step mem undecided height hands hstep mem' events =>
    cases hstep.vote (events.1 hm) (.inr (.inl ht)) with
    | commit msgType accepted valid added quorum round =>
      rw [round]
      exact (hn.sound _ mem undecided).round_pos
    | prepare msgType | follow msgType | timeout msgType => simp [ht] at msgType
  | start proposal => simp [ht] at proposal

theorem Locked.le_dataRound_of_new (h : n.Locked) (hn : n.Inv) {m m' : Message}
    (hm : Sent n.log m) (hm' : Sent (n.eventsOf call) m') (ht : m.msgType = .commit)
    (ht' : m'.msgType = .roundChange) (hheight : m.height = m'.height) :
    m.round ≤ m'.dataRound := by
  cases (n.step call).sentBy hn.wellFormed hm' with
  | step mem undecided height hands hstep mem' events =>
    have hle := (h.instances _ mem undecided).round_le_preparedRound hm (hheight.trans height) ht
    cases hstep.vote (events.1 hm') (.inr (.inr ht')) with
    | prepare msgType | commit msgType => simp [ht'] at msgType
    | follow msgType valid added stored quorum round lt dataRound => rwa [dataRound]
    | timeout msgType round dataRound => rwa [dataRound]
  | start proposal => simp [ht'] at proposal

/-- **A call keeps the lock.** Only a round change that follows a commit matters. -/
theorem Locked.perform (h : n.Locked) (hn : n.Inv) (hcall : call.ChecksValues) :
    (n.perform call).Locked where
  instances _ hx hund := h.instances_perform hn hcall hx hund
  commit_pos m hm ht := by
    rcases sent_append.1 hm with hm | hm
    · exact h.commit_pos m hm ht
    · exact commit_pos_of_new hn hm ht
  roundChange m m' hm hm' ht ht' hheight hlt := by
    rcases sent_append.1 hm with hm | hm <;> rcases sent_append.1 hm' with hm' | hm'
    · exact h.roundChange m m' hm hm' ht ht' hheight hlt
    · exact h.le_dataRound_of_new hn hm hm' ht ht' hheight
    · have := hn.round_le_of_new hm hm' hheight.symm ht' (.inr ht)
      omega
    · obtain rfl := hn.sent_unique hm hm'
      simp [ht] at ht'

end Node

end Ssv
