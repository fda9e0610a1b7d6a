import SsvNode.Qbft.Transitions

/-!
# The votes of one instance

`Sent log m` says that a log hands `m` to the network. `Instance.Sound log i` relates an undecided
instance to the log of its operator: no vote is ahead of its round, prepares of the current round,
sent or stored, are for the accepted proposal, and behind every commit there is a stored quorum of
prepares. Every transition keeps it (`Sound.step`).
-/

namespace Ssv

open SsvSpec Checks List

variable [SsvSpec]

/-! ### Reading a log -/

/-- The event hands the message `m` to the network. -/
def Event.Carries (e : Event) (m : Message) : Prop :=
  ∃ sm slot, e = .broadcast sm slot ∧ newProcessingMessage sm = .ok ⟨sm, m⟩

/-- The log hands the message `m` to the network. -/
def Sent (log : List Event) (m : Message) : Prop := ∃ e ∈ log, e.Carries m

variable {log es : List Event} {m m' : Message} {i i' : Instance}

theorem sent_append : Sent (log ++ es) m ↔ Sent log m ∨ Sent es m := by
  simp [Sent, or_and_right, exists_or]

@[simp] theorem not_sent_nil : ¬ Sent [] m := by simp [Sent]

@[simp] theorem not_sent_markDecided {h r : ℕ} {v : Data} : ¬ Sent [Event.markDecided h r v] m := by
  simp [Sent, Event.Carries]

/-- A vote binds its sender; a proposal does not. -/
def MessageType.IsVote (t : MessageType) : Prop := t = .prepare ∨ t = .commit ∨ t = .roundChange

namespace Instance

theorem Sends.of_sent {P : Message → Prop} (h : i.Sends P es) (hm : Sent es m) :
    m.height = i.state.height ∧ P m := by
  rcases h with rfl | ⟨sm, m', rfl, hsigned, hheight, hP⟩
  · exact absurd hm not_sent_nil
  · obtain ⟨e, he, sm', slot, rfl, hdec⟩ := hm
    obtain ⟨rfl, -⟩ : sm' = sm ∧ slot = i.state.height := by simpa using he
    have hmm : m' = m := by simpa [hsigned.decodes] using hdec
    subst hmm
    exact ⟨hheight, hP⟩

theorem Sends.unique {P : Message → Prop} (h : i.Sends P es) (hm : Sent es m)
    (hm' : Sent es m') : m = m' := by
  rcases h with rfl | ⟨sm, m₀, rfl, hsigned, -, -⟩
  · exact absurd hm not_sent_nil
  · obtain ⟨e, he, sm₁, slot₁, rfl, hdec⟩ := hm
    obtain ⟨e', he', sm₂, slot₂, rfl, hdec'⟩ := hm'
    obtain ⟨rfl, -⟩ : sm₁ = sm ∧ slot₁ = i.state.height := by simpa using he
    obtain ⟨rfl, -⟩ : sm₂ = sm₁ ∧ slot₂ = i.state.height := by simpa using he'
    rw [hdec] at hdec'
    simpa using hdec'

/-! ### What a transition sends -/

section Step

variable {now : ℕ} {input : Input}

section

variable (h : i.Step now input i' es)
include h

theorem Step.scope_eq : i'.scope = i.scope := by
  cases h <;> rfl

theorem Step.height_eq : i'.getHeight = i.getHeight :=
  congrArg Scope.height h.scope_eq

/-- **What a step causes**: at most one message, or the mark of a decision. -/
theorem Step.causes :
    i.Sends (fun _ ↦ True) es ∧ i'.state.decided = i.state.decided ∨
      ∃ r v, es = [.markDecided i.getHeight r v] ∧ i'.state.decided = true := by
  have hsends : ∀ {P : Message → Prop}, i.Sends P es → i.Sends (fun _ ↦ True) es := by
    rintro P (rfl | ⟨sm, m, rfl, hsigned, hheight, -⟩)
    · exact .nil
    · exact .inr ⟨sm, m, rfl, hsigned, hheight, trivial⟩
  cases h with
  | decide => exact .inr ⟨_, _, rfl, rfl⟩
  | acceptProposal valid sends | lead valid added quorum current sends =>
      exact .inl ⟨hsends sends, rfl⟩
  | prepareQuorum accepted valid added quorum sends | timeout sends =>
      exact .inl ⟨hsends sends, rfl⟩
  | follow valid added stored quorum lt sends => exact .inl ⟨hsends sends, rfl⟩
  | _ => exact .inl ⟨.nil, rfl⟩

theorem Step.height_of_sent (hm : Sent es m) : m.height = i.getHeight := by
  rcases h.causes with ⟨sends, -⟩ | ⟨_, _, rfl, -⟩
  · exact (sends.of_sent hm).1
  · exact absurd hm not_sent_markDecided

end

/-- The vote `m`, sent by `i` on `input`, with the checks made for it. -/
inductive Vote (now : ℕ) (i : Instance) (m : Message) : Input → Prop
  | prepare {msg : ProcessingMessage} (msgType : m.msgType = .prepare)
      (valid : i.isValidProposal now msg = .ok ()) (round : m.round = msg.qbftMessage.round)
      (root : m.root = hashDataRoot msg.signedMessage.fullData) : Vote now i m (.message msg)
  | commit {msg proposal : ProcessingMessage} {c : MsgContainer} (msgType : m.msgType = .commit)
      (accepted : i.state.proposalAcceptedForCurrentRound = some proposal)
      (valid : ValidPrepare i.scope msg i.state.round proposal.qbftMessage.root)
      (added : addFirstMsgForSignerAndRound i.state.prepareContainer msg = .ok (true, c))
      (quorum : hasQuorum i.state.committeeMember (messagesForRound c i.state.round) = true)
      (round : m.round = i.state.round) (root : m.root = proposal.qbftMessage.root) :
      Vote now i m (.message msg)
  | follow {msg : ProcessingMessage} {c : MsgContainer} {rcs : List ProcessingMessage}
      (msgType : m.msgType = .roundChange)
      (valid : ValidRoundChange i.scope msg msg.qbftMessage.round msg.signedMessage.fullData)
      (added : addFirstMsgForSignerAndRound i.state.roundChangeContainer msg = .ok (true, c))
      (stored : ∀ x ∈ rcs, x ∈ allMessages c ∧ i.state.round < x.qbftMessage.round)
      (quorum : hasPartialQuorum i.state.committeeMember rcs = true)
      (round : m.round = minRound rcs) (lt : i.state.round < m.round)
      (dataRound : m.dataRound = i.preparedRound) : Vote now i m (.message msg)
  | timeout (msgType : m.msgType = .roundChange) (round : m.round = i.state.round + 1)
      (dataRound : m.dataRound = i.preparedRound) : Vote now i m .timeout

theorem Step.vote (h : i.Step now input i' es) (hm : Sent es m) (hv : m.msgType.IsVote) :
    i.Vote now m input := by
  cases h with
  | skip | giveUp | storePrepare | storeCommit | storeRoundChange => exact absurd hm not_sent_nil
  | acceptProposal valid sends =>
    obtain ⟨-, htype, hround, hroot⟩ := sends.of_sent hm
    exact .prepare htype valid hround hroot
  | prepareQuorum accepted valid added quorum sends =>
    obtain ⟨-, htype, hround, hroot⟩ := sends.of_sent hm
    exact .commit htype accepted (validPrepare_iff.1 valid) added quorum hround hroot
  | decide => exact absurd hm not_sent_markDecided
  | lead valid added quorum current sends =>
    have htype := (sends.of_sent hm).2
    rcases hv with ht | ht | ht <;> simp [htype] at ht
  | follow valid added stored quorum lt sends =>
    obtain ⟨-, htype, hround, hdata⟩ := sends.of_sent hm
    exact .follow htype (validRoundChange_iff.1 valid) added stored quorum hround
      (hround ▸ lt) hdata
  | timeout sends =>
    obtain ⟨-, htype, hround, hdata⟩ := sends.of_sent hm
    exact .timeout htype hround hdata

end Step

/-! ### The invariant -/

/-- The log of an operator and its undecided instance fit together. -/
structure Sound (log : List Event) (i : Instance) : Prop where
  round_pos : firstRound ≤ i.state.round
  votes_le : ∀ {m}, Sent log m → m.height = i.state.height → m.msgType.IsVote →
    m.round ≤ i.state.round
  prepare_accepted : ∀ {m}, Sent log m → m.height = i.state.height → m.msgType = .prepare →
    m.round = i.state.round →
    ∃ p, i.state.proposalAcceptedForCurrentRound = some p ∧ p.qbftMessage.root = m.root
  accepted_root : ∀ {p}, i.state.proposalAcceptedForCurrentRound = some p →
    p.qbftMessage.root = hashDataRoot p.signedMessage.fullData
  stored_le : ∀ {r x}, x ∈ messagesForRound i.state.prepareContainer r → r ≤ i.state.round
  stored_valid : ∀ {r x}, x ∈ messagesForRound i.state.prepareContainer r →
    ValidPrepare i.scope x r x.qbftMessage.root
  stored_accepted : ∀ {x}, x ∈ messagesForRound i.state.prepareContainer i.state.round →
    ∃ p, i.state.proposalAcceptedForCurrentRound = some p ∧ x.qbftMessage.root = p.qbftMessage.root
  commit_stored : ∀ {m}, Sent log m → m.height = i.state.height → m.msgType = .commit →
    hasQuorum i.state.committeeMember
        (messagesForRound i.state.prepareContainer m.round) = true ∧
      ∀ x ∈ messagesForRound i.state.prepareContainer m.round, x.qbftMessage.root = m.root

variable {cm : CommitteeMember}

theorem hasQuorum_mono {a b : List ProcessingMessage}
    (hab : ∀ x ∈ a, x ∈ b) (ha : hasQuorum cm a = true) : hasQuorum cm b = true := by
  rw [hasQuorum_iff] at ha ⊢
  refine ha.trans (Finset.card_le_card fun id hid ↦ ?_)
  obtain ⟨x, hx, hxid⟩ := mem_uniqueSigners.1 hid
  exact mem_uniqueSigners.2 ⟨x, hab x hx, hxid⟩

theorem exists_mem_of_hasQuorum {a : List ProcessingMessage}
    (ha : hasQuorum cm a = true) : ∃ x, x ∈ a := by
  rw [hasQuorum_iff] at ha
  obtain ⟨id, hid⟩ := Finset.card_pos.1 (show 0 < (uniqueSigners a).card by omega)
  obtain ⟨x, hx, -⟩ := mem_uniqueSigners.1 hid
  exact ⟨x, hx⟩

namespace Sound

theorem newInstance {config : Config} {id : Bytes} {h : ℕ}
    {signer : OperatorSigner} (hlog : ∀ m, Sent log m → m.height = h → ¬ m.msgType.IsVote) :
    Sound log (newInstance config cm id h signer) where
  round_pos := le_rfl
  votes_le hm hh hv := absurd hv (hlog _ hm hh)
  prepare_accepted hm hh ht _ := absurd (.inl ht) (hlog _ hm hh)
  accepted_root hp := by simp [Instance.newInstance] at hp
  stored_le hx := by simp [Instance.newInstance, messagesForRound_new] at hx
  stored_valid hx := by simp [Instance.newInstance, messagesForRound_new] at hx
  stored_accepted hx := by simp [Instance.newInstance, messagesForRound_new] at hx
  commit_stored hm hh ht := absurd (.inr (.inl ht)) (hlog _ hm hh)

section

variable (h : Sound log i)
include h

theorem congr (hscope : i'.scope = i.scope) (hround : i'.state.round = i.state.round)
    (hacc : i'.state.proposalAcceptedForCurrentRound = i.state.proposalAcceptedForCurrentRound)
    (hprep : i'.state.prepareContainer = i.state.prepareContainer) : Sound log i' := by
  have hheight : i'.state.height = i.state.height := congrArg Scope.height hscope
  have hcm : i'.state.committeeMember = i.state.committeeMember :=
    congrArg Scope.committeeMember hscope
  refine ⟨?_, ?_, ?_, ?_, ?_, ?_, ?_, ?_⟩
  · rw [hround]; exact h.round_pos
  · rw [hheight, hround]; exact h.votes_le
  · rw [hheight, hround, hacc]; exact h.prepare_accepted
  · rw [hacc]; exact h.accepted_root
  · rw [hround, hprep]; exact h.stored_le
  · rw [hscope, hprep]; exact h.stored_valid
  · rw [hround, hacc, hprep]; exact h.stored_accepted
  · rw [hheight, hcm, hprep]; exact h.commit_stored

theorem withProposals (c : MsgContainer) : Sound log (i.withProposals c) := h.congr rfl rfl rfl rfl

theorem withRoundChanges (c : MsgContainer) : Sound log (i.withRoundChanges c) :=
  h.congr rfl rfl rfl rfl

theorem congr_log {log' : List Event} (hlog : ∀ {m}, Sent log' m ↔ Sent log m) : Sound log' i where
  round_pos := h.round_pos
  votes_le hm := h.votes_le (hlog.1 hm)
  prepare_accepted hm := h.prepare_accepted (hlog.1 hm)
  accepted_root := h.accepted_root
  stored_le := h.stored_le
  stored_valid := h.stored_valid
  stored_accepted := h.stored_accepted
  commit_stored hm := h.commit_stored (hlog.1 hm)

theorem frame (hes : ∀ m, Sent es m → m.height = i.state.height → ¬ m.msgType.IsVote) :
    Sound (log ++ es) i where
  round_pos := h.round_pos
  votes_le hm hh hv := by
    rcases sent_append.1 hm with hm | hm
    · exact h.votes_le hm hh hv
    · exact absurd hv (hes _ hm hh)
  prepare_accepted hm hh ht hr := by
    rcases sent_append.1 hm with hm | hm
    · exact h.prepare_accepted hm hh ht hr
    · exact absurd (.inl ht) (hes _ hm hh)
  accepted_root := h.accepted_root
  stored_le := h.stored_le
  stored_valid := h.stored_valid
  stored_accepted := h.stored_accepted
  commit_stored hm hh ht := by
    rcases sent_append.1 hm with hm | hm
    · exact h.commit_stored hm hh ht
    · exact absurd (.inr (.inl ht)) (hes _ hm hh)

theorem enterRound {r : ℕ}
    (hcur : (i.state.proposalAcceptedForCurrentRound = none ∧ i.state.round = r) ∨
      i.state.round < r)
    (hes : ∀ m, Sent es m → m.height = i.state.height → m.msgType.IsVote →
      m.msgType = .roundChange ∧ m.round = r) :
    Sound (log ++ es) (i.enterRound r) := by
  have hle : i.state.round ≤ r := by rcases hcur with ⟨-, rfl⟩ | hlt <;> omega
  -- nothing of round `r` is known yet: it is new, or nothing has been accepted in it
  have hnew : ∀ {p : ProcessingMessage},
      i.state.proposalAcceptedForCurrentRound = some p → i.state.round < r := by
    intro p hp
    rcases hcur with ⟨hnone, -⟩ | hlt
    · simp [hnone] at hp
    · exact hlt
  refine ⟨h.round_pos.trans hle, ?_, ?_, ?_, ?_, h.stored_valid, ?_, ?_⟩
  · intro m hm hh hv
    rcases sent_append.1 hm with hm | hm
    · exact (h.votes_le hm hh hv).trans hle
    · exact (hes m hm hh hv).2.le
  · intro m hm hh ht hr
    have hr : m.round = r := hr
    rcases sent_append.1 hm with hm | hm
    · have hmle := h.votes_le hm hh (.inl ht)
      have heq : m.round = i.state.round := by omega
      obtain ⟨p, hp, -⟩ := h.prepare_accepted hm hh ht heq
      have := hnew hp
      omega
    · have := (hes m hm hh (.inl ht)).1
      simp [ht] at this
  · intro p hp
    simp [Instance.enterRound] at hp
  · intro r' x hx
    exact (h.stored_le hx).trans hle
  · intro x hx
    have hx : x ∈ messagesForRound i.state.prepareContainer r := hx
    have hxle := h.stored_le hx
    obtain rfl : i.state.round = r := by omega
    obtain ⟨p, hp, -⟩ := h.stored_accepted hx
    exact absurd (hnew hp) (lt_irrefl _)
  · intro m hm hh ht
    rcases sent_append.1 hm with hm | hm
    · exact h.commit_stored hm hh ht
    · have := (hes m hm hh (.inr (.inl ht))).1
      simp [ht] at this

theorem withAccepted {msg : ProcessingMessage}
    (hnone : i.state.proposalAcceptedForCurrentRound = none)
    (hroot : msg.qbftMessage.root = hashDataRoot msg.signedMessage.fullData)
    (hes : ∀ m, Sent es m → m.height = i.state.height → m.msgType.IsVote →
      m.msgType = .prepare ∧ m.round = i.state.round ∧ m.root = msg.qbftMessage.root) :
    Sound (log ++ es) (i.withAccepted msg) := by
  refine ⟨h.round_pos, ?_, ?_, ?_, h.stored_le, h.stored_valid, ?_, ?_⟩
  · intro m hm hh hv
    rcases sent_append.1 hm with hm | hm
    · exact h.votes_le hm hh hv
    · exact (hes m hm hh hv).2.1.le
  · intro m hm hh ht hr
    rcases sent_append.1 hm with hm | hm
    · obtain ⟨p, hp, -⟩ := h.prepare_accepted hm hh ht hr
      simp [hnone] at hp
    · exact ⟨msg, rfl, (hes m hm hh (.inl ht)).2.2.symm⟩
  · intro p hp
    obtain rfl : msg = p := by simpa [Instance.withAccepted] using hp
    exact hroot
  · intro x hx
    obtain ⟨p, hp, -⟩ := h.stored_accepted hx
    simp [hnone] at hp
  · intro m hm hh ht
    rcases sent_append.1 hm with hm | hm
    · exact h.commit_stored hm hh ht
    · have := (hes m hm hh (.inr (.inl ht))).1
      simp [ht] at this

theorem withPrepares {msg p : ProcessingMessage} {c : MsgContainer}
    (hacc : i.state.proposalAcceptedForCurrentRound = some p)
    (hvalid : ValidPrepare i.scope msg i.state.round p.qbftMessage.root)
    (hadd : addFirstMsgForSignerAndRound i.state.prepareContainer msg = .ok (true, c)) :
    Sound log (i.withPrepares c) := by
  have hmem : ∀ {r x}, x ∈ messagesForRound c r ↔
      x ∈ messagesForRound i.state.prepareContainer r ∨ (x = msg ∧ r = msg.qbftMessage.round) :=
    addFirst_added hadd
  refine ⟨h.round_pos, h.votes_le, h.prepare_accepted, h.accepted_root, ?_, ?_, ?_, ?_⟩
  · intro r x hx
    rcases hmem.1 hx with hx | ⟨-, rfl⟩
    · exact h.stored_le hx
    · exact hvalid.round.le
  · intro r x hx
    rcases hmem.1 hx with hx | ⟨rfl, rfl⟩
    · exact h.stored_valid hx
    · exact ⟨hvalid.msgType, hvalid.height, rfl, hvalid.validated, rfl, hvalid.signer⟩
  · intro x hx
    rcases hmem.1 hx with hx | ⟨rfl, -⟩
    · exact h.stored_accepted hx
    · exact ⟨p, hacc, hvalid.root⟩
  · intro m hm hh ht
    obtain ⟨hq, hroots⟩ := h.commit_stored hm hh ht
    refine ⟨hasQuorum_mono (fun x hx ↦ hmem.2 (.inl hx)) hq, fun x hx ↦ ?_⟩
    rcases hmem.1 hx with hx | ⟨rfl, hr⟩
    · exact hroots x hx
    · -- the commit was for the root of the accepted proposal, as a stored prepare shows
      obtain ⟨y, hy⟩ := exists_mem_of_hasQuorum hq
      have hround : m.round = i.state.round := by rw [hr, hvalid.round]
      rw [hround] at hy hroots
      obtain ⟨p', hp', hyroot⟩ := h.stored_accepted hy
      obtain rfl : p = p' := by simpa [hacc] using hp'
      rw [hvalid.root, ← hyroot]
      exact hroots y hy

theorem withPrepared {p : ProcessingMessage} {v : Data}
    (hacc : i.state.proposalAcceptedForCurrentRound = some p)
    (hq : hasQuorum i.state.committeeMember
      (messagesForRound i.state.prepareContainer i.state.round) = true)
    (hes : ∀ m, Sent es m → m.height = i.state.height → m.msgType.IsVote →
      m.msgType = .commit ∧ m.round = i.state.round ∧ m.root = p.qbftMessage.root) :
    Sound (log ++ es) (i.withPrepared v) := by
  refine ⟨h.round_pos, ?_, ?_, h.accepted_root, h.stored_le, h.stored_valid, h.stored_accepted, ?_⟩
  · intro m hm hh hv
    rcases sent_append.1 hm with hm | hm
    · exact h.votes_le hm hh hv
    · exact (hes m hm hh hv).2.1.le
  · intro m hm hh ht hr
    rcases sent_append.1 hm with hm | hm
    · exact h.prepare_accepted hm hh ht hr
    · have := (hes m hm hh (.inl ht)).1
      simp [ht] at this
  · intro m hm hh ht
    rcases sent_append.1 hm with hm | hm
    · exact h.commit_stored hm hh ht
    · obtain ⟨-, hround, hroot⟩ := hes m hm hh (.inr (.inl ht))
      rw [hround]
      refine ⟨hq, fun x hx ↦ ?_⟩
      obtain ⟨p', hp', hxroot⟩ := h.stored_accepted hx
      obtain rfl : p = p' := by simpa [hacc] using hp'
      rw [hxroot, hroot]

end

variable {input : Input} {now : ℕ}

/-- **Every transition keeps the log and the undecided instance in step.** -/
theorem step (h : Sound log i) (hstep : i.Step now input i' es)
    (hund : i'.state.decided = false) : Sound (log ++ es) i' := by
  cases hstep with
  | skip =>
    rw [append_nil]
    exact h
  | @giveUp msg c valid lt =>
    exact (h.withProposals c).enterRound (.inr lt) fun m hm ↦ absurd hm not_sent_nil
  | @acceptProposal msg c es valid sends =>
    obtain ⟨-, -, -, -, -, hroot, -, hcur⟩ := isValidProposal_iff.1 valid
    have hent : Sound (log ++ []) ((i.withProposals c).enterRound msg.qbftMessage.round) :=
      (h.withProposals c).enterRound (hcur.imp_left fun ⟨hnone, heq⟩ ↦ ⟨hnone, heq.symm⟩)
        fun m hm ↦ absurd hm not_sent_nil
    rw [append_nil] at hent
    refine hent.withAccepted rfl hroot fun m hm _ _ ↦ ?_
    obtain ⟨-, htype, hround, hmroot⟩ := sends.of_sent hm
    exact ⟨htype, hround, hmroot.trans hroot.symm⟩
  | storePrepare accepted valid added =>
    rw [append_nil]
    exact h.withPrepares accepted (validPrepare_iff.1 valid) added
  | prepareQuorum accepted valid added quorum sends =>
    refine (h.withPrepares accepted (validPrepare_iff.1 valid) added).withPrepared accepted
      quorum fun m hm _ _ ↦ ?_
    exact (sends.of_sent hm).2
  | storeCommit =>
    rw [append_nil]
    exact h.congr rfl rfl rfl rfl
  | decide => simp [withDecision] at hund
  | storeRoundChange =>
    rw [append_nil]
    exact h.withRoundChanges _
  | @lead msg c es valid added quorum current sends =>
    refine (h.withRoundChanges c).enterRound current fun m hm _ hvote ↦ ?_
    have htype := (sends.of_sent hm).2
    rcases hvote with ht | ht | ht <;> simp [htype] at ht
  | @follow msg c rcs es valid added stored quorum lt sends =>
    refine (h.withRoundChanges c).enterRound (.inr lt) fun m hm _ _ ↦ ?_
    obtain ⟨-, htype, hround, -⟩ := sends.of_sent hm
    exact ⟨htype, hround⟩
  | timeout sends =>
    refine h.enterRound (.inr (Nat.lt_succ_self _)) fun m hm _ _ ↦ ?_
    obtain ⟨-, htype, hround, -⟩ := sends.of_sent hm
    exact ⟨htype, hround⟩

/-! ### New votes against old ones -/

theorem root_eq_of_step (h : Sound log i) (hstep : i.Step now input i' es) (hm : Sent es m)
    (hm' : Sent log m') (hheight : m'.height = m.height) (hround : m'.round = m.round)
    (htype : m'.msgType = m.msgType) (hvote : m.msgType = .prepare ∨ m.msgType = .commit) :
    m'.root = m.root := by
  have hh : m'.height = i.state.height := hheight.trans (hstep.height_of_sent hm)
  have hle := h.votes_le hm' hh (htype ▸ hvote.imp_right .inl)
  cases hstep.vote hm (hvote.imp_right .inl) with
  | prepare msgType valid =>
    rcases (isValidProposal_iff.1 valid).current with ⟨hnone, heq⟩ | hlt
    · obtain ⟨p, hp, -⟩ := h.prepare_accepted hm' hh (htype.trans msgType) (by omega)
      simp [hnone] at hp
    · omega
  | commit msgType accepted valid added quorum round root =>
    obtain ⟨hq, hroots⟩ := h.commit_stored hm' hh (htype.trans msgType)
    rw [hround, round] at hq hroots
    obtain ⟨y, hy⟩ := exists_mem_of_hasQuorum hq
    obtain ⟨p, hp, hyroot⟩ := h.stored_accepted hy
    obtain rfl : _ = p := by simpa [accepted] using hp
    rw [root, ← hyroot]
    exact (hroots y hy).symm
  | follow msgType | timeout msgType => rcases hvote with hv | hv <;> simp [msgType] at hv

/-- A new prepare or commit is not for a round the operator has left by a round change. -/
theorem round_le_of_step (h : Sound log i) (hstep : i.Step now input i' es) (hm : Sent es m)
    (hm' : Sent log m') (hheight : m'.height = m.height) (htype : m'.msgType = .roundChange)
    (hvote : m.msgType = .prepare ∨ m.msgType = .commit) : m'.round ≤ m.round := by
  have hh : m'.height = i.state.height := hheight.trans (hstep.height_of_sent hm)
  have hle := h.votes_le hm' hh (.inr (.inr htype))
  cases hstep.vote hm (hvote.imp_right .inl) with
  | prepare msgType valid =>
    rcases (isValidProposal_iff.1 valid).current with ⟨-, heq⟩ | hlt <;> omega
  | commit => omega
  | follow msgType | timeout msgType => rcases hvote with hv | hv <;> simp [msgType] at hv

end Sound

end Instance

end Ssv
