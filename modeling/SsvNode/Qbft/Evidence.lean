import SsvNode.Qbft.Cluster

/-!
# What an operator's messages say about the others

A message is *vouched for* when its signers are members and the honest ones have sent it. Verified
messages are, embedded ones included (`Cluster.Authentic.vouched`), and a quorum of them is a quorum
that has sent them (`Cluster.backed_of_hasQuorum`). `Cluster.Evidence` says so of the containers of
an undecided instance, and never goes stale.
-/

namespace Ssv

open SsvSpec List Function

variable [SsvSpec]

namespace Cluster

variable {C : Cluster} {net net' : Network} {h : ℕ} {op : OperatorID} {a : Action}

/-! ### Growing logs -/

/-- What was sent in `net` was sent in `net'`. -/
def Grows (net net' : Network) : Prop := ∀ op m, Sent (net op).log m → Sent (net' op).log m

theorem grows_act (net : Network) (a : Action) : Grows net (act net a) := by
  intro op m hm
  by_cases hop : op = a.operator
  · subst hop
    simp only [act, update_self]
    exact sent_append.2 (.inl hm)
  · simpa only [act, update_of_ne hop] using hm

theorem act_self (net : Network) (a : Action) :
    act net a a.operator = (net a.operator).perform a.call := update_self ..

theorem act_of_ne (hop : op ≠ a.operator) : act net a op = net op := update_of_ne hop ..

/-- What holds of every node before a call, and of the called one after it, holds of all. -/
theorem forall_honest_act {P : OperatorID → Node → Prop} (hP : ∀ op, C.Honest op → P op (net op))
    (hnew : P a.operator ((net a.operator).perform a.call)) :
    ∀ op, C.Honest op → P op (act net a op) := by
  intro op hop
  by_cases heq : op = a.operator
  · rw [heq, act_self]
    exact hnew
  · rw [act_of_ne heq]
    exact hP op hop

theorem mem_log_act {e : Event} (he : e ∈ (act net a op).log) :
    e ∈ (net op).log ∨ (op = a.operator ∧ e ∈ (net a.operator).eventsOf a.call) := by
  by_cases heq : op = a.operator
  · subst heq
    rw [act_self] at he
    exact (mem_append.1 he).imp_right fun he ↦ ⟨rfl, he⟩
  · rw [act_of_ne heq] at he
    exact .inl he

theorem sent_act {m : Message} (hm : Sent (act net a op).log m) :
    Sent (net op).log m ∨ (op = a.operator ∧ Sent ((net a.operator).eventsOf a.call) m) := by
  obtain ⟨e, he, hc⟩ := hm
  exact (mem_log_act he).imp (fun he ↦ ⟨e, he, hc⟩) fun ⟨heq, he⟩ ↦ ⟨heq, e, he, hc⟩

/-! ### Vouched-for messages -/

variable (C) in
/-- Every signer is a member, and the honest signers have sent the message. -/
def Vouched (net : Network) (pm : ProcessingMessage) : Prop :=
  ∀ op ∈ pm.signedMessage.operatorIDs, op ∈ C.quorums.members ∧
    (C.Honest op → Sent (net op).log pm.qbftMessage)

variable {pm msg : ProcessingMessage} {P : OperatorID → Prop} {msgs : List ProcessingMessage}
  {t : MessageType}

theorem Vouched.mono (hpm : C.Vouched net pm) (hgrow : Grows net net') : C.Vouched net' pm := by
  intro op hop
  obtain ⟨hmem, hsent⟩ := hpm op hop
  exact ⟨hmem, fun hhon ↦ hgrow op _ (hsent hhon)⟩

/-- **Verified messages are vouched for.** -/
theorem Authentic.vouched {sm e : SignedSSVMessage}
    (hauth : C.Authentic net h sm) (hnodes : ∀ op, C.Honest op → (net op).Inv)
    (hemb : Embeds sm e) (hver : verify e C.committee = .ok ())
    (hdec : newProcessingMessage e = .ok pm) (hheight : pm.qbftMessage.height = h)
    (hmem : checkSignersInCommittee e C.committee = true) : C.Vouched net pm := by
  intro op hop
  rw [signedMessage_of_newProcessingMessage hdec] at hop
  refine ⟨mem_toFinset.2 (checkSignersInCommittee_iff.1 hmem op hop), fun hhon ↦ ?_⟩
  rcases hauth e hemb hver op hop hhon with ⟨sm', slot, hlog, hsame⟩ | hother
  · obtain ⟨m, hsigned, -⟩ := (hnodes op hhon).signed sm' slot hlog
    have hdec' : newProcessingMessage e = .ok ⟨e, m⟩ :=
      newProcessingMessage_of_encode (hsame ▸ hsigned.encoded)
    obtain rfl : pm = ⟨e, m⟩ := by simpa [hdec] using hdec'
    exact ⟨_, hlog, sm', slot, rfl, hsigned.decodes⟩
  · exact absurd hheight (hother pm hdec)

variable (C) in
/-- Everything in `msg` is vouched for, as far as it is verified and about height `h`. -/
def Trusted (net : Network) (h : ℕ) (msg : ProcessingMessage) : Prop :=
  ∃ sm, newProcessingMessage sm = .ok msg ∧ ∀ e pm, Embeds sm e → newProcessingMessage e = .ok pm →
    verify e C.committee = .ok () → pm.qbftMessage.height = h →
      checkSignersInCommittee e C.committee = true → C.Vouched net pm

/-- What a call delivers can be trusted, and the message itself is vouched for. -/
theorem Delivers.trusted (hadm : C.Delivers h net a) (hnodes : ∀ op, C.Honest op → (net op).Inv)
    (hands : Controller.Hands a.call h (.message msg)) :
    C.Trusted net h msg ∧
      (checkSignersInCommittee msg.signedMessage C.committee = true → C.Vouched net msg) := by
  obtain ⟨-, hmsg⟩ := hadm
  generalize hcall : a.call = call at hands
  generalize hinput : Instance.Input.message msg = input at hands
  cases hands with
  | @message now sm msg' decoded =>
    obtain rfl : msg = msg' := Instance.Input.message.inj hinput
    obtain ⟨hver, hauth⟩ := hmsg now sm hcall
    refine ⟨⟨sm, decoded, fun e pm hemb hdec hver hheight hmem ↦ ?_⟩, fun hmem ↦ ?_⟩
    · exact hauth.vouched hnodes hemb hver hdec hheight hmem
    · rw [signedMessage_of_newProcessingMessage decoded] at hmem
      exact hauth.vouched hnodes .self hver decoded rfl hmem
  | timeout => simp at hinput

/-- The verified messages embedded in a trusted one are vouched for. The list `sms` is of either
kind. -/
theorem Trusted.vouched {context : String}
    {sms : List SignedSSVMessage} {pms : List ProcessingMessage} (hmsg : C.Trusted net h msg)
    (hsms : sms = Instance.justifications (getRoundChangeJustifications msg.qbftMessage) ∨
      sms = Instance.justifications (getPrepareJustifications msg.qbftMessage))
    (hpms : Instance.processingMessages context sms = .ok pms) (hpm : pm ∈ pms)
    (hver : verify pm.signedMessage C.committee = .ok ()) (hheight : pm.qbftMessage.height = h)
    (hmem : checkSignersInCommittee pm.signedMessage C.committee = true) : C.Vouched net pm := by
  obtain ⟨sm, hdec, hall⟩ := hmsg
  obtain ⟨e, he, hdece⟩ := Instance.mem_processingMessages hpms hpm
  have hsm := signedMessage_of_newProcessingMessage hdece
  refine hall e pm (.step .self ⟨msg, hdec, ?_⟩) hdece (hsm ▸ hver) hheight (hsm ▸ hmem)
  rcases hsms with rfl | rfl
  · exact .inl he
  · exact .inr he

/-- What vouched-for messages say about their senders holds of the honest signers. -/
theorem of_mem_uniqueSigners (hv : ∀ x ∈ msgs, C.Vouched net x)
    (hP : ∀ x ∈ msgs, ∀ id, Sent (net id).log x.qbftMessage → P id) {id : OperatorID}
    (hid : id ∈ uniqueSigners msgs) : id ∈ C.quorums.members ∧ (C.Honest id → P id) := by
  obtain ⟨x, hx, hxid⟩ := mem_uniqueSigners.1 hid
  obtain ⟨hmem, hsent⟩ := hv x hx id hxid
  exact ⟨hmem, fun hhon ↦ hP x hx id (hsent hhon)⟩

/-- A quorum of vouched-for messages backs what each says about its senders. -/
theorem backed_of_hasQuorum
    (hq : hasQuorum (C.member op) msgs = true) (hv : ∀ x ∈ msgs, C.Vouched net x)
    (hP : ∀ x ∈ msgs, ∀ id, Sent (net id).log x.qbftMessage → P id) : C.quorums.Backed P :=
  ⟨uniqueSigners msgs, fun _ hid ↦ (of_mem_uniqueSigners hv hP hid).1, hasQuorum_iff.1 hq,
    fun _ hid ↦ (of_mem_uniqueSigners hv hP hid).2⟩

theorem weaklyBacked_of_hasPartialQuorum (hq : hasPartialQuorum (C.member op) msgs = true)
    (hv : ∀ x ∈ msgs, C.Vouched net x)
    (hP : ∀ x ∈ msgs, ∀ id, Sent (net id).log x.qbftMessage → P id) : C.quorums.WeaklyBacked P :=
  ⟨uniqueSigners msgs, fun _ hid ↦ (of_mem_uniqueSigners hv hP hid).1, hasPartialQuorum_iff.1 hq,
    fun _ hid ↦ (of_mem_uniqueSigners hv hP hid).2⟩

theorem backed_of_memberHasQuorum {ids : List OperatorID}
    (hq : memberHasQuorum (C.member op) ids.length = true) (hnd : ids.Nodup)
    (hids : ∀ id ∈ ids, id ∈ C.quorums.members ∧ (C.Honest id → P id)) : C.quorums.Backed P := by
  refine ⟨ids.toFinset, fun id hid ↦ (hids id (mem_toFinset.1 hid)).1, ?_, fun id hid ↦
    (hids id (mem_toFinset.1 hid)).2⟩
  rw [toFinset_card_of_nodup hnd]
  exact memberHasQuorum_iff.1 hq

/-! ### Stored messages -/

variable (C) in
/-- The container holds vouched-for messages of one kind, all about height `h`. -/
def Holds (net : Network) (h : ℕ) (t : MessageType) (c : MsgContainer) : Prop :=
  ∀ r, ∀ x ∈ messagesForRound c r,
    x.qbftMessage.msgType = t ∧ x.qbftMessage.height = h ∧ C.Vouched net x

theorem holds_new : C.Holds net h t newMsgContainer := by
  intro r x hx
  simp [messagesForRound_new] at hx

theorem Holds.mono {c : MsgContainer} (hc : C.Holds net h t c)
    (hgrow : Grows net net') : C.Holds net' h t c := by
  intro r x hx
  obtain ⟨htype, hheight, hv⟩ := hc r x hx
  exact ⟨htype, hheight, hv.mono hgrow⟩

theorem Holds.added {c c' : MsgContainer}
    (hc : C.Holds net h t c) (hadd : addFirstMsgForSignerAndRound c msg = .ok (true, c'))
    (htype : msg.qbftMessage.msgType = t) (hheight : msg.qbftMessage.height = h)
    (hv : C.Vouched net msg) : C.Holds net h t c' := by
  intro r x hx
  rcases (addFirst_added hadd).1 hx with hx | ⟨rfl, -⟩
  · exact hc r x hx
  · exact ⟨htype, hheight, hv⟩

variable (C) in
/-- What an undecided instance has stored is vouched for. -/
structure Evidence (net : Network) (i : Instance) : Prop where
  prepares : C.Holds net i.state.height .prepare i.state.prepareContainer
  commits : C.Holds net i.state.height .commit i.state.commitContainer
  roundChanges : C.Holds net i.state.height .roundChange i.state.roundChangeContainer

theorem Evidence.mono {i : Instance} (hi : C.Evidence net i) (hgrow : Grows net net') :
    C.Evidence net' i :=
  ⟨hi.prepares.mono hgrow, hi.commits.mono hgrow, hi.roundChanges.mono hgrow⟩

/-- **Every transition keeps the evidence**, if its message is vouched for. -/
theorem Evidence.step {i i' : Instance} {now : ℕ} {input : Instance.Input} {es : List Event}
    (hi : C.Evidence net i) (hcm : i.state.committeeMember = C.member op)
    (hstep : i.Step now input i' es)
    (hmsg : ∀ msg, input = .message msg →
      checkSignersInCommittee msg.signedMessage C.committee = true → C.Vouched net msg) :
    C.Evidence net i' := by
  have hcommittee : i.state.committeeMember.committee = C.committee := by rw [hcm]; rfl
  cases hstep with
  | skip => exact hi
  | giveUp | acceptProposal | timeout => exact ⟨hi.prepares, hi.commits, hi.roundChanges⟩
  | storePrepare accepted valid added | prepareQuorum accepted valid added =>
    have hval := Instance.validPrepare_iff.1 valid
    exact ⟨hi.prepares.added added hval.msgType hval.height
      (hmsg _ rfl (hcommittee ▸ hval.signer.2)), hi.commits, hi.roundChanges⟩
  | storeCommit valid added | decide accepted valid added =>
    obtain ⟨hval, -⟩ := Instance.validateCommit_iff.1 valid
    exact ⟨hi.prepares, hi.commits.added added hval.msgType hval.height
      (hmsg _ rfl (hcommittee ▸ hval.members)), hi.roundChanges⟩
  | storeRoundChange valid added | lead valid added | follow valid added =>
    have hval := Instance.validRoundChange_iff.1 valid
    exact ⟨hi.prepares, hi.commits, hi.roundChanges.added added hval.msgType hval.height
      (hmsg _ rfl (hcommittee ▸ hval.signer.2))⟩

/-! ### Evidence along runs -/

variable (C) in
/-- Well-formed nodes, and what their undecided instances of height `h` have stored is vouched for.
-/
structure Sourced (h : ℕ) (net : Network) : Prop where
  node : ∀ op, C.Honest op → (net op).Inv
  member : ∀ op, C.Honest op → (net op).controller.committeeMember = C.member op
  evidence : ∀ op, C.Honest op → ∀ x ∈ (net op).controller.items, x.state.decided = false →
    x.getHeight = h → C.Evidence net x

namespace Sourced

theorem start (h : ℕ) : C.Sourced h C.start where
  node _ _ := .init
  member _ _ := rfl
  evidence _ _ _ hx := nomatch hx

theorem scope (hs : C.Sourced h net) (hop : C.Honest op) {x : Instance}
    (hx : x ∈ (net op).controller.items) (hh : x.getHeight = h) : x.scope = ⟨C.member op, h⟩ := by
  have hcm := (hs.node op hop).wellFormed.scope x hx
  rw [hs.member op hop] at hcm
  rw [Instance.scope, hcm, ← hh]
  rfl

theorem evidence_act (hs : C.Sourced h net) (hadm : C.Delivers h net a) (hop : C.Honest op)
    {x : Instance} (hx : x ∈ (act net a op).controller.items) (hund : x.state.decided = false)
    (hh : x.getHeight = h) : C.Evidence (act net a) x := by
  have hgrow := grows_act net a
  by_cases heq : op = a.operator
  · subst heq
    rw [act_self] at hx
    have hn := hs.node _ hop
    cases ((net a.operator).step a.call).origin hn.wellFormed hx hund with
    | @kept y mem same quiet =>
      have hy : y.state.decided = false ∧ y.getHeight = h := by
        rcases same with rfl | rfl <;> exact ⟨hund, hh⟩
      have hev := (hs.evidence _ hop y mem hy.1 hy.2).mono hgrow
      rcases same with rfl | rfl
      · exact hev
      · exact ⟨hev.prepares, hev.commits, hev.roundChanges⟩
    | started call_eq le absent eq =>
      subst eq
      exact ⟨holds_new, holds_new, holds_new⟩
    | @stepped y now input es₀ mem undecided hands hstep events =>
      have hyh : y.getHeight = h := hstep.height_eq.symm.trans hh
      have hcm : y.state.committeeMember = C.member a.operator :=
        congrArg Scope.committeeMember (hs.scope hop mem hyh)
      refine ((hs.evidence _ hop y mem undecided hyh).step hcm hstep ?_).mono hgrow
      rintro msg rfl
      exact (hadm.trusted hs.node (hyh ▸ hands)).2
  · rw [act_of_ne heq] at hx
    exact (hs.evidence op hop x hx hund hh).mono hgrow

/-- **A call keeps the evidence.** -/
theorem act (hs : C.Sourced h net) (hadm : C.Delivers h net a) : C.Sourced h (act net a) where
  node := forall_honest_act (P := fun _ n ↦ n.Inv) hs.node ((hs.node _ hadm.1).perform _)
  member := forall_honest_act
    (P := fun op n ↦ n.controller.committeeMember = C.member op) hs.member
    (((net a.operator).step a.call).committeeMember_eq.trans (hs.member _ hadm.1))
  evidence _ hop _ hx hund hh := hs.evidence_act hadm hop hx hund hh

end Sourced

end Cluster

end Ssv
