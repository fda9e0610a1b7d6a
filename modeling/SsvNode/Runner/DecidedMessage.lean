import SsvNode.Runner.BaseRunner

/-!
# What a controller hands to its runner

`Controller.ProcessMsg` returns a message when it has newly decided an instance, and the runner
decodes it to find out which. The message is returned for an instance of the window that has just
been decided with its value, **or** for a height that is not in the window (`processMsg_returns`).
-/

namespace Ssv

open SsvSpec Checks Act

variable [RunnerSpec]

namespace Instance

variable {i i' : Instance}

/-- Every stored commit is of the instance's height and decodes to itself. -/
def OwnCommits (i : Instance) : Prop :=
  ∀ r, ∀ x ∈ messagesForRound i.state.commitContainer r,
    x.qbftMessage.height = i.getHeight ∧ newProcessingMessage x.signedMessage = .ok x

theorem OwnCommits.congr (h : i.OwnCommits) (hscope : i'.scope = i.scope)
    (hcommits : i'.state.commitContainer = i.state.commitContainer) : i'.OwnCommits := by
  intro r x hx
  rw [hcommits] at hx
  obtain ⟨hheight, hdecoded⟩ := h r x hx
  exact ⟨hheight.trans (congrArg Scope.height hscope).symm, hdecoded⟩

variable {msg : ProcessingMessage}

theorem OwnCommits.withCommits {c : MsgContainer} (h : i.OwnCommits)
    (hheight : msg.qbftMessage.height = i.getHeight)
    (hdecoded : newProcessingMessage msg.signedMessage = .ok msg)
    (hadd : addFirstMsgForSignerAndRound i.state.commitContainer msg = .ok (true, c)) :
    (i.withCommits c).OwnCommits := by
  intro r x hx
  rcases (addFirst_added hadd).1 hx with hx | ⟨rfl, -⟩
  · exact h r x hx
  · exact ⟨hheight, hdecoded⟩

theorem ownCommits_newInstance {config : Config} {cm : CommitteeMember} {id : Bytes} {h : ℕ}
    {signer : OperatorSigner} : (newInstance config cm id h signer).OwnCommits := by
  intro r x hx
  rw [show (newInstance config cm id h signer).state.commitContainer = newMsgContainer from rfl,
    messagesForRound_new] at hx
  exact nomatch hx

theorem OwnCommits.step {now : ℕ} {input : Input} {es : List Event} (h : i.OwnCommits)
    (hstep : i.Step now input i' es)
    (hinput : ∀ msg, input = .message msg → newProcessingMessage msg.signedMessage = .ok msg) :
    i'.OwnCommits := by
  cases hstep with
  | storeCommit valid added =>
    exact h.withCommits (validateCommit_iff.1 valid).1.height (hinput _ rfl) added
  | decide accepted valid added =>
    exact (h.withCommits (validateCommit_iff.1 valid).1.height (hinput _ rfl) added).congr rfl rfl
  | skip => exact h
  | giveUp | acceptProposal => exact h.congr rfl rfl
  | storePrepare | prepareQuorum | storeRoundChange | lead | follow | timeout =>
      exact h.congr rfl rfl

/-! ### The aggregated commit -/

theorem ssvMessage_of_foldlM {rest : List ProcessingMessage} {acc ret : SignedSSVMessage}
    (h : rest.foldlM (fun acc m ↦ (aggregate acc m.signedMessage).mapError
      (Err.wrap "could not aggregate commit msg")) acc = .ok ret) :
    ret.ssvMessage = acc.ssvMessage := by
  induction rest generalizing acc with
  | nil =>
    obtain rfl : acc = ret := Except.ok.inj h
    rfl
  | cons m rest ih =>
    simp only [List.foldlM_cons, bind_eq_ok, mapError_eq_ok] at h
    obtain ⟨acc', hagg, h⟩ := h
    exact (ih h).trans (RunnerSpec.ssvMessage_of_aggregate hagg)

/-- The aggregate is a stored commit with more signers, about the given value. -/
theorem aggregateCommitMsgs_ok {msgs : List ProcessingMessage} {fullData : Data}
    {agg : SignedSSVMessage} (h : aggregateCommitMsgs msgs fullData = .ok agg) :
    agg.fullData = fullData ∧ ∃ m ∈ msgs, agg.ssvMessage = m.signedMessage.ssvMessage := by
  cases msgs with
  | nil => cases h
  | cons first =>
    simp only [aggregateCommitMsgs, bind_eq_ok, pure_eq_ok] at h
    obtain ⟨ret, hret, rfl⟩ := h
    have hssv := ssvMessage_of_foldlM hret
    exact ⟨rfl, first, .head _, hssv⟩

/-- A decision returned by an instance: it is decided with the value of the aggregate, which is a
stored commit. -/
def Delivers (i : Instance) (r : Except Err (Option (Data × SignedSSVMessage))) : Prop :=
  ∀ value agg, r = .ok (some (value, agg)) →
    i.state.decided = true ∧ i.state.decidedValue = agg.fullData ∧
      ∃ r, ∃ m ∈ messagesForRound i.state.commitContainer r,
      agg.ssvMessage = m.signedMessage.ssvMessage

theorem validateCommit_of_baseMsgValidation {now : ℕ}
    (htype : msg.qbftMessage.msgType = .commit) (h : i.baseMsgValidation now msg = .ok ()) :
    i.validateCommit msg = .ok () := by
  simp only [baseMsgValidation, bind_eq_ok, exists_check, require_eq_ok, htype] at h
  rcases hacc : i.state.proposalAcceptedForCurrentRound with - | proposal
  · simp [hacc] at h
  · simp only [hacc] at h
    exact h.2.2

/-- When `uponCommit` decides, the container holds a quorum, whose aggregate is returned with the
accepted value. -/
structure Decision (i : Instance) (msg : ProcessingMessage) (c : MsgContainer)
    (proposal : ProcessingMessage) (agg : SignedSSVMessage) : Prop where
  undecided : i.state.decided = false
  valid : i.validateCommit msg = .ok ()
  accepted : i.state.proposalAcceptedForCurrentRound = some proposal
  added : addFirstMsgForSignerAndRound i.state.commitContainer msg = .ok (true, c)
  quorum : memberHasQuorum i.state.committeeMember (longestUniqueSignersForRoundAndRoot c
    msg.qbftMessage.round msg.qbftMessage.root).1.length = true
  aggregated : aggregateCommitMsgs (longestUniqueSignersForRoundAndRoot c
    msg.qbftMessage.round msg.qbftMessage.root).2 proposal.signedMessage.fullData = .ok agg

/-- What a call has returned, if anything, is a decision on `msg`. -/
def Decides (i : Instance) (msg : ProcessingMessage) (i' : Instance)
    (r : Except Err (Option (Data × SignedSSVMessage))) : Prop :=
  ∀ value agg, r = .ok (some (value, agg)) → ∃ c proposal, i.Decision msg c proposal agg ∧
    value = proposal.signedMessage.fullData ∧
    i' = (i.withCommits c).withDecision msg.qbftMessage.round value

theorem wp_andThen_none {x : InstanceAct Unit} :
    (do x; pure none : InstanceAct (Option (Data × SignedSSVMessage))).wp
      (fun i' _ r ↦ i.Decides msg i' r) i := by
  refine wp_seq (P := fun _ _ _ ↦ True) trivial (fun i' es e _ value agg h ↦ ?_)
    fun i' es u _ value agg h ↦ ?_
  · cases h
  · cases h

theorem processMsg_decides (now : ℕ) (msg : ProcessingMessage) (i : Instance) :
    (processMsg now msg).wp (fun i' _ r ↦ i.Decides msg i' r) i := by
  have herror : ∀ (i' : Instance) (e : Err), i.Decides msg i' (.error e) := fun _ _ _ _ h ↦
    nomatch h
  have hnone : ∀ i' : Instance, i.Decides msg i' (.ok none) := fun _ _ _ h ↦ nomatch h
  unfold processMsg wrapErr
  simp only [wp_bind, wp_read, wp_ite, wp_lift, wp_fail]
  split
  · rcases hbase : i.baseMsgValidation now msg with e | u
    · exact herror _ _
    simp only [Except.mapError]
    rcases htype : msg.qbftMessage.msgType with - | - | - | - | code
    · exact wp_andThen_none
    · exact wp_andThen_none
    · unfold uponCommit wrapErr
      simp only [wp_bind, wp_read, wp_lift, wp_write, wp_ite, wp_pure]
      rcases hadd : addFirstMsgForSignerAndRound i.state.commitContainer msg with e | ⟨added, c⟩
      · exact herror _ _
      change if _ ∧ _ then _ else _
      split
      · next hnew =>
        split
        · next hquorum =>
          rcases hacc : (i.withCommits c).state.proposalAcceptedForCurrentRound with - | proposal
          · exact herror _ _
          simp only [wp_bind, wp_lift]
          rcases hagg : aggregateCommitMsgs _ proposal.signedMessage.fullData with e | agg
          · exact herror _ _
          simp only [Except.mapError, wp_pure, markDecided, wp_bind, wp_mapError,
            wp_read, wp_ite, wp_fail, wp_write, wp_emit]
          split
          · exact herror _ _
          · next hund =>
            rintro value agg' ⟨rfl, rfl⟩
            obtain ⟨rfl, -⟩ := hnew
            refine ⟨c, proposal, ⟨eq_false_of_ne_true hund, ?_, hacc, hadd, hquorum, hagg⟩,
              rfl, rfl⟩
            exact validateCommit_of_baseMsgValidation htype hbase
        · exact hnone _
      · exact hnone _
    · exact wp_andThen_none
    · exact herror _ _
  · exact herror _ _

theorem processMsg_delivers (now : ℕ) (msg : ProcessingMessage) (i : Instance) :
    (processMsg now msg).wp (fun i' _ r ↦ i'.Delivers r) i := by
  refine wp_mono (processMsg_decides now msg i) fun i' _ r h value agg hr ↦ ?_
  obtain ⟨c, proposal, hdec, rfl, rfl⟩ := h value agg hr
  obtain ⟨hdata, m, hm, hssv⟩ := aggregateCommitMsgs_ok hdec.aggregated
  exact ⟨rfl, hdata.symm, msg.qbftMessage.round, m,
    RunnerSpec.mem_messages_longestUniqueSigners hm, hssv⟩

end Instance

namespace Controller

variable {c c' : Controller} {call : Call} {es : List Event} {ok : Bool}

/-! ### The window -/

/-- The stored commits of every undecided instance are its own. -/
def OwnCommits (c : Controller) : Prop := ∀ x ∈ c.items, x.state.decided = false → x.OwnCommits

theorem OwnCommits.step (h : c.OwnCommits) (hc : c.WellFormed) (hstep : c.Step call c' es ok) :
    c'.OwnCommits := by
  intro x hx hund
  cases hstep.origin hc hx hund with
  | @kept y mem same quiet =>
    rcases same with rfl | rfl
    · exact h x mem hund
    · exact (h y mem hund).congr rfl rfl
  | @started now height value checker call_eq le absent eq sends =>
    have hnew : (c.newInstance height).OwnCommits := Instance.ownCommits_newInstance
    rw [eq]
    exact hnew.congr rfl rfl
  | @stepped y now input es₀ mem undecided hands step events =>
    refine (h y mem undecided).step step fun msg hmsg ↦ ?_
    subst hmsg
    generalize y.getHeight = height at hands
    cases hands with
    | message decoded => rwa [signedMessage_of_newProcessingMessage decoded]

/-- **A decided instance stays decided with its value** while it is in the window. -/
theorem Step.decided_kept {h : ℕ} {inst inst' : Instance} (hc : c.WellFormed)
    (hstep : c.Step call c' es ok) (found : c.recentInstances.findInstance h = some inst)
    (hdecided : inst.state.decided = true)
    (found' : c'.recentInstances.findInstance h = some inst') :
    inst'.state.decided = true ∧ inst'.state.decidedValue = inst.state.decidedValue := by
  obtain ⟨hmem, hheight⟩ := hc.find_iff.1 found
  obtain ⟨hmem', hheight'⟩ := (hc.step hstep).find_iff.1 found'
  have hunique : ∀ x ∈ c.items, x.getHeight = h → x = inst := fun x hx hxh ↦
    hc.ordered.eq_of_height hx hmem (hxh.trans hheight.symm)
  have hsame : inst' ∈ c.items →
      inst'.state.decided = true ∧ inst'.state.decidedValue = inst.state.decidedValue := by
    intro hx
    rw [hunique inst' hx hheight']
    exact ⟨hdecided, rfl⟩
  -- an instance that was undecided is not this one
  have hother : ∀ {y y' : Instance}, y ∈ c.items → y.state.decided = false →
      y'.getHeight = y.getHeight → c' = c.withInstance y' →
      inst'.state.decided = true ∧ inst'.state.decidedValue = inst.state.decidedValue := by
    rintro y y' hy hund hyh rfl
    rcases (Instances.mem_set hc.ordered hy hyh).1 hmem' with rfl | ⟨hx, -⟩
    · rw [hunique y hy (hyh.symm.trans hheight')] at hund
      simp [hund] at hdecided
    · exact hsame hx
  cases hstep with
  | skip | decideLost => exact hsame hmem'
  | start le absent =>
    rcases Instances.mem_of_mem_addNewInstance hmem' with rfl | hx
    · exact absurd (hheight.trans hheight'.symm) (WellFormed.absent_iff.1 absent inst hmem)
    · obtain ⟨y, hy, rfl⟩ := List.mem_map.1 hx
      rw [hunique y hy hheight']
      exact ⟨hdecided, rfl⟩
  | onMessage decoded found₀ undecided hinst | onTimeout found₀ undecided le hinst =>
    exact hother (hc.find_iff.1 found₀).1 undecided hinst.height_eq rfl
  | decideNew decoded absent valid concluded =>
    rcases Instances.mem_of_mem_addNewInstance hmem' with rfl | hx
    · have hnew := congrArg Scope.height concluded.scope_eq
      exact absurd ((hheight.trans hheight'.symm).trans hnew)
        (WellFormed.absent_iff.1 absent inst hmem)
    · exact hsame hx
  | decideKnown decoded found₀ undecided valid concluded =>
    exact hother (hc.find_iff.1 found₀).1 undecided (congrArg Scope.height concluded.scope_eq) rfl
  | @recordDecided now sm msg y container _ found₀ decided =>
    obtain ⟨hy, -⟩ := hc.find_iff.1 found₀
    have hyh : (y.withCommits container).getHeight = y.getHeight := rfl
    rcases (Instances.mem_set hc.ordered hy hyh).1 hmem' with rfl | ⟨hx, -⟩
    · rw [hunique y hy hheight']
      exact ⟨hdecided, rfl⟩
    · exact hsame hx

/-! ### The returned message -/

/-- The two ways in which a decided message `dm` comes out of a call. -/
inductive Decides (c : Controller) (sm dm : SignedSSVMessage) (h : ℕ) (c' : Controller) : Prop
  /-- The instance of the window has just become decided. -/
  | known {inst inst' : Instance} (found : c.recentInstances.findInstance h = some inst)
      (found' : c'.recentInstances.findInstance h = some inst')
      (decided : inst'.state.decided = true) (value : inst'.state.decidedValue = dm.fullData)
  /-- The message is a decided one, for a height that is not in the window. -/
  | absent {msg : ProcessingMessage} (decoded : newProcessingMessage sm = .ok msg)
      (height : msg.qbftMessage.height = h) (decided : c.isDecidedMsg msg = true)
      (absent : c.recentInstances.findInstance h = none)

/-- What a call returns as a decided message is about. -/
def Returns (c : Controller) (sm : SignedSSVMessage) (c' : Controller)
    (r : Except Err (Option SignedSSVMessage)) : Prop :=
  ∀ dm m, r = .ok (some dm) → RunnerSpec.decodeMessage dm.ssvMessage.data = .ok m →
    c.Decides sm dm m.height c'

variable {sm : SignedSSVMessage}

theorem returns_error (c c' : Controller) (sm : SignedSSVMessage) (e : Err) :
    c.Returns sm c' (.error e) := fun _ _ h ↦ nomatch h

theorem returns_none (c c' : Controller) (sm : SignedSSVMessage) : c.Returns sm c' (.ok none) :=
  fun _ _ h ↦ nomatch h

theorem find_withInstance {inst inst' : Instance} (hc : c.WellFormed) (hinst : inst ∈ c.items)
    (hscope : inst'.scope = inst.scope) :
    (c.withInstance inst').recentInstances.findInstance inst.getHeight = some inst' := by
  have hheight : inst'.getHeight = inst.getHeight := congrArg Scope.height hscope
  refine (hc.withInstance hinst hscope).find_iff.2 ⟨?_, hheight⟩
  exact (Instances.mem_set hc.ordered hinst hheight).2 (.inl rfl)

theorem uponDecided_returns {msg : ProcessingMessage} (hc : c.WellFormed)
    (hdecoded : newProcessingMessage sm = .ok msg) (hdecided : c.isDecidedMsg msg = true) :
    (uponDecided msg).wp (fun c' _ r ↦ c.Returns sm c' r) c := by
  -- the message that comes back is the one that came in, and decodes to its height
  have hheight : ∀ {m}, RunnerSpec.decodeMessage msg.signedMessage.ssvMessage.data = .ok m →
      m = msg.qbftMessage := by
    intro m hm
    obtain ⟨hbody, hsm⟩ := RunnerSpec.newProcessingMessage_iff.1 hdecoded
    rw [hsm] at hm
    exact Except.ok.inj (hm.symm.trans hbody)
  unfold uponDecided
  simp only [wp_bind, wp_lift, wp_read]
  rcases c.validateDecided msg with e | u
  · exact returns_error _ _ _ _
  simp only [Except.mapError]
  rcases hf : c.recentInstances.findInstance msg.qbftMessage.height with - | inst
  · simp only [wp_bind, wp_onFresh, wp_update, wp_pure]
    refine Instance.wp_concludeInstance rfl fun inst' r _ ↦ ?_
    cases r with
    | error => exact returns_error _ _ _ _
    | ok =>
      rintro dm m ⟨rfl⟩ hm
      obtain rfl := hheight hm
      exact .absent hdecoded rfl hdecided hf
  · obtain ⟨hmem, hinst⟩ := hc.find_iff.1 hf
    simp only [wp_ite, wp_bind, onInstance, wp_onPart, wp_pure]
    split
    · refine wp_mono (Q := fun _ _ _ ↦ True) trivial fun inst' es r _ ↦ ?_
      cases r with
      | error => exact returns_error _ _ _ _
      | ok => exact returns_none _ _ _
    · rename_i hd
      refine Instance.wp_concludeInstance (by simpa using hd) fun inst' r concluded ↦ ?_
      cases r with
      | error => exact returns_error _ _ _ _
      | ok =>
        rintro dm m ⟨rfl⟩ hm
        obtain rfl := hheight hm
        have hfound := find_withInstance hc hmem concluded.scope_eq
        rw [hinst] at hfound
        obtain ⟨container, rfl⟩ := concluded
        exact .known hf hfound rfl rfl

theorem uponExistingInstanceMsg_returns {now : ℕ} {msg : ProcessingMessage} (hc : c.WellFormed)
    (hown : c.OwnCommits) (hdecoded : newProcessingMessage sm = .ok msg) :
    (uponExistingInstanceMsg now msg).wp (fun c' _ r ↦ c.Returns sm c' r) c := by
  unfold uponExistingInstanceMsg
  simp only [wp_bind, wp_read]
  rcases hf : c.recentInstances.findInstance msg.qbftMessage.height with - | inst
  · exact returns_error _ _ _ _
  obtain ⟨hmem, hinst⟩ := hc.find_iff.1 hf
  simp only [wp_ite, wp_fail, wp_bind, wp_mapError, onInstance, wp_onPart]
  split
  · exact returns_error _ _ _ _
  · rename_i hd
    have hstep := Instance.step_processMsg now msg inst
    have hdelivers := Instance.processMsg_delivers now msg inst
    rw [wp_iff] at hdelivers ⊢
    have hcommits := (hown inst hmem (by simpa using hd)).step hstep fun msg' hmsg ↦ by
      obtain rfl := Instance.Input.message.inj hmsg
      rwa [signedMessage_of_newProcessingMessage hdecoded]
    rcases hresult : ((Instance.processMsg now msg).run inst).result with e | - | ⟨value, agg⟩
    · exact returns_error _ _ _ _
    · exact returns_none _ _ _
    · simp only [Except.mapError, broadcastDecided, wp_bind, wp_emit, wp_pure]
      rintro dm m ⟨rfl⟩ hm
      obtain ⟨hdecided, hvalue, r, x, hx, hssv⟩ := hdelivers value agg hresult
      obtain ⟨hxheight, hxdecoded⟩ := hcommits r x hx
      -- the aggregate decodes like the stored commit
      have hbody := (RunnerSpec.newProcessingMessage_iff.1 hxdecoded).1
      rw [hssv] at hm
      obtain rfl := Except.ok.inj (hm.symm.trans hbody)
      have hheight : x.qbftMessage.height = msg.qbftMessage.height :=
        hxheight.trans (hstep.height_eq.trans hinst)
      have hfound := find_withInstance hc hmem hstep.scope_eq
      rw [hinst] at hfound
      rw [hheight]
      exact .known hf hfound hdecided hvalue

/-- **What a decided message returned by `ProcessMsg` is about.** -/
theorem processMsg_returns (hc : c.WellFormed) (hown : c.OwnCommits) (now : ℕ)
    (sm : SignedSSVMessage) : (processMsg now sm).wp (fun c' _ r ↦ c.Returns sm c' r) c := by
  unfold processMsg
  simp only [wp_bind, wp_lift, wp_read, wp_ite, wp_fail]
  rcases hdec : newProcessingMessage sm with e | msg
  · exact returns_error _ _ _ _
  change if _ then _ else _
  split
  · exact returns_error _ _ _ _
  · split
    · rename_i hd
      exact uponDecided_returns hc hdec hd
    · split
      · exact returns_error _ _ _ _
      · exact uponExistingInstanceMsg_returns hc hown hdec

end Controller

end Ssv
