import SsvNode.Qbft.OwnMessages
import SsvNode.Qbft.Replay

/-!
# Honest messages are valid for peers

The run of a controller on authenticated messages, and what the peers of its instances make of the
messages it broadcasts: `AcceptedByPeers`. A message of an honest operator is well-formed and
carries a valid signature (`OwnSignatures`); the rest is the evidence of `Instance.Backed`.
-/

namespace Ssv

open SsvSpec PeerSpec Checks List

theorem Scope.Peer.refl (s : Scope) : s.Peer s := ⟨rfl, rfl, rfl⟩

theorem SignedSSVMessage.Same.withFullData (sm : SignedSSVMessage) (fullData : Data) :
    sm.Same { sm with fullData := fullData } := ⟨rfl, rfl, rfl⟩

variable [PeerSpec]

/-- An honest operator is a member, and its signatures are its own. -/
structure OwnSignatures (cm : CommitteeMember) (signer : OperatorSigner) : Prop where
  member : cm.operatorID ∈ cm.members
  ne_zero : cm.operatorID ≠ 0
  signs : ∀ now s sig, signer now s = .ok sig → sig ≠ [] ∧
    verify
      { signatures := [sig], operatorIDs := [cm.operatorID], ssvMessage := s, fullData := none }
      cm.committee = .ok ()

namespace Instance

variable {i j : Instance} {now : ℕ} {sm sm' : SignedSSVMessage} {m : Message}
  {rcs prepares : List ProcessingMessage}

/-! ### A message the operator has signed -/

/-- What every check of a message of the operator's own finds. -/
structure Own (cm : CommitteeMember) (m : Message) (sm : SignedSSVMessage) : Prop where
  decoded : newProcessingMessage sm = .ok ⟨sm, m⟩
  validated : validate ⟨sm, m⟩ = .ok ()
  verified : verify sm cm.committee = .ok ()
  operatorIDs : sm.operatorIDs = [cm.operatorID]
  signer : SoleSigner cm sm

theorem own_of_sign {cm : CommitteeMember} {signer : OperatorSigner}
    {rcs prepares : List SignedSSVMessage} (hown : Ssv.OwnSignatures cm signer)
    (hsign : sign now m cm.operatorID signer = .ok sm) (hid : m.identifier ≠ [])
    (htype : m.msgType = .proposal ∨ m.msgType = .roundChange)
    (hrcs : getRoundChangeJustifications m = .ok rcs)
    (hprepares : getPrepareJustifications m = .ok prepares) (fullData : Data) :
    Own cm m { sm with fullData := fullData } := by
  have hsigned := isSigned_of_sign hsign
  simp only [sign, bind_eq_ok, mapError_eq_ok, pure_eq_ok] at hsign
  obtain ⟨byts, -, sig, hsig, rfl⟩ := hsign
  obtain ⟨hne, hverify⟩ := hown.signs now _ sig hsig
  have hsame := SignedSSVMessage.Same.withFullData
    { signatures := [sig], operatorIDs := [cm.operatorID],
      ssvMessage := ⟨.ssvConsensusMsgType, messageID m.identifier, byts⟩, fullData := none }
        fullData
  refine ⟨newProcessingMessage_of_same hsame hsigned.decodes,
    validate_of_signed rfl hown.ne_zero rfl hne hid htype hrcs hprepares,
    verify_of_same hsame hverify, rfl, rfl, checkSignersInCommittee_iff.2 fun id hmem ↦ ?_⟩
  obtain rfl := mem_singleton.1 hmem
  exact hown.member

/-! ### Round changes -/

variable {log : List Event}

theorem getRoundChangeJustification_eq (hbacked : i.Backed)
    (hsound : i.Sound log) (hround : i.state.lastPreparedRound ≠ noRound)
    (hvalue : i.state.lastPreparedValue ≠ none) :
    i.getRoundChangeJustification =
      messagesForRound i.state.prepareContainer i.state.lastPreparedRound := by
  obtain ⟨-, hquorum, hroots⟩ := hbacked.prepared hround
  have hfilter : (messagesForRound i.state.prepareContainer i.state.lastPreparedRound).filter
      (fun msg ↦ (i.validSignedPrepareForHeightRoundAndRootIgnoreSignature msg
        i.state.lastPreparedRound (hashDataRoot i.state.lastPreparedValue)).isOk) =
      messagesForRound i.state.prepareContainer i.state.lastPreparedRound := by
    refine filter_eq_self.2 fun x hx ↦ ?_
    have hvalid := hsound.stored_valid hx
    rw [hroots x hx] at hvalid
    rw [validPrepare_iff.2 hvalid]
    rfl
  simp only [getRoundChangeJustification, hfilter, hquorum, if_neg hvalue, if_true]

theorem getRoundChangeData_cases (hbacked : i.Backed) (hsound : i.Sound log) :
    i.getRoundChangeData.1 = noRound ∨
      i.state.lastPreparedRound ≠ noRound ∧
        i.getRoundChangeData = (i.state.lastPreparedRound, hashDataRoot i.state.lastPreparedValue,
          i.state.lastPreparedValue,
          messagesForRound i.state.prepareContainer i.state.lastPreparedRound) := by
  unfold getRoundChangeData
  split
  · rename_i hprepared
    rw [getRoundChangeJustification_eq hbacked hsound hprepared.1 hprepared.2]
    exact .inr ⟨hprepared.1, rfl⟩
  · exact .inl rfl

/-- **A round change of the operator's own is valid.** -/
theorem createRoundChange_valid {r : ℕ} (hbacked : i.Backed)
    (hsound : i.Sound log) (hown : Ssv.OwnSignatures i.state.committeeMember i.signer)
    (hid : i.state.id ≠ []) (hlt : i.state.round < r)
    (hcreated : i.createRoundChange now r = .ok sm) :
    ∃ m, Own i.state.committeeMember m sm ∧ m.msgType = .roundChange ∧
      ValidRoundChange i.scope ⟨sm, m⟩ m.round sm.fullData := by
  simp only [createRoundChange, bind_eq_ok, mapError_eq_ok, pure_eq_ok] at hcreated
  obtain ⟨data, hdata, sm₀, hsign, rfl⟩ := hcreated
  have hrcs := getRoundChangeJustifications_marshal (m := { 
    msgType := .roundChange, height := i.state.height, round := r, identifier := i.state.id,
    root := i.getRoundChangeData.2.1, dataRound := i.getRoundChangeData.1,
    roundChangeJustification := data, prepareJustification := [] }) hdata
  have hmsg := own_of_sign hown hsign hid (.inr rfl) hrcs (getPrepareJustifications_nil rfl)
    i.getRoundChangeData.2.2.1
  refine ⟨_, hmsg, rfl, rfl, rfl, rfl, hmsg.validated, hmsg.signer, fun hp ↦ ?_⟩
  have hprepared := (roundChangePrepared_iff rfl).1 hp
  rcases getRoundChangeData_cases hbacked hsound with hnone | ⟨hround, heq⟩
  · exact absurd hnone hprepared
  obtain ⟨hle, hquorum, hroots⟩ := hbacked.prepared hround
  have hevidence : PrepareQuorum i.scope
      (messagesForRound i.state.prepareContainer i.state.lastPreparedRound)
      i.state.lastPreparedRound (hashDataRoot i.state.lastPreparedValue) := by
    refine ⟨fun x hx ↦ ?_, fun x hx ↦ (hbacked.prepares _ x hx).2, hquorum⟩
    have hvalid := hsound.stored_valid hx
    rwa [hroots x hx] at hvalid
  simp only [heq] at hrcs ⊢
  refine ⟨⟨_, ?_, hevidence.embedded (.refl _)⟩, trivial, hle.trans hlt.le⟩
  simp only [embeddedPrepares, hrcs, justifications]
  exact processingMessages_embedded fun x hx ↦ (hbacked.prepares _ x hx).1

/-! ### Proposals -/

theorem createProposal_own {value : Data}
    (hown : Ssv.OwnSignatures i.state.committeeMember i.signer) (hid : i.state.id ≠ [])
    (hcreated : i.createProposal now value rcs prepares = .ok sm)
    (hrcs : ∀ rc ∈ rcs, newProcessingMessage rc.signedMessage = .ok rc)
    (hprepares : ∀ pm ∈ prepares, newProcessingMessage pm.signedMessage = .ok pm) :
    ∃ m, Own i.state.committeeMember m sm ∧ m.msgType = .proposal ∧ m.height = i.state.height ∧
      m.round = i.state.round ∧ sm.fullData = value ∧ m.root = hashDataRoot value ∧
      embeddedRoundChanges ⟨sm, m⟩ = .ok (rcs.map ProcessingMessage.embedded) ∧
      proposalPrepares ⟨sm, m⟩ = .ok (prepares.map ProcessingMessage.embedded) := by
  simp only [createProposal, bind_eq_ok, mapError_eq_ok, pure_eq_ok] at hcreated
  obtain ⟨rcData, hrcData, prData, hprData, sm₀, hsign, rfl⟩ := hcreated
  have hgetRcs := getRoundChangeJustifications_marshal (m := {
    msgType := .proposal, height := i.state.height, round := i.state.round,
    identifier := i.state.id, root := hashDataRoot value, dataRound := noRound,
    roundChangeJustification := rcData, prepareJustification := prData }) hrcData
  have hgetPrepares := getPrepareJustifications_marshal (m := {
    msgType := .proposal, height := i.state.height, round := i.state.round,
    identifier := i.state.id, root := hashDataRoot value, dataRound := noRound,
    roundChangeJustification := rcData, prepareJustification := prData }) hprData
  refine ⟨_, own_of_sign hown hsign hid (.inl rfl) hgetRcs hgetPrepares value, rfl, rfl, rfl, rfl,
    rfl, ?_, ?_⟩
  · simp only [embeddedRoundChanges, hgetRcs, justifications]
    exact processingMessages_embedded hrcs
  · simp only [proposalPrepares, hgetPrepares, justifications]
    exact processingMessages_embedded hprepares

/-- The receiver's own checks of a proposal: its round and its value check. -/
structure Receives (j : Instance) (now : ℕ) (sm : SignedSSVMessage) (m : Message) : Prop where
  checked : j.checkValue now sm.fullData = .ok ()
  current : (j.state.proposalAcceptedForCurrentRound = none ∧ m.round = j.state.round) ∨
    j.state.round < m.round

/-- **A justified proposal of the leader's own is valid** at a peer. -/
theorem isValidProposal_of_own {cm : CommitteeMember} {h : ℕ} {value : Data}
    (hpeer : Scope.Peer ⟨cm, h⟩ j.scope) (hmsg : Own cm m sm) (htype : m.msgType = .proposal)
    (hheight : m.height = h) (hvalue : sm.fullData = value) (hroot : m.root = hashDataRoot value)
    (hrcs : embeddedRoundChanges ⟨sm, m⟩ = .ok (rcs.map ProcessingMessage.embedded))
    (hprepares : proposalPrepares ⟨sm, m⟩ = .ok (prepares.map ProcessingMessage.embedded))
    (hleader : j.proposerForRound m.round = cm.operatorID)
    (hjust : m.round ≠ firstRound → RoundChangesJustify ⟨cm, h⟩ rcs prepares m.round value)
    (hreceives : j.Receives now sm m) : j.isValidProposal now ⟨sm, m⟩ = .ok () := by
  refine isValidProposal_iff.2 ⟨htype, hheight.trans hpeer.height.symm,
    SoleSigner.peer hpeer ⟨rfl, rfl, rfl⟩ hmsg.signer, ?_, hmsg.validated, ?_,
    ⟨_, _, hrcs, hprepares, ?_⟩, hreceives.current⟩
  · rw [hleader]
    exact matchedSigners_self hmsg.operatorIDs
  · rw [hroot, ← hvalue]
  · refine isProposalJustification_iff.2 ⟨hreceives.checked, fun hr ↦ ?_⟩
    rw [hvalue]
    exact (hjust hr).embedded hpeer

end Instance

/-! ### Every message of an instance -/

/-- The leader of a round is a function of the height and the committee. -/
def Config.Leads (config : Config) (leader : ℕ → List Operator → ℕ → OperatorID) : Prop :=
  ∀ s r, config.proposerF s r = leader s.height s.committeeMember.committee r

/-- An instance of a height, of the operator's committee. -/
structure Instance.PeerOf (leader : ℕ → List Operator → ℕ → OperatorID) (cm : CommitteeMember)
    (h : ℕ) (j : Instance) : Prop where
  scope : Scope.Peer ⟨cm, h⟩ j.scope
  leads : j.config.Leads leader

/-- Every peer accepts the message, a proposal up to the receiver's own checks. -/
def AcceptedByPeers (leader : ℕ → List Operator → ℕ → OperatorID) (cm : CommitteeMember) (h : ℕ)
    (sm : SignedSSVMessage) : Prop :=
  ∃ m, newProcessingMessage sm = .ok ⟨sm, m⟩ ∧ ∀ j : Instance, j.PeerOf leader cm h →
    (m.msgType = .roundChange →
      j.validRoundChangeForDataVerifySignature ⟨sm, m⟩ m.round sm.fullData = .ok ()) ∧
    (m.msgType = .proposal → ∀ now, j.Receives now sm m → j.isValidProposal now ⟨sm, m⟩ = .ok ())

variable {leader : ℕ → List Operator → ℕ → OperatorID}

namespace Instance

variable {i : Instance} {now : ℕ} {sm : SignedSSVMessage} {m : Message}

/-- What an honest operator's instances are made of. -/
structure Honest (leader : ℕ → List Operator → ℕ → OperatorID) (i : Instance) : Prop where
  own : Ssv.OwnSignatures i.state.committeeMember i.signer
  leads : i.config.Leads leader
  id_ne_nil : i.state.id ≠ []

theorem Honest.congr {i' : Instance} (h : i.Honest leader) (hscope : i'.scope = i.scope)
    (hsigner : i'.signer = i.signer) (hconfig : i'.config = i.config)
    (hid : i'.state.id = i.state.id) : i'.Honest leader := by
  have hcm : i'.state.committeeMember = i.state.committeeMember :=
    congrArg Scope.committeeMember hscope
  exact ⟨hcm ▸ hsigner ▸ h.own, hconfig ▸ h.leads, hid ▸ h.id_ne_nil⟩

theorem PeerOf.proposerForRound {cm : CommitteeMember} {h r : ℕ} {j : Instance}
    (hj : j.PeerOf leader cm h) : j.proposerForRound r = leader h cm.committee r := by
  rw [Instance.proposerForRound, hj.leads]
  exact congrArg₂ (leader · · r) hj.scope.height hj.scope.committee

theorem accepted_of_vote {cm : CommitteeMember} {op : OperatorID} {h : ℕ}
    (hsigned : IsSigned op m sm) (htype : m.msgType = .prepare ∨ m.msgType = .commit) :
    AcceptedByPeers leader cm h sm := by
  refine ⟨m, hsigned.decodes, fun j _ ↦ ⟨fun hrc ↦ ?_, fun hp ↦ ?_⟩⟩
  · rcases htype with ht | ht <;> simp [hrc] at ht
  · rcases htype with ht | ht <;> simp [hp] at ht

theorem accepted_of_roundChange {log : List Event} {r : ℕ} (hhonest : i.Honest leader)
    (hbacked : i.Backed) (hsound : i.Sound log) (hlt : i.state.round < r)
    (hcreated : i.createRoundChange now r = .ok sm) :
    AcceptedByPeers leader i.state.committeeMember i.state.height sm := by
  obtain ⟨m, hmsg, htype, hvalid⟩ :=
    createRoundChange_valid hbacked hsound hhonest.own hhonest.id_ne_nil hlt hcreated
  refine ⟨m, hmsg.decoded, fun j hj ↦ ⟨fun _ ↦ ?_, fun hp ↦ ?_⟩⟩
  · refine validRoundChange_verified_iff.2 ⟨hvalid.peer hj.scope ⟨rfl, rfl, rfl⟩, ?_⟩
    rw [show j.state.committeeMember.committee = i.state.committeeMember.committee from
      hj.scope.committee]
    exact hmsg.verified
  · simp [htype] at hp

theorem accepted_of_proposal {rcs prepares : List ProcessingMessage} {value : Data}
    (hhonest : i.Honest leader) (hcreated : i.createProposal now value rcs prepares = .ok sm)
    (hleader : i.proposerForRound i.state.round = i.state.committeeMember.operatorID)
    (hrcs : ∀ rc ∈ rcs, newProcessingMessage rc.signedMessage = .ok rc)
    (hprepares : ∀ pm ∈ prepares, newProcessingMessage pm.signedMessage = .ok pm)
    (hjust : i.state.round ≠ firstRound →
      RoundChangesJustify i.scope rcs prepares i.state.round value) :
    AcceptedByPeers leader i.state.committeeMember i.state.height sm := by
  obtain ⟨m, hmsg, htype, hheight, hround, hvalue, hroot, hgetRcs, hgetPrepares⟩ :=
    createProposal_own hhonest.own hhonest.id_ne_nil hcreated hrcs hprepares
  refine ⟨m, hmsg.decoded, fun j hj ↦ ⟨fun hrc ↦ ?_, fun _ now hreceives ↦ ?_⟩⟩
  · simp [htype] at hrc
  · refine isValidProposal_of_own hj.scope hmsg htype hheight hvalue hroot hgetRcs hgetPrepares ?_
      (fun hr ↦ ?_) hreceives
    · rw [hj.proposerForRound, hround, ← hleader]
      exact (hhonest.leads i.state i.state.round).symm
    · rw [hround] at hr ⊢
      exact hjust hr

/-- **Every message of an honest instance is accepted by its peers.** -/
theorem Creates.accepted {log : List Event} {input : Input} (hcreates : i.Creates now sm input)
    (hhonest : i.Honest leader) (hbacked : i.Backed) (hsound : i.Sound log)
    (hinput : ∀ msg, input = .message msg → newProcessingMessage msg.signedMessage = .ok msg ∧
      verify msg.signedMessage i.state.committeeMember.committee = .ok ()) :
    AcceptedByPeers leader i.state.committeeMember i.state.height sm := by
  cases hcreates with
  | prepare valid below created =>
    obtain ⟨m, hm, htype, -⟩ := isSigned_of_createPrepare created
    exact accepted_of_vote hm (.inl htype)
  | commit below created =>
    obtain ⟨m, hm, htype, -⟩ := isSigned_of_createCommit created
    exact accepted_of_vote hm (.inr htype)
  | roundChange lt below created => exact accepted_of_roundChange hhonest hbacked hsound lt created
  | @proposal msg rc c r value prepares le below added embedded justified leader' created =>
    obtain ⟨hdecoded, hverified⟩ := hinput msg rfl
    have hstored := hbacked.roundChanges.add hdecoded hverified added
    refine accepted_of_proposal (i := (i.withRoundChanges c).enterRound r)
      (hhonest.congr rfl rfl rfl rfl) created ?_ (fun rc hrc ↦ (hstored _ rc hrc).1)
      (fun pm hpm ↦ ?_) (isProposalJustification_iff.1 justified).2
    · -- entering the round does not change who leads it
      have hsame := (hhonest.leads (i.withRoundChanges c).state r).symm
      exact (hhonest.leads ((i.withRoundChanges c).enterRound r).state r).trans
        (hsame.trans leader')
    · obtain ⟨sm', -, hsm'⟩ := mem_processingMessages embedded hpm
      rwa [signedMessage_of_newProcessingMessage hsm']

end Instance

/-! ### Runs of a controller -/

namespace Controller

variable {c c' : Controller} {call : Call}

/-- A controller of an honest operator. -/
structure Honest (leader : ℕ → List Operator → ℕ → OperatorID) (c : Controller) : Prop where
  own : Ssv.OwnSignatures c.committeeMember c.operatorSigner
  leads : c.config.Leads leader
  identifier_ne_nil : ∀ h, c.identifierAtHeight h ≠ []

theorem Honest.newInstance (h : c.Honest leader) (height : ℕ) :
    (c.newInstance height).Honest leader :=
  ⟨h.own, h.leads, h.identifier_ne_nil height⟩

theorem Honest.step {es : List Event} {ok : Bool} (h : c.Honest leader)
    (hstep : c.Step call c' es ok) : c'.Honest leader := by
  cases hstep <;> exact ⟨h.own, h.leads, h.identifier_ne_nil⟩

end Controller

theorem Instance.Honest.step {i i' : Instance} {now : ℕ} {input : Instance.Input} {es : List Event}
    (h : i.Honest leader) (hstep : i.Step now input i' es) : i'.Honest leader := by
  cases hstep <;> exact h.congr rfl rfl rfl rfl

/-- The call delivers only messages whose signatures are the signers'. -/
def Call.Authenticated (ops : List Operator) : Call → Prop
  | .processMsg _ sm => verify sm ops = .ok ()
  | _ => True

instance (ops : List Operator) : DecidablePred (Call.Authenticated ops)
  | .processMsg _ sm => inferInstanceAs (Decidable (verify sm ops = .ok ()))
  | .startNewInstance _ _ _ _ => inferInstanceAs (Decidable True)
  | .onQBFTRoundTimeout _ _ _ => inferInstanceAs (Decidable True)

namespace Node

variable {n : Node} {call : Call}

/-- What the calls of an honest operator preserve. -/
structure Backed (leader : ℕ → List Operator → ℕ → OperatorID) (n : Node) : Prop where
  inv : n.Inv
  honest : n.controller.Honest leader
  instances : ∀ x ∈ n.controller.items, x.state.decided = false → x.Honest leader ∧ x.Backed
  accepted : ∀ sm slot, Event.broadcast sm slot ∈ n.log →
    AcceptedByPeers leader n.controller.committeeMember slot sm

theorem authentic_of_hands {ops : List Operator} {h : ℕ} {input : Instance.Input}
    (hcall : call.Authenticated ops) (hands : Controller.Hands call h input) :
    ∀ msg, input = .message msg → newProcessingMessage msg.signedMessage = .ok msg ∧
      verify msg.signedMessage ops = .ok () := by
  rintro msg rfl
  cases hands with
  | message decoded =>
    rw [signedMessage_of_newProcessingMessage decoded]
    exact ⟨decoded, hcall⟩

theorem Backed.accepted_of_call (h : n.Backed leader)
    (hcall : call.Authenticated n.controller.committeeMember.committee) {sm : SignedSSVMessage}
    {slot : ℕ} (he : Event.broadcast sm slot ∈ n.eventsOf call) :
    AcceptedByPeers leader n.controller.committeeMember slot sm := by
  cases Controller.perform_broadcasts n.controller call sm slot he with
  | @running inst now h₀ input found undecided hands height creates =>
    obtain ⟨mem, -⟩ := h.inv.wellFormed.find_iff.1 found
    have hcm := h.inv.wellFormed.scope inst mem
    obtain ⟨hhonest, hbacked⟩ := h.instances inst mem undecided
    rw [height, ← hcm]
    refine creates.accepted hhonest hbacked (h.inv.sound inst mem undecided) ?_
    rw [hcm]
    exact authentic_of_hands hcall hands
  | @start now height value checker hslot hleader below created =>
    rw [hslot]
    refine Instance.accepted_of_proposal
      (i := (n.controller.newInstance height).withStart value checker)
      ((h.honest.newInstance height).congr rfl rfl rfl rfl) created ?_ (fun _ hx ↦ ?_)
        (fun _ hx ↦ ?_)
      fun hr ↦ absurd rfl hr
    · have hsame := (h.honest.leads (n.controller.newInstance height).state firstRound).symm
      exact (h.honest.leads ((n.controller.newInstance height).withStart value checker).state
        firstRound).trans (hsame.trans hleader)
    · exact nomatch hx
    · exact nomatch hx

/-- **A call on an authenticated message keeps everything.** -/
theorem Backed.perform (h : n.Backed leader)
    (hcall : call.Authenticated n.controller.committeeMember.committee) :
    (n.perform call).Backed leader where
  inv := h.inv.perform call
  honest := h.honest.step (n.step call)
  instances x hx hund := by
    cases (n.step call).origin h.inv.wellFormed hx hund with
    | @kept y mem same quiet =>
      have hy : y.state.decided = false := by
        rcases same with rfl | rfl <;> exact hund
      obtain ⟨hhonest, hbacked⟩ := h.instances y mem hy
      rcases same with rfl | rfl
      · exact ⟨hhonest, hbacked⟩
      · exact ⟨hhonest.congr rfl rfl rfl rfl,
          hbacked.frame rfl rfl hbacked.roundChanges le_rfl rfl rfl⟩
    | @started now height value checker call_eq le absent eq sends =>
      rw [eq]
      have hnew : (n.controller.newInstance height).Backed := .newInstance
      exact ⟨(h.honest.newInstance height).congr rfl rfl rfl rfl,
        hnew.frame rfl rfl hnew.roundChanges le_rfl rfl rfl⟩
    | @stepped y now input es₀ mem undecided hands step events =>
      obtain ⟨hhonest, hbacked⟩ := h.instances y mem undecided
      refine ⟨hhonest.step step, hbacked.step (h.inv.sound y mem undecided) step hund ?_⟩
      rw [h.inv.wellFormed.scope y mem]
      exact authentic_of_hands hcall hands
  accepted sm slot he := by
    rw [(n.step call).committeeMember_eq]
    rcases mem_append.1 he with he | he
    · exact h.accepted sm slot he
    · exact h.accepted_of_call hcall he

theorem Backed.init {c : Controller} (hinv : (Node.init c).Inv) (hhonest : c.Honest leader)
    (hitems : c.items = []) : (Node.init c).Backed leader where
  inv := hinv
  honest := hhonest
  instances x hx := by
    rw [show (Node.init c).controller.items = [] from hitems] at hx
    exact nomatch hx
  accepted _ _ he := nomatch he

theorem Backed.runCalls {calls : List Call} (h : n.Backed leader)
    (hcalls : ∀ call ∈ calls, call.Authenticated n.controller.committeeMember.committee) :
    (n.runCalls calls).Backed leader ∧
      (n.runCalls calls).controller.committeeMember = n.controller.committeeMember := by
  induction calls generalizing n with
  | nil => exact ⟨h, rfl⟩
  | cons call calls ih =>
    have hcm : (n.perform call).controller.committeeMember = n.controller.committeeMember :=
      (n.step call).committeeMember_eq
    obtain ⟨hbacked, heq⟩ := ih (h.perform (hcalls call (.head _))) fun call' hmem ↦
      hcm ▸ hcalls call' (.tail _ hmem)
    exact ⟨hbacked, heq.trans hcm⟩

/-- **Honest messages are valid for peers.** Every round change passes
`validRoundChangeForDataVerifySignature`, and every proposal `isValidProposal` up to the receiver's
own round and value check, at every instance of the height and committee. -/
theorem broadcasts_accepted_by_peers {identifier : Bytes} {fn : Option (ℕ → Bytes)}
    {cm : CommitteeMember} {config : Config} {signer : OperatorSigner} {calls : List Call}
    (hhonest : (Controller.newController identifier fn cm config signer).Honest leader)
    (hcalls : ∀ call ∈ calls, call.Authenticated cm.committee) {sm : SignedSSVMessage} {slot : ℕ}
    (he : Event.broadcast sm slot ∈
      ((Node.init (.newController identifier fn cm config signer)).runCalls calls).log) :
    AcceptedByPeers leader cm slot sm := by
  obtain ⟨hbacked, heq⟩ := (Backed.init Inv.init hhonest rfl).runCalls hcalls
  have haccepted := hbacked.accepted sm slot he
  rw [heq] at haccepted
  exact haccepted

end Node

end Ssv

/-! ### A run of a leader -/

namespace Ssv.Reference

theorem unmarshal_marshal (sms : List SignedSSVMessage) :
    unmarshalJustifications (sms.map signedMessageCodec.write) = .ok (sms.map id) := by
  refine Checks.mapM_map_eq_ok fun sm _ ↦ ?_
  rw [Codec.readAll_write]
  rfl

@[reducible]
def peerSpec : PeerSpec where
  toSsvSpec := spec
  embedded := id
  same_embedded := ⟨rfl, rfl, rfl⟩
  getRoundChangeJustifications_marshal {m sms} h := by
    obtain h : sms.map signedMessageCodec.write = m.roundChangeJustification := Except.ok.inj h
    change unmarshalJustifications m.roundChangeJustification = _
    rw [← h, unmarshal_marshal]
  getPrepareJustifications_marshal {m sms} h := by
    obtain h : sms.map signedMessageCodec.write = m.prepareJustification := Except.ok.inj h
    change unmarshalJustifications m.prepareJustification = _
    rw [← h, unmarshal_marshal]
  getPrepareJustifications_nil {m} h := by
    change unmarshalJustifications m.prepareJustification = _
    rw [h]
    rfl
  newProcessingMessage_of_same {sm sm' pm} hsame h := by
    change Reference.newProcessingMessage sm = .ok pm at h
    change Reference.newProcessingMessage sm' = _
    unfold Reference.newProcessingMessage at h ⊢
    rw [hsame.ssvMessage]
    split at h
    · cases h
      rfl
    · cases h
  validate_of_same {sm sm' m} hsame h := by
    change Reference.validate ⟨sm, m⟩ = .ok () at h
    change Reference.validate ⟨sm', m⟩ = .ok ()
    unfold Reference.validate at h ⊢
    simp only [hsame.operatorIDs, hsame.signatures]
    exact h
  verify_of_same {sm sm' ops} hsame h := by
    change Reference.verify sm ops = .ok () at h
    change Reference.verify sm' ops = .ok ()
    unfold Reference.verify at h ⊢
    rw [hsame.operatorIDs, hsame.signatures, hsame.ssvMessage]
    exact h
  validate_of_signed {sm m op sig rcs prepares} hop _ hsig _ _ _ _ _ := by
    change Reference.validate ⟨sm, m⟩ = .ok ()
    unfold Reference.validate
    rw [if_pos (by simp [hop, hsig])]
  matchedSigners_self h := decide_eq_true h

local instance leaderSpec : PeerSpec := peerSpec

def leaderController : Controller :=
  .newController fourOperators.identifier fourOperators.identifierFn (fourOperators.member 4)
    (fourOperators.config 4) (fourOperators.signer 4)

theorem honest_leaderController : leaderController.Honest fun _ _ _ ↦ 4 := by
  refine ⟨⟨by decide, by decide, fun now s sig h ↦ ?_⟩, fun _ _ ↦ rfl, fun _ ↦ List.cons_ne_nil _ _⟩
  obtain rfl : signature 4 s = sig := Except.ok.inj h
  refine ⟨List.append_ne_nil_of_left_ne_nil (by decide) _, ?_⟩
  have hmember : ∀ id ∈ [leaderController.committeeMember.operatorID],
      id ∈ leaderController.committeeMember.committee.map (·.operatorID) := by decide
  exact if_pos ⟨rfl, hmember⟩

/-- The leader proposes in round `1`, is prepared, times out, and is asked to lead round `2`. -/
def leaderCalls : List Call :=
  let root := hashDataRoot value
  let prepare op := signed op (message .prepare 1 root) none
  let roundChange op := signed op (message .roundChange 2 0) none
  [.startNewInstance 0 1 value nonEmpty, .processMsg 0 (signed 4 (message .proposal 1 root) value),
    .processMsg 0 (prepare 1), .processMsg 0 (prepare 2), .processMsg 0 (prepare 3),
    .onQBFTRoundTimeout 0 1 1, .processMsg 0 (roundChange 1), .processMsg 0 (roundChange 2),
    .processMsg 0 (roundChange 3)]

def broadcastKinds (log : List Event) : List (MessageType × ℕ × ℕ) := log.filterMap fun
    | .broadcast sm _ =>
      match SsvSpec.newProcessingMessage sm with
      | .ok pm => some (pm.qbftMessage.msgType, pm.qbftMessage.round, pm.qbftMessage.dataRound)
      | .error _ => none
    | _ => none

/-- The peers accept the leader's prepared round change and its proposal for round `2`. -/
theorem broadcasts_accepted_by_peers_leader :
    broadcastKinds ((Node.init leaderController).runCalls leaderCalls).log =
      [(.proposal, 1, 0), (.prepare, 1, 0), (.commit, 1, 0), (.roundChange, 2, 1),
        (.proposal, 2, 0)] ∧
    ∀ sm slot, Event.broadcast sm slot ∈ ((Node.init leaderController).runCalls leaderCalls).log →
      AcceptedByPeers (fun _ _ _ ↦ 4) (fourOperators.member 4) slot sm := by
  refine ⟨by decide +kernel, fun sm slot he ↦ ?_⟩
  exact Node.broadcasts_accepted_by_peers honest_leaderController (by decide +kernel) he

end Ssv.Reference
