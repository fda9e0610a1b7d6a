import SsvNode.Qbft.CatchUp
import SsvNode.Runner.AggregatedCommit
import SsvNode.Runner.OneDecision
import SsvNode.Validation.ReferenceSpec

/-!
# Aggregated decided messages are accepted everywhere

The aggregate that an instance returns with its decision meets message validation and the
`ValidateDecided` of the peers' controllers. **None of them can refuse it** (`aggregated_accepted`),
in runs in which what the instance is handed was decoded and passed the semantic checks, its own
messages excepted (`CameIn`).
-/

namespace Ssv.Validation

open SsvSpec ValidationSpec Checks Instance List Finset

/-! ### Signers -/

theorem validateSigners_of_sorted {rc : Receipt} {prev : OperatorID} {signers : List OperatorID}
    (hsorted : (prev :: signers).Pairwise (· < ·))
    (hknown : ∀ op ∈ signers, rc.operatorsExist op = .ok true) :
    validateSigners rc prev signers = .ok () := by
  induction signers generalizing prev with
  | nil => rfl
  | cons signer rest ih =>
    obtain ⟨hlt, hrest⟩ := pairwise_cons.1 hsorted
    have hprev : prev < signer := hlt signer (.head _)
    simp only [validateSigners, bind_eq_ok, exists_check, require_eq_ok]
    refine ⟨Nat.ne_of_gt (Nat.zero_lt_of_lt hprev), Nat.ne_of_gt hprev, ?_, ?_⟩
    · simp [validateSignerIsKnown, hknown signer mem_cons_self]
    · exact ih hrest fun op hop ↦ hknown op (.tail _ hop)

def wireOf (sm : SignedSSVMessage) : WireMessage where
  signatures := sm.signatures
  operatorIDs := sm.operatorIDs
  ssvMessage := some sm.ssvMessage
  fullData := sm.fullData

theorem validateSignedSSVMessage_of_sorted {rc : Receipt} {sm : SignedSSVMessage}
    (hne : sm.operatorIDs ≠ []) (hsorted : sm.operatorIDs.Pairwise (· < ·))
    (hlength : sm.signatures.length = sm.operatorIDs.length)
    (hsize : ∀ sig ∈ sm.signatures, sig.length = rsaSignatureSize)
    (hzero : 0 ∉ sm.operatorIDs) (hknown : ∀ op ∈ sm.operatorIDs, rc.operatorsExist op = .ok true) :
    validateSignedSSVMessage rc (some (wireOf sm)) = .ok sm := by
  have hpos : sm.operatorIDs.length ≠ 0 := by simpa using hne
  have hfrom : (0 :: sm.operatorIDs).Pairwise (· < ·) :=
    pairwise_cons.2 ⟨fun op hop ↦ Nat.pos_of_ne_zero fun h ↦ hzero (h ▸ hop), hsorted⟩
  simp only [validateSignedSSVMessage, bind_eq_ok, exists_check, require_eq_ok]
  refine ⟨hpos, (hlength ▸ hpos : sm.signatures.length ≠ 0), hsize, hsorted.imp le_of_lt,
    hlength.symm, ?_, rfl⟩
  exact validateSigners_of_sorted hfrom hknown

/-! ### Semantics -/

section

variable [ValidationSpec] {net : Network} {signed signed' : SignedSSVMessage} {msg : Message}
  {committee : List OperatorID}

/-- **More signers.** A commit that passes the semantic checks passes them with a quorum's
signatures and a value of its root. -/
theorem validateConsensusMessageSemantics_of_quorum
    (h : validateConsensusMessageSemantics net signed msg committee = .ok ())
    (hbody : signed'.ssvMessage = signed.ssvMessage) (htype : msg.msgType = .commit)
    (hmany : 1 < signed'.operatorIDs.length)
    (hquorum : computeQuorum committee.length ≤ signed'.operatorIDs.length)
    (hhash : hashFullData signed'.fullData.bytes = .ok msg.root) :
    validateConsensusMessageSemantics net signed' msg committee = .ok () := by
  simp only [validateConsensusMessageSemantics, bind_eq_ok, exists_check, require_eq_ok] at h ⊢
  rw [hbody]
  obtain ⟨hrole, -, -, -, hrest⟩ := h
  refine ⟨hrole, fun hc ↦ hc.2 htype, fun hc ↦ by omega, ?_, hrest⟩
  unfold validateFullData
  split
  · simp only [bind_eq_ok, exists_check, require_eq_ok, mapError_eq_ok]
    refine ⟨?_, msg.root, hhash, rfl⟩
    rintro (hprepare | ⟨-, hone⟩)
    · simp [htype] at hprepare
    · exact absurd hone hmany.ne'
  · rfl

end

/-! ### How messages come in -/

variable [AggregationSpec] [ValidationSpec]

/-- The two models are given the same hash and the same decoding. -/
structure SharedSpec : Prop where
  hash (bytes : Bytes) : hashFullData bytes = .ok (Sha256.sum256 bytes)
  decode {data : Bytes} {msg : Message} :
    RunnerSpec.decodeMessage data = .ok msg → ValidationSpec.decodeMessage data = .ok msg

/-- The message was decoded, and is the operator's own or has passed the semantic checks. -/
def CameIn (net : Network) (member : CommitteeMember) (msg : ProcessingMessage) : Prop :=
  newProcessingMessage msg.signedMessage = .ok msg ∧
    (msg.signedMessage.operatorIDs = [member.operatorID] ∨
      validateConsensusMessageSemantics net msg.signedMessage msg.qbftMessage member.members =
        .ok ())

/-- The condition on a call to an instance. -/
def Delivered (net : Network) (i : Instance) : InstanceCall → Prop
  | .processMsg _ msg => CameIn net i.state.committeeMember msg
  | _ => True

/-- The invariant of an instance that is handed such messages. -/
structure Fed (net : Network) (i : Instance) : Prop where
  tolerates : 1 ≤ i.state.committeeMember.faultyNodes
  accepted_root : ∀ {p}, i.state.proposalAcceptedForCurrentRound = some p →
    p.qbftMessage.root = hashDataRoot p.signedMessage.fullData
  commits : i.state.decided = false → ∀ {r x}, x ∈ messagesForRound i.state.commitContainer r →
    CameIn net i.state.committeeMember x ∧
      checkSignersInCommittee x.signedMessage i.state.committeeMember.committee = true

namespace Fed

variable {net : Network} {i i' : Instance}

theorem frame (h : Fed net i) (hmember : i'.state.committeeMember = i.state.committeeMember)
    (haccepted : i'.state.proposalAcceptedForCurrentRound = none ∨
      i'.state.proposalAcceptedForCurrentRound = i.state.proposalAcceptedForCurrentRound)
    (hcommits : i'.state.decided = true ∨ i'.state.decided = i.state.decided ∧
      i'.state.commitContainer = i.state.commitContainer) : Fed net i' where
  tolerates := hmember ▸ h.tolerates
  accepted_root {p} hp := by
    rcases haccepted with hnone | heq
    · simp [hnone] at hp
    · exact h.accepted_root (heq ▸ hp)
  commits hund {r x} hx := by
    rcases hcommits with hdecided | ⟨hdecided, heq⟩
    · simp [hdecided] at hund
    · rw [hmember]
      exact h.commits (hdecided ▸ hund) (heq ▸ hx)

/-- Only a proposal of its value's root is accepted, only what came in is stored. -/
theorem step {now : ℕ} {input : Input} {es : List Event} (h : Fed net i)
    (hstep : i.Step now input i' es)
    (hinput : ∀ msg, input = .message msg → CameIn net i.state.committeeMember msg) :
    Fed net i' := by
  have hmember : i'.state.committeeMember = i.state.committeeMember :=
    congrArg Scope.committeeMember hstep.scope_eq
  cases hstep with
  | acceptProposal valid =>
    refine ⟨h.tolerates, ?_, h.commits⟩
    rintro p ⟨rfl⟩
    exact (isValidProposal_iff.1 valid).root
  | storeCommit valid added =>
    refine ⟨h.tolerates, h.accepted_root, fun hund r x hx ↦ ?_⟩
    rcases (addFirst_added added).1 hx with hx | ⟨rfl, -⟩
    · exact h.commits hund hx
    · exact ⟨hinput _ rfl, (validateCommit_iff.1 valid).1.members⟩
  | skip => exact h
  | giveUp | lead | follow | timeout => exact h.frame rfl (.inl rfl) (.inr ⟨rfl, rfl⟩)
  | storePrepare | prepareQuorum | storeRoundChange =>
      exact h.frame rfl (.inr rfl) (.inr ⟨rfl, rfl⟩)
  | decide => exact h.frame rfl (.inr rfl) (.inl rfl)

theorem next {call : InstanceCall} (h : Fed net i) (hcall : Delivered net i call) :
    Fed net (i.next call) := by
  refine next_rule h ?start ?message ?timeout ?conclude ?irrelevant
  case start => exact fun _ _ ↦ h.frame rfl (.inr rfl) (.inr ⟨rfl, rfl⟩)
  case message =>
    rintro now msg rfl
    refine h.step (step_processMsg now msg i) fun msg' heq ↦ ?_
    cases heq
    exact hcall
  case timeout => exact fun now ↦ h.step (step_uponRoundTimeout now i) nofun
  case conclude =>
    rintro - msg _ ⟨c, rfl⟩
    exact h.frame rfl (.inr rfl) (.inl rfl)
  case irrelevant => exact h.frame rfl (.inr rfl) (.inr ⟨rfl, rfl⟩)

theorem of_reachable (hi : (machine.restrict (Delivered net)).Reachable i) : Fed net i := by
  refine Machine.Reachable.invariant ?_ (fun i call _ h hcall ↦ h.next hcall.2) hi
  rintro _ ⟨config, committeeMember, identifier, height, signer, hf, rfl⟩
  refine ⟨hf, by simp [newInstance], fun _ r x hx ↦ ?_⟩
  rw [newInstance, messagesForRound_new] at hx
  cases hx

end Fed

/-! ### The decision -/

variable {net : Network} {i : Instance} {now : ℕ} {msg : ProcessingMessage} {value : Data}
  {agg : SignedSSVMessage}

theorem exists_passed {member : CommitteeMember} {msgs : List ProcessingMessage}
    (hcame : ∀ m ∈ msgs, CameIn net member m)
    (hnodup : (msgs.flatMap (·.signedMessage.operatorIDs)).Nodup)
    (hmany : 1 < (msgs.flatMap (·.signedMessage.operatorIDs)).length) :
    ∃ m ∈ msgs, newProcessingMessage m.signedMessage = .ok m ∧
      validateConsensusMessageSemantics net m.signedMessage m.qbftMessage member.members =
        .ok () := by
  by_contra! hnone
  have hown : ∀ op ∈ msgs.flatMap (·.signedMessage.operatorIDs), op = member.operatorID := by
    intro op hop
    obtain ⟨m, hm, hop⟩ := mem_flatMap.1 hop
    obtain ⟨hdecoded, hown | hpassed⟩ := hcame m hm
    · simpa [hown] using hop
    · exact absurd hpassed (hnone m hm hdecoded)
  have hsub : (msgs.flatMap (·.signedMessage.operatorIDs)).toFinset ⊆ {member.operatorID} :=
    fun op hop ↦ Finset.mem_singleton.2 (hown op (List.mem_toFinset.1 hop))
  have hcard := card_le_card hsub
  rw [toFinset_card_of_nodup hnodup, card_singleton] at hcard
  omega

/-- What is known of the aggregate of a decision on `msg`. -/
structure QuorumCopy (net : Network) (member : CommitteeMember) (msg : ProcessingMessage)
    (msgs : List ProcessingMessage) (agg : SignedSSVMessage) : Prop where
  aggregates : agg.Aggregates msgs
  copy : agg.SignedCopy member.committee msg.signedMessage.ssvMessage
  quorum : 2 * member.faultyNodes + 1 ≤ agg.operatorIDs.length
  members : checkSignersInCommittee agg member.committee = true
  root : hashDataRoot agg.fullData = msg.qbftMessage.root
  passed : ∃ sm : SignedSSVMessage, sm.ssvMessage = msg.signedMessage.ssvMessage ∧
    validateConsensusMessageSemantics net sm msg.qbftMessage member.members = .ok ()

theorem quorumCopy_of_decision {c : MsgContainer} {proposal : ProcessingMessage}
    (hdec : i.Decision msg c proposal agg) (hfed : Fed net i)
    (hmsg : CameIn net i.state.committeeMember msg)
    (hcommits : ∀ x ∈ messagesForRound c msg.qbftMessage.round,
      x.qbftMessage.root = msg.qbftMessage.root →
      x.signedMessage.SignedCopy i.state.committeeMember.committee msg.signedMessage.ssvMessage) :
    QuorumCopy net i.state.committeeMember msg (longestUniqueSignersForRoundAndRoot c
      msg.qbftMessage.round msg.qbftMessage.root).2 agg := by
  obtain ⟨hvalid, -, -, p, hp, hproot⟩ := validateCommit_iff.1 hdec.valid
  obtain rfl : p = proposal := Option.some.inj (hp.symm.trans hdec.accepted)
  have hnodup : (longestUniqueSignersForRoundAndRoot c msg.qbftMessage.round
      msg.qbftMessage.root).1.Nodup := nodup_longestUniqueSigners
  have hquorum := memberHasQuorum_iff.1 hdec.quorum
  have haggregated := hdec.aggregated
  rw [AggregationSpec.signers_longestUniqueSigners] at hnodup hquorum
  have hstored : ∀ m ∈ (longestUniqueSignersForRoundAndRoot c msg.qbftMessage.round
      msg.qbftMessage.root).2, m.signedMessage.SignedCopy i.state.committeeMember.committee
        msg.signedMessage.ssvMessage ∧ CameIn net i.state.committeeMember m ∧
      checkSignersInCommittee m.signedMessage i.state.committeeMember.committee = true := by
    intro m hm
    have hround := RunnerSpec.mem_messages_longestUniqueSigners hm
    refine ⟨hcommits m hround (AggregationSpec.root_of_mem_longestUniqueSigners hm), ?_⟩
    rcases (addFirst_added hdec.added).1 hround with hold | ⟨rfl, -⟩
    · exact hfed.commits hdec.undecided hold
    · exact ⟨hmsg, hvalid.members⟩
  generalize (longestUniqueSignersForRoundAndRoot c msg.qbftMessage.round
    msg.qbftMessage.root).2 = msgs at *
  have hcopies := fun m hm ↦ (hstored m hm).1
  obtain ⟨hagg, hbody, hdata⟩ := aggregates_of_aggregateCommitMsgs hcopies hnodup haggregated
  have htolerates := hfed.tolerates
  refine ⟨hagg, signedCopy_of_aggregates hcopies hagg hbody, ?_, ?_, ?_, ?_⟩
  · exact hagg.signers.length_eq ▸ hquorum
  · refine checkSignersInCommittee_iff.2 fun op hop ↦ ?_
    obtain ⟨m, hm, hop⟩ := mem_flatMap.1 (hagg.signers.mem_iff.1 hop)
    exact checkSignersInCommittee_iff.1 (hstored m hm).2.2 op hop
  · rw [hdata, ← hproot]
    exact (hfed.accepted_root hp).symm
  · obtain ⟨m, hm, hdecoded, hpassed⟩ :=
      exists_passed (fun m hm ↦ (hstored m hm).2.1) hnodup (by omega)
    have hsame := (hcopies m hm).ssvMessage
    have hbodies := (RunnerSpec.newProcessingMessage_iff.1 hdecoded).1
    rw [hsame, (RunnerSpec.newProcessingMessage_iff.1 hmsg.1).1] at hbodies
    refine ⟨m.signedMessage, hsame, ?_⟩
    rw [Except.ok.inj hbodies]
    exact hpassed

/-- **Accepted everywhere.** The aggregate that a deciding instance returns has its signers in
increasing order, each with its own signature. Every controller of the committee takes it as
decided, and the validation of every node that knows the operators accepts it. -/
theorem aggregated_accepted (hspec : SharedSpec)
    (hi : (machine.restrict (Delivered net)).Reachable i)
    (hmsg : CameIn net i.state.committeeMember msg)
    (hdecides : ((processMsg now msg).run i).result = .ok (some (value, agg)))
    (hsize : i.state.committeeMember.committee.length = 3 * i.state.committeeMember.faultyNodes + 1)
    (hzero : 0 ∉ i.state.committeeMember.members)
    (hcommits : ∀ x ∈ messagesForRound ((processMsg now msg).run i).state.state.commitContainer
        msg.qbftMessage.round, x.qbftMessage.root = msg.qbftMessage.root →
      x.signedMessage.SignedCopy i.state.committeeMember.committee msg.signedMessage.ssvMessage) :
    agg.Aggregates (((processMsg now msg).run i).state.commitQuorumForRoundRoot msg.qbftMessage.root
      msg.qbftMessage.round).2 ∧
    newProcessingMessage agg = .ok ⟨agg, msg.qbftMessage⟩ ∧
    (∀ c : Controller, c.committeeMember.committee = i.state.committeeMember.committee →
      c.committeeMember.faultyNodes = i.state.committeeMember.faultyNodes →
      c.validateDecided ⟨agg, msg.qbftMessage⟩ = .ok ()) ∧
    (∀ rc : Receipt, (∀ op ∈ i.state.committeeMember.members, rc.operatorsExist op = .ok true) →
      validateSignedSSVMessage rc (some (wireOf agg)) = .ok agg) ∧
    ValidationSpec.decodeMessage agg.ssvMessage.data = .ok msg.qbftMessage ∧
    validateConsensusMessageSemantics net agg msg.qbftMessage i.state.committeeMember.members =
      .ok () := by
  have hdecision := processMsg_decides now msg i
  obtain ⟨c, proposal, hdec, rfl, hstate⟩ := hdecision value agg hdecides
  rw [hstate] at hcommits ⊢
  have hfed := Fed.of_reachable hi
  have htolerates := hfed.tolerates
  have hvalid := (validateCommit_iff.1 hdec.valid).1
  obtain ⟨hagg, hcopy, hquorum, hmembers, hroot, sm, hsm, hpassed⟩ :=
    quorumCopy_of_decision hdec hfed hmsg hcommits
  have hsigners := checkSignersInCommittee_iff.1 hmembers
  have hnozero : 0 ∉ agg.operatorIDs := fun h ↦ hzero (hsigners 0 h)
  have hdecoded : RunnerSpec.decodeMessage agg.ssvMessage.data = .ok msg.qbftMessage := by
    rw [hcopy.ssvMessage]
    exact (RunnerSpec.newProcessingMessage_iff.1 hmsg.1).1
  refine ⟨hagg, RunnerSpec.newProcessingMessage_iff.2 ⟨hdecoded, rfl⟩, ?_, ?_,
    hspec.decode hdecoded, ?_⟩
  · intro c hcommittee hfaulty
    rw [← hcommittee] at hcopy hmembers
    rw [← hfaulty] at hquorum
    exact Controller.validateDecided_of_signedCopy hvalid.validated hvalid.msgType hcopy
      (hagg.sorted.imp ne_of_lt) hnozero hmembers hquorum hroot
  · intro rc hknown
    have hne : agg.operatorIDs ≠ [] := List.ne_nil_of_length_pos (by omega)
    exact validateSignedSSVMessage_of_sorted hne hagg.sorted hagg.length hcopy.size hnozero
      fun op hop ↦ hknown op (hsigners op hop)
  · have hlength : computeQuorum i.state.committeeMember.members.length =
        2 * i.state.committeeMember.faultyNodes + 1 := by
      rw [CommitteeMember.members, List.length_map, hsize, computeQuorum]
      omega
    refine validateConsensusMessageSemantics_of_quorum hpassed (hcopy.ssvMessage.trans hsm.symm)
      hvalid.msgType (by omega) (by omega) ?_
    rw [hspec.hash]
    exact congrArg Except.ok hroot

end Ssv.Validation

/-! ### Three of four operators -/

namespace Ssv.Validation.Reference

open SsvSpec Checks Instance Ssv.Reference

/-- Every pair is that of a committee member with its signature. -/
def verifyRsa (sm : SignedSSVMessage) (ops : List Operator) : Except Ssv.Err Unit :=
  if ∀ p ∈ sm.pairs, p.1 ∈ ops.map (·.operatorID) ∧ p.2 = rsaSignature p.1 then .ok ()
  else .error { text := "invalid signature" }

theorem flatMap_foldl_takeDisjoint (l : List ProcessingMessage)
    {acc : List OperatorID × List ProcessingMessage}
    (hacc : acc.1 = acc.2.flatMap (·.signedMessage.operatorIDs)) :
    (l.foldl takeDisjoint acc).1 =
      (l.foldl takeDisjoint acc).2.flatMap (·.signedMessage.operatorIDs) := by
  induction l generalizing acc with
  | nil => exact hacc
  | cons m l ih =>
    refine ih ?_
    unfold takeDisjoint
    split
    · simp [hacc]
    · exact hacc

/-- The reference implementation with signatures of 256 bytes. -/
@[reducible]
def aggregationSpec : AggregationSpec where
  toSsvSpec := { spec with verify := verifyRsa }
  decodeMessage := runnerSpec.decodeMessage
  newProcessingMessage_iff := runnerSpec.newProcessingMessage_iff
  ssvMessage_of_aggregate := runnerSpec.ssvMessage_of_aggregate
  mem_messages_longestUniqueSigners := runnerSpec.mem_messages_longestUniqueSigners
  verifies ops _ op sig := op ∈ ops.map (·.operatorID) ∧ sig = rsaSignature op
  signers_longestUniqueSigners := flatMap_foldl_takeDisjoint _ rfl
  root_of_mem_longestUniqueSigners {c r root m} hm := by
    rcases mem_foldl_takeDisjoint _ hm with hm | hm
    · exact nomatch hm
    · exact of_decide_eq_true (List.mem_filter.1 hm).2
  aggregate_append {sm sm'} hbody hnodup := if_pos ⟨hbody.symm, hnodup⟩
  validate_of_signers {sm sm' m} _ _ hne hnodup _ hlength _ := if_pos ⟨hne, hnodup, hlength⟩
  verify_iff {sm ops} _ := by
    change verifyRsa sm ops = .ok () ↔ _
    unfold verifyRsa
    split
    · next h => exact iff_of_true rfl h
    · next h => exact iff_of_false nofun h

local instance decidedSpec : AggregationSpec := aggregationSpec

theorem sharedSpec : SharedSpec where
  hash _ := rfl
  decode {data msg} h := by
    change Ssv.Reference.decodeMessage data = .ok msg at h
    change decodeWith messageCodec data = .ok msg
    unfold Ssv.Reference.decodeMessage at h
    unfold decodeWith
    split at h
    · next heq =>
      rw [heq]
      exact congrArg Except.ok (Except.ok.inj h)
    · cases h

/-- A message of an operator about the value of the first round. -/
def sent (t : MessageType) (op : OperatorID) (fullData : Data) : ProcessingMessage :=
  let m : Message :=
    { msgType := t, height := 1, round := 1, identifier := committeeMsgID
      root := hashDataRoot value
      dataRound := 0, roundChangeJustification := [], prepareJustification := [] }
  { signedMessage :=
      { signatures := [rsaSignature op], operatorIDs := [op]
        ssvMessage := { msgType := .ssvConsensusMsgType, msgID := committeeMsgID
                        data := messageCodec.write m }
        fullData := fullData }
    qbftMessage := m }

/-- An instance of operator `1`, the leader. -/
def newLeader : Instance :=
  newInstance { proposerF := fun _ _ ↦ 1, network := fun _ _ _ ↦ .ok (), cutOffRound := 12 }
    { operatorID := 1, faultyNodes := 1, committee := [⟨1, []⟩, ⟨2, []⟩, ⟨3, []⟩, ⟨4, []⟩] }
    committeeMsgID 1 fun _ _ ↦ .ok (rsaSignature 1)

/-- Its proposal comes back, and then the commits of operators `4` and `2`. -/
def twoCommits : List InstanceCall :=
  [.start 0 value nonEmpty, .processMsg 0 (sent .proposal 1 value),
    .processMsg 0 (sent .commit 4 none), .processMsg 0 (sent .commit 2 none)]

def twoCommitted : Instance := twoCommits.foldl Instance.next newLeader

theorem twoCommitted_reachable : (machine.restrict (Delivered network)).Reachable twoCommitted := by
  have hstart : (machine.restrict (Delivered network)).Reachable newLeader :=
    .initial ⟨_, _, _, _, _, by decide, rfl⟩
  have henables : (machine.restrict (Delivered network)).Enables newLeader twoCommits :=
    ⟨⟨trivial, trivial⟩, ⟨trivial, by decide +kernel, .inl rfl⟩,
      ⟨trivial, by decide +kernel, .inr (by decide +kernel)⟩,
      ⟨trivial, by decide +kernel, .inr (by decide +kernel)⟩, trivial⟩
  exact hstart.foldl henables

/-- With its own commit the leader decides; the signers are operators `1`, `2` and `4`. -/
theorem aggregated_accepted_three :
    ∃ agg, ((processMsg 0 (sent .commit 1 none)).run twoCommitted).result =
      .ok (some (value, agg)) ∧
      agg.operatorIDs = [1, 2, 4] ∧
      validateConsensusMessageSemantics network agg (sent .commit 1 none).qbftMessage [1, 2, 3, 4] =
        .ok () := by
  -- sorting does not reduce in the kernel, so only the value is computed
  have hvalue : ((processMsg 0 (sent .commit 1 none)).run twoCommitted).result.toOption.join.map
      (·.1) =
      some value := by decide +kernel
  obtain ⟨agg, hdecides⟩ : ∃ agg, ((processMsg 0 (sent .commit 1 none)).run twoCommitted).result =
      .ok (some (value, agg)) := by
    rcases hresult : ((processMsg 0 (sent .commit 1 none)).run twoCommitted).result with
      e | - | ⟨v, agg⟩
    · simp [hresult, Except.toOption] at hvalue
    · simp [hresult, Except.toOption] at hvalue
    · simp only [hresult, Except.toOption, Option.join_some, Option.map_some] at hvalue
      exact ⟨agg, by rw [Option.some.inj hvalue]⟩
  have hstored : SsvSpec.messagesForRound
      ((processMsg 0 (sent .commit 1 none)).run twoCommitted).state.state.commitContainer 1 =
        [4, 2, 1].map (sent .commit · none) := by decide +kernel
  have hcombined : (((processMsg 0 (sent .commit 1 none)).run
    twoCommitted).state.commitQuorumForRoundRoot
      (sent .commit 1 none).qbftMessage.root 1).2.flatMap (·.signedMessage.operatorIDs) =
        [4, 2, 1] := by
    decide +kernel
  obtain ⟨hagg, -, -, -, -, hpasses⟩ := aggregated_accepted sharedSpec twoCommitted_reachable
    ⟨by decide +kernel, .inl rfl⟩ hdecides (by decide +kernel) (by decide +kernel) fun x hx _ ↦ by
      rw [show (sent .commit 1 none).qbftMessage.round = 1 from rfl, hstored] at hx
      obtain ⟨op, hop, rfl⟩ := List.mem_map.1 hx
      refine ⟨rfl, rfl, ?_, ?_⟩
      · rintro sig hsig
        rw [List.mem_singleton.1 hsig]
        exact List.length_replicate
      · exact (by decide +kernel : ∀ op ∈ [4, 2, 1],
          SsvSpec.verify (sent .commit op none).signedMessage
          twoCommitted.state.committeeMember.committee = .ok ()) op hop
  refine ⟨agg, hdecides, ?_, hpasses⟩
  have hperm : agg.operatorIDs.Perm [4, 2, 1] := hcombined ▸ hagg.signers
  exact (hperm.trans (by decide : [4, 2, 1].Perm [1, 2, 4])).eq_of_pairwise
    (fun a b _ _ hab hba ↦ absurd hab (Nat.lt_asymm hba)) hagg.sorted (by decide)

end Ssv.Validation.Reference
