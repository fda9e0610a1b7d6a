import SsvNode.Qbft.Lock

/-!
# What a peer makes of an embedded message

`MarshalJustifications` keeps what was signed and by whom, but not the value attached to a message;
`PeerSpec` says so, and what `Validate` and `Verify` look at. A **peer** is an instance of the same
height and committee. The checks read nothing else, so what one accepts its peers accept, also
embedded (`ValidRoundChange.embedded`, `RoundChangesJustify.embedded`).
-/

namespace Ssv

open SsvSpec Checks List

/-- The same signed message; the attached value may differ. -/
structure SignedSSVMessage.Same (sm sm' : SignedSSVMessage) : Prop where
  signatures : sm'.signatures = sm.signatures
  operatorIDs : sm'.operatorIDs = sm.operatorIDs
  ssvMessage : sm'.ssvMessage = sm.ssvMessage

/-- What `ssv-spec` does to embedded messages, and what it checks of a message. -/
class PeerSpec extends SsvSpec where
  /-- A signed message after `MarshalJustifications` and back. -/
  embedded : SignedSSVMessage → SignedSSVMessage
  /-- Embedding keeps what was signed. -/
  same_embedded {sm : SignedSSVMessage} : sm.Same (embedded sm)
  /-- Reading back what was marshalled as round-change justification. -/
  getRoundChangeJustifications_marshal {m : Message} {sms : List SignedSSVMessage} :
    marshalJustifications sms = .ok m.roundChangeJustification →
      getRoundChangeJustifications m = .ok (sms.map embedded)
  /-- Reading back what was marshalled as prepare justification. -/
  getPrepareJustifications_marshal {m : Message} {sms : List SignedSSVMessage} :
    marshalJustifications sms = .ok m.prepareJustification →
      getPrepareJustifications m = .ok (sms.map embedded)
  /-- No justification is read as none. -/
  getPrepareJustifications_nil {m : Message} :
    m.prepareJustification = [] → getPrepareJustifications m = .ok []
  /-- Decoding reads what was signed. -/
  newProcessingMessage_of_same {sm sm' : SignedSSVMessage} {pm : ProcessingMessage} :
    sm.Same sm' → newProcessingMessage sm = .ok pm →
      newProcessingMessage sm' = .ok ⟨sm', pm.qbftMessage⟩
  /-- `Validate` does not look at the attached value. -/
  validate_of_same {sm sm' : SignedSSVMessage} {m : Message} :
    sm.Same sm' → validate ⟨sm, m⟩ = .ok () → validate ⟨sm', m⟩ = .ok ()
  /-- Signatures are of the message, not of the attached value. -/
  verify_of_same {sm sm' : SignedSSVMessage} {ops : List Operator} :
    sm.Same sm' → verify sm ops = .ok () → verify sm' ops = .ok ()
  /-- `Validate` accepts a proposal or round change with one signer and signature, and readable
  justifications. -/
  validate_of_signed {sm : SignedSSVMessage} {m : Message} {op : OperatorID} {sig : Bytes}
    {rcs prepares : List SignedSSVMessage} :
    sm.operatorIDs = [op] → op ≠ 0 → sm.signatures = [sig] → sig ≠ [] → m.identifier ≠ [] →
      (m.msgType = .proposal ∨ m.msgType = .roundChange) →
      getRoundChangeJustifications m = .ok rcs → getPrepareJustifications m = .ok prepares →
      validate ⟨sm, m⟩ = .ok ()
  /-- A message matches its own signer. -/
  matchedSigners_self {sm : SignedSSVMessage} {op : OperatorID} :
    sm.operatorIDs = [op] → matchedSigners sm [op] = true

open PeerSpec

variable [PeerSpec]

/-- A decoded message after embedding. -/
def ProcessingMessage.embedded (pm : ProcessingMessage) : ProcessingMessage :=
  ⟨PeerSpec.embedded pm.signedMessage, pm.qbftMessage⟩

/-- Scopes of instances of one height and committee. -/
structure Scope.Peer (s s' : Scope) : Prop where
  height : s'.height = s.height
  committee : s'.committeeMember.committee = s.committeeMember.committee
  faultyNodes : s'.committeeMember.faultyNodes = s.committeeMember.faultyNodes

namespace Instance

variable {s s' : Scope} {pm rc : ProcessingMessage} {pms rcs prepares : List ProcessingMessage}

theorem processingMessages_embedded {context : String}
    (h : ∀ pm ∈ pms, newProcessingMessage pm.signedMessage = .ok pm) :
    processingMessages context ((pms.map (·.signedMessage)).map PeerSpec.embedded) =
      .ok (pms.map ProcessingMessage.embedded) := by
  rw [map_map]
  refine mapM_map_eq_ok fun pm hpm ↦ ?_
  rw [mapError_eq_ok]
  exact newProcessingMessage_of_same same_embedded (h pm hpm)

theorem uniqueSigners_embedded :
    uniqueSigners (pms.map ProcessingMessage.embedded) = uniqueSigners pms := by
  ext id
  simp only [mem_uniqueSigners, mem_map, exists_exists_and_eq_and]
  refine exists_congr fun pm ↦ and_congr_right fun _ ↦ ?_
  rw [ProcessingMessage.embedded, same_embedded.operatorIDs]

theorem hasQuorum_peer {cm cm' : CommitteeMember} (h : cm'.faultyNodes = cm.faultyNodes)
    (hsigners : uniqueSigners prepares = uniqueSigners pms) (hq : hasQuorum cm pms = true) :
    hasQuorum cm' prepares = true := by
  rw [hasQuorum_iff] at hq ⊢
  rwa [h, hsigners]

variable {sm' : SignedSSVMessage} {digest : Root} {r : ℕ}

theorem SoleSigner.peer {sm : SignedSSVMessage} (hpeer : s.Peer s') (hsame : sm.Same sm')
    (h : SoleSigner s.committeeMember sm) : SoleSigner s'.committeeMember sm' := by
  refine ⟨by rw [hsame.operatorIDs]; exact h.1, checkSignersInCommittee_iff.2 ?_⟩
  rw [hsame.operatorIDs, hpeer.committee]
  exact checkSignersInCommittee_iff.1 h.2

/-! ### Prepares -/

theorem ValidPrepare.peer (hpeer : s.Peer s') (hsame : pm.signedMessage.Same sm')
    (h : ValidPrepare s pm r digest) : ValidPrepare s' ⟨sm', pm.qbftMessage⟩ r digest where
  msgType := h.msgType
  height := h.height.trans hpeer.height.symm
  round := h.round
  validated := validate_of_same hsame h.validated
  root := h.root
  signer := SoleSigner.peer hpeer hsame h.signer

theorem PrepareQuorum.peer (hpeer : s.Peer s')
    (h : PrepareQuorum s pms r digest) : PrepareQuorum s' pms r digest where
  valid pm hpm := (h.valid pm hpm).peer hpeer ⟨rfl, rfl, rfl⟩
  verified pm hpm := hpeer.committee ▸ h.verified pm hpm
  quorum := hasQuorum_peer hpeer.faultyNodes rfl h.quorum

theorem PrepareQuorum.embedded (hpeer : s.Peer s') (h : PrepareQuorum s pms r digest) :
    PrepareQuorum s' (pms.map ProcessingMessage.embedded) r digest := by
  refine ⟨fun pm hpm ↦ ?_, fun pm hpm ↦ ?_, ?_⟩
  · obtain ⟨x, hx, rfl⟩ := mem_map.1 hpm
    exact (h.valid x hx).peer hpeer same_embedded
  · obtain ⟨x, hx, rfl⟩ := mem_map.1 hpm
    rw [hpeer.committee]
    exact verify_of_same same_embedded (h.verified x hx)
  · exact hasQuorum_peer hpeer.faultyNodes uniqueSigners_embedded h.quorum

/-! ### Round changes -/

/-- What an instance accepts as a round change, its peers accept, embedded or not. -/
theorem ValidRoundChange.peer {fullData : Data} (hpeer : s.Peer s')
    (hsame : rc.signedMessage.Same sm') (h : ValidRoundChange s rc r fullData) :
    ValidRoundChange s' ⟨sm', rc.qbftMessage⟩ r fullData where
  msgType := h.msgType
  height := h.height.trans hpeer.height.symm
  round := h.round
  validated := validate_of_same hsame h.validated
  signer := SoleSigner.peer hpeer hsame h.signer
  prepared hp := by
    obtain ⟨⟨pms, hpms, hquorum⟩, hrest⟩ := h.prepared hp
    exact ⟨⟨pms, hpms, hquorum.peer hpeer⟩, hrest⟩

theorem highestPrepared_embedded :
    highestPrepared (rcs.map ProcessingMessage.embedded) =
      (highestPrepared rcs).map ProcessingMessage.embedded :=
  firstMax_map (fun _ ↦ rfl) fun _ ↦ rfl

theorem RoundChangesJustify.embedded {fullData : Data} (hpeer : s.Peer s')
    (h : RoundChangesJustify s rcs prepares r fullData) :
    RoundChangesJustify s' (rcs.map ProcessingMessage.embedded)
      (prepares.map ProcessingMessage.embedded) r fullData := by
  refine ⟨fun rc hrc ↦ ?_, fun rc hrc ↦ ?_, ?_, fun best hbest ↦ ?_⟩
  · obtain ⟨x, hx, rfl⟩ := mem_map.1 hrc
    exact (h.valid x hx).peer hpeer same_embedded
  · obtain ⟨x, hx, rfl⟩ := mem_map.1 hrc
    rw [hpeer.committee]
    exact verify_of_same same_embedded (h.verified x hx)
  · exact hasQuorum_peer hpeer.faultyNodes uniqueSigners_embedded h.quorum
  · rw [highestPrepared_embedded] at hbest
    obtain ⟨x, hx, rfl⟩ := Option.map_eq_some_iff.1 hbest
    obtain ⟨hroot, hquorum⟩ := h.prepared x hx
    exact ⟨hroot, hquorum.embedded hpeer⟩

end Instance

end Ssv
