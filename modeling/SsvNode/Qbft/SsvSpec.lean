import SsvNode.Spec.Messages

/-!
# The functions of `ssv-spec` the QBFT code calls

`ssv-spec` is a dependency. `SsvSpec` has one field per function the QBFT code calls, followed by
the documented properties the proofs rely on. `Sha256` is a parameter too: agreement assumes that it
is injective. An `Add…` call that returns an error leaves the container as it was.
-/

namespace Ssv

/-- `crypto/sha256`. -/
class Sha256 where
  sum256 : Bytes → Root

def hashDataRoot [Sha256] (data : Data) : Root := Sha256.sum256 data.bytes

def uniqueSigners (msgs : List ProcessingMessage) : Finset OperatorID :=
  (msgs.flatMap (·.signedMessage.operatorIDs)).toFinset

theorem mem_uniqueSigners {msgs : List ProcessingMessage} {id : OperatorID} :
    id ∈ uniqueSigners msgs ↔ ∃ m ∈ msgs, id ∈ m.signedMessage.operatorIDs := by
  simp [uniqueSigners]

/-- The part of `ssv-spec` used by the QBFT code, and the hash. -/
class SsvSpec extends Sha256 where
  encode : Message → Except Err Bytes
  /-- `specqbft.NewProcessingMessage`: decode the body of a signed message. -/
  newProcessingMessage : SignedSSVMessage → Except Err ProcessingMessage
  validate : ProcessingMessage → Except Err Unit
  getRoundChangeJustifications : Message → Except Err (List SignedSSVMessage)
  getPrepareJustifications : Message → Except Err (List SignedSSVMessage)
  marshalJustifications : List SignedSSVMessage → Except Err (List Bytes)
  roundChangePrepared : Message → Bool
  checkSignersInCommittee : SignedSSVMessage → List Operator → Bool
  matchedSigners : SignedSSVMessage → List OperatorID → Bool
  verify : SignedSSVMessage → List Operator → Except Err Unit
  aggregate : SignedSSVMessage → SignedSSVMessage → Except Err SignedSSVMessage
  getQuorum : CommitteeMember → ℕ
  memberHasQuorum : CommitteeMember → ℕ → Bool
  hasQuorum : CommitteeMember → List ProcessingMessage → Bool
  hasPartialQuorum : CommitteeMember → List ProcessingMessage → Bool
  MsgContainer : Type
  newMsgContainer : MsgContainer
  /-- `MsgContainer.AddFirstMsgForSignerAndRound`, with whether the message was added. -/
  addFirstMsgForSignerAndRound : MsgContainer → ProcessingMessage → Except Err (Bool × MsgContainer)
  addMsg : MsgContainer → ProcessingMessage → Except Err MsgContainer
  messagesForRound : MsgContainer → ℕ → List ProcessingMessage
  allMessages : MsgContainer → List ProcessingMessage
  longestUniqueSignersForRoundAndRoot :
    MsgContainer → ℕ → Root → List OperatorID × List ProcessingMessage
  /-- Decoding keeps the signed message. -/
  signedMessage_of_newProcessingMessage {sm : SignedSSVMessage} {pm : ProcessingMessage} :
    newProcessingMessage sm = .ok pm → pm.signedMessage = sm
  /-- Decoding inverts encoding. -/
  newProcessingMessage_of_encode {m : Message} {sm : SignedSSVMessage} :
    encode m = .ok sm.ssvMessage.data → newProcessingMessage sm = .ok ⟨sm, m⟩
  /-- A validated message has no repeated signer. -/
  nodup_of_validate {pm : ProcessingMessage} : validate pm = .ok () →
  pm.signedMessage.operatorIDs.Nodup
  /-- A round change is prepared when it names a prepared round. -/
  roundChangePrepared_iff {m : Message} :
    m.msgType = .roundChange → (roundChangePrepared m = true ↔ m.dataRound ≠ noRound)
  /-- Every signer is a committee member. -/
  checkSignersInCommittee_iff {sm : SignedSSVMessage} {ops : List Operator} :
    checkSignersInCommittee sm ops = true ↔ ∀ id ∈ sm.operatorIDs, id ∈ ops.map (·.operatorID)
  /-- A quorum is `2f + 1` signers. -/
  getQuorum_eq {cm : CommitteeMember} : getQuorum cm = 2 * cm.faultyNodes + 1
  memberHasQuorum_iff {cm : CommitteeMember} {n : ℕ} :
    memberHasQuorum cm n = true ↔ 2 * cm.faultyNodes + 1 ≤ n
  /-- A quorum of messages is one of `2f + 1` distinct signers. -/
  hasQuorum_iff {cm : CommitteeMember} {msgs : List ProcessingMessage} :
    hasQuorum cm msgs = true ↔ 2 * cm.faultyNodes + 1 ≤ (uniqueSigners msgs).card
  /-- A partial quorum of messages is one of `f + 1` distinct signers. -/
  hasPartialQuorum_iff {cm : CommitteeMember} {msgs : List ProcessingMessage} :
    hasPartialQuorum cm msgs = true ↔ cm.faultyNodes + 1 ≤ (uniqueSigners msgs).card
  messagesForRound_new {r : ℕ} : messagesForRound newMsgContainer r = []
  /-- Messages are filed under their own round. -/
  round_of_mem_messagesForRound {c : MsgContainer} {r : ℕ} {m : ProcessingMessage} :
    m ∈ messagesForRound c r → m.qbftMessage.round = r
  /-- The messages of all rounds are the messages of each round. -/
  mem_allMessages {c : MsgContainer} {m : ProcessingMessage} :
    m ∈ allMessages c ↔ ∃ r, m ∈ messagesForRound c r
  /-- A message that was not added changed nothing. -/
  addFirst_notAdded {c c' : MsgContainer} {m : ProcessingMessage} :
    addFirstMsgForSignerAndRound c m = .ok (false, c') → c' = c
  /-- A message that was added is stored under its own round. -/
  addFirst_added {c c' : MsgContainer} {m : ProcessingMessage} :
    addFirstMsgForSignerAndRound c m = .ok (true, c') → ∀ {r : ℕ} {x : ProcessingMessage},
      x ∈ messagesForRound c' r ↔ x ∈ messagesForRound c r ∨ (x = m ∧ r = m.qbftMessage.round)
  /-- `AddMsg` stores its message under its own round. -/
  addMsg_added {c c' : MsgContainer} {m : ProcessingMessage} :
    addMsg c m = .ok c' → ∀ {r : ℕ} {x : ProcessingMessage},
      x ∈ messagesForRound c' r ↔ x ∈ messagesForRound c r ∨ (x = m ∧ r = m.qbftMessage.round)
  /-- The longest set of signers for a round and root has no repetition. -/
  nodup_longestUniqueSigners {c : MsgContainer} {r : ℕ} {root : Root} :
    (longestUniqueSignersForRoundAndRoot c r root).1.Nodup
  /-- Each of those signers signed a stored message of that round and root. -/
  mem_longestUniqueSigners {c : MsgContainer} {r : ℕ} {root : Root} {id : OperatorID} :
    id ∈ (longestUniqueSignersForRoundAndRoot c r root).1 →
      ∃ m ∈ messagesForRound c r, m.qbftMessage.root = root ∧ id ∈ m.signedMessage.operatorIDs

end Ssv
