import SsvNode.Lib.Codec
import SsvNode.Qbft.SsvSpec

/-!
# A reference implementation of `ssv-spec`

A small executable `ssv-spec` that satisfies the laws of `SsvSpec`. Messages are written with
`Codec`, a signature names its operator and what was signed, a container is a list. The hash reads
bytes as digits, and is injective on values of up to 31 bytes.
-/

namespace Ssv.Reference

/-! ### Encoding -/

def MessageType.code : MessageType → ℕ
  | .proposal => 0
  | .prepare => 1
  | .commit => 2
  | .roundChange => 3
  | .other c => c + 4

def MessageType.ofCode : ℕ → MessageType
  | 0 => .proposal
  | 1 => .prepare
  | 2 => .commit
  | 3 => .roundChange
  | c + 4 => .other c

def MsgType.code : MsgType → ℕ
  | .ssvConsensusMsgType => 0
  | .ssvPartialSignatureMsgType => 1
  | .other c => c + 2

def MsgType.ofCode : ℕ → MsgType
  | 0 => .ssvConsensusMsgType
  | 1 => .ssvPartialSignatureMsgType
  | c + 2 => .other c

def bytesCodec : Codec Bytes := .list .byte

def rootCodec : Codec Root := Codec.nat.via (BitVec.ofNat 256) BitVec.toNat (by simp)

def messageTypeCodec : Codec MessageType :=
  Codec.nat.via MessageType.ofCode MessageType.code fun t ↦ by cases t <;> rfl

def msgTypeCodec : Codec MsgType :=
  Codec.nat.via MsgType.ofCode MsgType.code fun t ↦ by cases t <;> rfl

def messageCodec : Codec Message :=
  (messageTypeCodec.pair <| Codec.nat.pair <| Codec.nat.pair <| bytesCodec.pair <| rootCodec.pair <|
    Codec.nat.pair <| bytesCodec.list.pair bytesCodec.list).via
    (fun ⟨t, h, r, i, root, d, rcs, ps⟩ ↦ ⟨t, h, r, i, root, d, rcs, ps⟩)
    (fun ⟨t, h, r, i, root, d, rcs, ps⟩ ↦ ⟨t, h, r, i, root, d, rcs, ps⟩) fun _ ↦ rfl

def ssvMessageCodec : Codec SSVMessage :=
  (msgTypeCodec.pair <| bytesCodec.pair bytesCodec).via (fun ⟨t, i, d⟩ ↦ ⟨t, i, d⟩)
    (fun ⟨t, i, d⟩ ↦ ⟨t, i, d⟩) fun _ ↦ rfl

def signedMessageCodec : Codec SignedSSVMessage :=
  (bytesCodec.list.pair <| Codec.nat.list.pair <| ssvMessageCodec.pair bytesCodec.option).via
    (fun ⟨s, o, m, f⟩ ↦ ⟨s, o, m, f⟩) (fun ⟨s, o, m, f⟩ ↦ ⟨s, o, m, f⟩) fun _ ↦ rfl

/-! ### Hashing and signing -/

/-- The bytes as digits in base 257, so that leading zeros count. -/
def sum256 (bytes : Bytes) : Root :=
  BitVec.ofNat 256 (bytes.foldl (fun acc b ↦ acc * 257 + b.toNat + 1) 0)

/-- The signature of an operator: its name and what it signed. -/
def signature (op : OperatorID) (msg : SSVMessage) : Bytes :=
  Codec.nat.write op ++ ssvMessageCodec.write msg

/-- Every signer is an operator and its signature is its own. -/
def verify (sm : SignedSSVMessage) (ops : List Operator) : Except Err Unit :=
  if sm.signatures = sm.operatorIDs.map (signature · sm.ssvMessage) ∧
      ∀ id ∈ sm.operatorIDs, id ∈ ops.map (·.operatorID) then .ok ()
  else .error { text := "invalid signature" }

/-! ### Messages -/

def newProcessingMessage (sm : SignedSSVMessage) : Except Err ProcessingMessage :=
  match messageCodec.readAll sm.ssvMessage.data with
  | some m => .ok ⟨sm, m⟩
  | none => .error { text := "could not decode message" }

/-- Signers are there, are distinct and have one signature each. -/
def validate (pm : ProcessingMessage) : Except Err Unit :=
  if pm.signedMessage.operatorIDs ≠ [] ∧ pm.signedMessage.operatorIDs.Nodup ∧
      pm.signedMessage.signatures.length = pm.signedMessage.operatorIDs.length then .ok ()
  else .error { text := "invalid signed message" }

def unmarshalJustifications (data : List Bytes) : Except Err (List SignedSSVMessage) :=
  data.mapM fun bytes ↦
    match signedMessageCodec.readAll bytes with
    | some sm => .ok sm
    | none => .error { text := "could not unmarshal justification" }

def aggregate (sm sm' : SignedSSVMessage) : Except Err SignedSSVMessage :=
  if sm.ssvMessage = sm'.ssvMessage ∧ (sm.operatorIDs ++ sm'.operatorIDs).Nodup then
    .ok { sm with
      operatorIDs := sm.operatorIDs ++ sm'.operatorIDs
      signatures := sm.signatures ++ sm'.signatures }
  else .error { text := "could not aggregate signed messages" }

/-! ### Containers -/

/-- The messages in the order they were added. -/
abbrev Container : Type := List ProcessingMessage

def messagesForRound (c : Container) (r : ℕ) : List ProcessingMessage :=
  c.filter fun m ↦ decide (m.qbftMessage.round = r)

theorem mem_messagesForRound {c : Container} {r : ℕ} {m : ProcessingMessage} :
    m ∈ messagesForRound c r ↔ m ∈ c ∧ m.qbftMessage.round = r := by
  simp [messagesForRound]

/-- Add a message unless its signers have one for the round. -/
def addFirstMsgForSignerAndRound (c : Container) (m : ProcessingMessage) :
    Except Err (Bool × Container) :=
  if (messagesForRound c m.qbftMessage.round).any fun x ↦
      decide (x.signedMessage.operatorIDs = m.signedMessage.operatorIDs) then .ok (false, c)
  else .ok (true, c ++ [m])

theorem mem_messagesForRound_append {c : Container} {m x : ProcessingMessage} {r : ℕ} :
    x ∈ messagesForRound (c ++ [m]) r ↔
      x ∈ messagesForRound c r ∨ (x = m ∧ r = m.qbftMessage.round) := by
  simp only [mem_messagesForRound, List.mem_append, List.mem_singleton]
  constructor
  · rintro ⟨hx | rfl, hr⟩
    · exact .inl ⟨hx, hr⟩
    · exact .inr ⟨rfl, hr.symm⟩
  · rintro (⟨hx, hr⟩ | ⟨rfl, rfl⟩)
    · exact ⟨.inl hx, hr⟩
    · exact ⟨.inr rfl, rfl⟩

/-- Take a message whose signers are all new. -/
def takeDisjoint (acc : List OperatorID × List ProcessingMessage) (m : ProcessingMessage) :
    List OperatorID × List ProcessingMessage :=
  if (acc.1 ++ m.signedMessage.operatorIDs).Nodup then
    (acc.1 ++ m.signedMessage.operatorIDs, acc.2 ++ [m])
  else acc

def longestUniqueSignersForRoundAndRoot (c : Container) (r : ℕ) (root : Root) :
    List OperatorID × List ProcessingMessage :=
  ((messagesForRound c r).filter fun m ↦ decide (m.qbftMessage.root = root)).foldl takeDisjoint
    ([], [])

theorem foldl_takeDisjoint (l : List ProcessingMessage)
    {acc : List OperatorID × List ProcessingMessage} (hacc : acc.1.Nodup) :
    (l.foldl takeDisjoint acc).1.Nodup ∧ ∀ id ∈ (l.foldl takeDisjoint acc).1,
      id ∈ acc.1 ∨ ∃ m ∈ l, id ∈ m.signedMessage.operatorIDs := by
  induction l generalizing acc with
  | nil => exact ⟨hacc, fun id hid ↦ .inl hid⟩
  | cons m l ih =>
    have hstep : takeDisjoint acc m = if (acc.1 ++ m.signedMessage.operatorIDs).Nodup then
      (acc.1 ++ m.signedMessage.operatorIDs, acc.2 ++ [m]) else acc := rfl
    rw [List.foldl_cons, hstep]
    split
    · rename_i hm
      have hm : (acc.1 ++ m.signedMessage.operatorIDs, acc.2 ++ [m]).1.Nodup := hm
      obtain ⟨hnd, hids⟩ := ih hm
      refine ⟨hnd, fun id hid ↦ ?_⟩
      rcases hids id hid with hid | ⟨x, hx, hid⟩
      · rcases List.mem_append.1 hid with hid | hid
        · exact .inl hid
        · exact .inr ⟨m, by simp, hid⟩
      · exact .inr ⟨x, by simp [hx], hid⟩
    · obtain ⟨hnd, hids⟩ := ih hacc
      refine ⟨hnd, fun id hid ↦ (hids id hid).imp_right fun ⟨x, hx, hid⟩ ↦ ⟨x, by simp [hx], hid⟩⟩

/-! ### The implementation -/

@[reducible]
def spec : SsvSpec where
  sum256 := sum256
  encode m := .ok (messageCodec.write m)
  newProcessingMessage := newProcessingMessage
  validate := validate
  getRoundChangeJustifications m := unmarshalJustifications m.roundChangeJustification
  getPrepareJustifications m := unmarshalJustifications m.prepareJustification
  marshalJustifications sms := .ok (sms.map signedMessageCodec.write)
  roundChangePrepared m := decide (m.msgType = .roundChange ∧ m.dataRound ≠ noRound)
  checkSignersInCommittee sm ops := decide (∀ id ∈ sm.operatorIDs, id ∈ ops.map (·.operatorID))
  matchedSigners sm ids := decide (sm.operatorIDs = ids)
  verify := verify
  aggregate := aggregate
  getQuorum cm := 2 * cm.faultyNodes + 1
  memberHasQuorum cm n := decide (2 * cm.faultyNodes + 1 ≤ n)
  hasQuorum cm msgs := decide (2 * cm.faultyNodes + 1 ≤ (uniqueSigners msgs).card)
  hasPartialQuorum cm msgs := decide (cm.faultyNodes + 1 ≤ (uniqueSigners msgs).card)
  MsgContainer := Container
  newMsgContainer := []
  addFirstMsgForSignerAndRound := addFirstMsgForSignerAndRound
  addMsg c m := .ok (c ++ [m])
  messagesForRound := messagesForRound
  allMessages c := c
  longestUniqueSignersForRoundAndRoot := longestUniqueSignersForRoundAndRoot
  signedMessage_of_newProcessingMessage {sm pm} h := by
    unfold newProcessingMessage at h
    split at h
    · cases h
      rfl
    · simp at h
  newProcessingMessage_of_encode {m sm} h := by
    have hdata : messageCodec.write m = sm.ssvMessage.data := Except.ok.inj h
    simp [newProcessingMessage, ← hdata, Codec.readAll_write]
  nodup_of_validate {pm} h := by
    unfold validate at h
    split at h
    · rename_i hv
      exact hv.2.1
    · simp at h
  roundChangePrepared_iff ht := by simp [ht]
  checkSignersInCommittee_iff := decide_eq_true_iff
  getQuorum_eq := rfl
  memberHasQuorum_iff := decide_eq_true_iff
  hasQuorum_iff := decide_eq_true_iff
  hasPartialQuorum_iff := decide_eq_true_iff
  messagesForRound_new := rfl
  round_of_mem_messagesForRound h := (mem_messagesForRound.1 h).2
  mem_allMessages {c m} := by simp [mem_messagesForRound]
  addFirst_notAdded {c c' m} h := by
    unfold addFirstMsgForSignerAndRound at h
    split at h
    · simpa using h.symm
    · simp at h
  addFirst_added {c c' m} h := by
    unfold addFirstMsgForSignerAndRound at h
    split at h
    · simp at h
    · obtain rfl : c ++ [m] = c' := by simpa using h
      exact mem_messagesForRound_append
  addMsg_added {c c' m} h := by
    obtain rfl : c ++ [m] = c' := Except.ok.inj h
    exact mem_messagesForRound_append
  nodup_longestUniqueSigners := (foldl_takeDisjoint _ List.nodup_nil).1
  mem_longestUniqueSigners {c r root id} hid := by
    rcases (foldl_takeDisjoint _ List.nodup_nil).2 id hid with hnil | ⟨m, hm, hid⟩
    · simp at hnil
    · obtain ⟨hmem, hroot⟩ := List.mem_filter.1 hm
      exact ⟨m, hmem, of_decide_eq_true hroot, hid⟩

end Ssv.Reference
