import SsvNode.Qbft.ReferenceSpec
import SsvNode.Validation.Validator

/-!
# A reference implementation of what validation calls

A message ID is a domain of four bytes, a role of four and an executor, messages are written with
`Codec`, and the signature of an operator is its number, repeated. The committee of the reference
network has four operators and one validator.
-/

namespace Ssv.Validation.Reference

open Ssv.Reference

/-! ### Encoding -/

def PartialSigMsgType.code : PartialSigMsgType → ℕ
  | .postConsensus => 0
  | .randao => 1
  | .selectionProof => 2
  | .contributionProofs => 3
  | .validatorRegistration => 4
  | .voluntaryExit => 5
  | .aggregatorCommittee => 6
  | .ptcAttester => 7
  | .proposerPreferences => 8
  | .requestAuth => 9
  | .other c => c + 10

def PartialSigMsgType.ofCode : ℕ → PartialSigMsgType
  | 0 => .postConsensus
  | 1 => .randao
  | 2 => .selectionProof
  | 3 => .contributionProofs
  | 4 => .validatorRegistration
  | 5 => .voluntaryExit
  | 6 => .aggregatorCommittee
  | 7 => .ptcAttester
  | 8 => .proposerPreferences
  | 9 => .requestAuth
  | c + 10 => .other c

def partialSigMsgTypeCodec : Codec PartialSigMsgType :=
  Codec.nat.via PartialSigMsgType.ofCode PartialSigMsgType.code fun t ↦ by cases t <;> rfl

def partialSignatureMessageCodec : Codec PartialSignatureMessage :=
  (bytesCodec.pair <| rootCodec.pair <| Codec.nat.pair Codec.nat).via
    (fun ⟨p, r, s, v⟩ ↦ ⟨p, r, s, v⟩) (fun ⟨p, r, s, v⟩ ↦ ⟨p, r, s, v⟩) fun _ ↦ rfl

def partialSignatureMessagesCodec : Codec PartialSignatureMessages :=
  (partialSigMsgTypeCodec.pair <| Codec.nat.pair partialSignatureMessageCodec.list).via
    (fun ⟨t, s, ms⟩ ↦ ⟨t, s, ms⟩) (fun ⟨t, s, ms⟩ ↦ ⟨t, s, ms⟩) fun _ ↦ rfl

def wireMessageCodec : Codec WireMessage :=
  (bytesCodec.list.pair <| Codec.nat.list.pair <| ssvMessageCodec.option.pair bytesCodec.option).via
    (fun ⟨s, o, m, f⟩ ↦ ⟨s, o, m, f⟩) (fun ⟨s, o, m, f⟩ ↦ ⟨s, o, m, f⟩) fun _ ↦ rfl

/-- The role in the first of its four bytes. -/
def roleOfByte : UInt8 → RunnerRole
  | 0 => .committee
  | 1 => .aggregator
  | 2 => .proposer
  | 3 => .syncCommitteeContribution
  | 4 => .validatorRegistration
  | 5 => .voluntaryExit
  | 6 => .aggregatorCommittee
  | 7 => .ptcAttester
  | 8 => .proposerPreferences
  | c => .unknown c.toNat

def decodeWith {α : Type} (codec : Codec α) (bytes : Bytes) : Except Err α :=
  match codec.readAll bytes with
  | some a => .ok a
  | none => .error (Err.text "could not decode")

def justifications (data : List Bytes) : Except Err ℕ :=
  match unmarshalJustifications data with
  | .ok messages => .ok messages.length
  | .error _ => .error (Err.text "could not unmarshal justification")

instance : ValidationSpec where
  getDomain msgID := msgID.take 4
  getRoleType msgID := roleOfByte (msgID.getD 4 0)
  getDutyExecutorID msgID := msgID.drop 8
  decodeSignedSSVMessage := decodeWith wireMessageCodec
  decodeMessage := decodeWith messageCodec
  decodePartialSignatureMessages := decodeWith partialSignatureMessagesCodec
  hashFullData bytes := .ok (sum256 bytes)
  prepareJustifications msg := justifications msg.prepareJustification
  roundChangeJustifications msg := justifications msg.roundChangeJustification

/-! ### A network with one committee -/

/-- The parameters of mainnet, before the forks. -/
def network : Network where
  name := "mainnet"
  slotDuration := 12 * second
  slotsPerEpoch := 32
  epochsPerSyncCommitteePeriod := 256
  syncCommitteeSize := 512
  genesisTime := 0
  gloasForkEpoch := none
  booleForkEpoch := 1000000
  domainType := [0, 0, 0, 1]
  nextDomainType := [0, 0, 0, 2]

/-- The message ID of the committee in the role of attester. -/
def committeeMsgID : Bytes := [0, 0, 0, 1] ++ [0, 0, 0, 0] ++ List.replicate 48 0

def rsaSignature (op : OperatorID) : Bytes := List.replicate rsaSignatureSize (UInt8.ofNat op)

/-- What a message meets that comes from a peer at a time. -/
def receipt (receivedFrom : PeerID) (receivedAt : Int) : Receipt where
  topic := "ssv.v2.5"
  receivedFrom := receivedFrom
  receivedAt := receivedAt
  now := receivedAt
  ctxErr _ := none
  operatorsExist op := .ok (decide (op ≤ 4))
  validator _ := none
  committee id :=
    if id = List.replicate 32 0 then
      some { operators := [1, 2, 3, 4], indices := [17]
             booleCommitteeSubnet := 5, alanCommitteeSubnet := 5 }
    else none
  proposerIsEpochSet _ := false
  proposerIsEpochStale _ := false
  proposerDuty _ _ _ := false
  syncCommitteeDuty _ _ := false
  ptcIsEpochSet _ := false
  ptcDuty _ _ _ := false
  voluntaryExitDutyCount _ _ := 0
  verifySignature op _ signature :=
    if signature = rsaSignature op then .ok ()
    else .error (Err.text "crypto/rsa: verification error")

def wireMessage (msgType : MsgType) (op : OperatorID) (data signature : Bytes) : WireMessage where
  signatures := [signature]
  operatorIDs := [op]
  ssvMessage := some { msgType := msgType, msgID := committeeMsgID, data := data }
  fullData := none

def postConsensus (op : OperatorID) (slot : ℕ) (signature : Bytes) : WireMessage :=
  wireMessage .ssvPartialSignatureMsgType op
    (partialSignatureMessagesCodec.write
      { type := .postConsensus, slot := slot
        messages := [{ partialSignature := [1], signingRoot := 0, signer := op
                       validatorIndex := 17 }] })
    signature

def consensus (msgType : MessageType) (op : OperatorID) (round : ℕ) : WireMessage :=
  wireMessage .ssvConsensusMsgType op
    (messageCodec.write
      { msgType := msgType, height := 0, round := round, identifier := committeeMsgID, root := 0
        dataRound := 0, roundChangeJustification := [], prepareJustification := [] })
    (rsaSignature op)

end Ssv.Validation.Reference
