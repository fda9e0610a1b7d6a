import SsvNode.Validation.Deduplication

/-!
# The traffic of an honest operator

A peer is punished for relaying the same kind of message of a round twice, or other full data in the
round. `Traced` says that **every bit and recorded root of a peer comes from an accepted message of
the round reached** that this peer relayed. `HonestTraffic` is about messages as they come in.
`never_punished` needs one thing more, since the data of a prepared round change is compared but not
recorded.
-/

namespace Ssv.Validation

open ValidationSpec Checks List Option

/-! ### What is recorded for a peer -/

section

variable {rc : Receipt}

theorem peekPeer_updatePeer (s : SignerStateForSlotRound) (p q : PeerID)
    (f : SignerState → SignerState) :
    (s.updatePeer p f).peekPeer q = if q = p then f (s.peekPeer p) else s.peekPeer q := by
  unfold SignerStateForSlotRound.updatePeer SignerStateForSlotRound.peekPeer
  dsimp only
  split <;> rfl

theorem peekPeer_ite_updatePeerAndWorld (p : Prop) [Decidable p] (f : SignerState → SignerState)
    (s : SignerStateForSlotRound) (q : PeerID) :
    (if p then updatePeerAndWorld rc f s else s).peekPeer q =
      if p ∧ q = rc.receivedFrom then f (s.peekPeer rc.receivedFrom) else s.peekPeer q := by
  by_cases hp : p
  · simp only [hp, true_and]
    exact peekPeer_updatePeer s rc.receivedFrom q f
  · simp only [hp, false_and, if_false]

/-- What recording leaves for each peer: the sender gets the bit, and a proposal with data sets the
root. -/
structure RecordsForPeer (rc : Receipt) (record : SeenMsgTypes → Except Err SeenMsgTypes)
    (hashed : Option Root → Option Root) (s s' : SignerStateForSlotRound) : Prop where
  others : ∀ q, q ≠ rc.receivedFrom → s'.peekPeer q = s.peekPeer q
  types : record (s.peekPeer rc.receivedFrom).seenMsgTypes =
    .ok (s'.peekPeer rc.receivedFrom).seenMsgTypes
  hashed : (s'.peekPeer rc.receivedFrom).hashedProposalData =
    hashed (s.peekPeer rc.receivedFrom).hashedProposalData

theorem recordSeenMsgTypes_forPeer {record : SeenMsgTypes → Except Err SeenMsgTypes}
    (h : ∀ c, ∃ c', record c = .ok c') (s : SignerStateForSlotRound) :
    (recordSeenMsgTypes rc record).wp (fun s' _ _ ↦ RecordsForPeer rc record id s s') s := by
  obtain ⟨c, hc⟩ := h (s.peekPeer rc.receivedFrom).seenMsgTypes
  obtain ⟨c', hc'⟩ := h s.world.seenMsgTypes
  simp only [recordSeenMsgTypes, Act.wp_bind, Act.wp_read, Act.wp_lift, hc, hc', Act.wp_update]
  have hpeek : ∀ q, ((s.updatePeer rc.receivedFrom ({ · with seenMsgTypes := c })).updateWorld
      ({ · with seenMsgTypes := c' })).peekPeer q =
      if q = rc.receivedFrom then { s.peekPeer rc.receivedFrom with seenMsgTypes := c }
      else s.peekPeer q :=
    fun q ↦ peekPeer_updatePeer s rc.receivedFrom q ({ · with seenMsgTypes := c })
  refine ⟨fun q hq ↦ ?_, ?_, ?_⟩
  · rw [hpeek, if_neg hq]
  · rw [hpeek, if_pos rfl, hc]
  · rw [hpeek, if_pos rfl]
    rfl

theorem processSignerState_forPeer {signed : SignedSSVMessage} {msg : Message}
    (h : validConsensusMsgType msg.msgType = true) (s : SignerStateForSlotRound) :
    (processSignerState rc signed msg).wp (fun s' _ _ ↦
      RecordsForPeer rc (·.recordConsensusMessage signed.operatorIDs.length msg.msgType)
        (fun old ↦
          if signed.fullData.bytes ≠ [] ∧ msg.msgType = .proposal then some msg.root else old)
        s s') s := by
  simp only [processSignerState, Act.wp_bind, Act.wp_update]
  refine Act.wp_mono (recordSeenMsgTypes_forPeer (fun c ↦ recordConsensusMessage_ok h) _) ?_
  rintro s' _ _ ⟨hothers, htypes, hhashed⟩
  refine ⟨fun q hq ↦ ?_, ?_, hhashed.trans ?_⟩
  · rw [hothers q hq, peekPeer_ite_updatePeerAndWorld, if_neg fun h ↦ hq h.2,
      peekPeer_ite_updatePeerAndWorld, if_neg fun h ↦ hq h.2]
  · rw [← htypes, peekPeer_ite_updatePeerAndWorld, peekPeer_ite_updatePeerAndWorld]
    split <;> split <;> rfl
  · show (SignerState.hashedProposalData _) = _
    rw [peekPeer_ite_updatePeerAndWorld, peekPeer_ite_updatePeerAndWorld]
    simp only [and_true]
    split <;> split <;> rfl

theorem peekPeer_recordRoots (s : SignerStateForSlotRound) (m : PartialSignatureMessages)
    (q : PeerID) : (s.recordRoots m).peekPeer q = s.peekPeer q := by
  unfold SignerStateForSlotRound.recordRoots
  cases m.type <;> rfl

theorem processPartialSignerState_forPeer {m : PartialSignatureMessages}
    (h : validPartialSigMsgType m.type = true) (s : SignerStateForSlotRound) :
    (processPartialSignerState rc m).wp (fun s' _ _ ↦
      RecordsForPeer rc (·.recordPartialSignatureMessage m) id s s') s := by
  obtain ⟨idx, -, hidx⟩ := recordPartialSignatureMessage_ok h
  refine Act.wp_seq (recordSeenMsgTypes_forPeer (fun c ↦ ⟨_, hidx c⟩) s) (fun _ _ _ h ↦ h) ?_
  rintro s' _ _ ⟨hothers, htypes, hhashed⟩
  refine Act.wp_update.2 ⟨fun q hq ↦ ?_, ?_, ?_⟩
  · rw [peekPeer_recordRoots, hothers q hq]
  · rw [peekPeer_recordRoots, htypes]
  · rw [peekPeer_recordRoots, hhashed]

end

/-! ### What a peer has relayed -/

/-- An accepted message of the signer alone that came from this peer. -/
def Accepted.CameFrom (a : Accepted) (peer : PeerID) (msg : Message) : Prop :=
  a.receipt.receivedFrom = peer ∧ a.single? = some msg

/-- What is kept for a peer comes from accepted messages of the round reached. -/
structure Traced (log : List Accepted) (s : SignerStateForSlotRound) (peer : PeerID) : Prop where
  types : ∀ msgType idx, consensusLimitIdx 1 msgType = .ok (some idx) →
    (s.peekPeer peer).seenMsgTypes.reached idx = true →
    ∃ a ∈ log, ∃ msg, a.CameFrom peer msg ∧ msg.msgType = msgType ∧ msg.round = s.round
  hashed : ∀ root, (s.peekPeer peer).hashedProposalData = some root →
    ∃ a ∈ log, ∃ msg, a.CameFrom peer msg ∧ msg.msgType = .proposal ∧ msg.round = s.round ∧
      msg.root = root

theorem traced_new (log : List Accepted) (slot round : ℕ) (peer : PeerID) :
    Traced log (.new slot round) peer := by
  refine ⟨fun msgType idx _ hreached ↦ ?_, nofun⟩
  have hfree : ∀ j, SeenMsgTypes.reached 0#8 j = false := by
    intro j
    cases j <;> rfl
  exact absurd (hreached.symm.trans (hfree idx)) nofun

variable {s : SignerStateForSlotRound} {a : Accepted}

/-- **Recording keeps the traces**, if what is new for the sender is the message's own. -/
theorem Traced.record {log : List Accepted} {s' : SignerStateForSlotRound} {peer : PeerID}
    {record : SeenMsgTypes → Except Err SeenMsgTypes}
    {hash : Option Root → Option Root}
    (h : Traced log s peer) (hround : s'.round = s.round)
    (hrecord : RecordsForPeer a.receipt record hash s s')
    (htypes : ∀ msgType idx c c', consensusLimitIdx 1 msgType = .ok (some idx) → record c = .ok c' →
      c'.reached idx = true → c.reached idx = true ∨
        ∃ msg, a.single? = some msg ∧ msg.msgType = msgType ∧ msg.round = s.round)
    (hhash : ∀ old root, hash old = some root → old = some root ∨
      ∃ msg, a.single? = some msg ∧ msg.msgType = .proposal ∧ msg.round = s.round ∧
        msg.root = root) :
    Traced (a :: log) s' peer := by
  by_cases hpeer : peer = a.receipt.receivedFrom
  · subst hpeer
    refine ⟨fun msgType idx hidx hreached ↦ ?_, fun root hroot ↦ ?_⟩
    · rcases htypes msgType idx _ _ hidx hrecord.types hreached with hold | ⟨msg, hsingle, hmsg⟩
      · obtain ⟨b, hb, hfound⟩ := h.types msgType idx hidx hold
        exact ⟨b, .tail _ hb, hround ▸ hfound⟩
      · exact ⟨a, .head _, msg, ⟨rfl, hsingle⟩, hround ▸ hmsg⟩
    · rcases hhash _ root (hrecord.hashed.symm.trans hroot) with hold | ⟨msg, hsingle, hmsg⟩
      · obtain ⟨b, hb, hfound⟩ := h.hashed root hold
        exact ⟨b, .tail _ hb, hround ▸ hfound⟩
      · exact ⟨a, .head _, msg, ⟨rfl, hsingle⟩, hround ▸ hmsg⟩
  · obtain ⟨htypes, hhashed⟩ := h
    rw [← hrecord.others peer hpeer, ← hround] at htypes hhashed
    refine ⟨fun msgType idx hidx hreached ↦ ?_, fun root hroot ↦ ?_⟩
    · obtain ⟨b, hb, hfound⟩ := htypes msgType idx hidx hreached
      exact ⟨b, .tail _ hb, hfound⟩
    · obtain ⟨b, hb, hfound⟩ := hhashed root hroot
      exact ⟨b, .tail _ hb, hfound⟩

variable {idx : SeenIdx}

theorem reached_of_recordPartialSignatureMessage {c c' : SeenMsgTypes}
    {m : PartialSignatureMessages} {msgType : MessageType}
    (h : c.recordPartialSignatureMessage m = .ok c')
    (hidx : consensusLimitIdx 1 msgType = .ok (some idx)) (hreached : c'.reached idx = true) :
    c.reached idx = true := by
  have hne : ∀ j, SeenMsgTypes.partialIdx m.type = .ok (some j) → j ≠ idx := by
    rintro j hj rfl
    cases msgType <;> cases hidx <;> revert hj <;> cases m.type <;> nofun
  unfold SeenMsgTypes.recordPartialSignatureMessage at h
  split at h
  · cases h
  · cases h
    exact hreached
  · next j hj =>
    cases h
    rw [SeenMsgTypes.reached_record] at hreached
    simpa [hne j hj] using hreached

theorem consensusLimitIdx_inj {msgType msgType' : MessageType}
    (h : consensusLimitIdx 1 msgType = .ok (some idx))
    (h' : consensusLimitIdx 1 msgType' = .ok (some idx)) : msgType = msgType' := by
  cases msgType <;> cases h <;> cases msgType' <;> cases h' <;> rfl

theorem reached_of_recordConsensusMessage {c c' : SeenMsgTypes} {signers : ℕ}
    {msgType msgType' : MessageType}
    (h : c.recordConsensusMessage signers msgType = .ok c')
    (hsigners : msgType ≠ .commit → signers = 1)
    (hidx : consensusLimitIdx 1 msgType' = .ok (some idx)) (hreached : c'.reached idx = true) :
    c.reached idx = true ∨ signers = 1 ∧ msgType = msgType' := by
  have hset : ∀ j, consensusLimitIdx 1 msgType = .ok (some j) → (c.record j).reached idx = true →
      c.reached idx = true ∨ msgType = msgType' := by
    intro j hj hrecord
    rw [SeenMsgTypes.reached_record, Bool.or_eq_true, decide_eq_true_eq] at hrecord
    rcases hrecord with rfl | hold
    · exact .inr (consensusLimitIdx_inj hj hidx)
    · exact .inl hold
  cases msgType with
  | other => cases h
  | commit =>
    simp only [SeenMsgTypes.recordConsensusMessage, Except.ok.injEq] at h
    subst h
    split at hreached
    · next hone => exact (hset _ rfl hreached).imp_right fun htype ↦ ⟨hone, htype⟩
    · exact .inl hreached
  | proposal | prepare | roundChange =>
    cases h
    exact (hset _ rfl hreached).imp_right fun htype ↦ ⟨hsigners (by simp), htype⟩

section

variable [ValidationSpec] {net : Network} {seat : Seat} {slot : ℕ} {log : List Accepted}
    {a : Accepted}

/-- Several signers sign a commit only, and a signer alone sends data only with a proposal or a
round change. -/
theorem plan_semantics {rc : Receipt} {message : Option WireMessage} {signed : SignedSSVMessage}
    {ci : CommitteeInfo} {msg : Message}
    (h : plan net rc message = .ok (.consensus signed ci msg)) :
    (msg.msgType ≠ .commit → signed.operatorIDs.length ≤ 1) ∧
    (signed.operatorIDs.length = 1 → signed.fullData.bytes ≠ [] →
      msg.msgType = .proposal ∨ msg.msgType = .roundChange) := by
  have hvalid : validConsensusMsgType msg.msgType = true := plan_valid h
  have hdecode := (plan_cases h).2
  simp only [decodeConsensusMessage, bind_eq_ok, exists_check,
    pure_eq_ok] at hdecode
  obtain ⟨-, msg', -, -, -, hsemantics, rfl⟩ := hdecode
  simp only [validateConsensusMessageSemantics, bind_eq_ok, exists_check,
    require_eq_ok] at hsemantics
  obtain ⟨-, hcommit, -, hfull, -⟩ := hsemantics
  refine ⟨fun hne ↦ Nat.not_lt.1 fun hlt ↦ hcommit ⟨hlt, hne⟩, fun hone hdata ↦ ?_⟩
  rw [validateFullData, if_pos hdata] at hfull
  simp only [bind_eq_ok, exists_check, require_eq_ok] at hfull
  cases hmsg : msg'.msgType with
  | proposal => exact .inl rfl
  | roundChange => exact .inr rfl
  | prepare => exact absurd (.inl hmsg) hfull.1
  | commit => exact absurd (.inr ⟨hmsg, hone⟩) hfull.1
  | other =>
    rw [hmsg] at hvalid
    cases hvalid

/-- **Accepting a message keeps the traces.** A later round starts with none. -/
theorem traced_accept {s : Option SignerStateForSlotRound} {peer : PeerID}
    (h : ∀ s', s = some s' → Traced log s' peer) (ha : (slotRecorder net seat slot).Accepts a s) :
    Traced (a :: log) ((slotRecorder net seat slot).record a s) peer := by
  have hbase : Traced log (s.getD a.plan.fresh) peer := by
    cases s with
    | none =>
      show Traced log a.plan.fresh peer
      cases a.plan <;> exact traced_new log _ _ peer
    | some s => exact h s rfl
  obtain ⟨rc, p⟩ := a
  obtain ⟨⟨message, hmessage⟩, hat, -, hcheck⟩ := ha
  have hvalid := plan_valid hmessage
  cases p with
  | partialSignature signed ci m signer =>
    refine hbase.record (Plan.record_partialSignature rc signed ci signer hvalid.1 _).round
      (processPartialSignerState_forPeer hvalid.1 _) ?_ fun _ _ ↦ .inl
    exact fun _ _ _ _ hidx hrecord ↦ .inl ∘ reached_of_recordPartialSignatureMessage hrecord hidx
  | consensus signed ci msg =>
    obtain ⟨hcommit, -⟩ := plan_semantics hmessage
    have hpos : 0 < signed.operatorIDs.length := length_pos_of_mem hat.2.2
    have hsingle : signed.operatorIDs.length = 1 →
        (⟨rc, .consensus signed ci msg⟩ : Accepted).single? = some msg := fun hone ↦ if_pos hone
    generalize hfrom : s.getD (Plan.consensus signed ci msg).fresh = s₀ at hbase
    have hreset : Traced log (if msg.round > s₀.round then s₀.reset msg.height msg.round else s₀)
        peer := by
      split
      · exact traced_new log _ _ peer
      · exact hbase
    -- A message of its signer alone is recorded in its own round; a decided message may be late.
    have hround : signed.operatorIDs.length = 1 →
        msg.round = (if msg.round > s₀.round then s₀.reset msg.height msg.round else s₀).round := by
      intro hone
      split
      · rfl
      · next hle =>
        refine le_antisymm (Nat.not_lt.1 hle) ?_
        cases s with
        | none =>
          subst hfrom
          exact le_rfl
        | some s =>
          subst hfrom
          exact (single_of_validateSignerQBFTLogic hone (hcheck s rfl)).1
    show Traced _ ((Plan.consensus signed ci msg).record rc (s.getD _)) peer
    rw [hfrom]
    refine hreset.record (Plan.record_consensus rc signed ci hvalid s₀).round
      (processSignerState_forPeer hvalid _) ?_ ?_
    · intro msgType idx c c' hidx hrecord hreached
      refine (reached_of_recordConsensusMessage hrecord
        (fun hne ↦ le_antisymm (hcommit hne) hpos) hidx hreached).imp_right ?_
      rintro ⟨hone, htype⟩
      exact ⟨msg, hsingle hone, htype, hround hone⟩
    · intro old root hhash
      split at hhash
      · next hdata =>
        have hone : signed.operatorIDs.length = 1 :=
          le_antisymm (hcommit (by rw [hdata.2]; nofun)) hpos
        exact .inr ⟨msg, hsingle hone, hdata.2, hround hone, some.inj hhash⟩
      · exact .inl hhash

end

/-! ### Messages as they come in -/

def Err.Rejects (e : Err) : Prop :=
  e.as (fun | .verdict _ reject => some reject | _ => none) = some true

instance (e : Err) : Decidable e.Rejects := inferInstanceAs (Decidable (_ = _))

/-- A message, as validation meets it. -/
structure Delivery where
  receipt : Receipt
  signed : SignedSSVMessage
  ci : CommitteeInfo
  msg : Message

section

variable [ValidationSpec] (net : Network) (seat : Seat) (slot : ℕ)

/-- A consensus message for the slot, signed by the operator alone, as it comes in. -/
def ValidatorEvent.delivery? : ValidatorEvent → Option Delivery
  | .message rc data =>
    match planOf net rc data with
    | .ok (.consensus signed ci msg) =>
      if (Plan.consensus signed ci msg).At seat ∧ msg.height = slot ∧
          signed.operatorIDs.length = 1 ∧ verifySignatures rc signed = .ok () then
        some ⟨rc, signed, ci, msg⟩
      else none
    | _ => none
  | .expire _ => none

/-- The operator's messages for the slot, as they come in. -/
def deliveries (events : List ValidatorEvent) : List Delivery :=
  events.filterMap (·.delivery? net seat slot)

/-- The operator has signed one message of a kind in a round, leads where it proposes, and no peer
relays a message twice. -/
structure HonestTraffic (events : List ValidatorEvent) : Prop where
  one : ∀ d ∈ deliveries net seat slot events, ∀ d' ∈ deliveries net seat slot events,
    d.msg.msgType = d'.msg.msgType → d.msg.round = d'.msg.round → d.signed = d'.signed
  leads : ∀ d ∈ deliveries net seat slot events, d.msg.msgType = .proposal →
    proposer d.msg.height d.msg.round d.ci.committee net = some seat.signer
  once : (deliveries net seat slot events).Pairwise fun earlier later ↦
    earlier.receipt.receivedFrom = later.receipt.receivedFrom → earlier.signed ≠ later.signed

/-- A round change with data that comes after the proposal of its round, from the same peer, has its
root. -/
def SameData (earlier later : Delivery) : Prop :=
  earlier.receipt.receivedFrom = later.receipt.receivedFrom → earlier.msg.msgType = .proposal →
    later.msg.msgType = .roundChange → later.signed.fullData.bytes ≠ [] →
    earlier.msg.round = later.msg.round → earlier.msg.root = later.msg.root

variable {net seat slot}

theorem delivery?_eq_some {event : ValidatorEvent} {d : Delivery}
    (h : event.delivery? net seat slot = some d) :
    ∃ data, event = .message d.receipt data ∧
      planOf net d.receipt data = .ok (.consensus d.signed d.ci d.msg) ∧
      (Plan.consensus d.signed d.ci d.msg).At seat ∧ d.msg.height = slot ∧
      d.signed.operatorIDs.length = 1 := by
  cases event with
  | expire => cases h
  | message rc data =>
    unfold ValidatorEvent.delivery? at h
    dsimp only at h
    split at h
    · next signed ci msg hplan =>
      split at h
      · next hmet =>
        cases h
        exact ⟨data, rfl, hplan, hmet.1, hmet.2.1, hmet.2.2.1⟩
      · cases h
    · cases h

theorem delivery?_of_entry {event : ValidatorEvent} {σ : States} {msg : Message}
    (h : event.entry net σ seat = some a) (hslot : a.plan.slot = slot)
    (hsingle : a.single? = some msg) :
    ∃ d, event.delivery? net seat slot = some d ∧ d.receipt = a.receipt ∧ d.msg = msg := by
  obtain ⟨⟨data, rfl, hplan⟩, hat, hcheck⟩ := ValidatorEvent.entry_eq_some h
  obtain ⟨signed, ci, hconsensus, hone⟩ := Accepted.single?_eq_some hsingle
  rw [hconsensus] at hplan hat hcheck hslot
  refine ⟨⟨a.receipt, signed, ci, msg⟩, ?_, rfl, rfl⟩
  simp only [ValidatorEvent.delivery?, hplan]
  exact if_pos ⟨hat, hslot, hone, verifySignatures_of_check hcheck⟩

theorem mem_deliveries_of_mem_atSlot {events : List ValidatorEvent} {msg : Message}
    (h : a ∈ (events.foldl (LoggedRun.next net) .start).atSlot seat slot)
    (hsingle : a.single? = some msg) :
    ∃ d ∈ deliveries net seat slot events, d.receipt = a.receipt ∧ d.msg = msg := by
  induction events using reverseRecOn with
  | nil => cases h
  | append_singleton events event ih =>
    rw [foldl_append] at h
    rw [deliveries, filterMap_append]
    change a ∈ Recorder.logged _ _ _ at h
    unfold Recorder.logged at h
    split at h
    · rcases mem_append.1 h with hentry | hold
      · obtain ⟨hentry, hslot⟩ := filter_eq_some_iff.1 (mem_toList.1 hentry)
        obtain ⟨d, hd, hfound⟩ := delivery?_of_entry hentry (of_decide_eq_true hslot) hsingle
        exact ⟨d, mem_append_right _ (mem_filterMap.2 ⟨event, mem_singleton_self _, hd⟩), hfound⟩
      · obtain ⟨d, hd, hfound⟩ := ih hold
        exact ⟨d, mem_append_left _ hd, hfound⟩
    · cases h

end

/-! ### Who is punished -/

section

variable {net : Network} {rc : Receipt} {signed : SignedSSVMessage} {msg : Message}

theorem spares_validateProposalData {hashed : Option Root} {root : Root} {err : Err}
    (h : ∀ h', hashed = some h' → h' ≠ root → ¬ err.Rejects) :
    Checks.FailsOnly (¬ ·.Rejects) (validateProposalData hashed root err) := by
  cases hashed with
  | none => exact failsOnly_ok ()
  | some h' => exact failsOnly_require (h h' rfl)

/-- A message is not punished if the peer has relayed neither other data nor one of its kind in the
round. -/
theorem spares_validateSignerQBFTLogic
    (hone : signed.operatorIDs.length = 1)
    (hdata : msg.round = s.round → signed.fullData.bytes ≠ [] →
      ∀ root, (s.peekPeer rc.receivedFrom).hashedProposalData = some root → root = msg.root)
    (hkind : msg.round = s.round → ∀ idx, consensusLimitIdx 1 msg.msgType = .ok (some idx) →
      ¬ (s.peekPeer rc.receivedFrom).seenMsgTypes.reached idx = true) :
    Checks.FailsOnly (¬ ·.Rejects) (validateSignerQBFTLogic rc signed msg s) := by
  have hlimit : msg.round = s.round →
      Checks.FailsOnly (¬ ·.Rejects) (validateConsensusMessageLimit signed msg rc.receivedFrom
        s) := by
    intro hround
    rw [validateConsensusMessageLimit, hone]
    refine failsOnly_bind (fun e he ↦ ?_) fun idx? hidx ↦ ?_
    · cases hmsg : msg.msgType with
      | other =>
        rw [hmsg] at he
        cases he
        rintro ⟨⟩
      | proposal | prepare | commit | roundChange =>
        rw [hmsg] at he
        cases he
    · cases idx? with
      | none => exact failsOnly_ok ()
      | some idx =>
        refine failsOnly_bind (failsOnly_require fun hseen ↦ ?_) fun _ _ ↦
          failsOnly_require fun _ ↦ by decide
        exact absurd (hkind hround idx hidx) hseen
  rw [validateSignerQBFTLogic, if_pos hone]
  refine failsOnly_bind (failsOnly_require fun _ ↦ by decide) fun _ _ ↦ ?_
  split
  · next hround =>
    split
    · next hfull =>
      refine failsOnly_bind (spares_validateProposalData fun root hroot hne ↦ ?_) fun _ _ ↦
        failsOnly_bind (spares_validateProposalData fun _ _ _ ↦ by decide) fun _ _ ↦ hlimit hround
      exact absurd (hdata hround hfull root hroot) hne
    · exact hlimit hround
  · exact failsOnly_ok ()

theorem failsOnly_signers {P : Err → Prop} {ci : CommitteeInfo} {st : ValidatorState}
    (h : ∀ signer ∈ signed.operatorIDs, ∀ s,
      peekSignerState (st.peekOperatorState (ci.signerIndex signer)) msg.height = some s →
        Checks.FailsOnly P (validateSignerQBFTLogic rc signed msg s)) :
    Checks.FailsOnly P (forM signed.operatorIDs fun signer ↦
      match peekSignerState (st.peekOperatorState (ci.signerIndex signer)) msg.height with
      | none => .ok ()
      | some s => validateSignerQBFTLogic rc signed msg s) := by
  refine Checks.failsOnly_forM fun signer hmem ↦ ?_
  split
  · exact Checks.failsOnly_ok ()
  · next s hs => exact h signer hmem s hs

end

/-! ### The result -/

section

variable [ValidationSpec] {net : Network} {seat : Seat} {slot : ℕ}
    {events before after : List ValidatorEvent} {event : ValidatorEvent} {d : Delivery}

theorem traced_of_reachable {run : LoggedRun} (hrun : (orderedMachine net).Reachable run)
    (peer : PeerID) (s : SignerStateForSlotRound) (hs : run.slotState seat slot = some s) :
    Traced (run.atSlot seat slot) s peer := by
  refine (slot_history_of_ordered hrun seat slot).invariant (P := fun log s ↦ ∀ s', s = some s' →
    Traced log s' peer) nofun ?_ s hs
  rintro log s a ih - ha _ ⟨⟩
  exact traced_accept ih ha

theorem deliveries_split (hd : event.delivery? net seat slot = some d) :
    deliveries net seat slot (before ++ event :: after) =
      deliveries net seat slot before ++ d :: deliveries net seat slot after := by
  rw [deliveries, filterMap_append, filterMap_cons_some hd]
  rfl

theorem HonestTraffic.ne_before (h : HonestTraffic net seat slot (before ++ event :: after))
    (hd : event.delivery? net seat slot = some d) {d' : Delivery}
    (hd' : d' ∈ deliveries net seat slot before)
    (hpeer : d'.receipt.receivedFrom = d.receipt.receivedFrom)
    (htype : d'.msg.msgType = d.msg.msgType) : d'.msg.round ≠ d.msg.round := by
  obtain ⟨hone, -, honce⟩ := h
  rw [deliveries_split hd] at hone honce
  intro hround
  refine (pairwise_append.1 honce).2.2 d' hd' d (.head _) hpeer ?_
  exact hone d' (mem_append_left _ hd') d (mem_append_right _ (.head _)) htype hround

theorem peekSignerState_of_delivery (hd : event.delivery? net seat slot = some d) {run : LoggedRun}
    (henabled : (orderedMachine net).enabled run event) :
    peekSignerState ((validatorState net run.states seat.key d.ci).peekOperatorState
      (d.ci.signerIndex seat.signer)) d.msg.height = run.slotState seat slot := by
  obtain ⟨data, rfl, hplan, hat, hslot, -⟩ := delivery?_eq_some hd
  obtain ⟨message, hmessage⟩ := exists_plan_of_planOf hplan
  rw [LoggedRun.slotState, LoggedRun.seatState,
    seatState_of_at hmessage (ValidatorEvent.keepsOrder_of_plan henabled.2 hplan) hat, hslot,
    ← hat.1]
  rfl

theorem HonestTraffic.spares
    (h : HonestTraffic net seat slot (before ++ event :: after))
    (hdata : (deliveries net seat slot (before ++ event :: after)).Pairwise SameData)
    (hd : event.delivery? net seat slot = some d)
    (hs : Traced ((before.foldl (LoggedRun.next net) .start).atSlot seat slot) s
      d.receipt.receivedFrom) :
    Checks.FailsOnly (¬ ·.Rejects) (validateSignerQBFTLogic d.receipt d.signed d.msg s) := by
  obtain ⟨data, -, hplan, -, -, hone⟩ := delivery?_eq_some hd
  obtain ⟨message, hmessage⟩ := exists_plan_of_planOf hplan
  refine spares_validateSignerQBFTLogic hone ?_ ?_
  · intro hround hfull root hroot
    obtain ⟨a, ha, msg, ⟨hpeer, hsingle⟩, htype, hmsgRound, rfl⟩ := hs.hashed root hroot
    obtain ⟨d', hd', hreceipt, rfl⟩ := mem_deliveries_of_mem_atSlot ha hsingle
    rw [← hreceipt] at hpeer
    -- Of the messages with data, a proposal would be the second of its round from this peer.
    rcases (plan_semantics hmessage).2 hone hfull with hproposal | hchange
    · exact absurd (hmsgRound.trans hround.symm)
        (h.ne_before hd hd' hpeer (htype.trans hproposal.symm))
    · rw [deliveries_split hd] at hdata
      exact (pairwise_append.1 hdata).2.2 d' hd' d (.head _) hpeer htype hchange hfull
        (hmsgRound.trans hround.symm)
  · intro hround idx hidx hreached
    obtain ⟨a, ha, msg, ⟨hpeer, hsingle⟩, htype, hmsgRound⟩ :=
      hs.types d.msg.msgType idx hidx hreached
    obtain ⟨d', hd', hreceipt, rfl⟩ := mem_deliveries_of_mem_atSlot ha hsingle
    rw [← hreceipt] at hpeer
    exact h.ne_before hd hd' hpeer htype (hmsgRound.trans hround.symm)

/-- **Honest traffic is not punished**: if the round changes that a peer relays have the data of the
proposals it relayed, and no message lists its committee in another order than the state it meets,
`validateQBFTLogic` rejects none of the operator's messages. -/
theorem never_punished (henabled : (orderedMachine net).Enables .start events)
    (hhonest : HonestTraffic net seat slot events)
    (hdata : (deliveries net seat slot events).Pairwise SameData)
    (hsplit : events = before ++ event :: after) (hd : event.delivery? net seat slot = some d) :
    Checks.FailsOnly (¬ ·.Rejects) (validateQBFTLogic net d.receipt d.signed d.msg d.ci
      (validatorState net (before.foldl (LoggedRun.next net) .start).states seat.key d.ci)) := by
  subst hsplit
  obtain ⟨hbefore, hevent, -⟩ := Machine.enables_append.1 henabled
  have hrun := (Machine.Reachable.initial (M := orderedMachine net) rfl).foldl hbefore
  obtain ⟨data, -, -, hat, -, hone⟩ := delivery?_eq_some hd
  obtain ⟨signer, hsigner⟩ := List.length_eq_one_iff.1 hone
  obtain rfl : seat.signer = signer := List.mem_singleton.1 (hsigner ▸ hat.2.2)
  have hspares : ∀ signer ∈ d.signed.operatorIDs, ∀ s,
      peekSignerState ((validatorState net (before.foldl (LoggedRun.next net)
        .start).states seat.key d.ci).peekOperatorState (d.ci.signerIndex signer)) d.msg.height =
          some s →
      Checks.FailsOnly (¬ ·.Rejects) (validateSignerQBFTLogic d.receipt d.signed d.msg s) := by
    intro signer hmem s hs
    obtain rfl := List.mem_singleton.1 (hsigner ▸ hmem)
    have hslot := (peekSignerState_of_delivery hd hevent).symm.trans hs
    exact hhonest.spares hdata hd (traced_of_reachable hrun _ s hslot)
  unfold validateQBFTLogic
  split
  · next hproposal =>
    have hmem : d ∈ deliveries net seat slot (before ++ event :: after) := by
      rw [deliveries_split hd]
      exact List.mem_append_right _ (.head _)
    rw [hhonest.leads d hmem hproposal]
    refine Checks.failsOnly_bind (Checks.failsOnly_require fun hne ↦ ?_) fun _ _ ↦ ?_
    · exact absurd (by rw [hsigner]; rfl) hne
    · exact failsOnly_signers hspares
  · exact failsOnly_signers hspares

end

namespace Reference

open Ssv.Reference (messageCodec sum256)

/-- A consensus message for slot 0 with data, from a peer. -/
def withData (peer : PeerID) (msgType : MessageType) (op : OperatorID) (round dataRound : ℕ)
    (data : Bytes) : ValidatorEvent :=
  .message (receipt peer (7 * second)) <| wireMessageCodec.write
    { wireMessage .ssvConsensusMsgType op (messageCodec.write
        { msgType := msgType, height := 0, round := round, identifier := committeeMsgID
          root := sum256 data, dataRound := dataRound, roundChangeJustification := []
          prepareJustification := [] }) (rsaSignature op) with
      fullData := some data }

/-- Operator 2 has prepared a value in round 1, another operator a later one, which operator 2
proposes in round 2. -/
def roundChange2 : ValidatorEvent := withData "peer" .roundChange 2 2 1 [2]

@[inherit_doc roundChange2]
def proposal2 : ValidatorEvent := withData "peer" .proposal 2 2 0 [1]

instance (earlier later : Delivery) : Decidable (SameData earlier later) :=
  inferInstanceAs (Decidable (_ → _))

/-- In the order in which they were sent the messages are not punished. -/
theorem never_punished_in_order :
    HonestTraffic network (committeeSeat 2) 0 [roundChange2, proposal2] ∧
    ∃ d, proposal2.delivery? network (committeeSeat 2) 0 = some d ∧
      Checks.FailsOnly (¬ ·.Rejects) (validateQBFTLogic network d.receipt d.signed d.msg d.ci
        (validatorState network (loggedRunOf network [roundChange2]).states committeeMsgID
          d.ci)) := by
  have hhonest : HonestTraffic network (committeeSeat 2) 0 [roundChange2, proposal2] :=
    ⟨by decide +kernel, by decide +kernel, by decide +kernel⟩
  have hsome : (proposal2.delivery? network (committeeSeat 2) 0).isSome = true := by decide +kernel
  obtain ⟨d, hd⟩ := Option.isSome_iff_exists.1 hsome
  refine ⟨hhonest, d, hd, ?_⟩
  exact @never_punished _ network (committeeSeat 2) 0 [roundChange2, proposal2]
    [roundChange2] [] proposal2 d (by decide +kernel) hhonest (by decide +kernel) rfl hd

/-- In the other order the peer that relays the round change is punished. -/
theorem roundChange_after_proposal_punished :
    HonestTraffic network (committeeSeat 2) 0 [proposal2, roundChange2] ∧
    (orderedMachine network).Enables .start [proposal2, roundChange2] ∧
    ∃ d, roundChange2.delivery? network (committeeSeat 2) 0 = some d ∧
      validateQBFTLogic network d.receipt d.signed d.msg d.ci
        (validatorState network (loggedRunOf network [proposal2]).states committeeMsgID d.ci) =
          .error errDifferentProposalData.punished ∧
      errDifferentProposalData.punished.Rejects := by
  refine ⟨⟨by decide +kernel, by decide +kernel, by decide +kernel⟩,
    by decide +kernel, ?_⟩
  have hrejects : (roundChange2.delivery? network (committeeSeat 2) 0).map (fun d ↦
      validateQBFTLogic network d.receipt d.signed d.msg d.ci
        (validatorState network (loggedRunOf network [proposal2]).states committeeMsgID d.ci)) =
      some (.error errDifferentProposalData.punished) := by decide +kernel
  obtain ⟨d, hd, hlogic⟩ := Option.map_eq_some_iff.1 hrejects
  exact ⟨d, hd, hlogic, by decide⟩

end Reference

end Ssv.Validation
