import SsvNode.Qbft.Replay

/-!
# Justifications of proposals and round changes

**Isolation**: are the embedded messages of the instance's own identifier? No validator reads it, so
what an operator signed at the height for something else counts. **Usability**: does a quorum of
valid round changes justify some proposal? Each is checked against the one proposed value, so two
that were prepared with different values cannot stand in one justification.
-/

namespace Ssv

open SsvSpec Checks

section

variable [SsvSpec]

namespace Instance

variable {i : Instance} {now r : ℕ} {v : Data} {rcs ps : List ProcessingMessage}
  {msg rc p : ProcessingMessage}

/-! ### Isolation -/

/-- The message is what its signed message decodes to. -/
def Decoded (pm : ProcessingMessage) : Prop := newProcessingMessage pm.signedMessage = .ok pm

theorem decoded_of_processingMessages {context : String} {sms : List SignedSSVMessage}
    {pms : List ProcessingMessage} (h : processingMessages context sms = .ok pms)
    {pm : ProcessingMessage} (hpm : pm ∈ pms) : Decoded pm := by
  obtain ⟨sm, -, hdecoded⟩ := mem_processingMessages h hpm
  rwa [Decoded, signedMessage_of_newProcessingMessage hdecoded]

/-- The prepares and round changes of this height that members have validly signed are under the
instance's identifier. -/
def SignedForIdentifier (i : Instance) : Prop :=
  ∀ pm : ProcessingMessage, Decoded pm →
    verify pm.signedMessage i.state.committeeMember.committee = .ok () →
    SoleSigner i.state.committeeMember pm.signedMessage →
    pm.qbftMessage.height = i.state.height →
    pm.qbftMessage.msgType = .prepare ∨ pm.qbftMessage.msgType = .roundChange →
    pm.qbftMessage.identifier = i.state.id

/-- `pm` is embedded in the proposal: as a round change, a prepare, or a prepare of a round change.
-/
inductive EmbeddedIn (msg : ProcessingMessage) : ProcessingMessage → Prop
  | roundChange {rcs : List ProcessingMessage} {rc : ProcessingMessage}
      (decoded : embeddedRoundChanges msg = .ok rcs) (mem : rc ∈ rcs) : EmbeddedIn msg rc
  | prepare {ps : List ProcessingMessage} {p : ProcessingMessage}
      (decoded : proposalPrepares msg = .ok ps) (mem : p ∈ ps) : EmbeddedIn msg p
  | nested {rcs ps : List ProcessingMessage} {rc p : ProcessingMessage}
      (decoded : embeddedRoundChanges msg = .ok rcs) (mem : rc ∈ rcs)
      (decoded' : embeddedPrepares rc = .ok ps) (mem' : p ∈ ps) : EmbeddedIn msg p

/-- Prepares stand only next to a prepared round change, and not inside one that is not prepared. -/
def NothingIdle (msg : ProcessingMessage) : Prop :=
  ∀ rcs, embeddedRoundChanges msg = .ok rcs →
    ((∀ rc ∈ rcs, roundChangePrepared rc.qbftMessage ≠ true) → proposalPrepares msg = .ok []) ∧
    ∀ rc ∈ rcs, roundChangePrepared rc.qbftMessage ≠ true → embeddedPrepares rc = .ok []

section

variable (hown : i.SignedForIdentifier)
include hown

theorem PrepareQuorum.own {d : ℕ} {root : Root} (hq : PrepareQuorum i.scope ps d root)
    (hdecoded : Decoded p) (hp : p ∈ ps) : p.qbftMessage.identifier = i.state.id :=
  hown p hdecoded (hq.verified p hp) (hq.valid p hp).signer (hq.valid p hp).height
    (.inl (hq.valid p hp).msgType)

theorem RoundChangesJustify.own (hj : RoundChangesJustify i.scope rcs ps r v)
    (hdecoded : Decoded rc) (hrc : rc ∈ rcs) : rc.qbftMessage.identifier = i.state.id :=
  hown rc hdecoded (hj.verified rc hrc) (hj.valid rc hrc).signer (hj.valid rc hrc).height
    (.inr (hj.valid rc hrc).msgType)

/-- What a valid proposal embeds is of the instance's identifier. -/
theorem ValidProposal.own (hvalid : i.ValidProposal now msg)
    (hround : firstRound < msg.qbftMessage.round) (hidle : NothingIdle msg)
    (hp : EmbeddedIn msg p) : p.qbftMessage.identifier = i.state.id := by
  obtain ⟨rcs, prepares, hrcs, hprepares, hjust⟩ := hvalid.justified
  have hj := (isProposalJustification_iff.1 hjust).2 (by omega)
  cases hp with
  | roundChange decoded mem =>
    obtain rfl : rcs = _ := Except.ok.inj (hrcs.symm.trans decoded)
    exact hj.own hown (decoded_of_processingMessages decoded mem) mem
  | prepare decoded mem =>
    obtain rfl : prepares = _ := Except.ok.inj (hprepares.symm.trans decoded)
    rcases hbest : highestPrepared rcs with - | best
    · have hnone : ∀ rc ∈ rcs, roundChangePrepared rc.qbftMessage ≠ true := by
        intro rc hrc hp
        obtain ⟨best, hbest'⟩ : ∃ best, highestPrepared rcs = some best :=
          List.exists_firstMax hrc hp
        simp [hbest] at hbest'
      have hnil := (hidle rcs hrcs).1 hnone
      rw [hprepares] at hnil
      simp [Except.ok.inj hnil] at mem
    · exact (hj.prepared best hbest).2.own hown (decoded_of_processingMessages decoded mem) mem
  | @nested rcs' ps rc _ decoded mem decoded' mem' =>
    obtain rfl : rcs = rcs' := Except.ok.inj (hrcs.symm.trans decoded)
    by_cases hprep : roundChangePrepared rc.qbftMessage = true
    · obtain ⟨⟨pms, hpms, hq⟩, -⟩ := (hj.valid rc mem).prepared hprep
      obtain rfl : ps = pms := Except.ok.inj (decoded'.symm.trans hpms)
      exact hq.own hown (decoded_of_processingMessages decoded' mem') mem'
    · have hnil := (hidle rcs hrcs).2 rc mem hprep
      rw [decoded'] at hnil
      simp [Except.ok.inj hnil] at mem'

theorem ValidRoundChange.own (hvalid : ValidRoundChange i.scope msg r v)
    (hprep : roundChangePrepared msg.qbftMessage = true) (hps : embeddedPrepares msg = .ok ps)
    (hp : p ∈ ps) : p.qbftMessage.identifier = i.state.id := by
  obtain ⟨⟨pms, hpms, hq⟩, -⟩ := hvalid.prepared hprep
  obtain rfl : ps = pms := Except.ok.inj (hps.symm.trans hpms)
  exact hq.own hown (decoded_of_processingMessages hpms hp) hp

end

theorem validRoundChange_of_baseMsgValidation (h : i.baseMsgValidation now msg = .ok ())
    (ht : msg.qbftMessage.msgType = .roundChange) :
    ValidRoundChange i.scope msg msg.qbftMessage.round msg.signedMessage.fullData := by
  simp only [baseMsgValidation, bind_eq_ok, exists_check, require_eq_ok, ht] at h
  exact validRoundChange_iff.1 h.2.2

theorem RoundChangesJustify.root_eq (hj : RoundChangesJustify i.scope rcs ps r v) (hrc : rc ∈ rcs)
    (hprep : roundChangePrepared rc.qbftMessage = true) : rc.qbftMessage.root = hashDataRoot v :=
  ((hj.valid rc hrc).prepared hprep).2.1.symm

/-- A valid round change is valid for another value if it is not prepared, or has its root. -/
theorem ValidRoundChange.forValue {v' : Data} (hrc : ValidRoundChange i.scope rc r v)
    (hroot : roundChangePrepared rc.qbftMessage = true → rc.qbftMessage.root = hashDataRoot v') :
    ValidRoundChange i.scope rc r v' := by
  refine ⟨hrc.msgType, hrc.height, hrc.round, hrc.validated, hrc.signer, fun hprep ↦ ?_⟩
  obtain ⟨hq, -, hle⟩ := hrc.prepared hprep
  exact ⟨hq, (hroot hprep).symm, hle⟩

/-- **When a quorum of round changes justifies a proposal.** If none is prepared, every value that
passes the check is justified. Otherwise that of the highest prepared round is, exactly if all
prepared ones have its root. -/
theorem quorum_justifies_iff (i : Instance) (now r : ℕ) (rcs : List ProcessingMessage)
    (hr : firstRound < r)
    (hvalid : ∀ rc ∈ rcs,
      i.validRoundChangeForDataVerifySignature rc r rc.signedMessage.fullData = .ok ())
    (hquorum : hasQuorum i.state.committeeMember rcs = true) :
    ((∀ rc ∈ rcs, roundChangePrepared rc.qbftMessage ≠ true) →
      ∀ v ps, i.checkValue now v = .ok () → i.isProposalJustification now rcs ps r v = .ok ()) ∧
    ∀ best ∈ rcs, roundChangePrepared best.qbftMessage = true →
      (∀ rc ∈ rcs, roundChangePrepared rc.qbftMessage = true →
        rc.qbftMessage.dataRound ≤ best.qbftMessage.dataRound) →
      i.checkValue now best.signedMessage.fullData = .ok () →
      ∃ ps, embeddedPrepares best = .ok ps ∧
        (i.isProposalJustification now rcs ps r best.signedMessage.fullData = .ok () ↔
          ∀ rc ∈ rcs, roundChangePrepared rc.qbftMessage = true →
            rc.qbftMessage.root = best.qbftMessage.root) := by
  simp only [validRoundChange_verified_iff] at hvalid
  refine ⟨fun hnone v ps hcheck ↦ ?_, fun best hmem hprep hmax hcheck ↦ ?_⟩
  · refine isProposalJustification_iff.2 ⟨hcheck, fun _ ↦ ?_⟩
    refine ⟨fun rc hrc ↦ ?_, fun rc hrc ↦ (hvalid rc hrc).2, hquorum, fun b hb ↦ ?_⟩
    · exact (hvalid rc hrc).1.forValue fun hp ↦ absurd hp (hnone rc hrc)
    · obtain ⟨hb, hp, -⟩ := List.firstMax_some hb
      exact absurd hp (hnone b hb)
  · obtain ⟨⟨ps, hps, hq⟩, hroot, -⟩ := (hvalid best hmem).1.prepared hprep
    refine ⟨ps, hps, fun hj rc hrc hp ↦ ?_, fun hsame ↦ ?_⟩
    · have hj := (isProposalJustification_iff.1 hj).2 (by omega)
      rw [hj.root_eq hrc hp, hroot]
    · refine isProposalJustification_iff.2 ⟨hcheck, fun _ ↦ ?_⟩
      refine ⟨fun rc hrc ↦ ?_, fun rc hrc ↦ (hvalid rc hrc).2, hquorum, fun b hb ↦ ?_⟩
      · exact (hvalid rc hrc).1.forValue fun hp ↦ (hsame rc hrc hp).trans hroot.symm
      · -- the code's choice has the same prepared round and root
        obtain ⟨hbmem, hbp, hbmax⟩ := List.firstMax_some hb
        have hround : b.qbftMessage.dataRound = best.qbftMessage.dataRound :=
          le_antisymm (hmax b hbmem hbp) (hbmax best hmem hprep)
        rw [hsame b hbmem hbp, hround]
        exact ⟨hroot, hq⟩

end Instance

end

/-! ### Two justifications by the reference committee -/

namespace Reference

local instance justificationSpec : SsvSpec := spec

def started : Instance :=
  ((fourOperators.start 1).controller.newInstance 1).withStart value nonEmpty

def processing (op : OperatorID) (m : Message) (fullData : Data) : ProcessingMessage :=
  ⟨signed op m fullData, m⟩

/-- A round change to round `r`, prepared in round `d` with value `v`. -/
def preparedRoundChange (r d : ℕ) (v : Data) : Message :=
  { message .roundChange r (hashDataRoot v) with
    dataRound := d
    roundChangeJustification := [1, 2, 3].map fun op ↦
      signedMessageCodec.write (signed op (message .prepare d (hashDataRoot v)) none) }

/-- A round change to round `2` that operator `3` signed under another identifier. -/
def foreignRoundChange : Message := { message .roundChange 2 0 with identifier := [9] }

/-- The proposal for round `2`, justified by round changes of `1` and `2` and the foreign one. -/
def foreignProposal : ProcessingMessage :=
  processing 4
    { message .proposal 2 (hashDataRoot value) with
      roundChangeJustification :=
        [signed 1 (message .roundChange 2 0) none, signed 2 (message .roundChange 2 0) none,
          signed 3 foreignRoundChange none].map signedMessageCodec.write }
    value

/-- Operators `1` and `2` were prepared in different rounds with different values. -/
def mixedRoundChanges : List ProcessingMessage :=
  [processing 1 (preparedRoundChange 3 1 (some [1])) (some [1]),
    processing 2 (preparedRoundChange 3 2 (some [2])) (some [2]),
    processing 3 (message .roundChange 3 0) none]

/-- A quorum of valid round changes that justifies no proposal at all. -/
theorem mixedRoundChanges_unusable :
    (∀ rc ∈ mixedRoundChanges, started.validRoundChangeForDataVerifySignature rc 3
      rc.signedMessage.fullData = .ok ()) ∧
    SsvSpec.hasQuorum started.state.committeeMember mixedRoundChanges = true ∧
    (∀ rc ∈ mixedRoundChanges, started.checkValue 0 rc.signedMessage.fullData = .ok () ∨
      SsvSpec.roundChangePrepared rc.qbftMessage = false) ∧
    ∀ v ps, started.isProposalJustification 0 mixedRoundChanges ps 3 v ≠ .ok () := by
  refine ⟨by decide +kernel, by decide +kernel, by decide +kernel, fun v ps hj ↦ ?_⟩
  have hj := (Instance.isProposalJustification_iff.1 hj).2 (by decide)
  have hone : hashDataRoot (some [1]) = hashDataRoot v := hj.root_eq (.head _) (by decide)
  have htwo : hashDataRoot (some [2]) = hashDataRoot v := hj.root_eq (.tail _ (.head _)) (by decide)
  have hne : hashDataRoot (some [1]) ≠ hashDataRoot (some [2]) := by decide +kernel
  exact hne (hone.trans htwo.symm)

/-- Operators `1` and `2` were prepared in the same round. -/
def likeRoundChanges : List ProcessingMessage :=
  [processing 1 (preparedRoundChange 3 2 (some [2])) (some [2]),
    processing 2 (preparedRoundChange 3 2 (some [2])) (some [2]),
    processing 3 (message .roundChange 3 0) none]

open Instance in
theorem quorum_justifies_likeRoundChanges :
    ∃ ps, started.isProposalJustification 0 likeRoundChanges ps 3 (some [2]) = .ok () := by
  obtain ⟨ps, -, hiff⟩ := (quorum_justifies_iff started 0 3 likeRoundChanges (by decide)
    (by decide +kernel) (by decide +kernel)).2
    (processing 1 (preparedRoundChange 3 2 (some [2])) (some [2])) (by simp [likeRoundChanges])
    (by decide) (by decide +kernel) (by decide)
  exact ⟨ps, hiff.2 (by decide +kernel)⟩

/-! ### A committee that signs under one identifier -/

/-- The signatures of operators that have signed under identifier `[7]` alone. -/
def verifyOwn (sm : SignedSSVMessage) (ops : List Operator) : Except Err Unit := do
  verify sm ops
  let pm ← newProcessingMessage sm
  require (pm.qbftMessage.identifier = [7]) { text := "invalid signature" }

section

local instance ownSpec : SsvSpec := { spec with verify := verifyOwn }

def startedOwn : Instance :=
  (Instance.newInstance
    { proposerF := fun _ _ ↦ 4, network := fun _ _ _ ↦ .ok (), cutOffRound := 12 }
    { operatorID := 1, faultyNodes := 1, committee := [⟨1, []⟩, ⟨2, []⟩, ⟨3, []⟩, ⟨4, []⟩] }
    [7] 1 fun _ s ↦ .ok (signature 1 s)).withStart value nonEmpty

/-- The proposal for round `2`, justified by the prepared round change of `1`, and by those of `2`
and `3`. -/
def ownProposal : ProcessingMessage :=
  processing 4
    { message .proposal 2 (hashDataRoot value) with
      roundChangeJustification :=
        [signed 1 (preparedRoundChange 2 1 value) value, signed 2 (message .roundChange 2 0) none,
          signed 3 (message .roundChange 2 0) none].map signedMessageCodec.write
      prepareJustification := (preparedRoundChange 2 1 value).roundChangeJustification }
    value

theorem startedOwn_signedForIdentifier : startedOwn.SignedForIdentifier := by
  intro pm hdecoded hverify _ _ _
  have hown : verifyOwn pm.signedMessage startedOwn.state.committeeMember.committee = .ok () :=
    hverify
  simp only [verifyOwn, bind_eq_ok, exists_check, require_eq_ok] at hown
  obtain ⟨-, pm', hpm', hidentifier⟩ := hown
  obtain rfl : pm' = pm := Except.ok.inj (hpm'.symm.trans hdecoded)
  exact hidentifier

end

end Reference

end Ssv
