import SsvNode.Lib.Machine
import SsvNode.Runner.PostConsensusProgress
import SsvNode.Validation.ReferenceSpec

/-!
# A quorum of valid shares is submitted

Quorums are reported once, when they are reached, maybe with invalid shares. Still every packet
leaves the runner in a state where **whatever is expected and has not been submitted is without a
quorum** (`PostConsensusRun.Invariant`). Valid shares stay in the container, so what a quorum of
them signs was submitted.
-/

namespace Ssv

open Checks Validation CommitteeSpec List

variable [CommitteeSpec] {env : CommitteeEnv}

/-! ### One packet -/

omit [CommitteeSpec] in
/-- What stays the same of a state after consensus. -/
structure CommitteeState.SameDuty (s s' : CommitteeState) : Prop where
  currentDuty : s'.currentDuty = s.currentDuty
  decidedValue : s'.decidedValue = s.decidedValue

variable {s : CommitteeState} {r : CommitteeRunner} {sched : Schedule}

theorem CommitteeState.SameDuty.expected {s' : CommitteeState} (h : s.SameDuty s') :
    expectedPostConsensusRootsAndBeaconObjects env s' =
      expectedPostConsensusRootsAndBeaconObjects env s := by
  unfold expectedPostConsensusRootsAndBeaconObjects
  rw [h.currentDuty, h.decidedValue]

/-- What a call does once the packet is stored in `s`, with `roots` the quorums reached. -/
structure Advanced (env : CommitteeEnv) (roots : List Root) (r : CommitteeRunner)
    (s : CommitteeState)
    (r' : CommitteeRunner) (s' : CommitteeState) (calls : List BeaconCall) : Prop where
  state : r'.state = some s'
  share : r'.share = r.share
  sameDuty : s.SameDuty s'
  purged : Purged r.share s.postConsensusContainer s'.postConsensusContainer
  /-- An expected root that still has a quorum is submitted. -/
  settled : ∀ e, expectedPostConsensusRootsAndBeaconObjects env s = .ok e →
    ∀ role v root, e.rootOf role v = some root → root ∈ roots → (r.share.get v).isSome →
      s'.postConsensusContainer.hasQuorum v root → (role, v) ∈ r'.submittedDuties
  recorded : ∀ role v, (role, v) ∈ r.submittedDuties → (role, v) ∈ r'.submittedDuties
  /-- What is recorded as submitted has been handed over. -/
  handed : ∀ e, expectedPostConsensusRootsAndBeaconObjects env s = .ok e →
    ∀ role v, (role, v) ∈ r'.submittedDuties →
      (role, v) ∈ r.submittedDuties ∨ Signed r.share e role v (HandedOver env calls role v)

theorem Advanced.refl {roots : List Root} (hs : r.state = some s)
    (hroots : ∀ e, expectedPostConsensusRootsAndBeaconObjects env s = .ok e →
      ∀ role v root, e.rootOf role v = some root → root ∉ roots) :
    Advanced env roots r s r s [] where
  state := hs
  share := rfl
  sameDuty := ⟨rfl, rfl⟩
  purged := .refl
  settled e he role v root hroot hmem := absurd hmem (hroots e he role v root hroot)
  recorded _ _ h := h
  handed _ _ _ _ h := .inl h

/-- **The roots that have reached a quorum.** -/
theorem processQuorumRoots_advanced (haccepts : env.Accepts) {roots : List Root}
    (hnodup : roots.Nodup)
    (hs : r.state = some s)
    (hcombine : ∀ v share root, r.share.get v = some share →
      Combines s.postConsensusContainer.quorum share root) :
    (processQuorumRoots env sched roots s).wp (fun r' calls _ ↦
      ∃ s', Advanced env roots r s r' s' calls) r := by
  rcases he : expectedPostConsensusRootsAndBeaconObjects env s with err | e
  · unfold processQuorumRoots
    rw [he]
    exact ⟨s, .refl hs fun e he' ↦ by rw [he] at he'; cases he'⟩
  refine Act.wp_mono (processQuorumRoots_spec hnodup haccepts.attestations hs he) ?_
  rintro r' calls - ⟨c, col, hprogress, h⟩
  obtain ⟨succeeded, hstate⟩ := h.state
  refine ⟨_, hstate, h.share, ⟨rfl, rfl⟩, hprogress.purged, ?_, ?_, ?_⟩
  · intro e' he' role v root hroot hmem hsome hq
    obtain rfl := Except.ok.inj (he.symm.trans he')
    rw [h.recorded haccepts, hprogress.has_iff]
    by_cases hnew : (role, v) ∈ r.submittedDuties
    · exact .inl hnew
    · exact .inr (.inr (hprogress.settled hcombine role v root ⟨hroot, hmem⟩ hsome
        (decide_eq_false hnew) hq))
  · intro role v hv
    rw [h.recorded haccepts]
    exact .inl hv
  · intro e' he' role v hv
    obtain rfl := Except.ok.inj (he.symm.trans he')
    rw [h.recorded haccepts] at hv
    refine hv.imp_right fun hv ↦ ?_
    refine (hprogress.sound Collected.sound_empty role v hv).mono fun root signature hholds ↦ ?_
    rcases Collected.role_of_has hv with rfl | rfl
    · exact h.attestations _ rfl hholds
    · exact h.syncMessages (.inl rfl) _ rfl hholds

/-- **A packet that passes validation** is stored, and its quorums are dealt with. -/
theorem processPostConsensus_advanced (haccepts : env.Accepts) {packet : PartialSignatureMessages}
    (hs : r.state = some s) (hvalid : validatePostConsensusMsg env sched.shares r packet = .ok ())
    (hcombine : ∀ v share root, r.share.get v = some share →
      Combines s.postConsensusContainer.quorum share root) :
    (processPostConsensus env sched packet).wp (fun r' calls _ ↦ ∃ c roots s',
      PacketStored r.share packet.messages s.postConsensusContainer [] (c, roots) ∧
      Advanced env roots (r.setContainer c) { s with postConsensusContainer := c } r' s' calls)
        r := by
  have hstored : PacketStored r.share packet.messages s.postConsensusContainer []
      (basePartialSigMsgProcessing r.share packet.messages s.postConsensusContainer) :=
    foldl_processPartialSig_stored
  have hnodup := nodup_basePartialSigMsgProcessing r.share packet.messages s.postConsensusContainer
  rcases hbase : basePartialSigMsgProcessing r.share packet.messages s.postConsensusContainer
    with ⟨c, roots⟩
  rw [hbase] at hstored hnodup
  have hset : (r.setContainer c).state = some { s with postConsensusContainer := c } := by
    simp [CommitteeRunner.setContainer, hs]
  refine wp_processPostConsensus hs hvalid hbase (fun hnone ↦ ?_) ?_
  · subst hnone
    exact ⟨c, [], _, hstored, .refl hset fun _ _ _ _ _ _ ↦ not_mem_nil⟩
  · refine Act.wp_mono (processQuorumRoots_advanced haccepts
      ((sched.roots.perm _).nodup_iff.2 hnodup) hset
      fun v share root hshare ↦ hstored.quorum ▸ hcombine v share root hshare) ?_
    rintro r' calls - ⟨s', h⟩
    exact ⟨c, roots, s', hstored, { h with
      settled := fun e he role v root hroot hmem ↦
        h.settled e he role v root hroot (sched.roots.mem_iterate.2 hmem) }⟩

/-! ### Whole runs -/

/-- A decided runner, the packets that have passed validation, and what the beacon node was given.
-/
structure PostConsensusRun where
  runner : CommitteeRunner
  processed : List PartialSignatureMessages
  handed : List BeaconCall

omit [CommitteeSpec] in
/-- A runner that has decided on a value of its duty, and has seen no packet. -/
def decidedRunner (shares : ShareMap) (quorum : ℕ) (duty : CommitteeDuty)
    (instance_ : Option (Bool × Bytes)) (decidedValue : Bytes) : CommitteeRunner where
  share := shares
  state := some ⟨.new quorum, instance_, decidedValue, duty, false⟩
  submittedDuties := []

namespace PostConsensusRun

/-- `ProcessPostConsensus` is called with a packet. -/
def next (env : CommitteeEnv) (run : PostConsensusRun)
    (call : Schedule × PartialSignatureMessages) : PostConsensusRun :=
  let outcome := (processPostConsensus env call.1 call.2).run run.runner
  { runner := outcome.state
    processed :=
      if (validatePostConsensusMsg env call.1.shares run.runner call.2).isOk then
        call.2 :: run.processed
      else run.processed
    handed := run.handed ++ outcome.events }

/-- The runs of a decided runner: packets arrive in any order, from anyone. -/
def machine (env : CommitteeEnv) (shares : ShareMap) (quorum : ℕ) :
    Machine PostConsensusRun (Schedule × PartialSignatureMessages) where
  initial run := ∃ duty instance_ value,
    run = ⟨decidedRunner shares quorum duty instance_ value, [], []⟩
  enabled _ _ := True
  next := next env

/-- **What is expected and not submitted is without a quorum.** -/
structure Invariant (env : CommitteeEnv) (shares : ShareMap) (quorum : ℕ) (run : PostConsensusRun) :
    Prop where
  share : run.runner.share = shares
  quorum : ∀ s, run.runner.state = some s → s.postConsensusContainer.quorum = quorum
  stored : ∀ s, run.runner.state = some s → ∀ packet ∈ run.processed, ∀ m ∈ packet.messages,
    validShare shares m.validatorIndex m.signingRoot m.signer m.partialSignature →
      Holds shares s.postConsensusContainer m.validatorIndex m.signingRoot m.signer
  waiting : ∀ s e, run.runner.state = some s →
    expectedPostConsensusRootsAndBeaconObjects env s = .ok e →
    ∀ role v root, e.rootOf role v = some root → (shares.get v).isSome →
      s.postConsensusContainer.hasQuorum v root → (role, v) ∈ run.runner.submittedDuties
  handed : ∀ s e, run.runner.state = some s →
    expectedPostConsensusRootsAndBeaconObjects env s = .ok e →
    ∀ role v, (role, v) ∈ run.runner.submittedDuties →
      Signed shares e role v (HandedOver env run.handed role v)

variable {shares : ShareMap} {quorum : ℕ}

variable {run : PostConsensusRun}

theorem invariant_initial (hquorum : 0 < quorum)
    (h : (machine env shares quorum).initial run) : Invariant env shares quorum run := by
  obtain ⟨duty, instance_, value, rfl⟩ := h
  have hempty : ∀ v root, (PartialSigContainer.new quorum).hasQuorum v root = false := fun v root ↦
    decide_eq_false (by
      change ¬ quorum ≤ 0
      omega)
  refine ⟨rfl, fun s hs ↦ ?_, fun s _ packet hpacket ↦ absurd hpacket not_mem_nil,
    fun s e hs he role v root _ _ hq ↦ ?_, fun s e _ _ role v h ↦ nomatch h⟩
  · cases hs
    rfl
  · cases hs
    exact absurd hq (by rw [hempty]; decide)

/-- **One packet keeps the invariant.** -/
theorem Invariant.step (haccepts : env.Accepts)
    (hcombine : ∀ v share root, shares.get v = some share → Combines quorum share root)
    (h : Invariant env shares quorum run) (call : Schedule × PartialSignatureMessages) :
    Invariant env shares quorum (run.next env call) := by
  obtain ⟨sched, packet⟩ := call
  unfold next
  rcases hvalid : validatePostConsensusMsg env sched.shares run.runner packet with err | ⟨⟩
  · obtain ⟨hrunner, hevents⟩ := Act.wp_iff.1 (processPostConsensus_rejected hvalid)
    simp only [hrunner, hevents, append_nil]
    exact h
  obtain ⟨s, hs⟩ : ∃ s, run.runner.state = some s := by
    rcases hs : run.runner.state with - | s
    · simp [validatePostConsensusMsg, hs] at hvalid
    · exact ⟨s, rfl⟩
  obtain ⟨c, roots, s', hstored, hadv⟩ := Act.wp_iff.1
    (processPostConsensus_advanced haccepts hs hvalid
    (by rw [h.share, h.quorum s hs]; exact hcombine))
  generalize (processPostConsensus env sched packet).run run.runner = outcome at hadv ⊢
  have hshare : (run.runner.setContainer c).share = shares := h.share
  have hexpected : expectedPostConsensusRootsAndBeaconObjects env s' =
      expectedPostConsensusRootsAndBeaconObjects env s :=
    hadv.sameDuty.expected.trans (CommitteeState.SameDuty.expected ⟨rfl, rfl⟩)
  have hpurged := hadv.purged
  rw [hshare] at hpurged
  rw [h.share] at hstored
  refine ⟨hadv.share.trans hshare, fun s'' hs'' ↦ ?_, fun s'' hs'' packet' hpacket' m hm hv ↦ ?_,
    fun s'' e hs'' he role v root hroot hsome hq ↦ ?_, fun s'' e hs'' he role v hsubmitted ↦ ?_⟩ <;>
    obtain rfl := Option.some.inj (hadv.state.symm.trans hs'')
  · exact hpurged.quorum.trans (hstored.quorum.trans (h.quorum s hs))
  · -- valid shares are stored with their packet and stay
    refine hpurged.holds ?_
    rcases mem_cons.1 hpacket' with rfl | hpacket'
    · exact hstored.stored m hm hv
    · exact hstored.holds _ _ _ (h.stored s hs packet' hpacket' m hm hv)
  · -- a quorum was there before, or has been reached with this packet
    rw [hexpected] at he
    rcases hstored.crossed v root (hpurged.hasQuorum hq) with hold | hnew
    · exact hadv.recorded role v (h.waiting s e hs he role v root hroot hsome hold)
    · exact hadv.settled e he role v root hroot hnew (hshare ▸ hsome) hq
  · rw [hexpected] at he
    rcases hadv.handed e he role v hsubmitted with hold | hnew
    · exact (h.handed s e hs he role v hold).mono fun _ _ ↦ HandedOver.append_left _
    · exact (hshare ▸ hnew).mono fun _ _ ↦ HandedOver.append_right _

/-- **A quorum of valid shares has been submitted**: once a decided runner has processed them, over
an expected root, a signature of the validator over it has been handed to the beacon node. -/
theorem submitted_of_valid_quorum (env : CommitteeEnv) (haccepts : env.Accepts) (shares : ShareMap)
    (quorum : ℕ) (hquorum : 0 < quorum)
    (hcombine : ∀ v share root, shares.get v = some share → Combines quorum share root)
    (run : PostConsensusRun) (hrun : (machine env shares quorum).Reachable run)
    (s : CommitteeState) (hs : run.runner.state = some s)
    (e : ExpectedObjects) (he : expectedPostConsensusRootsAndBeaconObjects env s = .ok e)
    (role : BeaconRole) (v : ℕ) (root : Root) (hroot : e.rootOf role v = some root)
    (signers : List OperatorID) (hnodup : signers.Nodup) (hlength : quorum ≤ signers.length)
    (hsigned : ∀ op ∈ signers, ∃ packet ∈ run.processed, ∃ m ∈ packet.messages,
      m.signer = op ∧ m.validatorIndex = v ∧ m.signingRoot = root ∧
        validShare shares v root op m.partialSignature) :
    ∃ share signature, shares.get v = some share ∧ ValidatorSignature share root signature ∧
      HandedOver env run.handed role v root signature := by
  have hinv : Invariant env shares quorum run :=
    hrun.invariant (fun _ ↦ invariant_initial hquorum) fun _ call _ h _ ↦
      h.step haccepts hcombine call
  have hholds : ∀ op ∈ signers, Holds shares s.postConsensusContainer v root op := by
    intro op hop
    obtain ⟨packet, hpacket, m, hm, rfl, rfl, rfl, hvalid⟩ := hsigned op hop
    exact hinv.stored s hs packet hpacket m hm hvalid
  have hshare : (shares.get v).isSome := by
    obtain ⟨op, hop⟩ : ∃ op, op ∈ signers := List.exists_mem_of_length_pos (by omega)
    obtain ⟨sig, -, hvalid⟩ := hholds op hop
    rcases hget : shares.get v with - | share
    · simp [validShare, hget] at hvalid
    · rfl
  have hq := hasQuorum_of_holds hnodup (by rw [hinv.quorum s hs]; exact hlength) hholds
  obtain ⟨root', share, signature, hroot', hget, hsig, hhanded⟩ :=
    hinv.handed s e hs he role v (hinv.waiting s e hs he role v root hroot hshare hq)
  obtain rfl := Option.some.inj (hroot.symm.trans hroot')
  exact ⟨share, signature, hget, hsig, hhanded⟩

end PostConsensusRun

end Ssv

/-! ### A garbled share comes first -/

namespace Ssv.Reference

open Validation

def signatureOf (key : UInt8) : Bytes := List.replicate 96 key

theorem eq_of_ofNat_toNat {x x' : UInt8}
    (h : BitVec.ofNat 256 x.toNat = BitVec.ofNat 256 x'.toNat) : x = x' := by
  have hnat := congrArg BitVec.toNat h
  have hlt := x.toNat_lt
  have hlt' := x'.toNat_lt
  rw [BitVec.toNat_ofNat, BitVec.toNat_ofNat, Nat.mod_eq_of_lt (by omega),
    Nat.mod_eq_of_lt (by omega)] at hnat
  exact UInt8.toNat_inj.1 hnat

/-- An attestation with what the reference library puts into it. -/
structure ReferenceAttestation where
  validatorIndex : ℕ
  data : AttestationData
  signature : Bytes

/-- A share is signed with the operator's number; three make a signature with the key `0`. A signing
root is the domain. -/
@[reducible]
def committeeLibrary : CommitteeSpec where
  PublicKey := UInt8
  Sign := Bytes
  ID := ℕ
  deserializeBLSPublicKey b := match b with
    | [key] => .ok key
    | _ => .error { text := "not a key" }
  deserialize b := if b.length = 96 then .ok b else .error { text := "not a signature" }
  serialize := id
  verifyByte sig key _ := decide (sig = signatureOf key)
  setDecString := .ok
  recover sigs ids :=
    if sigs = ids.map (fun op ↦ signatureOf (UInt8.ofNat op)) ∧
      3 ≤ ids.length then .ok (signatureOf 0)
    else .error { text := "cannot recover" }
  length_of_deserialize h := by
    rename_i b _
    by_cases hb : b.length = 96
    · exact hb
    · simp [hb] at h
  validatePartialSignatureMessages _ := .ok ()
  decodeBeaconVote _ := .ok ⟨0, ⟨0, 0⟩, ⟨1, 0⟩⟩
  validateBeaconVote _ := .ok ()
  decodeGloasBeaconVote _ := .error { text := "not a vote" }
  validateGloasBeaconVote _ := .ok ()
  computeETHSigningRoot _ domain := match domain with
    | [d] => .ok (BitVec.ofNat 256 d.toNat)
    | _ => .error { text := "not a domain" }
  VersionedAttestation := ReferenceAttestation
  attestationValidatorIndex att := some att.validatorIndex
  attestationDataOf att := .ok att.data
  attestationSignature att := att.signature
  constructVersionedAttestationWithoutSignature data _ duty := .ok ⟨duty.validatorIndex, data, []⟩
  versionedAttestationWithSignature att signature := .ok { att with signature := signature }
  domain_of_signingRoot {o o' d d' root} h h' := by
    rcases d with - | ⟨x, - | ⟨y, d⟩⟩ <;> rcases d' with - | ⟨x', - | ⟨y', d'⟩⟩ <;>
      simp only [reduceCtorEq, Except.ok.injEq] at h h'
    rw [eq_of_ofNat_toNat (h.trans h'.symm)]
  withSignature_of_construct signature h := by
    cases h
    exact ⟨_, rfl, rfl, rfl, rfl⟩

local instance postConsensusLibrary : CommitteeSpec := committeeLibrary

/-- A beacon node that accepts everything. -/
def committeeEnv : CommitteeEnv where
  net := Validation.Reference.network
  forkAtEpoch _ := 6
  validDuty _ _ _ := .ok ()
  domainData _ t := .ok [match t with
    | .attester => 1
    | .syncCommittee => 7
    | .aggregateAndProof => 6
    | .contributionAndProof => 9]
  submitAttestations _ := .ok ()
  submitSyncMessages _ := .ok ()
  type_of_domainData {e e' t t' d} h h' := by
    cases t <;> cases t' <;> first | rfl | exact absurd (h.trans h'.symm) (by simp)

/-- The share of validator `7`, of four operators. -/
def committeeShare : Share where
  validatorIndex := 7
  validatorPubKey := [0]
  committee := [⟨[1], 1⟩, ⟨[2], 2⟩, ⟨[3], 3⟩, ⟨[4], 4⟩]

def committeeShares : ShareMap := ⟨[committeeShare], by decide⟩

/-- Every map is gone through in the order it is stored in. -/
def storedOrder : Schedule := ⟨.stored, .stored, fun _ ↦ .stored, .stored, .stored⟩

/-- The packet of an operator with a share for the attestation of validator `7`. -/
def sharePacket (op : OperatorID) (key : UInt8) : PartialSignatureMessages where
  type := .postConsensus
  slot := 33
  messages := [⟨signatureOf key, 1, op, 7⟩]

/-- Operator `4` signs with a wrong key, and is first. -/
def garbledFirst : List (Schedule × PartialSignatureMessages) :=
  [(storedOrder, sharePacket 4 9), (storedOrder, sharePacket 1 1), (storedOrder, sharePacket 2 2),
    (storedOrder, sharePacket 3 3)]

def attesterDecided : PostConsensusRun :=
  ⟨decidedRunner committeeShares 3 ⟨33, [some ⟨.attester, [], 33, 7, 0⟩]⟩ (some (true, [1])) [1],
    [], []⟩

def garbledRun : PostConsensusRun :=
  garbledFirst.foldl (PostConsensusRun.next committeeEnv) attesterDecided

theorem eq_signatureOf_of_verifies {root : Root} {op : OperatorID} {signature : Bytes}
    (h : verifies committeeShare.committee root op signature) :
    ThresholdSpec.deserialize signature = .ok signature ∧
    signature = signatureOf (UInt8.ofNat op) := by
  obtain ⟨n, pk, sig, hn, hpk, hsig, hverify⟩ := exists_of_verifies h
  have hmem := List.mem_of_find?_eq_some hn
  have hfound := List.find?_some hn
  obtain rfl : n.signer = op := of_decide_eq_true hfound
  have hkey : pk = UInt8.ofNat n.signer := by
    simp only [committeeShare, List.mem_cons, List.not_mem_nil, or_false] at hmem
    rcases hmem with rfl | rfl | rfl | rfl <;> exact (Except.ok.inj hpk).symm
  have heq : sig = signature := by
    have hlength := ThresholdSpec.length_of_deserialize hsig
    simpa [ThresholdSpec.deserialize, hlength] using hsig.symm
  subst heq hkey
  exact ⟨hsig, of_decide_eq_true hverify⟩

theorem combines_committeeShares (v : ℕ) (share : Share) (root : Root)
    (h : committeeShares.get v = some share) : Combines 3 share root := by
  obtain rfl : share = committeeShare := by
    have := List.mem_of_find?_eq_some h
    simpa [committeeShares] using this
  intro sigs _ hverified hlength
  refine ⟨signatureOf 0, ?_, rfl⟩
  have hvecs : (sigs.map id).mapM (fun e ↦ (do
      let blsID ← ThresholdSpec.setDecString e.1
      let blsSig ← ThresholdSpec.deserialize e.2
      return (blsSig, blsID) : Except Err (Bytes × ℕ))) = .ok (sigs.map fun e ↦ (e.2, e.1)) := by
    refine Checks.mapM_map_eq_ok fun e he ↦ ?_
    simp only [id_eq, (eq_signatureOf_of_verifies (hverified e he)).1]
    rfl
  rw [List.map_id] at hvecs
  have hsigs : sigs.map (·.2) = sigs.map fun e ↦ signatureOf (UInt8.ofNat e.1) :=
    List.map_congr_left fun e he ↦ (eq_signatureOf_of_verifies (hverified e he)).2
  unfold reconstructSignatures
  rw [hvecs]
  exact if_pos ⟨by simpa [Function.comp_def] using hsigs, by simpa using hlength⟩

/-- The garbled share is in the first quorum; the attestation is submitted all the same. -/
theorem submitted_of_valid_quorum_garbledFirst :
    ∃ share signature, committeeShares.get 7 = some share ∧ ValidatorSignature share 1 signature ∧
      HandedOver committeeEnv garbledRun.handed .attester 7 1 signature := by
  have hstart : (PostConsensusRun.machine committeeEnv committeeShares 3).Reachable
      attesterDecided :=
    .initial ⟨_, _, _, rfl⟩
  have henables : (PostConsensusRun.machine committeeEnv committeeShares 3).Enables attesterDecided
      garbledFirst := ⟨trivial, trivial, trivial, trivial, trivial⟩
  have hrun : (PostConsensusRun.machine committeeEnv committeeShares 3).Reachable garbledRun :=
    hstart.foldl henables
  have hstate : garbledRun.runner.state.isSome := by decide +kernel
  obtain ⟨s, hs⟩ := Option.isSome_iff_exists.1 hstate
  have hexpected : (garbledRun.runner.state.bind fun s ↦
      (expectedPostConsensusRootsAndBeaconObjects committeeEnv s).toOption.bind
        (·.rootOf .attester 7)) = some 1 := by
    decide +kernel
  rw [hs, Option.bind_some, Option.bind_eq_some_iff] at hexpected
  obtain ⟨e, he, hroot⟩ := hexpected
  refine PostConsensusRun.submitted_of_valid_quorum committeeEnv ⟨fun _ ↦ rfl, fun _ ↦ rfl⟩
    committeeShares 3 (by decide) combines_committeeShares garbledRun hrun s hs e
    (by
      rcases hresult : expectedPostConsensusRootsAndBeaconObjects committeeEnv s with err | e'
      · rw [hresult] at he
        cases he
      · rw [hresult] at he
        exact congrArg Except.ok (Option.some.inj he))
    .attester 7 1 hroot [1, 2, 3] (by decide) (by decide) ?_
  decide +kernel

end Ssv.Reference
