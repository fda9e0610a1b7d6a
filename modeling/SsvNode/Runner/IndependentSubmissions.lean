import SsvNode.Runner.PostConsensusCompleteness

/-!
# What a packet completes, and what is submitted

Attestations are submitted first. Where the beacon node refuses them, `ProcessPostConsensus`
returns, and the sync committee messages that the same packet completed are **not submitted at
all**, as their quorum is never reached a second time (`packet_submissions`).
-/

namespace Ssv

variable [CommitteeSpec] {env : CommitteeEnv} {r : CommitteeRunner} {sched : Schedule}
  {e : ExpectedObjects}

open CommitteeSpec Validation

/-! ### One packet -/

/-- The signatures that are reconstructed while a packet is processed. -/
def packetReconstructs (env : CommitteeEnv) (sched : Schedule) (r : CommitteeRunner)
    (packet : PartialSignatureMessages) : List Reconstructed :=
  match r.state, validatePostConsensusMsg env sched.shares r packet with
  | some s, .ok () =>
    let stored := basePartialSigMsgProcessing r.share packet.messages s.postConsensusContainer
    match expectedPostConsensusRootsAndBeaconObjects env
      { s with postConsensusContainer := stored.1 } with
    | .ok e => reconstructedIn (r.setContainer stored.1) sched e (stored.1, Collected.empty)
        (sched.roots.iterate stored.2)
    | .error _ => []
  | _, _ => []

/-- The submissions of attestations end with `a`, those of sync committee messages with `b`. -/
def CommitteeEnv.answering (env : CommitteeEnv) (a b : Except Err Unit) : CommitteeEnv :=
  { env with submitAttestations := fun _ ↦ a, submitSyncMessages := fun _ ↦ b }

section

variable {col : Collected} {a b : Except Err Unit}

theorem role_of_mem_reconstructedIn {roots : List Root} {acc : PartialSigContainer × Collected}
    {x : Reconstructed} (h : x ∈ reconstructedIn r sched e acc roots) :
    x.role = .attester ∨ x.role = .syncCommittee := by
  have hroot := (mem_reconstructedIn h).1
  unfold ExpectedObjects.rootOf at hroot
  split at hroot
  · next hrole => exact .inl hrole
  · next hrole => exact .inr hrole
  · cases hroot

theorem processQuorumRoots_passes {roots : List Root} (hnodup : roots.Nodup)
    (ha : ∀ l, env.submitAttestations l = a) {s : CommitteeState} (hs : r.state = some s)
    (he : expectedPostConsensusRootsAndBeaconObjects env s = .ok e) :
    (processQuorumRoots env sched roots s).wp (fun _ calls _ ↦
      (∀ x ∈ reconstructedIn r sched e (s.postConsensusContainer, Collected.empty) roots,
        x.PassedIn env calls ↔
          x.role = .syncCommittee → a = .ok () ∨
            ∀ y ∈ reconstructedIn r sched e (s.postConsensusContainer, Collected.empty) roots,
              y.role ≠ .attester)) r := by
  refine Act.wp_mono (processQuorumRoots_spec hnodup ha hs he) ?_
  rintro r' calls - ⟨c, col, hprogress, h⟩
  have hattester : (∀ v, ¬ col.has .attester v) ↔
      ∀ y ∈ reconstructedIn r sched e (s.postConsensusContainer, Collected.empty) roots,
        y.role ≠ .attester := by
    constructor
    · exact fun hnone y hy hrole ↦ hnone y.validator
        ((hprogress.has_iff _ _).2 (.inr ⟨y, hy, hrole, rfl⟩))
    · intro hnone v hv
      obtain ⟨y, hy, hrole, -⟩ := ((hprogress.has_iff _ _).1 hv).resolve_left
        Collected.not_has_empty
      exact hnone y hy hrole
  intro x hx
  rw [← hattester]
  have hholds := hprogress.gained x hx
  rcases role_of_mem_reconstructedIn hx with hrole | hrole
  · refine iff_of_true (h.attestations x hrole hholds) fun hsync ↦ ?_
    rw [hrole] at hsync
    cases hsync
  · by_cases hgo : a = .ok () ∨ ∀ v, ¬ col.has .attester v
    · exact iff_of_true (h.syncMessages hgo x hrole hholds) fun _ ↦ hgo
    · refine iff_of_false (fun hpassed ↦ ?_) fun hall ↦ hgo (hall hrole)
      rw [Reconstructed.PassedIn, hrole] at hpassed
      obtain ⟨msgs, hcall, -⟩ := hpassed
      exact h.refused hgo msgs hcall

theorem processPostConsensus_passes (sched : Schedule) (r : CommitteeRunner)
    (ha : ∀ l, env.submitAttestations l = a) (packet : PartialSignatureMessages) :
    (processPostConsensus env sched packet).wp (fun _ calls _ ↦
      (∀ x ∈ packetReconstructs env sched r packet, x.PassedIn env calls ↔
        x.role = .syncCommittee → a = .ok () ∨
          ∀ y ∈ packetReconstructs env sched r packet, y.role ≠ .attester)) r := by
  have hnothing : ∀ calls : List BeaconCall, packetReconstructs env sched r packet = [] →
      ∀ x ∈ packetReconstructs env sched r packet, x.PassedIn env calls ↔
        x.role = .syncCommittee → a = .ok () ∨
          ∀ y ∈ packetReconstructs env sched r packet, y.role ≠ .attester := by
    intro calls h x hx
    rw [h] at hx
    cases hx
  rcases hvalid : validatePostConsensusMsg env sched.shares r packet with err | ⟨⟩
  · refine Act.wp_mono (processPostConsensus_rejected hvalid) fun r' calls _ _ ↦ hnothing calls ?_
    unfold packetReconstructs
    rw [hvalid]
    split
    · next h => cases h
    · rfl
  rcases hs : r.state with - | s
  · rw [validatePostConsensusMsg, hs] at hvalid
    cases hvalid
  have hnodup := nodup_basePartialSigMsgProcessing r.share packet.messages s.postConsensusContainer
  rcases hbase : basePartialSigMsgProcessing r.share packet.messages s.postConsensusContainer
    with ⟨c, roots⟩
  rw [hbase] at hnodup
  have hset : (r.setContainer c).state = some { s with postConsensusContainer := c } := by
    simp [CommitteeRunner.setContainer, hs]
  unfold packetReconstructs at hnothing ⊢
  simp only [hs, hvalid, hbase] at hnothing ⊢
  refine wp_processPostConsensus hs hvalid hbase (fun hnone ↦ hnothing _ ?_) ?_
  · have hempty : sched.roots.iterate roots = [] := by
      rw [hnone]
      exact List.perm_nil.1 (sched.roots.perm [])
    rw [hempty]
    split <;> rfl
  · rcases he : expectedPostConsensusRootsAndBeaconObjects env
      { s with postConsensusContainer := c } with err | e
    · unfold processQuorumRoots
      simp only [he] at hnothing ⊢
      exact hnothing _ trivial
    · exact processQuorumRoots_passes ((sched.roots.perm _).nodup_iff.2 hnodup) ha hset he

end

/-- **Which submissions depend on each other.** Every attestation the packet completes is passed on;
all that it completes is, exactly if the attestations are accepted or it completes no sync committee
message as well. -/
theorem packet_submissions (env : CommitteeEnv) (a b : Except Err Unit) (sched : Schedule)
    (r : CommitteeRunner) (packet : PartialSignatureMessages) :
    (∀ x ∈ packetReconstructs (env.answering a b) sched r packet, x.role = .attester →
        x.PassedIn (env.answering a b)
          ((processPostConsensus (env.answering a b) sched packet).run r).events) ∧
      ((∀ x ∈ packetReconstructs (env.answering a b) sched r packet,
          x.PassedIn (env.answering a b)
            ((processPostConsensus (env.answering a b) sched packet).run r).events) ↔
        a = .ok () ∨
          (∀ x ∈ packetReconstructs (env.answering a b) sched r packet, x.role ≠ .attester) ∨
          ∀ x ∈ packetReconstructs (env.answering a b) sched r packet,
            x.role ≠ .syncCommittee) := by
  have hanswer : ∀ l, (env.answering a b).submitAttestations l = a := fun _ ↦ rfl
  have hpasses := Act.wp_iff.1 (processPostConsensus_passes sched r hanswer packet)
  refine ⟨fun x hx hrole ↦ (hpasses x hx).2 fun h ↦ ?_, fun hall ↦ ?_, fun hcond x hx ↦ ?_⟩
  · rw [hrole] at h
    cases h
  · by_cases hsync : ∃ x ∈ packetReconstructs (env.answering a b) sched r packet,
        x.role = .syncCommittee
    · obtain ⟨x, hx, hrole⟩ := hsync
      exact ((hpasses x hx).1 (hall x hx) hrole).imp_right .inl
    · exact .inr (.inr fun x hx hrole ↦ hsync ⟨x, hx, hrole⟩)
  · refine (hpasses x hx).2 fun hrole ↦ ?_
    rcases hcond with h | h | h
    · exact .inl h
    · exact .inr h
    · exact absurd hrole (h x hx)

end Ssv

/-! ### A refused submission -/

namespace Ssv.Reference

local instance submissionLibrary : CommitteeSpec := committeeLibrary

/-- The packet of an operator with its shares for both duties of validator `7`. -/
def bothShares (op : OperatorID) : Validation.PartialSignatureMessages where
  type := .postConsensus
  slot := 33
  messages := [⟨signatureOf (UInt8.ofNat op), 1, op, 7⟩, ⟨signatureOf (UInt8.ofNat op), 7, op, 7⟩]

/-- Validator `7` has both duties, and two of three shares are there. -/
def twoSharesStored : CommitteeRunner :=
  ([1, 2].foldl (fun run op ↦ PostConsensusRun.next committeeEnv run (storedOrder, bothShares op))
    ⟨decidedRunner committeeShares 3
      ⟨33, [some ⟨.attester, [], 33, 7, 0⟩, some ⟨.syncCommittee, [], 33, 7, 0⟩]⟩
        (some (true, [1])) [1],
      [], []⟩).runner

def refusingEnv : CommitteeEnv := committeeEnv.answering (.error { text := "unavailable" }) (.ok ())

/-- **The sync committee message is lost with the attestation** that the node refuses. -/
theorem syncMessage_not_passed_twoSharesStored :
    (⟨.syncCommittee, 7, 7, signatureOf 0⟩ : Reconstructed) ∈
        packetReconstructs refusingEnv storedOrder twoSharesStored (bothShares 3) ∧
      ¬ (⟨.syncCommittee, 7, 7, signatureOf 0⟩ : Reconstructed).PassedIn refusingEnv
        ((processPostConsensus refusingEnv storedOrder (bothShares 3)).run
          twoSharesStored).events := by
  refine ⟨by decide +kernel, ?_⟩
  have hcalls : (((processPostConsensus refusingEnv storedOrder (bothShares 3)).run
      twoSharesStored).events.all fun call ↦ call matches .submitAttestations _) = true := by
    decide +kernel
  rintro ⟨msgs, hcall, -⟩
  have := List.all_eq_true.1 hcalls _ hcall
  cases this

end Ssv.Reference
