import SsvNode.Exporter.Eviction

/-!
# Late signatures

A late packet meets a trace without its derived roots. Every signature of it waits for a proposal,
and what waits is not stored: wherever the evictions save the duty at all, a packet that is stored
on time is **never** stored late (`late_ne_onTime`).
-/

namespace Ssv.Exporter

open List Option

open Validation (PartialSigMsgType PartialSignatureMessages)

variable {γ δ : Type}

/-- The root is one of those derived from the proposal. -/
def DerivedRoots.Derives (root : Root) : DerivedRoots → Prop
  | committee syncRoot attRoot => root = syncRoot ∨ root = attRoot
  | aggregatorCommittee rolesByRoot => root ∈ rolesByRoot

/-- The signer entries of a trace, without their times. -/
def CommitteeDutyTrace.signerEntries (duty : CommitteeDutyTrace γ) :
    List (OperatorID × List ℕ) × List (OperatorID × List ℕ) :=
  (duty.attester.map fun s ↦ (s.signer, s.validatorIdx),
    duty.syncCommittee.map fun s ↦ (s.signer, s.validatorIdx))

namespace CommitteeTrace

variable {t : CommitteeTrace γ} {root : Root} {msg : PartialSignatureMessages} {receivedAt : ℕ}
  {operators : List OperatorID} {order : MapOrder ((_ : Root × OperatorID × ℕ) × List ℕ)}

def count (t : CommitteeTrace γ) : ℕ := t.attester.length + t.syncCommittee.length

theorem count_append {sync : Bool} {data : SignerData} :
    (t.append sync data).count = t.count + if data.validatorIdx = [] then 0 else 1 := by
  unfold append count
  split
  · rfl
  · cases sync
    · simp
      omega
    · simp
      omega

theorem classify_append {sync : Bool} {data : SignerData} :
    (t.append sync data).classifyRootForPending root = t.classifyRootForPending root := by
  unfold append
  split
  · rfl
  · cases sync <;> rfl

theorem classify_foldl_append {t' : CommitteeTrace γ}
    (l : List ((_ : Root × OperatorID × ℕ) × List ℕ)) :
    (l.foldl (fun t' e ↦ match t.classifyRootForPending e.1.1 with
      | some role => t'.append (inSyncBucket role) ⟨e.1.2.1, sortCompact e.2, e.1.2.2⟩
      | none => t') t').classifyRootForPending root = t'.classifyRootForPending root := by
  induction l generalizing t' with
  | nil => rfl
  | cons e l ih =>
    rw [foldl_cons, ih]
    split
    · exact classify_append
    · rfl

theorem classify_flushPending :
    (t.flushPending order).classifyRootForPending root = t.classifyRootForPending root :=
  classify_foldl_append _

theorem isSome_classify_processProposal {fullData : Bytes} {roots : DerivedRoots} {rounds : γ → γ}
    (h : roots.Derives root) :
    ((t.processProposal fullData (some roots) order rounds).classifyRootForPending
      root).isSome := by
  cases roots with
  | committee syncRoot attRoot =>
    refine Eq.trans (congrArg isSome classify_flushPending) ?_
    rcases h with rfl | rfl
    · simp [classifyRootForPending]
    · simp only [classifyRootForPending, map_some]
      split <;> simp
  | aggregatorCommittee rolesByRoot =>
    refine Eq.trans (congrArg isSome classify_flushPending) ?_
    unfold classifyRootForPending
    split
    · rfl
    · split
      · rfl
      · exact AList.lookup_isSome.2 h

theorem count_foldl_addPending {l : List Validation.PartialSignatureMessage} {signer : OperatorID} :
    (l.foldl (fun t m ↦ t.addPending m.signingRoot signer m.validatorIndex receivedAt) t).count =
      t.count := by
  induction l generalizing t with
  | nil => rfl
  | cons m l ih => exact ih

/-- **A packet adds no entries** exactly if none of its signatures is classified. -/
theorem count_processPartialSigCommittee (hpost : msg.type = .postConsensus) :
    (t.processPartialSigCommittee receivedAt msg operators none).count = t.count ↔
      ∀ m ∈ msg.messages, t.classifyRootForPending m.signingRoot = none := by
  have hnil : ∀ l, sortCompact l = [] ↔ l = [] := by
    intro l
    rw [sortCompact, ← length_eq_zero_iff, length_insertionSort, length_eq_zero_iff, dedup_eq_nil]
  unfold processPartialSigCommittee
  simp only [count_append, count_foldl_addPending, hpost, hnil, map_eq_nil_iff,
    filter_eq_nil_iff, decide_eq_true_eq, bucket]
  show t.count + (if ∀ m ∈ msg.messages,
      ¬(t.classifyRootForPending m.signingRoot).map inSyncBucket = some true then 0 else 1) +
    (if ∀ m ∈ msg.messages,
      ¬(t.classifyRootForPending m.signingRoot).map inSyncBucket = some false then 0 else 1) =
        t.count ↔ _
  constructor
  · intro h m hm
    split_ifs at h with hsync hatt
    · cases hrole : t.classifyRootForPending m.signingRoot with
      | none => rfl
      | some role =>
        cases hbucket : inSyncBucket role with
        | true => exact absurd (by simp [hrole, hbucket]) (hsync m hm)
        | false => exact absurd (by simp [hrole, hbucket]) (hatt m hm)
    all_goals omega
  · intro h
    rw [if_pos fun m hm ↦ by simp [h m hm], if_pos fun m hm ↦ by simp [h m hm]]
    rfl

end CommitteeTrace

/-- What is saved late is found, unless it cannot be saved. -/
theorem DutyTraceStore.getCommitteeDuty_saveCommitteeDuty [Marshals γ]
    (store : DutyTraceStore γ δ) (slot : ℕ) (key : CommitteeTraceKey)
    (duty : CommitteeDutyTrace γ) :
    (store.saveCommitteeDuty slot key duty).getCommitteeDuty slot key = some duty ∨
      (store.saveCommitteeDuty slot key duty).getCommitteeDuty slot key =
        store.getCommitteeDuty slot key := by
  unfold saveCommitteeDuty saveCommitteeDuties
  split
  · split
    · exact .inl (AList.lookup_insert _)
    · exact .inr rfl
  · exact .inr rfl

namespace Collector

variable [Inhabited γ] [Marshals γ] [Marshals δ]

/-- **A packet is stored on time or not at all.** A packet over a root of an on-time proposal leaves
other signer entries before the eviction of its slot than after it, if the eviction saves the duty.
-/
theorem late_ne_onTime (c : Collector γ δ) (key : CommitteeTraceKey) (slot : ℕ)
    (hontime : c.lastEvictedSlot < slot) (fullData : Bytes) (roots : DerivedRoots)
    (order : MapOrder ((_ : Root × OperatorID × ℕ) × List ℕ)) (rounds : γ → γ)
    (msg : PartialSignatureMessages) (hpost : msg.type = .postConsensus)
    (hroots : ∃ m ∈ msg.messages, roots.Derives m.signingRoot) (operators : List OperatorID)
    (receivedAt lateAt : ℕ) (dutyOrder : DutyOrder δ) :
    let proposed := c.collectCommittee key slot
      (·.processProposal fullData (some roots) order rounds)
    let packet (receivedAt : ℕ) (t : CommitteeTrace γ) :=
      t.processPartialSigCommittee receivedAt msg operators none
    let signed := proposed.collectCommittee key slot (packet receivedAt)
    let onTime := signed.evict (slot + slotTTL) dutyOrder
    let late := (proposed.evict (slot + slotTTL) dutyOrder).collectCommittee key slot
      (packet lateAt)
    proposed.SavesBatch slot key → signed.SavesBatch slot key →
      (onTime.store.getCommitteeDuty slot key).map (·.signerEntries) ≠
        (late.store.getCommitteeDuty slot key).map (·.signerEntries) := by
  intro proposed packet signed onTime late hsaves hsaves'
  have hthreshold : threshold (slot + slotTTL) = slot := by
    unfold threshold
    split <;> omega
  have hnotLate : ¬slot ≤ c.lastEvictedSlot := Nat.not_le.2 hontime
  -- the trace after the proposal, and what is left of it in the store
  let trace : CommitteeTrace γ := ((c.committeeTraces.lookup (key, slot)).getD
    { consensusTrace := default }).processProposal fullData (some roots) order rounds
  let reloaded : CommitteeTrace γ := { toCommitteeDutyTrace := trace.toCommitteeDutyTrace }
  have hproposed : proposed =
      { c with committeeTraces := c.committeeTraces.insert (key, slot) trace } := if_neg hnotLate
  have hsigned : signed.committeeTraces.lookup (key, slot) = some (packet receivedAt trace) := by
    simp [signed, hproposed, collectCommittee, hnotLate]
  have hstored : onTime.store.getCommitteeDuty slot key =
      some (packet receivedAt trace).toCommitteeDutyTrace := by
    have hsaved := getCommitteeDuty_evict_of_saves dutyOrder (hthreshold.symm ▸ hsaves')
    rwa [hthreshold, hsigned] at hsaved
  have hevicted : (proposed.evict (slot + slotTTL) dutyOrder).store.getCommitteeDuty slot key =
      some trace.toCommitteeDutyTrace := by
    have hsaved := getCommitteeDuty_evict_of_saves dutyOrder (hthreshold.symm ▸ hsaves)
    rw [hthreshold] at hsaved
    simpa [hproposed] using hsaved
  -- the late packet adds no entry, whether the trace can be saved again or not
  have hnone : (packet lateAt reloaded).count = reloaded.count :=
    (CommitteeTrace.count_processPartialSigCommittee hpost).2 fun m _ ↦ rfl
  have hlate : ∃ duty, late.store.getCommitteeDuty slot key = some duty ∧
      duty.attester.length + duty.syncCommittee.length = reloaded.count := by
    have hcollect : late.store = (proposed.evict (slot + slotTTL) dutyOrder).store.saveCommitteeDuty
        slot key (packet lateAt reloaded).toCommitteeDutyTrace := by
      have hlastEvicted : slot ≤ (proposed.evict (slot + slotTTL) dutyOrder).lastEvictedSlot :=
        hthreshold.ge
      simp only [late, collectCommittee, if_pos hlastEvicted, hevicted, Option.getD_some]
      rfl
    rw [hcollect]
    rcases DutyTraceStore.getCommitteeDuty_saveCommitteeDuty _ slot key
      (packet lateAt reloaded).toCommitteeDutyTrace with h | h
    · exact ⟨_, h, hnone⟩
    · exact ⟨_, h.trans hevicted, rfl⟩
  obtain ⟨duty, hlate, hentries⟩ := hlate
  rw [hstored, hlate, Option.map_some, Option.map_some, Ne, Option.some.injEq]
  intro hsame
  have hcount : (packet receivedAt trace).count = reloaded.count := by
    obtain ⟨hatt, hsync⟩ := Prod.mk.inj hsame
    have hatt := congrArg List.length hatt
    have hsync := congrArg List.length hsync
    rw [List.length_map, List.length_map] at hatt hsync
    exact (congrArg₂ (· + ·) hatt hsync).trans hentries
  obtain ⟨m, hm, hroot⟩ := hroots
  have hunclassified : trace.classifyRootForPending m.signingRoot = none :=
    (CommitteeTrace.count_processPartialSigCommittee hpost).1 hcount m hm
  have hclassified : (trace.classifyRootForPending m.signingRoot).isSome :=
    CommitteeTrace.isSome_classify_processProposal hroot
  rw [hunclassified] at hclassified
  cases hclassified

namespace Reference

def committeeKey : CommitteeTraceKey := ⟨[], .committee⟩

/-- A packet of operator three over the root one, for validator five. -/
def packet : PartialSignatureMessages := ⟨.postConsensus, 7, [⟨[], 1, 3, 5⟩]⟩

/-- A proposal for slot seven from which the attestation root one is derived. -/
def proposed : Collector Unit Unit :=
  ({} : Collector Unit Unit).collectCommittee committeeKey 7
    (·.processProposal [] (some (.committee 2 1)) .stored id)

/-- The proposal and the packet. -/
def packetOnTime : Collector Unit Unit :=
  proposed.collectCommittee committeeKey 7 (·.processPartialSigCommittee 0 packet [] none)

/-- The packet after the eviction of its slot. -/
def packetLate : Collector Unit Unit :=
  (proposed.evict 11 .stored).collectCommittee committeeKey 7
    (·.processPartialSigCommittee 1 packet [] none)

/-- The packet is stored before the eviction of its slot, and not after it. -/
theorem late_packet_lost :
    ((packetOnTime.evict 11 .stored).store.getCommitteeDuty 7 committeeKey).map (·.signerEntries) =
      some ([(3, [5])], []) ∧
    (packetLate.store.getCommitteeDuty 7 committeeKey).map (·.signerEntries) = some ([], []) := by
  decide +kernel

theorem late_ne_onTime_packet :
    ((packetOnTime.evict 11 .stored).store.getCommitteeDuty 7 committeeKey).map (·.signerEntries) ≠
      (packetLate.store.getCommitteeDuty 7 committeeKey).map (·.signerEntries) :=
  late_ne_onTime {} committeeKey 7 (by decide) [] (.committee 2 1) .stored id packet rfl
    ⟨_, .head _, .inr rfl⟩ [] 0 1 .stored ⟨by decide, by decide +kernel⟩
      ⟨by decide, by decide +kernel⟩

end Reference

end Collector

end Ssv.Exporter
