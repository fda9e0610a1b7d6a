import SsvNode.Runner.DecidedMessage

/-!
# The aggregate of a quorum of commits

`aggregateCommitMsgs` folds `Aggregate` over the stored commits, attaches the proposed value and
sorts signers and signatures together. `AggregationSpec` says what `ssv-spec` does on the way. A
signed message is read as its list of **pairs** of signer and signature, which are concatenated,
permuted and verified one by one (`Aggregates`).
-/

namespace Ssv

open SsvSpec Checks List

def SignedSSVMessage.pairs (sm : SignedSSVMessage) : List (OperatorID × Bytes) :=
  sm.operatorIDs.zip sm.signatures

/-- `agg` has the signers of the messages in order, each with its signature. -/
structure SignedSSVMessage.Aggregates (msgs : List ProcessingMessage) (agg : SignedSSVMessage) :
    Prop where
  sorted : agg.operatorIDs.Pairwise (· < ·)
  length : agg.signatures.length = agg.operatorIDs.length
  signers : agg.operatorIDs.Perm (msgs.flatMap (·.signedMessage.operatorIDs))
  pairs : agg.pairs.Perm (msgs.flatMap (·.signedMessage.pairs))

namespace Instance

/-! ### Sorting -/

theorem pairs_sortBySigner_perm (sm : SignedSSVMessage) :
    (sortBySigner sm).pairs.Perm sm.pairs := by
  have hpairs : (sortBySigner sm).pairs = sm.pairs.mergeSort fun p q ↦ decide (p.1 ≤ q.1) :=
    (zip_of_prod rfl rfl).symm
  rw [hpairs]
  exact mergeSort_perm _ _

/-- The signers are a list's first components again, so no signer is lost. -/
theorem operatorIDs_sortBySigner_perm {sm : SignedSSVMessage}
    (h : sm.signatures.length = sm.operatorIDs.length) :
    (sortBySigner sm).operatorIDs.Perm sm.operatorIDs := by
  have hfst := (mergeSort_perm sm.pairs fun p q ↦ decide (p.1 ≤ q.1)).map Prod.fst
  rwa [SignedSSVMessage.pairs, map_fst_zip h.ge] at hfst

theorem sortBySigner_sorted {sm : SignedSSVMessage}
    (h : sm.signatures.length = sm.operatorIDs.length) (hnodup : sm.operatorIDs.Nodup) :
    (sortBySigner sm).operatorIDs.Pairwise (· < ·) := by
  have hle : (sortBySigner sm).operatorIDs.Pairwise (· ≤ ·) := by
    refine List.Pairwise.map _ (fun p q hpq ↦ of_decide_eq_true hpq)
      (pairwise_mergeSort (fun p q r hpq hqr ↦ ?_) (fun p q ↦ ?_) sm.pairs)
    · exact decide_eq_true ((of_decide_eq_true hpq).trans (of_decide_eq_true hqr))
    · simpa using le_total p.1 q.1
  have hne := (operatorIDs_sortBySigner_perm h).nodup_iff.2 hnodup
  exact (hle.and hne).imp fun ⟨hle, hne⟩ ↦ lt_of_le_of_ne hle hne

/-! ### Putting messages together -/

/-- The messages `msgs`, put together in their order. -/
def combined (body : SSVMessage) (msgs : List ProcessingMessage) (fullData : Data) :
    SignedSSVMessage where
  signatures := msgs.flatMap (·.signedMessage.signatures)
  operatorIDs := msgs.flatMap (·.signedMessage.operatorIDs)
  ssvMessage := body
  fullData := fullData

theorem pairs_combined {body : SSVMessage} {msgs : List ProcessingMessage} {fullData : Data}
    (h : ∀ m ∈ msgs, m.signedMessage.signatures.length = m.signedMessage.operatorIDs.length) :
    (combined body msgs fullData).pairs = msgs.flatMap (·.signedMessage.pairs) := by
  induction msgs with
  | nil => rfl
  | cons m msgs ih =>
    have hrest := ih fun x hx ↦ h x (.tail _ hx)
    simp only [combined, SignedSSVMessage.pairs, flatMap_cons] at hrest ⊢
    rw [zip_append (h m mem_cons_self).symm, hrest]

end Instance

/-! ### Aggregating -/

/-- What `ssv-spec` does when commits are aggregated, and checks of the aggregate. -/
class AggregationSpec extends RunnerSpec where
  /-- A signature verifies under the key the operators have for the signer. -/
  verifies : List Operator → SSVMessage → OperatorID → Bytes → Prop
  /-- The longest set of signers is that of the messages that go with it. -/
  signers_longestUniqueSigners {c : MsgContainer} {r : ℕ} {root : Root} :
    (longestUniqueSignersForRoundAndRoot c r root).1 =
      (longestUniqueSignersForRoundAndRoot c r root).2.flatMap (·.signedMessage.operatorIDs)
  /-- Those messages have the root. -/
  root_of_mem_longestUniqueSigners {c : MsgContainer} {r : ℕ} {root : Root}
    {m : ProcessingMessage} :
    m ∈ (longestUniqueSignersForRoundAndRoot c r root).2 → m.qbftMessage.root = root
  /-- `Aggregate` appends the signers and signatures of the same message by others. -/
  aggregate_append {sm sm' : SignedSSVMessage} :
    sm'.ssvMessage = sm.ssvMessage → (sm.operatorIDs ++ sm'.operatorIDs).Nodup →
      aggregate sm sm' = .ok { sm with
        operatorIDs := sm.operatorIDs ++ sm'.operatorIDs
        signatures := sm.signatures ++ sm'.signatures }
  /-- As many signatures as signers; none is empty, none of them zero or repeated. -/
  validate_of_signers {sm sm' : SignedSSVMessage} {m : Message} :
    validate ⟨sm, m⟩ = .ok () → sm'.ssvMessage = sm.ssvMessage → sm'.operatorIDs ≠ [] →
      sm'.operatorIDs.Nodup → 0 ∉ sm'.operatorIDs →
      sm'.signatures.length = sm'.operatorIDs.length → (∀ sig ∈ sm'.signatures, sig ≠ []) →
      validate ⟨sm', m⟩ = .ok ()
  /-- `Verify` asks each pair alone. -/
  verify_iff {sm : SignedSSVMessage} {ops : List Operator} :
    sm.signatures.length = sm.operatorIDs.length →
      (verify sm ops = .ok () ↔ ∀ p ∈ sm.pairs, verifies ops sm.ssvMessage p.1 p.2)

variable [AggregationSpec]

/-- A signed copy of `body`: every signer has one valid signature, of 256 bytes. -/
structure SignedSSVMessage.SignedCopy (ops : List Operator) (body : SSVMessage)
    (sm : SignedSSVMessage) : Prop where
  ssvMessage : sm.ssvMessage = body
  length : sm.signatures.length = sm.operatorIDs.length
  size : ∀ sig ∈ sm.signatures, sig.length = 256
  verified : verify sm ops = .ok ()

namespace Instance

theorem foldlM_aggregate {body : SSVMessage} {rest : List ProcessingMessage}
    {acc : SignedSSVMessage} (hacc : acc.ssvMessage = body)
    (hrest : ∀ m ∈ rest, m.signedMessage.ssvMessage = body)
    (hnodup : (acc.operatorIDs ++ rest.flatMap (·.signedMessage.operatorIDs)).Nodup) :
    rest.foldlM (fun acc m ↦ (aggregate acc m.signedMessage).mapError
        (Err.wrap "could not aggregate commit msg")) acc =
      .ok { acc with
        operatorIDs := acc.operatorIDs ++ rest.flatMap (·.signedMessage.operatorIDs)
        signatures := acc.signatures ++ rest.flatMap (·.signedMessage.signatures) } := by
  induction rest generalizing acc with
  | nil => simp [pure, Except.pure]
  | cons m rest ih =>
    rw [flatMap_cons, ← append_assoc] at hnodup
    have hm := AggregationSpec.aggregate_append
      ((hrest m (.head _)).trans hacc.symm) (List.Nodup.of_append_left hnodup)
    rw [foldlM_cons, hm]
    refine (@ih { acc with
      operatorIDs := acc.operatorIDs ++ m.signedMessage.operatorIDs
      signatures := acc.signatures ++ m.signedMessage.signatures } hacc
      (fun x hx ↦ hrest x (.tail _ hx)) hnodup).trans ?_
    simp only [flatMap_cons, append_assoc]

theorem aggregateCommitMsgs_eq {body : SSVMessage} {msgs : List ProcessingMessage} (fullData : Data)
    (hne : msgs ≠ []) (hbody : ∀ m ∈ msgs, m.signedMessage.ssvMessage = body)
    (hnodup : (msgs.flatMap (·.signedMessage.operatorIDs)).Nodup) :
    aggregateCommitMsgs msgs fullData = .ok (sortBySigner (combined body msgs fullData)) := by
  cases msgs with
  | nil => exact absurd rfl hne
  | cons first =>
    have hfirst := hbody first (.head _)
    rw [flatMap_cons] at hnodup
    have hfold := foldlM_aggregate hfirst (fun m hm ↦ hbody m (.tail _ hm)) hnodup
    rw [aggregateCommitMsgs, hfold]
    simp [bind, Except.bind, pure, Except.pure, combined, hfirst]

/-! ### The aggregate -/

variable {ops : List Operator} {body : SSVMessage} {msgs : List ProcessingMessage} {fullData : Data}
  {agg : SignedSSVMessage}

theorem aggregates_of_aggregateCommitMsgs
    (hcopies : ∀ m ∈ msgs, m.signedMessage.SignedCopy ops body)
    (hnodup : (msgs.flatMap (·.signedMessage.operatorIDs)).Nodup)
    (h : aggregateCommitMsgs msgs fullData = .ok agg) :
    agg.Aggregates msgs ∧ agg.ssvMessage = body ∧ agg.fullData = fullData := by
  have hne : msgs ≠ [] := by
    rintro rfl
    cases h
  rw [aggregateCommitMsgs_eq fullData hne (fun m hm ↦ (hcopies m hm).ssvMessage) hnodup] at h
  cases h
  have heach := fun m hm ↦ (hcopies m hm).length
  have hlength : (combined body msgs fullData).signatures.length =
      (combined body msgs fullData).operatorIDs.length := by
    simp only [combined, length_flatMap]
    exact congrArg sum (map_congr_left heach)
  refine ⟨⟨?_, ?_, ?_, ?_⟩, rfl, rfl⟩
  · exact sortBySigner_sorted hlength hnodup
  · simp [sortBySigner]
  · exact operatorIDs_sortBySigner_perm hlength
  · rw [← pairs_combined heach]
    exact pairs_sortBySigner_perm _

theorem signedCopy_of_aggregates (hcopies : ∀ m ∈ msgs, m.signedMessage.SignedCopy ops body)
    (hagg : agg.Aggregates msgs) (hbody : agg.ssvMessage = body) : agg.SignedCopy ops body where
  ssvMessage := hbody
  length := hagg.length
  size sig hsig := by
    have hsnd : agg.pairs.map Prod.snd = agg.signatures := map_snd_zip hagg.length.le
    rw [← hsnd] at hsig
    obtain ⟨p, hp, rfl⟩ := mem_map.1 hsig
    obtain ⟨m, hm, hpm⟩ := mem_flatMap.1 (hagg.pairs.mem_iff.1 hp)
    exact (hcopies m hm).size _ (of_mem_zip hpm).2
  verified := by
    refine (AggregationSpec.verify_iff hagg.length).2 fun p hp ↦ ?_
    obtain ⟨m, hm, hpm⟩ := mem_flatMap.1 (hagg.pairs.mem_iff.1 hp)
    have hcopy := hcopies m hm
    have hverifies := (AggregationSpec.verify_iff hcopy.length).1 hcopy.verified p hpm
    rwa [hcopy.ssvMessage, ← hbody] at hverifies

end Instance

/-- A controller takes a commit with the signatures of a quorum for a decided message. -/
theorem Controller.validateDecided_of_signedCopy {c : Controller} {sm agg : SignedSSVMessage}
    {m : Message} (hvalid : validate ⟨sm, m⟩ = .ok ()) (htype : m.msgType = .commit)
    (hcopy : agg.SignedCopy c.committeeMember.committee sm.ssvMessage)
    (hnodup : agg.operatorIDs.Nodup) (hzero : 0 ∉ agg.operatorIDs)
    (hmembers : checkSignersInCommittee agg c.committeeMember.committee = true)
    (hquorum : 2 * c.committeeMember.faultyNodes + 1 ≤ agg.operatorIDs.length)
    (hroot : hashDataRoot agg.fullData = m.root) : c.validateDecided ⟨agg, m⟩ = .ok () := by
  have hne : agg.operatorIDs ≠ [] := by
    rintro heq
    simp [heq] at hquorum
  have hsigs : ∀ sig ∈ agg.signatures, sig ≠ [] := by
    rintro sig hsig rfl
    exact absurd (hcopy.size _ hsig) (by decide)
  have hvalidated : validate ⟨agg, m⟩ = .ok () :=
    AggregationSpec.validate_of_signers hvalid hcopy.ssvMessage hne hnodup hzero hcopy.length hsigs
  simp only [validateDecided, bind_eq_ok, exists_check, mapError_eq_ok, require_eq_ok,
    Instance.validCommit_verified_iff]
  refine ⟨?_, ⟨⟨hvalidated, htype, rfl, hmembers⟩, hcopy.verified⟩, hroot⟩
  simp [isDecidedMsg, memberHasQuorum_iff, hquorum, htype]

end Ssv
