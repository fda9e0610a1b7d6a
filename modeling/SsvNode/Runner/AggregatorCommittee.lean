import Mathlib.Data.List.ReduceOption
import SsvNode.Runner.BaseRunner
import SsvNode.Spec.Duties
import SsvNode.Validation.ReferenceSpec

/-!
# The aggregator committee runner after consensus

`AggregatorCommitteeRunner.ProcessConsensus` signs one object for every aggregator and contributor
the decided value names and this operator serves, in one packet. Peers accept at most five entries
for a validator index, but `CheckValue` refuses a value that names a validator twice only **with the
same committee index** (`packet_limits_iff`).
-/

namespace Ssv

open Checks List

structure AssignedAggregator where
  validatorIndex : ℕ
  selectionProof : Bytes
  committeeIndex : ℕ
  deriving DecidableEq

structure AggregatorCommitteeConsensusData where
  version : ℕ
  aggregators : List AssignedAggregator
  aggregatorsCommitteeIndexes : List ℕ
  aggregatedAttestations : List Bytes
  contributors : List AssignedAggregator
  syncCommitteeSubnets : List ℕ
  syncCommitteeContributions : List Bytes
  deriving DecidableEq

structure AggregatorCommitteeDuty where
  slot : ℕ
  validatorDuties : List ValidatorDuty
  deriving DecidableEq

/-! ### Signing for a validator -/

/-- What `AggregatorCommitteeRunner` reads after consensus. -/
structure AggregatorCommitteeRunner where
  duty : AggregatorCommitteeDuty
  share : ℕ → Option Bytes
  operatorID : OperatorID
  domainData : ℕ → DomainType → Except Err Bytes
  /-- `SignBeaconObject`: the signature and the signing root. -/
  signBeaconObject : Root → Bytes → Bytes → ℕ → DomainType → Except Err (Bytes × Root)

namespace AggregatorCommitteeRunner

variable (r : AggregatorCommitteeRunner)

def findValidatorDuty (validatorIndex : ℕ) (role : BeaconRole) : Option ValidatorDuty :=
  r.duty.validatorDuties.find? fun d ↦ decide (d.validatorIndex = validatorIndex ∧ d.type = role)

def signAsValidator (validatorIndex : ℕ) (obj : Root) (slot : ℕ) (signatureDomain : DomainType)
    (domain : Bytes) : Except Err Validation.PartialSignatureMessage := do
  match r.share validatorIndex with
  | none => throw { text := "unknown validator index " ++ toString validatorIndex }
  | some sharePubKey => do
    let (sig, root) ← (r.signBeaconObject obj domain sharePubKey slot signatureDomain).mapError
      (.wrap "could not sign beacon object")
    return { partialSignature := sig, signingRoot := root, signer := r.operatorID,
             validatorIndex := validatorIndex }

def signDuty (duty : ValidatorDuty) (obj : Root) (slot : ℕ) (signatureDomain : DomainType) :
    Except Err Validation.PartialSignatureMessage := do
  let domain ← (r.domainData slot signatureDomain).mapError (.wrap "failed to fetch beacon domain")
  r.signAsValidator duty.validatorIndex obj slot signatureDomain domain

/-- The body of the two loops of `ProcessConsensus`. -/
def signEntry (role : BeaconRole) (signatureDomain : DomainType) (context : String)
    (validatorIndex : ℕ) (obj : Except Err Root) :
    Except Err (Option Validation.PartialSignatureMessage) :=
  match r.share validatorIndex, r.findValidatorDuty validatorIndex role with
  | none, _ => pure none
  | some _, none => pure none
  | some _, some vDuty => do
    let root ← obj
    let msg ← (r.signDuty vDuty root r.duty.slot signatureDomain).mapError (.wrap context)
    return some msg

/-- The operator signs for a validator in a role. -/
def signsFor (role : BeaconRole) (validatorIndex : ℕ) : Bool :=
  (r.share validatorIndex).isSome && (r.findValidatorDuty validatorIndex role).isSome

variable {r}

theorem signEntry_ok {role : BeaconRole} {signatureDomain : DomainType} {context : String} {v : ℕ}
    {obj : Except Err Root} {out : Option Validation.PartialSignatureMessage}
    (h : r.signEntry role signatureDomain context v obj = .ok out) :
    out.isSome = r.signsFor role v ∧ ∀ m ∈ out, m.validatorIndex = v := by
  unfold signEntry at h
  unfold signsFor
  rcases hshare : r.share v with - | pk
  · rw [hshare] at h
    cases h
    exact ⟨rfl, nofun⟩
  rcases hduty : r.findValidatorDuty v role with - | vDuty
  · rw [hshare, hduty] at h
    cases h
    exact ⟨rfl, nofun⟩
  have hv : vDuty.validatorIndex = v := by
    have hfound := find?_some hduty
    exact (of_decide_eq_true hfound).1
  simp only [hshare, hduty, bind_eq_ok, mapError_eq_ok, pure_eq_ok, signDuty, signAsValidator, hv]
    at h
  obtain ⟨_, -, msg, ⟨_, -, _, -, rfl⟩, rfl⟩ := h
  exact ⟨rfl, fun m hm ↦ by obtain rfl := Option.some.inj hm; rfl⟩

/-- **One entry for every time a validator is named**, if the operator signs for it. -/
theorem count_signed {α : Type} (index : α → ℕ) {l : List α} {role : BeaconRole}
    {f : α → Except Err (Option Validation.PartialSignatureMessage)}
    {out : List (Option Validation.PartialSignatureMessage)}
    (hf : ∀ x y, f x = .ok y → y.isSome = r.signsFor role (index x) ∧
      ∀ m ∈ y, m.validatorIndex = index x) (h : l.mapM f = .ok out) (v : ℕ) :
    (out.reduceOption.map (·.validatorIndex)).count v =
      if r.signsFor role v then (l.map index).count v else 0 := by
  induction l generalizing out with
  | nil =>
    simp only [mapM_nil, pure_eq_ok] at h
    subst h
    simp
  | cons x l ih =>
    simp only [mapM_cons, bind_eq_ok, pure_eq_ok] at h
    obtain ⟨y, hy, ys, hys, rfl⟩ := h
    obtain ⟨hsome, hindex⟩ := hf x y hy
    rcases y with - | m
    · -- a skipped entry is not for a validator the operator signs for
      have hskip : index x = v → r.signsFor role v = false := by
        rintro rfl
        exact hsome.symm
      rw [reduceOption_cons_of_none, ih hys, map_cons, count_cons]
      by_cases hv : index x = v
      · simp [hskip hv]
      · simp [hv]
    · have hm := hindex m rfl
      rw [reduceOption_cons_of_some, map_cons, count_cons, ih hys, map_cons, count_cons, hm]
      by_cases hv : index x = v
      · subst hv
        simp [← hsome]
      · simp [hv]

theorem map_index_zip {α : Type} {objs : List α} {entries : List AssignedAggregator}
    (h : objs.length = entries.length) :
    (objs.zip entries).map (·.2.validatorIndex) = entries.map (·.validatorIndex) := by
  have hsnd : (objs.zip entries).map Prod.snd = entries := map_snd_zip h.ge
  calc (objs.zip entries).map (·.2.validatorIndex)
      = ((objs.zip entries).map Prod.snd).map (·.validatorIndex) := (map_map ..).symm
    _ = entries.map (·.validatorIndex) := by rw [hsnd]

theorem length_filter_eq_count {messages : List Validation.PartialSignatureMessage} {v : ℕ} :
    (messages.filter (·.validatorIndex = v)).length = (messages.map (·.validatorIndex)).count
      v := by
  rw [count_eq_length_filter, filter_map, length_map]
  rfl

/-- At most five entries per validator index, and no peer's rule on entries per index is broken. -/
structure WithinLimits (messages : List Validation.PartialSignatureMessage) : Prop where
  entries : ∀ v, (messages.filter (·.validatorIndex = v)).length ≤ 5
  rule : ∀ net count, Validation.validateEntryCounts net .aggregatorCommittee count messages ≠
    .error Validation.errTooManyEqualValidatorIndicesInPartialSignatures

theorem withinLimits_iff {messages : List Validation.PartialSignatureMessage} :
    WithinLimits messages ↔ ∀ v, (messages.map (·.validatorIndex)).count v ≤ 5 := by
  constructor
  · intro h v
    rw [← length_filter_eq_count]
    exact h.entries v
  · intro h
    have hentries : ∀ v, (messages.filter (·.validatorIndex = v)).length ≤ 5 := fun v ↦ by
      rw [length_filter_eq_count]
      exact h v
    refine ⟨hentries, fun net count herror ↦ ?_⟩
    have hrule : ∀ message ∈ messages, (messages.filter
        (·.validatorIndex = message.validatorIndex)).length ≤
          Validation.maxDutiesForRole .aggregatorCommittee := fun message _ ↦
      hentries message.validatorIndex
    -- the rule on the number of entries is the only other one, and has an error of its own
    simp only [Validation.validateEntryCounts, Validation.committeeRole] at herror
    rw [if_pos (by decide), require_of hrule, andThen_ok_eq_error] at herror
    exact absurd (error_of_require herror) (by decide)

end AggregatorCommitteeRunner

/-! ### Assignments without duplicates -/

/-- The closure `dedup` of `validateNoDuplicateAggregatorCommittee`. -/
def dedupAssignments (kind : String) (seen : List (ℕ × ℕ)) :
    List AssignedAggregator → Except Err Unit
  | [] => .ok ()
  | a :: rest =>
    if (a.validatorIndex, a.committeeIndex) ∈ seen then
      .error { text :=
        "duplicate " ++ kind ++ " for validator index " ++ toString a.validatorIndex ++
        ", committee index " ++ toString a.committeeIndex }
    else dedupAssignments kind ((a.validatorIndex, a.committeeIndex) :: seen) rest

theorem nodup_of_dedupAssignments {kind : String} {seen : List (ℕ × ℕ)}
    {l : List AssignedAggregator} (h : dedupAssignments kind seen l = .ok ()) :
    (l.map fun a ↦ (a.validatorIndex, a.committeeIndex)).Nodup ∧
      ∀ a ∈ l, (a.validatorIndex, a.committeeIndex) ∉ seen := by
  induction l generalizing seen with
  | nil => exact ⟨nodup_nil, nofun⟩
  | cons a l ih =>
    unfold dedupAssignments at h
    split at h
    · cases h
    rename_i hnew
    obtain ⟨hnodup, hseen⟩ := ih h
    refine ⟨?_, fun b hb ↦ ?_⟩
    · rw [map_cons, nodup_cons]
      refine ⟨fun hmem ↦ ?_, hnodup⟩
      obtain ⟨b, hb, heq⟩ := mem_map.1 hmem
      exact hseen b hb (heq ▸ (.head _))
    · rcases mem_cons.1 hb with rfl | hb
      · exact hnew
      · exact fun hmem ↦ hseen b hb (.tail _ hmem)

theorem count_le_of_committees {l : List AssignedAggregator} {v : ℕ} {committees : List ℕ}
    (hnodup : (l.map fun a ↦ (a.validatorIndex, a.committeeIndex)).Nodup)
    (hcommittees : ∀ a ∈ l, a.validatorIndex = v → a.committeeIndex ∈ committees) :
    (l.map (·.validatorIndex)).count v ≤ committees.length := by
  have hcount : (l.map (·.validatorIndex)).count v =
      ((l.filter (·.validatorIndex = v)).map (·.committeeIndex)).length := by
    rw [count_eq_length_filter, filter_map, length_map, length_map]
    rfl
  rw [hcount]
  refine List.Subperm.length_le (List.Nodup.subperm ?_ fun c hc ↦ ?_)
  · refine List.Nodup.map_on (fun a ha b hb heq ↦ ?_) ?_
    · obtain ⟨ha, hav⟩ := mem_filter.1 ha
      obtain ⟨hb, hbv⟩ := mem_filter.1 hb
      refine inj_on_of_nodup_map hnodup ha hb ?_
      rw [of_decide_eq_true hav, of_decide_eq_true hbv, heq]
    · exact (List.Nodup.of_map _ hnodup).filter _
  · obtain ⟨a, ha, rfl⟩ := mem_map.1 hc
    obtain ⟨ha, hav⟩ := mem_filter.1 ha
    exact hcommittees a ha (of_decide_eq_true hav)

/-! ### The value check -/

/-- What the runner calls of `ssv-spec`. -/
class AggregatorSpec where
  decode : Bytes → Except Err AggregatorCommitteeConsensusData
  encode : AggregatorCommitteeConsensusData → Except Err Bytes
  validate : AggregatorCommitteeConsensusData → Except Err Unit
  /-- What is signed for an aggregator: `GetAggregateAndProofs`. -/
  AggregateAndProof : Type
  getAggregateAndProofs : AggregatorCommitteeConsensusData → Except Err (List AggregateAndProof)
  getAggregateAndProofHashRoot : AggregateAndProof → Except Err Root
  Contribution : Type
  getSyncCommitteeContributions : AggregatorCommitteeConsensusData → Except Err (List Contribution)
  /-- The root of a contribution with its aggregator and selection proof. -/
  contributionAndProofRoot : ℕ → Contribution → Bytes → Root
  /-- There is one aggregate and proof per entry. -/
  length_getAggregateAndProofs {cd : AggregatorCommitteeConsensusData}
    {ps : List AggregateAndProof} :
    getAggregateAndProofs cd = .ok ps → ps.length = cd.aggregators.length
  /-- There is one contribution per entry. -/
  length_getSyncCommitteeContributions {cd : AggregatorCommitteeConsensusData}
    {cs : List Contribution} :
    getSyncCommitteeContributions cd = .ok cs → cs.length = cd.contributors.length

variable [AggregatorSpec]

variable (cd : AggregatorCommitteeConsensusData)

def validateNoDuplicateAggregatorCommittee : Except Err Unit := do
  dedupAssignments "aggregator" [] cd.aggregators
  dedupAssignments "contributor" [] cd.contributors

/-- `aggregatorCommitteeChecker.CheckValue`. -/
def aggregatorCommitteeCheckValue (value : Bytes) : Except Err Unit := do
  let cd ← (AggregatorSpec.decode value).mapError fun e ↦
    .wrapError .aggCommConsensusDataDecode
      (e.wrap "failed decoding aggregator committee consensus data")
  (AggregatorSpec.validate cd).mapError (.wrap "invalid value")
  validateNoDuplicateAggregatorCommittee cd

/-! ### The packet -/

namespace AggregatorCommitteeRunner

variable (r : AggregatorCommitteeRunner)

def signAggregator (entry : AggregatorSpec.AggregateAndProof × AssignedAggregator) :
    Except Err (Option Validation.PartialSignatureMessage) :=
  r.signEntry .aggregator .aggregateAndProof "failed to sign aggregate and proof"
    entry.2.validatorIndex ((AggregatorSpec.getAggregateAndProofHashRoot entry.1).mapError
      (.wrap "failed to get aggregate and proof hash root"))

def signContributor (entry : AggregatorSpec.Contribution × AssignedAggregator) :
    Except Err (Option Validation.PartialSignatureMessage) :=
  r.signEntry .syncCommitteeContribution .contributionAndProof
    "failed to sign contribution and proof" entry.2.validatorIndex
    (.ok (AggregatorSpec.contributionAndProofRoot entry.2.validatorIndex entry.1
      entry.2.selectionProof))

/-- `ProcessConsensus` from the decided value to the packet it broadcasts, if any. -/
def postConsensusPacket : Except Err (Option Validation.PartialSignatureMessages) := do
  let aggProofs ← (AggregatorSpec.getAggregateAndProofs cd).mapError
    (.wrap "failed to get aggregate and proofs")
  let aggregates ← (aggProofs.zip cd.aggregators).mapM r.signAggregator
  let contributions ← (AggregatorSpec.getSyncCommitteeContributions cd).mapError
    (.wrap "failed to get sync committee contributions")
  let contributed ← (contributions.zip cd.contributors).mapM r.signContributor
  let messages := aggregates.reduceOption ++ contributed.reduceOption
  if messages = [] then return none
  else return some { type := .postConsensus, slot := r.duty.slot, messages := messages }

/-- How often a value names a validator in roles the operator signs for. -/
def entriesFor (v : ℕ) : ℕ :=
  (if r.signsFor .aggregator v then (cd.aggregators.map (·.validatorIndex)).count v else 0) +
    if r.signsFor .syncCommitteeContribution v then
      (cd.contributors.map (·.validatorIndex)).count v else 0

variable {r} {cd : AggregatorCommitteeConsensusData} {p : Validation.PartialSignatureMessages}

/-- **What is in the packet**: an entry for each time the value names a validator in a role it signs
for. -/
theorem count_postConsensusPacket (h : r.postConsensusPacket cd = .ok (some p)) (v : ℕ) :
    (p.messages.map (·.validatorIndex)).count v = r.entriesFor cd v := by
  simp only [postConsensusPacket, bind_eq_ok, mapError_eq_ok] at h
  obtain ⟨proofs, hproofs, aggregates, haggregates, contributions, hcontributions, contributed,
    hcontributed, h⟩ := h
  split at h
  · cases h
  obtain rfl := Option.some.inj (Except.ok.inj h)
  have haggregators := count_signed (r := r)
    (fun e : AggregatorSpec.AggregateAndProof × AssignedAggregator ↦ e.2.validatorIndex)
    (fun _ _ ↦ signEntry_ok) haggregates v
  have hcontributors := count_signed (r := r)
    (fun e : AggregatorSpec.Contribution × AssignedAggregator ↦ e.2.validatorIndex)
    (fun _ _ ↦ signEntry_ok) hcontributed v
  rw [map_index_zip (AggregatorSpec.length_getAggregateAndProofs hproofs)] at haggregators
  rw [map_index_zip (AggregatorSpec.length_getSyncCommitteeContributions hcontributions)]
    at hcontributors
  simp only [map_append, count_append, haggregators, hcontributors, entriesFor]

/-- **The packet keeps the limits** exactly if the value names no validator more than five times in
roles it signs for. -/
theorem packet_limits_iff (r : AggregatorCommitteeRunner) (value : Bytes)
    (cd : AggregatorCommitteeConsensusData) (p : Validation.PartialSignatureMessages) :
    aggregatorCommitteeCheckValue value = .ok () → AggregatorSpec.decode value = .ok cd →
    r.postConsensusPacket cd = .ok (some p) →
      (WithinLimits p.messages ↔ ∀ v, r.entriesFor cd v ≤ 5) := by
  intro _ _ hp
  rw [withinLimits_iff]
  exact forall_congr' fun v ↦ by rw [count_postConsensusPacket hp]

end AggregatorCommitteeRunner

/-! ### What the value check is enough for -/

/-- **What the check is enough for**: a validator in one committee and in subnets below four is
named at most five times. -/
theorem entriesFor_le_five_of_assigned {r : AggregatorCommitteeRunner} {value : Bytes}
    {cd : AggregatorCommitteeConsensusData} {v committee : ℕ}
    (hcheck : aggregatorCommitteeCheckValue value = .ok ())
    (hdecode : AggregatorSpec.decode value = .ok cd)
    (haggregators : ∀ a ∈ cd.aggregators, a.validatorIndex = v → a.committeeIndex = committee)
    (hcontributors : ∀ a ∈ cd.contributors, a.validatorIndex = v → a.committeeIndex < 4) :
    r.entriesFor cd v ≤ 5 := by
  simp only [aggregatorCommitteeCheckValue, hdecode, validateNoDuplicateAggregatorCommittee,
    bind_eq_ok, exists_check, mapError_eq_ok] at hcheck
  obtain ⟨_, hcd, -, haggregated, hcontributed⟩ := hcheck
  cases hcd
  have hone : (cd.aggregators.map (·.validatorIndex)).count v ≤ [committee].length :=
    count_le_of_committees (nodup_of_dedupAssignments haggregated).1 fun a ha hv ↦
      mem_singleton.2 (haggregators a ha hv)
  have hfour : (cd.contributors.map (·.validatorIndex)).count v ≤ (range 4).length :=
    count_le_of_committees (nodup_of_dedupAssignments hcontributed).1 fun a ha hv ↦
      mem_range.2 (hcontributors a ha hv)
  simp only [length_singleton, length_range] at hone hfour
  unfold AggregatorCommitteeRunner.entriesFor
  split <;> split <;> omega

/-! ### From the decided message -/

variable [RunnerSpec]

def consensusDataEncoder : Encoder AggregatorCommitteeConsensusData where
  decode := AggregatorSpec.decode
  encode := AggregatorSpec.encode

/-- `ProcessConsensus`: the packet it broadcasts, if any. -/
def AggregatorCommitteeRunner.processConsensus (r : AggregatorCommitteeRunner) (now : ℕ)
    (msg : SignedSSVMessage) (b : BaseRunner) :
    BaseRunner × Except Err (Option Validation.PartialSignatureMessages) :=
  match b.baseConsensusMsgProcessing consensusDataEncoder aggregatorCommitteeCheckValue now msg with
  | (b', ⟨_, _, some e⟩) => (b', .error (e.wrap "failed processing consensus message"))
  | (b', ⟨true, some cd, none⟩) => (b', r.postConsensusPacket cd)
  | (b', ⟨_, _, none⟩) => (b', .ok none)

omit [AggregatorSpec] in
/-- A value that is returned as decided has passed the runner's check. -/
theorem BaseRunner.accepted_of_decided {α : Type} {enc : Encoder α}
    {check : Bytes → Except Err Unit} {now : ℕ} {msg : SignedSSVMessage} {b b' : BaseRunner}
    {val : α} (h : b.baseConsensusMsgProcessing enc check now msg = (b', ⟨true, some val, none⟩)) :
    ∃ byts, enc.encode val = .ok byts ∧ check byts = .ok () := by
  have hdecided : ∀ (b₁ : BaseRunner) prev dm,
      b₁.uponDecidedMsg enc check prev dm = (b', ⟨true, some val, none⟩) →
      ∃ byts, enc.encode val = .ok byts ∧ check byts = .ok () := by
    intro b₁ prev dm hd
    unfold uponDecidedMsg at hd
    split at hd
    · cases hd
    · cases hd
    · split at hd
      · cases hd
      · cases hd
      · rename_i v encoded s htake hs
        obtain ⟨-, ⟨-, rfl, -⟩⟩ := Prod.mk.inj hd
        simp only [takeUpDecidedValue, validateDecidedConsensusData, bind_eq_ok, mapError_eq_ok,
          pure_eq_ok, Prod.mk.injEq] at htake
        obtain ⟨_, -, _, ⟨byts, hbyts, hcheck⟩, _, -, rfl, -⟩ := htake
        exact ⟨byts, hbyts, hcheck⟩
  unfold baseConsensusMsgProcessing at h
  simp only at h
  split at h
  · cases h
  · split at h
    · cases h
    · split at h
      · cases h
      · split at h
        · cases h
        · exact hdecided _ _ _ h

/-- **The packet comes from an accepted value.** -/
theorem AggregatorCommitteeRunner.accepted_of_processConsensus {r : AggregatorCommitteeRunner}
    {now : ℕ} {msg : SignedSSVMessage} {b : BaseRunner} {p : Validation.PartialSignatureMessages}
    (h : (r.processConsensus now msg b).2 = .ok (some p)) :
    ∃ cd value, AggregatorSpec.encode cd = .ok value ∧
      aggregatorCommitteeCheckValue value = .ok () ∧ r.postConsensusPacket cd = .ok (some p) := by
  unfold processConsensus at h
  split at h
  · cases h
  · rename_i b' cd hdecided
    obtain ⟨value, hencode, hcheck⟩ := BaseRunner.accepted_of_decided hdecided
    exact ⟨cd, value, hencode, hcheck, h⟩
  · cases h

end Ssv

/-! ### Two values -/

namespace Ssv.Reference

/-- The indexes name every committee and subnet assigned, with one object for each. -/
def linesUp (cd : AggregatorCommitteeConsensusData) : Bool :=
  cd.aggregators.all (fun a ↦ cd.aggregatorsCommitteeIndexes.contains a.committeeIndex) &&
    cd.aggregatorsCommitteeIndexes.length == cd.aggregatedAttestations.length &&
    cd.contributors.all (fun a ↦ cd.syncCommitteeSubnets.contains a.committeeIndex) &&
    cd.syncCommitteeSubnets.length == cd.syncCommitteeContributions.length

/-- Validator `7`, assigned to `n` committees. -/
def assignedTo (n : ℕ) : AggregatorCommitteeConsensusData where
  version := 0
  aggregators := (List.range n).map fun c ↦ ⟨7, [], c⟩
  aggregatorsCommitteeIndexes := List.range n
  aggregatedAttestations := (List.range n).map fun _ ↦ []
  contributors := []
  syncCommitteeSubnets := []
  syncCommitteeContributions := []

/-- A value of `n` bytes assigns validator `7` to `n` committees. -/
@[reducible]
def aggregatorSpec : AggregatorSpec where
  decode value := .ok (assignedTo value.length)
  encode cd := .ok (cd.aggregators.map fun _ ↦ 0)
  validate cd := if linesUp cd then .ok () else .error { text := "indexes do not line up" }
  AggregateAndProof := AssignedAggregator
  getAggregateAndProofs cd := .ok cd.aggregators
  getAggregateAndProofHashRoot a := .ok (BitVec.ofNat 256 a.committeeIndex)
  Contribution := AssignedAggregator
  getSyncCommitteeContributions cd := .ok cd.contributors
  contributionAndProofRoot _ c _ := BitVec.ofNat 256 c.committeeIndex
  length_getAggregateAndProofs h := by rw [← Except.ok.inj h]
  length_getSyncCommitteeContributions h := by rw [← Except.ok.inj h]

local instance committeeSpec : AggregatorSpec := aggregatorSpec

/-- An operator with a share and both duties of validator `7`. -/
def aggregatorRunner : AggregatorCommitteeRunner where
  duty :=
    { slot := 1
      validatorDuties := [⟨.aggregator, [], 1, 7, 0⟩, ⟨.syncCommitteeContribution, [], 1, 7, 0⟩] }
  share v := if v = 7 then some [1] else none
  operatorID := 1
  domainData _ _ := .ok []
  signBeaconObject obj _ _ _ _ := .ok ([], obj)

/-- The packet for a validator assigned to `n` committees. -/
def packetOf (n : ℕ) : Validation.PartialSignatureMessages where
  type := .postConsensus
  slot := 1
  messages := (List.range n).map fun c ↦ ⟨[], BitVec.ofNat 256 c, 1, 7⟩

/-- A validator assigned to one committee: the packet is within the limits. -/
theorem packet_limits_iff_oneCommittee :
    aggregatorCommitteeCheckValue [0] = .ok () ∧
    aggregatorRunner.postConsensusPacket (assignedTo 1) = .ok (some (packetOf 1)) ∧
    AggregatorCommitteeRunner.WithinLimits (packetOf 1).messages := by
  have hcheck : aggregatorCommitteeCheckValue [0] = .ok () := by decide +kernel
  have hpacket : aggregatorRunner.postConsensusPacket (assignedTo 1) = .ok (some (packetOf 1)) := by
    decide +kernel
  refine ⟨hcheck, hpacket, (AggregatorCommitteeRunner.packet_limits_iff aggregatorRunner [0]
    (assignedTo 1) (packetOf 1) hcheck rfl hpacket).2 fun v ↦ ?_⟩
  have haggregators : ∀ a ∈ (assignedTo 1).aggregators, a.committeeIndex = 0 := by decide +kernel
  have hcontributors : ∀ a ∈ (assignedTo 1).contributors, a.committeeIndex < 4 := by decide +kernel
  exact entriesFor_le_five_of_assigned hcheck rfl (fun a ha _ ↦ haggregators a ha)
    fun a ha _ ↦ hcontributors a ha

/-- A value that assigns one validator to six committees is accepted, and its packet is rejected. -/
theorem sixCommittees_rejected :
    aggregatorCommitteeCheckValue [0, 0, 0, 0, 0, 0] = .ok () ∧
    AggregatorSpec.decode [0, 0, 0, 0, 0, 0] = .ok (assignedTo 6) ∧
    aggregatorRunner.postConsensusPacket (assignedTo 6) = .ok (some (packetOf 6)) ∧
    ((packetOf 6).messages.filter (·.validatorIndex = 7)).length = 6 ∧
    Validation.validateEntryCounts Validation.Reference.network .aggregatorCommittee 4
        (packetOf 6).messages =
      .error Validation.errTooManyEqualValidatorIndicesInPartialSignatures := by
  refine ⟨?_, ?_, ?_, ?_, ?_⟩ <;> decide +kernel

end Ssv.Reference
