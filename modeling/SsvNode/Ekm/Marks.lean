import SsvNode.Ekm.KeyManagers

/-!
# The protection records as high-water marks

The two records of a share are high-water marks (`Watermark`) of its attestations and its blocks.
`Moves` says what every method does to both at once; the safety proof looks at nothing else. Only a
bump takes a mark from absent to present, and chooses it by the clock alone.
-/

namespace Ssv.Ekm

/-! ### The two projections of the log -/

def BeaconObject.attestation? : BeaconObject → Option AttestationData
  | .attestationData d => some d
  | _ => none

/-- The attestation of a log entry, if it is one of this share's. -/
def Signed.attestation? (pk : PubKey) (e : Signed) : Option AttestationData :=
  if e.pubKey = pk ∧ e.domainType = .attester then e.object.attestation? else none

/-- The slot and the block of a log entry, if it is one of this share's. -/
def Signed.proposal? (pk : PubKey) (e : Signed) : Option (ℕ × BeaconObject) :=
  if e.pubKey = pk ∧ e.domainType = .proposer then
    e.object.block?.map fun b ↦ (b.slot, e.object)
  else none

def attestationsOf (pk : PubKey) (log : List Signed) : List AttestationData :=
  log.filterMap (·.attestation? pk)

def proposalsOf (pk : PubKey) (log : List Signed) : List (ℕ × BeaconObject) :=
  log.filterMap (·.proposal? pk)

theorem attestationsOf_append (pk : PubKey) (log log' : List Signed) :
    attestationsOf pk (log ++ log') = attestationsOf pk log ++ attestationsOf pk log' :=
  List.filterMap_append

theorem proposalsOf_append (pk : PubKey) (log log' : List Signed) :
    proposalsOf pk (log ++ log') = proposalsOf pk log ++ proposalsOf pk log' :=
  List.filterMap_append

/-! ### The two marks -/

abbrev attestationWatermark : Watermark (ℕ × ℕ) AttestationData :=
  Ffg.watermark (·.source.epoch) (·.target.epoch)

abbrev proposalWatermark : Watermark ℕ (ℕ × BeaconObject) := .ofRank Prod.fst

def attestationMark (record : AttestationData) : ℕ × ℕ := (record.source.epoch, record.target.epoch)

def freshAttestationMark (cfg : BeaconConfig) (now : ℕ) : ℕ × ℕ :=
  attestationMark (SlashingProtector.computeMinimalAttestationSP
    (cfg.estimatedEpochAtSlot (cfg.estimatedSlotAtTime now)))

/-- The mark a bump gives to a share without a proposal record. -/
def freshProposalMark (cfg : BeaconConfig) (now : ℕ) : ℕ :=
  SlashingProtector.computeMinimalProposerSP (cfg.estimatedSlotAtTime now)

namespace SignerStorage

def attestationMark (s : SignerStorage) (pk : PubKey) : Option (ℕ × ℕ) :=
  (s.highestAttestation pk).map Ekm.attestationMark

variable (s : SignerStorage)

@[simp] theorem withAttestation_self (pk : PubKey) (record : Option AttestationData) :
    (s.withAttestation pk record).highestAttestation pk = record :=
  Function.update_self ..

@[simp] theorem withAttestation_of_ne {pk pk' : PubKey} (record : Option AttestationData)
    (h : pk' ≠ pk) :
    (s.withAttestation pk record).highestAttestation pk' = s.highestAttestation pk' :=
  Function.update_of_ne h ..

@[simp] theorem withAttestation_highestProposal (pk : PubKey) (record : Option AttestationData) :
    (s.withAttestation pk record).highestProposal = s.highestProposal := rfl

@[simp] theorem withAttestation_eq (pk : PubKey) :
    s.withAttestation pk (s.highestAttestation pk) = s := by
  rw [withAttestation, Function.update_eq_self]

@[simp] theorem withProposal_self (pk : PubKey) (record : Option ℕ) :
    (s.withProposal pk record).highestProposal pk = record :=
  Function.update_self ..

@[simp] theorem withProposal_of_ne {pk pk' : PubKey} (record : Option ℕ) (h : pk' ≠ pk) :
    (s.withProposal pk record).highestProposal pk' = s.highestProposal pk' :=
  Function.update_of_ne h ..

@[simp] theorem withProposal_highestAttestation (pk : PubKey) (record : Option ℕ) :
    (s.withProposal pk record).highestAttestation = s.highestAttestation :=
  rfl

@[simp] theorem withProposal_eq (pk : PubKey) : s.withProposal pk (s.highestProposal pk) = s := by
  rw [withProposal, Function.update_eq_self]

@[simp] theorem attestationMark_withAttestation (pk : PubKey) (record : Option AttestationData) :
    (s.withAttestation pk record).attestationMark pk = record.map Ekm.attestationMark := by
  rw [attestationMark, withAttestation_self]

@[simp] theorem attestationMark_withProposal (pk pk' : PubKey) (record : Option ℕ) :
    (s.withProposal pk record).attestationMark pk' = s.attestationMark pk' :=
  rfl

end SignerStorage

/-- The marks of the share move, and those of the other shares stay. -/
structure Moves (pk : PubKey) (fresh : Option (ℕ × ℕ)) (freshSlot : Option ℕ)
    (s s' : SignerStorage) (attestations : List AttestationData)
    (proposals : List (ℕ × BeaconObject)) : Prop where
  attestation :
    attestationWatermark.Move fresh (s.attestationMark pk) (s'.attestationMark pk) attestations
  proposal : proposalWatermark.Move freshSlot (s.highestProposal pk) (s'.highestProposal pk)
    proposals
  attestation_frame : ∀ pk', pk' ≠ pk → s'.highestAttestation pk' = s.highestAttestation pk'
  proposal_frame : ∀ pk', pk' ≠ pk → s'.highestProposal pk' = s.highestProposal pk'

namespace Moves

variable {pk : PubKey} {fresh : Option (ℕ × ℕ)} {freshSlot : Option ℕ} {s s' : SignerStorage}
  {attestations : List AttestationData} {proposals : List (ℕ × BeaconObject)}

theorem refl : Moves pk fresh freshSlot s s [] [] := ⟨.keep, .keep, fun _ _ ↦ rfl, fun _ _ ↦ rfl⟩

theorem ofAttestation {record : Option AttestationData}
    (h : attestationWatermark.Move fresh (s.attestationMark pk) (record.map attestationMark)
      attestations) :
    Moves pk fresh freshSlot s (s.withAttestation pk record) attestations [] := by
  refine ⟨?_, ?_, fun _ hne ↦ SignerStorage.withAttestation_of_ne _ _ hne, fun _ _ ↦ rfl⟩
  · rwa [SignerStorage.attestationMark_withAttestation]
  · rw [SignerStorage.withAttestation_highestProposal]
    exact .keep

theorem ofProposal {record : Option ℕ}
    (h : proposalWatermark.Move freshSlot (s.highestProposal pk) record proposals) :
    Moves pk fresh freshSlot s (s.withProposal pk record) [] proposals := by
  refine ⟨?_, ?_, fun _ _ ↦ rfl, fun _ hne ↦ SignerStorage.withProposal_of_ne _ _ hne⟩
  · rw [SignerStorage.attestationMark_withProposal]
    exact .keep
  · rwa [SignerStorage.withProposal_self]

variable (h : Moves pk fresh freshSlot s s' attestations proposals)
include h

theorem withAccounts (accounts : PubKey → Bool) :
    Moves pk fresh freshSlot s { s' with accounts := accounts } attestations proposals :=
  ⟨h.attestation, h.proposal, h.attestation_frame, h.proposal_frame⟩

theorem clearAttestation :
    Moves pk fresh freshSlot s (s'.withAttestation pk none) [] proposals := by
  refine ⟨?_, h.proposal, fun pk' hne ↦ ?_, h.proposal_frame⟩
  · rw [SignerStorage.attestationMark_withAttestation]
    exact .clear
  · rw [SignerStorage.withAttestation_of_ne _ _ hne]
    exact h.attestation_frame pk' hne

theorem clearProposal : Moves pk fresh freshSlot s (s'.withProposal pk none) attestations [] := by
  refine ⟨h.attestation, ?_, h.attestation_frame, fun pk' hne ↦ ?_⟩
  · rw [SignerStorage.withProposal_self]
    exact .clear
  · rw [SignerStorage.withProposal_of_ne _ _ hne]
    exact h.proposal_frame pk' hne

theorem thenProposal {record : Option ℕ} (hs : s'.highestProposal = s.highestProposal)
    (hr : proposalWatermark.Move freshSlot (s.highestProposal pk) record []) :
    Moves pk fresh freshSlot s (s'.withProposal pk record) attestations [] := by
  refine ⟨h.attestation, ?_, h.attestation_frame, fun pk' hne ↦ ?_⟩
  · rwa [SignerStorage.withProposal_self]
  · rw [SignerStorage.withProposal_of_ne _ _ hne, hs]

end Moves

/-- The records never move back and, if the request is `cleared`, are past what it signs. -/
structure Clears (req : SignRequest) (s s' : SignerStorage) (cleared : Prop) : Prop where
  moves : Moves req.pubKey none none s s' [] []
  cleared : cleared → Moves req.pubKey none none s s' (attestationsOf req.pubKey [req.signed])
    (proposalsOf req.pubKey [req.signed])

theorem attestationsOf_signed (req : SignRequest) {d : AttestationData}
    (hd : req.signatureDomain = .attester) (ho : req.object = .attestationData d) :
    attestationsOf req.pubKey [req.signed] = [d] ∧ proposalsOf req.pubKey [req.signed] = [] := by
  simp [attestationsOf, proposalsOf, Signed.attestation?, Signed.proposal?, SignRequest.signed, hd,
    ho, BeaconObject.attestation?]

theorem proposalsOf_signed (req : SignRequest) {b : BeaconBlock}
    (hd : req.signatureDomain = .proposer) (hb : req.object.block? = some b) :
    attestationsOf req.pubKey [req.signed] = [] ∧
      proposalsOf req.pubKey [req.signed] = [(b.slot, req.object)] := by
  simp [attestationsOf, proposalsOf, Signed.attestation?, Signed.proposal?, SignRequest.signed,
    hd, hb]

variable {req : SignRequest} {s : SignerStorage} {cleared : Prop}

theorem Clears.ofPlain (ha : req.signatureDomain ≠ .attester)
    (hp : req.signatureDomain ≠ .proposer) : Clears req s s cleared := by
  refine ⟨.refl, fun _ ↦ ?_⟩
  have hnone : attestationsOf req.pubKey [req.signed] = [] ∧
      proposalsOf req.pubKey [req.signed] = [] := by
    simp [attestationsOf, proposalsOf, Signed.attestation?, Signed.proposal?, SignRequest.signed,
      ha, hp]
  rw [hnone.1, hnone.2]
  exact .refl

theorem Clears.refused (h : ¬ cleared) : Clears req s s cleared :=
  ⟨.refl, fun hc ↦ absurd hc h⟩

theorem Clears.mono {s' : SignerStorage} {p q : Prop}
    (h : Clears req s s' p) (hqp : q → p) : Clears req s s' q :=
  ⟨h.moves, fun hq ↦ h.cleared (hqp hq)⟩

/-! ### The store's methods -/

namespace SignerStorage

variable (env : Env) (pk : PubKey) (s : SignerStorage)

theorem retrieveHighestAttestation_reads :
    (retrieveHighestAttestation env pk).Reads s (s.highestAttestation pk) := by
  unfold retrieveHighestAttestation access Act.Reads
  simp only [Act.wp_bind, Act.wp_mapError, Act.wp_lift]
  cases env.db .getAttestation with
  | error | ok => simp [Except.mapError]

theorem retrieveHighestProposal_reads :
    (retrieveHighestProposal env pk).Reads s (s.highestProposal pk) := by
  unfold retrieveHighestProposal access Act.Reads
  simp only [Act.wp_bind, Act.wp_mapError, Act.wp_lift]
  cases env.db .getProposal with
  | error | ok => simp [Except.mapError]

theorem access_writes (call : DbCall) (f : SignerStorage → SignerStorage) :
    (access env call >>= fun _ ↦ Act.update f : StoreAct Unit).Writes s (f s) := by
  unfold access Act.Writes
  simp only [Act.wp_bind, Act.wp_lift]
  cases env.db call with
  | error | ok => simp

theorem saveHighestProposal_writes (slot : ℕ) :
    (saveHighestProposal env pk slot).Writes s (s.withProposal pk (some slot)) := by
  unfold saveHighestProposal Act.Writes
  rw [Act.wp_ite]
  split
  · simp
  · exact access_writes env s .setProposal _

end SignerStorage

/-! ### Bumping -/

namespace SlashingProtector

open SignerStorage Function

variable (cfg : BeaconConfig) (env : Env) (pk : PubKey) (s : SignerStorage)

theorem bumpRecord_spec {ρ : Type} {retrieve : StoreAct (Option ρ)} {upToDate : ρ → Bool}
    {save : StoreAct Unit} {stored : Option ρ} {t : SignerStorage} {Q : SignerStorage → Prop}
    (hretrieve : retrieve.Reads s stored) (hsave : save.Writes s t) (hkeep : Q s)
    (hQ : (∀ record ∈ stored, upToDate record = false) → Q t) :
    (bumpRecord retrieve upToDate save).wp (fun s' es _ ↦ es = [] ∧ Q s') s := by
  have hwrite (h : ∀ record ∈ stored, upToDate record = false) :
      save.wp (fun s' es _ ↦ es = [] ∧ Q s') s := by
    refine Act.wp_mono hsave ?_
    rintro s' es r ⟨rfl, ⟨rfl, -⟩ | rfl⟩
    · exact ⟨rfl, hkeep⟩
    · exact ⟨rfl, hQ h⟩
  refine hretrieve.bind (fun _ ↦ ⟨rfl, hkeep⟩) ?_
  cases stored with
  | none => exact hwrite (by simp)
  | some =>
    simp only [Act.wp_ite]
    split
    · exact ⟨rfl, hkeep⟩
    · next hold => exact hwrite (by simpa using hold)

theorem bumpHighestAttestation_spec (slot : ℕ) :
    (bumpHighestAttestation cfg env pk slot).wp
      (fun s' es _ ↦ es = [] ∧ ∃ record, s' = s.withAttestation pk record ∧
        attestationWatermark.Move
          (some (attestationMark (computeMinimalAttestationSP (cfg.estimatedEpochAtSlot slot))))
          (s.attestationMark pk) (record.map attestationMark) []) s := by
  refine bumpRecord_spec s (retrieveHighestAttestation_reads env pk s).mapError
    (access_writes env s .setAttestation _).mapError ?_ fun hold ↦ ?_
  · exact ⟨s.highestAttestation pk, (withAttestation_eq s pk).symm, .keep⟩
  · refine ⟨_, rfl, ?_⟩
    rw [SignerStorage.attestationMark]
    cases h : s.highestAttestation pk with
    | none => exact .restart rfl
    | some record =>
      have := hold record h
      simp only [decide_eq_false_iff_not, not_or, not_le] at this
      exact .raise (Ffg.raises_of_le this.1.le this.2.le)

theorem bumpHighestProposal_spec (slot : ℕ) :
    (bumpHighestProposal env pk slot).wp
      (fun s' es _ ↦ es = [] ∧ ∃ record, s' = s.withProposal pk record ∧
        proposalWatermark.Move (some (computeMinimalProposerSP slot)) (s.highestProposal pk) record
          []) s := by
  refine bumpRecord_spec s (retrieveHighestProposal_reads env pk s).mapError
    (saveHighestProposal_writes env pk s _).mapError ?_ fun hold ↦ ?_
  · exact ⟨s.highestProposal pk, (withProposal_eq s pk).symm, .keep⟩
  · refine ⟨_, rfl, ?_⟩
    cases h : s.highestProposal pk with
    | none => exact .restart rfl
    | some record =>
      have := hold record h
      simp only [decide_eq_false_iff_not, not_and, not_le] at this
      refine .raise (Watermark.ofRank_raises ?_)
      by_cases hzero : record = 0
      · omega
      · exact (this hzero).le

/-- **A bump.** The fresh marks are those of the wall clock. -/
theorem bumpSlashingProtection_spec :
    (bumpSlashingProtection cfg env pk).wp
      (fun s' es _ ↦ es = [] ∧ Moves pk (some (freshAttestationMark cfg env.now))
        (some (freshProposalMark cfg env.now)) s s' [] []) s := by
  refine Act.wp_seq (bumpHighestAttestation_spec cfg env pk s _) ?_ ?_
  · rintro s' es e ⟨rfl, record, rfl, hmove⟩
    exact ⟨rfl, .ofAttestation hmove⟩
  · rintro s' es _ ⟨rfl, record, rfl, hmove⟩
    refine Act.wp_mono (bumpHighestProposal_spec env pk _ _) ?_
    rintro s'' es r ⟨rfl, slot, rfl, hslot⟩
    exact ⟨rfl, (Moves.ofAttestation hmove).thenProposal rfl hslot⟩

end SlashingProtector

/-! ### Checked and recorded -/

variable [KeyManagerDeps]

open KeyManagerDeps

theorem attestation_logged {stored : Option AttestationData} {d record : AttestationData}
    (hc : isSlashableAttestation stored d = .ok none)
    (hu : KeyManagerDeps.updateHighestAttestation stored d = .ok record) :
    attestationWatermark.Move none (stored.map attestationMark)
        ((some record).map attestationMark) [] ∧
      attestationWatermark.Move none (stored.map attestationMark)
        ((some record).map attestationMark) [d] := by
  cases stored with
  | none =>
    obtain ⟨e, he⟩ := isSlashableAttestation_none (d := d)
    rw [he] at hc
    cases hc
  | some h =>
    obtain ⟨hsource, htarget⟩ := updateHighestAttestation_some hu
    have hraise : attestationWatermark.Raises (attestationMark h) (attestationMark record) :=
      Ffg.raises_of_le (by simp [attestationMark, hsource]) (by simp [attestationMark, htarget])
    have hcover : attestationWatermark.Covers (attestationMark record) d := by
      simp [Ffg.watermark, attestationMark, hsource, htarget]
    exact ⟨.raise hraise, .log (isSlashableAttestation_some hc) hraise hcover⟩

theorem proposal_logged {stored : Option ℕ} {slot record : ℕ} (object : BeaconObject)
    (hc : isSlashableProposal stored slot = .ok validProposal)
    (hu : KeyManagerDeps.updateHighestProposal stored slot = .ok record) :
    proposalWatermark.Move none stored (some record) [] ∧
      proposalWatermark.Move none stored (some record) [(slot, object)] := by
  cases stored with
  | none => exact absurd hc isSlashableProposal_none
  | some h =>
    have hrecord := updateHighestProposal_some hu
    have hraise : proposalWatermark.Raises h record :=
      Watermark.ofRank_raises (by rw [hrecord]; exact le_max_left _ _)
    have hcover : proposalWatermark.Covers record (slot, object) := by
      simp [Watermark.ofRank, hrecord]
    exact ⟨.raise hraise, .log (isSlashableProposal_some hc) hraise hcover⟩

theorem Clears.ofAttestation {req : SignRequest} {s : SignerStorage} {d record : AttestationData}
    (hd : req.signatureDomain = .attester) (ho : req.object = .attestationData d)
    (hc : isSlashableAttestation (s.highestAttestation req.pubKey) d = .ok none)
    (hu : KeyManagerDeps.updateHighestAttestation (s.highestAttestation req.pubKey) d =
      .ok record) :
    Clears req s (s.withAttestation req.pubKey (some record)) cleared := by
  obtain ⟨hraise, hlog⟩ := attestation_logged hc hu
  refine ⟨.ofAttestation hraise, fun _ ↦ ?_⟩
  rw [(attestationsOf_signed req hd ho).1, (attestationsOf_signed req hd ho).2]
  exact .ofAttestation hlog

theorem Clears.ofProposal {req : SignRequest} {s : SignerStorage} {b : BeaconBlock} {record : ℕ}
    (hd : req.signatureDomain = .proposer) (hb : req.object.block? = some b)
    (hc : isSlashableProposal (s.highestProposal req.pubKey) b.slot = .ok validProposal)
    (hu : KeyManagerDeps.updateHighestProposal (s.highestProposal req.pubKey) b.slot = .ok record) :
    Clears req s (s.withProposal req.pubKey (some record)) cleared := by
  obtain ⟨hraise, hlog⟩ := proposal_logged req.object hc hu
  refine ⟨.ofProposal hraise, fun _ ↦ ?_⟩
  rw [(proposalsOf_signed req hd hb).1, (proposalsOf_signed req hd hb).2]
  exact .ofProposal hlog

/-! ### The protector's methods -/

namespace SlashingProtector

open SignerStorage

variable (cfg : BeaconConfig) (env : Env) (pk : PubKey) (s : SignerStorage)

theorem isAttestationSlashable_spec (d : AttestationData) :
    (isAttestationSlashable env pk d).wp
      (fun s' es r ↦ s' = s ∧ es = [] ∧
        (r = .ok () → isSlashableAttestation (s.highestAttestation pk) d = .ok none)) s := by
  refine (retrieveHighestAttestation_reads env pk s).bind (by simp) ?_
  rcases isSlashableAttestation (s.highestAttestation pk) d with e | _ | status
  · simp
  · simp
  · simp

theorem isBeaconBlockSlashable_spec (slot : ℕ) :
    (isBeaconBlockSlashable env pk slot).wp
      (fun s' es r ↦ s' = s ∧ es = [] ∧
        (r = .ok () → isSlashableProposal (s.highestProposal pk) slot = .ok validProposal)) s := by
  refine (retrieveHighestProposal_reads env pk s).bind (by simp) ?_
  rcases isSlashableProposal (s.highestProposal pk) slot with e | status
  · simp
  · simp only [Act.wp_ite]
    split
    · next hv => simp [hv]
    · simp

theorem updateHighestAttestation_spec (d : AttestationData) :
    (updateHighestAttestation env pk d).wp
      (fun s' es r ↦ es = [] ∧ ((s' = s ∧ ∃ e, r = .error e) ∨
        ∃ record, KeyManagerDeps.updateHighestAttestation (s.highestAttestation pk) d = .ok record ∧
          s' = s.withAttestation pk (some record))) s := by
  refine (retrieveHighestAttestation_reads env pk s).bind (by simp) ?_
  rcases hu : KeyManagerDeps.updateHighestAttestation (s.highestAttestation pk) d with e | record
  · simp
  · refine Act.wp_mono (access_writes env s .setAttestation _) ?_
    rintro s' es r ⟨rfl, h | h⟩
    · exact ⟨rfl, .inl h⟩
    · exact ⟨rfl, .inr ⟨record, rfl, h⟩⟩

theorem updateHighestProposal_spec (slot : ℕ) :
    (updateHighestProposal env pk slot).wp
      (fun s' es r ↦ es = [] ∧ ((s' = s ∧ ∃ e, r = .error e) ∨
        ∃ record, KeyManagerDeps.updateHighestProposal (s.highestProposal pk) slot = .ok record ∧
          s' = s.withProposal pk (some record))) s := by
  refine (retrieveHighestProposal_reads env pk s).bind (by simp) ?_
  rcases hu : KeyManagerDeps.updateHighestProposal (s.highestProposal pk) slot with e | record
  · simp
  · refine Act.wp_mono (saveHighestProposal_writes env pk s record) ?_
    rintro s' es r ⟨rfl, h | h⟩
    · exact ⟨rfl, .inl h⟩
    · exact ⟨rfl, .inr ⟨record, rfl, h⟩⟩

end SlashingProtector

end Ssv.Ekm
