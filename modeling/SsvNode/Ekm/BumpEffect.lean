import SsvNode.Ekm.SlashingSafety

/-!
# What a bump is worth

`BumpSlashingProtectionTxn` replaces records that are behind minimal ones computed from the clock.
The attestation record is replaced as a pair, so one with **either** epoch recent is kept: both
epochs reach the minimal ones only if it was not ahead in one of them (`AheadInOne`).
-/

namespace Ssv.Ekm

open SignerStorage SlashingProtector Option

/-! ### The records a bump leaves -/

/-- The record after a bump: the stored one if it is up to date. -/
def bumpedRecord {ρ : Type} (upToDate : ρ → Bool) (minimal : ρ) : Option ρ → ρ
  | some record => if upToDate record then record else minimal
  | none => minimal

def bumpedAttestation (minimal : AttestationData) : Option AttestationData → AttestationData :=
  bumpedRecord (fun record ↦ decide (minimal.source.epoch ≤ record.source.epoch ∨
    minimal.target.epoch ≤ record.target.epoch)) minimal

def bumpedProposal (minimal : ℕ) : Option ℕ → ℕ :=
  bumpedRecord (fun record ↦ decide (record ≠ 0 ∧ minimal ≤ record)) minimal

namespace SlashingProtector

variable (cfg : BeaconConfig) (env : Env) (pk : PubKey) (s : SignerStorage)

theorem bumpRecord_establishes {ρ : Type} {retrieve : StoreAct (Option ρ)} {upToDate : ρ → Bool}
    {minimal : ρ} {save : StoreAct Unit} {stored : Option ρ} (put : ρ → SignerStorage)
    (hretrieve : retrieve.Reads s stored) (hsave : save.Writes s (put minimal))
    (hkeep : ∀ record, stored = some record → put record = s) :
    Act.Establishes (· = s) (· = put (bumpedRecord upToDate minimal stored))
      (bumpRecord retrieve upToDate save) := by
  rintro _ rfl
  refine hretrieve.bind (fun _ _ h ↦ nomatch h) ?_
  cases stored with
  | none => exact Act.Establishes.of_writes (Q := (· = put minimal)) hsave rfl _ rfl
  | some record =>
    simp only [Act.wp_ite, bumpedRecord]
    split
    · exact fun _ _ ↦ (hkeep record rfl).symm
    · exact Act.Establishes.of_writes (Q := (· = put minimal)) hsave rfl _ rfl

theorem bumpHighestAttestation_establishes (slot : ℕ) :
    Act.Establishes (· = s)
      (· = s.withAttestation pk (some (bumpedAttestation
        (computeMinimalAttestationSP (cfg.estimatedEpochAtSlot slot)) (s.highestAttestation pk))))
      (bumpHighestAttestation cfg env pk slot) := by
  refine bumpRecord_establishes s (fun record ↦ s.withAttestation pk (some record))
    (retrieveHighestAttestation_reads env pk s).mapError
    (access_writes env s .setAttestation _).mapError fun record h ↦ ?_
  rw [← h, withAttestation_eq]

theorem bumpHighestProposal_establishes (slot : ℕ) :
    Act.Establishes (· = s)
      (· = s.withProposal pk (some (bumpedProposal (computeMinimalProposerSP slot)
        (s.highestProposal pk))))
      (bumpHighestProposal env pk slot) := by
  refine bumpRecord_establishes s (fun record ↦ s.withProposal pk (some record))
    (retrieveHighestProposal_reads env pk s).mapError
    (saveHighestProposal_writes env pk s _).mapError fun record h ↦ ?_
  rw [← h, withProposal_eq]

end SlashingProtector

/-! ### How far they are -/

def AheadInBoth (m : ℕ × ℕ) (record : AttestationData) : Prop :=
  m.1 ≤ record.source.epoch ∧ m.2 ≤ record.target.epoch

/-- One epoch of the record has reached that of the mark, and the other has not. -/
def AheadInOne (m : ℕ × ℕ) (record : AttestationData) : Prop :=
  ¬ (m.1 ≤ record.source.epoch ↔ m.2 ≤ record.target.epoch)

/-- **What a bump does to the attestation record**: nothing goes back; the target is brought up if
the old record is a vote, both epochs unless it was ahead in one only. -/
structure AttestationBumped (m : ℕ × ℕ) (old : Option AttestationData)
    (record : AttestationData) : Prop where
  source_le : ∀ o ∈ old, o.source.epoch ≤ record.source.epoch
  target_le : ∀ o ∈ old, o.target.epoch ≤ record.target.epoch
  reached : m.1 ≤ record.source.epoch ∨ m.2 ≤ record.target.epoch
  target_reached : (∀ o ∈ old, o.source.epoch < o.target.epoch) → m.2 ≤ record.target.epoch
  both_iff : AheadInBoth m record ↔ ∀ o ∈ old, ¬ AheadInOne m o

theorem bumpedAttestation_spec (epoch : ℕ) (old : Option AttestationData) :
    AttestationBumped (attestationMark (computeMinimalAttestationSP epoch)) old
      (bumpedAttestation (computeMinimalAttestationSP epoch) old) := by
  have hsource : (computeMinimalAttestationSP epoch).source.epoch = epoch - 1 := by
    show (if epoch + 0 > 0 then epoch + 0 - 1 else 0) = epoch - 1
    split <;> omega
  have htarget : (computeMinimalAttestationSP epoch).target.epoch = epoch := rfl
  generalize computeMinimalAttestationSP epoch = minimal at hsource htarget
  cases old with
  | none =>
    have hahead : AheadInBoth (attestationMark minimal) minimal := ⟨le_rfl, le_rfl⟩
    refine ⟨nofun, nofun, .inl le_rfl, fun _ ↦ le_rfl, fun _ ↦ nofun, fun _ ↦ hahead⟩
  | some o =>
    unfold bumpedAttestation bumpedRecord
    by_cases h : minimal.source.epoch ≤ o.source.epoch ∨ minimal.target.epoch ≤ o.target.epoch
    · -- the record stays, and is ahead in both epochs unless it was ahead in one only
      simp only [h, decide_true, if_true]
      refine ⟨?_, ?_, h, ?_, ?_⟩
      · rintro _ ⟨⟩
        exact le_rfl
      · rintro _ ⟨⟩
        exact le_rfl
      · intro hvote
        have hlt := hvote o rfl
        show minimal.target.epoch ≤ o.target.epoch
        omega
      · simp only [mem_def, some.injEq, forall_eq', AheadInBoth, AheadInOne,
          attestationMark]
        tauto
    · simp only [h, decide_false, Bool.false_eq_true, if_false]
      rw [not_or, not_le, not_le] at h
      refine ⟨?_, ?_, .inl le_rfl, fun _ ↦ le_rfl, ?_⟩
      · rintro _ ⟨⟩
        exact h.1.le
      · rintro _ ⟨⟩
        exact h.2.le
      · refine ⟨fun _ ↦ ?_, fun _ ↦ ⟨le_rfl, le_rfl⟩⟩
        rintro _ ⟨⟩ hone
        exact hone ⟨fun hs ↦ absurd hs (not_le.2 h.1), fun ht ↦ absurd ht (not_le.2 h.2)⟩

theorem bumpedProposal_spec (minimal : ℕ) (old : Option ℕ) :
    (∀ o ∈ old, o ≤ bumpedProposal minimal old) ∧ minimal ≤ bumpedProposal minimal old := by
  cases old with
  | none => exact ⟨nofun, le_rfl⟩
  | some o =>
    unfold bumpedProposal bumpedRecord
    simp only [mem_def, some.injEq, forall_eq']
    split
    · next h => exact ⟨le_rfl, (of_decide_eq_true h).2⟩
    · next h =>
      rw [decide_eq_true_eq, not_and, not_le] at h
      refine ⟨?_, le_rfl⟩
      by_cases hzero : o = 0
      · omega
      · exact (h hzero).le

/-- The records of a share after a bump at some time. -/
structure Bumped (cfg : BeaconConfig) (now : ℕ) (pk : PubKey) (s s' : SignerStorage) : Prop where
  attestation : ∃ record, s'.highestAttestation pk = some record ∧
    AttestationBumped (freshAttestationMark cfg now) (s.highestAttestation pk) record
  proposal : ∃ slot, s'.highestProposal pk = some slot ∧
    (∀ old ∈ s.highestProposal pk, old ≤ slot) ∧ freshProposalMark cfg now ≤ slot

theorem SlashingProtector.bumpSlashingProtection_establishes (cfg : BeaconConfig) (env : Env)
    (pk : PubKey) (s : SignerStorage) :
    Act.Establishes (· = s) (Bumped cfg env.now pk s) (bumpSlashingProtection cfg env pk) := by
  refine .bind (bumpHighestAttestation_establishes cfg env pk s _) fun _ ↦ ?_
  rintro _ rfl
  refine Act.wp_mono (bumpHighestProposal_establishes env pk _ _ _ rfl) fun s'' es r h a ha ↦ ?_
  obtain rfl := h a ha
  refine ⟨⟨_, ?_, bumpedAttestation_spec _ _⟩, ⟨_, ?_, bumpedProposal_spec _ _⟩⟩
  · rw [withProposal_highestAttestation, withAttestation_self]
  · rw [withProposal_self]
    rfl

/-! ### Adding and reactivating a share -/

theorem RemoteKeyManager.addShare_establishes (cfg : BeaconConfig) (env : Env) (pk : PubKey)
    (s : SignerStorage) :
    Act.Establishes (· = s) (Bumped cfg env.now pk s) (RemoteKeyManager.addShare cfg env pk) := by
  refine .bind (Act.Establishes.lift (Q := (· = s)) fun _ h ↦ h).mapError fun _ ↦ ?_
  refine .bind (Q := (· = s)) (.lift fun _ h ↦ h) fun _ ↦ ?_
  exact (bumpSlashingProtection_establishes cfg env pk s).mapError

section

variable [KeyManagerDeps]

theorem LocalKeyManager.addShare_establishes (cfg : BeaconConfig) (env : Env)
    (encryptedPrivKey : Bytes) (pk : PubKey) (s : SignerStorage) :
    Act.Establishes (· = s) (Bumped cfg env.now pk s)
      (LocalKeyManager.addShare cfg env encryptedPrivKey pk) := by
  refine .bind (Q := (· = s)) (.lift fun _ h ↦ h) fun hex ↦ ?_
  refine .bind (Q := (· = s)) (.lift fun _ h ↦ h) fun key ↦ ?_
  refine .ite (fun hkey ↦ ?_) fun _ ↦ .fail
  subst hkey
  refine .bind (bumpSlashingProtection_establishes cfg env _ s).mapError
    fun _ ↦ ?_
  -- what is left of the method concerns the wallet
  refine .bind (Act.Establishes.lift fun _ h ↦ h).mapError fun _ ↦ ?_
  refine .bind (.read fun _ h ↦ h) fun _ ↦ ?_
  refine .ite (fun _ ↦ .pure fun _ h ↦ h) fun _ ↦ .mapError ?_
  refine .ite (fun _ ↦ ?_) fun _ ↦ .fail
  exact .bind (Act.Establishes.lift fun _ h ↦ h).mapError
    fun _ ↦ .update fun _ h ↦ ⟨h.attestation, h.proposal⟩

theorem KeyManager.perform_establishes (km : KeyManager) (cfg : BeaconConfig) (env : Env)
    {call : Call} (hcall : call.bumps) (s : SignerStorage) :
    Act.Establishes (· = s) (Bumped cfg env.now call.pubKey s) (km.perform cfg env call) := by
  cases call with
  | addShare encryptedPrivKey pk =>
    cases km with
    | localKeyManager => exact LocalKeyManager.addShare_establishes cfg env encryptedPrivKey pk s
    | remoteKeyManager => exact RemoteKeyManager.addShare_establishes cfg env pk s
  | bumpSlashingProtection pk =>
    exact bumpSlashingProtection_establishes cfg env pk s
  | signBeaconObject | removeShare => cases hcall

/-! ### What can still be signed -/

theorem KeyManager.sign_admits (km : KeyManager) (cfg : BeaconConfig) (env : Env)
    (req : SignRequest) (s : SignerStorage) :
    (km.perform cfg env (.signBeaconObject req)).wp
      (fun _ es _ ↦
        (∀ d ∈ attestationsOf req.pubKey es, ∃ m ∈ s.attestationMark req.pubKey,
          attestationWatermark.Admits m d) ∧
        ∀ b ∈ proposalsOf req.pubKey es, ∃ m ∈ s.highestProposal req.pubKey,
          proposalWatermark.Admits m b) s := by
  refine Act.wp_mono (km.sign_moves cfg env req s) fun s' es r h ↦ ⟨fun d hd ↦ ?_, fun b hb ↦ ?_⟩
  · exact h.moves.attestation.admits hd
  · exact h.moves.proposal.admits hb

/-- **The bump at work**: no block can be signed up to the slot; no attestation up to the target, if
the old record is a vote; and none from before the source, unless it was ahead in one epoch only. -/
structure Fenced (km : KeyManager) (cfg : BeaconConfig) (now : ℕ) (pk : PubKey)
    (s s' : SignerStorage) : Prop where
  proposal : ∀ env req, req.pubKey = pk →
    ∀ b ∈ proposalsOf pk ((km.perform cfg env (.signBeaconObject req)).run s').events,
      freshProposalMark cfg now < b.1
  target : (∀ o ∈ s.highestAttestation pk, o.source.epoch < o.target.epoch) →
    ∀ env req, req.pubKey = pk →
    ∀ d ∈ attestationsOf pk ((km.perform cfg env (.signBeaconObject req)).run s').events,
      (freshAttestationMark cfg now).2 < d.target.epoch
  attestation : (∀ o ∈ s.highestAttestation pk, ¬ AheadInOne (freshAttestationMark cfg now) o) →
    ∀ env req, req.pubKey = pk →
    ∀ d ∈ attestationsOf pk ((km.perform cfg env (.signBeaconObject req)).run s').events,
      (freshAttestationMark cfg now).1 ≤ d.source.epoch ∧
        (freshAttestationMark cfg now).2 < d.target.epoch

theorem Bumped.fenced {km : KeyManager} {cfg : BeaconConfig} {now : ℕ} {pk : PubKey}
    {s s' : SignerStorage} (h : Bumped cfg now pk s s') : Fenced km cfg now pk s s' := by
  obtain ⟨record, hrecord, hatt⟩ := h.attestation
  obtain ⟨slot, hslot, -, hminimal⟩ := h.proposal
  have hadmits (env : Env) (req : SignRequest) (hpk : req.pubKey = pk) {d : AttestationData}
      (hd : d ∈ attestationsOf pk ((km.perform cfg env (.signBeaconObject req)).run s').events) :
      record.source.epoch ≤ d.source.epoch ∧ record.target.epoch < d.target.epoch := by
    subst hpk
    obtain ⟨m, hm, hadmit⟩ := (km.sign_admits cfg env req s').1 d hd
    rw [SignerStorage.attestationMark, hrecord] at hm
    cases hm
    exact hadmit
  refine ⟨fun env req hpk b hb ↦ ?_, fun hvote env req hpk d hd ↦ ?_,
    fun hone env req hpk d hd ↦ ?_⟩
  · subst hpk
    obtain ⟨m, hm, hadmit⟩ := (km.sign_admits cfg env req s').2 b hb
    rw [hslot] at hm
    cases hm
    exact hminimal.trans_lt hadmit
  · exact (hatt.target_reached hvote).trans_lt (hadmits env req hpk hd).2
  · have hboth := hatt.both_iff.2 hone
    exact ⟨hboth.1.trans (hadmits env req hpk hd).1, hboth.2.trans_lt (hadmits env req hpk hd).2⟩

/-- **A bump never lowers a record, and fences the share off**, for either manager. -/
theorem bump_fences (km : KeyManager) (cfg : BeaconConfig) (env : Env) (call : Call)
    (hcall : call.bumps) (s : SignerStorage)
    (hok : ((km.perform cfg env call).run s).result = .ok ()) :
    Bumped cfg env.now call.pubKey s ((km.perform cfg env call).run s).state ∧
      Fenced km cfg env.now call.pubKey s ((km.perform cfg env call).run s).state := by
  have hbumped := km.perform_establishes cfg env hcall s s rfl () hok
  exact ⟨hbumped, hbumped.fenced⟩

end

/-! ### A record that is ahead in one epoch -/

namespace Reference

local instance bumpDeps : KeyManagerDeps := deps

/-- The share is added in epoch 3 and attests from 2 to 4, ahead of the clock. -/
def attestsAhead : List Step :=
  [atSlot 96 (.addShare share share), .commit, atSlot 96 (attest 2 4 1)]

/-- The store the share's cluster is reactivated in, in epoch 4. -/
def storeAhead : SignerStorage := (after .localKeyManager attestsAhead).store

def storeReactivated : SignerStorage :=
  ((KeyManager.localKeyManager.perform config (envAt 128)
    (.bumpSlashingProtection share)).run storeAhead).state

theorem bump_fences_reactivated :
    ((storeAhead.highestAttestation share).map attestationMark) = some (2, 4) ∧
      Bumped config (128 * config.slotDuration) share storeAhead storeReactivated ∧
      Fenced .localKeyManager config (128 * config.slotDuration) share storeAhead
        storeReactivated :=
  ⟨by decide +kernel, bump_fences .localKeyManager config
    (envAt 128) (.bumpSlashingProtection share) rfl storeAhead
    (by decide +kernel)⟩

/-- **The source may stay behind.** The record from 2 to 4 is kept in epoch 4, and an attestation
from 2 can be signed. -/
theorem source_stays_behind :
    (System.machine .localKeyManager config).Reachable (after .localKeyManager attestsAhead) ∧
      ((KeyManager.localKeyManager.perform config
        (envAt 128) (.bumpSlashingProtection share)).run
          storeAhead).result = .ok () ∧
      freshAttestationMark config (128 * config.slotDuration) = (3, 4) ∧
      ((storeReactivated.highestAttestation share).map attestationMark) = some (2, 4) ∧
      (attestationsOf share ((KeyManager.localKeyManager.perform config
        (envAt 160) (attest 2 5 2)).run storeReactivated).events).map
          attestationMark = [(2, 5)] := by
  refine ⟨?_, by decide +kernel, by decide +kernel, by decide +kernel, by decide +kernel⟩
  exact (Machine.Reachable.initial (show _ ∧ _ from ⟨rfl, rfl⟩)).foldl (by decide +kernel)

end Reference

end Ssv.Ekm
