import SsvNode.Ekm.Marks
import SsvNode.Lib.Checks

/-!
# What a call does to the marks

Every method of the two managers, as a move of the two marks (`CallMoves`). A signing request moves
them past what it signs before the signature is given away; adding a share and bumping may restart
them; removing a share clears them.
-/

namespace Ssv.Ekm

open KeyManagerDeps SignerStorage SlashingProtector

/-- A call on one share: its marks move past everything that is signed. -/
structure CallMoves (pk : PubKey) (fresh : Option (ℕ × ℕ)) (freshSlot : Option ℕ)
    (s s' : SignerStorage) (es : List Signed) : Prop where
  moves : Moves pk fresh freshSlot s s' (attestationsOf pk es) (proposalsOf pk es)
  own : ∀ e ∈ es, e.pubKey = pk

section

variable {pk : PubKey} {fresh : Option (ℕ × ℕ)} {freshSlot : Option ℕ} {s s' : SignerStorage}

theorem CallMoves.silent (h : Moves pk fresh freshSlot s s' [] []) :
    CallMoves pk fresh freshSlot s s' [] :=
  ⟨h, fun _ he ↦ nomatch he⟩

theorem Clears.callMoves_nil {req : SignRequest} {cleared : Prop} (h : Clears req s s' cleared) :
    CallMoves req.pubKey none none s s' [] :=
  .silent h.moves

theorem Clears.callMoves {req : SignRequest} {cleared : Prop} (h : Clears req s s' cleared)
    (hc : cleared) : CallMoves req.pubKey none none s s' [req.signed] :=
  ⟨h.cleared hc, fun e he ↦ by rw [List.mem_singleton.1 he]; rfl⟩

end

theorem projections_of_ne {pk pk' : PubKey} {es : List Signed} (h : ∀ e ∈ es, e.pubKey = pk)
    (hne : pk' ≠ pk) : attestationsOf pk' es = [] ∧ proposalsOf pk' es = [] := by
  have hother (e : Signed) (he : e ∈ es) : e.pubKey ≠ pk' := fun heq ↦ hne (heq ▸ h e he)
  constructor
  · refine List.filterMap_eq_nil_iff.2 fun e he ↦ ?_
    rw [Signed.attestation?, if_neg fun hc ↦ hother e he hc.1]
  · refine List.filterMap_eq_nil_iff.2 fun e he ↦ ?_
    rw [Signed.proposal?, if_neg fun hc ↦ hother e he hc.1]

/-- `Clears` as a specification: nothing is signed yet, and success is clearance. -/
def ClearsWhenOk {α : Type} (req : SignRequest) (x : StoreAct α) : Prop :=
  ∀ s, x.wp (fun s' es r ↦ es = [] ∧ Clears req s s' (∃ a, r = .ok a)) s

namespace ClearsWhenOk

variable {α β : Type} {req : SignRequest}

theorem failWith {text : String} : ClearsWhenOk req (failWith text : StoreAct α) :=
  fun _ ↦ ⟨rfl, .refused fun ⟨_, h⟩ ↦ nomatch h⟩

theorem plain {x : StoreAct α} (ha : req.signatureDomain ≠ .attester)
    (hp : req.signatureDomain ≠ .proposer) (hx : ∀ s, x.wp (fun s' es _ ↦ s' = s ∧ es = []) s) :
    ClearsWhenOk req x := fun s ↦ by
  refine Act.wp_mono (hx s) ?_
  rintro s' es r ⟨rfl, rfl⟩
  exact ⟨rfl, .ofPlain ha hp⟩

theorem bind {x : StoreAct α} {f : α → StoreAct β} (hx : ClearsWhenOk req x)
    (hf : ∀ a s, (f a).wp (fun s' es _ ↦ s' = s ∧ es = []) s) : ClearsWhenOk req (x >>= f) := by
  intro s
  refine Act.wp_seq (hx s) ?_ ?_
  · rintro s' es e ⟨rfl, h⟩
    exact ⟨rfl, h.mono fun ⟨_, h⟩ ↦ nomatch h⟩
  · rintro s' es a ⟨rfl, h⟩
    refine Act.wp_mono (hf a s') ?_
    rintro s'' es' r ⟨rfl, rfl⟩
    exact ⟨rfl, h.mono fun _ ↦ ⟨a, rfl⟩⟩

variable [KeyManagerDeps]

theorem attestation {d : AttestationData} (env : Env) (hd : req.signatureDomain = .attester)
    (ho : req.object = .attestationData d) :
    ClearsWhenOk req (do
      isAttestationSlashable env req.pubKey d
      updateHighestAttestation env req.pubKey d) := by
  intro s
  refine Act.wp_seq (isAttestationSlashable_spec env req.pubKey s d) ?_ ?_
  · rintro s' es e ⟨rfl, rfl, -⟩
    exact ⟨rfl, .refused fun ⟨_, h⟩ ↦ nomatch h⟩
  · rintro s' es _ ⟨rfl, rfl, hc⟩
    refine Act.wp_mono (updateHighestAttestation_spec env req.pubKey s' d) ?_
    rintro s'' es r ⟨rfl, ⟨rfl, e, rfl⟩ | ⟨record, hu, rfl⟩⟩
    · exact ⟨rfl, .refused fun ⟨_, h⟩ ↦ nomatch h⟩
    · exact ⟨rfl, .ofAttestation hd ho (hc rfl) hu⟩

theorem guardProposal {b : BeaconBlock} (cfg : BeaconConfig) (env : Env)
    (hd : req.signatureDomain = .proposer) (hb : req.object.block? = some b) :
    ClearsWhenOk req (guardProposal cfg env req.pubKey b.slot) := by
  intro s
  unfold Ekm.guardProposal
  rw [Act.wp_ite]
  split
  · refine Act.wp_seq (isBeaconBlockSlashable_spec env req.pubKey s b.slot) ?_ ?_
    · rintro s' es e ⟨rfl, rfl, -⟩
      exact ⟨rfl, .refused fun ⟨_, h⟩ ↦ nomatch h⟩
    · rintro s' es _ ⟨rfl, rfl, hc⟩
      refine Act.wp_mono (updateHighestProposal_spec env req.pubKey s' b.slot) ?_
      rintro s'' es r ⟨rfl, ⟨rfl, e, rfl⟩ | ⟨record, hu, rfl⟩⟩
      · exact ⟨rfl, .refused fun ⟨_, h⟩ ↦ nomatch h⟩
      · exact ⟨rfl, .ofProposal hd hb (hc rfl) hu⟩
  · exact failWith s

end ClearsWhenOk

/-! ### Removing a share, and adding one remotely -/

section

variable (env : Env) (pk : PubKey) (s : SignerStorage)

theorem removeHighestAttestation_quiet :
    Act.Quiet (Moves pk none none s · [] []) (Moves pk none none s · [] [])
      (removeHighestAttestation env pk) :=
  .bind (.lift fun _ h ↦ h) (fun _ h ↦ h) fun _ ↦ .update fun _ h ↦ h.clearAttestation

theorem removeHighestProposal_quiet :
    Act.Quiet (Moves pk none none s · [] []) (Moves pk none none s · [] [])
      (removeHighestProposal env pk) :=
  .bind (.lift fun _ h ↦ h) (fun _ h ↦ h) fun _ ↦ .update fun _ h ↦ h.clearProposal

theorem LocalKeyManager.removeShare_moves :
    Act.Quiet (Moves pk none none s · [] []) (Moves pk none none s · [] [])
      (LocalKeyManager.removeShare env pk) := by
  refine .bind (removeHighestAttestation_quiet env pk s).mapError (fun _ h ↦ h) fun _ ↦ ?_
  refine .bind (removeHighestProposal_quiet env pk s).mapError (fun _ h ↦ h) fun _ ↦ ?_
  refine .bind (Act.Quiet.lift fun _ h ↦ h).mapError (fun _ h ↦ h) fun _ ↦ ?_
  refine .bind (.read fun _ h ↦ h) (fun _ h ↦ h) fun _ ↦ ?_
  refine .ite (fun _ ↦ ?_) fun _ ↦ .pure fun _ h ↦ h
  exact .bind (Act.Quiet.lift fun _ h ↦ h).mapError (fun _ h ↦ h)
    fun _ ↦ .update fun _ h ↦ h.withAccounts _

theorem RemoteKeyManager.removeShare_moves :
    Act.Quiet (Moves pk none none s · [] []) (Moves pk none none s · [] [])
      (RemoteKeyManager.removeShare env pk) := by
  refine .bind (Act.Quiet.lift fun _ h ↦ h).mapError (fun _ h ↦ h) fun _ ↦ ?_
  refine .bind (.lift fun _ h ↦ h) (fun _ h ↦ h) fun _ ↦ ?_
  refine .bind (removeHighestAttestation_quiet env pk s).mapError (fun _ h ↦ h) fun _ ↦ ?_
  exact (removeHighestProposal_quiet env pk s).mapError

theorem RemoteKeyManager.addShare_moves (cfg : BeaconConfig) :
    Act.Quiet (· = s) (fun s' ↦ Moves pk (some (freshAttestationMark cfg env.now))
      (some (freshProposalMark cfg env.now)) s s' [] [])
        (RemoteKeyManager.addShare cfg env pk) := by
  have hrefl (s' : SignerStorage) (hs : s' = s) : Moves pk (some (freshAttestationMark cfg env.now))
      (some (freshProposalMark cfg env.now)) s s' [] [] := hs ▸ .refl
  refine .bind (Act.Quiet.lift (Q := (· = s)) fun _ h ↦ h).mapError hrefl fun statuses ↦ ?_
  refine .bind (Q := (· = s)) (.lift fun _ h ↦ h) hrefl fun _ ↦ Act.Quiet.mapError ?_
  rintro _ rfl
  exact bumpSlashingProtection_spec cfg env pk _

end

variable [KeyManagerDeps]

/-! ### The local manager -/

namespace LocalKeyManager

variable {req : SignRequest} (cfg : BeaconConfig) (env : Env)

theorem signProtectedAttestation_clears {d : AttestationData}
    {sign : Bool → Option AttestationData → Signing AttestationData}
    (hd : req.signatureDomain = .attester) (ho : req.object = .attestationData d)
    (hsign : ∀ account stored, (sign account stored).Protected stored
      (isSlashableAttestation stored d = .ok none)
      (KeyManagerDeps.updateHighestAttestation stored d)) :
    ClearsWhenOk req (signProtectedAttestation req.pubKey sign) := by
  intro s
  refine ⟨rfl, ?_⟩
  change Clears req s (s.withAttestation req.pubKey (sign _ _).record)
    (∃ a, (sign _ _).result = .ok a)
  rcases hsign (s.accounts req.pubKey) (s.highestAttestation req.pubKey) with
    ⟨hrecord, e, he⟩ | ⟨hc, record, hu, hrecord⟩
  · rw [hrecord, withAttestation_eq, he]
    exact .refused fun ⟨_, h⟩ ↦ nomatch h
  · rw [hrecord]
    exact .ofAttestation hd ho hc hu

theorem signProtectedProposal_clears {b : BeaconBlock} {sign : Bool → Option ℕ → Signing ℕ}
    (hd : req.signatureDomain = .proposer) (hb : req.object.block? = some b)
    (hsign : ∀ account stored, (sign account stored).Protected stored
      (isSlashableProposal stored b.slot = .ok validProposal)
      (KeyManagerDeps.updateHighestProposal stored b.slot)) :
    ClearsWhenOk req (signProtectedProposal req.pubKey sign) := by
  intro s
  refine ⟨rfl, ?_⟩
  change Clears req s (s.withProposal req.pubKey (sign _ _).record) (∃ a, (sign _ _).result = .ok a)
  rcases hsign (s.accounts req.pubKey) (s.highestProposal req.pubKey) with
    ⟨hrecord, e, he⟩ | ⟨hc, record, hu, hrecord⟩
  · rw [hrecord, withProposal_eq, he]
    exact .refused fun ⟨_, h⟩ ↦ nomatch h
  · rw [hrecord]
    exact .ofProposal hd hb hc hu

theorem signUnprotected_silent (method : PlainMethod) (s : SignerStorage) :
    (signUnprotected env req method).wp (fun s' es _ ↦ s' = s ∧ es = []) s :=
  ⟨rfl, rfl⟩

theorem signCast_silent (expected : BeaconObject → Bool) (typeName : String) (method : PlainMethod)
    (s : SignerStorage) :
    (signCast env req expected typeName method).wp (fun s' es _ ↦ s' = s ∧ es = []) s := by
  unfold signCast
  rw [Act.wp_ite]
  split
  · exact ⟨rfl, rfl⟩
  · exact ⟨rfl, rfl⟩

theorem signBlock_clears (hd : req.signatureDomain = .proposer) :
    ClearsWhenOk req (signBlock cfg env req) := by
  unfold signBlock
  split
  · next p b ho =>
    exact signProtectedProposal_clears hd (by rw [ho]; rfl) fun _ _ ↦ signBeaconBlock_protected
  · next p b ho =>
    exact signProtectedProposal_clears hd (by rw [ho]; rfl)
      fun _ _ ↦ signBlindedBeaconBlock_protected
  · next b ho =>
    exact (ClearsWhenOk.guardProposal cfg env hd (by rw [ho]; rfl)).bind
      fun _ s ↦ signUnprotected_silent env _ s
  · exact .failWith

theorem signObject_clears : ClearsWhenOk req (signObject cfg env req) := by
  have hplain {x : StoreAct (Signature × Root)} (ha : req.signatureDomain ≠ .attester)
      (hp : req.signatureDomain ≠ .proposer)
      (hx : ∀ s, x.wp (fun s' es _ ↦ s' = s ∧ es = []) s) : ClearsWhenOk req x := .plain ha hp hx
  unfold signObject
  cases hd : req.signatureDomain with
  | attester =>
    cases ho : req.object with
    | attestationData =>
      exact signProtectedAttestation_clears hd ho fun _ _ ↦ signBeaconAttestation_protected
    | _ => exact .failWith
  | proposer => exact signBlock_clears cfg env hd
  | applicationBuilder =>
    cases ho : req.object with
    | validatorRegistration _ =>
      exact hplain (by simp [hd]) (by simp [hd]) (signUnprotected_silent env _)
    | _ => exact .failWith
  | other => exact .failWith
  | _ =>
    first
    | exact hplain (by simp [hd]) (by simp [hd]) (signUnprotected_silent env _)
    | exact hplain (by simp [hd]) (by simp [hd]) (signCast_silent env _ _ _)

theorem signBeaconObject_moves (s : SignerStorage) :
    (signBeaconObject cfg env req).wp (fun s' es _ ↦ CallMoves req.pubKey none none s s' es) s := by
  refine Act.wp_seq (signObject_clears cfg env s) ?_ ?_
  · rintro s' es e ⟨rfl, h⟩
    exact h.callMoves_nil
  · rintro s' es a ⟨rfl, h⟩
    exact h.callMoves ⟨a, rfl⟩

theorem saveAccount_quiet {P : SignerStorage → Prop} (key : SecretKey)
    (hP : ∀ s accounts, P s → P { s with accounts := accounts }) :
    Act.Quiet P P (saveAccount env key) :=
  .ite (fun _ ↦ .bind (Act.Quiet.lift fun _ h ↦ h).mapError (fun _ h ↦ h)
    fun _ ↦ .update fun s hs ↦ hP s _ hs) fun _ ↦ .fail fun _ h ↦ h

theorem addShare_moves (encryptedPrivKey : Bytes) (pk : PubKey) (s : SignerStorage) :
    Act.Quiet (· = s) (fun s' ↦ Moves pk (some (freshAttestationMark cfg env.now))
      (some (freshProposalMark cfg env.now)) s s' [] [])
        (addShare cfg env encryptedPrivKey pk) := by
  have hrefl (s' : SignerStorage) (hs : s' = s) : Moves pk (some (freshAttestationMark cfg env.now))
      (some (freshProposalMark cfg env.now)) s s' [] [] := hs ▸ .refl
  refine .bind (Q := (· = s)) (.lift fun _ h ↦ h) hrefl fun hex ↦ ?_
  refine .bind (Q := (· = s)) (.lift fun _ h ↦ h) hrefl fun key ↦ ?_
  refine .ite (fun hkey ↦ ?_) fun _ ↦ .fail hrefl
  subst hkey
  refine .bind (Act.Quiet.mapError ?_) (fun _ h ↦ h) fun _ ↦ ?_
  · rintro _ rfl
    exact bumpSlashingProtection_spec cfg env _ _
  -- what is left of the method concerns the wallet
  refine .bind (Act.Quiet.lift fun _ h ↦ h).mapError (fun _ h ↦ h) fun _ ↦ ?_
  refine .bind (.read fun _ h ↦ h) (fun _ h ↦ h) fun _ ↦ ?_
  refine .ite (fun _ ↦ .pure fun _ h ↦ h) fun _ ↦ ?_
  exact (saveAccount_quiet env key fun _ accounts h ↦ h.withAccounts accounts).mapError

end LocalKeyManager

/-! ### The remote manager -/

namespace RemoteKeyManager

variable {req : SignRequest} (cfg : BeaconConfig) (env : Env)

theorem slot_of_convertBlockToBeaconBlockData {object : BeaconObject} {version : DataVersion}
    {header : BlockHeader} (h : convertBlockToBeaconBlockData object version = .ok header) :
    ∃ b, object.block? = some b ∧ header.slot = b.slot := by
  unfold convertBlockToBeaconBlockData at h
  split at h
  · obtain ⟨root, -, hroot⟩ := Checks.bind_eq_ok.1 h
    cases hroot
    exact ⟨_, rfl, rfl⟩
  · obtain ⟨root, -, hroot⟩ := Checks.bind_eq_ok.1 h
    cases hroot
    exact ⟨_, rfl, rfl⟩
  · cases h

theorem handleDomainAttester_clears (hd : req.signatureDomain = .attester) :
    ClearsWhenOk req (handleDomainAttester cfg env req.object req.pubKey) := by
  unfold handleDomainAttester
  cases ho : req.object with
  | attestationData =>
    intro s
    simp only [Act.wp_ite]
    split
    · exact ClearsWhenOk.failWith s
    split
    · exact ClearsWhenOk.failWith s
    · exact ClearsWhenOk.attestation env hd ho s
  | _ => exact .failWith

theorem handleDomainProposer_clears (hd : req.signatureDomain = .proposer) :
    ClearsWhenOk req (handleDomainProposer cfg env req.object req.slot req.pubKey) := by
  intro s
  refine Act.wp_seq (Act.lift_spec s) ?_ ?_
  · rintro s' es e ⟨rfl, rfl, -⟩
    exact ⟨rfl, .refused fun ⟨_, h⟩ ↦ nomatch h⟩
  · rintro s' es header ⟨rfl, rfl, hheader⟩
    obtain ⟨b, hb, hslot⟩ := slot_of_convertBlockToBeaconBlockData hheader.symm
    rw [hslot]
    exact ClearsWhenOk.guardProposal cfg env hd hb s'

theorem prepareSignRequest_clears : ClearsWhenOk req (prepareSignRequest cfg env req) := by
  unfold prepareSignRequest
  refine ClearsWhenOk.bind ?_ fun _ s ↦ ?_
  · split
    · next hd => exact (handleDomainAttester_clears cfg env hd).bind fun _ s ↦ ⟨rfl, rfl⟩
    · next hd => exact (handleDomainProposer_clears cfg env hd).bind fun _ s ↦ ⟨rfl, rfl⟩
    · next ha hp => exact .plain ha hp fun s ↦ ⟨rfl, rfl⟩
  · refine Act.wp_seq (Act.lift_spec s) ?_ ?_
    · rintro s' es e ⟨rfl, rfl, -⟩
      exact ⟨rfl, rfl⟩
    · rintro s' es root ⟨rfl, rfl, -⟩
      exact ⟨rfl, rfl⟩

theorem signBeaconObject_moves (s : SignerStorage) :
    (signBeaconObject cfg env req).wp (fun s' es _ ↦ CallMoves req.pubKey none none s s' es) s := by
  refine Act.wp_seq (prepareSignRequest_clears cfg env s) ?_ ?_
  · rintro s' es e ⟨rfl, h⟩
    exact h.callMoves_nil
  · rintro s' es a ⟨rfl, h⟩
    simp only [Act.wp_bind, Act.wp_emit, Act.wp_mapError, Act.wp_lift]
    rcases env.remoteSign with e | signature
    · exact h.callMoves ⟨a, rfl⟩
    · exact h.callMoves ⟨a, rfl⟩

end RemoteKeyManager

end Ssv.Ekm
