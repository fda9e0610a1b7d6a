import SsvNode.Ekm.CallMoves
import SsvNode.Ekm.ReferenceDeps
import SsvNode.Lib.Machine

/-!
# Slashing safety of the key manager

A share is **safe** when nothing it signed is slashable and nothing of it can be signed again. Calls
other than signing write to a transaction that a later step commits or discards. Two things can
break safety: a record recreated from the clock instead of what was signed (`FreshMarksCover`), and
one in the transaction that replaces one that signing has raised since (`Txn.Settled`). Runs without
either are safe; `share_signs_twice` has a run for each.
-/

namespace Ssv.Ekm

section

variable [KeyManagerDeps]

open KeyManagerDeps SlashingProtector List

/-- The two implementations of `ekm.KeyManager`. -/
inductive KeyManager where
  | localKeyManager
  | remoteKeyManager
  deriving DecidableEq

inductive Call where
  | signBeaconObject (req : SignRequest)
  | addShare (encryptedPrivKey : Bytes) (pk : PubKey)
  | removeShare (pk : PubKey)
  | bumpSlashingProtection (pk : PubKey)

namespace Call

def pubKey : Call → PubKey
  | .signBeaconObject req => req.pubKey
  | .addShare _ pk => pk
  | .removeShare pk => pk
  | .bumpSlashingProtection pk => pk

/-- The call recreates protection records that are missing. -/
def bumps : Call → Bool
  | .addShare _ _ => true
  | .bumpSlashingProtection _ => true
  | _ => false

end Call

def KeyManager.perform (km : KeyManager) (cfg : BeaconConfig) (env : Env) : Call → StoreAct Unit
  | .signBeaconObject req =>
    match km with
    | .localKeyManager => do let _ ← LocalKeyManager.signBeaconObject cfg env req
    | .remoteKeyManager => do let _ ← RemoteKeyManager.signBeaconObject cfg env req
  | .addShare encryptedPrivKey pk =>
    match km with
    | .localKeyManager => LocalKeyManager.addShare cfg env encryptedPrivKey pk
    | .remoteKeyManager => RemoteKeyManager.addShare cfg env pk
  | .removeShare pk =>
    match km with
    | .localKeyManager => LocalKeyManager.removeShare env pk
    | .remoteKeyManager => RemoteKeyManager.removeShare env pk
  | .bumpSlashingProtection pk => SlashingProtector.bumpSlashingProtection cfg env pk

theorem KeyManager.sign_moves (km : KeyManager) (cfg : BeaconConfig) (env : Env)
    (req : SignRequest) (s : SignerStorage) :
    (km.perform cfg env (.signBeaconObject req)).wp
      (fun s' es _ ↦ CallMoves req.pubKey none none s s' es) s := by
  cases km with
  | localKeyManager =>
    refine Act.wp_seq (LocalKeyManager.signBeaconObject_moves cfg env s) (fun _ _ _ h ↦ h)
      fun s' es a h ↦ ?_
    rwa [Act.wp_pure, append_nil]
  | remoteKeyManager =>
    refine Act.wp_seq (RemoteKeyManager.signBeaconObject_moves cfg env s) (fun _ _ _ h ↦ h)
      fun s' es a h ↦ ?_
    rwa [Act.wp_pure, append_nil]

/-- The calls other than signing write through the transaction of their block. -/
inductive Step where
  | call (call : Call) (env : Env)
  | commit
  | discard

/-- The clock has not gone back. -/
def Step.OnTime (now : ℕ) : Step → Prop
  | .call _ env => now ≤ env.now
  | .commit | .discard => True

instance (now : ℕ) : ∀ step, Decidable (Step.OnTime now step)
  | .call _ _ => inferInstanceAs (Decidable (_ ≤ _))
  | .commit | .discard => .isTrue trivial

/-- The time of the last call, the store, the open transaction, and the signatures given away. -/
structure System where
  now : ℕ
  store : SignerStorage
  txn : Txn
  signed : List Signed

namespace System

/-- The store as the open transaction reads it. -/
def view (sys : System) : SignerStorage := sys.txn.view sys.store

def next (km : KeyManager) (cfg : BeaconConfig) (sys : System) : Step → System
  | .call (.signBeaconObject req) env =>
    let o := (km.perform cfg env (.signBeaconObject req)).run sys.store
    { sys with now := env.now, store := o.state, signed := sys.signed ++ o.events }
  | .call call env =>
    let o := (km.perform cfg env call).run sys.view
    { now := env.now
      store := { sys.store with accounts := o.state.accounts }
      txn := sys.txn.write sys.view o.state
      signed := sys.signed ++ o.events }
  | .commit => { sys with store := sys.view, txn := .empty }
  | .discard => { sys with txn := .empty }

/-- Any store, no open transaction, nothing signed yet, and a clock that does not go back. -/
def machine (km : KeyManager) (cfg : BeaconConfig) : Machine System Step where
  initial sys := sys.signed = [] ∧ sys.txn = .empty
  enabled sys step := step.OnTime sys.now
  next := next km cfg

instance (km : KeyManager) (cfg : BeaconConfig) (sys : System) (step : Step) :
    Decidable ((machine km cfg).enabled sys step) :=
  inferInstanceAs (Decidable (step.OnTime _))

/-- **The recreated records cover the log**: what the share has signed is not beyond what the clock
makes of them. -/
structure FreshMarksCover (cfg : BeaconConfig) (sys : System) (call : Call) (env : Env) : Prop where
  attestation : call.bumps → sys.view.highestAttestation call.pubKey = none →
    ∀ d ∈ attestationsOf call.pubKey sys.signed,
      d.source.epoch ≤ (freshAttestationMark cfg env.now).1 ∧
        d.target.epoch ≤ (freshAttestationMark cfg env.now).2
  proposal : call.bumps → sys.view.highestProposal call.pubKey = none →
    ∀ b ∈ proposalsOf call.pubKey sys.signed, b.1 ≤ freshProposalMark cfg env.now

instance (cfg : BeaconConfig) (sys : System) (call : Call) (env : Env) :
    Decidable (FreshMarksCover cfg sys call env) :=
  decidable_of_iff (_ ∧ _) ⟨fun h ↦ ⟨h.1, h.2⟩, fun h ↦ ⟨h.attestation, h.proposal⟩⟩

/-- **A step that keeps the records ahead of the log.** A share signs nothing while a record of its
waits for a commit. -/
def KeepsAhead (cfg : BeaconConfig) (sys : System) : Step → Prop
  | .call (.signBeaconObject req) _ => sys.txn.Settled req.pubKey
  | .call call env => FreshMarksCover cfg sys call env
  | .commit | .discard => True

instance (cfg : BeaconConfig) (sys : System) : ∀ step, Decidable (KeepsAhead cfg sys step)
  | .call (.signBeaconObject _) _ => inferInstanceAs (Decidable (Txn.Settled ..))
  | .call (.addShare ..) _ => inferInstanceAs (Decidable (FreshMarksCover ..))
  | .call (.removeShare _) _ => inferInstanceAs (Decidable (FreshMarksCover ..))
  | .call (.bumpSlashingProtection _) _ => inferInstanceAs (Decidable (FreshMarksCover ..))
  | .commit => .isTrue trivial
  | .discard => .isTrue trivial

/-- Nothing signed is slashable, or open. -/
structure SlashingSafe (sys : System) : Prop where
  no_doubleVote : ∀ pk, ∀ d ∈ attestationsOf pk sys.signed, ∀ d' ∈ attestationsOf pk sys.signed,
    ¬ Ffg.DoubleVote (·.target.epoch) d d'
  no_surroundVote : ∀ pk, ∀ d ∈ attestationsOf pk sys.signed, ∀ d' ∈ attestationsOf pk sys.signed,
    ¬ Ffg.SurroundVote (·.source.epoch) (·.target.epoch) d d'
  no_doubleProposal : ∀ pk, ∀ b ∈ proposalsOf pk sys.signed, ∀ b' ∈ proposalsOf pk sys.signed,
    b.1 = b'.1 → hashTreeRoot b.2 = hashTreeRoot b'.2
  target_closed : ∀ pk, ∀ d ∈ attestationsOf pk sys.signed, ∀ env d',
    d'.target.epoch = d.target.epoch →
      ((SlashingProtector.isAttestationSlashable env pk d').run sys.store).result ≠ .ok ()
  slot_closed : ∀ pk, ∀ b ∈ proposalsOf pk sys.signed, ∀ env,
    ((SlashingProtector.isBeaconBlockSlashable env pk b.1).run sys.store).result ≠ .ok ()

end System

/-! ### One call -/

/-- The mark given to a share without an attestation record. -/
def Call.freshMark? (cfg : BeaconConfig) (env : Env) (call : Call) : Option (ℕ × ℕ) :=
  if call.bumps then some (freshAttestationMark cfg env.now) else none

/-- The mark given to a share without a proposal record. -/
def Call.freshSlot? (cfg : BeaconConfig) (env : Env) (call : Call) : Option ℕ :=
  if call.bumps then some (freshProposalMark cfg env.now) else none

/-- **A call that does not sign** moves the marks of its share, and gives no signature away. -/
theorem KeyManager.perform_quiet (km : KeyManager) (cfg : BeaconConfig) (env : Env) {call : Call}
    (hcall : ∀ req, call ≠ .signBeaconObject req) (s : SignerStorage) :
    (km.perform cfg env call).wp (fun s' es _ ↦ es = [] ∧
      Moves call.pubKey (call.freshMark? cfg env) (call.freshSlot? cfg env) s s' [] []) s := by
  cases call with
  | signBeaconObject req => exact absurd rfl (hcall req)
  | addShare encryptedPrivKey pk =>
    cases km with
    | localKeyManager => exact LocalKeyManager.addShare_moves cfg env encryptedPrivKey pk s s rfl
    | remoteKeyManager => exact RemoteKeyManager.addShare_moves env pk s cfg s rfl
  | removeShare pk =>
    cases km with
    | localKeyManager => exact LocalKeyManager.removeShare_moves env pk s s .refl
    | remoteKeyManager => exact RemoteKeyManager.removeShare_moves env pk s s .refl
  | bumpSlashingProtection pk => exact bumpSlashingProtection_spec cfg env pk s

/-! ### Whole runs -/

/-- Both records of every share are high-water marks of a log. -/
structure Tracks (s : SignerStorage) (log : List Signed) : Prop where
  attestation : ∀ pk, attestationWatermark.Tracks (s.attestationMark pk) (attestationsOf pk log)
  proposal : ∀ pk, proposalWatermark.Tracks (s.highestProposal pk) (proposalsOf pk log)

namespace Tracks

variable {s s' : SignerStorage} {log es : List Signed} {pk : PubKey} {fresh : Option (ℕ × ℕ)}
  {freshSlot : Option ℕ}

omit [KeyManagerDeps] in
/-- A call keeps the marks ahead of the log, if the marks it recreates are. -/
theorem move (h : Tracks s log) (hmoves : CallMoves pk fresh freshSlot s s' es)
    (hfresh : s.highestAttestation pk = none → ∀ m ∈ fresh, ∀ d ∈ attestationsOf pk log,
      attestationWatermark.Covers m d)
    (hslot : s.highestProposal pk = none → ∀ m ∈ freshSlot, ∀ b ∈ proposalsOf pk log,
      proposalWatermark.Covers m b) : Tracks s' (log ++ es) := by
  obtain ⟨hmoves, hown⟩ := hmoves
  constructor
  · intro pk'
    rw [attestationsOf_append]
    by_cases hpk : pk' = pk
    · subst hpk
      exact (h.attestation _).move hmoves.attestation
        fun hnone ↦ hfresh (Option.map_eq_none_iff.1 hnone)
    · rw [(projections_of_ne hown hpk).1, append_nil, SignerStorage.attestationMark,
        hmoves.attestation_frame pk' hpk]
      exact h.attestation pk'
  · intro pk'
    rw [proposalsOf_append]
    by_cases hpk : pk' = pk
    · subst hpk
      exact (h.proposal _).move hmoves.proposal hslot
    · rw [(projections_of_ne hown hpk).2, append_nil, hmoves.proposal_frame pk' hpk]
      exact h.proposal pk'

omit [KeyManagerDeps] in
theorem congr (h : Tracks s log) (hatt : s'.highestAttestation = s.highestAttestation)
    (hprop : s'.highestProposal = s.highestProposal) : Tracks s' log := by
  refine ⟨fun pk ↦ ?_, fun pk ↦ ?_⟩
  · rw [SignerStorage.attestationMark, hatt]
    exact h.attestation pk
  · rw [hprop]
    exact h.proposal pk

omit [KeyManagerDeps] in
/-- Signing keeps the marks that a transaction has in view, if none of the share is waiting. -/
theorem view_of_sign {txn : Txn} (hview : Tracks (txn.view s) log) (h : Tracks s' (log ++ es))
    (hmoves : CallMoves pk none none s s' es) (hsettled : txn.Settled pk) :
    Tracks (txn.view s') (log ++ es) := by
  constructor
  · intro pk'
    by_cases hpk : pk' = pk
    · subst hpk
      exact (h.attestation _).of_written (Option.map attestationMark) rfl hsettled.1
    · rw [attestationsOf_append, (projections_of_ne hmoves.own hpk).1, append_nil]
      have hold := hview.attestation pk'
      simp only [SignerStorage.attestationMark, Txn.view] at hold ⊢
      rwa [hmoves.moves.attestation_frame pk' hpk]
  · intro pk'
    by_cases hpk : pk' = pk
    · subst hpk
      exact (h.proposal _).of_written id rfl hsettled.2
    · rw [proposalsOf_append, (projections_of_ne hmoves.own hpk).2, append_nil]
      have hold := hview.proposal pk'
      simp only [Txn.view] at hold ⊢
      rwa [hmoves.moves.proposal_frame pk' hpk]

end Tracks

namespace System

/-- The records are high-water marks of the log, in the store and after the commit of the
transaction. -/
structure Tracked (sys : System) : Prop where
  store : Tracks sys.store sys.signed
  view : Tracks sys.view sys.signed

variable {km : KeyManager} {cfg : BeaconConfig} {sys : System}

theorem Tracked.sign (h : Tracked sys) (env : Env) {req : SignRequest}
    (hsettled : sys.txn.Settled req.pubKey) :
    Tracked (next km cfg sys (.call (.signBeaconObject req) env)) := by
  have hmoves := Act.wp_iff.1 (km.sign_moves cfg env req sys.store)
  have hstore := h.store.move hmoves nofun nofun
  exact ⟨hstore, h.view.view_of_sign hstore hmoves hsettled⟩

theorem Tracked.transact (h : Tracked sys) {env : Env} {call : Call}
    (hcall : ∀ req, call ≠ .signBeaconObject req) (hfresh : FreshMarksCover cfg sys call env) :
    Tracked (next km cfg sys (.call call env)) := by
  obtain ⟨hevents, hmoves⟩ := Act.wp_iff.1 (km.perform_quiet cfg env hcall sys.view)
  have hnext : next km cfg sys (.call call env) =
      { now := env.now
        store := { sys.store with
          accounts := ((km.perform cfg env call).run sys.view).state.accounts }
        txn := sys.txn.write sys.view ((km.perform cfg env call).run sys.view).state
        signed := sys.signed } := by
    cases call with
    | signBeaconObject req => exact absurd rfl (hcall req)
    | _ => simp only [next, hevents, append_nil]
  rw [hnext]
  refine ⟨h.store.congr rfl rfl, ?_⟩
  have hview := h.view.move (CallMoves.silent hmoves) ?_ ?_
  · rw [append_nil] at hview
    obtain ⟨hatt, hprop⟩ := sys.txn.view_write (s := sys.store)
      (t := { sys.store with accounts := ((km.perform cfg env call).run sys.view).state.accounts })
      ((km.perform cfg env call).run sys.view).state rfl rfl
    exact hview.congr hatt hprop
  · intro hnone m hm
    rw [Call.freshMark?] at hm
    split at hm
    · next hbumps =>
      cases hm
      exact hfresh.attestation hbumps hnone
    · cases hm
  · intro hnone m hm
    rw [Call.freshSlot?] at hm
    split at hm
    · next hbumps =>
      cases hm
      exact hfresh.proposal hbumps hnone
    · cases hm

/-- **A step keeps the marks ahead of the log**, under the condition. -/
theorem Tracked.next (h : Tracked sys) {step : Step} (hstep : KeepsAhead cfg sys step) :
    Tracked (System.next km cfg sys step) := by
  cases step with
  | commit => exact ⟨h.view, h.view⟩
  | discard => exact ⟨h.store, h.store⟩
  | call call env =>
    cases call with
    | signBeaconObject req => exact h.sign env hstep
    | addShare | removeShare | bumpSlashingProtection => exact h.transact nofun hstep

/-- With the marks ahead of the log, a signed target is not cleared again. -/
theorem Tracked.target_closed {sys : System} (h : Tracked sys) {pk : PubKey} {d : AttestationData}
    (hd : d ∈ attestationsOf pk sys.signed) (env : Env) {d' : AttestationData}
    (ht : d'.target.epoch = d.target.epoch) :
    ((isAttestationSlashable env pk d').run sys.store).result ≠ .ok () := by
  intro hok
  have hc := (isAttestationSlashable_spec env pk sys.store d').2.2 hok
  cases hr : sys.store.highestAttestation pk with
  | none =>
    obtain ⟨e, he⟩ := isSlashableAttestation_none (d := d')
    rw [hr, he] at hc
    cases hc
  | some record =>
    rw [hr] at hc
    have hcovered := ((h.store.attestation pk).covered (attestationMark record)
      (by rw [SignerStorage.attestationMark, hr]; rfl) d hd).2
    exact absurd (isSlashableAttestation_some hc).2 (not_lt.2 (ht ▸ hcovered))

theorem Tracked.slot_closed {sys : System} (h : Tracked sys) {pk : PubKey} {b : ℕ × BeaconObject}
    (hb : b ∈ proposalsOf pk sys.signed) (env : Env) :
    ((isBeaconBlockSlashable env pk b.1).run sys.store).result ≠ .ok () := by
  intro hok
  have hc := (isBeaconBlockSlashable_spec env pk sys.store b.1).2.2 hok
  cases hr : sys.store.highestProposal pk with
  | none => exact isSlashableProposal_none (hr ▸ hc)
  | some record =>
    rw [hr] at hc
    exact absurd (isSlashableProposal_some hc)
      (not_lt.2 ((h.store.proposal pk).covered record hr b hb))

theorem Tracked.slashingSafe {sys : System} (h : Tracked sys) : SlashingSafe sys where
  no_doubleVote pk _ hd _ hd' := Ffg.not_doubleVote (h.store.attestation pk) hd hd'
  no_surroundVote pk _ hd _ hd' := Ffg.not_surroundVote (h.store.attestation pk) hd hd'
  no_doubleProposal pk _ hb _ hb' heq := by
    rw [Watermark.eq_of_rank_eq (h.store.proposal pk) hb hb' heq]
  target_closed _ _ hd env _ ht := h.target_closed hd env ht
  slot_closed _ _ hb env := h.slot_closed hb env

/-- **Slashing safety** of every state reached by steps that keep the records ahead of the log. -/
theorem slashing_safety (km : KeyManager) (cfg : BeaconConfig) {sys : System}
    (hsys : ((machine km cfg).restrict (KeepsAhead cfg)).Reachable sys) : SlashingSafe sys := by
  refine Tracked.slashingSafe (hsys.invariant ?_ ?_)
  · rintro sys ⟨hsigned, htxn⟩
    have hnil (s : SignerStorage) : Tracks s sys.signed := by
      rw [hsigned]
      exact ⟨fun _ ↦ .nil, fun _ ↦ .nil⟩
    exact ⟨hnil _, hnil _⟩
  · exact fun sys step _ h hstep ↦ h.next hstep.2

end System

end

/-! ### Runs -/

namespace Reference

local instance slashingDeps : KeyManagerDeps := deps

def unused : System where
  now := 0
  store := { highestAttestation := fun _ ↦ none, highestProposal := fun _ ↦ none,
             accounts := fun _ ↦ false }
  txn := .empty
  signed := []

def share : PubKey := [1]

def envAt (slot : ℕ) : Env := { now := slot * config.slotDuration }

def atSlot (slot : ℕ) (call : Call) : Step := .call call (envAt slot)

/-- A request to attest from one epoch to another. -/
def attest (source target : ℕ) (head : Root) : Call :=
  .signBeaconObject
    { object := .attestationData
        { beaconBlockRoot := head, source := { epoch := source }, target := { epoch := target } }
      domain := [], pubKey := share, slot := 0, signatureDomain := .attester }

/-- A request to sign a block, given by its slot and state root. -/
def propose (slot : ℕ) (stateRoot : Root) : Call :=
  .signBeaconObject
    { object := .beaconBlock .deneb
        { slot := slot, proposerIndex := 0, parentRoot := 0, stateRoot := stateRoot, body := [] }
      domain := [], pubKey := share, slot := slot, signatureDomain := .proposer }

/-- The share attests and proposes, leaves, comes back later, and is bumped without a commit. -/
def returnsLate : List Step :=
  [atSlot 96 (.addShare share share), .commit, atSlot 96 (attest 3 4 1), atSlot 97 (propose 98 1),
    atSlot 98 (.removeShare share), .commit, atSlot 128 (.addShare share share), .commit,
    atSlot 160 (.bumpSlashingProtection share), .discard, atSlot 160 (attest 3 5 2)]

/-- The share attests and proposes ahead of the clock, leaves, comes back at once, and is asked
again. -/
def returnsEarly : List Step :=
  [atSlot 96 (.addShare share share), .commit, atSlot 96 (attest 3 4 1), atSlot 96 (propose 97 1),
    atSlot 96 (.removeShare share), .commit, atSlot 96 (.addShare share share), .commit,
    atSlot 96 (attest 3 4 2), atSlot 96 (propose 97 2)]

/-- The share is bumped, attests before the commit, and is asked for the same target again. -/
def attestsBeforeCommit : List Step :=
  [atSlot 96 (.addShare share share), .commit, atSlot 351 (.bumpSlashingProtection share),
    atSlot 351 (attest 10 11 1), .commit, atSlot 351 (attest 10 11 2)]

def after (km : KeyManager) (steps : List Step) : System :=
  steps.foldl (System.next km config) unused

theorem slashing_safety_returnsLate :
    (attestationsOf share (after .localKeyManager returnsLate).signed).length = 2 ∧
      System.SlashingSafe (after .localKeyManager returnsLate) := by
  refine ⟨by decide +kernel, System.slashing_safety .localKeyManager config ?_⟩
  exact (Machine.Reachable.initial (show _ ∧ _ from ⟨rfl, rfl⟩)).foldl (by decide +kernel)

/-- **What is signed can be signed again**, after a removal or while a bump waits for its commit. -/
theorem share_signs_twice :
    (∃ sys, (System.machine .localKeyManager config).Reachable sys ∧
      sys = after .localKeyManager returnsEarly ∧
      ∃ d ∈ attestationsOf share sys.signed, ∃ d' ∈ attestationsOf share sys.signed,
        Ffg.DoubleVote (·.target.epoch) d d') ∧
    (∃ sys, (System.machine .remoteKeyManager config).Reachable sys ∧
      sys = after .remoteKeyManager returnsEarly ∧
      ∃ b ∈ proposalsOf share sys.signed, ∃ b' ∈ proposalsOf share sys.signed,
        b.1 = b'.1 ∧ KeyManagerDeps.hashTreeRoot b.2 ≠ KeyManagerDeps.hashTreeRoot b'.2) ∧
    (∃ sys, (System.machine .localKeyManager config).Reachable sys ∧
      sys = after .localKeyManager attestsBeforeCommit ∧
      ∃ d ∈ attestationsOf share sys.signed, ∃ d' ∈ attestationsOf share sys.signed,
        Ffg.DoubleVote (·.target.epoch) d d') := by
  have hreach (km : KeyManager) {steps : List Step}
      (h : (System.machine km config).Enables unused steps) :
      (System.machine km config).Reachable (after km steps) :=
    (Machine.Reachable.initial (show _ ∧ _ from ⟨rfl, rfl⟩)).foldl h
  refine ⟨⟨_, hreach .localKeyManager (by decide +kernel), rfl, ?_⟩,
    ⟨_, hreach .remoteKeyManager (by decide +kernel), rfl, ?_⟩,
    ⟨_, hreach .localKeyManager (by decide +kernel), rfl, ?_⟩⟩
  · unfold Ffg.DoubleVote
    decide +kernel
  · decide +kernel
  · unfold Ffg.DoubleVote
    decide +kernel

end Reference

end Ssv.Ekm
