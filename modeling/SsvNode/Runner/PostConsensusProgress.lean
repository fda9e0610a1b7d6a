import SsvNode.Runner.CommitteePostConsensus
import SsvNode.Runner.ReconstructionOutcome

/-!
# One packet of partial signatures

`reconstructedIn` lists the signatures that one packet completes, in the order of the loop over the
roots. The loop makes **progress** on the pairs of validator and root: one with a quorum ends up
among the objects to submit, or without a quorum (`Progress`). What is collected was expected
(`Collected.Sound`), and is submitted and recorded at the end (`Handled`).
-/

namespace Ssv

open Checks Validation CommitteeSpec Collected Act List AList

variable [CommitteeSpec]

/-! ### What is expected -/

variable {env : CommitteeEnv}

theorem signingRoot_ne {duty duty' : ValidatorDuty} {o o' : SszObject} {root root' : Root}
    (h : signingRoot env duty .attester o = .ok root)
    (h' : signingRoot env duty' .syncCommittee o' = .ok root') : root ≠ root' := by
  rintro rfl
  simp only [signingRoot, bind_eq_ok, mapError_eq_ok] at h h'
  obtain ⟨d, hd, hroot⟩ := h
  obtain ⟨d', hd', hroot'⟩ := h'
  obtain rfl := domain_of_signingRoot hroot hroot'
  cases env.type_of_domainData hd hd'

/-- The object that a validator signs over a root in a role, without its signature. -/
def ObjectFor (env : CommitteeEnv) (role : BeaconRole) (v : ℕ) (root : Root) (obj : BeaconObject) :
    Prop :=
  match role with
  | .attester => ∃ data version duty att, obj = .attestation att ∧ duty.validatorIndex = v ∧
      constructVersionedAttestationWithoutSignature data version duty = .ok att ∧
      signingRoot env duty .attester (.attestationData data) = .ok root
  | .syncCommittee => ∃ duty blockRoot, obj = .syncMessage ⟨duty.slot, blockRoot, v, []⟩ ∧
      duty.validatorIndex = v ∧ signingRoot env duty .syncCommittee (.blockRoot blockRoot) =
        .ok root
  | _ => False

theorem ObjectFor.role_eq {role role' : BeaconRole} {v v' : ℕ} {root : Root}
    {obj obj' : BeaconObject} (h : ObjectFor env role v root obj)
    (h' : ObjectFor env role' v' root obj') : role = role' := by
  unfold ObjectFor at h h'
  split at h <;> split at h' <;> try contradiction
  · rfl
  · obtain ⟨_, _, _, _, -, -, -, hatt⟩ := h
    obtain ⟨_, _, -, -, hsync⟩ := h'
    exact absurd rfl (signingRoot_ne hatt hsync)
  · obtain ⟨_, _, -, -, hsync⟩ := h
    obtain ⟨_, _, _, _, -, -, -, hatt⟩ := h'
    exact absurd rfl (signingRoot_ne hatt hsync)
  · rfl

/-- Every expected root comes with its object. -/
def ExpectedObjects.Built (env : CommitteeEnv) (e : ExpectedObjects) : Prop :=
  ∀ role v root, e.rootOf role v = some root →
    ∃ obj, e.objectOf v root = some obj ∧ ObjectFor env role v root obj

namespace ExpectedObjects

variable {e : ExpectedObjects} {root : Root} {v v' : ℕ} {obj : BeaconObject}
    {role role' : BeaconRole}

theorem objectOf_insert {root' : Root} : (e.insert role v root obj).objectOf v' root' =
      if v' = v ∧ root' = root then some obj else e.objectOf v' root' := by
  unfold objectOf insert
  rw [lookup_cons]
  by_cases h : (v', root') = (v, root)
  · cases h
    simp
  · rw [beq_false_of_ne h, if_neg fun h' ↦ h (Prod.ext h'.1 h'.2)]

theorem rootOf_insert (hrole : role = .attester ∨ role = .syncCommittee) :
    (e.insert role v root obj).rootOf role' v' =
      if role' = role ∧ v' = v then some root else e.rootOf role' v' := by
  by_cases h : v' = v
  · subst h
    rcases hrole with rfl | rfl <;> cases role' <;> simp [rootOf, insert]
  · rcases hrole with rfl | rfl <;> cases role' <;> simp [rootOf, insert, h]

theorem Built.rootOf_ne_some (h : e.Built env) (hempty : e.beaconObjects.isEmpty) :
    e.rootOf role v ≠ some root := by
  intro hroot
  obtain ⟨obj, hobj, -⟩ := h role v root hroot
  rw [objectOf, isEmpty_iff.1 hempty] at hobj
  cases hobj

/-- An added object takes nobody else's place: its root is not expected in the other role. -/
theorem Built.insert (h : e.Built env) (hrole : role = .attester ∨ role = .syncCommittee)
    (hobj : ObjectFor env role v root obj) : (e.insert role v root obj).Built env := by
  intro role' v' root' hroot
  rw [rootOf_insert hrole] at hroot
  rw [objectOf_insert]
  by_cases hself : role' = role ∧ v' = v
  · obtain ⟨rfl, rfl⟩ := hself
    rw [if_pos ⟨rfl, rfl⟩] at hroot
    cases hroot
    exact ⟨obj, if_pos ⟨rfl, rfl⟩, hobj⟩
  · rw [if_neg hself] at hroot
    obtain ⟨obj', hobj', hfor⟩ := h role' v' root' hroot
    rw [if_neg]
    · exact ⟨obj', hobj', hfor⟩
    · rintro ⟨rfl, rfl⟩
      exact hself ⟨hfor.role_eq hobj, rfl⟩

end ExpectedObjects

theorem expectDuty_built {vote : BeaconVote} {gloasIndex : Option ℕ} {dataVersion : ℕ}
    {acc acc' : ExpectedObjects × Option Err} {duty : Option ValidatorDuty}
    (h : expectDuty env vote gloasIndex dataVersion acc duty = .ok acc')
    (hbuilt : acc.1.Built env) : acc'.1.Built env := by
  rcases duty with - | duty
  · cases h
    exact hbuilt
  unfold expectDuty at h
  dsimp only at h
  split at h
  · split at h
    · rcases hatt : expectedAttestation env vote gloasIndex dataVersion duty with err | ⟨root, obj⟩
      · rw [hatt] at h
        cases h
        exact hbuilt
      · rw [hatt] at h
        cases h
        simp only [expectedAttestation, bind_eq_ok, mapError_eq_ok, pure_eq_ok] at hatt
        obtain ⟨att, hconstruct, _, hroot, heq⟩ := hatt
        cases heq
        exact hbuilt.insert (.inl rfl) ⟨_, _, duty, att, rfl, rfl, hconstruct, hroot⟩
    · rcases hsync : expectedSyncMessage env vote duty with err | ⟨root, obj⟩
      · rw [hsync] at h
        cases h
        exact hbuilt
      · rw [hsync] at h
        cases h
        simp only [expectedSyncMessage, bind_eq_ok, pure_eq_ok] at hsync
        obtain ⟨_, hroot, heq⟩ := hsync
        cases heq
        exact hbuilt.insert (.inr rfl) ⟨duty, _, rfl, rfl, hroot⟩
    · cases h
  · cases h
    exact hbuilt

variable {e : ExpectedObjects} {root : Root} {v : ℕ} {role : BeaconRole}

/-- **What is expected comes with its objects**, by induction on the duties. -/
theorem built_of_expected {s : CommitteeState}
    (h : expectedPostConsensusRootsAndBeaconObjects env s = .ok e) : e.Built env := by
  simp only [expectedPostConsensusRootsAndBeaconObjects, bind_eq_ok] at h
  obtain ⟨vote, -, acc, hacc, h⟩ := h
  have hempty : ExpectedObjects.empty.Built env := fun role _ _ hroot ↦ by
    cases role <;> simp [ExpectedObjects.rootOf, ExpectedObjects.empty] at hroot
  have hbuilt : acc.1.Built env :=
    foldlM_invariant (I := fun acc ↦ acc.1.Built env) (fun _ _ _ ↦ expectDuty_built) hacc hempty
  split at h
  · cases h
  · cases h
    exact hbuilt

/-! ### The validators of a root -/

omit [CommitteeSpec] in
theorem mem_validatorsWith {m : GoMap ℕ Root} :
    v ∈ validatorsWith root m ↔ m.lookup v = some root := by
  unfold validatorsWith
  simp only [mem_map, mem_filter, decide_eq_true_eq]
  constructor
  · rintro ⟨⟨v', root'⟩, ⟨hmem, rfl⟩, rfl⟩
    exact mem_lookup_iff.2 hmem
  · intro h
    exact ⟨⟨v, root⟩, ⟨mem_lookup_iff.1 h, rfl⟩, rfl⟩

theorem rootOf_of_findValidators {vs : List ℕ}
    (h : findValidators root e.attestationMap e.syncCommitteeMap = some (role, vs))
    (hv : v ∈ vs) : e.rootOf role v = some root := by
  unfold findValidators at h
  split at h
  · cases h
    exact mem_validatorsWith.1 hv
  · split at h
    · cases h
      exact mem_validatorsWith.1 hv
    · cases h

theorem findValidators_of_rootOf (hbuilt : e.Built env) (h : e.rootOf role v = some root) :
    ∃ vs, findValidators root e.attestationMap e.syncCommitteeMap = some (role, vs) ∧ v ∈ vs := by
  unfold findValidators
  cases role with
  | attester =>
    have hv : v ∈ validatorsWith root e.attestationMap := mem_validatorsWith.2 h
    exact ⟨_, if_pos (ne_nil_of_mem hv), hv⟩
  | syncCommittee =>
    have hv : v ∈ validatorsWith root e.syncCommitteeMap := mem_validatorsWith.2 h
    have hnone : validatorsWith root e.attestationMap = [] :=
      eq_nil_iff_forall_not_mem.2 fun v' hv' ↦ by
        obtain ⟨_, -, hatt⟩ := hbuilt .attester v' root (mem_validatorsWith.1 hv')
        obtain ⟨_, -, hsync⟩ := hbuilt .syncCommittee v root h
        cases hatt.role_eq hsync
    exact ⟨_, by rw [hnone, if_neg (fun h ↦ h rfl), if_pos (ne_nil_of_mem hv)], hv⟩
  | aggregator | syncCommitteeContribution | other => cases h

/-! ### What is collected -/

/-- A signed attestation of a validator over a root. -/
def SignedAttestation (env : CommitteeEnv) (att : VersionedAttestation) (v : ℕ) (root : Root)
    (signature : Bytes) : Prop :=
  attestationValidatorIndex att = some v ∧ attestationSignature att = signature ∧
    ∃ data duty, attestationDataOf att = .ok data ∧ duty.validatorIndex = v ∧
      signingRoot env duty .attester (.attestationData data) = .ok root

/-- A signed sync committee message of a validator over a root. -/
def SignedSyncMessage (env : CommitteeEnv) (msg : SyncCommitteeMessage) (v : ℕ) (root : Root)
    (signature : Bytes) : Prop :=
  msg.validatorIndex = v ∧ msg.signature = signature ∧
    ∃ duty, duty.slot = msg.slot ∧ duty.validatorIndex = v ∧
      signingRoot env duty .syncCommittee (.blockRoot msg.beaconBlockRoot) = .ok root

/-- An object that carries a signature of the validator over its expected root. -/
def Signed (shares : ShareMap) (e : ExpectedObjects) (role : BeaconRole) (v : ℕ)
    (object : Root → Bytes → Prop) : Prop :=
  ∃ root share signature, e.rootOf role v = some root ∧ shares.get v = some share ∧
    ValidatorSignature share root signature ∧ object root signature

theorem Signed.mono {shares : ShareMap} {P Q : Root → Bytes → Prop} (h : Signed shares e role v P)
    (hPQ : ∀ root signature, P root signature → Q root signature) : Signed shares e role v Q := by
  obtain ⟨root, share, signature, hroot, hshare, hsig, hobject⟩ := h
  exact ⟨root, share, signature, hroot, hshare, hsig, hPQ root signature hobject⟩

/-- A reconstructed signature: for which role and validator, over which root. -/
structure Reconstructed where
  role : BeaconRole
  validator : ℕ
  root : Root
  signature : Bytes
  deriving DecidableEq

namespace Collected

/-- An object of the validator is to be submitted. -/
def has (col : Collected) (role : BeaconRole) (v : ℕ) : Prop :=
  match role with
  | .attester => v ∈ col.attestationsToSubmit
  | .syncCommittee => v ∈ col.syncCommitteeMessagesToSubmit
  | _ => False

/-- The object of a validator, with its signature, is kept for submission. -/
def Holds (env : CommitteeEnv) (col : Collected) (x : Reconstructed) : Prop :=
  match x.role with
  | .attester => ∃ att, col.attestationsToSubmit.lookup x.validator = some att ∧
      SignedAttestation env att x.validator x.root x.signature
  | .syncCommittee => ∃ msg, col.syncCommitteeMessagesToSubmit.lookup x.validator = some msg ∧
      SignedSyncMessage env msg x.validator x.root x.signature
  | _ => False

/-- What is to be submitted was expected, and is signed. -/
def Sound (env : CommitteeEnv) (shares : ShareMap) (e : ExpectedObjects) (col : Collected) : Prop :=
  ∀ role v, col.has role v →
    Signed shares e role v fun root signature ↦ col.Holds env ⟨role, v, root, signature⟩

variable {col : Collected} {shares : ShareMap} {e : ExpectedObjects} {role : BeaconRole} {v : ℕ}

theorem role_of_has (h : col.has role v) : role = .attester ∨ role = .syncCommittee := by
  cases role with
  | attester => exact .inl rfl
  | syncCommittee => exact .inr rfl
  | aggregator | syncCommitteeContribution | other => cases h

theorem not_has_empty : ¬ empty.has role v := by
  cases role <;> simp [has, empty]

theorem sound_empty : Sound env shares e empty := fun _ _ h ↦ absurd h not_has_empty

@[simp] theorem has_classify {err : ReconstructError} :
    (col.classify err).has role v ↔ col.has role v := by
  unfold classify
  split <;> rfl

@[simp] theorem holds_classify {err : ReconstructError} {x : Reconstructed} :
    (col.classify err).Holds env x ↔ col.Holds env x := by
  unfold classify
  split <;> rfl

/-- **An expected object takes its signature**, and no other object's place. -/
theorem store_spec (col : Collected) (hbuilt : e.Built env) (signature : Bytes)
    (hroot : e.rootOf role v = some root) :
    ∃ col', col.store e role root v signature = .ok col' ∧ col'.has role v ∧
      col'.Holds env ⟨role, v, root, signature⟩ ∧
      ∀ role' v', (role', v') ≠ (role, v) → (col'.has role' v' ↔ col.has role' v') ∧
        ∀ root' signature', col'.Holds env ⟨role', v', root', signature'⟩ ↔
          col.Holds env ⟨role', v', root', signature'⟩ := by
  obtain ⟨_, hobj, hfor⟩ := hbuilt role v root hroot
  cases role with
  | attester =>
    obtain ⟨data, version, duty, att, rfl, hv, hconstruct, hsigning⟩ := hfor
    obtain ⟨att', hwith, hindex, hdata, hinside⟩ := withSignature_of_construct signature hconstruct
    refine ⟨{ col with attestationsToSubmit := col.attestationsToSubmit.insert v att' },
      by simp only [store, hobj, hwith], (mem_insert _).2 (.inl rfl), ⟨att', lookup_insert _,
        hindex.trans (congrArg some hv), hinside, data, duty, hdata, hv, hsigning⟩,
        fun role' v' hne ↦ ?_⟩
    cases role' with
    | attester =>
      have hv' : v' ≠ v := fun h ↦ hne (by rw [h])
      simp [has, Holds, mem_insert, lookup_insert_ne hv', hv']
    | _ => exact ⟨Iff.rfl, fun _ _ ↦ Iff.rfl⟩
  | syncCommittee =>
    obtain ⟨duty, blockRoot, rfl, hv, hsigning⟩ := hfor
    refine ⟨{ col with
        syncCommitteeMessagesToSubmit := col.syncCommitteeMessagesToSubmit.insert v
          ⟨duty.slot, blockRoot, v, signature⟩ },
      by simp only [store, hobj], (mem_insert _).2 (.inl rfl),
      ⟨_, lookup_insert _, rfl, rfl, duty, rfl, hv, hsigning⟩, fun role' v' hne ↦ ?_⟩
    cases role' with
    | syncCommittee =>
      have hv' : v' ≠ v := fun h ↦ hne (by rw [h])
      simp [has, Holds, mem_insert, lookup_insert_ne hv', hv']
    | _ => exact ⟨Iff.rfl, fun _ _ ↦ Iff.rfl⟩
  | aggregator | syncCommitteeContribution | other => cases hfor

end Collected

/-! ### What is reconstructed -/

/-- The signature that is reconstructed for a validator of a root. -/
def reconstructedFor (r : CommitteeRunner) (sched : Schedule) (role : BeaconRole) (root : Root)
    (c : PartialSigContainer) (v : ℕ) : Option Reconstructed :=
  if c.hasQuorum v root && !r.hasSubmitted role v then
    match r.share.get v with
    | none => none
    | some share =>
      match (reconstructQuorumSig sched.signatures c root share "post-consensus").2 with
      | .ok signature => some ⟨role, v, root, signature⟩
      | .error _ => none
  else none

/-- The signatures reconstructed over the validators of a root. -/
def reconstructedOf (r : CommitteeRunner) (sched : Schedule) (e : ExpectedObjects)
    (ahead : List Root) (role : BeaconRole) (root : Root) :
    PartialSigContainer × Collected → List ℕ → List Reconstructed
  | _, [] => []
  | acc, v :: vs =>
    (reconstructedFor r sched role root acc.1 v).toList ++
      match processValidator r sched e ahead role root acc v with
      | .ok acc' => reconstructedOf r sched e ahead role root acc' vs
      | .error _ => []

/-- The signatures reconstructed in the loop over the roots. -/
def reconstructedIn (r : CommitteeRunner) (sched : Schedule) (e : ExpectedObjects) :
    PartialSigContainer × Collected → List Root → List Reconstructed
  | _, [] => []
  | acc, root :: ahead =>
    match findValidators root e.attestationMap e.syncCommitteeMap with
    | none => reconstructedIn r sched e acc ahead
    | some (role, validators) =>
      reconstructedOf r sched e ahead role root acc ((sched.validators root).iterate validators) ++
        match ((sched.validators root).iterate validators).foldlM
          (processValidator r sched e ahead role root) acc with
        | .ok acc' => reconstructedIn r sched e acc' ahead
        | .error _ => []

variable {r : CommitteeRunner} {sched : Schedule} {x : Reconstructed} {vs : List ℕ}

theorem reconstructedFor_eq {c : PartialSigContainer}
    (h : x ∈ (reconstructedFor r sched role root c v).toList) :
    x.role = role ∧ x.validator = v ∧ x.root = root := by
  rw [Option.mem_toList] at h
  unfold reconstructedFor at h
  split at h
  · split at h
    · cases h
    · split at h
      · cases h
        exact ⟨rfl, rfl, rfl⟩
      · cases h
  · cases h

theorem mem_reconstructedOf {ahead : List Root} {acc : PartialSigContainer × Collected}
    (h : x ∈ reconstructedOf r sched e ahead role root acc vs) :
    x.role = role ∧ x.validator ∈ vs ∧ x.root = root := by
  induction vs generalizing acc with
  | nil => cases h
  | cons v vs ih =>
    rw [reconstructedOf, mem_append] at h
    rcases h with h | h
    · obtain ⟨hrole, rfl, hroot⟩ := reconstructedFor_eq h
      exact ⟨hrole, .head _, hroot⟩
    · split at h
      · obtain ⟨hrole, hv, hroot⟩ := ih h
        exact ⟨hrole, .tail _ hv, hroot⟩
      · cases h

theorem mem_reconstructedIn {roots : List Root} {acc : PartialSigContainer × Collected}
    (h : x ∈ reconstructedIn r sched e acc roots) :
    e.rootOf x.role x.validator = some x.root ∧ x.root ∈ roots := by
  induction roots generalizing acc with
  | nil => cases h
  | cons root ahead ih =>
    unfold reconstructedIn at h
    split at h
    · exact (ih h).imp_right (mem_cons_of_mem root)
    · next role vs hfind =>
      rcases mem_append.1 h with h | h
      · obtain ⟨rfl, hv, rfl⟩ := mem_reconstructedOf h
        exact ⟨rootOf_of_findValidators hfind ((sched.validators _).mem_iterate.1 hv), (.head _)⟩
      · split at h
        · exact (ih h).imp_right (mem_cons_of_mem root)
        · cases h

omit [CommitteeSpec] in
theorem nodup_validatorsWith {m : GoMap ℕ Root} : (validatorsWith root m).Nodup :=
  (filter_sublist.map Sigma.fst).nodup m.keys_nodup

omit [CommitteeSpec] in
theorem nodup_of_findValidators {m m' : GoMap ℕ Root}
    (h : findValidators root m m' = some (role, vs)) : vs.Nodup := by
  unfold findValidators at h
  split at h
  · cases h
    exact nodup_validatorsWith
  · split at h
    · cases h
      exact nodup_validatorsWith
    · cases h

/-! ### Progress on the roots -/

/-- What the loop has done from `acc` to `acc'`: it has gone through the targets and reconstructed
`log`. -/
structure Progress (env : CommitteeEnv) (r : CommitteeRunner) (e : ExpectedObjects)
    (targets : BeaconRole → ℕ → Root → Prop) (log : List Reconstructed)
    (acc acc' : PartialSigContainer × Collected) : Prop where
  purged : Purged r.share acc.1 acc'.1
  sound : acc.2.Sound env r.share e → acc'.2.Sound env r.share e
  /-- What is not reconstructed again stays. -/
  kept : ∀ x : Reconstructed, (∀ y ∈ log, (x.role, x.validator) ≠ (y.role, y.validator)) →
    acc.2.Holds env x → acc'.2.Holds env x
  gained : ∀ x ∈ log, acc'.2.Holds env x
  has_iff : ∀ role v, acc'.2.has role v ↔ acc.2.has role v ∨ ∃ x ∈ log, x.role = role ∧
    x.validator = v
  /-- A target that still has a quorum is reconstructed. -/
  settled : (∀ v share root, r.share.get v = some share → Combines acc.1.quorum share root) →
    ∀ role v root, targets role v root → (r.share.get v).isSome → r.hasSubmitted role v = false →
      acc'.1.hasQuorum v root → ∃ x ∈ log, x.role = role ∧ x.validator = v

namespace Progress

variable {acc acc' acc'' : PartialSigContainer × Collected} {log log' : List Reconstructed}
  {targets targets' targets'' : BeaconRole → ℕ → Root → Prop}

theorem stay (h : ∀ role v root, targets role v root → (r.share.get v).isSome →
    r.hasSubmitted role v = false → acc.1.hasQuorum v root = false) :
      Progress env r e targets [] acc acc where
  purged := .refl
  sound := id
  kept _ _ h := h
  gained _ h := nomatch h
  has_iff _ _ := by simp
  settled _ role v root ht hshare hnew hq := by simp [h role v root ht hshare hnew] at hq

theorem mono_targets (h : Progress env r e targets log acc acc')
    (hsub : ∀ role v root, targets' role v root → targets role v root) :
    Progress env r e targets' log acc acc' :=
  { h with
    settled := fun hcombine role v root ht ↦ h.settled hcombine role v root (hsub role v root ht) }

/-- Two stretches of the loop that take up no validator in the same role. -/
theorem trans (h : Progress env r e targets log acc acc')
    (h' : Progress env r e targets' log' acc' acc'')
    (hdisjoint : ∀ x ∈ log, ∀ y ∈ log', (x.role, x.validator) ≠ (y.role, y.validator))
    (hunion : ∀ role v root, targets'' role v root → targets role v root ∨ targets' role v root) :
    Progress env r e targets'' (log ++ log') acc acc'' where
  purged := h.purged.trans h'.purged
  sound hcol := h'.sound (h.sound hcol)
  kept x hx hcol := h'.kept x (fun y hy ↦ hx y (mem_append_right _ hy))
    (h.kept x (fun y hy ↦ hx y (mem_append_left _ hy)) hcol)
  gained x hx := by
    rcases mem_append.1 hx with hx | hx
    · exact h'.kept x (hdisjoint x hx) (h.gained x hx)
    · exact h'.gained x hx
  has_iff role v := by
    rw [h'.has_iff, h.has_iff, or_assoc]
    simp only [mem_append, or_and_right, exists_or]
  settled hcombine role v root ht hshare hnew hq := by
    rcases hunion role v root ht with ht | ht
    · obtain ⟨x, hx, hrole⟩ := h.settled hcombine role v root ht hshare hnew
        (h'.purged.hasQuorum hq)
      exact ⟨x, mem_append_left _ hx, hrole⟩
    · obtain ⟨x, hx, hrole⟩ :=
        h'.settled (h.purged.quorum ▸ hcombine) role v root ht hshare hnew hq
      exact ⟨x, mem_append_right _ hx, hrole⟩

end Progress

theorem processValidator_progress (r : CommitteeRunner) (sched : Schedule) (ahead : List Root)
    (hbuilt : e.Built env) (hroot : e.rootOf role v = some root)
    (acc : PartialSigContainer × Collected) :
    ∃ acc', processValidator r sched e ahead role root acc v = .ok acc' ∧
      Progress env r e (fun role' v' root' ↦ role' = role ∧ v' = v ∧ root' = root)
        (reconstructedFor r sched role root acc.1 v).toList acc acc' := by
  unfold processValidator reconstructedFor
  by_cases hq : acc.1.hasQuorum v root
  · by_cases hsubmitted : r.hasSubmitted role v
    · simp only [hq, hsubmitted, Bool.not_true, Bool.false_eq_true, if_false, if_true,
        Bool.and_false]
      refine ⟨acc, rfl, .stay ?_⟩
      rintro _ _ _ ⟨rfl, rfl, rfl⟩ - hnew
      simp [hsubmitted] at hnew
    simp only [hq, hsubmitted, Bool.not_true, Bool.not_false, Bool.false_eq_true, if_false,
      Bool.and_true, if_true]
    rcases hshare : r.share.get v with - | share
    · refine ⟨acc, rfl, .stay ?_⟩
      rintro _ _ _ ⟨rfl, rfl, rfl⟩ hsome
      simp [hshare] at hsome
    dsimp only
    obtain ⟨hpurged, hresult⟩ := reconstructQuorumSig_spec sched.signatures "post-consensus"
      hshare acc.1
    generalize reconstructQuorumSig sched.signatures acc.1 root share "post-consensus" = rec at *
    obtain ⟨c, err | signature⟩ := rec
    · -- the quorum is broken up, and the roots ahead are purged
      have hahead : ∀ (l : List Root) (c : PartialSigContainer), Purged r.share c
          (l.foldl (fun c root ↦ fallBackAndVerifyEachSignature c root share.committee v) c) := by
        intro l
        induction l with
        | nil => exact fun c ↦ .refl
        | cons root l ih => exact fun c ↦ (purged_fallBack hshare).trans (ih _)
      refine ⟨(_, acc.2.classify err), rfl, hpurged.trans (hahead ahead c), fun h role' v' hv' ↦ ?_,
        fun _ _ h ↦ holds_classify.2 h, fun _ h ↦ absurd h not_mem_nil, by simp, ?_⟩
      · exact (h role' v' (has_classify.1 hv')).mono fun _ _ ↦ holds_classify.2
      · rintro hcombine _ _ _ ⟨rfl, rfl, rfl⟩ - - hstill
        have := (hahead ahead c).hasQuorum hstill
        rw [hresult (hcombine _ share _ hshare)] at this
        cases this
    · obtain ⟨col', hstore, hhas, hholds, hother⟩ := store_spec acc.2 hbuilt signature hroot
      refine ⟨(c, col'), by simp only [hstore]; rfl, hpurged, fun h role' v' hv' ↦ ?_, fun x hx h ↦
        ?_, ?_,
        fun role' v' ↦ ?_, ?_⟩
      · by_cases hself : (role', v') = (role, v)
        · cases hself
          exact ⟨root, share, signature, hroot, hshare, hresult, hholds⟩
        · exact (h role' v' ((hother role' v' hself).1.1 hv')).mono fun _ _ ↦
            ((hother role' v' hself).2 _ _).2
      · exact ((hother x.role x.validator (hx _ (mem_singleton.2 rfl))).2 _ _).2 h
      · intro x hx
        obtain rfl := mem_singleton.1 hx
        exact hholds
      · by_cases hself : (role', v') = (role, v)
        · cases hself
          simp [hhas]
        · rw [(hother role' v' hself).1]
          refine (or_iff_left ?_).symm
          rintro ⟨x, hx, rfl, rfl⟩
          obtain rfl := mem_singleton.1 hx
          exact hself rfl
      · rintro - _ _ _ ⟨rfl, rfl, rfl⟩ - - -
        exact ⟨_, mem_singleton.2 rfl, rfl, rfl⟩
  · simp only [hq, Bool.not_false, if_true, Bool.false_and, Bool.false_eq_true, if_false]
    refine ⟨acc, rfl, .stay ?_⟩
    rintro _ _ _ ⟨rfl, rfl, rfl⟩ - -
    exact Bool.eq_false_of_not_eq_true hq

theorem foldlM_processValidator_progress (r : CommitteeRunner) (sched : Schedule)
    (ahead : List Root) (hbuilt : e.Built env) (hnodup : vs.Nodup)
    (hvs : ∀ v ∈ vs, e.rootOf role v = some root) (acc : PartialSigContainer × Collected) :
    ∃ acc', vs.foldlM (processValidator r sched e ahead role root) acc = .ok acc' ∧
      Progress env r e (fun role' v root' ↦ role' = role ∧ v ∈ vs ∧ root' = root)
        (reconstructedOf r sched e ahead role root acc vs) acc acc' := by
  induction vs generalizing acc with
  | nil => exact ⟨acc, rfl, .stay fun _ _ _ h ↦ nomatch h.2.1⟩
  | cons v vs ih =>
    obtain ⟨hv, hnodup⟩ := nodup_cons.1 hnodup
    obtain ⟨acc₁, hfirst, hprogress⟩ :=
      processValidator_progress r sched ahead hbuilt (hvs v (.head _)) acc
    obtain ⟨acc', hrest, hprogress'⟩ := ih hnodup (fun v' hv' ↦ hvs v' (.tail _ hv')) acc₁
    refine ⟨acc', by rw [foldlM_cons, hfirst]; exact hrest, ?_⟩
    rw [reconstructedOf, hfirst]
    refine hprogress.trans hprogress' (fun x hx y hy heq ↦ hv ?_) ?_
    · have hxv := (reconstructedFor_eq hx).2.1
      have hyv := (mem_reconstructedOf hy).2.1
      rw [← hxv, (Prod.mk.inj heq).2]
      exact hyv
    · rintro role' v' root' ⟨hrole, hmem, hroot⟩
      rcases mem_cons.1 hmem with rfl | hmem
      · exact .inl ⟨hrole, rfl, hroot⟩
      · exact .inr ⟨hrole, hmem, hroot⟩

variable {roots : List Root} {signature : Bytes}

/-- **The roots, by induction on their order.** What is reconstructed is kept for submission. -/
theorem processRoots_progress (r : CommitteeRunner) (sched : Schedule) (hbuilt : e.Built env)
    (hnodup : roots.Nodup) (acc : PartialSigContainer × Collected) :
    ∃ acc', processRoots r sched e acc roots = .ok acc' ∧
      Progress env r e (fun role v root ↦ e.rootOf role v = some root ∧ root ∈ roots)
        (reconstructedIn r sched e acc roots) acc acc' := by
  induction roots generalizing acc with
  | nil => exact ⟨acc, rfl, .stay fun _ _ _ h ↦ nomatch h.2⟩
  | cons root ahead ih =>
    obtain ⟨honce, hnodup⟩ := nodup_cons.1 hnodup
    unfold processRoots reconstructedIn
    rcases hfind : findValidators root e.attestationMap e.syncCommitteeMap with - | ⟨role, vs⟩
    · obtain ⟨acc', hrest, hprogress⟩ := ih hnodup acc
      refine ⟨acc', hrest, hprogress.mono_targets ?_⟩
      rintro role v root' ⟨hroot, hmem⟩
      rcases mem_cons.1 hmem with rfl | hmem
      · obtain ⟨vs, hsome, -⟩ := findValidators_of_rootOf hbuilt hroot
        rw [hfind] at hsome
        cases hsome
      · exact ⟨hroot, hmem⟩
    · have hvs : ∀ v ∈ (sched.validators root).iterate vs, e.rootOf role v = some root := fun v hv ↦
        rootOf_of_findValidators hfind ((sched.validators root).mem_iterate.1 hv)
      obtain ⟨acc₁, hfirst, hprogress⟩ := foldlM_processValidator_progress r sched ahead hbuilt
        (((sched.validators root).perm vs).nodup_iff.2 (nodup_of_findValidators hfind)) hvs acc
      obtain ⟨acc', hrest, hprogress'⟩ := ih hnodup acc₁
      refine ⟨acc', by simp only [hfirst]; exact hrest, ?_⟩
      simp only [hfirst]
      refine hprogress.trans hprogress' (fun x hx y hy heq ↦ honce ?_) ?_
      · -- a validator signs one root in a role, and this root does not come again
        obtain ⟨hxrole, hxv, -⟩ := mem_reconstructedOf hx
        obtain ⟨hyroot, hymem⟩ := mem_reconstructedIn hy
        obtain ⟨hrole, hv⟩ := Prod.mk.inj heq
        rw [← hrole, ← hv, hxrole] at hyroot
        rw [Option.some.inj ((hvs x.validator hxv).symm.trans hyroot)]
        exact hymem
      · rintro role' v root' ⟨hroot, hmem⟩
        rcases mem_cons.1 hmem with rfl | hmem
        · obtain ⟨vs', hsome, hv⟩ := findValidators_of_rootOf hbuilt hroot
          obtain ⟨rfl, rfl⟩ := Prod.mk.inj (Option.some.inj (hfind.symm.trans hsome))
          exact .inl ⟨rfl, (sched.validators root').mem_iterate.2 hv, rfl⟩
        · exact .inr ⟨hroot, hmem⟩

/-! ### Submitting -/

structure CommitteeEnv.Accepts (env : CommitteeEnv) : Prop where
  attestations : ∀ l, env.submitAttestations l = .ok ()
  syncMessages : ∀ l, env.submitSyncMessages l = .ok ()

/-- **The object has been handed to the beacon node**, with its signature. -/
def HandedOver (env : CommitteeEnv) (calls : List BeaconCall) (role : BeaconRole) (v : ℕ)
    (root : Root) (signature : Bytes) : Prop :=
  match role with
  | .attester => ∃ atts, .submitAttestations atts ∈ calls ∧
      ∃ att ∈ atts, SignedAttestation env att v root signature
  | .syncCommittee => ∃ msgs, .submitSyncMessages msgs ∈ calls ∧
      ∃ msg ∈ msgs, SignedSyncMessage env msg v root signature
  | _ => False

theorem HandedOver.mono {calls calls' : List BeaconCall} (hcalls : ∀ c ∈ calls, c ∈ calls')
    (h : HandedOver env calls role v root signature) :
    HandedOver env calls' role v root signature := by
  unfold HandedOver at h ⊢
  split at h
  · obtain ⟨atts, hmem, hatt⟩ := h
    exact ⟨atts, hcalls _ hmem, hatt⟩
  · obtain ⟨msgs, hmem, hmsg⟩ := h
    exact ⟨msgs, hcalls _ hmem, hmsg⟩
  · exact h

/-- The object has been passed to the beacon node. -/
def Reconstructed.PassedIn (env : CommitteeEnv) (calls : List BeaconCall) (x : Reconstructed) :
    Prop :=
  HandedOver env calls x.role x.validator x.root x.signature

/-- The outcome of submitting what has been collected in a role. -/
structure Submitted (env : CommitteeEnv) (col : Collected) (role : BeaconRole)
    (r r' : CommitteeRunner)
    (calls : List BeaconCall) (result : Except Err Unit) : Prop where
  state : r'.state = r.state
  share : r'.share = r.share
  /-- Everything is passed on, whatever comes of it. -/
  passed : ∀ x : Reconstructed, x.role = role → col.Holds env x → x.PassedIn env calls
  recorded : result = .ok () → ∀ role' v, (role', v) ∈ r'.submittedDuties ↔
    (role', v) ∈ r.submittedDuties ∨ role' = role ∧ col.has role v

omit [CommitteeSpec] in
theorem CommitteeRunner.mem_recordSubmissions {role' : BeaconRole} :
    (role', v) ∈ (r.recordSubmissions role vs).submittedDuties ↔
      (role', v) ∈ r.submittedDuties ∨ role' = role ∧ v ∈ vs := by
  simp only [recordSubmissions, mem_append, mem_map, Prod.mk.injEq, exists_eq_right_right]
  constructor
  · rintro (⟨hv, rfl⟩ | h)
    · exact .inr ⟨rfl, hv⟩
    · exact .inl h
  · rintro (h | ⟨rfl, hv⟩)
    · exact .inr h
    · exact .inl ⟨hv, rfl⟩

variable {col : Collected} {a : Except Err Unit}

theorem submitAttestations_spec (sched : Schedule) (ha : ∀ l, env.submitAttestations l = a)
    (hsound : col.Sound env r.share e) :
    (submitAttestations env sched col).wp (fun r' calls result ↦
      (∀ msgs, .submitSyncMessages msgs ∉ calls) ∧
        (result = .ok () ↔ a = .ok () ∨ ∀ v, ¬ col.has .attester v) ∧
        Submitted env col .attester r r' calls result) r := by
  have hheld : ∀ v att, col.attestationsToSubmit.lookup v = some att →
      att ∈ attestationsOf sched col ∧ ∃ data, attestationDataOf att = .ok data := by
    intro v att hlookup
    obtain ⟨_, _, _, -, -, -, att', hatt', hindex, -, data, _, hdata, -⟩ :=
      hsound .attester v (lookup_isSome.1 (Option.isSome_iff_exists.2 ⟨att, hlookup⟩))
    obtain rfl := Option.some.inj (hlookup.symm.trans hatt')
    refine ⟨sched.attestations.mem_iterate.2 (mem_filter.2 ⟨?_, by simp [hindex]⟩), data, hdata⟩
    exact mem_map.2 ⟨⟨v, att⟩, mem_lookup_iff.1 hlookup, rfl⟩
  unfold submitAttestations
  rcases hatts : attestationsOf sched col with - | ⟨att, atts⟩
  · have hnone : ∀ v att, col.attestationsToSubmit.lookup v ≠ some att := fun v att hlookup ↦ by
      have := (hheld v att hlookup).1
      rw [hatts] at this
      cases this
    have hhas : ∀ v, ¬ col.has .attester v := fun v hv ↦ by
      obtain ⟨att, hlookup⟩ := Option.isSome_iff_exists.1 (lookup_isSome.2 hv)
      exact hnone v att hlookup
    refine ⟨fun _ ↦ not_mem_nil, iff_of_true rfl (.inr hhas), rfl, rfl, ?_, fun _ role' v ↦ ?_⟩
    · rintro ⟨_, v, _, _⟩ rfl ⟨att, hlookup, -⟩
      exact absurd hlookup (hnone v att)
    · exact (or_iff_left fun h ↦ hhas v h.2).symm
  · obtain ⟨⟨v, att'⟩, hentry, rfl⟩ := mem_map.1 (mem_filter.1
      (sched.attestations.mem_iterate.1 (hatts ▸ (.head _) : att ∈ attestationsOf sched col))).1
    have hlookup := mem_lookup_iff.2 hentry
    obtain ⟨-, data, hdata⟩ := hheld v att' hlookup
    have hhas : (∀ v, ¬ col.has .attester v) ↔ False := iff_false_intro fun hnone ↦
      hnone v (lookup_isSome.1 (Option.isSome_iff_exists.2 ⟨att', hlookup⟩))
    have hpassed : ∀ x : Reconstructed, x.role = .attester → col.Holds env x →
        x.PassedIn env [.submitAttestations (att' :: atts)] := by
      rintro ⟨_, v, _, _⟩ rfl ⟨att, hlookup, hsigned⟩
      exact ⟨_, .head _, att, hatts ▸ (hheld v att hlookup).1, hsigned⟩
    have hcalls : ∀ msgs, BeaconCall.submitSyncMessages msgs ∉
        [.submitAttestations (att' :: atts)] := by
      intro msgs hcall
      cases mem_singleton.1 hcall
    simp only [ha, hdata, hhas, or_false]
    rcases a with err | ⟨⟩
    · exact ⟨hcalls, iff_of_false nofun nofun, rfl, rfl, hpassed, nofun⟩
    · exact ⟨hcalls, iff_of_true rfl rfl, rfl, rfl, hpassed, fun _ _ _ ↦
        CommitteeRunner.mem_recordSubmissions⟩

theorem submitSyncMessages_spec : (submitSyncMessages env col).wp (fun r' calls result ↦
    (env.Accepts → result = .ok ()) ∧ Submitted env col .syncCommittee r r' calls result) r := by
  have hmem : ∀ v msg, col.syncCommitteeMessagesToSubmit.lookup v = some msg →
      msg ∈ syncMessagesOf col := fun v msg hlookup ↦
    mem_map.2 ⟨⟨v, msg⟩, mem_lookup_iff.1 hlookup, rfl⟩
  unfold submitSyncMessages
  rcases hmsgs : syncMessagesOf col with - | ⟨msg, msgs⟩
  · have hnone : ∀ v msg, col.syncCommitteeMessagesToSubmit.lookup v ≠ some msg :=
      fun v msg hlookup ↦ by
      have := hmem v msg hlookup
      rw [hmsgs] at this
      cases this
    refine ⟨fun _ ↦ rfl, rfl, rfl, ?_, fun _ role' v ↦ (or_iff_left fun h ↦ ?_).symm⟩
    · rintro ⟨_, v, _, _⟩ rfl ⟨msg, hlookup, -⟩
      exact absurd hlookup (hnone v msg)
    · obtain ⟨msg, hlookup⟩ := Option.isSome_iff_exists.1 (lookup_isSome.2 h.2)
      exact hnone v msg hlookup
  · have hpassed : ∀ x : Reconstructed, x.role = .syncCommittee → col.Holds env x →
        x.PassedIn env [.submitSyncMessages (msg :: msgs)] := by
      rintro ⟨_, v, _, _⟩ rfl ⟨msg', hlookup, hsigned⟩
      exact ⟨_, .head _, msg', hmsgs ▸ hmem v msg' hlookup, hsigned⟩
    rw [wp_bind, wp_emit, wp_bind, wp_lift]
    rcases hanswer : env.submitSyncMessages (msg :: msgs) with err | ⟨⟩
    · exact ⟨fun h ↦ by simp [h.syncMessages] at hanswer, rfl, rfl, hpassed, nofun⟩
    · exact ⟨fun _ ↦ rfl, rfl, rfl, hpassed, fun _ _ _ ↦ CommitteeRunner.mem_recordSubmissions⟩

theorem concludePostConsensus_spec :
    (concludePostConsensus e col).wp (fun r' calls _ ↦
      calls = [] ∧ (r' = r ∨ r' = r.markDutySucceeded)) r := by
  unfold concludePostConsensus
  split
  · exact ⟨rfl, .inl rfl⟩
  · exact ⟨rfl, .inl rfl⟩
  · rw [wp_bind, wp_read]
    dsimp only
    split
    · exact ⟨rfl, .inr rfl⟩
    · exact ⟨rfl, .inl rfl⟩

theorem HandedOver.append_left {calls : List BeaconCall} (calls' : List BeaconCall)
    (h : HandedOver env calls role v root signature) :
    HandedOver env (calls ++ calls') role v root signature :=
  h.mono fun _ ↦ mem_append_left _

theorem HandedOver.append_right (calls : List BeaconCall) {calls' : List BeaconCall}
    (h : HandedOver env calls' role v root signature) :
    HandedOver env (calls ++ calls') role v root signature :=
  h.mono fun _ ↦ mem_append_right _

/-- What a call does with what was collected; `a` is the node's answer to the attestations. -/
structure Handled (env : CommitteeEnv) (a : Except Err Unit) (col : Collected)
    (c : PartialSigContainer)
    (s : CommitteeState) (r r' : CommitteeRunner) (calls : List BeaconCall) : Prop where
  state : ∃ succeeded,
    r'.state = some { s with postConsensusContainer := c, succeeded := succeeded }
  share : r'.share = r.share
  attestations : ∀ x : Reconstructed, x.role = .attester → col.Holds env x → x.PassedIn env calls
  /-- The sync committee messages follow unless the node refuses attestations. -/
  syncMessages : (a = .ok () ∨ ∀ v, ¬ col.has .attester v) →
    ∀ x : Reconstructed, x.role = .syncCommittee → col.Holds env x → x.PassedIn env calls
  refused : ¬ (a = .ok () ∨ ∀ v, ¬ col.has .attester v) → ∀ msgs, .submitSyncMessages msgs ∉ calls
  recorded : env.Accepts → ∀ role v, (role, v) ∈ r'.submittedDuties ↔
    (role, v) ∈ r.submittedDuties ∨ col.has role v

/-- **The roots that have reached a quorum.** -/
theorem processQuorumRoots_spec (hnodup : roots.Nodup)
    (ha : ∀ l, env.submitAttestations l = a) {s : CommitteeState} (hs : r.state = some s)
    (he : expectedPostConsensusRootsAndBeaconObjects env s = .ok e) :
    (processQuorumRoots env sched roots s).wp (fun r' calls _ ↦ ∃ c col,
      Progress env r e (fun role v root ↦ e.rootOf role v = some root ∧ root ∈ roots)
        (reconstructedIn r sched e (s.postConsensusContainer, empty) roots)
        (s.postConsensusContainer, empty) (c, col) ∧ Handled env a col c s r r' calls) r := by
  have hbuilt := built_of_expected he
  unfold processQuorumRoots
  simp only [he, Except.mapError, lift_ok_bind]
  by_cases hempty : e.beaconObjects.isEmpty
  · rw [if_pos hempty]
    have hnone : ∀ {role v root}, e.rootOf role v ≠ some root := hbuilt.rootOf_ne_some hempty
    have hlog : reconstructedIn r sched e (s.postConsensusContainer, empty) roots = [] :=
      eq_nil_iff_forall_not_mem.2 fun x hx ↦ hnone (mem_reconstructedIn hx).1
    rw [wp_bind, wp_update]
    have hconcluded : r.markDutySucceeded.state = some { s with succeeded := true } := by
      simp [CommitteeRunner.markDutySucceeded, hs]
    refine ⟨s.postConsensusContainer, empty, ?_, ⟨true, hconcluded⟩, rfl, ?_, fun _ ↦ ?_,
      fun _ _ ↦ not_mem_nil, fun _ _ _ ↦ (or_iff_left not_has_empty).symm⟩
    · rw [hlog]
      exact .stay fun _ _ _ h ↦ absurd h.1 hnone
    · rintro ⟨_, v, _, _⟩ rfl ⟨att, hlookup, -⟩
      simp [empty] at hlookup
    · rintro ⟨_, v, _, _⟩ rfl ⟨msg, hlookup, -⟩
      simp [empty] at hlookup
  obtain ⟨⟨c, col⟩, hroots, hprogress⟩ :=
    processRoots_progress r sched hbuilt hnodup (s.postConsensusContainer, empty)
  rw [if_neg hempty, wp_bind, wp_read]
  simp only [hroots, lift_ok_bind]
  rw [wp_bind, wp_update]
  have hset : (r.setContainer c).state = some { s with postConsensusContainer := c } := by
    simp [CommitteeRunner.setContainer, hs]
  refine wp_seq (submitAttestations_spec sched ha (hprogress.sound sound_empty)) ?_ ?_
  · -- the node refuses the attestations, and nothing else is submitted
    rintro r₁ calls err ⟨hno, hresult, hatt⟩
    have hrefused := mt hresult.2 nofun
    exact ⟨c, col, hprogress, ⟨s.succeeded, hatt.state.trans hset⟩, hatt.share, hatt.passed,
      fun h ↦ absurd h hrefused, fun _ ↦ hno, fun h ↦
        absurd (.inl ((ha []).symm.trans (h.attestations []))) hrefused⟩
  rintro r₁ calls₁ ⟨⟩ ⟨-, hresult, hatt⟩
  have hgo := hresult.1 rfl
  -- everything is passed on, whether or not the node takes the sync committee messages
  have hhandled : ∀ {r₂ r' calls₂ result}, (env.Accepts → result = .ok ()) →
      Submitted env col .syncCommittee r₁ r₂ calls₂ result → (r' = r₂ ∨ r' = r₂.markDutySucceeded) →
      Handled env a col c s r r' (calls₁ ++ calls₂) := by
    intro r₂ r' calls₂ result hok hsync hr'
    have hstate₂ := hsync.state.trans (hatt.state.trans hset)
    have hshare₂ := hsync.share.trans hatt.share
    have hsame : r'.share = r₂.share ∧ r'.submittedDuties = r₂.submittedDuties := by
      rcases hr' with rfl | rfl <;> exact ⟨rfl, rfl⟩
    refine ⟨?_, hsame.1.trans hshare₂, fun x hx h ↦ (hatt.passed x hx h).append_left _,
      fun _ x hx h ↦ (hsync.passed x hx h).append_right _, fun h ↦ absurd hgo h,
      fun haccepts role v ↦ ?_⟩
    · rcases hr' with rfl | rfl
      · exact ⟨s.succeeded, hstate₂⟩
      · exact ⟨true, by simp [CommitteeRunner.markDutySucceeded, hstate₂]⟩
    · rw [hsame.2, hsync.recorded (hok haccepts), hatt.recorded rfl, or_assoc]
      refine or_congr_right ⟨?_, fun h ↦ ?_⟩
      · rintro (⟨rfl, h⟩ | ⟨rfl, h⟩) <;> exact h
      · rcases role_of_has h with rfl | rfl
        · exact .inl ⟨rfl, h⟩
        · exact .inr ⟨rfl, h⟩
  refine wp_seq submitSyncMessages_spec ?_ ?_
  · exact fun r₂ calls₂ err ⟨hok, hsync⟩ ↦ ⟨c, col, hprogress, hhandled hok hsync (.inl rfl)⟩
  · rintro r₂ calls₂ ⟨⟩ ⟨hok, hsync⟩
    refine wp_mono concludePostConsensus_spec ?_
    rintro r' calls₃ - ⟨rfl, hr'⟩
    rw [append_nil]
    exact ⟨c, col, hprogress, hhandled hok hsync hr'⟩

theorem processPostConsensus_rejected {packet : PartialSignatureMessages} {err : Err}
    (h : validatePostConsensusMsg env sched.shares r packet = .error err) :
    (processPostConsensus env sched packet).wp (fun r' calls _ ↦ r' = r ∧ calls = []) r := by
  unfold processPostConsensus basePostConsensusMsgProcessing
  rw [wp_bind, wp_mapError, wp_bind, wp_read]
  simp only [h]
  exact ⟨rfl, rfl⟩

theorem nodup_basePartialSigMsgProcessing (shares : ShareMap)
    (messages : List PartialSignatureMessage) (c : PartialSigContainer) :
    (basePartialSigMsgProcessing shares messages c).2.Nodup := by
  have hloop : ∀ (l : List PartialSignatureMessage) (acc : PartialSigContainer × List Root),
      acc.2.Nodup → (l.foldl (processPartialSig shares) acc).2.Nodup := by
    intro l
    induction l with
    | nil => exact fun acc h ↦ h
    | cons m l ih =>
      refine fun acc h ↦ ih _ ?_
      unfold processPartialSig
      dsimp only
      split
      · exact h.insert
      · exact h
  exact hloop messages (c, []) nodup_nil

/-- A packet that passes validation is stored, and the quorums it completes are dealt with. -/
theorem wp_processPostConsensus {packet : PartialSignatureMessages} {s : CommitteeState}
    {Q : CommitteeRunner → List BeaconCall → Except Err Unit → Prop} (hs : r.state = some s)
    (hvalid : validatePostConsensusMsg env sched.shares r packet = .ok ())
    {c : PartialSigContainer}
    (hstored : basePartialSigMsgProcessing r.share packet.messages s.postConsensusContainer =
      (c, roots))
    (hnone : roots = [] → Q (r.setContainer c) [] (.ok ()))
    (hroots : (processQuorumRoots env sched (sched.roots.iterate roots)
      { s with postConsensusContainer := c }).wp Q (r.setContainer c)) :
    (processPostConsensus env sched packet).wp Q r := by
  unfold processPostConsensus basePostConsensusMsgProcessing
  rw [wp_bind, wp_mapError, wp_bind, wp_read]
  simp only [hvalid, Except.mapError, lift_ok_bind, hs, hstored]
  rw [wp_bind, wp_update]
  dsimp only
  rw [wp_pure]
  dsimp only
  split
  · next hempty =>
    have hlength := congrArg length hempty
    rw [sched.roots.length_iterate] at hlength
    exact hnone (length_eq_zero_iff.1 hlength)
  · rw [wp_bind, wp_read]
    have hset : (r.setContainer c).state = some { s with postConsensusContainer := c } := by
      simp [CommitteeRunner.setContainer, hs]
    simp only [hset]
    exact hroots

end Ssv
