import SsvNode.Registry.CommitteeMirror

/-!
# Lookups by validator index

The handlers write `byValidatorIndex` **after** metadata was assigned, so that an entry under an
earlier index stays, and so does that of a share that has lost its metadata
(`removed_validator_found`). The entries are right in runs that keep the indices: a validator with
metadata is written with it and the same index, an index is of one validator, and memory is written
as a whole (`found_of_reachable`).
-/

namespace Ssv.Registry

open List Function Option

/-! ### The entries and their shares -/

/-- Validators with metadata keep it and their index, and an index is of one validator. -/
def OneIndex (shares : PubKey → Option SSVShare) (l : List SSVShare) : Prop :=
  ∀ s ∈ l, ∀ t, Listed shares t ∨ t ∈ l → t.hasBeaconMetadata →
    (t.validatorPubKey = s.validatorPubKey →
      s.hasBeaconMetadata ∧ s.validatorIndex = t.validatorIndex) ∧
    (s.hasBeaconMetadata → t.validatorIndex = s.validatorIndex →
      t.validatorPubKey = s.validatorPubKey)

/-- The entries are the shares in memory with metadata, but for those the handlers have not come to.
-/
structure Found (shares : PubKey → Option SSVShare) (v : ValidatorStore) (pending : List SSVShare) :
    Prop where
  sound : ∀ i s, v.byValidatorIndex i = some s →
    Listed shares s ∧ s.hasBeaconMetadata ∧ s.validatorIndex = i
  complete : ∀ s, Listed shares s → s.hasBeaconMetadata →
    v.byValidatorIndex s.validatorIndex = some s ∨ s ∈ pending

variable {shares shares' : PubKey → Option SSVShare} {v v' : ValidatorStore} {share s : SSVShare}
  {l pending rest : List SSVShare}

theorem OneIndex.mono (h : OneIndex shares l)
    (hlisted : ∀ t, Listed shares' t → Listed shares t ∨ t ∈ l) : OneIndex shares' l :=
  fun s hs t ht ↦ h s hs t (ht.elim (hlisted t) .inr)

theorem OneIndex.put (h : OneIndex shares l) (hs : s ∈ l) :
    OneIndex (update shares s.validatorPubKey (some s)) l := by
  refine h.mono fun t ht ↦ ?_
  rcases listed_put.1 ht with ⟨ht, -⟩ | rfl
  · exact .inl ht
  · exact .inr hs

namespace Found

theorem assign (h : Found shares v l) (hone : OneIndex shares l) (hs : s ∈ l)
    (hkeyed : ∀ pubKey s, shares pubKey = some s → s.validatorPubKey = pubKey)
    (hreplaces : Replaces shares s) :
    Found (fun pubKey ↦ (shares pubKey).map s.assigned) (v.assign s) l := by
  have hlisted : ∀ t, Listed (fun pubKey ↦ (shares pubKey).map s.assigned) t ↔
      ∃ t₀, Listed shares t₀ ∧ s.assigned t₀ = t := fun t ↦ hreplaces.listed hkeyed
  constructor
  · intro i t ht
    obtain ⟨t₀, ht₀, rfl⟩ := map_eq_some_iff.1 ht
    obtain ⟨hlisted₀, hmetadata, hindex⟩ := h.sound i t₀ ht₀
    refine ⟨(hlisted _).2 ⟨t₀, hlisted₀, rfl⟩, ?_⟩
    unfold SSVShare.assigned
    split
    · next hobject =>
      have hkey := (hreplaces t₀ hlisted₀ hobject).1
      obtain ⟨hmetadata', hindex'⟩ := (hone s hs t₀ (.inl hlisted₀) hmetadata).1 hkey
      exact ⟨hmetadata', hindex'.trans hindex⟩
    · exact ⟨hmetadata, hindex⟩
  · intro t ht hmetadata
    obtain ⟨t₀, ht₀, rfl⟩ := (hlisted t).1 ht
    by_cases hobject : t₀.object = s.object
    · rw [SSVShare.assigned, if_pos hobject]
      exact .inr hs
    · have hsame : s.assigned t₀ = t₀ := if_neg hobject
      rw [hsame] at hmetadata ⊢
      refine (h.complete t₀ ht₀ hmetadata).imp_left fun hentry ↦ ?_
      show (v.byValidatorIndex t₀.validatorIndex).map s.assigned = some t₀
      rw [hentry, map_some, hsame]

theorem put (h : Found shares v (s :: rest)) (hone : OneIndex shares l) (hs : s ∈ l)
    (hindices : v'.byValidatorIndex = (v.indexShare s).byValidatorIndex) :
    Found (update shares s.validatorPubKey (some s)) v' rest := by
  have hentry : ∀ i, v'.byValidatorIndex i =
      if s.hasBeaconMetadata ∧ i = s.validatorIndex then some s else v.byValidatorIndex i := by
    intro i
    rw [hindices, ValidatorStore.indexShare]
    by_cases hmetadata : s.hasBeaconMetadata
    · by_cases hi : i = s.validatorIndex
      · simp [hmetadata, hi]
      · simp [hmetadata, hi]
    · simp [hmetadata]
  constructor
  · intro i t ht
    rw [hentry] at ht
    split at ht
    · next hself =>
      cases ht
      exact ⟨listed_put.2 (.inr rfl), hself.1, hself.2.symm⟩
    · next hother =>
      obtain ⟨hlisted, hmetadata, hindex⟩ := h.sound i t ht
      refine ⟨listed_put.2 (.inl ⟨hlisted, fun hkey ↦ hother ?_⟩), hmetadata, hindex⟩
      obtain ⟨hmetadata', hindex'⟩ := (hone s hs t (.inl hlisted) hmetadata).1 hkey
      exact ⟨hmetadata', (hindex'.trans hindex).symm⟩
  · intro t ht hmetadata
    rw [hentry]
    rcases listed_put.1 ht with ⟨hlisted, hne⟩ | rfl
    · have hother : ¬ (s.hasBeaconMetadata ∧ t.validatorIndex = s.validatorIndex) := fun hself ↦
        hne ((hone s hs t (.inl hlisted) hmetadata).2 hself.1 hself.2)
      rw [if_neg hother]
      refine (h.complete t hlisted hmetadata).imp_right fun hpending ↦ ?_
      exact (mem_cons.1 hpending).resolve_left fun heq ↦ hne (heq ▸ rfl)
    · rw [if_pos ⟨hmetadata, rfl⟩]
      exact .inl rfl

theorem remove (h : Found shares v []) (hlisted : Listed shares share)
    (hindices : v'.byValidatorIndex = (v.unindexShare share).byValidatorIndex) :
    Found (update shares share.validatorPubKey none) v' [] := by
  have hcomplete : ∀ s, Listed shares s → s.hasBeaconMetadata →
      v.byValidatorIndex s.validatorIndex = some s := fun s hs hmetadata ↦
    (h.complete s hs hmetadata).resolve_right not_mem_nil
  have hentry : ∀ i, v'.byValidatorIndex i =
      if share.hasBeaconMetadata ∧ i = share.validatorIndex then none
      else v.byValidatorIndex i := by
    intro i
    rw [hindices, ValidatorStore.unindexShare]
    by_cases hmetadata : share.hasBeaconMetadata
    · by_cases hi : i = share.validatorIndex
      · simp [hmetadata, hi]
      · simp [hmetadata, hi]
    · simp [hmetadata]
  constructor
  · intro i t ht
    rw [hentry] at ht
    split at ht
    · cases ht
    · next hother =>
      obtain ⟨ht, hmetadata, hindex⟩ := h.sound i t ht
      refine ⟨listed_remove.2 ⟨ht, fun hkey ↦ hother ?_⟩, hmetadata, hindex⟩
      rw [Listed, hkey] at ht
      obtain rfl := some.inj (ht.symm.trans hlisted)
      exact ⟨hmetadata, hindex.symm⟩
  · intro t ht hmetadata
    obtain ⟨ht, hne⟩ := listed_remove.1 ht
    refine .inl ?_
    rw [hentry, if_neg]
    · exact hcomplete t ht hmetadata
    · rintro ⟨hmetadata', hindex⟩
      have hself := hcomplete share hlisted hmetadata'
      rw [← hindex, hcomplete t ht hmetadata] at hself
      exact hne (congrArg _ (some.inj hself))

theorem of_pending (h : Found shares v pending) (hpending : ∀ s ∈ pending, s ∈ rest) :
    Found shares v rest :=
  ⟨h.sound, fun s hs hmetadata ↦ (h.complete s hs hmetadata).imp_right (hpending s)⟩

theorem foldl {f : SSVShare → ValidatorStore → ValidatorStore}
    (hf : ∀ s v, (f s v).byValidatorIndex = (v.indexShare s).byValidatorIndex) {xs : List SSVShare}
    (h : Found shares v (xs ++ rest)) (hone : OneIndex shares l) (hxs : ∀ s ∈ xs, s ∈ l) :
    Found (putAll shares xs) (xs.foldl (fun v s ↦ f s v) v) rest := by
  induction xs generalizing shares v with
  | nil => exact h
  | cons s xs ih =>
    obtain ⟨hs, hxs⟩ := forall_mem_cons.1 hxs
    exact ih (h.put hone hs (hf s v)) (hone.put hs) hxs

end Found

/-! ### Calls -/

variable [RegistrySpec] {owner : ℕ → PubKey} {st st' : SharesStorage} {op : StorageOp}

theorem OneIndex.assignAll (hready : Ready owner l st) (hone : OneIndex st.shares l)
    (hrest : ∀ s ∈ rest, s ∈ l) : OneIndex (st.assignAll rest).shares l := by
  induction rest generalizing st with
  | nil => exact hone
  | cons s rest ih =>
    obtain ⟨hs, hrest⟩ := forall_mem_cons.1 hrest
    exact ih (hready.assign hs) (hone.mono fun t ht ↦ hready.listed_of_assign hs ht) hrest

theorem Found.assignAll (hready : Ready owner l st) (hone : OneIndex st.shares l)
    (hrest : ∀ s ∈ rest, s ∈ l) (h : Found st.shares st.validatorStore l) :
    Found (st.assignAll rest).shares (st.assignAll rest).validatorStore l := by
  induction rest generalizing st with
  | nil => exact h
  | cons s rest ih =>
    obtain ⟨hs, hrest⟩ := forall_mem_cons.1 hrest
    refine ih (hready.assign hs) (hone.mono fun t ht ↦ hready.listed_of_assign hs ht) hrest ?_
    exact h.assign hone hs hready.linked.keyed (hready.replaces hs)

theorem Found.wrote (hready : Ready owner l st) (hone : OneIndex st.shares l)
    (h : Found st.shares st.validatorStore []) (hwrote : Wrote st l st') :
    Found st'.shares st'.validatorStore [] := by
  obtain ⟨updateShares, addShares, hsplit, hhandled, hshares, hstore, -⟩ := hwrote
  have hassigned := (h.of_pending nofun).assignAll hready hone fun _ ↦ id
  have hone' := hone.assignAll hready fun _ ↦ id
  have hsub : ∀ s ∈ updateShares, s ∈ l := fun s hs ↦ hsplit.mem_iff.2 (.inl hs)
  have hupdated := (hassigned.of_pending (fun s hs ↦ hsplit.perm.mem_iff.1 hs)).foldl
    (fun _ _ ↦ rfl) hone' hsub (f := ValidatorStore.updated)
  rw [hshares, hstore, ← hsplit.putAll hhandled.1]
  refine Found.foldl (f := ValidatorStore.added) (l := l) (fun _ _ ↦ rfl)
    (hupdated.of_pending fun s hs ↦ ?_) ?_ ?_
  · exact mem_append_left [] hs
  · exact hone'.mono fun t ht ↦ (listed_of_putAll ht).imp_right (hsub t)
  · exact fun s hs ↦ hsplit.mem_iff.2 (.inr hs)

theorem Found.deleted (h : Found st.shares st.validatorStore []) (hindexed : Indexed owner st)
    (pubKey : PubKey) : Found (st.deleted pubKey).shares (st.deleted pubKey).validatorStore [] := by
  unfold SharesStorage.deleted
  cases hshare : st.shares pubKey with
  | none => exact h
  | some share =>
    have hkey := hindexed.linked.keyed _ share hshare
    subst hkey
    exact h.remove hshare rfl

/-- A `Save` gives one share of each validator, with distinct operators. -/
def StorageOp.Orderly : StorageOp → Prop
  | save shares => (shares.map (·.validatorPubKey)).Nodup ∧ ∀ s ∈ shares, s.operatorIDs.Nodup
  | updateValidatorsMetadata _ | delete _ | drop => True

def StorageOp.KeepsIndices (st : SharesStorage) (op : StorageOp) : Prop :=
  op.KeepsCommittees st ∧ op.Orderly ∧ OneIndex st.shares (op.written st)

omit [RegistrySpec] in
theorem Split.handled {updateShares addShares : List SSVShare}
    (h : Split shares l updateShares addShares) (hnodup : (l.map (·.validatorPubKey)).Nodup)
    (hops : ∀ s ∈ l, s.operatorIDs.Nodup) : Handled shares updateShares addShares := by
  refine ⟨fun s hs ↦ (h.known s hs).resolve_right fun hmem ↦ ?_, fun s hs ↦ ?_⟩
  · rw [(h.perm.map _).nodup_iff, map_append, nodup_append] at hnodup
    exact hnodup.2.2 _ (mem_map.2 ⟨s, hs, rfl⟩) _ hmem rfl
  · exact hops s (h.mem_iff.2 (.inr hs))

namespace Indexed

theorem wrote_of_orderly (h : Indexed owner st) (hpossible : op.Possible owner)
    (hkeeps : op.KeepsCommittees st) (horderly : op.Orderly) {r : Except Err Unit}
    (hsaved : st.Saved (op.written st) st' r) : Wrote st (op.written st) st' := by
  have hready := h.ready hpossible (h.oneCommittee hkeeps)
  obtain ⟨hnodup, hops⟩ : ((op.written st).map (·.validatorPubKey)).Nodup ∧
      ∀ s ∈ op.written st, s.operatorIDs.Nodup := by
    cases op with
    | save => exact horderly
    | updateValidatorsMetadata =>
      refine ⟨(SharesStorage.changedShares_sublist h.linked.keyed).nodup hpossible, fun s hs ↦ ?_⟩
      obtain ⟨t, metadata, ht, -, rfl⟩ := SharesStorage.exists_of_mem_changedShares
        h.linked.keyed hs
      exact h.linked.distinct t ht
    | delete | drop => exact ⟨.nil, nofun⟩
  obtain ⟨updateShares, addShares, hsplit, -, hstate⟩ := hsaved
  have hhandled := hsplit.handled hnodup hops
  obtain ⟨hshares, hstore, hlinked, -⟩ := hstate hhandled
  exact ⟨_, _, hsplit, hhandled, hshares, hstore, hlinked⟩

theorem found_step (h : Indexed owner st) (hfound : Found st.shares st.validatorStore [])
    (hpossible : op.Possible owner) (hkeeps : op.KeepsIndices st) :
    Indexed owner (op.act.run st).state ∧
      Found (op.act.run st).state.shares (op.act.run st).state.validatorStore [] := by
  obtain ⟨hcommittees, horderly, hindex⟩ := hkeeps
  have hone := h.oneCommittee hcommittees
  have hready := h.ready hpossible hone
  have heffect := Act.wp_iff.1 (h.act_spec hpossible hone)
  have hwrite : ∀ {r}, st.Saved (op.written st) (op.act.run st).state r →
      Indexed owner (op.act.run st).state ∧
        Found (op.act.run st).state.shares (op.act.run st).state.validatorStore [] := by
    intro r hsaved
    have hwrote := h.wrote_of_orderly hpossible hcommittees horderly hsaved
    exact ⟨h.wrote hready hwrote, hfound.wrote hready hindex hwrote⟩
  cases op with
  | save | updateValidatorsMetadata => exact hwrite heffect
  | delete pubKey =>
    rw [heffect.2]
    exact ⟨h.deleted pubKey, hfound.deleted h pubKey⟩
  | drop =>
    rw [heffect.2]
    exact ⟨dropped, nofun, nofun⟩

end Indexed

/-- The runs of calls, which may fail, from an empty database. -/
def callMachine (owner : ℕ → PubKey) : Machine SharesStorage StorageOp where
  initial st := st = .empty
  enabled _ op := op.Possible owner
  next st op := (op.act.run st).state

instance (owner : ℕ → PubKey) (st : SharesStorage) (op : StorageOp) :
    Decidable ((callMachine owner).enabled st op) :=
  inferInstanceAs (Decidable (op.Possible owner))

/-- **Lookups by index find stored shares**, and every stored share with metadata is found. -/
theorem found_of_reachable
    (h : ((callMachine owner).restrict StorageOp.KeepsIndices).Reachable st) :
    (∀ i s, st.validatorStore.byValidatorIndex i = some s →
      Listed st.shares s ∧ s.validatorIndex = i) ∧
    ∀ s, Listed st.shares s → s.hasBeaconMetadata →
      st.validatorStore.byValidatorIndex s.validatorIndex = some s := by
  have hinvariant : Indexed owner st ∧ Found st.shares st.validatorStore [] := by
    refine h.invariant (P := fun st ↦ Indexed owner st ∧ Found st.shares st.validatorStore []) ?_ ?_
    · rintro _ rfl
      exact ⟨.empty, nofun, nofun⟩
    · rintro st op - ⟨hindexed, hfound⟩ ⟨hpossible, hkeeps⟩
      exact hindexed.found_step hfound hpossible hkeeps
  obtain ⟨-, hfound⟩ := hinvariant
  refine ⟨fun i s hs ↦ ?_, fun s hs hmetadata ↦ ?_⟩
  · obtain ⟨hlisted, -, hindex⟩ := hfound.sound i s hs
    exact ⟨hlisted, hindex⟩
  · exact (hfound.complete s hs hmetadata).resolve_right List.not_mem_nil

end Ssv.Registry

namespace Ssv.Registry.Reference

def knownShare : SSVShare :=
  { shareOf 1 [1, 2, 3, 4] 1 with status := .activeOngoing, validatorIndex := 5 }

/-- A validator the beacon node does not know yet. -/
def newShare : SSVShare := shareOf 2 [1, 2, 3, 4] 2

/-- Both validators are saved, the second gets an index, and the first is deleted. -/
def keptRun : List StorageOp :=
  [.save [knownShare, newShare],
    .updateValidatorsMetadata [(ownerOf 2, some { status := .pendingQueued, index := 6 })],
    .delete (ownerOf 1)]

def keptStore : SharesStorage := keptRun.foldl (callMachine ownerOf).next .empty

theorem keptStore_reachable :
    ((callMachine ownerOf).restrict StorageOp.KeepsIndices).Reachable keptStore := by
  have hcommittees : OneCommittee (fun _ ↦ none) [knownShare, newShare] := by
    rintro s hs t (ht | ht) -
    · cases ht
    · have hperm : ∀ s ∈ [knownShare, newShare], ∀ t ∈ [knownShare, newShare],
          t.operatorIDs.Perm s.operatorIDs := by decide
      exact hperm s hs t ht
  have hsave : OneIndex (fun _ ↦ none) [knownShare, newShare] := by
    rintro s hs t (ht | ht)
    · cases ht
    · revert s t
      decide
  have hupdate : OneIndex (putAll (fun _ ↦ none) [knownShare, newShare])
      [newShare.setBeaconMetadata { status := .pendingQueued, index := 6 }] := by
    rintro s hs t ht
    have hmem : t ∈ [knownShare, newShare,
        newShare.setBeaconMetadata { status := .pendingQueued, index := 6 }] := by
      rcases ht with ht | ht
      · rcases listed_of_putAll ht with ht | ht
        · cases ht
        · exact List.mem_append_left _ ht
      · exact List.mem_append_right [knownShare, newShare] ht
    clear ht
    revert s t
    decide
  refine (Machine.Reachable.initial rfl).foldl
    ⟨⟨?_, hcommittees, ?_, hsave⟩, ⟨?_, trivial, trivial, hupdate⟩, ⟨trivial, trivial, trivial, ?_⟩,
      trivial⟩
  · decide
  · show _ ∧ _
    decide
  · decide
  · exact nofun

/-- The second validator is found by its index, and nothing else is. -/
theorem found_keptStore :
    (∀ i s, keptStore.validatorStore.byValidatorIndex i = some s →
      Listed keptStore.shares s ∧ s.validatorIndex = i) ∧
    ∀ s, Listed keptStore.shares s → s.hasBeaconMetadata →
      keptStore.validatorStore.byValidatorIndex s.validatorIndex = some s :=
  found_of_reachable keptStore_reachable

/-- A validator is saved, the beacon node stops returning it, and it is deleted. -/
def removedRun : List StorageOp :=
  [.save [knownShare], .updateValidatorsMetadata [(ownerOf 1, some {})], .delete (ownerOf 1)]

def removedStore : SharesStorage := removedRun.foldl (callMachine ownerOf).next .empty

/-- Every call succeeds, and the deleted validator is found by its index. -/
theorem removed_validator_found :
    (callMachine ownerOf).Reachable removedStore ∧
    (storageMachine ownerOf).Enables .empty removedRun ∧
    removedStore.shares knownShare.validatorPubKey = none ∧
    removedStore.validatorStore.byValidatorIndex 5 = some (knownShare.setBeaconMetadata {}) := by
  refine ⟨(Machine.Reachable.initial rfl).foldl ?_, ?_, ?_, ?_⟩
  · decide +kernel
  · decide +kernel
  · decide +kernel
  · decide +kernel

end Ssv.Registry.Reference
