import SsvNode.Registry.IndexLookups

/-!
# What the database has of the share store

After every operation that succeeds the shares in the database are those in memory
(`Persisted.shares`). The table of indices has what each share was **last saved** with, and is never
cleared. If every validator keeps its index, and its metadata once it has some, the indices in
memory are those of the table (`Persisted.table`), and the two maps in memory are inverse
(`IndexMaps`).
-/

namespace Ssv.Registry

open List Function

/-! ### The maps of indices -/

/-- The maps between public keys and indices are inverse, and part of an assignment. -/
structure IndexMaps (index : PubKey → ℕ) (v : ValidatorStore) : Prop where
  value : ∀ pubKey i, v.pubkeyToIndex pubKey = some i → i = index pubKey
  inverse : ∀ i pubKey, v.indexToPubkey i = some pubKey ↔ v.pubkeyToIndex pubKey = some i

section

variable {index : PubKey → ℕ} {v v' : ValidatorStore} {s : SSVShare} {l : List SSVShare}
  {pubKey : PubKey}

theorem pubkeyToIndex_indexShare : (v.indexShare s).pubkeyToIndex pubKey =
    if s.hasBeaconMetadata ∧ pubKey = s.validatorPubKey then some s.validatorIndex
    else v.pubkeyToIndex pubKey := by
  unfold ValidatorStore.indexShare
  by_cases hmetadata : s.hasBeaconMetadata
  · by_cases hkey : pubKey = s.validatorPubKey
    · simp [hmetadata, hkey]
    · simp [hmetadata, hkey]
  · simp [hmetadata]

theorem indexToPubkey_indexShare {i : ℕ} : (v.indexShare s).indexToPubkey i =
    if s.hasBeaconMetadata ∧ i = s.validatorIndex then some s.validatorPubKey
    else v.indexToPubkey i := by
  unfold ValidatorStore.indexShare
  by_cases hmetadata : s.hasBeaconMetadata
  · by_cases hi : i = s.validatorIndex
    · simp [hmetadata, hi]
    · simp [hmetadata, hi]
  · simp [hmetadata]

/-- The handlers write the maps for the shares with metadata. -/
structure WritesMaps (f : SSVShare → ValidatorStore → ValidatorStore) : Prop where
  pubkeyToIndex : ∀ s v, (f s v).pubkeyToIndex = (v.indexShare s).pubkeyToIndex
  indexToPubkey : ∀ s v, (f s v).indexToPubkey = (v.indexShare s).indexToPubkey

variable {f : SSVShare → ValidatorStore → ValidatorStore}

theorem IndexMaps.write (hindex : Function.Injective index) (hf : WritesMaps f)
    (h : IndexMaps index v)
    (hs : s.hasBeaconMetadata → s.validatorIndex = index s.validatorPubKey) :
    IndexMaps index (f s v) := by
  constructor
  · intro pubKey i hi
    rw [hf.pubkeyToIndex, pubkeyToIndex_indexShare] at hi
    split at hi
    · next hself =>
      rw [← Option.some.inj hi, hself.2]
      exact hs hself.1
    · exact h.value pubKey i hi
  · intro i pubKey
    rw [hf.pubkeyToIndex, hf.indexToPubkey, pubkeyToIndex_indexShare, indexToPubkey_indexShare]
    by_cases hmetadata : s.hasBeaconMetadata
    · rw [hs hmetadata]
      by_cases hkey : pubKey = s.validatorPubKey
      · subst hkey
        have hself : s.hasBeaconMetadata ∧ s.validatorPubKey = s.validatorPubKey := ⟨hmetadata, rfl⟩
        rw [if_pos hself]
        split
        · next hself => exact iff_of_true rfl (congrArg some hself.2.symm)
        · next hother =>
          have hne : i ≠ index s.validatorPubKey := fun heq ↦ hother ⟨hmetadata, heq⟩
          refine iff_of_false (fun hi ↦ hne ?_) fun hi ↦ hne (Option.some.inj hi).symm
          exact h.value _ i ((h.inverse i _).1 hi)
      · have hother : ¬ (s.hasBeaconMetadata ∧ pubKey = s.validatorPubKey) := fun hself ↦
          hkey hself.2
        rw [if_neg hother]
        split
        · -- the index is of another validator
          next hself =>
          refine iff_of_false (fun hi ↦ hkey (Option.some.inj hi).symm) fun hi ↦ hkey (hindex ?_)
          exact (h.value _ i hi).symm.trans hself.2
        · exact h.inverse i pubKey
    · rw [if_neg fun hself ↦ hmetadata hself.1, if_neg fun hself ↦ hmetadata hself.1]
      exact h.inverse i pubKey

theorem IndexMaps.foldl (hindex : Function.Injective index) (hf : WritesMaps f)
    (h : IndexMaps index v)
    (hl : ∀ s ∈ l, s.hasBeaconMetadata → s.validatorIndex = index s.validatorPubKey) :
    IndexMaps index (l.foldl (fun v s ↦ f s v) v) := by
  induction l generalizing v with
  | nil => exact h
  | cons s l ih =>
    obtain ⟨hs, hl⟩ := forall_mem_cons.1 hl
    exact ih (h.write hindex hf hs) hl

theorem pubkeyToIndex_foldl (hf : WritesMaps f) :
    (l.foldl (fun v s ↦ f s v) v).pubkeyToIndex pubKey ≠ none ↔
      v.pubkeyToIndex pubKey ≠ none ∨ ∃ s ∈ l, s.validatorPubKey = pubKey ∧
      s.hasBeaconMetadata := by
  induction l generalizing v with
  | nil => simp
  | cons s l ih =>
    rw [foldl_cons, ih, exists_mem_cons_iff, ← or_assoc, hf.pubkeyToIndex, pubkeyToIndex_indexShare]
    refine or_congr_left ?_
    split
    · next hself => exact iff_of_true nofun (.inr ⟨hself.2.symm, hself.1⟩)
    · next hother => exact (or_iff_left fun hself ↦ hother ⟨hself.2, hself.1.symm⟩).symm

theorem pubkeyToIndex_foldl_of_mem (hf : WritesMaps f)
    (h : ∀ s ∈ l, s.hasBeaconMetadata → v.pubkeyToIndex s.validatorPubKey = some s.validatorIndex) :
    (l.foldl (fun v s ↦ f s v) v).pubkeyToIndex = v.pubkeyToIndex := by
  induction l generalizing v with
  | nil => rfl
  | cons s l ih =>
    obtain ⟨hs, hl⟩ := forall_mem_cons.1 h
    have hsame : (f s v).pubkeyToIndex = v.pubkeyToIndex := by
      funext pubKey
      rw [hf.pubkeyToIndex, pubkeyToIndex_indexShare]
      split
      · next hself => rw [hself.2, hs hself.1]
      · rfl
    rw [foldl_cons, ih (hsame ▸ hl), hsame]

theorem indexToPubkey_foldl_of_mem (hf : WritesMaps f)
    (h : ∀ s ∈ l, s.hasBeaconMetadata → v.indexToPubkey s.validatorIndex = some s.validatorPubKey) :
    (l.foldl (fun v s ↦ f s v) v).indexToPubkey = v.indexToPubkey := by
  induction l generalizing v with
  | nil => rfl
  | cons s l ih =>
    obtain ⟨hs, hl⟩ := forall_mem_cons.1 h
    have hsame : (f s v).indexToPubkey = v.indexToPubkey := by
      funext i
      rw [hf.indexToPubkey, indexToPubkey_indexShare]
      split
      · next hself => rw [hself.2, hs hself.1]
      · rfl
    rw [foldl_cons, ih (hsame ▸ hl), hsame]

end

/-! ### What the database has of the store -/

/-- The database has the shares in memory and, in its table, the indices last saved and those of
memory. -/
structure Persisted (index : PubKey → ℕ) (st : SharesStorage) : Prop where
  shares : ∀ pubKey, st.db.shares.lookup pubKey = (st.shares pubKey).map fromSSVShare
  size : ∀ pubKey, st.db.pubkeyToIndex.lookup pubKey ≠ none → pubKey.length = 48
  last : ∀ s, Listed st.shares s → st.db.pubkeyToIndex.lookup s.validatorPubKey =
    some s.validatorIndex
  maps : IndexMaps index st.validatorStore
  table : ∀ pubKey i, st.validatorStore.pubkeyToIndex pubKey = some i →
    st.db.pubkeyToIndex.lookup pubKey = some i
  metadata : ∀ s, Listed st.shares s → s.hasBeaconMetadata →
    st.validatorStore.pubkeyToIndex s.validatorPubKey ≠ none

/-- The operation writes the validator's index, and drops no metadata of one that has an index. -/
def StorageOp.IndexedBy (index : PubKey → ℕ) (st : SharesStorage) (op : StorageOp) : Prop :=
  ∀ s ∈ op.written st,
    (s.hasBeaconMetadata → s.validatorIndex = index s.validatorPubKey) ∧
    (¬ s.hasBeaconMetadata → st.validatorStore.pubkeyToIndex s.validatorPubKey = none ∧
      ∀ t ∈ op.written st, t.validatorPubKey = s.validatorPubKey → ¬ t.hasBeaconMetadata)

variable {index : PubKey → ℕ} {owner : ℕ → PubKey} {st st' : SharesStorage} {op : StorageOp}
  {l : List SSVShare} {s : SSVShare} {pubKey : PubKey}

theorem Persisted.validatorIndex (h : Persisted index st) (hs : Listed st.shares s)
    (hmetadata : s.hasBeaconMetadata) : s.validatorIndex = index s.validatorPubKey := by
  obtain ⟨i, hi⟩ := Option.ne_none_iff_exists'.1 (h.metadata s hs hmetadata)
  have hlast := (h.last s hs).symm.trans (h.table _ i hi)
  rw [Option.some.inj hlast]
  exact h.maps.value _ i hi

theorem Persisted.oneIndex (hindex : Function.Injective index) (h : Persisted index st)
    (hby : op.IndexedBy index st) : OneIndex st.shares (op.written st) := by
  intro s hs t ht htmetadata
  have htindex : t.validatorIndex = index t.validatorPubKey := by
    rcases ht with ht | ht
    · exact h.validatorIndex ht htmetadata
    · exact (hby t ht).1 htmetadata
  constructor
  · intro hkey
    have hmetadata : s.hasBeaconMetadata := by
      by_contra hnot
      obtain ⟨hnone, hothers⟩ := (hby s hs).2 hnot
      rcases ht with ht | ht
      · exact h.metadata t ht htmetadata (hkey ▸ hnone)
      · exact hothers t ht hkey htmetadata
    exact ⟨hmetadata, by rw [(hby s hs).1 hmetadata, htindex, hkey]⟩
  · intro hmetadata heq
    exact hindex (by rw [← htindex, heq, (hby s hs).1 hmetadata])

theorem SharesStorage.maps_assignAll (l : List SSVShare) (st : SharesStorage) :
    (st.assignAll l).validatorStore.pubkeyToIndex = st.validatorStore.pubkeyToIndex ∧
      (st.assignAll l).validatorStore.indexToPubkey = st.validatorStore.indexToPubkey := by
  induction l generalizing st with
  | nil => exact ⟨rfl, rfl⟩
  | cons s l ih => exact ih (st.assign s)

theorem find_last (h : (l.reverse.find? fun s ↦ decide (s.validatorPubKey = pubKey)) = some s) :
    s ∈ l ∧ s.validatorPubKey = pubKey :=
  ⟨mem_reverse.1 (mem_of_find?_eq_some h), by simpa using find?_some h⟩

theorem notMem_of_find_last
    (h : (l.reverse.find? fun s ↦ decide (s.validatorPubKey = pubKey)) = none) :
    pubKey ∉ l.map (·.validatorPubKey) := by
  intro hmem
  obtain ⟨s, hs, hkey⟩ := mem_map.1 hmem
  exact find?_eq_none.1 h s (mem_reverse.2 hs) (decide_eq_true hkey)

variable [RegistrySpec]

theorem writesMaps_added : WritesMaps ValidatorStore.added := ⟨fun _ _ ↦ rfl, fun _ _ ↦ rfl⟩

theorem writesMaps_updated : WritesMaps ValidatorStore.updated := ⟨fun _ _ ↦ rfl, fun _ _ ↦ rfl⟩

theorem Wrote.shares_apply (hready : Ready owner l st) (h : Wrote st l st') (pubKey : PubKey) :
    st'.shares pubKey = (l.reverse.find? fun s ↦ decide (s.validatorPubKey = pubKey)).or
      (st.shares pubKey) := by
  obtain ⟨updateShares, addShares, -, -, hshares, -, -⟩ := h
  rw [hshares, putAll_apply]
  cases hfind : l.reverse.find? fun s ↦ decide (s.validatorPubKey = pubKey) with
  | some => rfl
  | none => exact hready.shares_assignAll_of_notMem (fun _ ↦ id) (notMem_of_find_last hfind)

theorem Wrote.indexMaps (hindex : Function.Injective index) (h : Wrote st l st')
    (hmaps : IndexMaps index st.validatorStore)
    (hl : ∀ s ∈ l, s.hasBeaconMetadata → s.validatorIndex = index s.validatorPubKey) :
    IndexMaps index st'.validatorStore := by
  obtain ⟨updateShares, addShares, hsplit, -, -, hstore, -⟩ := h
  obtain ⟨hpubkeys, hindices⟩ := st.maps_assignAll l
  rw [hstore]
  refine .foldl hindex writesMaps_added (.foldl hindex writesMaps_updated ⟨?_, ?_⟩ fun s hs ↦ ?_)
    fun s hs ↦ ?_
  · rw [hpubkeys]
    exact hmaps.value
  · rw [hpubkeys, hindices]
    exact hmaps.inverse
  · exact hl s (hsplit.mem_iff.2 (.inl hs))
  · exact hl s (hsplit.mem_iff.2 (.inr hs))

theorem Wrote.pubkeyToIndex_ne_none (h : Wrote st l st') :
    st'.validatorStore.pubkeyToIndex pubKey ≠ none ↔
      st.validatorStore.pubkeyToIndex pubKey ≠ none ∨
        ∃ s ∈ l, s.validatorPubKey = pubKey ∧ s.hasBeaconMetadata := by
  obtain ⟨updateShares, addShares, hsplit, -, -, hstore, -⟩ := h
  rw [hstore, pubkeyToIndex_foldl writesMaps_added, pubkeyToIndex_foldl writesMaps_updated,
    (st.maps_assignAll l).1, or_assoc]
  simp only [hsplit.mem_iff, or_and_right, exists_or]

namespace Persisted

theorem wrote (hindex : Function.Injective index) (h : Persisted index st)
    (hready : Ready owner (op.written st) st) (hby : op.IndexedBy index st)
    (hwrote : Wrote st (op.written st) st') (hdb : SavedTo (op.written st) st.db st'.db) :
    Persisted index st' := by
  have hshare := hwrote.shares_apply hready
  have hmaps := hwrote.indexMaps hindex h.maps fun s hs ↦ (hby s hs).1
  obtain ⟨hdb, hsizes⟩ := hdb
  have htable : ∀ pubKey, st'.db.pubkeyToIndex.lookup pubKey =
      (((op.written st).reverse.find? fun s ↦ decide (s.validatorPubKey = pubKey)).map
        (·.validatorIndex)).or (st.db.pubkeyToIndex.lookup pubKey) := by
    intro pubKey
    rw [hdb]
    exact GoMap.lookup_foldl_insert _ _ _
  refine ⟨fun pubKey ↦ ?_, fun pubKey hne ↦ ?_, fun s hs ↦ ?_, hmaps, fun pubKey i hi ↦ ?_,
    fun s hs hmetadata ↦ hwrote.pubkeyToIndex_ne_none.2 ?_⟩
  · rw [hshare, hdb]
    refine (GoMap.lookup_foldl_insert _ _ _).trans ?_
    cases (op.written st).reverse.find? fun s ↦ decide (s.validatorPubKey = pubKey) with
    | none => exact h.shares pubKey
    | some => rfl
  · rw [htable] at hne
    cases hfind : (op.written st).reverse.find? fun s ↦ decide (s.validatorPubKey = pubKey) with
    | none =>
      rw [hfind] at hne
      exact h.size pubKey hne
    | some s =>
      obtain ⟨hs, rfl⟩ := find_last hfind
      exact hsizes s hs
  · rw [Listed, hshare] at hs
    rw [htable]
    cases hfind : (op.written st).reverse.find? fun t ↦
        decide (t.validatorPubKey = s.validatorPubKey) with
    | none =>
      rw [hfind] at hs
      exact h.last s hs
    | some t =>
      rw [hfind] at hs
      rw [Option.some.inj hs]
      rfl
  · have hvalue := hmaps.value pubKey i hi
    have hne : st'.validatorStore.pubkeyToIndex pubKey ≠ none := by
      rw [hi]
      exact Option.some_ne_none i
    have hknown := hwrote.pubkeyToIndex_ne_none.1 hne
    rw [htable]
    cases hfind : (op.written st).reverse.find? fun s ↦ decide (s.validatorPubKey = pubKey) with
    | none =>
      -- nothing was written for the public key
      have hold := hknown.resolve_right <| by
        rintro ⟨s, hs, hkey, -⟩
        exact notMem_of_find_last hfind (mem_map.2 ⟨s, hs, hkey⟩)
      obtain ⟨j, hj⟩ := Option.ne_none_iff_exists'.1 hold
      rw [hvalue, ← h.maps.value pubKey j hj]
      exact h.table pubKey j hj
    | some s =>
      obtain ⟨hs, rfl⟩ := find_last hfind
      by_cases hmetadata : s.hasBeaconMetadata
      · rw [hvalue, ← (hby s hs).1 hmetadata]
        rfl
      · obtain ⟨hnone, hothers⟩ := (hby s hs).2 hmetadata
        rcases hknown with hold | ⟨t, ht, hkey, htmetadata⟩
        · exact absurd hnone hold
        · exact absurd htmetadata (hothers t ht hkey)
  · rw [Listed, hshare] at hs
    cases hfind : (op.written st).reverse.find? fun t ↦
        decide (t.validatorPubKey = s.validatorPubKey) with
    | none =>
      rw [hfind] at hs
      exact .inl (h.metadata s hs hmetadata)
    | some t =>
      rw [hfind] at hs
      obtain rfl := Option.some.inj hs
      exact .inr ⟨t, (find_last hfind).1, rfl, hmetadata⟩

theorem deleted (h : Persisted index st) (pubKey : PubKey) :
    Persisted index (st.deleted pubKey) := by
  unfold SharesStorage.deleted
  cases hshare : st.shares pubKey with
  | none => exact h
  | some share =>
    have hmaps : ((st.validatorStore.removed share).pubkeyToIndex =
        st.validatorStore.pubkeyToIndex) ∧
        (st.validatorStore.removed share).indexToPubkey = st.validatorStore.indexToPubkey := by
      show (st.validatorStore.unindexShare share).pubkeyToIndex = _ ∧
        (st.validatorStore.unindexShare share).indexToPubkey = _
      unfold ValidatorStore.unindexShare
      split <;> exact ⟨rfl, rfl⟩
    refine ⟨fun pubKey' ↦ ?_, h.size, fun s hs ↦ h.last s (listed_remove.1 hs).1, ⟨?_, ?_⟩, ?_,
      fun s hs ↦ ?_⟩
    · show (st.db.shares.erase pubKey).lookup pubKey' =
        (update st.shares pubKey none pubKey').map fromSSVShare
      by_cases hkey : pubKey' = pubKey
      · subst hkey
        rw [AList.lookup_erase, update_self]
        rfl
      · rw [AList.lookup_erase_ne hkey, update_of_ne hkey]
        exact h.shares pubKey'
    · rw [hmaps.1]
      exact h.maps.value
    · rw [hmaps.1, hmaps.2]
      exact h.maps.inverse
    · rw [hmaps.1]
      exact h.table
    · rw [hmaps.1]
      exact h.metadata s (listed_remove.1 hs).1

omit [RegistrySpec] in
theorem dropped (h : Persisted index st) : Persisted index st.dropped :=
  ⟨fun _ ↦ rfl, h.size, nofun, ⟨h.maps.value, h.maps.inverse⟩, h.table, nofun⟩

omit [RegistrySpec] in
theorem empty : Persisted index .empty :=
  ⟨fun _ ↦ rfl, fun _ hne ↦ absurd rfl hne, nofun, ⟨nofun, fun _ _ ↦ iff_of_false nofun nofun⟩,
    nofun,
    nofun⟩

end Persisted

/-- What holds in every run that keeps the committees and the indices. -/
structure Restartable (index : PubKey → ℕ) (owner : ℕ → PubKey) (st : SharesStorage) : Prop where
  indexed : Indexed owner st
  found : Found st.shares st.validatorStore []
  persisted : Persisted index st

/-- The operation keeps the committees, and writes the validators' indices. -/
def StorageOp.KeepsAssignment (index : PubKey → ℕ) (st : SharesStorage) (op : StorageOp) : Prop :=
  op.KeepsCommittees st ∧ op.IndexedBy index st

theorem Restartable.of_reachable (hindex : Function.Injective index)
    (h : ((storageMachine owner).restrict (StorageOp.KeepsAssignment index)).Reachable st) :
    Restartable index owner st := by
  refine h.invariant (P := Restartable index owner) ?_ ?_
  · rintro _ rfl
    exact ⟨.empty, ⟨nofun, nofun⟩, .empty⟩
  · rintro st op - ⟨hst, hfound, hpersisted⟩ ⟨⟨hpossible, hsucceeds⟩, hkeeps, hby⟩
    have hone := hst.oneCommittee hkeeps
    have hready := hst.ready hpossible hone
    have heffect := Act.wp_iff.1 (hst.act_spec hpossible hone)
    rw [show (op.act.run st).result = .ok () from hsucceeds] at heffect
    have hwrite : st.Saved (op.written st) (op.act.run st).state (.ok ()) →
        Restartable index owner (op.act.run st).state := by
      intro hsaved
      obtain ⟨hwrote, hdb⟩ := hsaved.of_ok
      exact ⟨hst.wrote hready hwrote, hfound.wrote hready (hpersisted.oneIndex hindex hby) hwrote,
        hpersisted.wrote hindex hready hby hwrote hdb⟩
    show Restartable index owner (op.act.run st).state
    cases op with
    | save | updateValidatorsMetadata => exact hwrite heffect
    | delete pubKey =>
      rw [heffect.2]
      exact ⟨hst.deleted pubKey, hfound.deleted hst pubKey, hpersisted.deleted pubKey⟩
    | drop =>
      rw [heffect.2]
      exact ⟨.dropped, ⟨nofun, nofun⟩, hpersisted.dropped⟩

end Ssv.Registry
