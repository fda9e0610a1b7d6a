import Mathlib.Data.Nat.Digits.Defs
import SsvNode.Registry.Persistence

/-!
# Restarting from the database

`NewSharesStorage` loads the shares, which are those in memory, and the table of indices. `saveToDB`
writes the index of **every** share, zero where there is no metadata, so that a validator without
metadata has the index zero after a restart (`unknown_indexed`). The answers, compared by content,
are the same **if and only if** every validator in the table was saved with metadata
(`restart_agrees_iff`).
-/

namespace Ssv.Registry

open SharesStorage List AList Option

/-! ### Loading the shares -/

/-- The object that is made of a record. -/
def Share.load (object : ℕ) (s : Share) : SSVShare where
  validatorIndex := s.validatorIndex
  validatorPubKey := s.validatorPubKey
  sharePubKey := s.sharePubKey
  committee := s.committee
  domainType := s.domainType
  status := s.status
  activationEpoch := s.activationEpoch
  exitEpoch := s.exitEpoch
  ownerAddress := s.ownerAddress
  liquidated := s.liquidated
  object := object

/-- A list has the contents of the shares in memory, each once. -/
def HasContents (shares : PubKey → Option SSVShare) (l : List SSVShare) : Prop :=
  IsRoster Share.validatorPubKey (l.map fromSSVShare)
    fun b ↦ (shares b.validatorPubKey).map fromSSVShare = some b

variable {shares shares' : PubKey → Option SSVShare} {l l' : List SSVShare} {s : SSVShare}
    {b : Share}

theorem toSSVShare_eq_ok (object : ℕ) (hsize : b.validatorPubKey.length = 48) :
    toSSVShare object b = .ok (b.load object) :=
  if_neg (not_not.2 hsize)

theorem of_fromSSVShare_eq {t : SSVShare} (h : fromSSVShare s = fromSSVShare t) :
    s.validatorPubKey = t.validatorPubKey ∧ s.validatorIndex = t.validatorIndex ∧
      s.operatorIDs = t.operatorIDs ∧ s.hasBeaconMetadata = t.hasBeaconMetadata :=
  ⟨congrArg Share.validatorPubKey h, congrArg Share.validatorIndex h,
    congrArg (·.committee.map (·.signer)) h,
    congrArg (fun b : Share ↦ decide (b.status ≠ .unknown)) h⟩

theorem exists_listed_iff {P : Share → Prop} :
    (∃ s, (Listed shares s ∧ P (fromSSVShare s)) ∧ fromSSVShare s = b) ↔
      (shares b.validatorPubKey).map fromSSVShare = some b ∧ P b := by
  rw [map_eq_some_iff]
  constructor
  · rintro ⟨s, ⟨hs, hP⟩, rfl⟩
    exact ⟨⟨s, hs, rfl⟩, hP⟩
  · rintro ⟨⟨s, hs, rfl⟩, hP⟩
    exact ⟨s, ⟨hs, hP⟩, rfl⟩

namespace HasContents

variable (h : HasContents shares l)
include h

theorem nodup : (l.map (·.validatorPubKey)).Nodup := by
  have hnodup := IsRoster.nodup h
  rw [List.map_map] at hnodup
  exact hnodup

theorem of_perm (hperm : l'.Perm l) : HasContents shares l' :=
  IsRoster.of_perm h (hperm.map fromSSVShare)

theorem exists_listed (hs : s ∈ l) : ∃ t, Listed shares t ∧ fromSSVShare t = fromSSVShare s := by
  obtain ⟨t, ht, heq⟩ := map_eq_some_iff.1 ((IsRoster.mem h (fromSSVShare s)).1 (mem_map_of_mem hs))
  have hkey : t.validatorPubKey = s.validatorPubKey := congrArg Share.validatorPubKey heq
  exact ⟨t, show shares t.validatorPubKey = some t from hkey ▸ ht, heq⟩

theorem map_find (hkeyed : ∀ pubKey s, shares pubKey = some s → s.validatorPubKey = pubKey)
    (pubKey : PubKey) :
    (l.find? fun s ↦ decide (s.validatorPubKey = pubKey)).map fromSSVShare =
      (shares pubKey).map fromSSVShare := by
  ext b
  rw [map_eq_some_iff]
  constructor
  · rintro ⟨s, hs, rfl⟩
    obtain ⟨hmem, rfl⟩ := (find?_key_eq_some h.nodup).1 hs
    exact (IsRoster.mem h (fromSSVShare s)).1 (mem_map_of_mem hmem)
  · intro hb
    obtain ⟨t, ht, rfl⟩ := map_eq_some_iff.1 hb
    have hkey := hkeyed pubKey t ht
    subst hkey
    obtain ⟨s, hs, heq⟩ := mem_map.1 ((IsRoster.mem h (fromSSVShare t)).2 hb)
    exact ⟨s, (find?_key_eq_some h.nodup).2 ⟨hs, congrArg Share.validatorPubKey heq⟩, heq⟩

end HasContents

theorem loadFromDB_spec {records : List ((_ : PubKey) × Share)}
    (hsize : ∀ record ∈ records, record.2.validatorPubKey.length = 48) :
    ∃ loaded, loadFromDB records = .ok loaded ∧
    loaded.map fromSSVShare = records.map Sigma.snd := by
  refine ⟨records.zipIdx.map fun entry ↦ entry.1.2.load entry.2, ?_, ?_⟩
  · have hok := Checks.mapM_map_eq_ok (g := id) (l := records.zipIdx)
      (h := fun entry ↦ entry.1.2.load entry.2)
        (f := fun entry ↦ (toSSVShare entry.2 entry.1.2).mapError
        (·.wrap "failed to convert storage share to domain share")) fun entry hentry ↦ by
      rw [id, toSSVShare_eq_ok entry.2 (hsize entry.1 (fst_mem_of_mem_zipIdx hentry))]
      rfl
    rw [List.map_id] at hok
    exact hok
  · rw [List.map_map]
    show records.zipIdx.map (Sigma.snd ∘ Prod.fst) = _
    rw [← List.map_map, List.zipIdx_map_fst]

variable {index : PubKey → ℕ} {st : SharesStorage}

theorem Persisted.lookup_shares (h : Persisted index st)
    (hkeyed : ∀ pubKey s, st.shares pubKey = some s → s.validatorPubKey = pubKey)
    {pubKey : PubKey} :
    st.db.shares.lookup pubKey = some b ↔
      b.validatorPubKey = pubKey ∧ (st.shares b.validatorPubKey).map fromSSVShare = some b := by
  rw [h.shares]
  constructor
  · intro hb
    obtain ⟨s, hs, rfl⟩ := map_eq_some_iff.1 hb
    have hkey := hkeyed pubKey s hs
    subst hkey
    exact ⟨rfl, hb⟩
  · rintro ⟨rfl, hb⟩
    exact hb

theorem Persisted.hasContents (h : Persisted index st)
    (hkeyed : ∀ pubKey s, st.shares pubKey = some s → s.validatorPubKey = pubKey)
    (hl : l.map fromSSVShare = st.db.shares.entries.map Sigma.snd) : HasContents st.shares l := by
  have hentry : ∀ {pubKey : PubKey} {b : Share}, (⟨pubKey, b⟩ : (_ : PubKey) × Share) ∈
      st.db.shares.entries ↔ b.validatorPubKey = pubKey ∧
        (st.shares b.validatorPubKey).map fromSSVShare = some b :=
    fun {pubKey b} ↦ mem_lookup_iff.symm.trans (h.lookup_shares hkeyed)
  rw [HasContents, hl]
  constructor
  · have hkeys : (st.db.shares.entries.map Sigma.snd).map Share.validatorPubKey =
        st.db.shares.keys := by
      rw [List.map_map]
      exact map_congr_left fun entry hmem ↦ (hentry.1 hmem).1
    rw [hkeys]
    exact st.db.shares.keys_nodup
  · intro b
    rw [List.mem_map]
    constructor
    · rintro ⟨entry, hmem, rfl⟩
      exact (hentry.1 hmem).2
    · exact fun hb ↦ ⟨⟨b.validatorPubKey, b⟩, hentry.2 ⟨rfl, hb⟩, rfl⟩

/-- The shares found in a list with distinct validators are those that puts leave. -/
theorem find_eq_putAll (hnodup : (l.map (·.validatorPubKey)).Nodup) (hperm : l'.Perm l) :
    (fun pubKey ↦ l.find? fun s ↦ decide (s.validatorPubKey = pubKey)) = putAll (fun _ ↦ none)
      l' := by
  have hnodup' : (l'.reverse.map (·.validatorPubKey)).Nodup :=
    ((((reverse_perm l').trans hperm).map _).nodup_iff).2 hnodup
  funext pubKey
  rw [putAll_apply, or_none]
  ext s
  rw [find?_key_eq_some hnodup, find?_key_eq_some hnodup', mem_reverse, hperm.mem_iff]

variable {v : ValidatorStore}

theorem HasContents.oneIndex (h : HasContents shares l)
    (hfound : Found shares v []) : OneIndex (fun _ ↦ none) l := by
  rintro s hs t (ht | ht) hmetadata
  · cases ht
  · refine ⟨fun hkey ↦ ?_, fun hsmetadata hindex ↦ ?_⟩
    · obtain rfl := inj_on_of_nodup_map h.nodup ht hs hkey
      exact ⟨hmetadata, rfl⟩
    · obtain ⟨s₀, hs₀, hseq⟩ := h.exists_listed hs
      obtain ⟨t₀, ht₀, hteq⟩ := h.exists_listed ht
      obtain ⟨hskey, hsindex, -, hsmeta⟩ := of_fromSSVShare_eq hseq
      obtain ⟨htkey, htindex, -, htmeta⟩ := of_fromSSVShare_eq hteq
      have hsentry := (hfound.complete s₀ hs₀ (hsmeta ▸ hsmetadata)).resolve_right not_mem_nil
      have htentry := (hfound.complete t₀ ht₀ (htmeta ▸ hmetadata)).resolve_right not_mem_nil
      rw [hsindex, ← hindex, ← htindex, htentry] at hsentry
      rw [← htkey, ← hskey, some.inj hsentry]

/-- With one public key for an index, the order in which the table is inverted does not matter. -/
theorem indexToPubkey_newValidatorStore {table : GoMap PubKey ℕ}
    (htable : ∀ pubKey i, table.lookup pubKey = some i → i = index pubKey)
    (hindex : Function.Injective index) (order : MapOrder ((_ : PubKey) × ℕ)) {i : ℕ}
    {pubKey : PubKey} :
    (newValidatorStore table order).indexToPubkey i = some pubKey ↔
    table.lookup pubKey = some i := by
  have hmem : ∀ entry, entry ∈ order.iterate table.entries → entry.2 = index entry.1 := by
    intro entry hentry
    exact htable entry.1 entry.2 (mem_lookup_iff.2 (order.mem_iterate.1 hentry))
  have hinverted : (newValidatorStore table order).indexToPubkey i = some pubKey ↔
      ∃ entry ∈ order.iterate table.entries, entry.2 = i ∧ entry.1 = pubKey := by
    refine GoMap.foldl_update_eq_some fun a ha b hb heq ↦ ?_
    rw [hmem a ha, hmem b hb] at heq
    exact hindex heq
  rw [hinverted]
  constructor
  · rintro ⟨⟨pubKey', i'⟩, hentry, rfl, rfl⟩
    exact mem_lookup_iff.2 (order.mem_iterate.1 hentry)
  · intro hlookup
    exact ⟨⟨pubKey, i⟩, order.mem_iterate.2 (mem_lookup_iff.1 hlookup), rfl, rfl⟩

theorem contents_perm {P : Share → Prop}
    (h : IsRoster SSVShare.validatorPubKey l fun s ↦ Listed shares s ∧ P (fromSSVShare s))
    (h' : IsRoster SSVShare.validatorPubKey l' fun s ↦ Listed shares' s ∧ P (fromSSVShare s))
    (hcontents : ∀ pubKey, (shares' pubKey).map fromSSVShare = (shares pubKey).map fromSSVShare) :
    (l'.map fromSSVShare).Perm (l.map fromSSVShare) := by
  have hroster : ∀ {shares : PubKey → Option SSVShare} {l : List SSVShare},
      IsRoster SSVShare.validatorPubKey l (fun s ↦ Listed shares s ∧ P (fromSSVShare s)) →
      IsRoster Share.validatorPubKey (l.map fromSSVShare) fun b ↦
        (shares b.validatorPubKey).map fromSSVShare = some b ∧ P b := by
    intro shares l h
    exact (h.map fromSSVShare fun _ _ ↦ rfl).congr fun b ↦ exists_listed_iff
  refine ((hroster h').congr fun b ↦ ?_).perm (hroster h)
  rw [hcontents]

theorem Found.map_byValidatorIndex (h : Found shares v []) {i : ℕ} :
    (v.byValidatorIndex i).map fromSSVShare = some b ↔
      (shares b.validatorPubKey).map fromSSVShare = some b ∧ b.status ≠ .unknown ∧
        b.validatorIndex = i := by
  rw [← exists_listed_iff (P := fun b ↦ b.status ≠ .unknown ∧ b.validatorIndex = i),
    map_eq_some_iff]
  refine exists_congr fun s ↦ and_congr_left fun _ ↦ ?_
  constructor
  · intro hs
    obtain ⟨hlisted, hmetadata, hindex⟩ := h.sound i s hs
    exact ⟨hlisted, of_decide_eq_true hmetadata, hindex⟩
  · rintro ⟨hlisted, hstatus, rfl⟩
    exact (h.complete s hlisted (decide_eq_true hstatus)).resolve_right not_mem_nil

/-! ### The store after a restart -/

variable [RegistrySpec] {owner : ℕ → PubKey}

/-- Every validator in the table of indices has been saved with metadata. -/
def AllKnown (st : SharesStorage) : Prop :=
  ∀ pubKey, st.db.pubkeyToIndex.lookup pubKey ≠ none → st.validatorStore.pubkeyToIndex pubKey ≠ none

/-- What a restart makes of a store. -/
structure Reloaded (st st' : SharesStorage) : Prop where
  contents : ∀ pubKey, (st'.shares pubKey).map fromSSVShare = (st.shares pubKey).map fromSSVShare
  linked : Linked st'.shares st'.validatorStore
  built : ∀ id, st'.validatorStore.Built id
  found : Found st'.shares st'.validatorStore []
  pubkeyToIndex : ∀ pubKey, st'.validatorStore.pubkeyToIndex pubKey = st.db.pubkeyToIndex.lookup
    pubKey
  indexToPubkey : AllKnown st → ∀ i pubKey,
    st'.validatorStore.indexToPubkey i = some pubKey ↔ st.db.pubkeyToIndex.lookup pubKey = some i

theorem newSharesStorage_eq_ok {order : SharesStorage.LoadOrder} {db : Database}
    {loaded : List SSVShare}
    (hload : loadFromDB db.shares.entries = .ok loaded)
    (hsize : ∀ pubKey, db.pubkeyToIndex.lookup pubKey ≠ none → pubKey.length = 48)
    (hadded : ((ValidatorStore.handleSharesAdded (order.shares.iterate loaded)).run
      (newValidatorStore db.pubkeyToIndex order.indices)).result = .ok ()) :
    newSharesStorage order db = .ok {
      shares := fun pubKey ↦ loaded.find? fun s ↦ decide (s.validatorPubKey = pubKey)
      validatorStore := ((ValidatorStore.handleSharesAdded (order.shares.iterate loaded)).run
        (newValidatorStore db.pubkeyToIndex order.indices)).state
      db := db } := by
  have hany : (db.pubkeyToIndex.entries.any fun entry ↦ decide (entry.1.length ≠ 48)) = false := by
    rw [List.any_eq_false]
    intro entry hentry
    have hlookup : db.pubkeyToIndex.lookup entry.1 = some entry.2 := mem_lookup_iff.2 hentry
    simpa using hsize entry.1 (by rw [hlookup]; exact nofun)
  rw [newSharesStorage, Checks.bind_eq_ok]
  refine ⟨loaded, hload, ?_⟩
  dsimp only
  rw [hany, if_neg Bool.false_ne_true, Checks.bind_eq_ok]
  exact ⟨(), hadded, rfl⟩

namespace HasContents

theorem oneCommittee (h : HasContents shares l) (hlinked : Linked shares v) :
    OneCommittee (fun _ ↦ none) l := by
  rintro s hs t (ht | ht) heq
  · cases ht
  · obtain ⟨s₀, hs₀, hseq⟩ := h.exists_listed hs
    obtain ⟨t₀, ht₀, hteq⟩ := h.exists_listed ht
    obtain ⟨hskey, -, hsops, -⟩ := of_fromSSVShare_eq hseq
    obtain ⟨htkey, -, htops, -⟩ := of_fromSSVShare_eq hteq
    rw [SSVShare.committeeID, SSVShare.committeeID, ← hsops, ← htops, ← hskey, ← htkey] at heq
    rw [← hsops, ← htops]
    rcases heq with heq | heq
    · exact hlinked.oneCommittee t₀ s₀ ht₀ hs₀ heq
    · rw [Listed, heq] at ht₀
      rw [some.inj (ht₀.symm.trans hs₀)]

end HasContents

/-- **A restart succeeds**, with the shares of memory and the indices of the table. -/
theorem Restartable.reload (hindex : Function.Injective index) (h : Restartable index owner st)
    (order : SharesStorage.LoadOrder) :
    ∃ st', newSharesStorage order st.db = .ok st' ∧ Reloaded st st' := by
  obtain ⟨⟨hlinked, -, -⟩, hfound, hpersisted⟩ := h
  have hsize : ∀ record ∈ st.db.shares.entries, record.2.validatorPubKey.length = 48 := by
    intro record hrecord
    obtain ⟨-, hb⟩ := (hpersisted.lookup_shares hlinked.keyed).1 (mem_lookup_iff.2 hrecord)
    obtain ⟨s, hs, heq⟩ := map_eq_some_iff.1 hb
    have hkey := hlinked.keyed _ s hs
    refine hpersisted.size _ ?_
    rw [← hkey, hpersisted.last s (show st.shares _ = _ from hkey.symm ▸ hs)]
    exact nofun
  obtain ⟨loaded, hload, hloaded⟩ := loadFromDB_spec hsize
  have hcontents := hpersisted.hasContents hlinked.keyed hloaded
  have hperm := order.shares.perm loaded
  have hiterated := hcontents.of_perm hperm
  -- the handler is called for shares that keep their committees, on an empty store
  have hnone : Indexed owner {
      shares := fun _ ↦ none
      validatorStore := newValidatorStore st.db.pubkeyToIndex order.indices
      db := st.db } := .of_none rfl rfl
  obtain ⟨hiff, hstate⟩ := Act.wp_iff.1 (hnone.linked.handleSharesAdded
    (hiterated.oneCommittee hlinked)
    (fun _ ↦ id) (fun _ _ ↦ rfl) hiterated.nodup)
  have hresult := hiff.2 fun s hs ↦ by
    obtain ⟨t, ht, heq⟩ := hiterated.exists_listed hs
    rw [← (of_fromSSVShare_eq heq).2.2.1]
    exact hlinked.distinct t ht
  obtain ⟨hstore, hlinked'⟩ := hstate hresult
  have hmemory := find_eq_putAll hcontents.nodup hperm
  have hlast : ∀ s ∈ order.shares.iterate loaded,
      st.db.pubkeyToIndex.lookup s.validatorPubKey = some s.validatorIndex := by
    intro s hs
    obtain ⟨t, ht, heq⟩ := hiterated.exists_listed hs
    rw [← (of_fromSSVShare_eq heq).1, ← (of_fromSSVShare_eq heq).2.1]
    exact hpersisted.last t ht
  refine ⟨_, newSharesStorage_eq_ok hload hpersisted.size hresult, fun pubKey ↦ ?_, ?_, fun id ↦
    ?_, ?_,
    fun pubKey ↦ ?_, fun hknown i pubKey ↦ ?_⟩
  · exact hcontents.map_find hlinked.keyed pubKey
  · rw [hmemory]
    exact hlinked'
  · rw [hstore]
    exact .foldl .added (.inr nofun)
  · rw [hmemory, hstore]
    have hempty : Found (fun _ ↦ none) (newValidatorStore st.db.pubkeyToIndex order.indices)
        (order.shares.iterate loaded ++ []) := ⟨nofun, nofun⟩
    exact hempty.foldl (f := ValidatorStore.added) (fun _ _ ↦ rfl) (hiterated.oneIndex hfound)
      fun _ ↦ id
  · rw [hstore, pubkeyToIndex_foldl_of_mem writesMaps_added fun s hs _ ↦ hlast s hs]
    rfl
  · have htable : ∀ pubKey i, st.db.pubkeyToIndex.lookup pubKey = some i → i = index pubKey := by
      intro pubKey i hi
      obtain ⟨j, hj⟩ := ne_none_iff_exists'.1 (hknown pubKey (by rw [hi]; exact nofun))
      rw [hpersisted.table pubKey j hj] at hi
      rw [← some.inj hi]
      exact hpersisted.maps.value pubKey j hj
    have hinverted := fun i pubKey ↦
      @indexToPubkey_newValidatorStore index st.db.pubkeyToIndex htable hindex order.indices i
        pubKey
    rw [hstore, indexToPubkey_foldl_of_mem writesMaps_added fun s hs _ ↦
      (hinverted _ _).2 (hlast s hs)]
    exact hinverted i pubKey

/-! ### The answers -/

/-- Two committees are the same but for the order of their shares. -/
def SameCommittee (c c' : Committee) : Prop :=
  c.id = c'.id ∧ c.operators = c'.operators ∧
    ((c.shares.map fromSSVShare).zip c.indices).Perm ((c'.shares.map fromSSVShare).zip c'.indices)

/-- The same answers for a validator by public key and by index, for either from the other, for a
committee and for an operator. -/
structure SameAnswers (st st' : SharesStorage) : Prop where
  validator : ∀ pubKey, (st'.shares pubKey).map fromSSVShare = (st.shares pubKey).map fromSSVShare
  validatorByIndex : ∀ i, (st'.validatorStore.byValidatorIndex i).map fromSSVShare =
    (st.validatorStore.byValidatorIndex i).map fromSSVShare
  validatorIndex : ∀ pubKey,
    st'.validatorStore.pubkeyToIndex pubKey = st.validatorStore.pubkeyToIndex pubKey
  validatorPubkey : ∀ i, st'.validatorStore.indexToPubkey i = st.validatorStore.indexToPubkey i
  committee : ∀ id, Option.Rel SameCommittee (st'.validatorStore.byCommitteeID id)
    (st.validatorStore.byCommitteeID id)
  operatorValidators : ∀ op, ((st'.validatorStore.operatorValidators op).map fromSSVShare).Perm
    ((st.validatorStore.operatorValidators op).map fromSSVShare)

theorem sameCommittee {st' : SharesStorage} (hr : Reloaded st st')
    (hlinked : Linked st.shares st.validatorStore) (hbuilt : ∀ id, st.validatorStore.Built id)
    {id : Bytes} {c c' : Committee} (hc : st.validatorStore.byCommitteeID id = some c)
    (hc' : st'.validatorStore.byCommitteeID id = some c') : SameCommittee c' c := by
  obtain ⟨hid, hnodup, hmem, hsorted, hops, hindices⟩ := (hlinked.mirrors hbuilt).committee id c hc
  obtain ⟨hid', hnodup', hmem', hsorted', hops', hindices'⟩ :=
    (hr.linked.mirrors hr.built).committee id c' hc'
  have hperm : (c'.shares.map fromSSVShare).Perm (c.shares.map fromSSVShare) :=
    contents_perm (P := fun b ↦ computeCommitteeID (b.committee.map (·.signer)) = id) ⟨hnodup, hmem⟩
      ⟨hnodup', hmem'⟩ hr.contents
  refine ⟨hid'.trans hid.symm, ?_, ?_⟩
  · -- the operators are those of a share, and sorted
    obtain ⟨s', hs'⟩ := exists_mem_of_ne_nil _ (hr.linked.committee_some id c' hc').2
    obtain ⟨s, hs, heq⟩ := mem_map.1 (hperm.mem_iff.1 (mem_map_of_mem hs'))
    refine List.Perm.eq_of_pairwise (fun _ _ _ _ ↦ le_antisymm) hsorted' hsorted ?_
    have hsame : s'.operatorIDs = s.operatorIDs := (of_fromSSVShare_eq heq).2.2.1.symm
    exact (hops' s' hs').trans (hsame ▸ (hops s hs).symm)
  · have hzip : ∀ l : List SSVShare, (l.map fromSSVShare).zip (l.map (·.validatorIndex)) =
        (l.map fromSSVShare).map fun b ↦ (b, b.validatorIndex) := by
      intro l
      rw [List.zip_map', List.map_map]
      rfl
    rw [hindices, hindices', hzip, hzip]
    exact hperm.map _

theorem Reloaded.sameAnswers_iff {st' : SharesStorage} (h : Restartable index owner st)
    (hr : Reloaded st st') : SameAnswers st st' ↔ AllKnown st := by
  obtain ⟨⟨hlinked, -, hbuilt⟩, hfound, hpersisted⟩ := h
  constructor
  · intro hsame pubKey hne
    rw [← hsame.validatorIndex, hr.pubkeyToIndex]
    exact hne
  · intro hknown
    have hindex : ∀ pubKey i, st.db.pubkeyToIndex.lookup pubKey = some i ↔
        st.validatorStore.pubkeyToIndex pubKey = some i := by
      intro pubKey i
      refine ⟨fun hi ↦ ?_, hpersisted.table pubKey i⟩
      obtain ⟨j, hj⟩ := ne_none_iff_exists'.1 (hknown pubKey (by rw [hi]; exact nofun))
      rw [hj, ← hpersisted.table pubKey j hj, hi]
    refine ⟨hr.contents, fun i ↦ ?_, fun pubKey ↦ ?_, fun i ↦ ?_, fun id ↦ ?_, fun op ↦ ?_⟩
    · ext b
      rw [hr.found.map_byValidatorIndex, hfound.map_byValidatorIndex, hr.contents]
    · ext i
      rw [hr.pubkeyToIndex, hindex]
    · ext pubKey
      rw [hr.indexToPubkey hknown, hindex, hpersisted.maps.inverse]
    · have hperm := contents_perm (P := fun b ↦
        computeCommitteeID (b.committee.map (·.signer)) = id)
        (hlinked.committees id) (hr.linked.committees id) hr.contents
      rw [ValidatorStore.sharesOf, ValidatorStore.sharesOf] at hperm
      cases hc : st.validatorStore.byCommitteeID id with
      | none =>
        cases hc' : st'.validatorStore.byCommitteeID id with
        | none => exact .none
        | some c' =>
          rw [hc, hc'] at hperm
          exact absurd (map_eq_nil_iff.1 hperm.eq_nil) (hr.linked.committee_some id c' hc').2
      | some c =>
        cases hc' : st'.validatorStore.byCommitteeID id with
        | none =>
          rw [hc, hc'] at hperm
          exact absurd (map_eq_nil_iff.1 hperm.symm.eq_nil) (hlinked.committee_some id c hc).2
        | some => exact .some (sameCommittee hr hlinked hbuilt hc hc')
    · exact contents_perm (P := fun b ↦ op ∈ b.committee.map (·.signer)) (hlinked.operators op)
        (hr.linked.operators op) hr.contents

/-- **After a restart the answers are the same, if and only if every validator in the table of
indices has been saved with metadata.** The operations succeed, keep the committees, and write the
validators' indices. -/
theorem restart_agrees_iff (hindex : Function.Injective index)
    (h : ((storageMachine owner).restrict (StorageOp.KeepsAssignment index)).Reachable st)
    (order : SharesStorage.LoadOrder) :
    ∃ st', SharesStorage.newSharesStorage order st.db = .ok st' ∧
    (SameAnswers st st' ↔ AllKnown st) := by
  have hst := Restartable.of_reachable hindex h
  obtain ⟨st', hload, hr⟩ := hst.reload hindex order
  exact ⟨st', hload, hr.sameAnswers_iff hst⟩

end Ssv.Registry

namespace Ssv.Registry.Reference

def storedOrder : SharesStorage.LoadOrder := ⟨.stored, .stored⟩

/-- A public key as a number. -/
def numberOf (pubKey : PubKey) : ℕ := Nat.ofDigits 257 (pubKey.map fun byte ↦ byte.toNat + 1)

theorem numberOf_injective : Function.Injective numberOf := by
  have hdigits : ∀ pubKey : PubKey,
      Nat.digits 257 (numberOf pubKey) = pubKey.map fun byte ↦ byte.toNat + 1 := by
    intro pubKey
    refine Nat.digits_ofDigits 257 (by decide) _ (fun digit hdigit ↦ ?_) fun hne hzero ↦ ?_
    · obtain ⟨byte, -, rfl⟩ := List.mem_map.1 hdigit
      exact Nat.succ_lt_succ byte.toNat_lt
    · obtain ⟨byte, -, hbyte⟩ := List.mem_map.1 (List.getLast_mem hne)
      omega
  intro pubKey pubKey' heq
  have hmap : (pubKey.map fun byte ↦ byte.toNat + 1) = pubKey'.map fun byte ↦ byte.toNat + 1 := by
    rw [← hdigits, ← hdigits, heq]
  refine List.map_injective_iff.2 (fun a b hab ↦ ?_) hmap
  exact UInt8.toNat_inj.1 (Nat.succ.inj hab)

/-- A second validator of the committee. -/
def secondShare : SSVShare :=
  { shareOf 2 [1, 2, 3, 4] 2 with status := .activeOngoing, validatorIndex := 6 }

/-- The two validators have the indices 5 and 6, and the others greater ones. -/
def indexOf (pubKey : PubKey) : ℕ :=
  if pubKey = knownShare.validatorPubKey then 5
  else if pubKey = secondShare.validatorPubKey then 6
  else numberOf pubKey + 7

theorem indexOf_injective : Function.Injective indexOf := by
  intro pubKey pubKey' heq
  unfold indexOf at heq
  grind [numberOf_injective.eq_iff]

def indexedStore : SharesStorage :=
  [StorageOp.save [knownShare, secondShare]].foldl (storageMachine ownerOf).next .empty

theorem indexedStore_reachable :
    ((storageMachine ownerOf).restrict (StorageOp.KeepsAssignment indexOf)).Reachable
      indexedStore := by
  refine (Machine.Reachable.initial rfl).foldl ⟨⟨?_, ?_, ?_⟩, trivial⟩
  · decide +kernel
  · rintro s hs t (ht | ht) -
    · cases ht
    · simp only [List.mem_cons, List.not_mem_nil, or_false] at hs ht
      rcases hs with rfl | rfl <;> rcases ht with rfl | rfl <;> exact .refl _
  · intro s hs
    change s ∈ [knownShare, secondShare] at hs
    simp only [List.mem_cons, List.not_mem_nil, or_false] at hs
    rcases hs with rfl | rfl <;> exact ⟨fun _ ↦ rfl, fun hnot ↦ absurd rfl hnot⟩

theorem restart_agrees_indexedStore :
    ∃ st', SharesStorage.newSharesStorage storedOrder indexedStore.db = .ok st' ∧
      (SameAnswers indexedStore st' ↔ AllKnown indexedStore) :=
  restart_agrees_iff indexOf_injective indexedStore_reachable storedOrder

def unknownStore : SharesStorage :=
  [StorageOp.save [newShare]].foldl (storageMachine ownerOf).next .empty

/-- The validator has no index, and after a restart it has the index zero. -/
theorem unknown_indexed :
    (storageMachine ownerOf).Reachable unknownStore ∧ newShare.hasBeaconMetadata = false ∧
    unknownStore.shares newShare.validatorPubKey = some newShare ∧
    unknownStore.validatorStore.pubkeyToIndex newShare.validatorPubKey = none ∧
    (SharesStorage.newSharesStorage storedOrder unknownStore.db).map
      (fun st ↦ st.validatorStore.pubkeyToIndex newShare.validatorPubKey) = .ok (some 0) := by
  refine ⟨(Machine.Reachable.initial rfl).foldl ⟨?_, trivial⟩, ?_, ?_, ?_, ?_⟩
  · decide +kernel
  · decide +kernel
  · decide +kernel
  · decide +kernel
  · decide +kernel

end Ssv.Registry.Reference
