import SsvNode.Lib.Checks
import SsvNode.Registry.ShareIndices

/-!
# What an operation on the share store leaves

A `Save` is an assignment to the objects it is given and then **one put after the other**, in memory
and in the database; a metadata update is the `Save` of the shares it changes. `Save` updates the
known shares before it adds the new ones, which is the same as the order given unless the handlers
fail (`Split.putAll`).
-/

namespace Ssv.Registry

open Act ValidatorStore List Function

/-! ### Puts -/

variable (shares : PubKey → Option SSVShare)

/-- Put shares under their public keys, one after the other. -/
def putAll (l : List SSVShare) : PubKey → Option SSVShare :=
  l.foldl (fun shares s ↦ Function.update shares s.validatorPubKey (some s)) shares

section

variable {shares : PubKey → Option SSVShare} {share s : SSVShare} {l : List SSVShare}
    {pubKey : PubKey}

theorem put_eq_none : update shares s.validatorPubKey (some s) pubKey = none ↔
    pubKey ≠ s.validatorPubKey ∧ shares pubKey = none := by
  rw [update_apply]
  split <;> simp [*]

@[simp] theorem putAll_cons : putAll shares (s :: l) =
    putAll (update shares s.validatorPubKey (some s)) l := rfl

theorem putAll_apply : putAll shares l pubKey =
    (l.reverse.find? fun s ↦ decide (s.validatorPubKey = pubKey)).or (shares pubKey) := by
  rw [putAll, GoMap.foldl_update_apply, Option.map_id']

theorem putAll_of_notMem (h : pubKey ∉ l.map (·.validatorPubKey)) :
    putAll shares l pubKey = shares pubKey := by
  induction l generalizing shares with
  | nil => rfl
  | cons s l ih =>
    rw [map_cons, mem_cons, not_or] at h
    rw [putAll_cons, ih h.2, update_of_ne h.1]

theorem putAll_update (h : share.validatorPubKey ∉ l.map (·.validatorPubKey)) :
    putAll (update shares share.validatorPubKey (some share)) l =
      update (putAll shares l) share.validatorPubKey (some share) := by
  induction l generalizing shares with
  | nil => rfl
  | cons s l ih =>
    rw [map_cons, mem_cons, not_or] at h
    rw [putAll_cons, putAll_cons, update_comm h.1, ih h.2]

theorem listed_of_putAll (h : Listed (putAll shares l) s) : Listed shares s ∨ s ∈ l := by
  induction l generalizing shares with
  | nil => exact .inl h
  | cons t l ih =>
    rcases ih h with h | h
    · rcases listed_put.1 h with ⟨h, -⟩ | rfl
      · exact .inl h
      · exact .inr (.head _)
    · exact .inr (.tail _ h)

theorem putAll_of_listed (h : ∀ s ∈ l, Listed shares s) : putAll shares l = shares := by
  induction l with
  | nil => rfl
  | cons s l ih =>
    obtain ⟨hs, hl⟩ := forall_mem_cons.1 h
    rw [putAll_cons, update_eq_self_iff.2 hs.symm]
    exact ih hl

end

/-! ### The two lists of `Save` -/

/-- The shares to update, and those to add, of validators that were not in memory. -/
structure Split (shares : PubKey → Option SSVShare) (l updateShares addShares : List SSVShare) :
    Prop where
  perm : l.Perm (updateShares ++ addShares)
  known : ∀ s ∈ updateShares, shares s.validatorPubKey ≠ none ∨
    s.validatorPubKey ∈ addShares.map (·.validatorPubKey)
  new : ∀ s ∈ addShares, shares s.validatorPubKey = none
  nodup : (addShares.map (·.validatorPubKey)).Nodup
  putAll : (∀ s ∈ updateShares, shares s.validatorPubKey ≠ none) →
    putAll (putAll shares updateShares) addShares = putAll shares l

namespace Split

variable {shares : PubKey → Option SSVShare} {l updateShares addShares : List SSVShare}
  {share s : SSVShare}

theorem nil : Split shares [] [] [] where
  perm := .refl _
  known := nofun
  new := nofun
  nodup := .nil
  putAll _ := rfl

theorem update (hknown : shares share.validatorPubKey ≠ none)
    (h : Split (update shares share.validatorPubKey (some share)) l updateShares addShares) :
    Split shares (share :: l) (share :: updateShares) addShares where
  perm := h.perm.cons share
  known := by
    refine forall_mem_cons.2 ⟨.inl hknown, fun s hs ↦ (h.known s hs).imp_left fun hne hnone ↦ ?_⟩
    exact hne (put_eq_none.2 ⟨fun hkey ↦ hknown (hkey ▸ hnone), hnone⟩)
  new s hs := (put_eq_none.1 (h.new s hs)).2
  nodup := h.nodup
  putAll hall := by
    rw [putAll_cons, putAll_cons]
    exact h.putAll fun s hs hnone ↦ hall s (.tail _ hs) (put_eq_none.1 hnone).2

theorem add (hnew : shares share.validatorPubKey = none)
    (h : Split (Function.update shares share.validatorPubKey (some share)) l updateShares
      addShares) :
    Split shares (share :: l) updateShares (share :: addShares) where
  perm := (h.perm.cons share).trans perm_middle.symm
  known s hs := by
    rw [map_cons, mem_cons]
    by_cases hkey : s.validatorPubKey = share.validatorPubKey
    · exact .inr (.inl hkey)
    · exact (h.known s hs).imp (fun hne hnone ↦ hne (put_eq_none.2 ⟨hkey, hnone⟩)) .inr
  new := List.forall_mem_cons.2 ⟨hnew, fun s hs ↦ (put_eq_none.1 (h.new s hs)).2⟩
  nodup := by
    refine nodup_cons.2 ⟨fun hmem ↦ ?_, h.nodup⟩
    obtain ⟨s, hs, hkey⟩ := mem_map.1 hmem
    exact (put_eq_none.1 (h.new s hs)).1 hkey
  putAll hall := by
    have hkey : share.validatorPubKey ∉ updateShares.map (·.validatorPubKey) := by
      intro hmem
      obtain ⟨s, hs, hkey⟩ := mem_map.1 hmem
      exact hall s hs (hkey ▸ hnew)
    rw [putAll_cons, putAll_cons, ← putAll_update hkey]
    exact h.putAll fun s hs hnone ↦ hall s hs (put_eq_none.1 hnone).2

theorem mem_iff (h : Split shares l updateShares addShares) :
    s ∈ l ↔ s ∈ updateShares ∨ s ∈ addShares := by
  rw [h.perm.mem_iff, mem_append]

end Split

namespace SharesStorage

theorem splitShares_spec (l : List SSVShare) (st : SharesStorage) :
    (splitShares l).wp (fun st' _ r ↦ ∃ updateShares addShares, r = .ok (updateShares, addShares) ∧
      Split st.shares l updateShares addShares ∧ st' = { st with shares := putAll st.shares l })
        st := by
  induction l generalizing st with
  | nil =>
    rw [splitShares, wp_pure]
    exact ⟨[], [], rfl, .nil, rfl⟩
  | cons share l ih =>
    rw [splitShares]
    simp only [wp_bind, wp_read, wp_update]
    refine wp_mono (ih (st.setShare share.validatorPubKey (some share))) ?_
    rintro _ _ _ ⟨updateShares, addShares, rfl, hsplit, rfl⟩
    dsimp only
    rw [wp_pure]
    cases hshare : st.shares share.validatorPubKey with
    | none => exact ⟨_, _, rfl, hsplit.add hshare, rfl⟩
    | some =>
      have hknown : st.shares share.validatorPubKey ≠ none := by
        rw [hshare]
        exact Option.some_ne_none _
      exact ⟨_, _, rfl, hsplit.update hknown, rfl⟩

end SharesStorage

variable [RegistrySpec]

/-! ### The loops of the handlers -/

/-- A share of a stored validator is of its committee, and a committee ID is of one committee. -/
def OneCommittee (l : List SSVShare) : Prop :=
  ∀ s ∈ l, ∀ t, Listed shares t ∨ t ∈ l →
    t.committeeID = s.committeeID ∨ t.validatorPubKey = s.validatorPubKey →
      t.operatorIDs.Perm s.operatorIDs

section

variable {shares shares' : PubKey → Option SSVShare} {v : ValidatorStore} {s : SSVShare}
  {l rest : List SSVShare} {id : Bytes}

theorem OneCommittee.joins (h : OneCommittee shares l) (hs : s ∈ l) : Joins shares s :=
  fun t ht ↦ h s hs t (.inl ht)

theorem OneCommittee.mono (h : OneCommittee shares l)
    (hlisted : ∀ t, Listed shares' t → Listed shares t ∨ t ∈ l) : OneCommittee shares' l :=
  fun s hs t ht ↦ h s hs t (ht.elim (hlisted t) .inr)

theorem OneCommittee.put (h : OneCommittee shares l) (hs : s ∈ l) :
    OneCommittee (update shares s.validatorPubKey (some s)) l := by
  refine h.mono fun t ht ↦ ?_
  rcases listed_put.1 ht with ⟨ht, -⟩ | rfl
  · exact .inl ht
  · exact .inr hs

namespace Linked

theorem handleSharesUpdated (hone : OneCommittee shares l) (hrest : ∀ s ∈ rest, s ∈ l)
    (h : Linked shares v) :
    (handleSharesUpdated rest).wp (fun v' _ r ↦
      (r = .ok () ↔ ∀ s ∈ rest, shares s.validatorPubKey ≠ none) ∧
      (r = .ok () → v' = rest.foldl (fun v s ↦ v.updated s) v ∧ Linked (putAll shares rest) v'))
        v := by
  induction rest generalizing shares v with
  | nil => exact ⟨iff_of_true rfl nofun, fun _ ↦ ⟨rfl, h⟩⟩
  | cons s rest ih =>
    obtain ⟨hs, hrest⟩ := forall_mem_cons.1 hrest
    rw [handleSharesUpdated, forM_cons]
    refine wp_seq (h.handleShareUpdated (hone.joins hs)) (fun v' _ e ⟨hiff, _⟩ ↦ ⟨?_, nofun⟩)
      fun v' _ _ ⟨hiff, hstate⟩ ↦ ?_
    · exact iff_of_false nofun fun hall ↦ nomatch hiff.2 (hall s (.head _))
    · obtain ⟨rfl, hlinked⟩ := hstate rfl
      refine wp_mono (ih (hone.put hs) hrest hlinked) fun v'' _ r ⟨hiff', hstate'⟩ ↦ ⟨?_, hstate'⟩
      rw [hiff', forall_mem_cons, and_iff_right (hiff.1 rfl)]
      -- the validator was known already
      refine forall₂_congr fun t _ ↦ not_congr (put_eq_none.trans (and_iff_right_of_imp ?_))
      exact fun hnone hkey ↦ hiff.1 rfl (hkey ▸ hnone)

theorem handleSharesAdded (hone : OneCommittee shares l) (hrest : ∀ s ∈ rest, s ∈ l)
    (hnew : ∀ s ∈ rest, shares s.validatorPubKey = none)
    (hnodup : (rest.map (·.validatorPubKey)).Nodup) (h : Linked shares v) :
    (handleSharesAdded rest).wp (fun v' _ r ↦
      (r = .ok () ↔ ∀ s ∈ rest, s.operatorIDs.Nodup) ∧
      (r = .ok () → v' = rest.foldl (fun v s ↦ v.added s) v ∧ Linked (putAll shares rest) v'))
        v := by
  induction rest generalizing shares v with
  | nil => exact ⟨iff_of_true rfl nofun, fun _ ↦ ⟨rfl, h⟩⟩
  | cons s rest ih =>
    obtain ⟨hs, hrest⟩ := forall_mem_cons.1 hrest
    obtain ⟨hnone, hnew⟩ := forall_mem_cons.1 hnew
    obtain ⟨hnot, hnodup⟩ := nodup_cons.1 hnodup
    rw [handleSharesAdded, forM_cons]
    refine wp_seq (h.handleShareAdded (hone.joins hs) hnone) (fun v' _ e ⟨hiff, _⟩ ↦ ⟨?_, nofun⟩)
      fun v' _ _ ⟨hiff, hstate⟩ ↦ ?_
    · exact iff_of_false nofun fun hall ↦ nomatch hiff.2 (hall s (.head _))
    · obtain ⟨rfl, hlinked⟩ := hstate rfl
      have hnew' : ∀ t ∈ rest,
          update shares s.validatorPubKey (some s) t.validatorPubKey = none := fun t ht ↦
        put_eq_none.2 ⟨fun heq ↦ hnot (mem_map.2 ⟨t, ht, heq⟩), hnew t ht⟩
      refine wp_mono (ih (hone.put hs) hrest hnew' hnodup hlinked)
        fun v'' _ r ⟨hiff', hstate'⟩ ↦ ⟨?_, hstate'⟩
      rw [hiff', forall_mem_cons, and_iff_right (hiff.1 rfl)]

end Linked

theorem ValidatorStore.Built.foldl {f : ValidatorStore → SSVShare → ValidatorStore}
    (hf : ∀ {v s}, id = s.committeeID ∨ v.Built id → (f v s).Built id)
    (h : (∃ s ∈ l, id = s.committeeID) ∨ v.Built id) : (l.foldl f v).Built id := by
  induction l generalizing v with
  | nil => exact h.resolve_left (by simp)
  | cons s l ih =>
    refine ih ?_
    rw [exists_mem_cons_iff, or_assoc] at h
    rcases h with h | h | h
    · exact .inr (hf (.inl h))
    · exact .inl h
    · exact .inr (hf (.inr h))

end

/-! ### Assignments -/

/-- An object is of one validator. -/
def Owned (owner : ℕ → PubKey) (shares : PubKey → Option SSVShare) : Prop :=
  ∀ t, Listed shares t → t.validatorPubKey = owner t.object

/-- The effect of the assignments to the objects of some shares. -/
def SharesStorage.assignAll (l : List SSVShare) (st : SharesStorage) : SharesStorage :=
  l.foldl (fun st s ↦ st.assign s) st

/-- The indices are linked, objects are of one validator each, and the shares keep their committees.
-/
structure Ready (owner : ℕ → PubKey) (l : List SSVShare) (st : SharesStorage) : Prop where
  linked : Linked st.shares st.validatorStore
  owned : Owned owner st.shares
  owner : ∀ s ∈ l, s.validatorPubKey = owner s.object
  one : OneCommittee st.shares l

namespace Ready

variable {owner : ℕ → PubKey} {l rest : List SSVShare} {st : SharesStorage} {s : SSVShare}

variable (h : Ready owner l st)
include h

theorem replaces (hs : s ∈ l) : Replaces st.shares s := by
  intro t ht hobject
  have hkey : t.validatorPubKey = s.validatorPubKey := by
    rw [h.owned t ht, h.owner s hs, hobject]
  exact ⟨hkey, h.one s hs t (.inl ht) (.inr hkey)⟩

theorem listed_assign (hs : s ∈ l) {t : SSVShare} :
    Listed (st.assign s).shares t ↔ ∃ t₀, Listed st.shares t₀ ∧ s.assigned t₀ = t :=
  (h.replaces hs).listed h.linked.keyed

theorem listed_of_assign (hs : s ∈ l) {t : SSVShare}
    (ht : Listed (st.assign s).shares t) : Listed st.shares t ∨ t ∈ l := by
  obtain ⟨t₀, ht₀, rfl⟩ := (h.listed_assign hs).1 ht
  unfold SSVShare.assigned
  split
  · exact .inr hs
  · exact .inl ht₀

theorem assign (hs : s ∈ l) : Ready owner l (st.assign s) := by
  refine ⟨h.linked.assign (h.replaces hs), fun t ht ↦ ?_, h.owner,
    h.one.mono fun t ht ↦ h.listed_of_assign hs ht⟩
  exact (h.listed_of_assign hs ht).elim (h.owned t) (h.owner t)

theorem shares_assign_of_ne (hs : s ∈ l) {pubKey : PubKey}
    (hne : pubKey ≠ s.validatorPubKey) : (st.assign s).shares pubKey = st.shares pubKey := by
  show (st.shares pubKey).map s.assigned = st.shares pubKey
  cases ht : st.shares pubKey with
  | none => rfl
  | some t =>
    have hkey := h.linked.keyed _ t ht
    subst hkey
    exact congrArg some (if_neg fun hobject ↦ hne ((h.replaces hs) t ht hobject).1)

variable (hrest : ∀ s ∈ rest, s ∈ l)
include hrest

theorem assignAll : Ready owner l (st.assignAll rest) := by
  induction rest generalizing st with
  | nil => exact h
  | cons s rest ih =>
    obtain ⟨hs, hrest⟩ := forall_mem_cons.1 hrest
    exact ih (h.assign hs) hrest

theorem shares_assignAll_of_notMem {pubKey : PubKey}
    (hnot : pubKey ∉ rest.map (·.validatorPubKey)) :
    (st.assignAll rest).shares pubKey = st.shares pubKey := by
  induction rest generalizing st with
  | nil => rfl
  | cons s rest ih =>
    obtain ⟨hs, hrest⟩ := forall_mem_cons.1 hrest
    rw [map_cons, mem_cons, not_or] at hnot
    exact (ih (h.assign hs) hrest hnot.2).trans (h.shares_assign_of_ne hs hnot.1)

theorem built_assignAll {id : Bytes} (hid : ∀ s ∈ rest, id ≠ s.committeeID)
    (hbuilt : st.validatorStore.Built id) : (st.assignAll rest).validatorStore.Built id := by
  induction rest generalizing st with
  | nil => exact hbuilt
  | cons s rest ih =>
    obtain ⟨hs, hrest⟩ := forall_mem_cons.1 hrest
    obtain ⟨hne, hid⟩ := forall_mem_cons.1 hid
    exact ih (h.assign hs) hrest hid (.assign h.linked (h.replaces hs) hne hbuilt)

end Ready

omit [RegistrySpec] in
theorem SharesStorage.db_assignAll (l : List SSVShare) (st : SharesStorage) :
    (st.assignAll l).db = st.db := by
  induction l generalizing st with
  | nil => rfl
  | cons s l ih => exact ih (st.assign s)

/-! ### `Save` -/

def Database.saveAll (l : List SSVShare) (db : Database) : Database where
  shares := l.foldl (fun m s ↦ m.insert s.validatorPubKey (fromSSVShare s)) db.shares
  pubkeyToIndex := l.foldl (fun m s ↦ m.insert s.validatorPubKey s.validatorIndex) db.pubkeyToIndex

/-- The shares are in the database, which takes public keys of 48 bytes only. -/
def SavedTo (l : List SSVShare) (db db' : Database) : Prop :=
  db' = db.saveAll l ∧ ∀ s ∈ l, s.validatorPubKey.length = 48

/-- The updated shares are there, and the added ones name no operator twice. -/
def Handled (updateShares addShares : List SSVShare) : Prop :=
  (∀ s ∈ updateShares, shares s.validatorPubKey ≠ none) ∧ ∀ s ∈ addShares, s.operatorIDs.Nodup

namespace SharesStorage

variable {owner : ℕ → PubKey} {l : List SSVShare} {st : SharesStorage}

omit [RegistrySpec] in
theorem wp_onStore {α : Type} {x : ValidatorStore.StoreAct α}
    {Q : SharesStorage → List Observation → Except Err α → Prop} :
    (onStore x).wp Q st ↔
      x.wp (fun v es r ↦ Q { st with validatorStore := v } es r) st.validatorStore := Iff.rfl

omit [RegistrySpec] in
theorem onStore_spec {x : ValidatorStore.StoreAct Unit} {P : Prop} {Q : ValidatorStore → Prop}
    (hx : x.wp (fun v _ r ↦ (r = .ok () ↔ P) ∧ (r = .ok () → Q v)) st.validatorStore) :
    (onStore x).wp (fun st' _ r ↦ (r = .ok () ↔ P) ∧
      (r = .ok () → ∃ v, Q v ∧ st' = { st with validatorStore := v })) st :=
  wp_onStore.2 (wp_mono hx fun v _ _ ⟨hiff, hQ⟩ ↦ ⟨hiff, fun hr ↦ ⟨v, hQ hr, rfl⟩⟩)

omit [RegistrySpec] in
theorem onStore_mapError_spec {x : ValidatorStore.StoreAct Unit} {P : Prop}
    {Q : ValidatorStore → Prop} (f : Err → Err)
    (hx : x.wp (fun v _ r ↦ (r = .ok () ↔ P) ∧ (r = .ok () → Q v)) st.validatorStore) :
    ((onStore x).mapError f).wp (fun st' _ r ↦ (r = .ok () ↔ P) ∧
      (r = .ok () → ∃ v, Q v ∧ st' = { st with validatorStore := v })) st := by
  refine wp_mapError.2 (wp_mono (onStore_spec hx) fun st' _ r hr ↦ ?_)
  rw [Checks.mapError_eq_ok]
  exact hr

omit [RegistrySpec] in
theorem of_encode_eq_ok {share value : Share} (h : share.encode = .ok value) :
    value = share ∧ share.validatorPubKey.length = 48 := by
  unfold Share.encode at h
  split at h
  · next hsize => exact ⟨(Except.ok.inj h).symm, hsize.1⟩
  · cases h

omit [RegistrySpec] in
theorem saveToDB_spec (l : List SSVShare) (st : SharesStorage) :
    (saveToDB l).wp (fun st' _ r ↦ st'.shares = st.shares ∧ st'.validatorStore = st.validatorStore ∧
      (r = .ok () → SavedTo l st.db st'.db)) st := by
  have hloop : ∀ (rest : List SSVShare) (st : SharesStorage),
      (forM rest fun s ↦ do
        let value ← (lift (fromSSVShare s).encode).mapError (·.wrap "failed to serialize share")
        update fun st ↦ { st with db := { st.db with
          shares := st.db.shares.insert s.validatorPubKey value } } : StorageAct Unit).wp
        (fun st' _ r ↦ st'.shares = st.shares ∧ st'.validatorStore = st.validatorStore ∧
          (r = .ok () → st'.db = { st.db with
            shares := rest.foldl (fun m s ↦ m.insert s.validatorPubKey (fromSSVShare s))
              st.db.shares } ∧ ∀ s ∈ rest, s.validatorPubKey.length = 48)) st := by
    intro rest
    induction rest with
    | nil => exact fun st ↦ ⟨rfl, rfl, fun _ ↦ ⟨rfl, forall_mem_nil _⟩⟩
    | cons s rest ih =>
      intro st
      rw [forM_cons, wp_bind, wp_bind, mapError_lift, wp_lift]
      cases hencode : (fromSSVShare s).encode with
      | error => exact ⟨rfl, rfl, by simp⟩
      | ok =>
        obtain ⟨rfl, hsize⟩ := of_encode_eq_ok hencode
        simp only [Except.mapError, wp_update]
        refine wp_mono (ih _) ?_
        rintro st' _ r ⟨hshares, hstore, hdb⟩
        refine ⟨hshares, hstore, fun hr ↦ ?_⟩
        exact ⟨(hdb hr).1, forall_mem_cons.2 ⟨hsize, (hdb hr).2⟩⟩
  rw [saveToDB, wp_bind, wp_update]
  exact wp_mono (hloop l _) fun st' _ r h ↦ h

/-- **`Save`, after the assignments.** If the handlers accept, memory is written, and the database
unless a share is too large. -/
theorem save_spec (h : Ready owner l st) :
    (save l).wp (fun st' _ r ↦ ∃ updateShares addShares, Split st.shares l updateShares addShares ∧
      (r = .ok () → Handled st.shares updateShares addShares) ∧
      (Handled st.shares updateShares addShares → st'.shares = putAll st.shares l ∧
        st'.validatorStore = addShares.foldl (fun v s ↦ v.added s)
          (updateShares.foldl (fun v s ↦ v.updated s) st.validatorStore) ∧
        Linked st'.shares st'.validatorStore ∧ (r = .ok () → SavedTo l st.db st'.db))) st := by
  rw [save, wp_ite]
  split
  · next hnil =>
    subst hnil
    refine ⟨[], [], .nil, fun _ ↦ ⟨nofun, nofun⟩, fun _ ↦ ?_⟩
    exact ⟨rfl, rfl, h.linked, fun _ ↦ ⟨rfl, nofun⟩⟩
  · refine wp_seq (splitShares_spec l st) ?_ ?_
    · rintro _ _ _ ⟨_, _, hr, -⟩
      cases hr
    · rintro _ _ _ ⟨updateShares, addShares, hr, hsplit, rfl⟩
      cases hr
      have hupdate := h.linked.handleSharesUpdated h.one fun s hs ↦ hsplit.mem_iff.2 (.inl hs)
      refine wp_seq (onStore_mapError_spec _ hupdate) (fun _ _ _ ⟨hiff, _⟩ ↦ ?_)
        fun _ _ _ ⟨hiff, hstate⟩ ↦ ?_
      · exact ⟨_, _, hsplit, nofun, fun hhandled ↦ nomatch hiff.2 hhandled.1⟩
      obtain ⟨_, ⟨rfl, hlinked⟩, rfl⟩ := hstate rfl
      have hknown := hiff.1 rfl
      -- the shares to add are still new
      have hone : OneCommittee (putAll st.shares updateShares) l := h.one.mono fun t ht ↦
        (listed_of_putAll ht).imp_right fun ht ↦ hsplit.mem_iff.2 (.inl ht)
      have hnew : ∀ s ∈ addShares, putAll st.shares updateShares s.validatorPubKey = none := by
        intro s hs
        rw [putAll_of_notMem fun hmem ↦ ?_]
        · exact hsplit.new s hs
        · obtain ⟨t, ht, hkey⟩ := mem_map.1 hmem
          exact hknown t ht (hkey ▸ hsplit.new s hs)
      have hadd := hlinked.handleSharesAdded hone (fun s hs ↦ hsplit.mem_iff.2 (.inr hs)) hnew
        hsplit.nodup
      refine wp_seq (onStore_mapError_spec _ hadd) (fun _ _ _ ⟨hiff, _⟩ ↦ ?_)
        fun _ _ _ ⟨hiff, hstate⟩ ↦ ?_
      · exact ⟨_, _, hsplit, nofun, fun hhandled ↦ nomatch hiff.2 hhandled.2⟩
      obtain ⟨_, ⟨rfl, hlinked⟩, rfl⟩ := hstate rfl
      rw [hsplit.putAll hknown] at hlinked
      refine wp_mono (saveToDB_spec l _) fun st' _ r ⟨hshares, hstore, hdb⟩ ↦ ?_
      refine ⟨_, _, hsplit, fun _ ↦ ⟨hknown, hiff.1 rfl⟩, fun _ ↦ ⟨hshares, hstore, ?_, hdb⟩⟩
      rw [hshares, hstore]
      exact hlinked

/-- The objects are assigned to, and then the shares are put. -/
def Saved (st : SharesStorage) (l : List SSVShare) (st' : SharesStorage) (r : Except Err Unit) :
    Prop :=
  ∃ updateShares addShares, Split (st.assignAll l).shares l updateShares addShares ∧
    (r = .ok () → Handled (st.assignAll l).shares updateShares addShares) ∧
    (Handled (st.assignAll l).shares updateShares addShares →
      st'.shares = putAll (st.assignAll l).shares l ∧
      st'.validatorStore = addShares.foldl (fun v s ↦ v.added s)
        (updateShares.foldl (fun v s ↦ v.updated s) (st.assignAll l).validatorStore) ∧
      Linked st'.shares st'.validatorStore ∧ (r = .ok () → SavedTo l st.db st'.db))

theorem act_save_spec (h : Ready owner l st) :
    (StorageOp.save l).act.wp (fun st' _ r ↦ Saved st l st' r) st := by
  rw [StorageOp.act, wp_bind, wp_update]
  refine wp_mono (save_spec (h.assignAll fun _ ↦ id)) fun st' _ r hsaved ↦ ?_
  rw [show (l.foldl (fun st share ↦ st.assign share) st).db = st.db from db_assignAll l st]
    at hsaved
  exact hsaved

end SharesStorage

/-! ### `UpdateValidatorsMetadata` -/

variable (st : SharesStorage)

/-- The share of an entry, if its metadata changes. -/
def SharesStorage.changedShare (entry : PubKey × Option ValidatorMetadata) : Option SSVShare :=
  match entry.2, st.shares entry.1 with
  | some metadata, some share =>
    if metadata = share.beaconMetadata then none else some (share.setBeaconMetadata metadata)
  | _, _ => none

def SharesStorage.changedShares (data : List (PubKey × Option ValidatorMetadata))
    (st : SharesStorage) : List SSVShare :=
  data.filterMap st.changedShare

namespace Ready

variable {owner : ℕ → PubKey} {l rest : List SSVShare} {st : SharesStorage} {s : SSVShare}

theorem of_same (hlinked : Linked st.shares st.validatorStore) (howned : Owned owner st.shares)
    (h : ∀ s ∈ l, ∃ t, Listed st.shares t ∧ s.validatorPubKey = t.validatorPubKey ∧
      s.operatorIDs = t.operatorIDs ∧ s.object = t.object) : Ready owner l st := by
  refine ⟨hlinked, howned, fun s hs ↦ ?_, fun s hs t ht heq ↦ ?_⟩
  · obtain ⟨t, ht, hkey, -, hobject⟩ := h s hs
    rw [hkey, hobject]
    exact howned t ht
  · obtain ⟨s₀, hs₀, hskey, hsops, -⟩ := h s hs
    obtain ⟨t₀, ht₀, htkey, htops⟩ : ∃ t₀, Listed st.shares t₀ ∧
        t.validatorPubKey = t₀.validatorPubKey ∧ t.operatorIDs = t₀.operatorIDs := by
      rcases ht with ht | ht
      · exact ⟨t, ht, rfl, rfl⟩
      · obtain ⟨t₀, ht₀, hkey, hops, -⟩ := h t ht
        exact ⟨t₀, ht₀, hkey, hops⟩
    rw [SSVShare.committeeID, SSVShare.committeeID, hsops, htops, hskey, htkey] at heq
    rw [hsops, htops]
    rcases heq with heq | heq
    · exact hlinked.oneCommittee t₀ s₀ ht₀ hs₀ heq
    · rw [Listed, heq] at ht₀
      rw [Option.some.inj (ht₀.symm.trans hs₀)]

theorem listed_assignAll (h : Ready owner l st) (hrest : ∀ s ∈ rest, s ∈ l)
    (hnodup : (rest.map (·.validatorPubKey)).Nodup)
    (hobject : ∀ s ∈ rest, ∃ t, Listed st.shares t ∧ t.object = s.object) :
    ∀ s ∈ rest, Listed (st.assignAll rest).shares s := by
  induction rest generalizing st with
  | nil => exact nofun
  | cons s rest ih =>
    obtain ⟨hs, hrest⟩ := forall_mem_cons.1 hrest
    obtain ⟨⟨t, ht, hst⟩, hobject⟩ := forall_mem_cons.1 hobject
    obtain ⟨hnot, hnodup⟩ := nodup_cons.1 hnodup
    have hne : ∀ u ∈ rest, u.validatorPubKey ≠ s.validatorPubKey := fun u hu hkey ↦
      hnot (mem_map.2 ⟨u, hu, hkey⟩)
    refine forall_mem_cons.2 ⟨?_, ih (h.assign hs) hrest hnodup fun u hu ↦ ?_⟩
    · refine ((h.assign hs).shares_assignAll_of_notMem hrest hnot).trans ?_
      exact (h.listed_assign hs).2 ⟨t, ht, if_pos hst⟩
    · obtain ⟨t', ht', htu⟩ := hobject u hu
      refine ⟨t', (h.listed_assign hs).2 ⟨t', ht', if_neg fun heq ↦ hne u hu ?_⟩, htu⟩
      rw [h.owner u (hrest u hu), h.owner s hs, ← htu, heq]

end Ready

namespace SharesStorage

variable {owner : ℕ → PubKey} {st : SharesStorage}
  {data : List (PubKey × Option ValidatorMetadata)} {pubKey : PubKey}

omit [RegistrySpec] in
theorem changedShare_eq_some {entry : PubKey × Option ValidatorMetadata} {s : SSVShare} :
    st.changedShare entry = some s ↔ ∃ t metadata, entry.2 = some metadata ∧
      st.shares entry.1 = some t ∧ metadata ≠ t.beaconMetadata ∧
      s = t.setBeaconMetadata metadata := by
  unfold changedShare
  constructor
  · intro h
    split at h
    · next metadata t hentry hshare =>
      split at h
      · cases h
      · next hne => exact ⟨t, metadata, hentry, hshare, hne, (Option.some.inj h).symm⟩
    · cases h
  · rintro ⟨t, metadata, hentry, hshare, hne, rfl⟩
    rw [hentry, hshare]
    exact if_neg hne

omit [RegistrySpec] in
theorem exists_of_mem_changedShares {s : SSVShare}
    (hkeyed : ∀ pubKey s, st.shares pubKey = some s → s.validatorPubKey = pubKey)
    (h : s ∈ st.changedShares data) :
    ∃ t metadata, Listed st.shares t ∧ (t.validatorPubKey, some metadata) ∈ data ∧
      s = t.setBeaconMetadata metadata := by
  obtain ⟨⟨pubKey, m⟩, hmem, hs⟩ := mem_filterMap.1 h
  obtain ⟨t, metadata, rfl, hshare, -, rfl⟩ := changedShare_eq_some.1 hs
  have hkey := hkeyed _ t hshare
  dsimp only at hkey hshare
  subst hkey
  exact ⟨t, metadata, hshare, hmem, rfl⟩

theorem ready_changedShares (hlinked : Linked st.shares st.validatorStore)
    (howned : Owned owner st.shares) : Ready owner (st.changedShares data) st := by
  refine .of_same hlinked howned fun s hs ↦ ?_
  obtain ⟨t, metadata, ht, -, rfl⟩ := exists_of_mem_changedShares hlinked.keyed hs
  exact ⟨t, ht, rfl, rfl, rfl⟩

omit [RegistrySpec] in
theorem changedShares_sublist
    (hkeyed : ∀ pubKey s, st.shares pubKey = some s → s.validatorPubKey = pubKey) :
    ((st.changedShares data).map (·.validatorPubKey)).Sublist (data.map Prod.fst) := by
  induction data with
  | nil => exact .slnil
  | cons entry data ih =>
    rw [changedShares, filterMap_cons, map_cons]
    cases hentry : st.changedShare entry with
    | none => exact ih.cons _
    | some =>
      obtain ⟨t, metadata, -, hshare, -, rfl⟩ := changedShare_eq_some.1 hentry
      rw [← hkeyed _ t hshare]
      exact ih.cons_cons _

theorem changedShare_assign {share : SSVShare} {entry : PubKey × Option ValidatorMetadata}
    (h : Ready owner [share] st) (hne : entry.1 ≠ share.validatorPubKey) :
    (st.assign share).changedShare entry = st.changedShare entry := by
  unfold changedShare
  rw [h.shares_assign_of_ne mem_cons_self hne]

theorem setMetadata_spec (hlinked : Linked st.shares st.validatorStore)
    (howned : Owned owner st.shares) (hnodup : (data.map Prod.fst).Nodup) :
    (setMetadata data).wp (fun st' _ r ↦ r = .ok (st.changedShares data) ∧
      st' = st.assignAll (st.changedShares data)) st := by
  induction data generalizing st with
  | nil =>
    rw [setMetadata, wp_pure]
    exact ⟨rfl, rfl⟩
  | cons entry data ih =>
    obtain ⟨pubKey, m⟩ := entry
    obtain ⟨hnot, hrest⟩ := nodup_cons.1 hnodup
    rw [changedShares, filterMap_cons, setMetadata, wp_bind, wp_read]
    dsimp only
    cases hentry : st.changedShare (pubKey, m) with
    | none =>
      split
      · next metadata t hshare =>
        have hsame : metadata = t.beaconMetadata := by
          by_contra hne
          have hsome : st.changedShare (pubKey, some metadata) =
              some (t.setBeaconMetadata metadata) :=
            changedShare_eq_some.2 ⟨t, metadata, rfl, hshare, hne, rfl⟩
          exact nomatch hentry.symm.trans hsome
        rw [if_pos hsame]
        exact ih hlinked howned hrest
      · exact ih hlinked howned hrest
    | some s =>
      obtain ⟨t, metadata, hm, hshare, hne, rfl⟩ := changedShare_eq_some.1 hentry
      dsimp only at hm hshare
      subst hm
      rw [hshare]
      dsimp only
      rw [if_neg hne]
      have hkey := hlinked.keyed _ t hshare
      have hready : Ready owner [t.setBeaconMetadata metadata] st := by
        refine .of_same hlinked howned fun s hs ↦ ?_
        obtain rfl := mem_singleton.1 hs
        exact ⟨t, show st.shares _ = _ from hkey.symm ▸ hshare, rfl, rfl, rfl⟩
      have hassign := hready.assign (.head _)
      have hsame : (st.assign (t.setBeaconMetadata metadata)).changedShares data =
          st.changedShares data := by
        refine filterMap_congr fun entry hmem ↦ changedShare_assign hready fun heq ↦ hnot ?_
        exact mem_map.2 ⟨entry, hmem, heq.trans hkey⟩
      simp only [wp_bind, wp_update, wp_pure]
      refine wp_mono (ih hassign.linked hassign.owned hrest) ?_
      rintro _ _ _ ⟨rfl, rfl⟩
      rw [hsame]
      exact ⟨rfl, rfl⟩

/-- **A metadata update is a `Save`** of the shares that it changes. -/
theorem updateValidatorsMetadata_spec (hlinked : Linked st.shares st.validatorStore)
    (howned : Owned owner st.shares) (hnodup : (data.map Prod.fst).Nodup) :
    (updateValidatorsMetadata data).wp (fun st' _ r ↦ Saved st (st.changedShares data) st' r)
      st := by
  have hready : Ready owner (st.changedShares data) st := ready_changedShares hlinked howned
  have hassigned := hready.assignAll fun _ ↦ id
  have hlisted := hready.listed_assignAll (fun _ ↦ id)
    ((changedShares_sublist hlinked.keyed).nodup hnodup) fun s hs ↦ by
      obtain ⟨t, metadata, ht, -, rfl⟩ := exists_of_mem_changedShares hlinked.keyed hs
      exact ⟨t, ht, rfl⟩
  have hknown : ∀ s ∈ st.changedShares data,
      (st.assignAll (st.changedShares data)).shares s.validatorPubKey ≠ none := by
    intro s hs
    rw [show _ = some s from hlisted s hs]
    exact nofun
  have hput := putAll_of_listed hlisted
  have hsplit : Split (st.assignAll (st.changedShares data)).shares (st.changedShares data)
      (st.changedShares data) [] :=
    ⟨.of_eq (append_nil _).symm, fun s hs ↦ .inl (hknown s hs), nofun, .nil,
      fun _ ↦ rfl⟩
  have hhandled : Handled (st.assignAll (st.changedShares data)).shares
      (st.changedShares data) [] :=
    ⟨hknown, nofun⟩
  refine wp_seq (setMetadata_spec hlinked howned hnodup) ?_ ?_
  · rintro _ _ _ ⟨hr, -⟩
    cases hr
  rintro _ _ _ ⟨hr, rfl⟩
  cases hr
  rw [wp_ite]
  split
  · next hnil =>
    refine ⟨_, [], hsplit, fun _ ↦ hhandled, fun _ ↦ ⟨hput.symm, ?_, hassigned.linked, fun _ ↦ ?_⟩⟩
    · rw [hnil]
      rfl
    · rw [hnil]
      exact ⟨rfl, nofun⟩
  · have hupdate := hassigned.linked.handleSharesUpdated hassigned.one fun _ ↦ id
    refine wp_seq (onStore_spec hupdate) (fun _ _ _ ⟨hiff, _⟩ ↦ ?_) fun _ _ _ ⟨_, hstate⟩ ↦ ?_
    · exact nomatch hiff.2 hknown
    obtain ⟨_, ⟨rfl, hlinked'⟩, rfl⟩ := hstate rfl
    refine wp_mono (saveToDB_spec _ _) fun st' _ r ⟨hshares, hstore, hdb⟩ ↦ ?_
    refine ⟨_, [], hsplit, fun _ ↦ hhandled, fun _ ↦ ⟨hshares.trans hput.symm, hstore, ?_, ?_⟩⟩
    · rw [hshares, hstore, ← hput]
      exact hlinked'
    · rw [← db_assignAll (st.changedShares data) st]
      exact hdb

end SharesStorage

/-! ### Steps -/

/-- What a write of shares leaves in memory, if the handlers accept them. -/
def Wrote (l : List SSVShare) (st' : SharesStorage) : Prop :=
  ∃ updateShares addShares, Split (st.assignAll l).shares l updateShares addShares ∧
    Handled (st.assignAll l).shares updateShares addShares ∧
    st'.shares = putAll (st.assignAll l).shares l ∧
    st'.validatorStore = addShares.foldl (fun v s ↦ v.added s)
      (updateShares.foldl (fun v s ↦ v.updated s) (st.assignAll l).validatorStore) ∧
    Linked st'.shares st'.validatorStore

theorem SharesStorage.Saved.of_ok {st st' : SharesStorage} {l : List SSVShare}
    (h : st.Saved l st' (.ok ())) : Wrote st l st' ∧ SavedTo l st.db st'.db := by
  obtain ⟨updateShares, addShares, hsplit, hok, hstate⟩ := h
  obtain ⟨hshares, hstore, hlinked, hdb⟩ := hstate (hok rfl)
  exact ⟨⟨_, _, hsplit, hok rfl, hshares, hstore, hlinked⟩, hdb rfl⟩

def StorageOp.written : StorageOp → List SSVShare
  | save shares => shares
  | updateValidatorsMetadata data => st.changedShares data
  | delete _ => []
  | drop => []

def SharesStorage.deleted (pubKey : PubKey) (st : SharesStorage) : SharesStorage :=
  match st.shares pubKey with
  | none => st
  | some share => {
      shares := Function.update st.shares pubKey none
      validatorStore := st.validatorStore.removed share
      db := { st.db with shares := st.db.shares.erase pubKey } }

def SharesStorage.dropped : SharesStorage where
  shares := fun _ ↦ none
  validatorStore := st.validatorStore.handleDrop
  db := { st.db with shares := ∅ }

/-- The indices are those of the shares in memory. -/
structure Indexed (owner : ℕ → PubKey) (st : SharesStorage) : Prop where
  linked : Linked st.shares st.validatorStore
  owned : Owned owner st.shares
  built : ∀ id, st.validatorStore.Built id

/-- What an operation leaves, whether it succeeds or not. -/
def StorageOp.Effect (op : StorageOp) (st' : SharesStorage) (r : Except Err Unit) : Prop :=
  match op with
  | save _ | updateValidatorsMetadata _ => st.Saved (op.written st) st' r
  | delete pubKey => r = .ok () ∧ st' = st.deleted pubKey
  | drop => r = .ok () ∧ st' = st.dropped

namespace Indexed

variable {owner : ℕ → PubKey} {st st' : SharesStorage} {op : StorageOp} {l : List SSVShare}

section

variable (h : Indexed owner st)
include h

theorem ready (hpossible : op.Possible owner)
    (hone : OneCommittee st.shares (op.written st)) : Ready owner (op.written st) st := by
  cases op with
  | save => exact ⟨h.linked, h.owned, hpossible.1, hone⟩
  | updateValidatorsMetadata => exact SharesStorage.ready_changedShares h.linked h.owned
  | delete | drop => exact ⟨h.linked, h.owned, nofun, nofun⟩

theorem delete_spec (pubKey : PubKey) :
    (SharesStorage.delete pubKey).wp (fun st' _ r ↦ r = .ok () ∧ st' = st.deleted pubKey) st := by
  rw [SharesStorage.delete, wp_bind, wp_read, SharesStorage.deleted]
  dsimp only
  cases hshare : st.shares pubKey with
  | none => exact ⟨rfl, rfl⟩
  | some share =>
    have hkey := h.linked.keyed _ share hshare
    subst hkey
    dsimp only
    rw [wp_bind, wp_update]
    dsimp only
    rw [wp_bind, SharesStorage.wp_onStore]
    refine wp_mono (h.linked.handleShareRemoved (h.built _) hshare) ?_
    rintro _ _ _ ⟨rfl, rfl⟩
    exact ⟨rfl, rfl⟩

/-- **What an operation leaves.** -/
theorem act_spec (hpossible : op.Possible owner) (hone : OneCommittee st.shares (op.written st)) :
    op.act.wp (fun st' _ r ↦ op.Effect st st' r) st := by
  cases op with
  | save => exact SharesStorage.act_save_spec (h.ready hpossible hone)
  | updateValidatorsMetadata =>
    exact SharesStorage.updateValidatorsMetadata_spec h.linked h.owned hpossible
  | delete pubKey => exact h.delete_spec pubKey
  | drop => exact ⟨rfl, rfl⟩

/-- The assignments spoil the indices of committees, which the handlers build anew. -/
theorem wrote (hready : Ready owner l st) (hwrote : Wrote st l st') : Indexed owner st' := by
  obtain ⟨updateShares, addShares, hsplit, -, hshares, hstore, hlinked⟩ := hwrote
  have hassigned := hready.assignAll fun _ ↦ id
  refine ⟨hlinked, fun t ht ↦ ?_, fun id ↦ ?_⟩
  · rw [hshares] at ht
    exact (listed_of_putAll ht).elim (hassigned.owned t) (hready.owner t)
  · rw [hstore]
    by_cases hid : ∃ s ∈ l, id = s.committeeID
    · obtain ⟨s, hs, hid⟩ := hid
      rcases hsplit.mem_iff.1 hs with hs | hs
      · exact .foldl .added (.inr (.foldl .updated (.inl ⟨s, hs, hid⟩)))
      · exact .foldl .added (.inl ⟨s, hs, hid⟩)
    · refine .foldl .added (.inr (.foldl .updated (.inr ?_)))
      exact hready.built_assignAll (fun _ hs ↦ hs) (fun s hs heq ↦ hid ⟨s, hs, heq⟩) (h.built id)

theorem deleted (pubKey : PubKey) : Indexed owner (st.deleted pubKey) := by
  unfold SharesStorage.deleted
  cases hshare : st.shares pubKey with
  | none => exact h
  | some share =>
    have hkey := h.linked.keyed _ share hshare
    subst hkey
    exact ⟨h.linked.removed hshare, fun t ht ↦ h.owned t (listed_remove.1 ht).1,
      fun id ↦ (h.built id).removed⟩

end

theorem of_none {v : ValidatorStore} {db : Database} (hcommittees : v.byCommitteeID = fun _ ↦ none)
    (hoperators : v.byOperatorID = fun _ ↦ none) :
    Indexed owner { shares := fun _ ↦ none, validatorStore := v, db := db } := by
  have hlisted (s : SSVShare) : ¬ Listed (fun _ ↦ none) s := by rintro ⟨⟩
  refine ⟨⟨by simp, fun s hs ↦ absurd hs (hlisted s), fun s _ hs ↦ absurd hs (hlisted s),
    fun id ↦ ?_, fun id c hc ↦ ?_, fun op ↦ ?_, fun op data hdata ↦ ?_, fun op ↦ ?_⟩,
    fun s hs ↦ absurd hs (hlisted s), fun id c hc ↦ ?_⟩
  · rw [sharesOf, hcommittees]
    exact .nil fun s hs ↦ hlisted s hs.1
  · cases (congrFun hcommittees id).symm.trans hc
  · rw [operatorValidators, hoperators]
    exact .nil fun s hs ↦ hlisted s hs.1
  · cases (congrFun hoperators op).symm.trans hdata
  · rw [operatorCommittees, hoperators]
    refine .nil ?_
    rintro c ⟨s, hs, -⟩
    exact hlisted s hs
  · cases (congrFun hcommittees id).symm.trans hc

theorem empty : Indexed owner .empty := of_none rfl rfl

theorem dropped : Indexed owner st.dropped := of_none rfl rfl

theorem step (h : Indexed owner st) (hpossible : op.Possible owner)
    (hone : OneCommittee st.shares (op.written st)) (hsucceeds : op.Succeeds st) :
    Indexed owner (op.act.run st).state := by
  have heffect := wp_iff.1 (h.act_spec hpossible hone)
  rw [show (op.act.run st).result = .ok () from hsucceeds] at heffect
  cases op with
  | save | updateValidatorsMetadata => exact h.wrote (h.ready hpossible hone) heffect.of_ok.1
  | delete pubKey =>
    rw [heffect.2]
    exact h.deleted pubKey
  | drop => exact dropped

end Indexed

end Ssv.Registry
