import SsvNode.Registry.StoreEffects

/-!
# The indices over committees and operators

`byCommitteeID` and `byOperatorID` are **rosters of the shares in memory**, and an operator's entry
also has the committees of its shares (`Linked`). A handler changes the entries of one committee and
its operators only (`Linked.of_change`). A committee has copies of its shares' indices, which are
right again once it is built anew (`Built`).
-/

namespace Ssv.Registry

open ValidatorStore List Function Option

variable [RegistrySpec]

/-- The share is in memory, under its public key. -/
def Listed (shares : PubKey → Option SSVShare) (s : SSVShare) : Prop :=
  shares s.validatorPubKey = some s

instance (shares : PubKey → Option SSVShare) (s : SSVShare) : Decidable (Listed shares s) :=
  inferInstanceAs (Decidable (_ = _))

/-- The indices over committees and operators list the shares in memory. -/
structure Linked (shares : PubKey → Option SSVShare) (v : ValidatorStore) : Prop where
  keyed : ∀ pubKey s, shares pubKey = some s → s.validatorPubKey = pubKey
  distinct : ∀ s, Listed shares s → s.operatorIDs.Nodup
  oneCommittee : ∀ s t, Listed shares s → Listed shares t → s.committeeID = t.committeeID →
    s.operatorIDs.Perm t.operatorIDs
  committees : ∀ id, IsRoster SSVShare.validatorPubKey (v.sharesOf id)
    fun s ↦ Listed shares s ∧ s.committeeID = id
  committee_some : ∀ id c, v.byCommitteeID id = some c → c.id = id ∧ c.shares ≠ []
  operators : ∀ op, IsRoster SSVShare.validatorPubKey (v.operatorValidators op)
    fun s ↦ Listed shares s ∧ op ∈ s.operatorIDs
  operator_some : ∀ op data, v.byOperatorID op = some data → data.shares ≠ []
  current : ∀ op, IsRoster Committee.id (v.operatorCommittees op)
    fun c ↦ ∃ s, Listed shares s ∧ op ∈ s.operatorIDs ∧ v.byCommitteeID s.committeeID = some c

/-- The committee with an identifier is what `buildCommittee` makes of its shares. -/
def ValidatorStore.Built (v : ValidatorStore) (id : Bytes) : Prop :=
  ∀ c, v.byCommitteeID id = some c → c = ValidatorStore.buildCommittee c.shares

variable {shares shares' : PubKey → Option SSVShare} {v v' : ValidatorStore} {share s t : SSVShare}

theorem Linked.wellKeyed (h : Linked shares v) : v.WellKeyed := by
  intro id c hc
  refine ⟨(h.committee_some id c hc).1, fun s hs ↦ ?_⟩
  have hmem : s ∈ v.sharesOf id := by
    rw [sharesOf, hc]
    exact hs
  exact (((h.committees id).mem s).1 hmem).2

theorem Linked.exists_committee (h : Linked shares v) (hs : Listed shares s) :
    ∃ c, v.byCommitteeID s.committeeID = some c := by
  have hmem : s ∈ v.sharesOf s.committeeID := ((h.committees _).mem s).2 ⟨hs, rfl⟩
  refine ne_none_iff_exists'.1 fun hnone ↦ ?_
  rw [sharesOf, hnone] at hmem
  cases hmem

/-! ### One committee and its operators -/

/-- **A change that concerns one committee.** Its entry and those of its operators are rosters of
the shares in memory afterwards. -/
theorem Linked.of_change {id : Bytes} {ops : List OperatorID} {committee : Option Committee}
    (h : Linked shares v)
    (hkeyed : ∀ pubKey s, shares' pubKey = some s → s.validatorPubKey = pubKey)
    (hdistinct : ∀ s, Listed shares' s → s.operatorIDs.Nodup)
    (hothers : ∀ s, s.committeeID ≠ id → (Listed shares' s ↔ Listed shares s))
    (hops : ∀ s, Listed shares s ∨ Listed shares' s → s.committeeID = id → s.operatorIDs.Perm ops)
    (hcommittees : v'.byCommitteeID = update v.byCommitteeID id committee)
    (hcommittee : ∀ c, committee = some c → c.id = id ∧ c.shares ≠ [])
    (hroster : IsRoster SSVShare.validatorPubKey ((committee.map (·.shares)).getD [])
      fun s ↦ Listed shares' s ∧ s.committeeID = id)
    (hkept : ∀ op, op ∉ ops → v'.byOperatorID op = v.byOperatorID op)
    (hoperators : ∀ op ∈ ops, IsRoster SSVShare.validatorPubKey (v'.operatorValidators op)
      fun s ↦ Listed shares' s ∧ op ∈ s.operatorIDs)
    (hoperator : ∀ op ∈ ops, ∀ data, v'.byOperatorID op = some data → data.shares ≠ [])
    (hcurrent : ∀ op ∈ ops, IsRoster Committee.id (v'.operatorCommittees op) fun c ↦
      (∃ s, Listed shares s ∧ op ∈ s.operatorIDs ∧ v.byCommitteeID s.committeeID = some c) ∧
        c.id ≠ id ∨ committee = some c) :
    Linked shares' v' := by
  have hsame : ∀ id', id' ≠ id → v'.byCommitteeID id' = v.byCommitteeID id' := by
    intro id' hne
    rw [hcommittees, update_of_ne hne]
  have hself : v'.byCommitteeID id = committee := by
    rw [hcommittees, update_self]
  refine ⟨hkeyed, hdistinct, ?_, ?_, ?_, ?_, ?_, ?_⟩
  · intro s t hs ht heq
    by_cases hid : s.committeeID = id
    · exact (hops s (.inr hs) hid).trans (hops t (.inr ht) (heq.symm.trans hid)).symm
    · exact h.oneCommittee s t ((hothers s hid).1 hs) ((hothers t (heq ▸ hid)).1 ht) heq
  · intro id'
    by_cases hid : id' = id
    · subst hid
      rw [sharesOf, hself]
      exact hroster
    · rw [sharesOf, hsame id' hid]
      refine (h.committees id').congr fun s ↦ and_congr_left fun hs ↦ ?_
      exact (hothers s (hs ▸ hid)).symm
  · intro id' c hc
    by_cases hid : id' = id
    · subst hid
      exact hcommittee c (hself.symm.trans hc)
    · exact h.committee_some id' c ((hsame id' hid).symm.trans hc)
  · intro op
    by_cases hop : op ∈ ops
    · exact hoperators op hop
    · rw [operatorValidators, hkept op hop]
      refine (h.operators op).congr fun s ↦ and_congr_left_iff.2 fun hs ↦ ?_
      by_cases hid : s.committeeID = id
      · constructor
        · exact fun hl ↦ absurd ((hops s (.inl hl) hid).mem_iff.1 hs) hop
        · exact fun hl ↦ absurd ((hops s (.inr hl) hid).mem_iff.1 hs) hop
      · exact (hothers s hid).symm
  · intro op data hdata
    by_cases hop : op ∈ ops
    · exact hoperator op hop data hdata
    · exact h.operator_some op data ((hkept op hop).symm.trans hdata)
  · intro op
    by_cases hop : op ∈ ops
    · refine (hcurrent op hop).congr fun c ↦ ?_
      constructor
      · rintro (⟨⟨s, hs, hmem, hc⟩, hne⟩ | hc)
        · have hid : s.committeeID ≠ id := (h.committee_some _ c hc).1 ▸ hne
          exact ⟨s, (hothers s hid).2 hs, hmem, (hsame _ hid).trans hc⟩
        · -- the committee has a share, and the operator is one of the share's
          obtain ⟨s, hs⟩ := exists_mem_of_ne_nil _ (hcommittee c hc).2
          rw [hc] at hroster
          obtain ⟨hlisted, hid⟩ := (hroster.mem s).1 hs
          refine ⟨s, hlisted, (hops s (.inr hlisted) hid).mem_iff.2 hop, ?_⟩
          rw [hid, hself, hc]
      · rintro ⟨s, hs, hmem, hc⟩
        by_cases hid : s.committeeID = id
        · rw [hid, hself] at hc
          exact .inr hc
        · rw [hsame _ hid] at hc
          refine .inl ⟨⟨s, (hothers s hid).1 hs, hmem, hc⟩, ?_⟩
          rw [(h.committee_some _ c hc).1]
          exact hid
    · rw [operatorCommittees, hkept op hop]
      refine (h.current op).congr fun c ↦ exists_congr fun s ↦ ?_
      by_cases hid : s.committeeID = id
      · constructor
        · rintro ⟨hs, hmem, -⟩
          exact absurd ((hops s (.inl hs) hid).mem_iff.1 hmem) hop
        · rintro ⟨hs, hmem, -⟩
          exact absurd ((hops s (.inr hs) hid).mem_iff.1 hmem) hop
      · rw [hsame _ hid, hothers s hid]

/-! ### A share is put into its committee -/

theorem committeeID_eq_of_perm (h : s.operatorIDs.Perm t.operatorIDs) :
    s.committeeID = t.committeeID :=
  computeCommitteeID_perm h

omit [RegistrySpec] in
theorem listed_put :
    Listed (update shares share.validatorPubKey (some share)) s ↔
      Listed shares s ∧ s.validatorPubKey ≠ share.validatorPubKey ∨ s = share := by
  unfold Listed
  by_cases hkey : s.validatorPubKey = share.validatorPubKey
  · rw [hkey, update_self, some.injEq]
    constructor
    · exact fun h ↦ .inr h.symm
    · rintro (⟨-, hne⟩ | rfl)
      · exact absurd rfl hne
      · rfl
  · rw [update_of_ne hkey]
    constructor
    · exact fun h ↦ .inl ⟨h, hkey⟩
    · rintro (⟨h, -⟩ | rfl)
      · exact h
      · exact absurd rfl hkey

omit [RegistrySpec] in
theorem keyed_put (hkeyed : ∀ pubKey s, shares pubKey = some s → s.validatorPubKey = pubKey) :
    ∀ pubKey s, update shares share.validatorPubKey (some share) pubKey = some s →
      s.validatorPubKey = pubKey := by
  intro pubKey s hs
  by_cases hkey : pubKey = share.validatorPubKey
  · subst hkey
    rw [update_self] at hs
    rw [← some.inj hs]
  · rw [update_of_ne hkey] at hs
    exact hkeyed pubKey s hs

/-- The share is of the committee of every stored share with its identifier or its public key. -/
def Joins (shares : PubKey → Option SSVShare) (share : SSVShare) : Prop :=
  ∀ t, Listed shares t →
    t.committeeID = share.committeeID ∨ t.validatorPubKey = share.validatorPubKey →
      t.operatorIDs.Perm share.operatorIDs

variable {l : List SSVShare}

/-- **A share is put into memory.** -/
theorem Linked.of_put (h : Linked shares v) (hnodup : share.operatorIDs.Nodup)
    (hjoins : Joins shares share)
    (hcommittees : v'.byCommitteeID = update v.byCommitteeID share.committeeID
      (some (buildCommittee l)))
    (hroster : IsRoster SSVShare.validatorPubKey l fun s ↦
      (Listed shares s ∧ s.committeeID = share.committeeID) ∧
        s.validatorPubKey ≠ share.validatorPubKey ∨ s = share)
    (hkept : ∀ op, op ∉ share.operatorIDs → v'.byOperatorID op = v.byOperatorID op)
    (hoperators : ∀ op ∈ share.operatorIDs,
      IsRoster SSVShare.validatorPubKey (v'.operatorValidators op) fun s ↦
        (Listed shares s ∧ op ∈ s.operatorIDs) ∧ s.validatorPubKey ≠ share.validatorPubKey ∨
        s = share)
    (hcurrent : ∀ op ∈ share.operatorIDs, IsRoster Committee.id (v'.operatorCommittees op) fun c ↦
      (∃ s, Listed shares s ∧ op ∈ s.operatorIDs ∧ v.byCommitteeID s.committeeID = some c) ∧
        c.id ≠ share.committeeID ∨ c = buildCommittee l) :
    Linked (update shares share.validatorPubKey (some share)) v' := by
  have hlisted : ∀ s, Listed (update shares share.validatorPubKey (some share)) s ↔
      Listed shares s ∧ s.validatorPubKey ≠ share.validatorPubKey ∨ s = share := fun s ↦ listed_put
  have hmem : share ∈ l := (hroster.mem share).2 (.inr rfl)
  refine h.of_change (keyed_put h.keyed) (fun s hs ↦ ?_) (fun s hne ↦ ?_) (fun s hs hid ↦ ?_)
    hcommittees
    (fun c hc ↦ ?_) ?_ hkept (fun op hop ↦ ?_) (fun op hop data hdata ↦ ?_) (fun op hop ↦ ?_)
  · rcases (hlisted s).1 hs with ⟨hs, -⟩ | rfl
    · exact h.distinct s hs
    · exact hnodup
  · rw [hlisted]
    constructor
    · rintro (⟨hs, -⟩ | rfl)
      · exact hs
      · exact absurd rfl hne
    · exact fun hs ↦ .inl ⟨hs, fun hkey ↦ hne (committeeID_eq_of_perm (hjoins s hs (.inr hkey)))⟩
  · rcases hs with hs | hs
    · exact hjoins s hs (.inl hid)
    · rcases (hlisted s).1 hs with ⟨hs, -⟩ | rfl
      · exact hjoins s hs (.inl hid)
      · exact .refl _
  · cases hc
    refine ⟨id_buildCommittee (ne_nil_of_mem hmem) fun s hs ↦ ?_, ne_nil_of_mem hmem⟩
    rcases (hroster.mem s).1 hs with ⟨⟨-, hid⟩, -⟩ | rfl
    · exact hid
    · rfl
  · refine hroster.congr fun s ↦ ?_
    rw [hlisted]
    constructor
    · rintro (⟨⟨hs, hid⟩, hne⟩ | rfl)
      · exact ⟨.inl ⟨hs, hne⟩, hid⟩
      · exact ⟨.inr rfl, rfl⟩
    · rintro ⟨⟨hs, hne⟩ | rfl, hid⟩
      · exact .inl ⟨⟨hs, hid⟩, hne⟩
      · exact .inr rfl
  · refine (hoperators op hop).congr fun s ↦ ?_
    rw [hlisted]
    constructor
    · rintro (⟨⟨hs, hmem⟩, hne⟩ | rfl)
      · exact ⟨.inl ⟨hs, hne⟩, hmem⟩
      · exact ⟨.inr rfl, hop⟩
    · rintro ⟨⟨hs, hne⟩ | rfl, hmem⟩
      · exact .inl ⟨⟨hs, hmem⟩, hne⟩
      · exact .inr rfl
  · have hshare := ((hoperators op hop).mem share).2 (.inr rfl)
    rw [operatorValidators, hdata] at hshare
    exact ne_nil_of_mem hshare
  · refine (hcurrent op hop).congr fun c ↦ or_congr_right ?_
    rw [some.injEq]
    exact eq_comm

/-- **`handleSharesAdded` keeps the indices linked.** -/
theorem Linked.added (h : Linked shares v) (hnodup : share.operatorIDs.Nodup)
    (hjoins : Joins shares share) (hnew : shares share.validatorPubKey = none) :
    Linked (update shares share.validatorPubKey (some share)) (v.added share) := by
  have hne : ∀ s, Listed shares s → s.validatorPubKey ≠ share.validatorPubKey := by
    intro s hs hkey
    rw [Listed, hkey, hnew] at hs
    cases hs
  have happend : ∀ {l : List SSVShare} {P : SSVShare → Prop},
      IsRoster SSVShare.validatorPubKey l (fun s ↦ Listed shares s ∧ P s) →
      IsRoster SSVShare.validatorPubKey (l ++ [share]) fun s ↦
        (Listed shares s ∧ P s) ∧ s.validatorPubKey ≠ share.validatorPubKey ∨ s = share := by
    intro l P hl
    refine (hl.append fun s hs ↦ hne s hs.1).congr fun s ↦ or_congr_left ?_
    exact ⟨fun hs ↦ ⟨hs, hne s hs.1⟩, And.left⟩
  have hid : (buildCommittee (v.sharesOf share.committeeID ++ [share])).id =
      share.committeeID := by
    refine id_buildCommittee (by simp) fun s hs ↦ ?_
    rcases mem_append.1 hs with hs | hs
    · exact h.wellKeyed.sharesOf hs
    · rw [mem_singleton.1 hs]
  refine h.of_put hnodup hjoins byCommitteeID_added (happend (h.committees _))
    (fun op hop ↦ byOperatorID_added_of_notMem hop) (fun op hop ↦ ?_) (fun op hop ↦ ?_)
  · rw [operatorValidators_added hop]
    exact happend (h.operators op)
  · rw [operatorCommittees_added hop]
    dsimp only
    rw [replaceCommittee, replaceF_eq_map (h.current op).nodup]
    refine (h.current op).put.congr fun c ↦ ?_
    rw [hid]

/-- **`handleSharesUpdated` keeps the indices linked.** -/
theorem Linked.updated (h : Linked shares v) (hnodup : share.operatorIDs.Nodup)
    (hjoins : Joins shares share) (hlisted : Listed shares t)
    (hkey : t.validatorPubKey = share.validatorPubKey) :
    Linked (update shares share.validatorPubKey (some share)) (v.updated share) := by
  have hperm := hjoins t hlisted (.inr hkey)
  have hcommittee : t.committeeID = share.committeeID := committeeID_eq_of_perm hperm
  have hreplace : ∀ {l : List SSVShare} {P : SSVShare → Prop}, P t →
      IsRoster SSVShare.validatorPubKey l (fun s ↦ Listed shares s ∧ P s) →
      IsRoster SSVShare.validatorPubKey
        (l.map fun s ↦ if s.validatorPubKey = share.validatorPubKey then share else s) fun s ↦
        (Listed shares s ∧ P s) ∧ s.validatorPubKey ≠ share.validatorPubKey ∨ s = share := by
    intro l P ht hl
    refine hl.replace.congr fun s ↦ or_congr_right (and_iff_left ?_)
    exact ⟨t, ⟨hlisted, ht⟩, hkey⟩
  have hmap : ∀ l : List SSVShare,
      (l.map fun s ↦ if isShareOf share s then share else s) =
        l.map fun s ↦ if s.validatorPubKey = share.validatorPubKey then share else s := by
    intro l
    simp only [isShareOf, decide_eq_true_eq]
  have hroster := hreplace hcommittee (h.committees share.committeeID)
  have hid : (buildCommittee ((v.sharesOf share.committeeID).map fun s ↦
      if isShareOf share s then share else s)).id = share.committeeID := by
    rw [hmap]
    refine id_buildCommittee (ne_nil_of_mem ((hroster.mem share).2 (.inr rfl)))
      fun s hs ↦ ?_
    rcases (hroster.mem s).1 hs with ⟨⟨-, hid⟩, -⟩ | rfl
    · exact hid
    · rfl
  refine h.of_put hnodup hjoins byCommitteeID_updated ?_
    (fun op hop ↦ byOperatorID_updated_of_notMem hop) (fun op hop ↦ ?_) (fun op hop ↦ ?_)
  · rw [hmap]
    exact hroster
  · rw [operatorValidators_updated hop]
    simp only [isShareOf, decide_eq_true_eq]
    rw [replaceF_eq_map (h.operators op).nodup]
    exact hreplace (hperm.mem_iff.2 hop) (h.operators op)
  · rw [operatorCommittees_updated hop, replaceCommittee,
      replaceF_eq_map (h.current op).nodup]
    -- the operator has the committee, since it has the share
    obtain ⟨c, hc⟩ := h.exists_committee hlisted
    have hreplaced := (h.current op).replace (a := buildCommittee
      ((v.sharesOf share.committeeID).map fun s ↦
        if isShareOf share s then share else s))
    rw [hid] at hreplaced
    refine hreplaced.congr fun c' ↦ or_congr_right (and_iff_left ?_)
    exact ⟨c, ⟨t, hlisted, hperm.mem_iff.2 hop, hc⟩, (h.committee_some _ c hc).1.trans hcommittee⟩

/-! ### A share is removed, or assigned -/

omit [RegistrySpec] in
theorem listed_remove {pubKey : PubKey} :
    Listed (update shares pubKey none) s ↔ Listed shares s ∧ s.validatorPubKey ≠ pubKey := by
  unfold Listed
  by_cases hkey : s.validatorPubKey = pubKey
  · subst hkey
    rw [update_self]
    exact iff_of_false nofun fun h ↦ h.2 rfl
  · rw [update_of_ne hkey]
    exact ⟨fun h ↦ ⟨h, hkey⟩, And.left⟩

/-- **`handleShareRemoved` keeps the indices linked.** -/
theorem Linked.removed (h : Linked shares v) (hlisted : Listed shares share) :
    Linked (update shares share.validatorPubKey none) (v.removed share) := by
  have hother : ∀ s, Listed shares s → s.committeeID ≠ share.committeeID →
      s.validatorPubKey ≠ share.validatorPubKey := by
    intro s hs hne hkey
    rw [Listed, hkey] at hs
    obtain rfl := some.inj (hs.symm.trans hlisted)
    exact hne rfl
  have hremove : ∀ {l : List SSVShare} {P : SSVShare → Prop},
      IsRoster SSVShare.validatorPubKey l (fun s ↦ Listed shares s ∧ P s) →
      IsRoster SSVShare.validatorPubKey (l.filter fun s ↦ !isShareOf share s) fun s ↦
        Listed (update shares share.validatorPubKey none) s ∧ P s := by
    intro l P hl
    refine (hl.remove share.validatorPubKey).congr fun s ↦ ?_
    rw [listed_remove]
    exact and_right_comm
  have hroster := hremove (h.committees share.committeeID)
  have hoperators : ∀ op ∈ share.operatorIDs,
      IsRoster SSVShare.validatorPubKey ((v.removed share).operatorValidators op) fun s ↦
        Listed (update shares share.validatorPubKey none) s ∧ op ∈ s.operatorIDs := by
    intro op hop
    have herase : (v.operatorValidators op).eraseP (isShareOf share) =
        (v.operatorValidators op).filter fun s ↦ !isShareOf share s :=
      eraseP_eq_filter (h.operators op).nodup share.validatorPubKey
    rw [operatorValidators_removed hop, herase]
    exact hremove (h.operators op)
  have hops : ∀ s, Listed shares s → s.committeeID = share.committeeID →
      s.operatorIDs.Perm share.operatorIDs := fun s hs hid ↦ h.oneCommittee s share hs hlisted hid
  have hcommittees := @byCommitteeID_removed _ share v
  have hcurrent := fun op ↦ @operatorCommittees_removed _ share v op
  dsimp only at hcommittees hcurrent
  generalize (v.sharesOf share.committeeID).filter (fun s ↦ !isShareOf share s) =
    remaining at hroster hcommittees hcurrent
  refine h.of_change ?_ (fun s hs ↦ h.distinct s (listed_remove.1 hs).1) (fun s hne ↦ ?_)
    (fun s hs hid ↦ hops s (hs.elim id fun hs ↦ (listed_remove.1 hs).1) hid) hcommittees
    (fun c hc ↦ ?_) ?_ (fun op hop ↦ byOperatorID_removed_of_notMem hop) hoperators
    (fun op hop data hdata ↦ ?_) (fun op hop ↦ ?_)
  · intro pubKey s hs
    by_cases hkey : pubKey = share.validatorPubKey
    · subst hkey
      rw [update_self] at hs
      cases hs
    · rw [update_of_ne hkey] at hs
      exact h.keyed pubKey s hs
  · rw [listed_remove]
    exact ⟨And.left, fun hs ↦ ⟨hs, hother s hs hne⟩⟩
  · split at hc
    · cases hc
    · next hnil =>
      cases hc
      exact ⟨id_buildCommittee hnil fun s hs ↦ ((hroster.mem s).1 hs).2, hnil⟩
  · split
    · next hnil => exact hnil ▸ hroster
    · exact hroster
  · rw [byOperatorID_removed_of_mem hop] at hdata
    exact shares_ne_nil_of_entryRemoved hdata
  · rw [hcurrent op hop]
    have hrest := (hoperators op hop).mem
    split
    · -- an operator that is left without shares is left without committees
      next hnil =>
      refine .nil ?_
      rintro c (⟨⟨s, hs, hmem, hc⟩, hne⟩ | hc)
      · rw [(h.committee_some _ c hc).1] at hne
        have := (hrest s).2 ⟨listed_remove.2 ⟨hs, hother s hs hne⟩, hmem⟩
        rw [hnil] at this
        cases this
      · split at hc
        · cases hc
        · next hne =>
          obtain ⟨s, hs⟩ := exists_mem_of_ne_nil _ hne
          obtain ⟨hs, hid⟩ := (hroster.mem s).1 hs
          have hmem := (hops s (listed_remove.1 hs).1 hid).mem_iff.2 hop
          have := (hrest s).2 ⟨hs, hmem⟩
          rw [hnil] at this
          cases this
    · split
      · rw [eraseP_eq_filter (h.current op).nodup]
        refine ((h.current op).remove share.committeeID).congr fun c ↦ ?_
        exact (or_iff_left nofun).symm
      · next hne =>
        have hid : (buildCommittee remaining).id = share.committeeID :=
          id_buildCommittee hne fun s hs ↦ ((hroster.mem s).1 hs).2
        obtain ⟨c, hc⟩ := h.exists_committee hlisted
        rw [replaceCommittee, replaceF_eq_map (h.current op).nodup, ← hid]
        refine (h.current op).replace.congr fun c' ↦ or_congr_right ?_
        rw [some.injEq, eq_comm, hid]
        exact and_iff_left ⟨c, ⟨share, hlisted, hop, hc⟩, (h.committee_some _ c hc).1⟩

/-- The objects with the number of a share are of its validator and its committee. -/
def Replaces (shares : PubKey → Option SSVShare) (share : SSVShare) : Prop :=
  ∀ t, Listed shares t → t.object = share.object →
    t.validatorPubKey = share.validatorPubKey ∧ t.operatorIDs.Perm share.operatorIDs

omit [RegistrySpec] in
theorem Replaces.assigned (h : Replaces shares share) (hs : Listed shares s) :
    (share.assigned s).validatorPubKey = s.validatorPubKey ∧
      (share.assigned s).operatorIDs.Perm s.operatorIDs := by
  unfold SSVShare.assigned
  split
  · next hobject =>
    obtain ⟨hkey, hperm⟩ := h s hs hobject
    exact ⟨hkey.symm, hperm.symm⟩
  · exact ⟨rfl, .refl _⟩

theorem Replaces.committeeID_assigned (h : Replaces shares share) (hs : Listed shares s) :
    (share.assigned s).committeeID = s.committeeID :=
  committeeID_eq_of_perm (h.assigned hs).2

omit [RegistrySpec] in
theorem Replaces.listed (h : Replaces shares share)
    (hkeyed : ∀ pubKey s, shares pubKey = some s → s.validatorPubKey = pubKey) :
    Listed (fun pubKey ↦ (shares pubKey).map share.assigned) s ↔
      ∃ t, Listed shares t ∧ share.assigned t = s := by
  constructor
  · intro hs
    obtain ⟨t, ht, rfl⟩ := map_eq_some_iff.1 hs
    have hlisted : Listed shares t := by
      rw [Listed, hkeyed _ t ht]
      exact ht
    exact ⟨t, hlisted, rfl⟩
  · rintro ⟨t, ht, rfl⟩
    show (shares (share.assigned t).validatorPubKey).map share.assigned = _
    rw [(h.assigned ht).1, show shares t.validatorPubKey = some t from ht]
    rfl

/-- **An assignment to an object keeps the indices linked.** -/
theorem Linked.assign (h : Linked shares v) (hreplaces : Replaces shares share) :
    Linked (fun pubKey ↦ (shares pubKey).map share.assigned) (v.assign share) := by
  have hlisted : ∀ s, Listed (fun pubKey ↦ (shares pubKey).map share.assigned) s ↔
      ∃ t, Listed shares t ∧ share.assigned t = s := fun s ↦ hreplaces.listed h.keyed
  have hlist : ∀ {l : List SSVShare} {P Q : SSVShare → Prop},
      (∀ t, Listed shares t → (Q (share.assigned t) ↔ P t)) →
      IsRoster SSVShare.validatorPubKey l (fun s ↦ Listed shares s ∧ P s) →
      IsRoster SSVShare.validatorPubKey (l.map share.assigned) fun s ↦
        Listed (fun pubKey ↦ (shares pubKey).map share.assigned) s ∧ Q s := by
    intro l P Q hPQ hl
    refine (hl.map _ fun s hs ↦ (hreplaces.assigned hs.1).1).congr fun s ↦ ?_
    rw [hlisted]
    constructor
    · rintro ⟨t, ⟨ht, hP⟩, rfl⟩
      exact ⟨⟨t, ht, rfl⟩, (hPQ t ht).2 hP⟩
    · rintro ⟨⟨t, ht, rfl⟩, hQ⟩
      exact ⟨t, ⟨ht, (hPQ t ht).1 hQ⟩, rfl⟩
  have hmap : ∀ {β : Type} (o : Option β) (g : β → List SSVShare) (k : β → β),
      (∀ b, g (k b) = (g b).map share.assigned) →
      ((o.map k).map g).getD [] = ((o.map g).getD []).map share.assigned := by
    intro β o g k hk
    cases o with
    | none => rfl
    | some b => exact hk b
  refine ⟨?_, ?_, ?_, fun id ↦ ?_, ?_, fun op ↦ ?_, ?_, fun op ↦ ?_⟩
  · intro pubKey s hs
    obtain ⟨t, ht, rfl⟩ := map_eq_some_iff.1 hs
    have hkey := h.keyed _ t ht
    subst hkey
    exact (hreplaces.assigned ht).1
  · intro s hs
    obtain ⟨t, ht, rfl⟩ := (hlisted s).1 hs
    exact (hreplaces.assigned ht).2.nodup_iff.2 (h.distinct t ht)
  · intro s t hs ht heq
    obtain ⟨s₀, hs₀, rfl⟩ := (hlisted s).1 hs
    obtain ⟨t₀, ht₀, rfl⟩ := (hlisted t).1 ht
    rw [hreplaces.committeeID_assigned hs₀, hreplaces.committeeID_assigned ht₀] at heq
    exact (hreplaces.assigned hs₀).2.trans
      ((h.oneCommittee s₀ t₀ hs₀ ht₀ heq).trans (hreplaces.assigned ht₀).2.symm)
  · rw [show (v.assign share).sharesOf id = (v.sharesOf id).map share.assigned from
      hmap _ _ _ fun _ ↦ rfl]
    exact hlist (fun t ht ↦ by rw [hreplaces.committeeID_assigned ht]) (h.committees id)
  · intro id c hc
    obtain ⟨c₀, hc₀, rfl⟩ := map_eq_some_iff.1 hc
    obtain ⟨hid, hne⟩ := h.committee_some id c₀ hc₀
    exact ⟨hid, fun hnil ↦ hne (map_eq_nil_iff.1 hnil)⟩
  · rw [show (v.assign share).operatorValidators op =
      (v.operatorValidators op).map share.assigned from
      hmap _ _ _ fun _ ↦ rfl]
    exact hlist (fun t ht ↦ (hreplaces.assigned ht).2.mem_iff) (h.operators op)
  · intro op data hdata
    obtain ⟨data₀, hdata₀, rfl⟩ := map_eq_some_iff.1 hdata
    exact fun hnil ↦ h.operator_some op data₀ hdata₀ (map_eq_nil_iff.1 hnil)
  · have hcommittees : (v.assign share).operatorCommittees op =
        (v.operatorCommittees op).map (assignCommittee share) := by
      show (((v.byOperatorID op).map _).map _).getD [] = _
      rw [operatorCommittees]
      cases v.byOperatorID op <;> rfl
    rw [hcommittees]
    refine ((h.current op).map (assignCommittee share) fun _ _ ↦ rfl).congr fun c ↦ ?_
    constructor
    · rintro ⟨c, ⟨s, hs, hmem, hc⟩, rfl⟩
      refine ⟨share.assigned s, (hlisted _).2 ⟨s, hs, rfl⟩,
        (hreplaces.assigned hs).2.mem_iff.2 hmem, ?_⟩
      rw [hreplaces.committeeID_assigned hs]
      exact congrArg (Option.map _) hc
    · rintro ⟨s, hs, hmem, hc⟩
      obtain ⟨s₀, hs₀, rfl⟩ := (hlisted s).1 hs
      rw [hreplaces.committeeID_assigned hs₀] at hc
      obtain ⟨c₀, hc₀, rfl⟩ := map_eq_some_iff.1 hc
      exact ⟨c₀, ⟨s₀, hs₀, (hreplaces.assigned hs₀).2.mem_iff.1 hmem, hc₀⟩, rfl⟩

/-! ### Committees as they are built -/

namespace ValidatorStore

variable {id id' : Bytes}

theorem Built.of_update {committee : Option Committee}
    (hcommittees : v'.byCommitteeID = update v.byCommitteeID id' committee)
    (hcommittee : ∀ c, committee = some c → c = buildCommittee c.shares)
    (h : id = id' ∨ v.Built id) : v'.Built id := by
  intro c hc
  rw [hcommittees] at hc
  by_cases hid : id = id'
  · subst hid
    rw [update_self] at hc
    exact hcommittee c hc
  · rw [update_of_ne hid] at hc
    exact h.resolve_left hid c hc

theorem Built.added (h : id = share.committeeID ∨ v.Built id) : (v.added share).Built id :=
  .of_update byCommitteeID_added (fun _ hc ↦ some.inj hc ▸ rfl) h

theorem Built.updated (h : id = share.committeeID ∨ v.Built id) : (v.updated share).Built id :=
  .of_update byCommitteeID_updated (fun _ hc ↦ some.inj hc ▸ rfl) h

theorem Built.removed (h : v.Built id) : (v.removed share).Built id := by
  refine .of_update byCommitteeID_removed (fun c hc ↦ ?_) (.inr h)
  split at hc
  · cases hc
  · exact some.inj hc ▸ rfl

theorem Built.assign (hlinked : Linked shares v) (hreplaces : Replaces shares share)
    (hne : id ≠ share.committeeID) (h : v.Built id) : (v.assign share).Built id := by
  intro c hc
  obtain ⟨c₀, hc₀, rfl⟩ := map_eq_some_iff.1 hc
  have hsame : assignCommittee share c₀ = c₀ := by
    have hshares : c₀.shares.map share.assigned = c₀.shares := by
      refine (map_congr_left fun s hs ↦ ?_).trans (map_id _)
      have hmem : s ∈ v.sharesOf id := by
        rw [sharesOf, hc₀]
        exact hs
      obtain ⟨hlisted, rfl⟩ := ((hlinked.committees id).mem s).1 hmem
      exact if_neg fun hobject ↦ hne (committeeID_eq_of_perm (hreplaces s hlisted hobject).2)
    rw [assignCommittee, hshares]
  rw [hsame]
  exact h c₀ hc₀

end ValidatorStore

/-! ### The handlers on linked indices

On linked indices a handler fails only for the reasons its caller can see: a share that is added
names an operator twice, or a share that is updated is not there. -/

namespace Linked

omit [RegistrySpec] in
theorem containsShare_iff :
    containsShare l share ↔ ∃ t ∈ l, t.validatorPubKey = share.validatorPubKey := by
  simp [containsShare, isShareOf]

omit [RegistrySpec] in
theorem containsShare_roster {P : SSVShare → Prop}
    (hl : IsRoster SSVShare.validatorPubKey l fun s ↦ Listed shares s ∧ P s) :
    containsShare l share ↔
      ∃ t, shares share.validatorPubKey = some t ∧ t.validatorPubKey = share.validatorPubKey ∧
      P t := by
  rw [containsShare_iff]
  refine exists_congr fun t ↦ ?_
  rw [hl.mem]
  constructor
  · rintro ⟨⟨hlisted, hP⟩, hkey⟩
    exact ⟨hkey ▸ hlisted, hkey, hP⟩
  · rintro ⟨ht, hkey, hP⟩
    exact ⟨⟨show shares t.validatorPubKey = some t from hkey.symm ▸ ht, hP⟩, hkey⟩

theorem handleShareAdded (h : Linked shares v) (hjoins : Joins shares share)
    (hnew : shares share.validatorPubKey = none) :
    (handleShareAdded share).wp (fun v' _ r ↦
      (r = .ok () ↔ share.operatorIDs.Nodup) ∧
      (r = .ok () → v' = v.added share ∧
        Linked (update shares share.validatorPubKey (some share)) v')) v := by
  have hnot : ∀ {l : List SSVShare} {P : SSVShare → Prop},
      IsRoster SSVShare.validatorPubKey l (fun s ↦ Listed shares s ∧ P s) →
      ¬ containsShare l share := by
    intro l P hl hcontains
    obtain ⟨t, ht, -⟩ := (containsShare_roster hl).1 hcontains
    exact nomatch hnew.symm.trans ht
  refine Act.wp_mono (handleShareAdded_spec h.wellKeyed)
    fun v' _ r ⟨hiff, hstate⟩ ↦ ⟨?_, fun hr ↦ ?_⟩
  · rw [hiff, and_iff_right (hnot (h.committees _))]
    exact and_iff_left fun op _ ↦ hnot (h.operators op)
  · rw [hstate hr]
    exact ⟨rfl, h.added (hiff.1 hr).2.1 hjoins hnew⟩

theorem handleShareUpdated (h : Linked shares v) (hjoins : Joins shares share) :
    (handleShareUpdated share).wp (fun v' _ r ↦
      (r = .ok () ↔ shares share.validatorPubKey ≠ none) ∧
      (r = .ok () → v' = v.updated share ∧
        Linked (update shares share.validatorPubKey (some share)) v')) v := by
  refine Act.wp_mono handleShareUpdated_spec fun v' _ r ⟨hcontains, hspec⟩ ↦ ?_
  cases hshare : shares share.validatorPubKey with
  | none =>
    have hfails : r ≠ .ok () := by
      intro hr
      obtain ⟨t, ht, -⟩ := (containsShare_roster (h.committees _)).1 (hcontains hr)
      exact nomatch hshare.symm.trans ht
    exact ⟨iff_of_false hfails fun hne ↦ hne rfl, fun hr ↦ absurd hr hfails⟩
  | some t =>
    have hkey := h.keyed _ t hshare
    have hlisted : Listed shares t := show shares t.validatorPubKey = some t from hkey.symm ▸ hshare
    have hperm := hjoins t hlisted (.inr hkey)
    have hnodup := hperm.nodup_iff.1 (h.distinct t hlisted)
    obtain ⟨hiff, hstate⟩ := hspec hnodup
    refine ⟨iff_of_true (hiff.2 ⟨?_, fun op hop ↦ ?_⟩) nofun, fun hr ↦ ?_⟩
    · exact (containsShare_roster (h.committees _)).2
        ⟨t, hshare, hkey, committeeID_eq_of_perm hperm⟩
    · exact (containsShare_roster (h.operators op)).2 ⟨t, hshare, hkey, hperm.mem_iff.2 hop⟩
    · rw [hstate hr]
      exact ⟨rfl, h.updated hnodup hjoins hlisted hkey⟩

theorem handleShareRemoved (h : Linked shares v) (hbuilt : v.Built share.committeeID)
    (hlisted : Listed shares share) :
    (handleShareRemoved share).wp (fun v' _ r ↦ r = .ok () ∧ v' = v.removed share) v := by
  refine Act.wp_mono (handleShareRemoved_spec h.wellKeyed (h.distinct share hlisted))
    fun v' _ r ⟨hok, hstate⟩ ↦ ?_
  have hr : r = .ok () := by
    refine hok (fun c hc ↦ ?_) ?_ fun op hop ↦ ?_
    · rw [hbuilt c hc]
      rfl
    · exact (containsShare_roster (h.committees _)).2 ⟨share, hlisted, rfl, rfl⟩
    · exact (containsShare_roster (h.operators op)).2 ⟨share, hlisted, rfl, hop⟩
  exact ⟨hr, hstate hr⟩

end Linked

end Ssv.Registry
