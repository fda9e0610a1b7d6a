import SsvNode.Lib.Roster
import SsvNode.Registry.SharesStorage

/-!
# What the handlers leave

`handleSharesAdded`, `handleSharesUpdated` and `handleShareRemoved` go through the maps entry by
entry and check on the way. What a call that succeeds leaves is one assignment to each map: `added`,
`updated` and `removed` say which. Everything that is proved of the handlers is proved of these.
-/

namespace Ssv.Registry.ValidatorStore

open Act List Function Option

/-! ### Lookups -/

variable (v : ValidatorStore)

def sharesOf (id : Bytes) : List SSVShare :=
  ((v.byCommitteeID id).map (·.shares)).getD []

def operatorValidators (operator : OperatorID) : List SSVShare :=
  ((v.byOperatorID operator).map (·.shares)).getD []

def operatorCommittees (operator : OperatorID) : List Committee :=
  ((v.byOperatorID operator).map (·.committees)).getD []

@[simp] theorem byCommitteeID_indexShare (share : SSVShare) (v : ValidatorStore) :
    (v.indexShare share).byCommitteeID = v.byCommitteeID := by
  unfold indexShare
  split <;> rfl

@[simp] theorem byOperatorID_indexShare (share : SSVShare) (v : ValidatorStore) :
    (v.indexShare share).byOperatorID = v.byOperatorID := by
  unfold indexShare
  split <;> rfl

@[simp] theorem byCommitteeID_unindexShare (share : SSVShare) (v : ValidatorStore) :
    (v.unindexShare share).byCommitteeID = v.byCommitteeID := by
  unfold unindexShare
  split <;> rfl

@[simp] theorem byOperatorID_unindexShare (share : SSVShare) (v : ValidatorStore) :
    (v.unindexShare share).byOperatorID = v.byOperatorID := by
  unfold unindexShare
  split <;> rfl

@[simp] theorem operatorValidators_setCommittee (id : Bytes) (committee : Option Committee)
    (v : ValidatorStore) (op : OperatorID) :
    (v.setCommittee id committee).operatorValidators op = v.operatorValidators op := rfl

@[simp] theorem operatorValidators_indexShare (share : SSVShare) (v : ValidatorStore)
    (op : OperatorID) : (v.indexShare share).operatorValidators op = v.operatorValidators op := by
  rw [operatorValidators, byOperatorID_indexShare, operatorValidators]

@[simp] theorem operatorValidators_unindexShare (share : SSVShare) (v : ValidatorStore)
    (op : OperatorID) : (v.unindexShare share).operatorValidators op = v.operatorValidators op := by
  rw [operatorValidators, byOperatorID_unindexShare, operatorValidators]

/-! ### Entries of operators -/

def entryAdded (share : SSVShare) (committee : Committee) (data : Option SharesAndCommittees) :
    Option SharesAndCommittees :=
  some {
    shares := (data.getD {}).shares ++ [share]
    committees :=
      if (data.getD {}).committees.any fun c ↦ decide (c.id = committee.id) then
        replaceCommittee committee.id committee (data.getD {}).committees
      else (data.getD {}).committees ++ [committee] }

def setOperators (operators : List OperatorID)
    (entry : Option SharesAndCommittees → Option SharesAndCommittees) (v : ValidatorStore) :
    ValidatorStore :=
  { v with byOperatorID := fun operator ↦
      if operator ∈ operators then entry (v.byOperatorID operator) else v.byOperatorID operator }

theorem setOperators_cons {operator : OperatorID} {rest : List OperatorID} (h : operator ∉ rest)
    (entry : Option SharesAndCommittees → Option SharesAndCommittees) (v : ValidatorStore) :
    (v.setOperator operator (entry (v.byOperatorID operator))).setOperators rest entry =
      v.setOperators (operator :: rest) entry := by
  unfold setOperators setOperator
  congr 1
  funext op
  by_cases hop : op = operator
  · subst hop
    simp [h]
  · simp [hop]

theorem operatorValidators_setOperator_of_ne {op operator : OperatorID} (h : op ≠ operator)
    (data : Option SharesAndCommittees) (v : ValidatorStore) :
    (v.setOperator operator data).operatorValidators op = v.operatorValidators op := by
  show ((update v.byOperatorID operator data op).map (·.shares)).getD [] = _
  rw [update_of_ne h]
  rfl

variable {committee : Committee} {share : SSVShare}

theorem addToOperators_spec {seen rest : List OperatorID} :
    (addToOperators share committee seen rest).wp (fun v' _ r ↦
      (r = .ok () ↔ rest.Nodup ∧ (∀ operator ∈ rest, operator ∉ seen) ∧
        ∀ operator ∈ rest, ¬ containsShare (v.operatorValidators operator) share) ∧
      (r = .ok () → v' = v.setOperators rest (entryAdded share committee))) v := by
  induction rest generalizing seen v with
  | nil =>
    rw [addToOperators, wp_pure]
    exact ⟨iff_of_true rfl ⟨.nil, forall_mem_nil _, forall_mem_nil _⟩, fun _ ↦ rfl⟩
  | cons operator rest ih =>
    have hdata : ((v.byOperatorID operator).getD {}).shares = v.operatorValidators operator := by
      unfold operatorValidators
      cases v.byOperatorID operator <;> rfl
    rw [addToOperators, wp_ite]
    split
    · next hseen =>
      exact wp_fail.2 ⟨iff_of_false (by simp) fun h ↦ h.2.1 operator (.head _) hseen, by simp⟩
    · next hseen =>
      simp only [wp_bind, wp_read, wp_ite, wp_fail, wp_update]
      split
      · next hcontains =>
        rw [hdata] at hcontains
        exact ⟨iff_of_false (by simp) fun h ↦ h.2.2 operator (.head _) hcontains, by simp⟩
      · next hcontains =>
        rw [hdata] at hcontains
        refine wp_mono (ih _) ?_
        rintro v' _ r ⟨hiff, hstate⟩
        refine ⟨?_, fun hr ↦ ?_⟩
        · -- the other operators have their lists from before
          rw [hiff, nodup_cons, forall_mem_cons, forall_mem_cons]
          constructor
          · rintro ⟨hnodup, hrest, hnew⟩
            have hnot : operator ∉ rest := fun hmem ↦ hrest operator hmem (.head _)
            refine ⟨⟨hnot, hnodup⟩, ⟨hseen, fun op hop hmem ↦ ?_⟩, hcontains, fun op hop ↦ ?_⟩
            · exact hrest op hop (.tail _ hmem)
            · have hne : op ≠ operator := fun heq ↦ hnot (heq ▸ hop)
              rw [← operatorValidators_setOperator_of_ne hne]
              exact hnew op hop
          · rintro ⟨⟨hnot, hnodup⟩, ⟨-, hrest⟩, -, hnew⟩
            refine ⟨hnodup, fun op hop hmem ↦ ?_, fun op hop ↦ ?_⟩
            · rcases mem_cons.1 hmem with rfl | hmem
              · exact hnot hop
              · exact hrest op hop hmem
            · have hne : op ≠ operator := fun heq ↦ hnot (heq ▸ hop)
              rw [operatorValidators_setOperator_of_ne hne]
              exact hnew op hop
        · have hnot : operator ∉ rest := fun hmem ↦
            (hiff.1 hr).2.1 operator hmem (.head _)
          rw [hstate hr]
          exact setOperators_cons hnot _ v

/-- A loop over distinct operators that sets the entry of each. -/
theorem forM_setOperators {operators : List OperatorID} {f : OperatorID → StoreAct Unit}
    {entry : Option SharesAndCommittees → Option SharesAndCommittees}
    (hf : ∀ operator v, (f operator).wp (fun v' _ r ↦
      (r = .ok () ↔ containsShare (v.operatorValidators operator) share) ∧
      (r = .ok () → v' = v.setOperator operator (entry (v.byOperatorID operator)))) v)
    (hnodup : operators.Nodup) (v : ValidatorStore) :
    (forM operators f : StoreAct Unit).wp (fun v' _ r ↦
      (r = .ok () ↔ ∀ operator ∈ operators, containsShare (v.operatorValidators operator) share) ∧
      (r = .ok () → v' = v.setOperators operators entry)) v := by
  induction operators generalizing v with
  | nil => exact ⟨iff_of_true rfl nofun, fun _ ↦ rfl⟩
  | cons operator rest ih =>
    obtain ⟨hnot, hnodup⟩ := nodup_cons.1 hnodup
    rw [forM_cons]
    refine wp_seq (hf operator v) (fun _ _ _ ⟨hiff, _⟩ ↦ ⟨?_, nofun⟩) fun v' _ _ ⟨hiff, hstate⟩ ↦ ?_
    · exact iff_of_false nofun fun h ↦ nomatch hiff.2 (h operator (.head _))
    · obtain rfl := hstate rfl
      refine wp_mono (ih hnodup _) fun v'' _ r ⟨hiff', hstate'⟩ ↦ ⟨?_, fun hr ↦ ?_⟩
      · rw [hiff', forall_mem_cons, and_iff_right (hiff.1 rfl)]
        refine forall₂_congr fun op hop ↦ ?_
        have hne : op ≠ operator := fun heq ↦ hnot (heq ▸ hop)
        rw [operatorValidators_setOperator_of_ne hne]
      · rw [hstate' hr, setOperators_cons hnot]

variable [RegistrySpec]

def entryUpdated (share : SSVShare) (committee : Committee) (data : Option SharesAndCommittees) :
    Option SharesAndCommittees :=
  data.map fun data ↦ {
    shares := data.shares.replaceF fun s ↦ if isShareOf share s then some share else none
    committees := replaceCommittee share.committeeID committee data.committees }

def entryRemoved (share : SSVShare) (committee : Committee) (data : Option SharesAndCommittees) :
    Option SharesAndCommittees :=
  data.bind fun data ↦
    let shares := data.shares.eraseP (isShareOf share)
    if shares = [] then none else some {
      shares := shares
      committees :=
        if committee.shares = [] then
          data.committees.eraseP fun c ↦ decide (c.id = share.committeeID)
        else replaceCommittee share.committeeID committee data.committees }

theorem shares_ne_nil_of_entryRemoved
    {data : Option SharesAndCommittees} {data' : SharesAndCommittees}
    (h : entryRemoved share committee data = some data') : data'.shares ≠ [] := by
  obtain ⟨d, rfl, hd⟩ := bind_eq_some_iff.1 h
  dsimp only at hd
  split at hd
  · cases hd
  · next hne =>
    cases hd
    exact hne

theorem updateInOperator_spec (operator : OperatorID) (v : ValidatorStore) :
    (updateInOperator share committee operator).wp (fun v' _ r ↦
      (r = .ok () ↔ containsShare (v.operatorValidators operator) share) ∧
      (r = .ok () →
        v' = v.setOperator operator (entryUpdated share committee (v.byOperatorID operator))))
          v := by
  rw [updateInOperator, wp_bind, wp_read, operatorValidators]
  dsimp only
  cases v.byOperatorID operator with
  | none => exact ⟨iff_of_false nofun nofun, nofun⟩
  | some =>
    dsimp only
    rw [wp_ite]
    split
    · next hcontains => exact ⟨iff_of_true rfl hcontains, fun _ ↦ rfl⟩
    · next hcontains => exact ⟨iff_of_false nofun hcontains, nofun⟩

theorem removeFromOperator_spec (operator : OperatorID) (v : ValidatorStore) :
    (removeFromOperator share committee operator).wp (fun v' _ r ↦
      (r = .ok () ↔ containsShare (v.operatorValidators operator) share) ∧
      (r = .ok () →
        v' = v.setOperator operator (entryRemoved share committee (v.byOperatorID operator))))
          v := by
  rw [removeFromOperator, wp_bind, wp_read, operatorValidators]
  dsimp only
  cases v.byOperatorID operator with
  | none => exact ⟨iff_of_false nofun nofun, nofun⟩
  | some =>
    dsimp only
    rw [wp_ite]
    split
    · next hcontains => exact ⟨iff_of_true rfl hcontains, fun _ ↦ rfl⟩
    · next hcontains => exact ⟨iff_of_false nofun hcontains, nofun⟩

/-! ### The handlers -/

/-- The committees are under their identifiers, and their shares are of them. -/
def WellKeyed : Prop :=
  ∀ id c, v.byCommitteeID id = some c → c.id = id ∧ ∀ s ∈ c.shares, s.committeeID = id

theorem WellKeyed.sharesOf {v : ValidatorStore} (h : v.WellKeyed) {id : Bytes} {s : SSVShare}
    (hs : s ∈ v.sharesOf id) : s.committeeID = id := by
  unfold ValidatorStore.sharesOf at hs
  cases hc : v.byCommitteeID id with
  | none =>
    rw [hc] at hs
    cases hs
  | some c =>
    rw [hc] at hs
    exact (h id c hc).2 s hs

theorem id_buildCommittee {shares : List SSVShare} {id : Bytes} (hne : shares ≠ [])
    (h : ∀ s ∈ shares, s.committeeID = id) : (buildCommittee shares).id = id := by
  obtain ⟨s, rest, rfl⟩ := exists_cons_of_ne_nil hne
  exact h s (.head _)

def added (share : SSVShare) (v : ValidatorStore) : ValidatorStore :=
  let committee := buildCommittee (v.sharesOf share.committeeID ++ [share])
  ((v.indexShare share).setCommittee share.committeeID (some committee)).setOperators
    share.operatorIDs
    (entryAdded share committee)

def updated (share : SSVShare) (v : ValidatorStore) : ValidatorStore :=
  let committee := buildCommittee ((v.sharesOf share.committeeID).map fun s ↦
    if isShareOf share s then share else s)
  ((v.indexShare share).setCommittee share.committeeID (some committee)).setOperators
    share.operatorIDs
    (entryUpdated share committee)

def removed (share : SSVShare) (v : ValidatorStore) : ValidatorStore :=
  let shares := (v.sharesOf share.committeeID).filter fun s ↦ !isShareOf share s
  let committee := if shares = [] then { id := share.committeeID } else buildCommittee shares
  ((v.unindexShare share).setCommittee share.committeeID
    (if shares = [] then none else some committee)).setOperators share.operatorIDs
      (entryRemoved share committee)

/-! ### The maps and the lists after a handler -/

section

variable {share : SSVShare} {v : ValidatorStore} {op : OperatorID}

theorem byCommitteeID_added : (v.added share).byCommitteeID = update v.byCommitteeID
    share.committeeID (some (buildCommittee (v.sharesOf share.committeeID ++ [share]))) := by
  simp [added, setOperators, setCommittee]

theorem byCommitteeID_updated : (v.updated share).byCommitteeID = update v.byCommitteeID
    share.committeeID (some (buildCommittee ((v.sharesOf share.committeeID).map fun s ↦
      if isShareOf share s then share else s))) := by
  simp [updated, setOperators, setCommittee]

theorem byOperatorID_added_of_notMem (h : op ∉ share.operatorIDs) :
    (v.added share).byOperatorID op = v.byOperatorID op := by
  simp [added, setOperators, setCommittee, h]

theorem byOperatorID_updated_of_notMem (h : op ∉ share.operatorIDs) :
    (v.updated share).byOperatorID op = v.byOperatorID op := by
  simp [updated, setOperators, setCommittee, h]

theorem byOperatorID_removed_of_notMem (h : op ∉ share.operatorIDs) :
    (v.removed share).byOperatorID op = v.byOperatorID op := by
  simp [removed, setOperators, setCommittee, h]

section

variable (h : op ∈ share.operatorIDs)
include h

theorem operatorValidators_added :
    (v.added share).operatorValidators op = v.operatorValidators op ++ [share] := by
  simp only [added, setOperators, setCommittee, operatorValidators, byOperatorID_indexShare,
    if_pos h]
  cases v.byOperatorID op <;> rfl

theorem operatorCommittees_added :
    (v.added share).operatorCommittees op =
      let c := buildCommittee (v.sharesOf share.committeeID ++ [share])
      if (v.operatorCommittees op).any fun c' ↦ decide (c'.id = c.id) then
        replaceCommittee c.id c (v.operatorCommittees op)
      else v.operatorCommittees op ++ [c] := by
  have hdata : v.operatorCommittees op = ((v.byOperatorID op).getD {}).committees := by
    unfold operatorCommittees
    cases v.byOperatorID op <;> rfl
  rw [hdata]
  simp only [added, setOperators, setCommittee, operatorCommittees, byOperatorID_indexShare,
    if_pos h]
  rfl

theorem operatorValidators_updated :
    (v.updated share).operatorValidators op = (v.operatorValidators op).replaceF
      fun s ↦ if isShareOf share s then some share else none := by
  simp only [updated, setOperators, setCommittee, operatorValidators, byOperatorID_indexShare,
    if_pos h]
  cases v.byOperatorID op <;> rfl

theorem operatorCommittees_updated :
    (v.updated share).operatorCommittees op = replaceCommittee share.committeeID
      (buildCommittee ((v.sharesOf share.committeeID).map fun s ↦
        if isShareOf share s then share else s)) (v.operatorCommittees op) := by
  simp only [updated, setOperators, setCommittee, operatorCommittees, byOperatorID_indexShare,
    if_pos h]
  cases v.byOperatorID op <;> rfl

end

theorem byCommitteeID_removed : (v.removed share).byCommitteeID =
    let shares := (v.sharesOf share.committeeID).filter fun s ↦ !isShareOf share s
    update v.byCommitteeID share.committeeID
      (if shares = [] then none else some (buildCommittee shares)) := by
  simp only [removed, setOperators, setCommittee, byCommitteeID_unindexShare]
  split <;> rfl

theorem byOperatorID_removed_of_mem (h : op ∈ share.operatorIDs) :
    (v.removed share).byOperatorID op =
      let shares := (v.sharesOf share.committeeID).filter fun s ↦ !isShareOf share s
      entryRemoved share
        (if shares = [] then { id := share.committeeID } else buildCommittee shares)
        (v.byOperatorID op) := by
  simp only [removed, setOperators, setCommittee, byOperatorID_unindexShare, if_pos h]

theorem operatorValidators_removed (h : op ∈ share.operatorIDs) :
    (v.removed share).operatorValidators op = (v.operatorValidators op).eraseP
      (isShareOf share) := by
  rw [operatorValidators, byOperatorID_removed_of_mem h, operatorValidators]
  cases v.byOperatorID op with
  | none => rfl
  | some =>
    simp only [entryRemoved, bind_some]
    split
    · next hnil => exact hnil.symm
    · rfl

theorem operatorCommittees_removed (h : op ∈ share.operatorIDs) :
    (v.removed share).operatorCommittees op =
      let shares := (v.sharesOf share.committeeID).filter fun s ↦ !isShareOf share s
      if (v.removed share).operatorValidators op = [] then []
      else if shares = [] then
        (v.operatorCommittees op).eraseP fun c ↦ decide (c.id = share.committeeID)
      else replaceCommittee share.committeeID (buildCommittee shares)
        (v.operatorCommittees op) := by
  dsimp only
  rw [operatorValidators_removed h, operatorCommittees, byOperatorID_removed_of_mem h,
    operatorCommittees,
    operatorValidators]
  cases v.byOperatorID op with
  | none => rfl
  | some =>
    rw [entryRemoved, bind_some]
    dsimp only [map_some, getD_some]
    split
    · rfl
    · by_cases hnil : ((v.sharesOf share.committeeID).filter fun s ↦ !isShareOf share s) = []
      · rw [if_pos hnil, if_pos hnil]
        rfl
      · rw [if_neg hnil, if_neg hnil]
        exact if_neg hnil

end

variable {share : SSVShare} {v : ValidatorStore} {committee : Committee}

theorem handleShareAdded_spec (hv : v.WellKeyed) : (handleShareAdded share).wp (fun v' _ r ↦
      (r = .ok () ↔ ¬ containsShare (v.sharesOf share.committeeID) share ∧ share.operatorIDs.Nodup ∧
        ∀ op ∈ share.operatorIDs, ¬ containsShare (v.operatorValidators op) share) ∧
      (r = .ok () → v' = v.added share)) v := by
  have hid : (buildCommittee (v.sharesOf share.committeeID ++ [share])).id = share.committeeID := by
    refine id_buildCommittee (by simp) fun s hs ↦ ?_
    rcases mem_append.1 hs with hs | hs
    · exact hv.sharesOf hs
    · rw [mem_singleton.1 hs]
  have hrest : ∀ committee, committee = buildCommittee (v.sharesOf share.committeeID ++ [share]) →
      ¬ containsShare (v.sharesOf share.committeeID) share →
      (update (setCommittee committee.id (some committee)) >>= fun _ ↦
        addToOperators share committee [] share.operatorIDs).wp (fun v' _ r ↦
          (r = .ok () ↔ ¬ containsShare (v.sharesOf share.committeeID) share ∧
            share.operatorIDs.Nodup ∧
            ∀ op ∈ share.operatorIDs, ¬ containsShare (v.operatorValidators op) share) ∧
          (r = .ok () → v' = v.added share)) (v.indexShare share) := by
    rintro _ rfl hnew
    simp only [wp_bind, wp_update, hid]
    refine wp_mono (addToOperators_spec _) ?_
    rintro v' _ r ⟨hiff, hstate⟩
    refine ⟨?_, hstate⟩
    rw [hiff, and_iff_right hnew]
    simp only [not_mem_nil, not_false_eq_true, implies_true, true_and,
      operatorValidators_setCommittee, operatorValidators_indexShare]
  simp only [handleShareAdded, wp_bind, wp_update, wp_read, byCommitteeID_indexShare]
  cases hc : v.byCommitteeID share.committeeID with
  | none =>
    have hnil : v.sharesOf share.committeeID = [] := by
      rw [sharesOf, hc]
      rfl
    exact wp_bind.1 (hrest (buildCommittee [share]) (by rw [hnil]; rfl)
      (by rw [hnil]; exact Bool.false_ne_true))
  | some c =>
    have hshares : v.sharesOf share.committeeID = c.shares := by
      rw [sharesOf, hc]
      rfl
    dsimp only
    rw [wp_ite]
    split
    · next hcontains =>
      exact wp_fail.2 ⟨iff_of_false (by simp) fun h ↦ h.1 (hshares ▸ hcontains), by simp⟩
    · next hcontains =>
      exact wp_bind.1 (hrest (buildCommittee (c.shares ++ [share])) (by rw [hshares])
        (by rw [hshares]; exact hcontains))

theorem updateCommitteeWithShare_eq_ok {c : Committee} :
    updateCommitteeWithShare committee share = .ok c ↔ containsShare committee.shares share ∧
      c = buildCommittee (committee.shares.map fun s ↦ if isShareOf share s then share else s) := by
  unfold updateCommitteeWithShare
  split
  · next hcontains =>
    rw [Except.ok.injEq, and_iff_right hcontains]
    exact eq_comm
  · next hcontains => exact iff_of_false nofun fun h ↦ hcontains h.1

theorem handleShareUpdated_spec : (handleShareUpdated share).wp (fun v' _ r ↦
      (r = .ok () → containsShare (v.sharesOf share.committeeID) share) ∧
      (share.operatorIDs.Nodup →
        (r = .ok () ↔ containsShare (v.sharesOf share.committeeID) share ∧
          ∀ op ∈ share.operatorIDs, containsShare (v.operatorValidators op) share) ∧
        (r = .ok () → v' = v.updated share))) v := by
  simp only [handleShareUpdated, wp_bind, wp_update, wp_read, byCommitteeID_indexShare]
  cases hc : v.byCommitteeID share.committeeID with
  | none =>
    rw [sharesOf, hc]
    exact wp_fail.2 ⟨by simp,
      fun _ ↦ ⟨iff_of_false (by simp) fun h ↦ Bool.false_ne_true h.1, by simp⟩⟩
  | some committee =>
    have hshares : v.sharesOf share.committeeID = committee.shares := by
      rw [sharesOf, hc]
      rfl
    dsimp only
    rw [mapError_lift, wp_bind, wp_lift, hshares]
    cases hnew : updateCommitteeWithShare committee share with
    | error =>
      refine ⟨by simp, fun _ ↦ ⟨iff_of_false (by simp) fun h ↦ ?_, by simp⟩⟩
      cases hnew.symm.trans (updateCommitteeWithShare_eq_ok.2 ⟨h.1, rfl⟩)
    | ok =>
      obtain ⟨hcontains, rfl⟩ := updateCommitteeWithShare_eq_ok.1 hnew
      simp only [Except.mapError, wp_bind, wp_update]
      refine wp_iff.2 ⟨fun _ ↦ hcontains, fun hnodup ↦ ?_⟩
      obtain ⟨hiff, hstate⟩ := wp_iff.1 (forM_setOperators updateInOperator_spec hnodup _)
      refine ⟨?_, fun hr ↦ ?_⟩
      · rw [hiff, and_iff_right hcontains]
        simp only [operatorValidators_setCommittee, operatorValidators_indexShare]
      · rw [hstate hr, updated, hshares]

theorem of_removeShareFromCommittee_eq_ok {c : Committee}
    (h : removeShareFromCommittee committee share = .ok c) :
    c = let shares := committee.shares.filter fun s ↦ !isShareOf share s
        if shares = [] then { id := committee.id } else buildCommittee shares := by
  unfold removeShareFromCommittee at h
  dsimp only at h ⊢
  split at h
  · cases h
  · split at h
    · split at h
      · next hnil => rw [if_pos hnil, Except.ok.inj h]
      · next hne => rw [if_neg hne, Except.ok.inj h]
    · cases h

theorem removeShareFromCommittee_ok
    (hindices : committee.indices = committee.shares.map (·.validatorIndex))
    (hcontains : containsShare committee.shares share) :
    ∃ c, removeShareFromCommittee committee share = .ok c := by
  have hzip : committee.shares.zip committee.indices =
      committee.shares.map fun s ↦ (s, s.validatorIndex) := by
    rw [hindices]
    simpa using @zip_map' _ _ _ id SSVShare.validatorIndex committee.shares
  unfold removeShareFromCommittee
  dsimp only
  split
  · next hfind =>
    -- every share stands at its own index
    have hmem := mem_of_find?_eq_some hfind
    rw [hzip] at hmem
    obtain ⟨s, -, heq⟩ := mem_map.1 hmem
    rw [← heq] at hfind
    simpa using find?_some hfind
  · rw [if_pos hcontains]
    split
    · exact ⟨_, rfl⟩
    · exact ⟨_, rfl⟩

theorem handleShareRemoved_spec (hv : v.WellKeyed) (hnodup : share.operatorIDs.Nodup) :
    (handleShareRemoved share).wp (fun v' _ r ↦
      ((∀ c, v.byCommitteeID share.committeeID = some c →
          c.indices = c.shares.map (·.validatorIndex)) →
        containsShare (v.sharesOf share.committeeID) share →
        (∀ op ∈ share.operatorIDs, containsShare (v.operatorValidators op) share) → r = .ok ()) ∧
      (r = .ok () → v' = v.removed share)) v := by
  simp only [handleShareRemoved, wp_bind, wp_update, wp_read, byCommitteeID_unindexShare]
  cases hc : v.byCommitteeID share.committeeID with
  | none =>
    rw [sharesOf, hc]
    exact wp_fail.2 ⟨fun _ hcontains ↦ absurd hcontains Bool.false_ne_true, by simp⟩
  | some committee =>
    obtain ⟨hid, hshares⟩ := hv _ committee hc
    have hsharesOf : v.sharesOf share.committeeID = committee.shares := by
      rw [sharesOf, hc]
      rfl
    dsimp only
    rw [mapError_lift, wp_bind, wp_lift, hsharesOf]
    cases hnew : removeShareFromCommittee committee share with
    | error =>
      refine ⟨fun hindices hcontains _ ↦ ?_, by simp⟩
      obtain ⟨c, hok⟩ := removeShareFromCommittee_ok (hindices committee rfl) hcontains
      cases hnew.symm.trans hok
    | ok c =>
      have hc' := of_removeShareFromCommittee_eq_ok hnew
      rw [hid] at hc'
      dsimp only at hc'
      have hempty : c.shares = [] ↔ (committee.shares.filter fun s ↦ !isShareOf share s) = [] := by
        rw [hc']
        split
        · next hnil => exact iff_of_true rfl hnil
        · exact Iff.rfl
      have hcid : c.id = share.committeeID := by
        rw [hc']
        split
        · rfl
        · next hne => exact id_buildCommittee hne fun s hs ↦ hshares s (mem_filter.1 hs).1
      simp only [Except.mapError, wp_bind, wp_update]
      refine wp_mono (forM_setOperators removeFromOperator_spec hnodup _) ?_
      rintro v' _ r ⟨hiff, hstate⟩
      refine ⟨fun _ _ hoperators ↦ hiff.2 ?_, fun hr ↦ ?_⟩
      · simpa only [operatorValidators_setCommittee, operatorValidators_unindexShare]
          using hoperators
      · rw [hstate hr, removed, hsharesOf]
        simp only [hcid, hempty, ← hc']

end Ssv.Registry.ValidatorStore
