import SsvNode.Lib.GoMap
import Mathlib.Data.List.Count

/-!
# The index of the peers' subnets

`subnetsIndex` of `network/peers` keeps the bitmap of subnets of every peer, and for every subnet
the list of its peers. The lists are kept up to date by the difference between a peer's old bitmap
and its new one (`Mirrors`).
-/

namespace Ssv.P2p

open List Function

/-- `commons.Subnets`: sixteen bytes, one bit for each of the `SubnetsCount` subnets. -/
abbrev Subnets : Type := BitVec 128

namespace Subnets

def isSet (s : Subnets) (i : ℕ) : Bool := s.getLsbD i

def activeCount (s : Subnets) : ℕ := (range 128).countP s.isSet

def diffSubnets (s other : Subnets) : Subnets × Subnets := (other &&& ~~~s, s &&& ~~~other)

theorem activeCount_eq_zero {s : Subnets} : s.activeCount = 0 ↔ ∀ i < 128, s.isSet i = false := by
  simp [activeCount, countP_eq_zero]

end Subnets

structure SubnetsIndex (ρ : Type) where
  subnets : Fin 128 → List ρ := fun _ ↦ []
  peerSubnets : ρ → Option Subnets := fun _ ↦ none

namespace SubnetsIndex

variable {ρ : Type} {si : SubnetsIndex ρ} {id : ρ} {s : Subnets}

/-- The subnets a new bitmap adds to a peer's, and those it removes. -/
def changes (si : SubnetsIndex ρ) (id : ρ) (s : Subnets) : Subnets × Subnets :=
  match si.peerSubnets id with
  | none => (s, 0)
  | some existing => existing.diffSubnets s

theorem isSet_changes (subnet : Fin 128) :
    (si.changes id s).1.isSet subnet =
      (s.isSet subnet && !(si.peerSubnets id).any (·.isSet subnet)) ∧
    (si.changes id s).2.isSet subnet =
      ((si.peerSubnets id).any (·.isSet subnet) && !s.isSet subnet) := by
  unfold changes
  cases si.peerSubnets id <;> simp [Subnets.diffSubnets, Subnets.isSet]

variable [DecidableEq ρ]

/-- Keep the bitmap, and change the lists of the subnets one after the other. -/
def store (si : SubnetsIndex ρ) (id : ρ) (s added removed : Subnets) : SubnetsIndex ρ where
  peerSubnets := update si.peerSubnets id (some s)
  subnets := fun subnet ↦
    let peers := if added.isSet subnet then si.subnets subnet ++ [id] else si.subnets subnet
    if removed.isSet subnet then peers.erase id else peers

def updatePeerSubnets (si : SubnetsIndex ρ) (id : ρ) (s : Subnets) : SubnetsIndex ρ × Bool :=
  let changes := si.changes id s
  if (si.peerSubnets id).isNone || 0 < changes.1.activeCount || 0 < changes.2.activeCount then
    (si.store id s changes.1 changes.2, true)
  else (si, false)

/-- Only a new bitmap is stored. -/
theorem updatePeerSubnets_eq : si.updatePeerSubnets id s =
    if si.peerSubnets id = some s then (si, false)
    else (si.store id s (si.changes id s).1 (si.changes id s).2, true) := by
  rw [updatePeerSubnets]
  cases hknown : si.peerSubnets id with
  | none => simp
  | some existing =>
    have hsame : (existing.diffSubnets s).1.activeCount = 0 ∧
        (existing.diffSubnets s).2.activeCount = 0 ↔
        existing = s := by
      simp only [Subnets.activeCount_eq_zero, Subnets.diffSubnets, Subnets.isSet]
      constructor
      · intro ⟨hadded, hremoved⟩
        refine BitVec.eq_of_getLsbD_eq fun i hi ↦ ?_
        have := hadded i hi
        have := hremoved i hi
        grind
      · rintro rfl
        simp
    have : si.changes id s = existing.diffSubnets s := by
      rw [changes, hknown]
    grind

/-- Every subnet lists the peers whose bitmap has it, and each of them once. -/
def Mirrors (si : SubnetsIndex ρ) : Prop :=
  ∀ subnet p, (si.subnets subnet).count p =
    if (si.peerSubnets p).any (·.isSet subnet) then 1 else 0

theorem Mirrors.store (h : si.Mirrors) :
    (si.store id s (si.changes id s).1 (si.changes id s).2).Mirrors := by
  intro subnet p
  have hp := h subnet p
  simp only [SubnetsIndex.store, isSet_changes]
  by_cases hid : p = id
  · subst hid
    rw [update_self, Option.any_some]
    cases hold : (si.peerSubnets p).any (·.isSet subnet) <;>
      cases hnew : s.isSet subnet <;> simp [hp, hold]
  · rw [update_of_ne hid, ← hp]
    split <;> split <;> simp [count_erase_of_ne hid, Ne.symm hid]

/-- An update keeps the mirror. -/
theorem Mirrors.updatePeerSubnets (h : si.Mirrors) : (si.updatePeerSubnets id s).1.Mirrors := by
  rw [updatePeerSubnets_eq]
  split
  · exact h
  · exact h.store

theorem peerSubnets_updatePeerSubnets : (si.updatePeerSubnets id s).1.peerSubnets =
    update si.peerSubnets id (some s) := by
  rw [updatePeerSubnets_eq]
  split
  · next hknown => exact (update_eq_self_iff.2 hknown.symm).symm
  · rfl

/-- **The index mirrors the peers**: a peer is listed, once, by the subnets of its last bitmap. Only
an update with that bitmap returns `false`, and changes nothing. -/
theorem mirrors_last_updates (updates : List (ρ × Subnets)) :
    let si := updates.foldl (fun si u ↦ (si.updatePeerSubnets u.1 u.2).1) ({} : SubnetsIndex ρ)
    let last (p : ρ) := (updates.reverse.find? fun u ↦ decide (u.1 = p)).map (·.2)
    (∀ subnet p, (si.subnets subnet).count p = if (last p).any (·.isSet subnet) then 1 else 0) ∧
    ∀ id s, ((si.updatePeerSubnets id s).2 = false ↔ last id = some s) ∧
      ((si.updatePeerSubnets id s).2 = false → (si.updatePeerSubnets id s).1 = si) := by
  intro si last
  have hmirrors : si.Mirrors := by
    exact foldlRecOn updates _ (fun subnet p ↦ rfl) fun si h u _ ↦ h.updatePeerSubnets
  have hrun : si.peerSubnets = updates.foldl
      (fun (m : ρ → Option Subnets) u ↦ update m u.1 (some u.2)) fun _ ↦ none :=
    (foldl_hom SubnetsIndex.peerSubnets fun _ _ ↦ peerSubnets_updatePeerSubnets.symm).symm
  have hlast : si.peerSubnets = last := funext fun p ↦ by
    rw [hrun, GoMap.foldl_update_apply, Option.or_none]
  refine ⟨fun subnet p ↦ by rw [hmirrors, hlast], fun id s ↦ ?_⟩
  rw [updatePeerSubnets_eq, hlast]
  split
  · next hknown => exact ⟨iff_of_true rfl hknown, fun _ ↦ rfl⟩
  · next hnew => exact ⟨iff_of_false nofun hnew, nofun⟩

end SubnetsIndex

end Ssv.P2p
