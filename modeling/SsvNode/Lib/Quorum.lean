import Mathlib.Data.Finset.Card

/-!
# Quorums under a bounded number of faults

`3f + 1` members of which at most `f` are faulty. Two sets of `2f + 1` share an honest member
(`QuorumSystem.Backed.inter`), and `f + 1` contain one (`QuorumSystem.WeaklyBacked.exists_honest`).
A quorum **backs** what all its honest members satisfy.
-/

/-- `3f + 1` members, at most `f` of them faulty. -/
structure QuorumSystem (α : Type) [DecidableEq α] where
  f : ℕ
  members : Finset α
  faulty : Finset α
  card_members : members.card = 3 * f + 1
  card_faulty : faulty.card ≤ f

namespace QuorumSystem

open Finset

variable {α : Type} [DecidableEq α] (S : QuorumSystem α) {P P' : α → Prop}

def Honest (x : α) : Prop := x ∈ S.members ∧ x ∉ S.faulty

instance : DecidablePred S.Honest :=
  fun x ↦ inferInstanceAs (Decidable (x ∈ S.members ∧ x ∉ S.faulty))

/-- A set of `2f + 1` members whose honest ones satisfy `P`. -/
def Backed (P : α → Prop) : Prop :=
  ∃ Q ⊆ S.members, 2 * S.f + 1 ≤ Q.card ∧ ∀ x ∈ Q, S.Honest x → P x

/-- A set of `f + 1` members whose honest ones satisfy `P`. -/
def WeaklyBacked (P : α → Prop) : Prop :=
  ∃ Q ⊆ S.members, S.f + 1 ≤ Q.card ∧ ∀ x ∈ Q, S.Honest x → P x

variable {S}

theorem Backed.mono (h : S.Backed P) (hP : ∀ x, S.Honest x → P x → P' x) : S.Backed P' := by
  obtain ⟨Q, hsub, hcard, hQ⟩ := h
  exact ⟨Q, hsub, hcard, fun x hx hhon ↦ hP x hhon (hQ x hx hhon)⟩

theorem Backed.weakly (h : S.Backed P) : S.WeaklyBacked P := by
  obtain ⟨Q, hsub, hcard, hQ⟩ := h
  exact ⟨Q, hsub, by omega, hQ⟩

theorem WeaklyBacked.exists_honest (h : S.WeaklyBacked P) : ∃ x, S.Honest x ∧ P x := by
  obtain ⟨Q, hsub, hcard, hQ⟩ := h
  have hlt : S.faulty.card < Q.card := lt_of_le_of_lt S.card_faulty hcard
  obtain ⟨x, hx, hnot⟩ := exists_mem_notMem_of_card_lt_card hlt
  exact ⟨x, ⟨hsub hx, hnot⟩, hQ x hx ⟨hsub hx, hnot⟩⟩

/-- **Quorum intersection**: two quorums share an honest member. -/
theorem Backed.inter (h : S.Backed P) (h' : S.Backed P') : ∃ x, S.Honest x ∧ P x ∧ P' x := by
  obtain ⟨Q, hsub, hcard, hQ⟩ := h
  obtain ⟨Q', hsub', hcard', hQ'⟩ := h'
  -- the quorums overlap in more than `f` members
  have hunion : (Q ∪ Q').card ≤ 3 * S.f + 1 := by
    rw [← S.card_members]
    exact card_le_card (union_subset hsub hsub')
  have hsum := card_union_add_card_inter Q Q'
  have hinter : S.WeaklyBacked fun x ↦ P x ∧ P' x := by
    refine ⟨Q ∩ Q', fun x hx ↦ hsub (mem_inter.1 hx).1, by omega, fun x hx hhon ↦ ?_⟩
    obtain ⟨hx, hx'⟩ := mem_inter.1 hx
    exact ⟨hQ x hx hhon, hQ' x hx' hhon⟩
  exact hinter.exists_honest

end QuorumSystem
