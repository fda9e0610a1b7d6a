import Mathlib.Data.Finset.Card
import Mathlib.Data.Finset.Union

/-!
# A budget of distinct elements

Batches are taken as long as the distinct elements of all of them stay within a budget, and only if
they bring something new. `WithinBudget` says this of a list of batches, newest first, so there are
never more batches than the budget.
-/

namespace Budget

open Finset

variable {ρ : Type} [DecidableEq ρ] {budget : ℕ} {batches : List (Finset ρ)}

def spent (batches : List (Finset ρ)) : Finset ρ := batches.foldr (· ∪ ·) ∅

/-- Every batch brings a new element and stays within the budget. -/
def WithinBudget (budget : ℕ) : List (Finset ρ) → Prop
  | [] => True
  | batch :: earlier => (batch \ spent earlier).Nonempty ∧ (spent earlier ∪ batch).card ≤ budget ∧
      WithinBudget budget earlier

@[simp] theorem spent_nil : spent ([] : List (Finset ρ)) = ∅ := rfl

@[simp] theorem spent_cons (batch : Finset ρ) (earlier : List (Finset ρ)) :
    spent (batch :: earlier) = spent earlier ∪ batch := union_comm _ _

theorem WithinBudget.card_le (h : WithinBudget budget batches) : (spent batches).card ≤ budget := by
  cases batches with
  | nil => exact Nat.zero_le _
  | cons batch earlier => exact (spent_cons batch earlier).symm ▸ h.2.1

theorem WithinBudget.new {later earlier : List (Finset ρ)} {batch : Finset ρ}
    (h : WithinBudget budget (later ++ batch :: earlier)) : (batch \ spent earlier).Nonempty := by
  induction later with
  | nil => exact h.1
  | cons _ later ih => exact ih h.2.2

theorem WithinBudget.length_le_card (h : WithinBudget budget batches) :
    batches.length ≤ (spent batches).card := by
  induction batches with
  | nil => exact Nat.zero_le _
  | cons batch earlier ih =>
    have hsub : spent earlier ⊂ spent (batch :: earlier) := by
      obtain ⟨x, hx⟩ := h.1
      obtain ⟨hmem, hnew⟩ := Finset.mem_sdiff.1 hx
      rw [spent_cons]
      refine Finset.ssubset_iff_subset_ne.2 ⟨Finset.subset_union_left, fun heq ↦ hnew ?_⟩
      rw [heq]
      exact mem_union_right _ hmem
    exact (ih h.2.2).trans_lt (card_lt_card hsub)

/-- **Never more batches than the budget.** -/
theorem WithinBudget.length_le (h : WithinBudget budget batches) : batches.length ≤ budget :=
  h.length_le_card.trans h.card_le

end Budget
