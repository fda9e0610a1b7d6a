import Mathlib.Data.Nat.Periodic

/-!
# Turns taken in a circle

`turn members k` is whose turn it is after `k` turns, when the members take turns in the order of
their list. Every member has **exactly one turn in a circle**, wherever the circle starts
(`card_turns_eq_one`), and the turns from any point on determine the list (`eq_of_turn_eq`).
-/

namespace RoundRobin

open List Finset

variable {α : Type*} {members members' : List α} {k : ℕ}

/-- Whose turn is turn `k`; nobody's if there are no members. -/
def turn (members : List α) (k : ℕ) : Option α := members[k % members.length]?

theorem turn_of_lt (hk : k < members.length) : turn members k = members[k]? := by
  rw [turn, Nat.mod_eq_of_lt hk]

theorem turn_isSome (hne : members ≠ []) : (turn members k).isSome := by
  rw [turn, getElem?_eq_getElem (Nat.mod_lt k (length_pos_of_ne_nil hne))]
  rfl

theorem turn_periodic (members : List α) : Function.Periodic (turn members) members.length :=
  fun k ↦ by rw [turn, Nat.add_mod_right, turn]

theorem turn_add_mul (members : List α) (i m : ℕ) :
    turn members (i + m * members.length) = turn members i :=
  (turn_periodic members).nat_mul m i

theorem count_turn_eq_one [DecidableEq α] (hnodup : members.Nodup) {a : α} (ha : a ∈ members) :
    members.length.count (fun k ↦ turn members k = some a) = 1 := by
  obtain ⟨i, hi, rfl⟩ := getElem_of_mem ha
  rw [Nat.count_eq_card_filter_range, card_eq_one]
  refine ⟨i, ext fun k ↦ ?_⟩
  rw [Finset.mem_filter, Finset.mem_range, Finset.mem_singleton]
  constructor
  · rintro ⟨hk, hturn⟩
    rw [turn_of_lt hk, getElem?_eq_getElem hk, Option.some.injEq] at hturn
    exact (hnodup.getElem_inj_iff).1 hturn
  · rintro rfl
    exact ⟨hi, by rw [turn_of_lt hi, getElem?_eq_getElem hi]⟩

/-- **Fairness.** In any circle every member has one turn. -/
theorem card_turns_eq_one [DecidableEq α] (hnodup : members.Nodup) {a : α} (ha : a ∈ members)
    (start : ℕ) :
    ((Finset.Ico start (start + members.length)).filter
      fun k ↦ turn members k = some a).card = 1 := by
  rw [Nat.filter_Ico_card_eq_of_periodic start members.length _
    fun k ↦ by rw [turn_periodic members k], count_turn_eq_one hnodup ha]

theorem eq_of_turn_eq (hlen : members.length = members'.length) {start : ℕ}
    (h : ∀ k, start ≤ k → turn members k = turn members' k) : members = members' := by
  refine ext_getElem? fun i ↦ ?_
  rcases Nat.lt_or_ge i members.length with hi | hi
  · have hstart : start ≤ i + start * members.length :=
      (Nat.le_mul_of_pos_right start (by omega)).trans (Nat.le_add_left _ _)
    have hturn := h _ hstart
    rw [turn_add_mul, hlen, turn_add_mul] at hturn
    rwa [turn_of_lt hi, turn_of_lt (hlen ▸ hi)] at hturn
  · rw [getElem?_eq_none hi, getElem?_eq_none (hlen ▸ hi)]

end RoundRobin
