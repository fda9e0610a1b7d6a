import Mathlib.Order.Nat

/-!
# The first greatest element of a list

`firstMax p key l` is the result of a single scan of `l` that keeps the best element so far among
those satisfying `p`, and replaces it only by one with a strictly greater key. It is the loop

    ret := none
    for x in l: if p x and (ret is none or key ret < key x): ret := x

so ties go to the earlier element.
-/

namespace List

variable {α : Type} {p : α → Bool} {key : α → ℕ} {l : List α} {best : α}

def keepMax (p : α → Bool) (key : α → ℕ) (ret : Option α) (x : α) : Option α :=
  if p x then
    match ret with
    | none => some x
    | some best => if key best < key x then some x else some best
  else ret

/-- The first element of greatest key among those satisfying `p`. -/
def firstMax (p : α → Bool) (key : α → ℕ) (l : List α) : Option α := l.foldl (keepMax p key) none

/-- One iteration keeps the old choice or the new element, and its key bounds both. -/
theorem keepMax_some {ret : Option α} {x : α} (h : keepMax p key ret x = some best) :
    (ret = some best ∨ (best = x ∧ p x = true)) ∧ (∀ s, ret = some s → key s ≤ key best) ∧
      (p x = true → key x ≤ key best) := by
  unfold keepMax at h
  split at h
  · rename_i hx
    rcases ret with - | s
    · obtain rfl : x = best := by simpa using h
      exact ⟨.inr ⟨rfl, hx⟩, by simp, fun _ ↦ le_rfl⟩
    · dsimp only at h
      split at h
      · obtain rfl : x = best := by simpa using h
        refine ⟨.inr ⟨rfl, hx⟩, ?_, fun _ ↦ le_rfl⟩
        rintro s' ⟨⟩
        omega
      · obtain rfl : s = best := by simpa using h
        refine ⟨.inl rfl, ?_, fun _ ↦ by omega⟩
        rintro s' ⟨⟩
        exact le_rfl
  · rename_i hx
    refine ⟨.inl h, ?_, fun hp ↦ absurd hp hx⟩
    rintro s rfl
    obtain rfl : s = best := by simpa using h
    exact le_rfl

theorem foldl_keepMax_some {ret : Option α} (h : l.foldl (keepMax p key) ret = some best) :
    (ret = some best ∨ (best ∈ l ∧ p best = true)) ∧ (∀ s, ret = some s → key s ≤ key best) ∧
      ∀ x ∈ l, p x = true → key x ≤ key best := by
  induction l generalizing ret with
  | nil =>
    have hret : ret = some best := h
    refine ⟨.inl hret, ?_, by simp⟩
    rintro s rfl
    obtain rfl : s = best := by simpa using hret
    exact le_rfl
  | cons x l ih =>
    obtain ⟨hwho, hkeep, hall⟩ := ih h
    rcases hk : keepMax p key ret x with - | k
    · -- nothing was chosen yet, so `x` did not qualify
      have hnone : ret = none ∧ p x ≠ true := by
        unfold keepMax at hk
        split at hk
        · rcases ret with - | s
          · simp at hk
          · dsimp only at hk
            split at hk <;> simp at hk
        · exact ⟨hk, ‹_›⟩
      refine ⟨?_, by simp [hnone.1], ?_⟩
      · rcases hwho with hb | ⟨hb, hp⟩
        · rw [hk] at hb
          simp at hb
        · exact .inr ⟨by simp [hb], hp⟩
      · intro y hy hpy
        rcases List.mem_cons.1 hy with rfl | hy
        · exact absurd hpy hnone.2
        · exact hall y hy hpy
    · obtain ⟨hwho', hret, hx⟩ := keepMax_some hk
      have hkbest := hkeep k hk
      refine ⟨?_, fun s hs ↦ (hret s hs).trans hkbest, ?_⟩
      · rcases hwho with hb | ⟨hb, hp⟩
        · obtain rfl : k = best := by simpa [hk] using hb
          rcases hwho' with hr | ⟨rfl, hp⟩
          · exact .inl hr
          · exact .inr ⟨by simp, hp⟩
        · exact .inr ⟨by simp [hb], hp⟩
      · intro y hy hpy
        rcases List.mem_cons.1 hy with rfl | hy
        · exact (hx hpy).trans hkbest
        · exact hall y hy hpy

theorem firstMax_some (h : firstMax p key l = some best) :
    best ∈ l ∧ p best = true ∧ ∀ x ∈ l, p x = true → key x ≤ key best := by
  obtain ⟨hwho, -, hall⟩ := foldl_keepMax_some h
  rcases hwho with hb | ⟨hmem, hp⟩
  · simp at hb
  · exact ⟨hmem, hp, hall⟩

theorem exists_firstMax {x : α} (hx : x ∈ l) (hp : p x = true) :
    ∃ best, firstMax p key l = some best := by
  -- a choice, once made, is never taken back
  have hkeep : ∀ (l : List α) (s : α), ∃ b, l.foldl (keepMax p key) (some s) = some b := by
    intro l
    induction l with
    | nil => exact fun s ↦ ⟨s, rfl⟩
    | cons y l ih =>
      intro s
      rw [List.foldl_cons]
      unfold keepMax
      split
      · dsimp only
        split
        · exact ih y
        · exact ih s
      · exact ih s
  unfold firstMax
  induction l with
  | nil => simp at hx
  | cons y l ih =>
    rw [List.foldl_cons]
    by_cases hy : p y = true
    · have hnew : keepMax p key none y = some y := by simp [keepMax, hy]
      rw [hnew]
      exact hkeep l y
    · have hsame : keepMax p key none y = none := by simp [keepMax, hy]
      rw [hsame]
      rcases List.mem_cons.1 hx with rfl | hx
      · exact absurd hp hy
      · exact ih hx

/-- A scan of a mapped list is the scan of the list. -/
theorem firstMax_map {f : α → α} (hp : ∀ x, p (f x) = p x) (hkey : ∀ x, key (f x) = key x) :
    firstMax p key (l.map f) = (firstMax p key l).map f := by
  have hstep (ret : Option α) (x : α) :
      keepMax p key (ret.map f) (f x) = (keepMax p key ret x).map f := by
    unfold keepMax
    rw [hp]
    rcases ret with - | s
    · split <;> rfl
    · simp only [Option.map_some, hkey]
      split
      · split <;> rfl
      · rfl
  have hscan (ret : Option α) :
      (l.map f).foldl (keepMax p key) (ret.map f) = (l.foldl (keepMax p key) ret).map f := by
    induction l generalizing ret with
    | nil => rfl
    | cons x l ih => rw [map_cons, foldl_cons, foldl_cons, hstep, ih]
  exact hscan none

end List
