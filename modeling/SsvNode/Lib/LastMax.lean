import Mathlib.Data.List.Basic
import Mathlib.Algebra.Order.Ring.Int

/-!
# The last greatest element of a list under a preference

A *preference* `prior a b` says that `a` may be taken before `b`. A comparator that is a cascade of
scores is `byScore` once per score, and a total preorder (`TotalPreorder.byScore`). `lastMax prior
filter l` is the scan

    best := none
    for i, x in l: if (best is none or prior x best) and filter x: best := (i, x)

which ends at the **last** of the most preferred elements (`Selects`).
-/

namespace List

open List

variable {α : Type}

/-! ### Preferences -/

/-- A preference that is total and transitive. -/
structure TotalPreorder (prior : α → α → Bool) : Prop where
  total : ∀ a b, prior a b = true ∨ prior b a = true
  trans : ∀ {a b c}, prior a b = true → prior b c = true → prior a c = true

/-- Prefer the greater score; leave ties to `next`. -/
def byScore (score : α → ℤ) (next : α → α → Bool) (a b : α) : Bool :=
  if score a ≠ score b then decide (score a > score b) else next a b

theorem byScore_eq_true {score : α → ℤ} {next : α → α → Bool} {a b : α} :
    byScore score next a b = true ↔ score b < score a ∨ score a = score b ∧ next a b = true := by
  unfold byScore
  split
  · rename_i h
    simp [h]
  · rename_i h
    have heq : score a = score b := not_not.1 h
    simp [heq]

theorem TotalPreorder.always : TotalPreorder fun _ _ : α ↦ true where
  total := fun _ _ ↦ .inl rfl
  trans := fun _ _ ↦ rfl

theorem TotalPreorder.byScore {next : α → α → Bool} (hnext : TotalPreorder next) (score : α → ℤ) :
    TotalPreorder (byScore score next) where
  total := by
    intro a b
    rw [byScore_eq_true, byScore_eq_true]
    rcases lt_trichotomy (score a) (score b) with h | h | h
    · exact .inr (.inl h)
    · rcases hnext.total a b with hab | hba
      · exact .inl (.inr ⟨h, hab⟩)
      · exact .inr (.inr ⟨h.symm, hba⟩)
    · exact .inl (.inl h)
  trans := by
    intro a b c hab hbc
    rw [byScore_eq_true] at hab hbc ⊢
    rcases hab with hab | ⟨hab, hn⟩ <;> rcases hbc with hbc | ⟨hbc, hn'⟩
    · exact .inl (hbc.trans hab)
    · exact .inl (hbc ▸ hab)
    · exact .inl (hab ▸ hbc)
    · exact .inr ⟨hab.trans hbc, hnext.trans hn hn'⟩

/-! ### The scan -/

/-- One iteration of the scan, at position `i`. -/
def keepLast (prior : α → α → Bool) (filter : α → Bool) (best : Option (ℕ × α)) (i : ℕ) (x : α) :
    Option (ℕ × α) :=
  if (best.all fun b ↦ prior x b.2) && filter x then some (i, x) else best

/-- The scan from position `i` on, with the best element before it. -/
def lastMaxFrom (prior : α → α → Bool) (filter : α → Bool) :
    ℕ → Option (ℕ × α) → List α → Option (ℕ × α)
  | _, best, [] => best
  | i, best, x :: rest => lastMaxFrom prior filter (i + 1) (keepLast prior filter best i x) rest

/-- The position and value of the last most preferred element that passes the filter. -/
def lastMax (prior : α → α → Bool) (filter : α → Bool) (l : List α) : Option (ℕ × α) :=
  lastMaxFrom prior filter 0 none l

/-- What the scan has found in the part `l` of the list it has seen. -/
def Selects (prior : α → α → Bool) (filter : α → Bool) (l : List α) : Option (ℕ × α) → Prop
  | none => ∀ x ∈ l, filter x = false
  | some (i, m) => ∃ l₁ l₂, l = l₁ ++ m :: l₂ ∧ l₁.length = i ∧ filter m = true ∧
      (∀ x ∈ l₁, filter x = true → prior m x = true) ∧
      ∀ x ∈ l₂, filter x = true → prior x m = false

section Scan

variable {prior : α → α → Bool} {filter : α → Bool}

theorem Selects.keepLast (hp : TotalPreorder prior) {l : List α} {best : Option (ℕ × α)} (x : α)
    (h : Selects prior filter l best) :
    Selects prior filter (l ++ [x]) (keepLast prior filter best l.length x) := by
  unfold List.keepLast
  split
  · -- `x` replaces the old choice, so everything seen so far is at most as preferred as `x`
    rename_i hx
    obtain ⟨hbest, hfx⟩ := Bool.and_eq_true_iff.1 hx
    refine ⟨l, [], rfl, rfl, hfx, ?_, nofun⟩
    intro y hy hfy
    rcases best with - | ⟨i, m⟩
    · exact absurd hfy (by rw [h y hy]; exact Bool.false_ne_true)
    · have hxm : prior x m = true := hbest
      obtain ⟨l₁, l₂, rfl, -, -, h₁, h₂⟩ := h
      rcases mem_append.1 hy with hy | hy
      · exact hp.trans hxm (h₁ y hy hfy)
      · rcases mem_cons.1 hy with rfl | hy
        · exact hxm
        · have hym : prior y m = false := h₂ y hy hfy
          have hmy : prior m y = true := (hp.total m y).resolve_right (by simp [hym])
          exact hp.trans hxm hmy
  · rename_i hx
    rcases best with - | ⟨i, m⟩
    · intro y hy
      rcases mem_append.1 hy with hy | hy
      · exact h y hy
      · obtain rfl : y = x := mem_singleton.1 hy
        simpa using hx
    · obtain ⟨l₁, l₂, rfl, hi, hm, h₁, h₂⟩ := h
      refine ⟨l₁, l₂ ++ [x], by simp, hi, hm, h₁, ?_⟩
      intro y hy hfy
      rcases mem_append.1 hy with hy | hy
      · exact h₂ y hy hfy
      · obtain rfl : y = x := mem_singleton.1 hy
        simpa [hfy] using hx

theorem Selects.lastMaxFrom (hp : TotalPreorder prior) {seen : List α} {best : Option (ℕ × α)}
    (rest : List α) (h : Selects prior filter seen best) :
    Selects prior filter (seen ++ rest) (lastMaxFrom prior filter seen.length best rest) := by
  induction rest generalizing seen best with
  | nil =>
    rw [append_nil]
    exact h
  | cons x rest ih =>
    have hx := ih (h.keepLast hp x)
    rw [length_append, length_singleton, append_assoc] at hx
    exact hx

theorem selects_lastMax (hp : TotalPreorder prior) (l : List α) :
    Selects prior filter l (lastMax prior filter l) :=
  @Selects.lastMaxFrom _ _ _ hp [] none l nofun

end Scan

end List
