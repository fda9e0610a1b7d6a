/-!
# State machines and their runs

A machine has initial states, a next state for every state and action, and says which actions may
occur. `Reachable` collects the states of all finite runs, and `Reachable.invariant` is the
induction over them.
-/

/-- A state machine with guarded, deterministic actions. -/
structure Machine (σ α : Type) where
  /-- Where runs start. -/
  initial : σ → Prop
  /-- The action may occur in the state. -/
  enabled : σ → α → Prop
  next : σ → α → σ

namespace Machine

variable {σ α : Type} (M : Machine σ α)

/-- The states that runs lead to. -/
inductive Reachable : σ → Prop
  | initial {s : σ} (hs : M.initial s) : Reachable s
  | step {s : σ} {a : α} (hs : Reachable s) (ha : M.enabled s a) : Reachable (M.next s a)

/-- The runs from `s` whose actions all satisfy `P`. -/
inductive Leads (P : α → Prop) (s : σ) : σ → Prop
  | refl : Leads P s s
  | step {t : σ} {a : α} (ht : Leads P s t) (ha : M.enabled t a) (hP : P a) :
      Leads P s (M.next t a)

/-- The runs in which every action also meets a condition. -/
def restrict (C : σ → α → Prop) : Machine σ α :=
  { M with enabled := fun s a ↦ M.enabled s a ∧ C s a }

instance decidableRestrict {C : σ → α → Prop} {s : σ} {a : α} [Decidable (M.enabled s a)]
    [Decidable (C s a)] : Decidable ((M.restrict C).enabled s a) :=
  inferInstanceAs (Decidable (_ ∧ _))

/-- Every action of the list is enabled when its turn comes. -/
def Enables : σ → List α → Prop
  | _, [] => True
  | s, a :: as => M.enabled s a ∧ Enables (M.next s a) as

instance decidableEnables [∀ s a, Decidable (M.enabled s a)] :
    ∀ (s : σ) (as : List α), Decidable (M.Enables s as)
  | _, [] => .isTrue trivial
  | s, a :: as =>
    have := decidableEnables (M.next s a) as
    inferInstanceAs (Decidable (M.enabled s a ∧ M.Enables (M.next s a) as))

variable {M}

theorem Reachable.foldl {s : σ} (hs : M.Reachable s) {as : List α} (has : M.Enables s as) :
    M.Reachable (as.foldl M.next s) := by
  induction as generalizing s with
  | nil => exact hs
  | cons a as ih => exact ih (hs.step has.1) has.2

theorem enables_append {s : σ} {as bs : List α} :
    M.Enables s (as ++ bs) ↔ M.Enables s as ∧ M.Enables (as.foldl M.next s) bs := by
  induction as generalizing s with
  | nil => exact ⟨fun h ↦ ⟨trivial, h⟩, And.right⟩
  | cons a as ih => exact (and_congr_right fun _ ↦ ih).trans and_assoc.symm

theorem Leads.reachable {P : α → Prop} {s t : σ} (ht : M.Leads P s t) (hs : M.Reachable s) :
    M.Reachable t := by
  induction ht with
  | refl => exact hs
  | step _ ha _ ih => exact ih.step ha

theorem Reachable.of_restrict {C : σ → α → Prop} {s : σ} (hs : (M.restrict C).Reachable s) :
    M.Reachable s := by
  induction hs with
  | initial hs => exact .initial hs
  | step _ ha ih => exact ih.step ha.1

theorem Reachable.restrict {C : σ → α → Prop} {s : σ} (hs : M.Reachable s) (hC : ∀ s a, C s a) :
    (M.restrict C).Reachable s := by
  induction hs with
  | initial hs => exact .initial hs
  | @step s a _ ha ih => exact ih.step ⟨ha, hC s a⟩

/-- **Invariance.** The step may use that its state is reachable. -/
theorem Reachable.invariant {P : σ → Prop} (hinit : ∀ s, M.initial s → P s)
    (hstep : ∀ s a, M.Reachable s → P s → M.enabled s a → P (M.next s a)) {s : σ}
    (hs : M.Reachable s) : P s := by
  induction hs with
  | initial hs => exact hinit _ hs
  | step hs ha ih => exact hstep _ _ hs ih ha

end Machine
