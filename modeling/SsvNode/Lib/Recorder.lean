import Mathlib.Data.List.Basic

/-!
# Recorders

A recorder decides on an entry by a state, if there is one, and records what it accepts. `History`
relates a state to the entries accepted since it is there, newest first; what holds of a state is
proved by induction on that. `logged` keeps such a list, and `History.step` says that it is a
history.
-/

/-- A decision on entries by a state, and the state that an accepted entry leaves. -/
structure Recorder (σ α : Type) where
  Accepts : α → Option σ → Prop
  record : α → Option σ → σ

namespace Recorder

variable {σ α : Type} {R : Recorder σ α} {C : List α → Option σ → α → Prop} {log : List α}
  {s s' : Option σ} {entry : Option α}

variable (R) (C) in
/-- The entries accepted since the state is there, newest first, where all that came up met a
condition. -/
inductive History : List α → Option σ → Prop
  | empty : History [] none
  | accept {log : List α} {s : Option σ} {a : α} (h : History log s) (hC : C log s a)
      (ha : R.Accepts a s) : History (a :: log) (some (R.record a s))

/-- What holds without a state and is kept by accepting holds of every history. -/
theorem History.invariant {P : List α → Option σ → Prop} (hempty : P [] none)
    (haccept : ∀ log s a, P log s → C log s a → R.Accepts a s → P (a :: log) (some (R.record a s)))
    (h : R.History C log s) : P log s := by
  induction h with
  | empty => exact hempty
  | accept _ hC ha ih => exact haccept _ _ _ ih hC ha

/-! ### Marks

A mark is what a state shows of an entry. -/

section

variable {P : α → σ → Prop} {Rel : α → α → Prop}
  (hmark : ∀ log s a, C log s a → R.Accepts a s → P a (R.record a s))
  (hkeep : ∀ log s a b, C log (some s) a → R.Accepts a (some s) → P b s → P b (R.record a (some s)))

include hmark hkeep

/-- If every entry leaves its mark and keeps those of the others, all entries are marked. -/
theorem History.marked (h : R.History C log s) : ∀ s', s = some s' → ∀ b ∈ log, P b s' := by
  induction h with
  | empty => nofun
  | @accept log s a h hC ha ih =>
    rintro _ ⟨⟩ b hb
    rcases List.mem_cons.1 hb with rfl | hb
    · exact hmark log s b hC ha
    · cases s with
      | none =>
        cases h
        cases hb
      | some s => exact hkeep log s a b hC ha (ih s rfl b hb)

/-- If an accepted entry is related to all marked ones, the entries are related in pairs. -/
theorem History.pairwise (hrel : ∀ s a b, R.Accepts a (some s) → P b s → Rel a b)
    (h : R.History C log s) : log.Pairwise Rel := by
  induction h with
  | empty => exact .nil
  | @accept log s a h hC ha ih =>
    refine List.pairwise_cons.2 ⟨fun b hb ↦ ?_, ih⟩
    cases s with
    | none =>
      cases h
      cases hb
    | some s => exact hrel s a b ha (h.marked hmark hkeep s rfl b hb)

end

/-! ### Keeping the history of a state that changes -/

variable (R) in
/-- An entry is accepted and recorded, or nothing happens, or the state is dropped. -/
inductive Step : Option α → Option σ → Option σ → Prop
  | accept {s : Option σ} {a : α} (ha : R.Accepts a s) : Step (some a) s (some (R.record a s))
  | keep {s : Option σ} : Step none s s
  | drop {entry : Option α} {s : Option σ} : Step entry s none

/-- The entries since the state is there, after a step. -/
def logged (present : Bool) (entry : Option α) (log : List α) : List α :=
  if present then entry.toList ++ log else []

theorem History.step (h : R.History C log s) (hstep : R.Step entry s s')
    (hC : ∀ a, entry = some a → C log s a) : R.History C (logged s'.isSome entry log) s' := by
  cases hstep with
  | accept ha => exact h.accept (hC _ rfl) ha
  | keep =>
    cases s with
    | none => exact .empty
    | some => exact h
  | drop => exact .empty

end Recorder
