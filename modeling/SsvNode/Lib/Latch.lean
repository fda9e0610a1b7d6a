import Mathlib.Data.List.Basic

/-!
# What the last relevant event left

`latch f b evs` is the value after `evs` when it was `b` before them and `f` says what an event
sets. The last event that sets anything decides, so that "since the last …" is read off a history.
-/

/-- The value after a list of events, where `f` says which value an event sets. -/
def latch {ω β : Type} (f : ω → Option β) (b : β) (evs : List ω) : β :=
  evs.foldl (fun b ev ↦ (f ev).getD b) b

section

variable {ω β : Type} {f : ω → Option β} {b : β} {ev : ω} {evs evs' : List ω}

@[simp] theorem latch_nil : latch f b [] = b := rfl

@[simp] theorem latch_cons : latch f b (ev :: evs) = latch f ((f ev).getD b) evs := rfl

@[simp] theorem latch_append : latch f b (evs ++ evs') = latch f (latch f b evs) evs' :=
  List.foldl_append ..

theorem latch_eq_self (h : ∀ ev ∈ evs, f ev = none) : latch f b evs = b := by
  induction evs with
  | nil => rfl
  | cons ev evs ih =>
    rw [latch_cons, h ev List.mem_cons_self]
    exact ih fun ev' hev' ↦ h ev' (.tail _ hev')

end
