import Mathlib.Data.List.Pairwise
import Mathlib.Order.Lattice

/-!
# High-water marks

All that is remembered of a log is one **mark**, which *covers* the items behind it and *admits*
those that may come next; an admitted item *follows* every covered one. So a log whose mark has
always covered it is ordered (`Tracks`). Every move of a mark is free except `restart`, whose fresh
mark has to cover the log. The instances are pairs of epochs, against **double** and **surround**
votes, and single numbers.
-/

/-- How marks `μ` relate to the items `ι` of a log. -/
structure Watermark (μ ι : Type) where
  /-- The item is behind the mark. -/
  Covers : μ → ι → Prop
  /-- The item may be logged next. -/
  Admits : μ → ι → Prop
  /-- The second item may come after the first. -/
  Follows : ι → ι → Prop
  follows_of_admits {m : μ} {x y : ι} : Covers m x → Admits m y → Follows x y

namespace Watermark

open List

variable {μ ι : Type} (W : Watermark μ ι)

/-- The mark `m'` covers whatever `m` covers. -/
def Raises (m m' : μ) : Prop := ∀ x, W.Covers m x → W.Covers m' x

/-- The mark covers an ordered log. -/
structure Tracks (mark : Option μ) (log : List ι) : Prop where
  ordered : log.Pairwise W.Follows
  covered : ∀ m ∈ mark, ∀ x ∈ log, W.Covers m x

/-- What a mark can do in one step. Only `fresh` can take the place of an absent mark. -/
inductive Move (fresh : Option μ) : Option μ → Option μ → List ι → Prop
  | keep {mark : Option μ} : Move fresh mark mark []
  | clear {mark : Option μ} : Move fresh mark none []
  | restart {m : μ} (hm : m ∈ fresh) : Move fresh none (some m) []
  | raise {m m' : μ} (h : W.Raises m m') : Move fresh (some m) (some m') []
  | log {m m' : μ} {y : ι} (hy : W.Admits m y) (h : W.Raises m m') (hc : W.Covers m' y) :
      Move fresh (some m) (some m') [y]

variable {W} {mark : Option μ}

theorem Tracks.nil : W.Tracks mark [] :=
  ⟨List.Pairwise.nil, fun _ _ _ hx ↦ nomatch hx⟩

theorem Move.admits {fresh mark' : Option μ} {ys : List ι} (hm : W.Move fresh mark mark' ys)
    {y : ι} (hy : y ∈ ys) : ∃ m ∈ mark, W.Admits m y := by
  cases hm with
  | log hadmits _ _ =>
    rw [mem_singleton.1 hy]
    exact ⟨_, rfl, hadmits⟩
  | _ => cases hy

/-- **The step rule.** Only a restart has to know the log. -/
theorem Tracks.move {fresh mark' : Option μ} {log ys : List ι} (ht : W.Tracks mark log)
    (hm : W.Move fresh mark mark' ys)
    (hfresh : mark = none → ∀ m ∈ fresh, ∀ x ∈ log, W.Covers m x) : W.Tracks mark' (log ++ ys) := by
  cases hm with
  | keep => rwa [append_nil]
  | clear =>
    rw [append_nil]
    exact ⟨ht.ordered, fun _ h ↦ absurd h (Option.not_mem_none _)⟩
  | restart hm =>
    rw [append_nil]
    refine ⟨ht.ordered, fun m h ↦ ?_⟩
    cases h
    exact hfresh rfl _ hm
  | raise h =>
    rw [append_nil]
    refine ⟨ht.ordered, fun m hm x hx ↦ ?_⟩
    cases hm
    exact h x (ht.covered _ rfl x hx)
  | log hy h hc =>
    refine ⟨?_, fun m hm x hx ↦ ?_⟩
    · -- the new item comes after all others, because the old mark covered them
      refine pairwise_append.2 ⟨ht.ordered, pairwise_singleton _ _, fun x hx y hy' ↦ ?_⟩
      rw [mem_singleton.1 hy']
      exact W.follows_of_admits (ht.covered _ rfl x hx) hy
    · cases hm
      rcases mem_append.1 hx with hx | hx
      · exact h x (ht.covered _ rfl x hx)
      · rw [mem_singleton.1 hx]
        exact hc

/-- A stored value that was left alone, cleared or written over is a mark of the same log. -/
theorem Tracks.of_written {ρ : Type} {written : Option (Option ρ)} {stored : Option ρ}
    {log : List ι} (f : Option ρ → Option μ) (hf : f none = none) (h : W.Tracks (f stored) log)
    (hwritten : written.join = none) : W.Tracks (f (written.getD stored)) log := by
  rcases written with - | - | value
  · exact h
  · refine ⟨h.ordered, fun m hm ↦ ?_⟩
    rw [Option.getD_some, hf] at hm
    cases hm
  · cases hwritten

theorem Tracks.trichotomy {log : List ι} (ht : W.Tracks mark log) {x y : ι}
    (hx : x ∈ log) (hy : y ∈ log) : x = y ∨ W.Follows x y ∨ W.Follows y x := by
  obtain ⟨i, hi, rfl⟩ := getElem_of_mem hx
  obtain ⟨j, hj, rfl⟩ := getElem_of_mem hy
  have hord := pairwise_iff_getElem.1 ht.ordered
  rcases Nat.lt_trichotomy i j with hij | rfl | hij
  · exact .inr (.inl (hord i j hi hj hij))
  · exact .inl rfl
  · exact .inr (.inr (hord j i hj hi hij))

end Watermark

/-! ### Votes from a source epoch to a target epoch -/

namespace Ffg

variable {ι ε : Type} [LinearOrder ε] (source target : ι → ε)

def DoubleVote (x y : ι) : Prop := x ≠ y ∧ target x = target y

/-- The span of `x` strictly contains the span of `y`. -/
def SurroundVote (x y : ι) : Prop := source x < source y ∧ target y < target x

/-- Marks that remember the highest source and the highest target. -/
def watermark : Watermark (ε × ε) ι where
  Covers m x := source x ≤ m.1 ∧ target x ≤ m.2
  Admits m y := m.1 ≤ source y ∧ m.2 < target y
  Follows x y := source x ≤ source y ∧ target x < target y
  follows_of_admits h h' := ⟨h.1.trans h'.1, h.2.trans_lt h'.2⟩

variable {source target}

theorem raises_of_le {m m' : ε × ε} (h₁ : m.1 ≤ m'.1) (h₂ : m.2 ≤ m'.2) :
    (watermark source target).Raises m m' :=
  fun _ h ↦ ⟨h.1.trans h₁, h.2.trans h₂⟩

/-- **A tracked log has no double vote.** -/
theorem not_doubleVote {mark : Option (ε × ε)} {log : List ι}
    (ht : (watermark source target).Tracks mark log) {x y : ι} (hx : x ∈ log) (hy : y ∈ log) :
    ¬ DoubleVote target x y := by
  rintro ⟨hne, heq⟩
  rcases ht.trichotomy hx hy with rfl | h | h
  · exact hne rfl
  · exact h.2.ne heq
  · exact h.2.ne heq.symm

theorem not_surroundVote {mark : Option (ε × ε)} {log : List ι}
    (ht : (watermark source target).Tracks mark log) {x y : ι} (hx : x ∈ log) (hy : y ∈ log) :
    ¬ SurroundVote source target x y := by
  rintro ⟨hs, ht'⟩
  rcases ht.trichotomy hx hy with rfl | h | h
  · exact lt_irrefl _ hs
  · exact lt_asymm ht' h.2
  · exact not_le_of_gt hs h.1

end Ffg

/-! ### Items with one number -/

namespace Watermark

variable {ι ε : Type} [LinearOrder ε] (rank : ι → ε)

/-- Marks that remember the highest number. -/
def ofRank : Watermark ε ι where
  Covers m x := rank x ≤ m
  Admits m y := m < rank y
  Follows x y := rank x < rank y
  follows_of_admits h h' := h.trans_lt h'

variable {rank}

theorem ofRank_raises {m m' : ε} (h : m ≤ m') : (ofRank rank).Raises m m' :=
  fun _ hx ↦ le_trans hx h

/-- **A tracked log uses no number twice.** -/
theorem eq_of_rank_eq {mark : Option ε} {log : List ι} (ht : (ofRank rank).Tracks mark log)
    {x y : ι} (hx : x ∈ log) (hy : y ∈ log) (h : rank x = rank y) : x = y := by
  rcases ht.trichotomy hx hy with heq | hlt | hlt
  · exact heq
  · exact absurd h (ne_of_lt hlt)
  · exact absurd h.symm (ne_of_lt hlt)

end Watermark
