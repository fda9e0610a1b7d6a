import Mathlib.Data.List.Range
import Mathlib.Data.List.Flatten

/-!
# Delivering an indexed sequence in segments

A source holds a list `f n` at every index. `Segment` says that a list of entries, each with an
index and a body, delivers what it holds on `[a, b)`. Segments compose (`Segment.append`), an
initial part is one (`Segment.of_initial`), and the end may be moved down to the last entry
(`Segment.to_last`), so that a reader can go on from there.
-/

variable {α β : Type}

/-- The entries deliver what `f` holds on `[a, b)`. -/
structure Segment (f : ℕ → List α) (index : β → ℕ) (body : β → List α) (a b : ℕ)
    (entries : List β) : Prop where
  increasing : entries.Pairwise fun e e' ↦ index e < index e'
  within : ∀ e ∈ entries, a ≤ index e ∧ index e < b
  own : ∀ e ∈ entries, body e = f (index e)
  complete : ∀ n, a ≤ n → n < b → f n ≠ [] → ∃ e ∈ entries, index e = n

namespace Segment

open List

variable {f : ℕ → List α} {index : β → ℕ} {body : β → List α} {a b c : ℕ} {entries rest : List β}

theorem nil (h : ∀ n, a ≤ n → n < b → f n = []) : Segment f index body a b [] where
  increasing := .nil
  within := fun _ he ↦ nomatch he
  own := fun _ he ↦ nomatch he
  complete := fun n hn hb hf ↦ absurd (h n hn hb) hf

theorem empty : Segment f index body a a [] := nil fun _ h h' ↦ absurd h' (Nat.not_lt.2 h)

/-- **Segments end to end.** -/
theorem append (h : Segment f index body a b entries) (h' : Segment f index body b c rest)
    (hab : a ≤ b) (hbc : b ≤ c) : Segment f index body a c (entries ++ rest) where
  increasing := pairwise_append.2 ⟨h.increasing, h'.increasing, fun e he e' he' ↦
    Nat.lt_of_lt_of_le (h.within e he).2 (h'.within e' he').1⟩
  within := fun e he ↦ by
    rcases mem_append.1 he with he | he
    · exact ⟨(h.within e he).1, Nat.lt_of_lt_of_le (h.within e he).2 hbc⟩
    · exact ⟨Nat.le_trans hab (h'.within e he).1, (h'.within e he).2⟩
  own := fun e he ↦ (mem_append.1 he).elim (h.own e) (h'.own e)
  complete := fun n hn hc hf ↦ by
    rcases Nat.lt_or_ge n b with hb | hb
    · obtain ⟨e, he, hen⟩ := h.complete n hn hb hf
      exact ⟨e, mem_append_left rest he, hen⟩
    · obtain ⟨e, he, hen⟩ := h'.complete n hb hc hf
      exact ⟨e, mem_append_right entries he, hen⟩

theorem single (e : β) (h : body e = f (index e)) :
    Segment f index body (index e) (index e + 1) [e] where
  increasing := pairwise_singleton _ _
  within := fun e' he' ↦ by rw [mem_singleton.1 he']; omega
  own := fun e' he' ↦ by rw [mem_singleton.1 he', h]
  complete := fun n hn hb _ ↦ ⟨e, mem_singleton.2 rfl, by omega⟩

theorem congr {g : ℕ → List α} (h : Segment f index body a b entries)
    (hg : ∀ n, a ≤ n → n < b → g n = f n) : Segment g index body a b entries where
  increasing := h.increasing
  within := h.within
  own := fun e he ↦ by rw [h.own e he, hg _ (h.within e he).1 (h.within e he).2]
  complete := fun n hn hb hf ↦ h.complete n hn hb (by rwa [hg n hn hb] at hf)

theorem extend (h : Segment f index body a b entries) (hab : a ≤ b) (hbc : b ≤ c)
    (hf : ∀ n, b ≤ n → n < c → f n = []) : Segment f index body a c entries := by
  have happend := h.append (nil hf) hab hbc
  rwa [append_nil] at happend

theorem before (e : β) (later : List β) (h : Segment f index body a b (rest ++ e :: later)) :
    Segment f index body a (index e) rest := by
  obtain ⟨hrest, hlater, hlt⟩ := pairwise_append.1 h.increasing
  have hb := (h.within e (mem_append_right rest (.head _))).2
  refine ⟨hrest, fun e' he' ↦ ⟨?_, hlt e' he' e (.head _)⟩,
    fun e' he' ↦ h.own e' (mem_append_left _ he'), fun n hn hne hf ↦ ?_⟩
  · exact (h.within e' (mem_append_left _ he')).1
  · obtain ⟨e', he', rfl⟩ := h.complete n hn (Nat.lt_trans hne hb) hf
    rcases mem_append.1 he' with he' | he'
    · exact ⟨e', he', rfl⟩
    · rcases mem_cons.1 he' with rfl | he'
      · exact absurd hne (Nat.lt_irrefl _)
      · exact absurd hne (Nat.lt_asymm ((pairwise_cons.1 hlater).1 e' he'))

theorem of_initial_concat {e : β} (h : Segment f index body a b entries)
    (hp : rest ++ [e] <+: entries) : Segment f index body a (index e + 1) (rest ++ [e]) := by
  obtain ⟨later, rfl⟩ := hp
  have hmem : e ∈ rest ++ [e] ++ later := by simp
  have hbefore : Segment f index body a (index e) rest := before e later (by simpa using h)
  exact hbefore.append (single e (h.own e hmem)) (h.within e hmem).1 (Nat.le_succ _)

/-- **The upper end can be moved down** to just after the last entry. -/
theorem to_last {e : β} (h : Segment f index body a b (rest ++ [e])) :
    Segment f index body a (index e + 1) (rest ++ [e]) :=
  h.of_initial_concat prefix_rfl

theorem of_initial (h : Segment f index body a b entries) (hp : rest <+: entries) :
    ∃ c, Segment f index body a c rest := by
  rcases eq_nil_or_concat rest with rfl | ⟨init, e, rfl⟩
  · exact ⟨a, empty⟩
  · rw [concat_eq_append] at hp ⊢
    exact ⟨index e + 1, h.of_initial_concat hp⟩

/-- What follows the first entry is a segment, and nothing comes before that entry. -/
theorem tail {e : β} (h : Segment f index body a b (e :: rest)) :
    Segment f index body (index e + 1) b rest ∧ ∀ n, a ≤ n → n < index e → f n = [] := by
  have hlater := (pairwise_cons.1 h.increasing).1
  have hwithin := h.within e (.head _)
  refine ⟨⟨(pairwise_cons.1 h.increasing).2, fun e' he' ↦ ⟨hlater e' he', ?_⟩, ?_, ?_⟩, ?_⟩
  · exact (h.within e' (.tail _ he')).2
  · exact fun e' he' ↦ h.own e' (.tail _ he')
  · intro n hn hb hf
    obtain ⟨e', he', rfl⟩ := h.complete n (by omega) hb hf
    rcases mem_cons.1 he' with rfl | he'
    · omega
    · exact ⟨e', he', rfl⟩
  · intro n hn hne
    by_contra hf
    obtain ⟨e', he', rfl⟩ := h.complete n hn (by omega) hf
    rcases mem_cons.1 he' with rfl | he'
    · omega
    · have := hlater e' he'
      omega

theorem flatMap_range'_eq_nil {n : ℕ} (h : ∀ i, a ≤ i → i < a + n → f i = []) :
    (range' a n).flatMap f = [] := by
  rw [flatMap_eq_nil_iff]
  intro i hi
  rw [mem_range'_1] at hi
  exact h i hi.1 hi.2

/-- **The bodies of a segment are what the source holds on the interval.** -/
theorem flatMap_body (h : Segment f index body a b entries) :
    entries.flatMap body = (range' a (b - a)).flatMap f := by
  induction entries generalizing a with
  | nil =>
    rw [flatMap_nil, flatMap_range'_eq_nil]
    intro i hi hb
    by_contra hf
    obtain ⟨e, he, -⟩ := h.complete i hi (by omega) hf
    exact not_mem_nil he
  | cons e rest ih =>
    obtain ⟨hrest, hbefore⟩ := h.tail
    have hwithin := h.within e (.head _)
    -- the interval is what comes before the entry, the entry's index, and what comes after
    have hsplit : range' a (b - a) = range' a (index e - a) ++
        index e :: range' (index e + 1) (b - (index e + 1)) := by
      have hcons : index e :: range' (index e + 1) (b - (index e + 1)) =
          range' (index e) (b - index e) := by
        rw [show b - index e = (b - (index e + 1)) + 1 by omega, range'_succ]
      have happend := range'_append_1 (s := a) (m := index e - a) (n := b - index e)
      rw [show a + (index e - a) = index e by omega,
        show index e - a + (b - index e) = b - a by omega] at happend
      rw [hcons, happend]
    rw [hsplit, flatMap_append, flatMap_range'_eq_nil fun i hi hie ↦
      hbefore i hi (by omega), nil_append, flatMap_cons, flatMap_cons, ih hrest,
      h.own e (.head _)]

end Segment
