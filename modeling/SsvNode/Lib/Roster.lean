import Mathlib.Data.List.Nodup

/-!
# Rosters

A roster lists **exactly the elements with a property, no two with the same key**, in any order;
secondary indices are families of rosters. Code appends, replaces and removes by key, and on a
roster the first element with a key is the only one (`replaceF_eq_map`, `eraseP_eq_filter`).
-/

/-- The list has the elements with the property, and their keys are distinct. -/
structure IsRoster {α κ : Type} (key : α → κ) (l : List α) (P : α → Prop) : Prop where
  nodup : (l.map key).Nodup
  mem : ∀ a, a ∈ l ↔ P a

namespace IsRoster

open List

variable {α β κ : Type} {key : α → κ} {l l' : List α} {P Q : α → Prop} {a b : α}

theorem congr (h : IsRoster key l P) (hPQ : ∀ a, P a ↔ Q a) : IsRoster key l Q :=
  ⟨h.nodup, fun a ↦ (h.mem a).trans (hPQ a)⟩

theorem nil (h : ∀ a, ¬ P a) : IsRoster key [] P := ⟨.nil, fun a ↦ iff_of_false not_mem_nil (h a)⟩

section

variable (h : IsRoster key l P)
include h

theorem perm (h' : IsRoster key l' P) : l.Perm l' :=
  (perm_ext_iff_of_nodup (.of_map key h.nodup) (.of_map key h'.nodup)).2 fun a ↦
    (h.mem a).trans (h'.mem a).symm

theorem of_perm (hperm : l'.Perm l) : IsRoster key l' P :=
  ⟨(hperm.map key).nodup_iff.2 h.nodup, fun a ↦ hperm.mem_iff.trans (h.mem a)⟩

theorem append (hnew : ∀ b, P b → key b ≠ key a) :
    IsRoster key (l ++ [a]) (fun b ↦ P b ∨ b = a) := by
  constructor
  · rw [map_append, nodup_append]
    refine ⟨h.nodup, nodup_singleton _, ?_⟩
    rintro k hk _ hk' rfl
    obtain ⟨b, hb, rfl⟩ := mem_map.1 hk
    exact hnew b ((h.mem b).1 hb) (mem_singleton.1 hk')
  · intro b
    rw [mem_append, mem_singleton, h.mem]

theorem map {key' : β → κ} (f : α → β) (hkey : ∀ a, P a → key' (f a) = key a) :
    IsRoster key' (l.map f) (fun b ↦ ∃ a, P a ∧ f a = b) := by
  constructor
  · have hmap : (l.map f).map key' = l.map key := by
      rw [map_map]
      exact map_congr_left fun a ha ↦ hkey a ((h.mem a).1 ha)
    rw [hmap]
    exact h.nodup
  · intro b
    rw [mem_map]
    exact exists_congr fun a ↦ and_congr_left fun _ ↦ h.mem a

end

variable [DecidableEq κ]

theorem replace (h : IsRoster key l P) :
    IsRoster key (l.map fun b ↦ if key b = key a then a else b)
      (fun b ↦ P b ∧ key b ≠ key a ∨ b = a ∧ ∃ c, P c ∧ key c = key a) := by
  refine (h.map (fun b ↦ if key b = key a then a else b) fun b _ ↦ ?_).congr fun b ↦ ?_
  · split
    · next hkey => exact hkey.symm
    · rfl
  · constructor
    · rintro ⟨c, hc, rfl⟩
      split
      · next hkey => exact .inr ⟨rfl, c, hc, hkey⟩
      · next hkey => exact .inl ⟨hc, hkey⟩
    · rintro (⟨hb, hkey⟩ | ⟨rfl, c, hc, hkey⟩)
      · exact ⟨b, hb, if_neg hkey⟩
      · exact ⟨c, hc, if_pos hkey⟩

theorem put (h : IsRoster key l P) :
    IsRoster key (if l.any (fun b ↦ decide (key b = key a)) then
        l.map fun b ↦ if key b = key a then a else b else l ++ [a])
      (fun b ↦ P b ∧ key b ≠ key a ∨ b = a) := by
  split
  · next hany =>
    obtain ⟨c, hc, hkey⟩ := any_eq_true.1 hany
    refine h.replace.congr fun b ↦ or_congr_right (and_iff_left ?_)
    exact ⟨c, (h.mem c).1 hc, of_decide_eq_true hkey⟩
  · next hany =>
    have hnew : ∀ b, P b → key b ≠ key a := fun b hb hkey ↦
      hany (any_eq_true.2 ⟨b, (h.mem b).2 hb, decide_eq_true hkey⟩)
    refine (h.append hnew).congr fun b ↦ or_congr_left ?_
    exact ⟨fun hb ↦ ⟨hb, hnew b hb⟩, And.left⟩

theorem remove (h : IsRoster key l P) (k : κ) :
    IsRoster key (l.filter fun b ↦ !decide (key b = k)) (fun b ↦ P b ∧ key b ≠ k) := by
  constructor
  · exact (filter_sublist.map key).nodup h.nodup
  · intro b
    simp [h.mem]

end IsRoster

section

variable {α κ : Type} [DecidableEq κ] {key : α → κ} {l : List α}

theorem replaceF_eq_map (h : (l.map key).Nodup) (a : α) (k : κ) :
    (l.replaceF fun b ↦ if key b = k then some a else none) =
      l.map fun b ↦ if key b = k then a else b := by
  induction l with
  | nil => rfl
  | cons b l ih =>
    obtain ⟨hb, hl⟩ := List.nodup_cons.1 h
    rw [List.replaceF, List.map_cons]
    by_cases hkey : key b = k
    · simp only [if_pos hkey]
      have hrest : l.map (fun b ↦ if key b = k then a else b) = l.map id := by
        refine List.map_congr_left fun c hc ↦ if_neg fun hc' ↦ hb ?_
        exact List.mem_map.2 ⟨c, hc, hc'.trans hkey.symm⟩
      rw [hrest, List.map_id]
    · simp only [if_neg hkey, ih hl]

theorem eraseP_eq_filter (h : (l.map key).Nodup) (k : κ) :
    (l.eraseP fun b ↦ decide (key b = k)) = l.filter fun b ↦ !decide (key b = k) := by
  induction l with
  | nil => rfl
  | cons b l ih =>
    obtain ⟨hb, hl⟩ := List.nodup_cons.1 h
    by_cases hkey : key b = k
    · rw [List.eraseP_cons_of_pos (by simpa using hkey),
        List.filter_cons_of_neg (by simpa using hkey)]
      refine (List.filter_eq_self.2 fun c hc ↦ ?_).symm
      have hne : key c ≠ k := fun hc' ↦ hb (List.mem_map.2 ⟨c, hc, hc'.trans hkey.symm⟩)
      simpa using hne
    · rw [List.eraseP_cons_of_neg (by simpa using hkey),
        List.filter_cons_of_pos (by simpa using hkey),
        ih hl]

theorem find?_key_eq_some (h : (l.map key).Nodup) {a : α} {k : κ} :
    (l.find? fun b ↦ decide (key b = k)) = some a ↔ a ∈ l ∧ key a = k := by
  constructor
  · intro ha
    exact ⟨List.mem_of_find?_eq_some ha, by simpa using List.find?_some ha⟩
  · rintro ⟨ha, rfl⟩
    obtain ⟨b, hb⟩ : ∃ b, (l.find? fun b ↦ decide (key b = key a)) = some b := by
      refine Option.ne_none_iff_exists'.1 fun hnone ↦ ?_
      exact List.find?_eq_none.1 hnone a ha (by simp)
    have hkey : key b = key a := by simpa using List.find?_some hb
    rw [hb, List.inj_on_of_nodup_map h (List.mem_of_find?_eq_some hb) ha hkey]

end
