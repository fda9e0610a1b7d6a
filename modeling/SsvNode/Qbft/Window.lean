import SsvNode.Qbft.Controller

/-!
# The controller's window of instances

With strictly decreasing heights an instance is found exactly when it is in the window
(`findInstance_eq_some_iff`). Storing back a changed instance touches nothing else (`mem_set`), and
what is missing after an instance was added is below something that is still there
(`mem_or_lt_of_addNewInstance`).
-/

namespace Ssv

open List

variable [SsvSpec]

namespace Instances

variable {ic : Instances} {inst inst' x : Instance} {h : ℕ}

def Ordered (ic : Instances) : Prop := (ic.items.map (·.getHeight)).Pairwise (· > ·)

theorem Ordered.eq_of_height (hic : ic.Ordered) (hx : x ∈ ic.items) (hi : inst ∈ ic.items)
    (heq : x.getHeight = inst.getHeight) : x = inst := by
  have hnodup : (ic.items.map (·.getHeight)).Nodup := hic.imp fun h ↦ ne_of_gt h
  exact inj_on_of_nodup_map hnodup hx hi heq

theorem findInstance_eq_some_iff (hic : ic.Ordered) :
    ic.findInstance h = some inst ↔ inst ∈ ic.items ∧ inst.getHeight = h := by
  unfold findInstance
  constructor
  · intro hf
    exact ⟨mem_of_find?_eq_some hf, by simpa using find?_some hf⟩
  · rintro ⟨hmem, rfl⟩
    obtain ⟨y, hf⟩ : ∃ y, ic.items.find? (fun i ↦ decide (i.getHeight = inst.getHeight)) = some y :=
      Option.isSome_iff_exists.1 (find?_isSome.2 ⟨inst, hmem, by simp⟩)
    have hy : y.getHeight = inst.getHeight := by simpa using find?_some hf
    rw [hf, hic.eq_of_height (mem_of_find?_eq_some hf) hmem hy]

theorem findInstance_eq_none_iff : ic.findInstance h = none ↔ ∀ x ∈ ic.items, x.getHeight ≠ h := by
  simp [findInstance]

/-! ### Storing back -/

variable {l : List Instance}

theorem heights_replaceFirst : (replaceFirst inst l).map (·.getHeight) = l.map (·.getHeight) := by
  induction l with
  | nil => rfl
  | cons e l ih =>
    unfold replaceFirst
    split
    · rename_i he
      simp [he]
    · simp [ih]

theorem Ordered.set (hic : ic.Ordered) (inst : Instance) : (ic.set inst).Ordered := by
  unfold Ordered Instances.set
  rw [heights_replaceFirst]
  exact hic

theorem mem_replaceFirst (hl : (l.map (·.getHeight)).Nodup)
    (hmem : ∃ e ∈ l, e.getHeight = inst.getHeight) :
    x ∈ replaceFirst inst l ↔ x = inst ∨ (x ∈ l ∧ x.getHeight ≠ inst.getHeight) := by
  induction l with
  | nil => simp at hmem
  | cons e l ih =>
    rw [map_cons, nodup_cons] at hl
    unfold replaceFirst
    by_cases he : e.getHeight = inst.getHeight
    · -- the one to replace is in front; heights are distinct, so it is the only one
      have hrest : ∀ y ∈ l, y.getHeight ≠ inst.getHeight := fun y hy hyh ↦
        hl.1 (mem_map.2 ⟨y, hy, by rw [hyh, he]⟩)
      simp only [he, if_true, mem_cons]
      constructor
      · rintro (rfl | hx)
        · exact .inl rfl
        · exact .inr ⟨.inr hx, hrest x hx⟩
      · rintro (rfl | ⟨rfl | hx, hne⟩)
        · exact .inl rfl
        · exact absurd he hne
        · exact .inr hx
    · have hmem' : ∃ y ∈ l, y.getHeight = inst.getHeight := by
        obtain ⟨y, hy, hyh⟩ := hmem
        rcases mem_cons.1 hy with rfl | hy
        · exact absurd hyh he
        · exact ⟨y, hy, hyh⟩
      simp only [he, if_false, mem_cons, ih hl.2 hmem']
      constructor
      · rintro (rfl | rfl | ⟨hx, hne⟩)
        · exact .inr ⟨.inl rfl, he⟩
        · exact .inl rfl
        · exact .inr ⟨.inr hx, hne⟩
      · rintro (rfl | ⟨rfl | hx, hne⟩)
        · exact .inr (.inl rfl)
        · exact .inl rfl
        · exact .inr (.inr ⟨hx, hne⟩)

theorem mem_set (hic : ic.Ordered) (hinst : inst ∈ ic.items)
    (heq : inst'.getHeight = inst.getHeight) :
    x ∈ (ic.set inst').items ↔ x = inst' ∨ (x ∈ ic.items ∧ x.getHeight ≠ inst'.getHeight) :=
  mem_replaceFirst (hic.imp fun h ↦ ne_of_gt h) ⟨inst, hinst, heq.symm⟩

theorem set_of_findInstance (hfound : ic.findInstance h = some inst) : ic.set inst = ic := by
  obtain ⟨items, cap⟩ := ic
  have hitems : replaceFirst inst items = items := by
    induction items with
    | nil => rfl
    | cons x rest ih =>
      have hh : inst.getHeight = h := by simpa using find?_some hfound
      unfold findInstance at hfound
      unfold replaceFirst
      split
      · rename_i heq
        rw [find?_cons_of_pos (by simpa using heq.trans hh)] at hfound
        rw [Option.some.inj hfound]
      · rename_i hne
        rw [find?_cons_of_neg (by simpa [← hh] using hne)] at hfound
        rw [ih hfound]
  exact congrArg (Instances.mk · cap) hitems

/-! ### Adding an instance -/

theorem mem_insertByHeight : x ∈ insertByHeight inst l ↔ x = inst ∨ x ∈ l := by
  induction l with
  | nil => simp [insertByHeight]
  | cons e l ih =>
    unfold insertByHeight
    split
    · simp
    · simp only [mem_cons, ih]
      tauto

theorem pairwise_insertByHeight (hl : (l.map (·.getHeight)).Pairwise (· > ·))
    (hnew : ∀ x ∈ l, x.getHeight ≠ inst.getHeight) :
    ((insertByHeight inst l).map (·.getHeight)).Pairwise (· > ·) := by
  induction l with
  | nil => simp [insertByHeight]
  | cons e l ih =>
    rw [map_cons, pairwise_cons] at hl
    have hgt : ∀ y ∈ l, e.getHeight > y.getHeight := fun y hy ↦ hl.1 _ (mem_map.2 ⟨y, hy, rfl⟩)
    unfold insertByHeight
    split
    · rename_i hlt
      rw [map_cons, pairwise_cons]
      refine ⟨?_, by rw [map_cons, pairwise_cons]; exact hl⟩
      intro k hk
      obtain ⟨y, hy, rfl⟩ := mem_map.1 hk
      rcases mem_cons.1 hy with rfl | hy
      · exact hlt
      · exact lt_trans (hgt y hy) hlt
    · rename_i hnlt
      have hne := hnew e (by simp)
      rw [map_cons, pairwise_cons]
      refine ⟨?_, ih hl.2 fun y hy ↦ hnew y (by simp [hy])⟩
      intro k hk
      obtain ⟨y, hy, rfl⟩ := mem_map.1 hk
      rcases mem_insertByHeight.1 hy with rfl | hy
      · show y.getHeight < e.getHeight
        omega
      · exact hgt y hy

theorem addNewInstance_cap : (ic.addNewInstance inst).cap =
    if ic.cap = 0 then defaultCapacity else ic.cap := rfl

theorem Ordered.addNewInstance (hic : ic.Ordered)
    (hnew : ∀ x ∈ ic.items, x.getHeight ≠ inst.getHeight) : (ic.addNewInstance inst).Ordered := by
  unfold Ordered Instances.addNewInstance
  rw [map_take]
  exact (pairwise_insertByHeight hic hnew).sublist (take_sublist _ _)

theorem mem_of_mem_addNewInstance (hx : x ∈ (ic.addNewInstance inst).items) :
    x = inst ∨ x ∈ ic.items :=
  mem_insertByHeight.1 (mem_of_mem_take hx)

theorem lt_head_of_not_mem_take {n : ℕ} {e : Instance}
    (hl : ((e :: l).map (·.getHeight)).Pairwise (· > ·)) (hn : 0 < n) (hx : x ∈ e :: l)
    (hdrop : x ∉ (e :: l).take n) : x.getHeight < e.getHeight := by
  obtain ⟨k, rfl⟩ : ∃ k, n = k + 1 := ⟨n - 1, by omega⟩
  rw [take_succ_cons, mem_cons] at hdrop
  rcases mem_cons.1 hx with rfl | hx
  · exact absurd (.inl rfl) hdrop
  · rw [map_cons, pairwise_cons] at hl
    exact hl.1 _ (mem_map.2 ⟨x, hx, rfl⟩)

theorem mem_or_lt_of_addNewInstance (hic : ic.Ordered)
    (hnew : ∀ x ∈ ic.items, x.getHeight ≠ inst.getHeight) (hx : x = inst ∨ x ∈ ic.items) :
    x ∈ (ic.addNewInstance inst).items ∨
      ∃ y ∈ (ic.addNewInstance inst).items, x.getHeight < y.getHeight := by
  have hcap : 0 < (ic.addNewInstance inst).cap := by
    rw [addNewInstance_cap]
    split
    · decide
    · omega
  have hpair := pairwise_insertByHeight hic hnew
  have hmem := mem_insertByHeight.2 hx
  by_cases hin : x ∈ (ic.addNewInstance inst).items
  · exact .inl hin
  · right
    rcases hl : insertByHeight inst ic.items with - | ⟨e, l⟩
    · simp [hl] at hmem
    · rw [hl] at hpair hmem
      have hitems : (ic.addNewInstance inst).items = (e :: l).take
          (ic.addNewInstance inst).cap := by
        rw [← hl]
        rfl
      rw [hitems] at hin ⊢
      refine ⟨e, ?_, lt_head_of_not_mem_take hpair hcap hmem hin⟩
      obtain ⟨k, hk⟩ : ∃ k, (ic.addNewInstance inst).cap = k + 1 :=
        ⟨(ic.addNewInstance inst).cap - 1, by omega⟩
      rw [hk, take_succ_cons]
      exact .head _

end Instances

end Ssv
