import Mathlib.Data.List.AList

/-!
# Maps that are iterated in no particular order

A Go map is iterated in an order that is **not specified**. `GoMap` has its entries in some order,
and code that ranges over it takes a `MapOrder`, any permutation of entries. `purge` deletes the
entries that fail a check. A loop that writes entries leaves the last one for each key
(`lookup_foldl_insert`, `foldl_update_apply`).
-/

abbrev GoMap (κ ν : Type) : Type := AList fun _ : κ ↦ ν

/-- An order in which a `range` goes through the entries of a map. -/
structure MapOrder (α : Type) where
  iterate : List α → List α
  perm : ∀ l, (iterate l).Perm l

namespace MapOrder

open List Function AList Option

variable {α : Type} (o : MapOrder α)

/-- The order in which the entries are stored. -/
def stored : MapOrder α := ⟨id, fun l ↦ .refl l⟩

@[simp] theorem mem_iterate {l : List α} {a : α} : a ∈ o.iterate l ↔ a ∈ l := (o.perm l).mem_iff

@[simp] theorem length_iterate {l : List α} : (o.iterate l).length = l.length :=
  (o.perm l).length_eq

end MapOrder

namespace GoMap

variable {κ ν : Type} [DecidableEq κ]

omit [DecidableEq κ] in
def len (m : GoMap κ ν) : ℕ := m.keys.length

variable {m : GoMap κ ν} {k : κ} {v : ν}

theorem length_le_len {l : List κ} (hl : l.Nodup)
    (h : ∀ k ∈ l, (m.lookup k).isSome) : l.length ≤ m.len :=
  (List.subperm_of_subset hl fun k hk ↦ AList.lookup_isSome.1 (h k hk)).length_le

theorem len_le_len {m' : GoMap κ ν} (h : ∀ k, (m'.lookup k).isSome → (m.lookup k).isSome) :
    m'.len ≤ m.len :=
  length_le_len m'.keys_nodup fun k hk ↦ h k (AList.lookup_isSome.2 hk)

def purgeStep (ok : κ → ν → Bool) (m : GoMap κ ν) (e : (_ : κ) × ν) : GoMap κ ν :=
  if ok e.1 e.2 then m else m.erase e.1

/-- Delete every entry that fails a check. -/
def purge (ok : κ → ν → Bool) (m : GoMap κ ν) : GoMap κ ν := m.entries.foldl (purgeStep ok) m

variable {ok : κ → ν → Bool}

theorem lookup_purgeStep {e : (_ : κ) × ν} :
    (purgeStep ok m e).lookup k = if e.1 = k ∧ ok e.1 e.2 = false then none else m.lookup k := by
  unfold purgeStep
  by_cases hok : ok e.1 e.2
  · simp [hok]
  · by_cases hk : e.1 = k
    · subst hk
      simp [hok]
    · simp [hk, hok, AList.lookup_erase_ne (Ne.symm hk)]

theorem lookup_foldl_purgeStep {l : List ((_ : κ) × ν)} : (l.foldl (purgeStep ok) m).lookup k =
      if l.any fun e ↦ decide (e.1 = k ∧ ok e.1 e.2 = false) then none else m.lookup k := by
  induction l generalizing m with
  | nil => rfl
  | cons e l ih =>
    rw [List.foldl_cons, ih, lookup_purgeStep, List.any_cons]
    by_cases he : e.1 = k ∧ ok e.1 e.2 = false
    · rw [if_pos he, decide_eq_true he, Bool.true_or, if_pos rfl, ite_self]
    · rw [if_neg he, decide_eq_false he, Bool.false_or]

/-- **The entries that pass the check are left.** -/
theorem lookup_purge : (m.purge ok).lookup k = (m.lookup k).filter (ok k) := by
  have hany : (m.entries.any fun e ↦ decide (e.1 = k ∧ ok e.1 e.2 = false)) ↔
      ∃ v, m.lookup k = some v ∧ ok k v = false := by
    rw [List.any_eq_true]
    constructor
    · rintro ⟨⟨k', v⟩, he, hfails⟩
      obtain ⟨rfl, hv⟩ := of_decide_eq_true hfails
      exact ⟨v, AList.mem_lookup_iff.2 he, hv⟩
    · rintro ⟨v, hk, hv⟩
      exact ⟨⟨k, v⟩, AList.mem_lookup_iff.1 hk, decide_eq_true ⟨rfl, hv⟩⟩
  rw [purge, lookup_foldl_purgeStep]
  rcases hk : m.lookup k with - | v
  · rw [ite_self]
    rfl
  · rw [Option.filter_some]
    rcases hv : ok k v with - | -
    · rw [if_pos (hany.2 ⟨v, hk, hv⟩)]
      rfl
    · rw [if_neg fun h ↦ ?_]
      · rfl
      · obtain ⟨v', hk', hv'⟩ := hany.1 h
        obtain rfl := Option.some.inj (hk.symm.trans hk')
        exact absurd (hv.symm.trans hv') (by decide)

theorem lookup_purge_eq_some : (m.purge ok).lookup k = some v ↔ m.lookup k = some v ∧ ok k v := by
  rw [lookup_purge, Option.filter_eq_some_iff]

theorem isSome_of_lookup_purge (h : ((m.purge ok).lookup k).isSome) : (m.lookup k).isSome := by
  obtain ⟨v, hv⟩ := Option.isSome_iff_exists.1 h
  rw [(lookup_purge_eq_some.1 hv).1]
  rfl

theorem len_purge_le : (m.purge ok).len ≤ m.len := len_le_len fun _ ↦ isSome_of_lookup_purge

theorem ok_of_len_purge_eq (h : (m.purge ok).len = m.len) (hk : m.lookup k = some v) : ok k v := by
  by_contra hv
  have hgone : k ∉ m.purge ok := AList.lookup_eq_none.1 <| by
    rw [lookup_purge, hk, Option.filter_some, if_neg hv]
  -- the keys that are left, and `k`, are distinct keys of `m`
  have hle : (k :: (m.purge ok).keys).length ≤ m.len := by
    refine length_le_len (List.nodup_cons.2 ⟨hgone, (m.purge ok).keys_nodup⟩) fun k' hk' ↦ ?_
    rcases List.mem_cons.1 hk' with rfl | hk'
    · rw [hk]
      rfl
    · exact isSome_of_lookup_purge (AList.lookup_isSome.2 hk')
  rw [List.length_cons] at hle
  unfold len at h hle
  omega

theorem purge_eq_self (h : ∀ k v, m.lookup k = some v → ok k v) : m.purge ok = m := by
  have hstep : ∀ l : List ((_ : κ) × ν), (∀ e ∈ l, ok e.1 e.2) → l.foldl (purgeStep ok) m = m := by
    intro l hl
    induction l with
    | nil => rfl
    | cons e l ih =>
      rw [List.foldl_cons, purgeStep, if_pos (hl e List.mem_cons_self)]
      exact ih fun e' he' ↦ hl e' (.tail _ he')
  exact hstep m.entries fun e he ↦ h e.1 e.2 (AList.mem_lookup_iff.2 he)

theorem len_purge : (m.purge ok).len = (m.entries.filter fun e ↦ ok e.1 e.2).length := by
  have hkeys : (m.purge ok).keys.Perm ((m.entries.filter fun e ↦ ok e.1 e.2).map Sigma.fst) := by
    refine (List.perm_ext_iff_of_nodup (m.purge ok).keys_nodup ?_).2 fun k ↦ ?_
    · exact (List.filter_sublist.map Sigma.fst).nodup m.keys_nodup
    · rw [← AList.mem_keys, ← AList.lookup_isSome, Option.isSome_iff_exists, List.mem_map]
      constructor
      · rintro ⟨v, hv⟩
        obtain ⟨hlookup, hok⟩ := lookup_purge_eq_some.1 hv
        exact ⟨⟨k, v⟩, List.mem_filter.2 ⟨AList.mem_lookup_iff.1 hlookup, hok⟩, rfl⟩
      · rintro ⟨⟨k', v⟩, he, rfl⟩
        obtain ⟨hmem, hok⟩ := List.mem_filter.1 he
        exact ⟨v, lookup_purge_eq_some.2 ⟨AList.mem_lookup_iff.2 hmem, hok⟩⟩
  rw [len, hkeys.length_eq, List.length_map]

omit [DecidableEq κ] in
def mapVal (f : κ → ν → ν) (m : GoMap κ ν) : GoMap κ ν where
  entries := m.entries.map fun e ↦ ⟨e.1, f e.1 e.2⟩
  nodupKeys := by
    have hkeys : (m.entries.map fun e ↦ (⟨e.1, f e.1 e.2⟩ : (_ : κ) × ν)).keys = m.keys := by
      simp [List.keys, AList.keys, Function.comp_def]
    rw [List.NodupKeys, hkeys]
    exact m.keys_nodup

theorem lookup_mapVal {f : κ → ν → ν} : (m.mapVal f).lookup k = (m.lookup k).map (f k) := by
  ext v
  rw [← Option.mem_def, AList.mem_lookup_iff, Option.map_eq_some_iff]
  constructor
  · intro h
    obtain ⟨⟨k', v'⟩, he, heq⟩ := List.mem_map.1 h
    obtain ⟨rfl, rfl⟩ : k' = k ∧ f k' v' = v := by simpa using heq
    exact ⟨v', AList.mem_lookup_iff.2 he, rfl⟩
  · rintro ⟨v', hv', rfl⟩
    exact List.mem_map.2 ⟨⟨k, v'⟩, AList.mem_lookup_iff.1 hv', rfl⟩

/-! ### Loops that write -/

variable {α : Type} {key : α → κ} {val : α → ν}

theorem lookup_foldl_insert (l : List α) (m : GoMap κ ν) (k : κ) :
    (l.foldl (fun m a ↦ m.insert (key a) (val a)) m).lookup k =
      ((l.reverse.find? fun a ↦ decide (key a = k)).map val).or (m.lookup k) := by
  induction l generalizing m with
  | nil => rfl
  | cons a l ih =>
    rw [List.foldl_cons, ih, List.reverse_cons, List.find?_append]
    cases l.reverse.find? fun a ↦ decide (key a = k) with
    | some => rfl
    | none =>
      by_cases hk : key a = k
      · subst hk
        simp
      · simp [hk, AList.lookup_insert_ne (Ne.symm hk)]

variable {l : List α}

/-- What is found was written, or was there before. -/
theorem lookup_foldl_insert_cases {m : GoMap κ ν}
    (h : (l.foldl (fun m a ↦ m.insert (key a) (val a)) m).lookup k = some v) :
    (∃ a ∈ l, key a = k ∧ val a = v) ∨ m.lookup k = some v := by
  rw [lookup_foldl_insert, Option.or_eq_some_iff, Option.map_eq_some_iff] at h
  rcases h with ⟨a, ha, rfl⟩ | ⟨-, h⟩
  · have hkey : key a = k := by simpa using List.find?_some ha
    exact .inl ⟨a, List.mem_reverse.1 (List.mem_of_find?_eq_some ha), hkey, rfl⟩
  · exact .inr h

/-- A key that is not written keeps its value. -/
theorem lookup_foldl_insert_of_ne (m : GoMap κ ν) (h : ∀ a ∈ l, key a ≠ k) :
    (l.foldl (fun m a ↦ m.insert (key a) (val a)) m).lookup k = m.lookup k := by
  have hnone : (l.reverse.find? fun a ↦ decide (key a = k)) = none := by simpa using h
  rw [lookup_foldl_insert, hnone, Option.map_none, Option.none_or]

variable (key val) in
/-- Where the keys determine the values, every write is found. -/
theorem lookup_foldl_insert_of_mem (m : GoMap κ ν) {a : α} (ha : a ∈ l)
    (h : ∀ b ∈ l, key b = key a → val b = val a) :
    (l.foldl (fun m a ↦ m.insert (key a) (val a)) m).lookup (key a) = some (val a) := by
  rw [lookup_foldl_insert]
  cases hfind : l.reverse.find? fun b ↦ decide (key b = key a) with
  | none => exact absurd (List.find?_eq_none.1 hfind a (List.mem_reverse.2 ha)) (by simp)
  | some b =>
    have hkey : key b = key a := by simpa using List.find?_some hfind
    rw [Option.map_some, h b (List.mem_reverse.1 (List.mem_of_find?_eq_some hfind)) hkey,
      Option.some_or]

theorem foldl_update_apply (l : List α) (m : κ → Option ν) (k : κ) :
    (l.foldl (fun m a ↦ Function.update m (key a) (some (val a))) m) k =
      ((l.reverse.find? fun a ↦ decide (key a = k)).map val).or (m k) := by
  induction l generalizing m with
  | nil => rfl
  | cons a l ih =>
    rw [List.foldl_cons, ih, List.reverse_cons, List.find?_append]
    cases l.reverse.find? fun a ↦ decide (key a = k) with
    | some => rfl
    | none =>
      by_cases hk : key a = k
      · subst hk
        simp
      · simp [hk, Function.update_of_ne (Ne.symm hk)]

/-- Where the keys determine the values, the order of the writes does not matter. -/
theorem foldl_update_eq_some (h : ∀ a ∈ l, ∀ b ∈ l, key a = key b → val a = val b) :
    (l.foldl (fun m a ↦ Function.update m (key a) (some (val a))) fun _ ↦ none) k = some v ↔
      ∃ a ∈ l, key a = k ∧ val a = v := by
  rw [foldl_update_apply, Option.or_none, Option.map_eq_some_iff]
  constructor
  · rintro ⟨a, ha, rfl⟩
    have hkey : key a = k := by simpa using List.find?_some ha
    exact ⟨a, List.mem_reverse.1 (List.mem_of_find?_eq_some ha), hkey, rfl⟩
  · rintro ⟨a, ha, rfl, rfl⟩
    obtain ⟨b, hb⟩ : ∃ b, (l.reverse.find? fun b ↦ decide (key b = key a)) = some b := by
      refine Option.ne_none_iff_exists'.1 fun hnone ↦ ?_
      exact List.find?_eq_none.1 hnone a (List.mem_reverse.2 ha) (by simp)
    have hkey : key b = key a := by simpa using List.find?_some hb
    exact ⟨b, hb, h b (List.mem_reverse.1 (List.mem_of_find?_eq_some hb)) a ha hkey⟩

end GoMap
