import SsvNode.Registry.Types
import SsvNode.Storage.Pebble

/-!
# Pruning the participants

`removeSlotsOlderThan` of `ibft/storage` counts the slots down from a threshold and **stops at the
first slot without an entry**. So the entries below a gap stay. The counter is unsigned: where all
slots down to `0` have entries it goes on at the largest one.
-/

namespace Ssv.Storage

open List

/-- The key is `uint32` wide. -/
def slotToByteSlice (slot : ℕ) : Bytes := Registry.littleEndian 4 slot

/-- `participantsKey`, the role and the slot; `"pt"` is `0x7074`. -/
def makePrefix (role : UInt8) (slot : Bytes) : Bytes := [0x70, 0x74] ++ [role] ++ slot

namespace Db

variable {db : Db} {role : UInt8} {slot s t : ℕ}

/-- The prefix of a slot, whose entries are its own. -/
abbrev slotPrefix (role : UInt8) (slot : ℕ) : Bytes := makePrefix role (slotToByteSlice slot)

theorem eq_of_slotPrefix {key : Bytes} (hs : s < 2 ^ 32) (ht : t < 2 ^ 32)
    (h : slotPrefix role s <+: key) (h' : slotPrefix role t <+: key) : s = t := by
  have hbytes : slotPrefix role s = slotPrefix role t :=
    (prefix_of_prefix_length_le h h' le_rfl).eq_of_length rfl
  have hbyte (i : ℕ) (hi : i ∈ range 4) : s / 256 ^ i % 256 = t / 256 ^ i % 256 := by
    have hslots : slotToByteSlice s = slotToByteSlice t := append_cancel_left hbytes
    rw [slotToByteSlice, slotToByteSlice, Registry.littleEndian, Registry.littleEndian,
      map_inj_left] at hslots
    simpa using congrArg UInt8.toNat (hslots i hi)
  have := hbyte 0 (by decide)
  have := hbyte 1 (by decide)
  have := hbyte 2 (by decide)
  have := hbyte 3 (by decide)
  simp only [Nat.pow_zero, Nat.div_one] at *
  omega

def HasSlot (db : Db) (role : UInt8) (slot : ℕ) : Prop :=
  ∃ e ∈ db.entries, slotPrefix role slot <+: e.1

variable [Pebble]

theorem countPrefix_eq_zero {pre : Bytes} :
    db.countPrefix pre = 0 ↔ ¬ ∃ e ∈ db.entries, pre <+: e.1 := by
  simp [countPrefix, iter_eq]

theorem length_dropPrefix_lt {pre : Bytes} (h : db.countPrefix pre ≠ 0) :
    (db.dropPrefix pre).entries.length < db.entries.length := by
  rw [entries_dropPrefix]
  refine lt_of_le_of_ne (length_filter_le _ _) fun heq ↦ h (countPrefix_eq_zero.2 ?_)
  simpa using length_filter_eq_length_iff.1 heq

/-- The loop of `Prune`, which counts what it removes. -/
def removeSlotsOlderThan (role : UInt8) (slot : ℕ) (db : Db) : Db × ℕ :=
  let slot := if slot = 0 then 2 ^ 64 - 1 else slot - 1
  let pre := makePrefix role (slotToByteSlice slot)
  if db.countPrefix pre = 0 then (db, 0)
  else
    let rest := removeSlotsOlderThan role slot (db.dropPrefix pre)
    (rest.1, rest.2 + db.countPrefix pre)
termination_by db.entries.length
decreasing_by exact length_dropPrefix_lt ‹_›

/-- What remains are the entries of no slot below the threshold. -/
def PrunedTo (role : UInt8) (t : ℕ) (db db' : Db) : Prop :=
  db'.entries = db.entries.filter fun e ↦ ∀ s < t, ¬ slotPrefix role s <+: e.1

/-- No slot below the threshold is missing between others, and the counter does not wrap around. -/
def Contiguous (role : UInt8) (t : ℕ) (db : Db) : Prop :=
  (∀ s < t, db.HasSlot role s → ∀ s' < t, s ≤ s' → db.HasSlot role s') ∧
  ¬ ((∀ s < t, db.HasSlot role s) ∧ db.HasSlot role (2 ^ 32 - 1))

theorem hasSlot_dropPrefix (hs : s < 2 ^ 32) (ht : t < 2 ^ 32) (hne : s ≠ t) :
    (db.dropPrefix (slotPrefix role t)).HasSlot role s ↔ db.HasSlot role s := by
  unfold HasSlot
  rw [entries_dropPrefix]
  simp only [mem_filter, decide_eq_true_eq]
  refine exists_congr fun e ↦ ⟨fun h ↦ ⟨h.1.1, h.2⟩, fun h ↦ ⟨⟨h.1, fun h' ↦ hne ?_⟩, h.2⟩⟩
  exact eq_of_slotPrefix hs ht h.2 h'

theorem length_removeSlotsOlderThan_le (role : UInt8) (slot : ℕ) (db : Db) :
    (db.removeSlotsOlderThan role slot).1.entries.length ≤ db.entries.length := by
  fun_induction removeSlotsOlderThan role slot db with
  | case1 => rfl
  | case2 _ _ _ _ hcount _ ih => exact ih.trans (length_dropPrefix_lt hcount).le

theorem prunedTo_iff (ht : t < 2 ^ 32) :
    db.PrunedTo role t (db.removeSlotsOlderThan role t).1 ↔ db.Contiguous role t := by
  induction t generalizing db with
  | zero =>
    rw [removeSlotsOlderThan]
    dsimp only
    rw [if_pos rfl, show slotToByteSlice (2 ^ 64 - 1) = slotToByteSlice (2 ^ 32 - 1) by decide]
    split
    · next hcount =>
      exact iff_of_true (by simp [PrunedTo]) ⟨nofun, fun h ↦ countPrefix_eq_zero.1 hcount h.2⟩
    · next hcount =>
      refine iff_of_false (fun h ↦ ?_) fun h ↦
        h.2 ⟨nofun, not_not.1 (mt countPrefix_eq_zero.2 hcount)⟩
      have hlt := (length_removeSlotsOlderThan_le role (2 ^ 64 - 1) _).trans_lt
        (length_dropPrefix_lt hcount)
      rw [PrunedTo, filter_eq_self.2 (by simp)] at h
      exact hlt.ne (congrArg length h)
  | succ t ih =>
    rw [removeSlotsOlderThan]
    dsimp only
    rw [if_neg t.succ_ne_zero, Nat.add_sub_cancel]
    split
    · next hcount =>
      have hnone : ¬ db.HasSlot role t := countPrefix_eq_zero.1 hcount
      rw [PrunedTo, eq_comm, filter_eq_self]
      constructor
      · intro h
        refine ⟨fun s hs ⟨e, he, hpre⟩ ↦ ?_, fun hall ↦ hnone (hall.1 t t.lt_succ_self)⟩
        exact absurd hpre (of_decide_eq_true (h e he) s hs)
      · rintro ⟨hgap, -⟩ e he
        refine decide_eq_true fun s hs hpre ↦ hnone ?_
        exact hgap s hs ⟨e, he, hpre⟩ t t.lt_succ_self (Nat.le_of_lt_succ hs)
    · next hcount =>
      have hsome : db.HasSlot role t := not_not.1 (mt countPrefix_eq_zero.2 hcount)
      have hlt := (Nat.lt_succ_self t).trans ht
      have hslot (s : ℕ) (hs : s < 2 ^ 32) (hne : s ≠ t) :
          (db.dropPrefix (slotPrefix role t)).HasSlot role s ↔ db.HasSlot role s :=
        hasSlot_dropPrefix hs hlt hne
      have hpruned := @ih (db.dropPrefix (slotPrefix role t)) hlt
      rw [PrunedTo, entries_dropPrefix, filter_filter] at hpruned
      refine Iff.trans (Eq.congr_right (filter_congr fun e _ ↦ ?_)) (hpruned.trans ?_)
      · rw [Bool.eq_iff_iff]
        simp only [decide_eq_true_eq, Bool.and_eq_true, Nat.forall_lt_succ_right]
      · unfold Contiguous
        grind

/-- **Pruning is exact where the slots below the threshold are contiguous**, and only there. -/
theorem prune_exact_iff (role : UInt8) (threshold : UInt32) (db : Db) :
    db.PrunedTo role threshold.toNat (db.removeSlotsOlderThan role threshold.toNat).1 ↔
      db.Contiguous role threshold.toNat :=
  prunedTo_iff threshold.toNat_lt

end Db

namespace Reference

open Db

/-- Pebble as documented, over lists. -/
local instance pebble : Pebble where
  newIter db lower upper := db.entries.filter fun e ↦ lower ≤ e.1 && upper.all fun bound ↦
    e.1 < bound
  commit db keys := ⟨db.entries.filter (·.1 ∉ keys), db.sorted.sublist (filter_sublist.map _)⟩
  newIter_eq _ _ _ := rfl
  entries_commit _ _ := rfl

/-- The store has entries at slots 1 and 3, and is pruned to slot 4. -/
def gap : Db := ⟨[(slotPrefix 0 1, []), (slotPrefix 0 3, [])], by decide⟩

/-- The entry of slot 1 stays. -/
theorem gap_not_pruned : (gap.removeSlotsOlderThan 0 4).1.entries = [(slotPrefix 0 1, [])] ∧
    ¬ gap.PrunedTo 0 4 (gap.removeSlotsOlderThan 0 4).1 := by
  have hresult : (gap.removeSlotsOlderThan 0 4).1.entries = [(slotPrefix 0 1, [])] := by
    rw [removeSlotsOlderThan, if_neg (by decide), removeSlotsOlderThan, if_pos (by decide)]
    decide
  refine ⟨hresult, ?_⟩
  rw [PrunedTo, hresult]
  decide

end Reference

end Ssv.Storage
