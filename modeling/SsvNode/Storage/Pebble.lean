import SsvNode.Spec.Messages
import Mathlib.Data.List.Lex
import Mathlib.Data.List.DropRight

/-!
# Prefixes of keys as ranges

`storage/pebble` reads the keys with a prefix by an iterator over a **range**: from the prefix to
the prefix with its last byte incremented, where bytes `0xff` at the end are cut off; if nothing is
left there is no bound. What Pebble does is a parameter with its documented laws (`Pebble`). Faults
of the disk are left out.
-/

namespace Ssv.Storage

open List

/-- `keyUpperBound`: from the last byte to the first that does not overflow. -/
def keyUpperBound : Bytes → Option Bytes
  | [] => none
  | b :: rest =>
    match keyUpperBound rest with
    | some bound => some (b :: bound)
    | none => if b + 1 = 0 then none else some [b + 1]

/-- The keys of the iterator that `makePrefixIter` opens. -/
def inRange (pre key : Bytes) : Bool := pre ≤ key && (keyUpperBound pre).all fun bound ↦ key < bound

theorem not_lt_of_add_one_eq_zero {b k : UInt8} (h : b + 1 = 0) : ¬ b < k := by
  have hk := k.toNat_lt
  have hb : (b.toNat + 1) % 256 = 0 := by simpa using congrArg UInt8.toNat h
  rw [UInt8.lt_iff_toNat_lt]
  omega

theorem lt_add_one_iff {b k : UInt8} (h : b + 1 ≠ 0) : k < b + 1 ↔ ¬ b < k := by
  have hb := b.toNat_lt
  have hne : (b.toNat + 1) % 256 ≠ 0 := fun h0 ↦ h (UInt8.toNat_inj.1 (by simpa using h0))
  rw [UInt8.lt_iff_toNat_lt, UInt8.lt_iff_toNat_lt, UInt8.toNat_add]
  simp only [UInt8.reduceToNat, Nat.reducePow]
  omega

/-- **The range holds exactly the keys with the prefix**, by induction on the prefix. -/
theorem inRange_iff {pre key : Bytes} : inRange pre key ↔ pre <+: key := by
  induction pre generalizing key with
  | nil => simp [inRange, keyUpperBound]
  | cons b rest ih =>
    cases key with
    | nil => simp [inRange]
    | cons k ks =>
      have hle : b :: rest ≤ k :: ks ↔ b < k ∨ b = k ∧ rest ≤ ks := cons_le_cons_iff
      have hih := @ih ks
      simp only [inRange, keyUpperBound, Bool.and_eq_true, decide_eq_true_eq, cons_prefix_cons, hle]
        at hih ⊢
      cases hbound : keyUpperBound rest with
      | some bound =>
        simp only [hbound, Option.all_some, decide_eq_true_eq, cons_lt_cons_iff] at hih ⊢
        rw [← hih]
        constructor
        · rintro ⟨h | ⟨rfl, hrest⟩, h' | ⟨h', hks⟩⟩
          · exact absurd h (UInt8.lt_asymm h')
          · exact absurd h (h' ▸ UInt8.lt_irrefl _)
          · exact absurd h' (UInt8.lt_irrefl _)
          · exact ⟨rfl, hrest, hks⟩
        · rintro ⟨rfl, hrest, hks⟩
          exact ⟨.inr ⟨rfl, hrest⟩, .inr ⟨rfl, hks⟩⟩
      | none =>
        -- no bound for the rest: all its bytes are `0xff`, and `b` alone decides
        simp only [hbound, Option.all_none, and_true] at hih ⊢
        rw [← hih]
        split
        · next h => simp [not_lt_of_add_one_eq_zero h]
        · next h =>
          have hlt : k :: ks < [b + 1] ↔ ¬ b < k := by simp [cons_lt_cons_iff, lt_add_one_iff h]
          simp only [Option.all_some, decide_eq_true_eq, hlt]
          constructor
          · rintro ⟨hbk | hrest, hnot⟩
            · exact absurd hbk hnot
            · exact hrest
          · rintro ⟨rfl, hrest⟩
            exact ⟨.inr ⟨rfl, hrest⟩, UInt8.lt_irrefl b⟩

/-! ### The database -/

/-- The content of a database, in the order of its keys. -/
structure Db where
  entries : List (Bytes × Bytes)
  sorted : (entries.map (·.1)).Pairwise (· < ·)

/-- What is called of Pebble. -/
class Pebble where
  /-- The pairs that an iterator with these bounds goes through. -/
  newIter : Db → Bytes → Option Bytes → List (Bytes × Bytes)
  /-- The commit of a batch of deletions. -/
  commit : Db → List Bytes → Db
  /-- An iterator visits the keys within its bounds, in their order. -/
  newIter_eq (db : Db) (lower : Bytes) (upper : Option Bytes) :
    newIter db lower upper = db.entries.filter fun e ↦ lower ≤ e.1 && upper.all fun bound ↦
      e.1 < bound
  /-- A batch of deletions removes its keys and no other. -/
  entries_commit (db : Db) (keys : List Bytes) :
    (commit db keys).entries = db.entries.filter (·.1 ∉ keys)

namespace Db

variable [Pebble] (db : Db) (pre : Bytes)

/-- What the iterator of `makePrefixIter` goes through. -/
def iter : List (Bytes × Bytes) := Pebble.newIter db pre (keyUpperBound pre)

/-- `GetAll`, through `allGetter`; an error of the callback ends it. -/
def getAll {σ ε : Type} (fn : ℕ → Bytes × Bytes → σ → Except ε σ) (s : σ) : Except ε σ :=
  (db.iter pre).zipIdx.foldlM (fun s e ↦ fn e.2 (e.1.1.drop pre.length, e.1.2) s) s

def countPrefix : ℕ := (db.iter pre).length

/-- `DropPrefix`: a batch that deletes the keys of the iterator. -/
def dropPrefix : Db := Pebble.commit db ((db.iter pre).map (·.1))

variable {db pre}

theorem iter_eq : db.iter pre = db.entries.filter fun e ↦ pre <+: e.1 := by
  rw [iter, Pebble.newIter_eq]
  refine filter_congr fun e _ ↦ ?_
  rw [← inRange, Bool.eq_iff_iff, inRange_iff, decide_eq_true_eq]

theorem entries_dropPrefix :
    (db.dropPrefix pre).entries = db.entries.filter fun e ↦ ¬ pre <+: e.1 := by
  rw [dropPrefix, Pebble.entries_commit, iter_eq]
  refine filter_congr fun e he ↦ decide_eq_decide.2 (not_congr ?_)
  simp only [mem_map, mem_filter, decide_eq_true_eq]
  constructor
  · rintro ⟨e', ⟨_, hpre⟩, heq⟩
    exact heq ▸ hpre
  · exact fun hpre ↦ ⟨e, ⟨he, hpre⟩, rfl⟩

/-- **Prefix ranges are exact**, in `GetAll`, `CountPrefix` and `DropPrefix`. -/
theorem prefix_range_exact (pre : Bytes) : (∀ key, inRange pre key ↔ pre <+: key) ∧ ∀ db : Db,
    (∃ objs : List (Bytes × Bytes), (objs.map (·.1)).Nodup ∧
      (∀ key value, (key, value) ∈ objs ↔ (pre ++ key, value) ∈ db.entries) ∧
      ∀ {σ ε : Type} (fn : ℕ → Bytes × Bytes → σ → Except ε σ) (s : σ),
        db.getAll pre fn s = objs.zipIdx.foldlM (fun s o ↦ fn o.2 o.1 s) s) ∧
    db.countPrefix pre = db.entries.countP (fun e ↦ pre <+: e.1) ∧
    (db.dropPrefix pre).entries = db.entries.filter fun e ↦ ¬ pre <+: e.1 := by
  refine ⟨fun _ ↦ inRange_iff, fun db ↦ ⟨⟨(db.iter pre).map fun e ↦ (e.1.drop pre.length, e.2), ?_,
    ?_, ?_⟩,
    by rw [countPrefix, iter_eq, countP_eq_length_filter], entries_dropPrefix⟩⟩
  · have hkeys : ((db.iter pre).map (·.1)).Nodup := by
      rw [iter_eq]
      refine (db.sorted.imp fun {x y} hlt heq ↦ ?_).sublist (filter_sublist.map _)
      exact List.lt_irrefl _ (heq ▸ hlt)
    rw [map_map, show ((·.1) ∘ fun e : Bytes × Bytes ↦ (e.1.drop pre.length, e.2)) =
      (·.drop pre.length) ∘ (·.1) from rfl, ← map_map]
    refine hkeys.map_on fun x hx y hy h ↦ ?_
    rw [iter_eq] at hx hy
    simp only [mem_map, mem_filter, decide_eq_true_eq] at hx hy
    obtain ⟨_, ⟨_, x', hx'⟩, rfl⟩ := hx
    obtain ⟨_, ⟨_, y', hy'⟩, rfl⟩ := hy
    rw [← hx', ← hy', drop_left, drop_left] at h
    rw [← hx', ← hy', h]
  · intro key value
    rw [iter_eq]
    simp only [mem_map, mem_filter, decide_eq_true_eq, Prod.mk.injEq]
    constructor
    · rintro ⟨⟨_, _⟩, ⟨he, rest, rfl⟩, rfl, rfl⟩
      simpa using he
    · exact fun h ↦ ⟨_, ⟨h, prefix_append _ _⟩, by simp, rfl⟩
  · intro σ ε fn s
    rw [getAll, zipIdx_map, foldlM_map]
    rfl

end Db

end Ssv.Storage
