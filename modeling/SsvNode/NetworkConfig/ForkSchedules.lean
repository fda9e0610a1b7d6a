import Mathlib.Data.Finset.Sort
import SsvNode.Lib.GoMap
import SsvNode.Registry.Types

/-!
# Comparing fork schedules

`assertSameForks` of `networkconfig/beacon.go` goes through the versions in order and returns the
first difference between two clients that is **active**, or else the first of the others: a client
that lags its configuration. The result depends on the set of differing versions only
(`assertSameForks_eq`).
-/

namespace Ssv.NetworkConfig

open List

structure Fork where
  previousVersion : Bytes
  currentVersion : Bytes
  epoch : ℕ
deriving DecidableEq

/-- `FarFutureEpoch`: the fork is named but not scheduled. -/
def farFutureEpoch : ℕ := 2 ^ 64 - 1

/-- `phase0.Fork{Epoch: FarFutureEpoch}`. -/
def unscheduled : Fork := ⟨[0, 0, 0, 0], [0, 0, 0, 0], farFutureEpoch⟩

/-- The forks of a client by their `spec.DataVersion`. -/
abbrev Forks : Type := GoMap ℕ Fork

def describeForkSchedule (fork : Fork) : String :=
  if fork.epoch = farFutureEpoch then "not scheduled"
  else "scheduled at epoch " ++ toString fork.epoch ++ " (version 0x" ++
    Registry.hexEncode fork.currentVersion ++ ")"

/-- The errors of the comparison; `lag` is a `ForkScheduleLagError`. -/
inductive ForkError where
  | different (version : ℕ) (ours theirs : Fork)
  | lag (version : ℕ) (ours theirs : Fork)

namespace ForkError

/-- The error's text, given the names of the versions. -/
def text (name : ℕ → String) : ForkError → String
  | different version ours theirs => "different Forks: " ++ name version ++ " is " ++
      describeForkSchedule ours ++ " on one client and " ++ describeForkSchedule theirs ++
      " on the other"
  | lag version ours theirs =>
    "fork schedules differ ahead of the chain: " ++ name version ++ " is " ++
      describeForkSchedule ours ++ " on one client and " ++ describeForkSchedule theirs ++
      " on the other"

/-- The same class and version, with `Ours` and `Theirs` exchanged. -/
def swap : ForkError → ForkError
  | different version ours theirs => different version theirs ours
  | lag version ours theirs => lag version theirs ours

end ForkError

def schedule (forks : Forks) (version : ℕ) : Fork × Bool :=
  match forks.lookup version with
  | none => (unscheduled, false)
  | some fork => if fork.epoch = farFutureEpoch then (unscheduled, false) else (fork, true)

/-- The loop over the versions, with the first lag so far. -/
def compareForks (ours theirs : Forks) (currentEpoch : ℕ) :
    List ℕ → Option ForkError → Option ForkError
  | [], lag => lag
  | version :: rest, lag =>
    let mine := schedule ours version
    let other := schedule theirs version
    if (!mine.2 && !other.2) || decide (mine.1 = other.1) then
      compareForks ours theirs currentEpoch rest lag
    else if (mine.2 && decide (mine.1.epoch ≤ currentEpoch)) ||
        (other.2 && decide (other.1.epoch ≤ currentEpoch)) then
      some (.different version mine.1 other.1)
    else compareForks ours theirs currentEpoch rest (lag.or (some (.lag version mine.1 other.1)))

def assertSameForks (ours theirs : Forks) (currentEpoch : ℕ) : Option ForkError :=
  compareForks ours theirs currentEpoch (ours.keys.toFinset ∪ theirs.keys.toFinset).sort none

/-! ### The schedules that are compared -/

/-- When a client activates a version; a far-future entry is like none. -/
def scheduled (forks : Forks) (version : ℕ) : Option Fork :=
  (forks.lookup version).filter fun fork ↦ decide (fork.epoch ≠ farFutureEpoch)

abbrev Differs (ours theirs : Forks) (version : ℕ) : Prop :=
  scheduled ours version ≠ scheduled theirs version

abbrev ActiveOn (currentEpoch : ℕ) (forks : Forks) (version : ℕ) : Prop :=
  ∃ fork ∈ scheduled forks version, fork.epoch ≤ currentEpoch

/-- The version is scheduled differently, and active on one side at least. -/
abbrev Parted (ours theirs : Forks) (currentEpoch version : ℕ) : Prop :=
  Differs ours theirs version ∧ (ActiveOn currentEpoch ours version ∨
    ActiveOn currentEpoch theirs version)

variable {ours theirs forks : Forks} {currentEpoch version : ℕ}

theorem epoch_ne_of_scheduled {fork : Fork} (h : scheduled forks version = some fork) :
    fork.epoch ≠ farFutureEpoch := by
  simpa using (Option.filter_eq_some_iff.1 h).2

theorem schedule_eq : schedule forks version =
    ((scheduled forks version).getD unscheduled, (scheduled forks version).isSome) := by
  unfold schedule scheduled
  cases forks.lookup version with
  | none => rfl
  | some fork => by_cases h : fork.epoch = farFutureEpoch <;> simp [h, Option.filter]

/-- A fork that is scheduled is never taken for one that is not. -/
theorem skips_iff : ((!(schedule ours version).2 && !(schedule theirs version).2) ||
    decide ((schedule ours version).1 = (schedule theirs version).1)) = true ↔
      ¬ Differs ours theirs version := by
  have hours := @epoch_ne_of_scheduled ours version
  have htheirs := @epoch_ne_of_scheduled theirs version
  have hfar : unscheduled.epoch = farFutureEpoch := rfl
  rw [schedule_eq, schedule_eq]
  cases hmine : scheduled ours version <;> cases hother : scheduled theirs version <;> grind

theorem active_iff : ((schedule forks version).2 &&
    decide ((schedule forks version).1.epoch ≤ currentEpoch)) = true ↔
      ActiveOn currentEpoch forks version := by
  rw [schedule_eq, ActiveOn]
  cases scheduled forks version <;> simp

/-- The error for a version, of one of the two classes. -/
def report (kind : ℕ → Fork → Fork → ForkError) (ours theirs : Forks) (version : ℕ) : ForkError :=
  kind version (schedule ours version).1 (schedule theirs version).1

/-- **The loop is two searches**: for the first version that parts the clients, or else the first
that differs. -/
theorem compareForks_eq (versions : List ℕ) (lag : Option ForkError) :
    compareForks ours theirs currentEpoch versions lag =
      ((versions.find? fun v ↦ decide (Parted ours theirs currentEpoch v)).map
        (report .different ours theirs)).or
      (lag.or ((versions.find? fun v ↦ decide (Differs ours theirs v)).map
        (report .lag ours theirs))) := by
  induction versions generalizing lag with
  | nil => simp [compareForks]
  | cons version rest ih =>
    rw [compareForks, find?_cons, find?_cons]
    by_cases hdiffers : Differs ours theirs version
    · rw [if_neg (mt skips_iff.1 (not_not.2 hdiffers))]
      simp only [Bool.or_eq_true, active_iff, ih]
      by_cases hactive : ActiveOn currentEpoch ours version ∨ ActiveOn currentEpoch theirs version
      · simp [Parted, hdiffers, hactive, report]
      · cases lag <;> simp [Parted, hdiffers, hactive, report]
    · rw [if_pos (skips_iff.2 hdiffers), ih]
      simp [Parted, hdiffers]

theorem find?_eq_some_of_increasing {p : ℕ → Bool} {v : ℕ} {l : List ℕ} (h : l.Pairwise (· < ·)) :
    l.find? p = some v ↔ v ∈ l ∧ p v = true ∧ ∀ w ∈ l, w < v → p w = false := by
  induction l with
  | nil => simp
  | cons a l ih =>
    obtain ⟨ha, hl⟩ := pairwise_cons.1 h
    grind

/-- The versions either client has an entry for, in order. -/
abbrev versions (ours theirs : Forks) : List ℕ := (ours.keys.toFinset ∪ theirs.keys.toFinset).sort

theorem mem_versions (h : Differs ours theirs version) : version ∈ versions ours theirs := by
  rw [Finset.mem_sort, Finset.mem_union, mem_toFinset, mem_toFinset]
  by_contra hnone
  rw [not_or] at hnone
  have hours : ours.lookup version = none := AList.lookup_eq_none.2 hnone.1
  have htheirs : theirs.lookup version = none := AList.lookup_eq_none.2 hnone.2
  exact h (by rw [scheduled, hours, scheduled, htheirs])

variable {P : ℕ → Prop} [DecidablePred P]

theorem find?_versions (hP : ∀ v, P v → Differs ours theirs v) :
    (versions ours theirs).find? (fun v ↦ decide (P v)) = some version ↔
      P version ∧ ∀ w < version, ¬ P w := by
  rw [find?_eq_some_of_increasing (Finset.sortedLT_sort _).pairwise]
  have hmem := fun v hv ↦ mem_versions (hP v hv)
  grind

theorem find?_versions_eq_none (hP : ∀ v, P v → Differs ours theirs v) :
    (versions ours theirs).find? (fun v ↦ decide (P v)) = none ↔ ∀ v, ¬ P v := by
  have hmem := fun v hv ↦ mem_versions (hP v hv)
  grind

theorem assertSameForks_eq : assertSameForks ours theirs currentEpoch =
    (((versions ours theirs).find? fun v ↦ decide (Parted ours theirs currentEpoch v)).map
      (report .different ours theirs)).or
    (((versions ours theirs).find? fun v ↦ decide (Differs ours theirs v)).map
      (report .lag ours theirs)) := by
  rw [assertSameForks, compareForks_eq, Option.none_or]

theorem assertSameForks_swap : assertSameForks theirs ours currentEpoch =
    (assertSameForks ours theirs currentEpoch).map .swap := by
  have hdiffers : ∀ v, Differs theirs ours v = Differs ours theirs v := fun v ↦ propext ne_comm
  have hparted : ∀ v, Parted theirs ours currentEpoch v = Parted ours theirs currentEpoch v :=
    fun v ↦ by
    rw [Parted, hdiffers, or_comm]
  have hreport : ∀ kind : ℕ → Fork → Fork → ForkError,
      (∀ v mine other, (kind v mine other).swap = kind v other mine) →
      report kind theirs ours = ForkError.swap ∘ report kind ours theirs :=
    fun kind hkind ↦ funext fun v ↦ (hkind _ _ _).symm
  rw [assertSameForks_eq, assertSameForks_eq, versions, Finset.union_comm]
  simp only [hparted, hdiffers, hreport .different fun _ _ _ ↦ rfl, hreport .lag fun _ _ _ ↦ rfl,
    ← Option.map_map, Option.map_or]

/-- **The comparison is symmetric and exact.** A lag names the lowest version that differs;
otherwise the clients have parted. -/
theorem assertSameForks_classifies (ours theirs : Forks) (currentEpoch : ℕ) :
    (assertSameForks ours theirs currentEpoch = none ↔
      ∀ version, scheduled ours version = scheduled theirs version) ∧
    ((∃ version mine other, assertSameForks ours theirs currentEpoch =
      some (.different version mine other)) ↔ ∃ version, Parted ours theirs currentEpoch version) ∧
    (∀ version mine other, assertSameForks ours theirs currentEpoch =
      some (.lag version mine other) ↔
      (∀ v, ¬ Parted ours theirs currentEpoch v) ∧
      (Differs ours theirs version ∧ ∀ v < version, ¬ Differs ours theirs v) ∧
      mine = (schedule ours version).1 ∧ other = (schedule theirs version).1) ∧
    assertSameForks theirs ours currentEpoch =
      (assertSameForks ours theirs currentEpoch).map .swap := by
  have hparted : ∀ v, Parted ours theirs currentEpoch v → Differs ours theirs v := fun _ ↦ And.left
  rw [show assertSameForks theirs ours currentEpoch = _ from assertSameForks_swap,
    assertSameForks_eq]
  cases hfirst : (versions ours theirs).find? fun v ↦
    decide (Parted ours theirs currentEpoch v) with
  | some v =>
    have hv := ((find?_versions hparted).1 hfirst).1
    refine ⟨iff_of_false nofun fun h ↦ hv.1 (h v), iff_of_true ⟨_, _, _, rfl⟩ ⟨v, hv⟩, ?_, rfl⟩
    exact fun version mine other ↦ iff_of_false nofun fun h ↦ h.1 v hv
  | none =>
    have hnone := (find?_versions_eq_none hparted).1 hfirst
    cases hlow : (versions ours theirs).find? fun v ↦ decide (Differs ours theirs v) with
    | none =>
      have hsame := (find?_versions_eq_none fun _ ↦ id).1 hlow
      refine ⟨iff_of_true rfl fun v ↦ not_not.1 (hsame v), iff_of_false nofun ?_, ?_, rfl⟩
      · exact fun ⟨v, hv⟩ ↦ hnone v hv
      · exact fun version mine other ↦ iff_of_false nofun fun h ↦ hsame version h.2.1.1
    | some v =>
      have hv := (find?_versions fun _ ↦ id).1 hlow
      refine ⟨iff_of_false nofun fun h ↦ hv.1 (h v), iff_of_false nofun ?_, ?_, rfl⟩
      · exact fun ⟨v, hv⟩ ↦ hnone v hv
      · intro version mine other
        constructor
        · rintro ⟨⟩
          exact ⟨hnone, hv, rfl, rfl⟩
        · rintro ⟨-, hversion, rfl, rfl⟩
          cases hlow.symm.trans ((find?_versions fun _ ↦ id).2 hversion)
          rfl

end Ssv.NetworkConfig
