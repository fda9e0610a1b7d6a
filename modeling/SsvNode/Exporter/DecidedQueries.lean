import SsvNode.Exporter.Eviction

/-!
# The decided queries of the exporter

`GetValidatorDecideds` asks memory and then the disk, `GetAllValidatorDecideds` **the disk alone**,
so that until a slot is evicted the second does not know of it. They agree exactly where every trace
in memory has a record on the disk with the same signers (`decideds_agree_iff`).
-/

namespace Ssv.Exporter

open List AList

variable {γ δ : Type}

structure ParticipantsRangeIndexEntry where
  slot : ℕ
  index : ℕ
  signers : List OperatorID
  deriving DecidableEq

/-- The validators with a record of a role and slot, which are stored under one prefix. -/
def DutyTraceStore.validators (store : DutyTraceStore γ δ) (role : BeaconRole) (slot : ℕ) :
    List ℕ :=
  store.validatorDuties.keys.filterMap fun key ↦
    if key.1 = slotKey slot ∧ key.2.1 = role then some key.2.2 else none

def DutyTraceStore.getValidatorDuties (store : DutyTraceStore γ δ) (role : BeaconRole) (slot : ℕ) :
    List (ValidatorDutyTrace δ) :=
  (store.validators role slot).filterMap fun index ↦
    store.validatorDuties.lookup (slotKey slot, role, index)

namespace Collector

variable (c : Collector γ δ) (role : BeaconRole) (slot : ℕ)

def cached (index : ℕ) : Option (ValidatorDutyTrace δ) :=
  (c.validatorTraces.lookup (index, slot)).bind (·.find? (·.role = role))

def getValidatorDuty (index : ℕ) : Option (ValidatorDutyTrace δ) :=
  (c.cached role slot index).or (c.store.validatorDuties.lookup (slotKey slot, role, index))

-- the signers of a trace: those of its `Decideds`, and then those of its `Post`
variable (signers : δ → List OperatorID)

def getValidatorDecideds (indices : List ℕ) : List ParticipantsRangeIndexEntry :=
  indices.filterMap fun index ↦ (c.getValidatorDuty role slot index).map fun duty ↦
    ⟨slot, index, sortCompact (signers duty.content)⟩

def getAllValidatorDecideds : List ParticipantsRangeIndexEntry :=
  (c.store.getValidatorDuties role slot).map fun duty ↦
    ⟨slot, duty.validator, sortCompact (signers duty.content)⟩

/-- The queries return the same entries, one for each validator. -/
def DecidedsAgree (indices : List ℕ) : Prop :=
  (c.getAllValidatorDecideds role slot signers).Perm
    (c.getValidatorDecideds role slot signers indices) ∧
    ((c.getAllValidatorDecideds role slot signers).map (·.index)).Nodup

variable {c role slot signers} {index : ℕ}

theorem mem_validators : index ∈ c.store.validators role slot ↔
    (c.store.validatorDuties.lookup (slotKey slot, role, index)).isSome := by
  rw [DutyTraceStore.validators, mem_filterMap, lookup_isSome, AList.mem_keys]
  constructor
  · rintro ⟨⟨s, role', index'⟩, hmem, h⟩
    split at h
    · next hkey =>
      obtain ⟨rfl, rfl⟩ := hkey
      exact Option.some.inj h ▸ hmem
    · cases h
  · exact fun h ↦ ⟨_, h, if_pos ⟨rfl, rfl⟩⟩

theorem nodup_validators : (c.store.validators role slot).Nodup := by
  refine c.store.validatorDuties.nodupKeys.filterMap fun key key' index h h' ↦ ?_
  simp only [Option.mem_def, Option.ite_none_right_eq_some, Option.some.injEq] at h h'
  exact Prod.ext (h.1.1.trans h'.1.1.symm) (Prod.ext (h.1.2.trans h'.1.2.symm)
    (h.2.trans h'.2.symm))

variable [Inhabited γ] [Inhabited δ] [Marshals γ] [Marshals δ]

theorem getAllValidatorDecideds_run (events : List (Event γ δ)) :
    (run events).getAllValidatorDecideds role slot signers =
      ((run events).store.validators role slot).filterMap fun index ↦
        ((run events).store.validatorDuties.lookup (slotKey slot, role, index)).map fun duty ↦
          ⟨slot, index, sortCompact (signers duty.content)⟩ := by
  rw [getAllValidatorDecideds, DutyTraceStore.getValidatorDuties, map_filterMap]
  refine filterMap_congr fun index _ ↦ Option.map_congr fun duty hduty ↦ ?_
  have hkey := ((encoded_run events).validator _ duty hduty).1
  rw [(Prod.mk.inj hkey).2]

/-- **The queries agree** exactly if every trace in memory has a record with the same signers. -/
theorem decideds_agree_iff (signers : δ → List OperatorID) (events : List (Event γ δ))
    (role : BeaconRole)
    (slot : ℕ) {indices : List ℕ} (hnodup : indices.Nodup)
    (hindices : ∀ index, index ∈ indices ↔ ((run events).cached role slot index).isSome ∨
      ((run events).store.validatorDuties.lookup (slotKey slot, role, index)).isSome) :
    (run events).DecidedsAgree role slot signers indices ↔
      ∀ index trace, (run events).cached role slot index = some trace →
        ∃ record, (run events).store.validatorDuties.lookup (slotKey slot, role, index) =
          some record ∧
          sortCompact (signers record.content) = sortCompact (signers trace.content) := by
  rw [DecidedsAgree, getAllValidatorDecideds_run]
  generalize run events = c at *
  constructor
  · rintro ⟨hperm, -⟩ index trace htrace
    have hentry : ⟨slot, index, sortCompact (signers trace.content)⟩ ∈
        c.getValidatorDecideds role slot signers indices := by
      refine mem_filterMap.2 ⟨index, (hindices index).2 (.inl (by simp [htrace])), ?_⟩
      simp [getValidatorDuty, htrace]
    obtain ⟨index', -, hrecord⟩ := mem_filterMap.1 (hperm.mem_iff.2 hentry)
    obtain ⟨record, hlookup, heq⟩ := Option.map_eq_some_iff.1 hrecord
    obtain ⟨-, rfl, hsigners⟩ := ParticipantsRangeIndexEntry.mk.inj heq
    exact ⟨record, hlookup, hsigners⟩
  · intro h
    -- a trace in memory changes no entry
    have hstored : (c.store.validators role slot).Nodup := nodup_validators
    have hvalidators : (c.store.validators role slot).Perm indices := by
      refine (perm_ext_iff_of_nodup hstored hnodup).2 fun index ↦ ?_
      rw [mem_validators, hindices, or_iff_right_of_imp]
      intro hcached
      obtain ⟨trace, htrace⟩ := Option.isSome_iff_exists.1 hcached
      obtain ⟨record, hrecord, -⟩ := h index trace htrace
      simp [hrecord]
    refine ⟨(hvalidators.filterMap _).trans (.of_eq (filterMap_congr fun index _ ↦ ?_)), ?_⟩
    · rcases hcached : c.cached role slot index with - | trace
      · rw [getValidatorDuty, hcached, Option.none_or]
      · obtain ⟨record, hrecord, heq⟩ := h index trace hcached
        rw [getValidatorDuty, hcached, hrecord, Option.some_or, Option.map_some,
          Option.map_some, heq]
    · rw [map_filterMap]
      refine hstored.filterMap fun index index' b hb hb' ↦ ?_
      simp only [Option.map_map, Option.mem_def, Option.map_eq_some_iff, Function.comp] at hb hb'
      obtain ⟨_, -, rfl⟩ := hb
      exact hb'.choose_spec.2.symm

namespace Reference

instance marshalsSigners : Marshals (List OperatorID) := ⟨fun _ ↦ true⟩

/-- A packet of three operators for the duty of validator 5 in slot 10. -/
def signed : Event Unit (List OperatorID) :=
  .validator .aggregator 5 10 fun duty ↦ { duty with validator := 5, content := [1, 2, 3] }

/-- A packet that is late goes to the disk, where both queries find it. -/
theorem decideds_agree_iff_late :
    (run [.tick 14 .stored, signed]).DecidedsAgree .aggregator 10 id [5] := by
  have hcached (index : ℕ) : (run [.tick 14 .stored, signed]).cached .aggregator 10 index = none :=
    rfl
  have hstore : (run [.tick 14 .stored, signed]).store.validatorDuties =
      (∅ : GoMap _ _).insert (10, .aggregator, 5) ⟨.aggregator, 5, [1, 2, 3]⟩ := rfl
  refine (decideds_agree_iff id [.tick 14 .stored, signed] .aggregator 10 (by decide) fun index ↦
    ?_).2
    fun index trace h ↦ absurd (hcached index) (by simp [h])
  rw [hcached, hstore, lookup_isSome, mem_insert, show slotKey 10 = 10 from rfl]
  simp

/-- Otherwise it is in memory, and one of them returns nothing. -/
theorem decideds_differ_in_memory : ¬(run [signed]).DecidedsAgree .aggregator 10 id [5] := by
  have hall : (run [signed]).getAllValidatorDecideds .aggregator 10 id = [] := rfl
  have hsome : (run [signed]).getValidatorDecideds .aggregator 10 id [5] =
      [⟨10, 5, [1, 2, 3]⟩] := by
    decide +kernel
  intro h
  have hperm := h.1
  rw [hall, hsome] at hperm
  exact absurd hperm.length_eq (by decide)

end Reference

end Collector

end Ssv.Exporter
