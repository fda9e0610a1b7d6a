import SsvNode.Exporter.Collector
import SsvNode.Lib.Latch

/-!
# What an eviction leaves in memory

A tick evicts **one slot**, four slots before it, so that what was collected for a slot stays in
memory until exactly that tick (`holds_run`). What a tick takes out is in the store when it returns,
unless a batch is not encoded or two duties have one key (`Savable`). The subtraction wraps around.
-/

namespace Ssv.Exporter

open List AList

open Validation (RunnerRole)

variable {γ δ : Type}

/-! ### Histories -/

inductive Event (γ δ : Type) where
  | committee (key : CommitteeTraceKey) (slot : ℕ) (process : CommitteeTrace γ → CommitteeTrace γ)
  | validator (role : BeaconRole) (index slot : ℕ)
      (process : ValidatorDutyTrace δ → ValidatorDutyTrace δ)
  | link (index slot : ℕ) (committee : Bytes)
  | tick (slot : ℕ) (order : Collector.DutyOrder δ)

namespace Event

def evicts : Event γ δ → Option ℕ
  | tick slot _ => some (threshold slot)
  | _ => none

/-- The event puts something for the slot into memory, when `last` is the last evicted slot. -/
def Stores (last slot : ℕ) : Event γ δ → Prop
  | committee _ s _ | validator _ _ s _ => s = slot ∧ last < slot
  | link _ s _ => s = slot
  | tick _ _ => False

end Event

variable (events : List (Event γ δ))

def lastEvicted : ℕ := latch Event.evicts 0 events

/-- Something was collected for the slot, and no tick has evicted the slot since. -/
def Unevicted (slot : ℕ) : Prop :=
  ∃ pre e post, events = pre ++ e :: post ∧ e.Stores (lastEvicted pre) slot ∧
    ∀ e' ∈ post, e'.evicts ≠ some slot

theorem unevicted_concat {events : List (Event γ δ)} {e : Event γ δ} {slot : ℕ} :
    Unevicted (events ++ [e]) slot ↔
      e.Stores (lastEvicted events) slot ∨ Unevicted events slot ∧ e.evicts ≠ some slot := by
  constructor
  · rintro ⟨pre, e', post, hevents, hstores, hpost⟩
    rcases eq_nil_or_concat post with rfl | ⟨post, e'', rfl⟩
    · obtain ⟨rfl, he⟩ := append_inj' hevents rfl
      obtain rfl := head_eq_of_cons_eq he
      exact .inl hstores
    · rw [concat_eq_append, ← cons_append, ← append_assoc] at hevents
      obtain ⟨rfl, he⟩ := append_inj' hevents rfl
      obtain rfl := head_eq_of_cons_eq he
      exact .inr ⟨⟨pre, e', post, rfl, hstores, fun x hx ↦ hpost x (by simp [hx])⟩,
        hpost e (by simp)⟩
  · rintro (hstores | ⟨⟨pre, e', post, rfl, hstores, hpost⟩, hkeeps⟩)
    · exact ⟨events, e, [], rfl, hstores, fun _ h ↦ nomatch h⟩
    · refine ⟨pre, e', post ++ [e], by simp, hstores, fun x hx ↦ ?_⟩
      rcases mem_append.1 hx with hx | hx
      · exact hpost x hx
      · rwa [mem_singleton.1 hx]

namespace Collector

def Holds (c : Collector γ δ) (slot : ℕ) : Prop :=
  (∃ key, (key, slot) ∈ c.committeeTraces) ∨ (∃ index, (index, slot) ∈ c.validatorTraces) ∨
    ∃ index, (index, slot) ∈ c.links

variable {c : Collector γ δ} {slot now : ℕ}

theorem exists_mem_insert {κ ν : Type} [DecidableEq κ] {m : SlotMap κ ν} {key : κ} {s : ℕ} {v : ν} :
    (∃ k, (k, slot) ∈ m.insert (key, s) v) ↔ s = slot ∨ ∃ k, (k, slot) ∈ m := by
  simp only [mem_insert, Prod.mk.injEq]
  constructor
  · rintro ⟨k, ⟨-, hs⟩ | hk⟩
    · exact .inl hs.symm
    · exact .inr ⟨k, hk⟩
  · rintro (rfl | ⟨k, hk⟩)
    · exact ⟨key, .inl ⟨rfl, rfl⟩⟩
    · exact ⟨k, .inr hk⟩

theorem mem_purge {κ ν : Type} [DecidableEq κ] {m : SlotMap κ ν} {k : κ} {s : ℕ} :
    (k, slot) ∈ m.purge (fun key _ ↦ key.2 ≠ s) ↔ (k, slot) ∈ m ∧ s ≠ slot := by
  rw [← lookup_isSome, GoMap.lookup_purge, ← lookup_isSome (s := m)]
  rcases m.lookup (k, slot) with - | v
  · simp
  · by_cases hs : s = slot
    · simp [hs]
    · simp [hs, Ne.symm hs]

/-! ### What is saved -/

end Collector

namespace DutyTraceStore

variable [Marshals γ] [Marshals δ] {store : DutyTraceStore γ δ} {slot : ℕ}

/-- What is in the store was encoded, and is filed under its own key. -/
structure Encoded (store : DutyTraceStore γ δ) : Prop where
  committee : ∀ key n duty, store.committeeDuties.lookup (key, n) = some duty →
    key.role ∈ committeeRoles ∧ duty.marshalSSZ
  validator : ∀ key duty, store.validatorDuties.lookup key = some duty →
    key.2 = (duty.role, duty.validator) ∧ duty.marshalSSZ

namespace Encoded

theorem saveCommitteeDuties (h : store.Encoded) (slot : ℕ)
    {duties : List (CommitteeTraceKey × CommitteeDutyTrace γ)}
    (hroles : ∀ d ∈ duties, d.1.role ∈ committeeRoles) :
    (store.saveCommitteeDuties slot duties).Encoded := by
  unfold DutyTraceStore.saveCommitteeDuties
  split
  · next hall =>
    refine ⟨fun key n duty hduty ↦ ?_, h.validator⟩
    rcases GoMap.lookup_foldl_insert_cases hduty with ⟨d, hd, hkey, rfl⟩ | hold
    · obtain rfl := (Prod.mk.inj hkey).1
      exact ⟨hroles d hd, all_eq_true.1 hall d hd⟩
    · exact h.committee key n duty hold
  · exact h

theorem saveValidatorDuties (h : store.Encoded) (slot : ℕ) (duties : List (ValidatorDutyTrace δ)) :
    (store.saveValidatorDuties slot duties).Encoded := by
  unfold DutyTraceStore.saveValidatorDuties
  split
  · next hall =>
    refine ⟨h.committee, fun key duty hduty ↦ ?_⟩
    rcases GoMap.lookup_foldl_insert_cases hduty with ⟨d, hd, rfl, rfl⟩ | hold
    · exact ⟨rfl, all_eq_true.1 hall d hd⟩
    · exact h.validator key duty hold
  · exact h

end Encoded

omit [Marshals δ] in
theorem saveCommitteeDuties_rest {duties : List (CommitteeTraceKey × CommitteeDutyTrace γ)} :
    (store.saveCommitteeDuties slot duties).validatorDuties = store.validatorDuties ∧
      (store.saveCommitteeDuties slot duties).links = store.links := by
  unfold saveCommitteeDuties
  split
  · exact ⟨rfl, rfl⟩
  · exact ⟨rfl, rfl⟩

omit [Marshals γ] in
theorem saveValidatorDuties_rest {duties : List (ValidatorDutyTrace δ)} :
    (store.saveValidatorDuties slot duties).committeeDuties = store.committeeDuties ∧
      (store.saveValidatorDuties slot duties).links = store.links := by
  unfold saveValidatorDuties
  split
  · exact ⟨rfl, rfl⟩
  · exact ⟨rfl, rfl⟩

omit [Marshals γ] in
theorem saveValidatorDuties_congr {store' : DutyTraceStore γ δ}
    {duties : List (ValidatorDutyTrace δ)} (h : store'.validatorDuties = store.validatorDuties) :
    (store'.saveValidatorDuties slot duties).validatorDuties =
      (store.saveValidatorDuties slot duties).validatorDuties := by
  unfold saveValidatorDuties
  split
  · exact congrArg (duties.foldl _) h
  · exact h

end DutyTraceStore

namespace Collector

section

variable {c : Collector γ δ} {slot now : ℕ}

theorem mem_committeeBatch {role : RunnerRole} {d : CommitteeTraceKey × CommitteeDutyTrace γ} :
    d ∈ c.committeeBatch slot role ↔ d.1.role = role ∧ ∃ trace,
      c.committeeTraces.lookup (d.1, slot) = some trace ∧ trace.toCommitteeDutyTrace = d.2 := by
  obtain ⟨key, duty⟩ := d
  simp only [committeeBatch, mem_map, mem_filter, decide_eq_true_eq, Prod.mk.injEq]
  constructor
  · rintro ⟨⟨⟨key', s⟩, trace⟩, ⟨hmem, rfl, hrole⟩, rfl, rfl⟩
    exact ⟨hrole, trace, mem_lookup_iff.2 hmem, rfl⟩
  · rintro ⟨hrole, trace, htrace, rfl⟩
    exact ⟨⟨(key, slot), trace⟩, ⟨mem_lookup_iff.1 htrace, rfl, hrole⟩, rfl, rfl⟩

/-- A duty of the slot that is in memory, with its validator. -/
def HasDuty (c : Collector γ δ) (slot : ℕ) (duty : ValidatorDutyTrace δ) : Prop :=
  ∃ index duties, c.validatorTraces.lookup (index, slot) = some duties ∧
    ∃ d ∈ duties, duty = withValidator index d

theorem mem_validatorBatch {order : DutyOrder δ}
    {duty : ValidatorDutyTrace δ} : duty ∈ c.validatorBatch slot order ↔ c.HasDuty slot duty := by
  simp only [validatorBatch, mem_flatMap, MapOrder.mem_iterate, mem_filter, decide_eq_true_eq,
    mem_map]
  constructor
  · rintro ⟨⟨⟨index, s⟩, duties⟩, ⟨hmem, rfl⟩, d, hd, rfl⟩
    exact ⟨index, duties, mem_lookup_iff.2 hmem, d, hd, rfl⟩
  · rintro ⟨index, duties, hlookup, d, hd, rfl⟩
    exact ⟨⟨(index, slot), duties⟩, ⟨mem_lookup_iff.1 hlookup, rfl⟩, d, hd, rfl⟩

variable [Marshals γ] [Marshals δ]

section

variable {store : DutyTraceStore γ δ} {role : RunnerRole} {key : CommitteeTraceKey}

omit [Marshals δ] in
/-- The batch of a role is saved as a whole … -/
theorem lookup_saveCommitteeBatch (hrole : key.role = role)
    (hall : ∀ d ∈ c.committeeBatch slot role, d.2.marshalSSZ) :
    (store.saveCommitteeDuties slot (c.committeeBatch slot role)).getCommitteeDuty slot key =
      ((c.committeeTraces.lookup (key, slot)).map (·.toCommitteeDutyTrace)).or
        (store.getCommitteeDuty slot key) := by
  unfold DutyTraceStore.saveCommitteeDuties DutyTraceStore.getCommitteeDuty
  rw [if_pos (all_eq_true.2 hall)]
  cases htrace : c.committeeTraces.lookup (key, slot) with
  | none =>
    refine GoMap.lookup_foldl_insert_of_ne _ fun d hd hkey ↦ ?_
    obtain ⟨-, trace, hlookup, -⟩ := mem_committeeBatch.1 hd
    obtain ⟨rfl, -⟩ := Prod.mk.inj hkey
    cases htrace.symm.trans hlookup
  | some trace =>
    have hmem : (key, trace.toCommitteeDutyTrace) ∈ c.committeeBatch slot role :=
      mem_committeeBatch.2 ⟨hrole, trace, htrace, rfl⟩
    refine GoMap.lookup_foldl_insert_of_mem (fun d ↦ (d.1, slotKey slot)) Prod.snd _ hmem
      fun d hd hkey ↦ ?_
    obtain ⟨-, trace', hlookup, hd'⟩ := mem_committeeBatch.1 hd
    rw [(Prod.mk.inj hkey).1, htrace] at hlookup
    cases hlookup
    exact hd'.symm

omit [Marshals δ] in
/-- … or not at all, and says nothing of the other role. -/
theorem lookup_saveCommitteeBatch_of_not
    (h : ¬(key.role = role ∧ ∀ d ∈ c.committeeBatch slot role, d.2.marshalSSZ)) :
    (store.saveCommitteeDuties slot (c.committeeBatch slot role)).getCommitteeDuty slot key =
      store.getCommitteeDuty slot key := by
  unfold DutyTraceStore.saveCommitteeDuties
  split
  · next hall =>
    refine GoMap.lookup_foldl_insert_of_ne _ fun d hd hkey ↦ h ⟨?_, all_eq_true.1 hall⟩
    rw [← (Prod.mk.inj hkey).1]
    exact (mem_committeeBatch.1 hd).1
  · rfl

end

theorem holds_evict {order : DutyOrder δ} :
    (c.evict now order).Holds slot ↔ c.Holds slot ∧ threshold now ≠ slot := by
  simp only [Holds, evict, dumpLinkToDBPeriodically, dumpValidatorToDBPeriodically,
    dumpCommitteeToDBPeriodically, forgetLinks, forgetValidators, forgetCommittees, mem_purge,
    exists_and_right, or_and_right]

/-! ### Complete evictions -/

theorem lookup_purge_slot {κ ν : Type} [DecidableEq κ] {m : SlotMap κ ν} {k : κ} {s : ℕ}
    (h : (k, slot) ∈ m → s ≠ slot) :
    (m.purge fun key _ ↦ key.2 ≠ s).lookup (k, slot) = m.lookup (k, slot) := by
  rw [GoMap.lookup_purge]
  rcases hk : m.lookup (k, slot) with - | v
  · rfl
  · have hs : slot ≠ s := (h (lookup_isSome.1 (by simp [hk]))).symm
    simp [hs]

/-- What was in memory for slots up to the one four slots old is in the store, and in memory no
more; the rest is untouched. -/
structure Complete (c : Collector γ δ) (now : ℕ) (order : DutyOrder δ) : Prop where
  evicted : ∀ slot, slot + slotTTL ≤ now → ¬(c.evict now order).Holds slot
  savedCommittee : ∀ key slot trace, slot + slotTTL ≤ now →
    c.committeeTraces.lookup (key, slot) = some trace →
    (c.evict now order).store.getCommitteeDuty slot key = some trace.toCommitteeDutyTrace
  savedValidator : ∀ slot duty, slot + slotTTL ≤ now → c.HasDuty slot duty →
    (c.evict now order).store.validatorDuties.lookup (duty.key slot) = some duty
  savedLink : ∀ index slot committee, slot + slotTTL ≤ now →
    c.links.lookup (index, slot) = some committee →
    (c.evict now order).store.links.lookup (index, slotKey slot) = some committee
  kept : ∀ slot, now < slot + slotTTL →
    (∀ key, (c.evict now order).committeeTraces.lookup (key, slot) =
      c.committeeTraces.lookup (key, slot)) ∧
    (∀ index, (c.evict now order).validatorTraces.lookup (index, slot) =
      c.validatorTraces.lookup (index, slot)) ∧
    ∀ index, (c.evict now order).links.lookup (index, slot) = c.links.lookup (index, slot)

/-- The traces of the slot can be encoded, and no two duties have one key. -/
structure Savable (c : Collector γ δ) (slot : ℕ) : Prop where
  committee : ∀ key trace, c.committeeTraces.lookup (key, slot) = some trace →
    key.role ∈ committeeRoles ∧ trace.marshalSSZ
  validator : ∀ duty, c.HasDuty slot duty → duty.marshalSSZ
  unique : ∀ duty duty', c.HasDuty slot duty → c.HasDuty slot duty' →
    duty.role = duty'.role → duty.validator = duty'.validator → duty = duty'

section

variable {order : DutyOrder δ}

theorem getCommitteeDuty_evict (key : CommitteeTraceKey) :
    (c.evict now order).store.getCommitteeDuty (threshold now) key =
      ((c.store.saveCommitteeDuties (threshold now)
        (c.committeeBatch (threshold now) .committee)).saveCommitteeDuties (threshold now)
          (c.committeeBatch (threshold now) .aggregatorCommittee)).getCommitteeDuty
            (threshold now) key :=
  congrArg (AList.lookup (key, slotKey (threshold now))) DutyTraceStore.saveValidatorDuties_rest.1

/-- The batch with the trace of the key is saved when the slot is evicted. -/
def SavesBatch (c : Collector γ δ) (slot : ℕ) (key : CommitteeTraceKey) : Prop :=
  key.role ∈ committeeRoles ∧ ∀ d ∈ c.committeeBatch slot key.role, d.2.marshalSSZ

variable {key : CommitteeTraceKey}

variable (order) in
theorem getCommitteeDuty_evict_of_saves
    (h : c.SavesBatch (threshold now) key) :
    (c.evict now order).store.getCommitteeDuty (threshold now) key =
      ((c.committeeTraces.lookup (key, threshold now)).map (·.toCommitteeDutyTrace)).or
        (c.store.getCommitteeDuty (threshold now) key) := by
  obtain ⟨hroles, hall⟩ := h
  rw [getCommitteeDuty_evict]
  rcases (by simpa [committeeRoles] using hroles : key.role = .committee ∨
    key.role = .aggregatorCommittee) with h | h
  · rw [h] at hall
    rw [lookup_saveCommitteeBatch_of_not (by simp [h]), lookup_saveCommitteeBatch h hall]
  · rw [h] at hall
    rw [lookup_saveCommitteeBatch h hall, lookup_saveCommitteeBatch_of_not (by simp [h])]

theorem getCommitteeDuty_evict_of_not_saves
    (h : ¬c.SavesBatch (threshold now) key) :
    (c.evict now order).store.getCommitteeDuty (threshold now) key =
      c.store.getCommitteeDuty (threshold now) key := by
  have hnot {role : RunnerRole} (hrole : role ∈ committeeRoles) :
      ¬(key.role = role ∧ ∀ d ∈ c.committeeBatch (threshold now) role, d.2.marshalSSZ) := by
    rintro ⟨rfl, hall⟩
    exact h ⟨hrole, hall⟩
  rw [getCommitteeDuty_evict, lookup_saveCommitteeBatch_of_not (hnot (by decide)),
    lookup_saveCommitteeBatch_of_not (hnot (by decide))]

theorem validatorDuties_evict :
    (c.evict now order).store.validatorDuties =
      (c.store.saveValidatorDuties (threshold now)
        (c.validatorBatch (threshold now) order)).validatorDuties := by
  show (DutyTraceStore.saveValidatorDuties (DutyTraceStore.saveCommitteeDuties
    (DutyTraceStore.saveCommitteeDuties _ _ _) _ _) _ _).validatorDuties = _
  refine DutyTraceStore.saveValidatorDuties_congr ?_
  rw [DutyTraceStore.saveCommitteeDuties_rest.1, DutyTraceStore.saveCommitteeDuties_rest.1]
  rfl

theorem links_evict {index : ℕ} {committee : Bytes}
    (h : c.links.lookup (index, threshold now) = some committee) :
    (c.evict now order).store.links.lookup (index, slotKey (threshold now)) = some committee := by
  have hmem : (index, committee) ∈ (c.links.entries.filter (·.1.2 = threshold now)).map
      fun e ↦ (e.1.1, e.2) :=
    mem_map.2 ⟨⟨(index, _), committee⟩, mem_filter.2 ⟨mem_lookup_iff.1 h, by simp⟩, rfl⟩
  refine GoMap.lookup_foldl_insert_of_mem (fun link ↦ (link.1, slotKey (threshold now)))
    Prod.snd _ hmem fun link hlink hkey ↦ ?_
  obtain ⟨⟨⟨index', slot⟩, committee'⟩, hentry, rfl⟩ := mem_map.1 hlink
  obtain ⟨hentry, hslot⟩ := mem_filter.1 hentry
  obtain rfl : slot = threshold now := by simpa using hslot
  obtain rfl : index' = index := (Prod.mk.inj hkey).1
  exact Option.some.inj ((mem_lookup_iff.2 hentry).symm.trans h)

variable (order) in
/-- **What a tick saves**: all that it takes out of memory, exactly if that is savable. -/
theorem saved_iff (hstore : c.store.Encoded) :
    (∀ key trace, c.committeeTraces.lookup (key, threshold now) = some trace →
      (c.evict now order).store.getCommitteeDuty (threshold now) key =
        some trace.toCommitteeDutyTrace) ∧
    (∀ duty, c.HasDuty (threshold now) duty →
      (c.evict now order).store.validatorDuties.lookup (duty.key (threshold now)) =
        some duty) ↔
    c.Savable (threshold now) := by
  rw [validatorDuties_evict]
  constructor
  · rintro ⟨hcommittee, hvalidator⟩
    refine ⟨fun key trace htrace ↦ ?_, fun duty hduty ↦ ?_, fun duty duty' hduty hduty' hrole hval ↦
      ?_⟩
    · have hsaved := hcommittee key trace htrace
      by_cases h : c.SavesBatch (threshold now) key
      · exact ⟨h.1, h.2 (key, _) (mem_committeeBatch.2 ⟨rfl, trace, htrace, rfl⟩)⟩
      · rw [getCommitteeDuty_evict_of_not_saves h] at hsaved
        exact hstore.committee key _ _ hsaved
    · have hsaved := hvalidator duty hduty
      exact ((hstore.saveValidatorDuties _ _).validator _ _ hsaved).2
    · have hkey : duty.key (threshold now) = duty'.key (threshold now) := by
        rw [ValidatorDutyTrace.key, ValidatorDutyTrace.key, hrole, hval]
      have hsaved := hvalidator duty hduty
      rw [hkey, hvalidator duty' hduty'] at hsaved
      exact (Option.some.inj hsaved).symm
  · intro h
    refine ⟨fun key trace htrace ↦ ?_, fun duty hduty ↦ ?_⟩
    · rw [getCommitteeDuty_evict_of_saves order ⟨(h.committee key trace htrace).1, fun d hd ↦ ?_⟩,
        htrace]
      · rfl
      · obtain ⟨-, trace', htrace', hd'⟩ := mem_committeeBatch.1 hd
        rw [← hd']
        exact (h.committee d.1 trace' htrace').2
    · have hall : ∀ d ∈ c.validatorBatch (threshold now) order, d.marshalSSZ :=
        fun d hd ↦ h.validator d (mem_validatorBatch.1 hd)
      rw [DutyTraceStore.saveValidatorDuties, if_pos (all_eq_true.2 hall)]
      refine GoMap.lookup_foldl_insert_of_mem (ValidatorDutyTrace.key (threshold now)) id _
        (mem_validatorBatch.2 hduty) fun d hd hkey ↦ ?_
      obtain ⟨hrole, hval⟩ := Prod.mk.inj (Prod.mk.inj hkey).2
      exact h.unique d duty (mem_validatorBatch.1 hd) hduty hrole hval

omit [Marshals γ] [Marshals δ] in
theorem holds_of_lookup {trace : CommitteeTrace γ}
    (h : c.committeeTraces.lookup (key, slot) = some trace) : c.Holds slot :=
  .inl ⟨key, lookup_isSome.1 (by simp [h])⟩

omit [Marshals γ] [Marshals δ] in
theorem HasDuty.holds {duty : ValidatorDutyTrace δ} (h : c.HasDuty slot duty) : c.Holds slot := by
  obtain ⟨index, duties, hlookup, -⟩ := h
  exact .inr (.inl ⟨index, lookup_isSome.1 (by simp [hlookup])⟩)

/-- **What an eviction needs**: nothing from before the slot that it evicts nor, in the first four
slots, for the one at the end of time; and traces that can be saved. -/
theorem complete_iff (hstore : c.store.Encoded) : c.Complete now order ↔
    (∀ slot, c.Holds slot → now ≤ slot + slotTTL) ∧
      (now < slotTTL → ¬c.Holds (threshold now)) ∧
      c.Savable (threshold now) := by
  have hthreshold (h : ¬ now < slotTTL) : threshold now + slotTTL = now := by
    rw [threshold, if_neg h]
    omega
  constructor
  · intro h
    have hearly (hearly : now < slotTTL) : ¬c.Holds (threshold now) := by
      intro hslot
      obtain ⟨hcommittee, hvalidator, hlink⟩ := h.kept (threshold now) (by omega)
      have hleft : (c.evict now order).Holds (threshold now) := by
        simpa only [Holds, ← lookup_isSome, hcommittee, hvalidator, hlink] using hslot
      exact (holds_evict.1 hleft).2 rfl
    refine ⟨fun slot hslot ↦ ?_, hearly, ?_⟩
    · by_contra hold
      refine h.evicted slot (by omega) (holds_evict.2 ⟨hslot, ?_⟩)
      unfold threshold
      split <;> omega
    · by_cases hbefore : now < slotTTL
      · have hnone := hearly hbefore
        exact ⟨fun key trace htrace ↦ absurd (holds_of_lookup htrace) hnone,
          fun duty hduty ↦ absurd hduty.holds hnone, fun duty _ hduty ↦ absurd hduty.holds hnone⟩
      · have hle := (hthreshold hbefore).le
        exact (saved_iff order hstore).1 ⟨fun key trace ↦ h.savedCommittee key _ trace hle,
          fun duty ↦ h.savedValidator _ duty hle⟩
  · rintro ⟨hold, hearly, hsavable⟩
    obtain ⟨hcommittee, hvalidator⟩ := (saved_iff order hstore).2 hsavable
    have hslot {slot : ℕ} (hc : c.Holds slot) (h : slot + slotTTL ≤ now) :
        threshold now = slot := by
      have := hold slot hc
      unfold threshold
      split <;> omega
    have hkept {slot : ℕ} (hc : c.Holds slot) (h : now < slot + slotTTL) :
        threshold now ≠ slot := by
      rintro rfl
      by_cases hbefore : now < slotTTL
      · exact hearly hbefore hc
      · exact absurd (hthreshold hbefore) h.ne'
    refine ⟨fun slot h hc ↦ ?_, fun key slot trace h hk ↦ ?_, fun slot duty h hduty ↦ ?_,
      fun index slot committee h hk ↦ ?_, fun slot h ↦
        ⟨fun key ↦ ?_, fun index ↦ ?_, fun index ↦ ?_⟩⟩
    · obtain ⟨hc, hne⟩ := holds_evict.1 hc
      exact hne (hslot hc h)
    · obtain rfl := hslot (holds_of_lookup hk) h
      exact hcommittee key trace hk
    · obtain rfl := hslot hduty.holds h
      exact hvalidator duty hduty
    · obtain rfl := hslot (.inr (.inr ⟨index, lookup_isSome.1 (by simp [hk])⟩)) h
      exact links_evict hk
    · exact lookup_purge_slot fun hk ↦ hkept (.inl ⟨key, hk⟩) h
    · exact lookup_purge_slot fun hk ↦ hkept (.inr (.inl ⟨index, hk⟩)) h
    · exact lookup_purge_slot fun hk ↦ hkept (.inr (.inr ⟨index, hk⟩)) h

end

/-! ### Runs -/

variable [Inhabited γ] [Inhabited δ]

def step (c : Collector γ δ) : Event γ δ → Collector γ δ
  | .committee key slot process => c.collectCommittee key slot process
  | .validator role index slot process => c.collectValidator role index slot process
  | .link index slot committee => c.link index slot committee
  | .tick slot order => c.evict slot order

def run : Collector γ δ := events.foldl step {}

/-- **One slot leaves the memory, and only what is late does not enter it.** -/
theorem holds_step {e : Event γ δ} : (c.step e).Holds slot ↔
    e.Stores c.lastEvictedSlot slot ∨ c.Holds slot ∧ e.evicts ≠ some slot := by
  cases e with
  | committee =>
    simp only [step, collectCommittee, Event.Stores, Event.evicts]
    split
    next hlate =>
      simp only [Holds]
      grind
    next hlate =>
      simp only [Holds, exists_mem_insert]
      grind
  | validator =>
    simp only [step, collectValidator, Event.Stores, Event.evicts]
    split
    next hlate =>
      simp only [Holds]
      grind
    next hlate =>
      simp only [Holds, exists_mem_insert]
      grind
  | link =>
    simp only [step, link, Event.Stores, Event.evicts, Holds, exists_mem_insert]
    grind
  | tick =>
    simp only [step, holds_evict, Event.Stores, Event.evicts]
    grind

theorem lastEvictedSlot_run {events : List (Event γ δ)} :
    (run events).lastEvictedSlot = lastEvicted events := by
  induction events using reverseRecOn with
  | nil => rfl
  | append_singleton events e ih =>
    rw [run, foldl_concat, ← run, lastEvicted, latch_append, ← lastEvicted, ← ih, latch_cons,
      latch_nil]
    cases e with
    | committee =>
      simp only [step, collectCommittee]
      split <;> rfl
    | validator =>
      simp only [step, collectValidator]
      split <;> rfl
    | link | tick => rfl

/-- **What is in memory** was collected and not evicted by the tick of its own slot. -/
theorem holds_run {events : List (Event γ δ)} :
    (run events).Holds slot ↔ Unevicted events slot := by
  induction events using reverseRecOn with
  | nil => simp [run, Holds, Unevicted]
  | append_singleton events e ih =>
    rw [run, foldl_concat, ← run, holds_step, ih, lastEvictedSlot_run, unevicted_concat]

omit [Inhabited γ] [Inhabited δ] in
theorem evict_encoded (h : c.store.Encoded) (now : ℕ) (order : DutyOrder δ) :
    (c.evict now order).store.Encoded := by
  have hroles (role : RunnerRole) (hrole : role ∈ committeeRoles) :
      ∀ d ∈ c.committeeBatch (threshold now) role, d.1.role ∈ committeeRoles := by
    intro d hd
    rwa [(mem_committeeBatch.1 hd).1]
  have hsaved := ((h.saveCommitteeDuties (threshold now) (hroles .committee (by decide))
    ).saveCommitteeDuties (threshold now) (hroles .aggregatorCommittee (by decide))
    ).saveValidatorDuties (threshold now) (c.validatorBatch (threshold now) order)
  exact ⟨hsaved.committee, hsaved.validator⟩

/-- **The store of a run is encoded.** -/
theorem encoded_run : (run events).store.Encoded := by
  have hempty : ({} : DutyTraceStore γ δ).Encoded :=
    ⟨fun _ _ _ h ↦ absurd h (by simp), fun _ _ h ↦ absurd h (by simp)⟩
  refine foldlRecOn (b := {}) (motive := fun c ↦ c.store.Encoded) events step hempty fun c h e _ ↦
    ?_
  cases e with
  | committee key slot =>
    simp only [step, collectCommittee]
    split
    · unfold DutyTraceStore.saveCommitteeDuty
      split
      · next hrole => exact h.saveCommitteeDuties slot (forall_mem_singleton.2 hrole)
      · exact h
    · exact h
  | validator role index slot =>
    simp only [step, collectValidator]
    split
    · exact h.saveValidatorDuties slot _
    · exact h
  | link => exact h
  | tick slot order => exact evict_encoded h slot order

end

namespace Reference

instance marshalsUnit : Marshals Unit := ⟨fun _ ↦ true⟩

/-- A message for slot seven after the tick of slot ten. -/
def skippedTick : List (Event Unit Unit) := [.tick 10 .stored, .committee ⟨[], .committee⟩ 7 id]

/-- Messages of two committees for slot seven, one with a proposal of these bytes. -/
def proposals (fullData : Bytes) : List (Event Unit Unit) :=
  [.committee ⟨[1], .committee⟩ 7 fun t ↦ { t with proposalData := fullData },
    .committee ⟨[2], .committee⟩ 7 id]

/-- A proposal that is too long keeps both traces from being saved. -/
theorem proposals_lost {fullData : Bytes} (hlong : 4194532 < fullData.length) :
    ((run (proposals fullData)).evict 11 .stored).store.getCommitteeDuty 7 ⟨[2], .committee⟩ =
      none := by
  refine getCommitteeDuty_evict_of_not_saves fun h ↦ ?_
  have hmarshal := h.2 (⟨[1], .committee⟩, { consensusTrace := (), proposalData := fullData })
    (mem_committeeBatch.2 ⟨rfl, _, rfl, rfl⟩)
  simp only [CommitteeDutyTrace.marshalSSZ, Bool.and_eq_true, decide_eq_true_eq] at hmarshal
  omega

end Reference

end Collector

end Ssv.Exporter
