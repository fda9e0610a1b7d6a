import SsvNode.Lib.Act
import SsvNode.Lib.Checks
import SsvNode.Lib.GoMap
import SsvNode.Lib.Machine
import SsvNode.Queue.MessageSlot
import SsvNode.Queue.PriorityQueue

/-!
# The slots a committee keeps

A `Committee` has one runner and one queue per slot and role. A runner is created when a duty
starts, a queue by the duty or by a message, whichever comes first. When a duty is prepared, the old
slots are pruned: the loop goes over the **runners**, and a queue without one stays
(`message_only_queue_stays`). `released_iff` says by the calls made what is left behind. Runners are
handles; logging, tracing and the duty guard are left out.
-/

namespace Ssv.Validator

open AList

open Queue (PriorityQueue EventSpec)
open Validation (RunnerRole)
open Checks (require)

/-! ### The state -/

/-- `spectypes.Share`, as far as a committee reads it. -/
structure Share where
  validatorIndex : ℕ
  sharePubKey : Bytes
  deriving DecidableEq

/-- `spectypes.CommitteeDuty` and `spectypes.AggregatorCommitteeDuty`. -/
inductive Duty where
  | committee (slot : ℕ) (validatorDuties : List ValidatorDuty)
  | aggregatorCommittee (slot : ℕ) (validatorDuties : List ValidatorDuty)
  deriving DecidableEq

namespace Duty

def dutySlot : Duty → ℕ
  | .committee slot _ => slot
  | .aggregatorCommittee slot _ => slot

/-- `types.RunnerRoleForDuty`, which is the same after the fork here. -/
def role : Duty → RunnerRole
  | .committee _ _ => .committee
  | .aggregatorCommittee _ _ => .aggregatorCommittee

def extractValidatorDuties : Duty → List ValidatorDuty
  | .committee _ duties => duties
  | .aggregatorCommittee _ duties => duties

def withValidatorDuties : Duty → List ValidatorDuty → Duty
  | .committee slot _, duties => .committee slot duties
  | .aggregatorCommittee slot _, duties => .aggregatorCommittee slot duties

end Duty

/-- What `CreateRunnerFn` may return; a pointer may be `nil` behind the interface. -/
inductive CreatedRunner (ρ σ : Type) where
  | nil
  | committeeRunner (r : Option ρ)
  | aggregatorCommitteeRunner (r : Option σ)
  | other (typeName : String)

namespace CreatedRunner

variable {ρ σ : Type}

/-- The type as `%T` prints it. -/
def typeName : CreatedRunner ρ σ → String
  | .nil => "<nil>"
  | .committeeRunner _ => "*runner.CommitteeRunner"
  | .aggregatorCommitteeRunner _ => "*runner.AggregatorCommitteeRunner"
  | .other name => name

end CreatedRunner

abbrev QueueContainer : Type := PriorityQueue Queue.SSVMessage

/-- `Committee`, over the types of its two kinds of runners. -/
structure Committee (ρ σ : Type) where
  queues : GoMap ℕ QueueContainer
  aggregatorQueues : GoMap ℕ QueueContainer
  runners : GoMap ℕ ρ
  aggregatorRunners : GoMap ℕ σ
  shares : GoMap ℕ Share

abbrev CommitteeAct (ρ σ α : Type) : Type := Act Err Empty (Committee ρ σ) α

/-- What a start of a duty meets outside the committee. -/
structure RunnerEnv (ρ σ : Type) where
  createRunnerFn : Duty → GoMap ℕ Share → List Bytes → Except Err (CreatedRunner ρ σ)
  /-- `StartNewDuty` of the new runner. -/
  startNewDuty : Duty → Except Err Unit
  order : MapOrder ℕ

def lateSlotAllowance : ℕ := 2

def defaultValidatorQueueSize : ℕ := 128

namespace Committee

variable {ρ σ : Type}

/-- `NewCommittee`. -/
def new (shares : GoMap ℕ Share) : Committee ρ σ where
  queues := ∅
  aggregatorQueues := ∅
  runners := ∅
  aggregatorRunners := ∅
  shares := shares

def addShare (share : Share) (c : Committee ρ σ) : Committee ρ σ :=
  { c with shares := c.shares.insert share.validatorIndex share }

def removeShare (validatorIndex : ℕ) (c : Committee ρ σ) : Committee ρ σ :=
  { c with shares := c.shares.erase validatorIndex }

/-! ### Queues -/

/-- The queue of a slot, and the map with it in place. -/
def lazyQueue (slot : ℕ) (m : GoMap ℕ QueueContainer) : QueueContainer × GoMap ℕ QueueContainer :=
  match m.lookup slot with
  | some q => (q, m)
  | none =>
    let q := PriorityQueue.new defaultValidatorQueueSize
    (q, m.insert slot q)

/-- `getQueueForRole`. Another role is a panic. -/
def getQueueForRole (slot : ℕ) (role : RunnerRole) : CommitteeAct ρ σ QueueContainer := do
  let c ← Act.read
  match role with
  | .aggregatorCommittee =>
    let (q, m) := lazyQueue slot c.aggregatorQueues
    Act.write { c with aggregatorQueues := m }
    return q
  | .committee =>
    let (q, m) := lazyQueue slot c.queues
    Act.write { c with queues := m }
    return q
  | _ => Act.fail { text := "BUG: unexpected committee queue role" }

/-- `TryPush` of a slot's queue, if the channel has room. -/
def tryPush (slot : ℕ) (role : RunnerRole) (msg : Queue.SSVMessage) (q : QueueContainer) :
    CommitteeAct ρ σ Unit := do
  if q.inbox.length < q.capacity then
    let c ← Act.read
    match role with
    | .aggregatorCommittee =>
      Act.write { c with aggregatorQueues := c.aggregatorQueues.insert slot (q.send msg) }
    | _ => Act.write { c with queues := c.queues.insert slot (q.send msg) }
  else pure ()

/-- `EnqueueMessage`. A message without a slot is dropped. -/
def enqueueMessage [EventSpec] (msg : Queue.SSVMessage) : CommitteeAct ρ σ Unit := do
  match msg.slot with
  | .error _ => pure ()
  | .ok slot =>
    let q ← getQueueForRole slot msg.role
    tryPush slot msg.role msg q

/-! ### Duties -/

/-- `runnerForDuty`, of which only the presence matters. -/
def runnerForDuty (duty : Duty) (c : Committee ρ σ) : Bool :=
  match duty with
  | .committee slot _ => (c.runners.lookup slot).isSome
  | .aggregatorCommittee slot _ => (c.aggregatorRunners.lookup slot).isSome

variable (c : Committee ρ σ)

/-- One round of the loop of `prepareDuty`. -/
def prepareValidatorDuty (acc : GoMap ℕ Share × List ValidatorDuty × List Bytes)
    (beaconDuty : ValidatorDuty) : GoMap ℕ Share × List ValidatorDuty × List Bytes :=
  match c.shares.lookup beaconDuty.validatorIndex with
  | none => acc
  | some share =>
    let (shares, runnable, attesters) := acc
    (shares.insert beaconDuty.validatorIndex share, runnable ++ [beaconDuty],
      if beaconDuty.type = .attester then attesters ++ [share.sharePubKey] else attesters)

def prepareDuty (duty : Duty) : Except Err (GoMap ℕ Share × List Bytes × Duty) := do
  let validatorDuties := duty.extractValidatorDuties
  require (validatorDuties ≠ []) (.newError .noBeaconDuties "no beacon duties")
  let (shares, runnable, attesters) := validatorDuties.foldl c.prepareValidatorDuty (∅, [], [])
  require (shares.keys ≠ []) (.newError .noValidatorShares "no shares for duty's validators")
  return (shares, attesters, duty.withValidatorDuties runnable)

/-- The error of `createRunner` for a runner of the wrong type. -/
def wrongRunnerType (dutyName expected : String) (r : CreatedRunner ρ σ) : Err :=
  { text := "BUG: runner created for " ++ dutyName ++ " duty has type " ++ r.typeName ++
      ", expected " ++ expected }

/-- The error of `createRunner` for a `nil` pointer behind the interface. -/
def typedNil (typeName : String) : Err :=
  { text := "BUG: CreateRunnerFn returned a typed-nil " ++ typeName ++ " without error" }

/-- The end of `createRunner`: the new runner is stored under the slot. -/
def storeRunner (duty : Duty) (r : CreatedRunner ρ σ) : CommitteeAct ρ σ Unit := do
  let c ← Act.read
  match duty, r with
  | _, .nil => Act.fail { text := "BUG: CreateRunnerFn returned nil runner without error" }
  | .committee slot _, .committeeRunner (some r) =>
    Act.write { c with runners := c.runners.insert slot r }
  | .committee _ _, .committeeRunner none => Act.fail (typedNil "*runner.CommitteeRunner")
  | .committee _ _, r => Act.fail (wrongRunnerType "committee" "*runner.CommitteeRunner" r)
  | .aggregatorCommittee slot _, .aggregatorCommitteeRunner (some r) =>
    Act.write { c with aggregatorRunners := c.aggregatorRunners.insert slot r }
  | .aggregatorCommittee _ _, .aggregatorCommitteeRunner none =>
    Act.fail (typedNil "*runner.AggregatorCommitteeRunner")
  | .aggregatorCommittee _ _, r =>
    Act.fail (wrongRunnerType "aggregator committee" "*runner.AggregatorCommitteeRunner" r)

def createRunner (env : RunnerEnv ρ σ) (duty : Duty) (shares : GoMap ℕ Share)
    (attesters : List Bytes) : CommitteeAct ρ σ Unit := do
  let r ← Act.lift ((env.createRunnerFn duty shares attesters).mapError
    (.wrap "create committee runner"))
  storeRunner duty r

/-- One round of a loop of `unsafePruneExpiredRunners`: a runner and its queue. -/
def pruneSlot {ν : Type} (minValidSlot : ℕ) (m : GoMap ℕ ν × GoMap ℕ QueueContainer) (slot : ℕ) :
    GoMap ℕ ν × GoMap ℕ QueueContainer :=
  if slot < minValidSlot then (m.1.erase slot, m.2.erase slot) else m

/-- Both loops of `unsafePruneExpiredRunners`: over the runners of a role. -/
def pruneRunners {ν : Type} (o : MapOrder ℕ) (minValidSlot : ℕ) (runners : GoMap ℕ ν)
    (queues : GoMap ℕ QueueContainer) : GoMap ℕ ν × GoMap ℕ QueueContainer :=
  (o.iterate runners.keys).foldl (pruneSlot minValidSlot) (runners, queues)

variable (slotsPerEpoch : ℕ)

def unsafePruneExpiredRunners (o : MapOrder ℕ) (currentSlot : ℕ)
    (c : Committee ρ σ) : Committee ρ σ :=
  let runnerExpirySlots := slotsPerEpoch + lateSlotAllowance
  if currentSlot ≤ runnerExpirySlots then c
  else
    let minValidSlot := currentSlot - runnerExpirySlots
    let (runners, queues) := pruneRunners o minValidSlot c.runners c.queues
    let (aggregatorRunners, aggregatorQueues) :=
      pruneRunners o minValidSlot c.aggregatorRunners c.aggregatorQueues
    { c with runners, queues, aggregatorRunners, aggregatorQueues }

def prepareDutyAndRunner (env : RunnerEnv ρ σ) (duty : Duty) :
    CommitteeAct ρ σ (QueueContainer × Duty) := do
  let c ← Act.read
  Act.lift (require (c.runnerForDuty duty = false)
    { text := "committee runner for slot " ++ toString duty.dutySlot ++ " already exists" })
  let (shares, attesters, runnableDuty) ← Act.lift (c.prepareDuty duty)
  createRunner env duty shares attesters
  let q ← getQueueForRole duty.dutySlot duty.role
  Act.update (unsafePruneExpiredRunners slotsPerEpoch env.order duty.dutySlot)
  return (q, runnableDuty)

def startDuty (env : RunnerEnv ρ σ) (duty : Duty) : CommitteeAct ρ σ QueueContainer := do
  let (q, runnableDuty) ← (prepareDutyAndRunner slotsPerEpoch env duty).mapError
    (.wrap "prepare duty and runner")
  (Act.lift (env.startNewDuty runnableDuty)).mapError (.wrap "runner failed to start duty")
  return q

/-! ### What pruning deletes -/

section

variable {ν : Type} {minValidSlot : ℕ}

theorem lookup_foldl_pruneSlot (l : List ℕ) (m : GoMap ℕ ν × GoMap ℕ QueueContainer) (t : ℕ) :
    (l.foldl (pruneSlot minValidSlot) m).1.lookup t =
        (if t ∈ l ∧ t < minValidSlot then none else m.1.lookup t) ∧
      (l.foldl (pruneSlot minValidSlot) m).2.lookup t =
        if t ∈ l ∧ t < minValidSlot then none else m.2.lookup t := by
  induction l generalizing m with
  | nil => simp
  | cons slot l ih =>
    rw [List.foldl_cons, (ih _).1, (ih _).2]
    by_cases hl : t ∈ l ∧ t < minValidSlot
    · rw [if_pos hl, if_pos hl, if_pos ⟨List.mem_cons_of_mem slot hl.1, hl.2⟩]
      simp [hl]
    · rw [if_neg hl, if_neg hl, pruneSlot]
      by_cases ht : t = slot
      · -- the slot of this round: deleted exactly if it is below the bound
        subst ht
        by_cases hlt : t < minValidSlot
        · simp [hlt]
        · simp [hlt]
      · have hcons : ¬ (t ∈ slot :: l ∧ t < minValidSlot) := by
          rintro ⟨hmem, hlt⟩
          exact hl ⟨(List.mem_cons.1 hmem).resolve_left ht, hlt⟩
        rw [if_neg hcons, if_neg hcons]
        by_cases hlt : slot < minValidSlot
        · simp [hlt, lookup_erase_ne ht]
        · simp [hlt]

theorem pruneRunners_spec (o : MapOrder ℕ) (runners : GoMap ℕ ν) (queues : GoMap ℕ QueueContainer)
    (t : ℕ) :
    (((pruneRunners o minValidSlot runners queues).1.lookup t).isSome ↔
      (runners.lookup t).isSome ∧ ¬ t < minValidSlot) ∧
    (((pruneRunners o minValidSlot runners queues).2.lookup t).isSome ↔
      (queues.lookup t).isSome ∧ ¬ (t < minValidSlot ∧ (runners.lookup t).isSome)) := by
  have hmem : t ∈ o.iterate runners.keys ↔ (runners.lookup t).isSome := by
    rw [o.mem_iterate, lookup_isSome, mem_keys]
  rw [pruneRunners, (lookup_foldl_pruneSlot _ _ t).1, (lookup_foldl_pruneSlot _ _ t).2]
  simp only [hmem]
  by_cases hold : t < minValidSlot
  · by_cases hrunner : (runners.lookup t).isSome
    · simp [hold, hrunner]
    · simp [hold, hrunner]
  · simp [hold]

end

/-! ### What the calls change -/

/-- The roles of the duties of a committee. -/
def roles : List RunnerRole := [.committee, .aggregatorCommittee]

theorem role_mem_roles (duty : Duty) : duty.role ∈ roles := by
  cases duty <;> simp [Duty.role, roles]

/-- There is a runner of the role for the slot. -/
def HasRunner (role : RunnerRole) (t : ℕ) : Prop :=
  match role with
  | .aggregatorCommittee => (c.aggregatorRunners.lookup t).isSome
  | _ => (c.runners.lookup t).isSome

/-- There is a queue of the role for the slot. -/
def HasQueue (role : RunnerRole) (t : ℕ) : Prop :=
  match role with
  | .aggregatorCommittee => (c.aggregatorQueues.lookup t).isSome
  | _ => (c.queues.lookup t).isSome

/-- The slot is over an epoch and the late slots behind the current one. -/
def Expired (slotsPerEpoch currentSlot t : ℕ) : Prop :=
  t < currentSlot - (slotsPerEpoch + lateSlotAllowance)

theorem forall_mem_roles {P : RunnerRole → Prop} :
    (∀ role ∈ roles, P role) ↔ P .committee ∧ P .aggregatorCommittee := by
  simp [roles]

variable {slot t : ℕ}

theorem isSome_lookup_insert {ν : Type} {m : GoMap ℕ ν} {v : ν} :
    ((m.insert slot v).lookup t).isSome ↔ (m.lookup t).isSome ∨ t = slot := by
  rw [lookup_isSome, lookup_isSome, mem_insert, or_comm]

variable {m : GoMap ℕ QueueContainer}

theorem isSome_lookup_lazyQueue :
    ((lazyQueue slot m).2.lookup t).isSome ↔ (m.lookup t).isSome ∨ t = slot := by
  unfold lazyQueue
  split
  · next q hq =>
    refine (or_iff_left_of_imp ?_).symm
    rintro rfl
    rw [hq]
    rfl
  · exact isSome_lookup_insert

/-- The second committee has a queue for one more slot at most. -/
structure AddsQueue (role : RunnerRole) (slot : ℕ) (c c' : Committee ρ σ) : Prop where
  runner : ∀ role' ∈ roles, ∀ t, c'.HasRunner role' t ↔ c.HasRunner role' t
  queue : ∀ role' ∈ roles, ∀ t,
    c'.HasQueue role' t ↔ c.HasQueue role' t ∨ role' = role ∧ t = slot

/-- Writing a queue where there is one. -/
theorem AddsQueue.trans {role : RunnerRole} {c c₁ c₂ : Committee ρ σ}
    (h : AddsQueue role slot c c₁) (h' : AddsQueue role slot c₁ c₂) : AddsQueue role slot c c₂ where
  runner role' hrole t := (h'.runner role' hrole t).trans (h.runner role' hrole t)
  queue role' hrole t := by rw [h'.queue role' hrole t, h.queue role' hrole t, or_assoc, or_self]

theorem addsQueue_queues {c : Committee ρ σ}
    (hm : ∀ t, (m.lookup t).isSome ↔ (c.queues.lookup t).isSome ∨ t = slot) :
    AddsQueue .committee slot c { c with queues := m } where
  runner _ _ _ := Iff.rfl
  queue := forall_mem_roles.2 ⟨fun t ↦ by simp [HasQueue, hm], fun t ↦ by simp [HasQueue]⟩

theorem addsQueue_aggregatorQueues {c : Committee ρ σ}
    (hm : ∀ t, (m.lookup t).isSome ↔ (c.aggregatorQueues.lookup t).isSome ∨ t = slot) :
    AddsQueue .aggregatorCommittee slot c { c with aggregatorQueues := m } where
  runner _ _ _ := Iff.rfl
  queue := forall_mem_roles.2 ⟨fun t ↦ by simp [HasQueue], fun t ↦ by simp [HasQueue, hm]⟩

theorem getQueueForRole_spec (slot : ℕ) (role : RunnerRole) (hrole : role ∈ roles)
    (c : Committee ρ σ) :
    (getQueueForRole slot role).wp
      (fun c' _ r ↦ (∃ q, r = .ok q) ∧ AddsQueue role slot c c') c := by
  revert role
  refine forall_mem_roles.2 ⟨⟨⟨_, rfl⟩, ?_⟩, ⟨_, rfl⟩, ?_⟩
  · exact addsQueue_queues fun t ↦ isSome_lookup_lazyQueue
  · exact addsQueue_aggregatorQueues fun t ↦ isSome_lookup_lazyQueue

theorem enqueueMessage_spec [EventSpec] {msg : Queue.SSVMessage}
    (hslot : msg.slot = .ok slot) (hrole : msg.role ∈ roles) (c : Committee ρ σ) :
    (enqueueMessage msg).wp (fun c' _ _ ↦ AddsQueue msg.role slot c c') c := by
  unfold enqueueMessage
  rw [hslot]
  refine Act.wp_seq (getQueueForRole_spec slot _ hrole c) ?_ ?_
  · rintro c₁ _ e ⟨⟨q, ⟨⟩⟩, -⟩
  · rintro c₁ _ q ⟨-, hadds⟩
    unfold tryPush
    split
    · rw [Act.wp_bind, Act.wp_read]
      refine hadds.trans ?_
      generalize msg.role = role at hrole
      revert role
      refine forall_mem_roles.2 ⟨?_, ?_⟩
      · exact addsQueue_queues fun t ↦ isSome_lookup_insert
      · exact addsQueue_aggregatorQueues fun t ↦ isSome_lookup_insert
    · exact hadds

/-- A message of another role changes nothing: the source panics. -/
theorem enqueueMessage_of_not_mem [EventSpec] {msg : Queue.SSVMessage} (hrole : msg.role ∉ roles)
    (c : Committee ρ σ) : ((enqueueMessage msg).run c).state = c := by
  suffices h : (enqueueMessage msg).wp (fun c' _ _ ↦ c' = c) c from h
  unfold enqueueMessage
  split
  · rfl
  · next slot _ =>
    have hfail : (getQueueForRole slot msg.role).wp
        (fun c' _ r ↦ c' = c ∧ ∀ q : QueueContainer, r ≠ .ok q) c := by
      generalize msg.role = role at hrole
      cases role with
      | committee | aggregatorCommittee => simp [roles] at hrole
      | _ => exact ⟨rfl, fun _ h ↦ by cases h⟩
    refine Act.wp_seq hfail (fun _ _ _ h ↦ h.1) ?_
    rintro _ _ q ⟨-, h⟩
    exact absurd rfl (h q)

/-- The second committee has a runner for the duty, too. -/
structure AddsRunner (duty : Duty) (c c' : Committee ρ σ) : Prop where
  queue : ∀ role ∈ roles, ∀ t, c'.HasQueue role t ↔ c.HasQueue role t
  runner : ∀ role ∈ roles, ∀ t,
    c'.HasRunner role t ↔ c.HasRunner role t ∨ role = duty.role ∧ t = duty.dutySlot

theorem createRunner_spec (env : RunnerEnv ρ σ) (duty : Duty) (shares : GoMap ℕ Share)
    (attesters : List Bytes) (c : Committee ρ σ) :
    (createRunner env duty shares attesters).wp (fun c' _ result ↦
      (∃ e, result = .error e ∧ c' = c) ∨ result = .ok () ∧ AddsRunner duty c c') c := by
  refine Act.wp_seq (Act.lift_spec c) ?_ ?_
  · rintro _ _ e ⟨rfl, -, -⟩
    exact .inl ⟨e, rfl, rfl⟩
  rintro c _ r ⟨rfl, -, -⟩
  unfold storeRunner
  rw [Act.wp_bind, Act.wp_read]
  dsimp only
  split
  · exact .inl ⟨_, rfl, rfl⟩
  · rw [Act.wp_write]
    refine .inr ⟨rfl, fun _ _ _ ↦ Iff.rfl, forall_mem_roles.2 ⟨fun t ↦ ?_, fun t ↦ ?_⟩⟩
    · simp [HasRunner, Duty.role, Duty.dutySlot, isSome_lookup_insert]
    · simp [HasRunner, Duty.role]
  · exact .inl ⟨_, rfl, rfl⟩
  · exact .inl ⟨_, rfl, rfl⟩
  · rw [Act.wp_write]
    refine .inr ⟨rfl, fun _ _ _ ↦ Iff.rfl, forall_mem_roles.2 ⟨fun t ↦ ?_, fun t ↦ ?_⟩⟩
    · simp [HasRunner, Duty.role]
    · simp [HasRunner, Duty.role, Duty.dutySlot, isSome_lookup_insert]
  · exact .inl ⟨_, rfl, rfl⟩
  · exact .inl ⟨_, rfl, rfl⟩

theorem unsafePruneExpiredRunners_spec (o : MapOrder ℕ) (currentSlot : ℕ)
    (c : Committee ρ σ) (role : RunnerRole) (hrole : role ∈ roles) (t : ℕ) :
    ((c.unsafePruneExpiredRunners slotsPerEpoch o currentSlot).HasRunner role t ↔
      c.HasRunner role t ∧ ¬ Expired slotsPerEpoch currentSlot t) ∧
    ((c.unsafePruneExpiredRunners slotsPerEpoch o currentSlot).HasQueue role t ↔
      c.HasQueue role t ∧ ¬ (Expired slotsPerEpoch currentSlot t ∧ c.HasRunner role t)) := by
  unfold unsafePruneExpiredRunners Expired
  dsimp only
  split
  · next h =>
    have hnot : ¬ t < currentSlot - (slotsPerEpoch + lateSlotAllowance) := by omega
    simp [hnot]
  · revert role
    refine forall_mem_roles.2 ⟨?_, ?_⟩
    · exact pruneRunners_spec ..
    · exact pruneRunners_spec ..

/-- **What preparing a duty changes**: nothing if it fails; otherwise its runner and queue are
there, and the expired slots with a runner are not. -/
theorem prepareDutyAndRunner_spec (env : RunnerEnv ρ σ) (duty : Duty) (c : Committee ρ σ) :
    (prepareDutyAndRunner slotsPerEpoch env duty).wp (fun c' _ r ↦
      (∃ e, r = .error e ∧ c' = c) ∨ (∃ prepared, r = .ok prepared) ∧ ∀ role ∈ roles, ∀ t,
        (c'.HasRunner role t ↔ (c.HasRunner role t ∨ role = duty.role ∧ t = duty.dutySlot) ∧
          ¬ Expired slotsPerEpoch duty.dutySlot t) ∧
        (c'.HasQueue role t ↔ (c.HasQueue role t ∨ role = duty.role ∧ t = duty.dutySlot) ∧
          ¬ (Expired slotsPerEpoch duty.dutySlot t ∧
            (c.HasRunner role t ∨ role = duty.role ∧ t = duty.dutySlot)))) c := by
  unfold prepareDutyAndRunner
  rw [Act.wp_bind, Act.wp_read]
  refine Act.wp_seq (Act.lift_spec c) ?_ ?_
  · rintro _ _ e ⟨rfl, -, -⟩
    exact .inl ⟨e, rfl, rfl⟩
  rintro _ _ _ ⟨rfl, -, -⟩
  refine Act.wp_seq (Act.lift_spec _) ?_ ?_
  · rintro _ _ e ⟨rfl, -, -⟩
    exact .inl ⟨e, rfl, rfl⟩
  rintro _ _ ⟨shares, attesters, runnableDuty⟩ ⟨rfl, -, -⟩
  refine Act.wp_seq (createRunner_spec env duty shares attesters _) ?_ ?_
  · rintro c' _ e (⟨-, -, rfl⟩ | ⟨⟨⟩, -⟩)
    exact .inl ⟨e, rfl, rfl⟩
  rintro c₁ _ _ (⟨_, ⟨⟩, -⟩ | ⟨-, hrunner⟩)
  refine Act.wp_seq (getQueueForRole_spec duty.dutySlot _ (role_mem_roles duty) c₁) ?_ ?_
  · rintro _ _ e ⟨⟨q, ⟨⟩⟩, -⟩
  rintro c₂ _ q ⟨-, hqueue⟩
  refine .inr ⟨⟨_, rfl⟩, fun role hrole t ↦ ?_⟩
  obtain ⟨hpruned, hpruned'⟩ :=
    unsafePruneExpiredRunners_spec slotsPerEpoch env.order duty.dutySlot c₂ role hrole t
  rw [hqueue.runner role hrole t, hrunner.runner role hrole t] at hpruned hpruned'
  rw [hqueue.queue role hrole t, hrunner.queue role hrole t] at hpruned'
  exact ⟨hpruned, hpruned'⟩

/-! ### Runs -/

inductive CommitteeCall (ρ σ : Type) where
  | enqueueMessage (msg : Queue.SSVMessage)
  | startDuty (env : RunnerEnv ρ σ) (duty : Duty)
  | addShare (share : Share)
  | removeShare (validatorIndex : ℕ)

/-- What the calls are to the slots. -/
inductive SlotEvent where
  /-- A message of the role was enqueued for the slot. -/
  | message (role : RunnerRole) (slot : ℕ)
  /-- A duty of the role was prepared for the slot. -/
  | prepared (role : RunnerRole) (slot : ℕ)
  deriving DecidableEq

section

variable (slotsPerEpoch : ℕ) (role : RunnerRole) (t : ℕ)

/-- A duty of the slot was prepared, and none after it for which the slot is expired. -/
def Assigned : List SlotEvent → Prop
  | [] => False
  | .message _ _ :: earlier => Assigned earlier
  | .prepared role' slot :: earlier =>
    (role = role' ∧ t = slot) ∨ ¬ Expired slotsPerEpoch slot t ∧ Assigned earlier

/-- **A stranded slot**: a message was enqueued for it while it was not assigned, and its duty was
not prepared after that. -/
def Stranded : List SlotEvent → Prop
  | [] => False
  | .message role' slot :: earlier =>
    Stranded earlier ∨ (role = role' ∧ t = slot) ∧ ¬ Assigned slotsPerEpoch role t earlier
  | .prepared role' slot :: earlier => ¬ (role = role' ∧ t = slot) ∧ Stranded earlier

variable {slotsPerEpoch role t}

theorem not_expired_self (slotsPerEpoch t : ℕ) : ¬ Expired slotsPerEpoch t t :=
  Nat.not_lt.2 (Nat.sub_le _ _)

theorem Assigned.not_stranded {log : List SlotEvent} (h : Assigned slotsPerEpoch role t log) :
    ¬ Stranded slotsPerEpoch role t log := by
  induction log with
  | nil => exact h.elim
  | cons event earlier ih =>
    cases event with
    | message => exact fun hs ↦ hs.elim (ih h) fun hs ↦ hs.2 h
    | prepared => exact fun hs ↦ h.elim hs.1 fun h ↦ ih h.2 hs.2

end

/-- A committee with the events of its run, the newest first. -/
structure CommitteeRun (ρ σ : Type) where
  committee : Committee ρ σ
  log : List SlotEvent

/-- The event that a call is, in the state it is made in. -/
def event [EventSpec] : CommitteeCall ρ σ → List SlotEvent
  | .enqueueMessage msg =>
    match msg.slot with
    | .error _ => []
    | .ok slot => if msg.role ∈ roles then [.message msg.role slot] else []
  | .startDuty env duty =>
    match ((prepareDutyAndRunner slotsPerEpoch env duty).run c).result with
    | .error _ => []
    | .ok _ => [.prepared duty.role duty.dutySlot]
  | .addShare _ | .removeShare _ => []

/-- The committee after a call. -/
def next [EventSpec] : CommitteeCall ρ σ → Committee ρ σ
  | .enqueueMessage msg => ((enqueueMessage msg).run c).state
  | .startDuty env duty => ((startDuty slotsPerEpoch env duty).run c).state
  | .addShare share => c.addShare share
  | .removeShare validatorIndex => c.removeShare validatorIndex

/-- The lock makes each call one step; a push overtaken by a pruning goes to a queue out of the map.
-/
def machine [EventSpec] : Machine (CommitteeRun ρ σ) (CommitteeCall ρ σ) where
  initial run := ∃ shares, run = ⟨.new shares, []⟩
  enabled _ _ := True
  next run call :=
    ⟨run.committee.next slotsPerEpoch call, run.committee.event slotsPerEpoch call ++ run.log⟩

/-- The runners are of the assigned slots, the queues of the assigned and the stranded ones. -/
structure Records (slotsPerEpoch : ℕ) (c : Committee ρ σ) (log : List SlotEvent) : Prop where
  runner : ∀ role ∈ roles, ∀ t, c.HasRunner role t ↔ Assigned slotsPerEpoch role t log
  queue : ∀ role ∈ roles, ∀ t,
    c.HasQueue role t ↔ Assigned slotsPerEpoch role t log ∨ Stranded slotsPerEpoch role t log

namespace Records

variable {slotsPerEpoch : ℕ} {c c' : Committee ρ σ} {log : List SlotEvent}

theorem message (h : Records slotsPerEpoch c log) {role : RunnerRole}
    (hadds : AddsQueue role slot c c') : Records slotsPerEpoch c' (.message role slot :: log) where
  runner role' hrole t := (hadds.runner role' hrole t).trans (h.runner role' hrole t)
  queue role' hrole t := by
    rw [hadds.queue role' hrole t, h.queue role' hrole t, Assigned, Stranded]
    by_cases hassigned : Assigned slotsPerEpoch role' t log
    · simp [hassigned]
    · simp [hassigned]

theorem prepared (h : Records slotsPerEpoch c log) {env : RunnerEnv ρ σ} {duty : Duty}
    {prepared : QueueContainer × Duty}
    (hok : ((prepareDutyAndRunner slotsPerEpoch env duty).run c).result = .ok prepared) :
    Records slotsPerEpoch ((prepareDutyAndRunner slotsPerEpoch env duty).run c).state
      (.prepared duty.role duty.dutySlot :: log) := by
  rcases Act.wp_iff.1 (prepareDutyAndRunner_spec slotsPerEpoch env duty c)
    with ⟨e, he, -⟩ | ⟨-, hc'⟩
  · cases hok.symm.trans he
  refine ⟨fun role hrole t ↦ ?_, fun role hrole t ↦ ?_⟩
  · rw [(hc' role hrole t).1, h.runner role hrole t, Assigned]
    by_cases hself : role = duty.role ∧ t = duty.dutySlot
    · simp [hself, not_expired_self]
    · simp [hself, and_comm]
  · rw [(hc' role hrole t).2, h.queue role hrole t, h.runner role hrole t, Assigned, Stranded]
    by_cases hself : role = duty.role ∧ t = duty.dutySlot
    · simp [hself, not_expired_self]
    · by_cases hassigned : Assigned slotsPerEpoch role t log
      · simp [hself, hassigned, hassigned.not_stranded]
      · simp [hself, hassigned]

end Records

theorem startDuty_state (env : RunnerEnv ρ σ) (duty : Duty) (c : Committee ρ σ) :
    ((startDuty slotsPerEpoch env duty).run c).state =
      ((prepareDutyAndRunner slotsPerEpoch env duty).run c).state := by
  have hstate : (startDuty slotsPerEpoch env duty).wp
      (fun c' _ _ ↦ c' = ((prepareDutyAndRunner slotsPerEpoch env duty).run c).state) c := by
    unfold startDuty
    rw [Act.wp_bind, Act.wp_mapError]
    unfold Act.wp
    cases ((prepareDutyAndRunner slotsPerEpoch env duty).run c).result with
    | error => rfl
    | ok prepared =>
      cases h : env.startNewDuty prepared.2 with
      | error | ok =>
        simp [Act.run, bind, Act.bind, Act.mapError, Act.lift, Except.mapError, h, pure]
  exact hstate

/-- **The events of a run tell its maps.** -/
theorem records_of_reachable [EventSpec] {slotsPerEpoch : ℕ} {run : CommitteeRun ρ σ}
    (hrun : (machine slotsPerEpoch).Reachable run) :
    Records slotsPerEpoch run.committee run.log := by
  refine hrun.invariant (P := fun run ↦ Records slotsPerEpoch run.committee run.log) ?_ ?_
  · rintro _ ⟨shares, rfl⟩
    exact ⟨forall_mem_roles.2 ⟨fun _ ↦ by simp [Assigned, HasRunner, new],
      fun _ ↦ by simp [Assigned, HasRunner, new]⟩, forall_mem_roles.2
      ⟨fun _ ↦ by simp [Assigned, Stranded, HasQueue, new],
        fun _ ↦ by simp [Assigned, Stranded, HasQueue, new]⟩⟩
  · intro run call _ hrecords _
    show Records slotsPerEpoch (run.committee.next slotsPerEpoch call) (event _ _ call ++ _)
    cases call with
    | enqueueMessage msg =>
      rw [next, event]
      cases hslot : msg.slot with
      | error =>
        have hstate : ((enqueueMessage msg).run run.committee).state = run.committee := by
          rw [enqueueMessage, hslot]
          rfl
        rwa [hstate]
      | ok slot =>
        by_cases hrole : msg.role ∈ roles
        · simp only [if_pos hrole]
          exact hrecords.message (enqueueMessage_spec hslot hrole run.committee)
        · simp only [if_neg hrole]
          rwa [enqueueMessage_of_not_mem hrole]
    | startDuty env duty =>
      rw [next, event, startDuty_state]
      cases hresult : ((prepareDutyAndRunner slotsPerEpoch env duty).run run.committee).result with
      | error =>
        rcases Act.wp_iff.1 (prepareDutyAndRunner_spec slotsPerEpoch env duty run.committee) with
          ⟨-, -, hstate⟩ | ⟨⟨_, hok⟩, -⟩
        · rwa [hstate]
        · cases hresult.symm.trans hok
      | ok => exact hrecords.prepared hresult
    | addShare | removeShare => exact ⟨hrecords.runner, hrecords.queue⟩

/-- The committee keeps nothing of the slot. -/
structure Free (c : Committee ρ σ) (t : ℕ) : Prop where
  runners : c.runners.lookup t = none
  aggregatorRunners : c.aggregatorRunners.lookup t = none
  queues : c.queues.lookup t = none
  aggregatorQueues : c.aggregatorQueues.lookup t = none

theorem free_iff {c : Committee ρ σ} :
    c.Free t ↔ ∀ role ∈ roles, ¬ c.HasRunner role t ∧ ¬ c.HasQueue role t := by
  rw [forall_mem_roles]
  simp only [HasRunner, HasQueue, Option.not_isSome_iff_eq_none]
  exact ⟨fun h ↦ ⟨⟨h.runners, h.queues⟩, h.aggregatorRunners, h.aggregatorQueues⟩,
    fun h ↦ ⟨h.1.1, h.2.1, h.1.2, h.2.2⟩⟩

/-- **What preparing a duty releases.** No expired slot is kept, exactly if the calls before have
stranded none. -/
theorem released_iff [EventSpec] (slotsPerEpoch : ℕ) (env : RunnerEnv ρ σ) (duty : Duty)
    (run : CommitteeRun ρ σ) (hrun : (machine slotsPerEpoch).Reachable run)
    {prepared : QueueContainer × Duty}
    (hok : ((prepareDutyAndRunner slotsPerEpoch env duty).run run.committee).result =
      .ok prepared) :
    (∀ t, Expired slotsPerEpoch duty.dutySlot t →
      ((prepareDutyAndRunner slotsPerEpoch env duty).run run.committee).state.Free t) ↔
    ∀ t, Expired slotsPerEpoch duty.dutySlot t →
      ∀ role ∈ roles, ¬ Stranded slotsPerEpoch role t run.log := by
  have hrecords := (records_of_reachable hrun).prepared hok
  refine forall_congr' fun t ↦ forall_congr' fun ht ↦ ?_
  rw [free_iff]
  refine forall_congr' fun role ↦ forall_congr' fun hrole ↦ ?_
  -- the slot of the duty itself is not expired
  have hne : t ≠ duty.dutySlot := by
    rintro rfl
    exact not_expired_self _ _ ht
  rw [hrecords.runner role hrole t, hrecords.queue role hrole t]
  simp [Assigned, Stranded, hne, ht]

end Committee

/-! ### A slot without a duty -/

namespace Reference

/-- Every event is of slot `1`; the first byte of an identifier is the role. -/
@[reducible]
def eventSpec : EventSpec where
  getRoleType msgID := if msgID.head? = some 0 then .committee else .aggregatorCommittee
  getTimeoutData _ := .ok ⟨1, 1⟩
  getExecuteDutyData _ := .ok none

local instance committeeEvents : EventSpec := eventSpec

open Committee

def runnerEnv : RunnerEnv Unit Unit where
  createRunnerFn duty _ _ :=
    match duty with
    | .committee _ _ => .ok (.committeeRunner (some ()))
    | .aggregatorCommittee _ _ => .ok (.aggregatorCommitteeRunner (some ()))
  startNewDuty _ := .ok ()
  order := .stored

def attesterDuty (slot : ℕ) : Duty :=
  .committee slot [{ type := .attester, pubKey := [], slot := slot, validatorIndex := 7,
                     committeeIndex := 0 }]

def timeoutMessage : Queue.SSVMessage where
  signedSSVMessage := none
  ssvMessage := { msgType := .other 200, msgID := [0], data := [] }
  body := .event ⟨.timeout, []⟩
  signed := nofun

def ownShare : Committee Unit Unit := Committee.new ((∅ : GoMap ℕ Share).insert 7 ⟨7, [7]⟩)

def started : CommitteeRun Unit Unit := ⟨ownShare, []⟩

/-- A duty and a message in slot `1`, and another message before the duty of slot `2`. -/
def servedCalls : List (CommitteeCall Unit Unit) :=
  [.enqueueMessage timeoutMessage, .startDuty runnerEnv (attesterDuty 1),
    .enqueueMessage timeoutMessage, .startDuty runnerEnv (attesterDuty 2)]

theorem enables_machine (run : CommitteeRun Unit Unit) (calls : List (CommitteeCall Unit Unit)) :
    (machine 32).Enables run calls := by
  induction calls generalizing run with
  | nil => trivial
  | cons call calls ih => exact ⟨trivial, ih _⟩

theorem reachable_calls (calls : List (CommitteeCall Unit Unit)) :
    (machine 32).Reachable (calls.foldl (machine 32).next started) :=
  have hinitial : (machine 32).initial started := ⟨_, rfl⟩
  (Machine.Reachable.initial hinitial).foldl (enables_machine _ _)

/-- The run of these calls. -/
def servedRun : CommitteeRun Unit Unit := servedCalls.foldl (machine 32).next started

theorem servedRun_log : servedRun.log =
    [.prepared .committee 2, .message .committee 1, .prepared .committee 1,
      .message .committee 1] := by
  decide +kernel

theorem servedRun_prepares : ∃ prepared,
    ((prepareDutyAndRunner 32 runnerEnv (attesterDuty 40)).run servedRun.committee).result =
      .ok prepared := by
  have hok : ((prepareDutyAndRunner 32 runnerEnv (attesterDuty 40)).run
      servedRun.committee).result.isOk = true := by
    decide +kernel
  generalize ((prepareDutyAndRunner 32 runnerEnv (attesterDuty 40)).run
    servedRun.committee).result = r
    at hok
  cases r with
  | error => cases hok
  | ok prepared => exact ⟨prepared, rfl⟩

/-- The duty of slot `40` releases slot `1`. -/
theorem released_iff_servedRun :
    (servedRun.committee.queues.lookup 1).isSome ∧ Expired 32 40 1 ∧
      ((prepareDutyAndRunner 32 runnerEnv (attesterDuty 40)).run servedRun.committee).state.Free
        1 := by
  obtain ⟨prepared, hok⟩ := servedRun_prepares
  have hexpired : Expired 32 40 1 := by
    unfold Expired
    decide
  refine ⟨by decide +kernel, hexpired, (released_iff 32 runnerEnv (attesterDuty 40) servedRun
    (reachable_calls servedCalls) hok).2 (fun t _ role _ ↦ ?_) 1 hexpired⟩
  simp only [servedRun_log, Stranded, Assigned]
  tauto

/-- **A queue that only a message asked for stays**: slot `1` has it when the duty of slot `40` is
prepared. -/
theorem message_only_queue_stays :
    ∃ run : CommitteeRun Unit Unit, (machine 32).Reachable run ∧
      (∃ prepared, ((prepareDutyAndRunner 32 runnerEnv (attesterDuty 40)).run
        run.committee).result =
        .ok prepared) ∧
      Expired 32 40 1 ∧
      ((((prepareDutyAndRunner 32 runnerEnv (attesterDuty 40)).run
        run.committee).state).queues.lookup
        1).isSome := by
  refine ⟨_, reachable_calls [.enqueueMessage timeoutMessage], ⟨_, rfl⟩, ?_, by decide +kernel⟩
  unfold Expired
  decide

end Reference

end Ssv.Validator
