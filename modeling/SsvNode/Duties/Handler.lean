import SsvNode.Lib.GoMap
import SsvNode.Registry.Types
import SsvNode.Validation.Network

/-!
# What the duty handlers share

The duty store, the map of **intents** (`false`: to be fetched, `true`: fetched) and the order in
which a tick of the attester or the proposer handler goes through them. Slots and epochs come from
the clock and are `ℕ`; only the subtraction of `shouldFetchNextEpoch` wraps, for epochs shorter than
four slots.
-/

namespace Ssv.Duties

export Validation (Network)

open Registry (ValidatorState)

/-- An error, of which only the text is known. -/
abbrev Err : Type := String

/-! ### Shares -/

def ValidatorState.isAttesting : ValidatorState → Bool
  | .activeOngoing | .activeExiting => true
  | _ => false

def ValidatorState.isExited : ValidatorState → Bool
  | .exitedUnslashed | .exitedSlashed => true
  | _ => false

/-- `ssvtypes.SSVShare`, with the field that is kept in memory only. -/
structure Share extends Registry.SSVShare where
  minParticipationEpoch : ℕ := 0
  deriving DecidableEq

namespace Share

def isAttesting (s : Share) (epoch : ℕ) : Bool :=
  if s.liquidated || !s.hasBeaconMetadata then false
  else if ValidatorState.isAttesting s.status then true
  else decide (s.status = .pendingQueued) && decide (s.activationEpoch ≤ epoch)

def isSyncCommitteeEligible (net : Network) (s : Share) (epoch : ℕ) : Bool :=
  if s.liquidated then false
  else if s.isAttesting epoch then true
  else
    (ValidatorState.isExited s.status || decide (s.status = .withdrawalPossible) ||
        decide (s.status = .activeSlashed)) &&
      (decide (s.exitEpoch ≤ epoch) &&
        decide (net.estimatedSyncCommitteePeriodAtEpoch epoch -
          net.estimatedSyncCommitteePeriodAtEpoch s.exitEpoch ≤ 1))

def isParticipating (net : Network) (s : Share) (epoch : ℕ) : Bool :=
  s.isSyncCommitteeEligible net epoch

end Share

/-! ### The duty store -/

structure StoreDuty (D : Type) where
  slot : ℕ
  validatorIndex : ℕ
  duty : D
  inCommittee : Bool
  deriving DecidableEq

/-- `dutystore.Duties`. -/
structure Store (D : Type) where
  m : GoMap ℕ (GoMap ℕ (GoMap ℕ (StoreDuty D))) := ∅
  stale : GoMap ℕ Unit := ∅

namespace Store

variable {D : Type} (s : Store D)

/-- `CommitteeSlotDuties`. The map of the validators is ranged over in some order. -/
def committeeSlotDuties (order : MapOrder ((_ : ℕ) × StoreDuty D)) (epoch slot : ℕ) : List D :=
  match (s.m.lookup epoch).bind (·.lookup slot) with
  | none => []
  | some descriptorMap =>
    ((order.iterate descriptorMap.entries).filter (·.2.inCommittee)).map (·.2.duty)

/-- The maps that `Set` builds of a list of duties. -/
def mapped (duties : List (StoreDuty D)) : GoMap ℕ (GoMap ℕ (StoreDuty D)) :=
  duties.foldl (fun mapped duty ↦ mapped.insert duty.slot
    (((mapped.lookup duty.slot).getD ∅).insert duty.validatorIndex duty)) ∅

def set (epoch : ℕ) (duties : List (StoreDuty D)) : Store D :=
  ⟨s.m.insert epoch (mapped duties), s.stale.erase epoch⟩

def eraseEpochData (epoch : ℕ) : Store D := ⟨s.m.erase epoch, s.stale.erase epoch⟩

end Store

/-! ### Slots -/

variable (net : Network)

def shouldFetchNextEpoch (currentSlot : ℕ) : Bool :=
  currentSlot % net.slotsPerEpoch > (net.slotsPerEpoch / 2 + 2 ^ 64 - 2) % 2 ^ 64

def atLastSlotOfCurrentEpoch (currentSlot : ℕ) : Bool :=
  (currentSlot + 1) % net.slotsPerEpoch = 0

theorem epoch_lt_of_atLastSlot {net : Network} {slot slot' : ℕ}
    (hlast : atLastSlotOfCurrentEpoch net slot) (h : slot < slot') :
    net.estimatedEpochAtSlot slot < net.estimatedEpochAtSlot slot' := by
  have hmod : (slot + 1) % net.slotsPerEpoch = 0 := of_decide_eq_true hlast
  obtain ⟨k, hk⟩ := Nat.dvd_of_mod_eq_zero hmod
  have hpos : 0 < net.slotsPerEpoch := by
    rcases Nat.eq_zero_or_pos net.slotsPerEpoch with hzero | hpos
    · rw [hzero, Nat.zero_mul] at hk
      omega
    · exact hpos
  have hlt : slot / net.slotsPerEpoch < k := by
    rw [Nat.div_lt_iff_lt_mul hpos, Nat.mul_comm, ← hk]
    exact Nat.lt_succ_self slot
  have hle : k ≤ slot' / net.slotsPerEpoch := by
    rw [Nat.le_div_iff_mul_le hpos, Nat.mul_comm, ← hk]
    exact h
  exact lt_of_lt_of_le hlt hle

theorem epoch_mono {slot slot' : ℕ} (h : slot ≤ slot') :
    net.estimatedEpochAtSlot slot ≤ net.estimatedEpochAtSlot slot' :=
  Nat.div_le_div_right h

/-! ### Intents -/

/-- What the attester and the proposer handler keep. -/
structure Handler (D : Type) where
  exporterMode : Bool := false
  dutyFetchIntents : GoMap ℕ Bool := ∅
  duties : Store D := {}

namespace Handler

variable {D ω : Type}

def declareIntent (h : Handler D) (epoch : ℕ) : Handler D :=
  { h with dutyFetchIntents := h.dutyFetchIntents.insert epoch false }

def fulfilIntent (h : Handler D) (epoch : ℕ) : Handler D :=
  { h with dutyFetchIntents := h.dutyFetchIntents.insert epoch true }

def deleteIntent (h : Handler D) (epoch : ℕ) : Handler D :=
  { h with dutyFetchIntents := h.dutyFetchIntents.erase epoch }

/-- An intent is declared only if there is none. -/
def scheduleIntent (h : Handler D) (epoch : ℕ) : Handler D :=
  if (h.dutyFetchIntents.lookup epoch).isSome then h else h.declareIntent epoch

section Lookups

variable {h : Handler D} {epoch e : ℕ}

theorem lookup_declareIntent : (h.declareIntent epoch).dutyFetchIntents.lookup e =
    if e = epoch then some false else h.dutyFetchIntents.lookup e := by
  unfold declareIntent
  split
  · next he => rw [he, AList.lookup_insert]
  · next he => exact AList.lookup_insert_ne he

theorem lookup_fulfilIntent : (h.fulfilIntent epoch).dutyFetchIntents.lookup e =
    if e = epoch then some true else h.dutyFetchIntents.lookup e := by
  unfold fulfilIntent
  split
  · next he => rw [he, AList.lookup_insert]
  · next he => exact AList.lookup_insert_ne he

theorem lookup_deleteIntent : (h.deleteIntent epoch).dutyFetchIntents.lookup e =
    if e = epoch then none else h.dutyFetchIntents.lookup e := by
  unfold deleteIntent
  split
  · next he => rw [he, AList.lookup_erase]
  · next he => exact AList.lookup_erase_ne he

theorem lookup_scheduleIntent : (h.scheduleIntent epoch).dutyFetchIntents.lookup e =
    if e = epoch then some ((h.dutyFetchIntents.lookup epoch).getD false)
    else h.dutyFetchIntents.lookup e := by
  unfold scheduleIntent
  rcases hfound : h.dutyFetchIntents.lookup epoch with - | fulfilled
  · simp [lookup_declareIntent]
  · rw [Option.isSome_some, if_pos rfl, Option.getD_some]
    split
    · next he => rw [he, hfound]
    · rfl

end Lookups

/-- Fetch the duties of an epoch with an open intent, and note whether a fetch ran. On an error the
intent stays open. -/
def prepareEpoch (fetch : Act Err ω (Handler D) Bool) (epoch : ℕ) : Act Err ω (Handler D) Unit := do
  let h ← Act.read
  if h.dutyFetchIntents.lookup epoch = some false then
    match ← fetch.attempt with
    | .ok true => Act.update (·.fulfilIntent epoch)
    | _ => pure ()
  else pure ()

def prepareCurrentEpoch (fetch : Act Err ω (Handler D) Bool) (currentEpoch : ℕ) :
    Act Err ω (Handler D) Unit :=
  prepareEpoch fetch currentEpoch

/-- `prepareNextEpoch`, which waits for a good time. -/
def prepareNextEpoch (fetch : Act Err ω (Handler D) Bool)
    (currentEpoch currentSlot : ℕ) : Act Err ω (Handler D) Unit :=
  if shouldFetchNextEpoch net currentSlot then prepareEpoch fetch (currentEpoch + 1) else pure ()

/-- The end of an indices change, of a reorg and of the start. -/
def prefetch (fetch : ℕ → Act Err ω (Handler D) Bool) (currentSlot : ℕ) :
    Act Err ω (Handler D) Unit := do
  let currentEpoch := net.estimatedEpochAtSlot currentSlot
  if atLastSlotOfCurrentEpoch net currentSlot then do
    Act.update (·.deleteIntent currentEpoch)
    prepareNextEpoch net (fetch (currentEpoch + 1)) currentEpoch currentSlot
  else prepareCurrentEpoch (fetch currentEpoch) currentEpoch

/-- What a handler does in a tick, besides minding its intents. -/
structure TickParts (ω D : Type) where
  fetchCurrent : Act Err ω (Handler D) Bool
  execute : Act Err ω (Handler D) Unit
  fetchNext : Act Err ω (Handler D) Bool
  /-- The indices change received while the tick waits, or nothing. -/
  indicesChange : Act Err ω (Handler D) Unit

def cleanUp (h : Handler D) (net : Network) (currentSlot : ℕ) : Handler D :=
  let currentEpoch := net.estimatedEpochAtSlot currentSlot
  if net.isFirstSlotOfEpoch currentSlot && decide (1 ≤ currentEpoch) then
    { h with duties := h.duties.eraseEpochData (currentEpoch - 1) }.deleteIntent (currentEpoch - 1)
  else h

theorem lookup_cleanUp {net : Network} {currentSlot e : ℕ} {h : Handler D} :
    (h.cleanUp net currentSlot).dutyFetchIntents.lookup e =
      if net.isFirstSlotOfEpoch currentSlot ∧ e + 1 = net.estimatedEpochAtSlot currentSlot then none
      else h.dutyFetchIntents.lookup e := by
  unfold cleanUp
  simp only [Bool.and_eq_true, decide_eq_true_eq]
  by_cases hfirst : net.isFirstSlotOfEpoch currentSlot ∧ 1 ≤ net.estimatedEpochAtSlot currentSlot
  · rw [if_pos hfirst, lookup_deleteIntent]
    by_cases he : e + 1 = net.estimatedEpochAtSlot currentSlot
    · rw [if_pos (by omega), if_pos ⟨hfirst.1, he⟩]
    · rw [if_neg (by omega), if_neg fun h ↦ he h.2]
  · rw [if_neg hfirst, if_neg fun h ↦ hfirst ⟨h.1, by omega⟩]

/-- A tick in `HandleDuties`. -/
def handleTick (parts : TickParts ω D) (currentSlot : ℕ) : Act Err ω (Handler D) Unit := do
  let currentEpoch := net.estimatedEpochAtSlot currentSlot
  prepareCurrentEpoch parts.fetchCurrent currentEpoch
  parts.execute
  prepareNextEpoch net parts.fetchNext currentEpoch currentSlot
  Act.update (·.cleanUp net currentSlot)
  Act.update (·.scheduleIntent (currentEpoch + 1))
  parts.indicesChange

end Handler

end Ssv.Duties
