import SsvNode.Validation.Histories
import SsvNode.Validation.SlotRing

/-!
# The duties of an epoch

Duties are counted by epoch, in a ring of two or three epochs. A count is lost when another epoch
takes its entry, and an epoch that finds a later one there is not counted. That does not matter
while such an epoch can have no more messages: slots do not go back (`monotonicSlotRole`), or are
all late. The latter needs that **the time of a slot can be computed**
(`Reference.duties_exceed_limit`).
-/

namespace Ssv.Validation

open ValidationSpec OperatorState List Finset Option

/-! ### The ring of counts -/

section

variable {duties : List EpochDuties} {epoch i : ℕ} {entry : EpochDuties}

theorem countDuty_cases (duties : List EpochDuties) (epoch : ℕ) :
    countDuty duties epoch = duties ∨
    ∃ entry, countDuty duties epoch = duties.set (epoch % duties.length) entry := by
  unfold countDuty
  dsimp only
  split
  · exact .inl rfl
  · split
    · exact .inr ⟨_, rfl⟩
    · split
      · exact .inr ⟨_, rfl⟩
      · exact .inl rfl

@[simp] theorem length_countDuty (duties : List EpochDuties) (epoch : ℕ) :
    (countDuty duties epoch).length = duties.length := by
  rcases countDuty_cases duties epoch with h | ⟨entry, h⟩
  · rw [h]
  · rw [h, length_set]

theorem getElem?_countDuty_ne (h : i ≠ epoch % duties.length) :
    (countDuty duties epoch)[i]? = duties[i]? := by
  rcases countDuty_cases duties epoch with heq | ⟨entry, heq⟩
  · rw [heq]
  · rw [heq, getElem?_set_ne h.symm]

theorem getElem?_countDuty_new (h : duties[epoch % duties.length]? = some entry)
    (hnew : entry.count = 0 ∨ epoch > entry.epoch) :
    (countDuty duties epoch)[epoch % duties.length]? = some ⟨epoch, 1⟩ := by
  simp only [countDuty, h, if_pos hnew]
  exact List.getElem?_set_self (List.getElem?_eq_some_iff.1 h).1

theorem getElem?_countDuty_same (h : duties[epoch % duties.length]? = some entry)
    (hcount : entry.count ≠ 0) (hsame : epoch = entry.epoch) :
    (countDuty duties epoch)[epoch % duties.length]? = some ⟨entry.epoch, entry.count + 1⟩ := by
  have hold : ¬ (entry.count = 0 ∨ epoch > entry.epoch) := by omega
  simp only [countDuty, h, if_neg hold, if_pos hsame]
  exact List.getElem?_set_self (List.getElem?_eq_some_iff.1 h).1

end

/-! ### Slots of an epoch -/

section

variable (net : Network)

def Accepted.epoch (a : Accepted) : ℕ := net.estimatedEpochAtSlot a.plan.slot

def slotsIn (epoch : ℕ) (log : List Accepted) : Finset ℕ :=
  ((log.filter fun a ↦ a.epoch net = epoch).map (·.plan.slot)).toFinset

variable {net} {epoch : ℕ} {log : List Accepted} {a : Accepted}

theorem mem_slotsIn {slot : ℕ} :
    slot ∈ slotsIn net epoch log ↔ ∃ a ∈ log, a.epoch net = epoch ∧ a.plan.slot = slot := by
  simp [slotsIn, and_assoc]

theorem slotsIn_cons_of_ne (h : a.epoch net ≠ epoch) :
    slotsIn net epoch (a :: log) = slotsIn net epoch log := by
  rw [slotsIn, List.filter_cons_of_neg (by simpa using h), slotsIn]

theorem slotsIn_cons_self :
    slotsIn net (a.epoch net) (a :: log) = insert a.plan.slot (slotsIn net (a.epoch net) log) := by
  rw [slotsIn, List.filter_cons_of_pos (by simp), List.map_cons, List.toFinset_cons, slotsIn]

theorem slotsIn_cons_of_mem (epoch : ℕ) {b : Accepted} (hb : b ∈ log)
    (hslot : b.plan.slot = a.plan.slot) : slotsIn net epoch (a :: log) = slotsIn net epoch log := by
  by_cases h : a.epoch net = epoch
  · subst h
    rw [slotsIn_cons_self]
    refine insert_eq_of_mem (mem_slotsIn.2 ⟨b, hb, ?_, hslot⟩)
    rw [Accepted.epoch, hslot, Accepted.epoch]
  · exact slotsIn_cons_of_ne h

theorem slotsIn_eq_empty (h : ∀ a ∈ log, a.epoch net ≠ epoch) : slotsIn net epoch log = ∅ := by
  refine eq_empty_of_forall_notMem fun slot hslot ↦ ?_
  obtain ⟨a, ha, hepoch, -⟩ := mem_slotsIn.1 hslot
  exact h a ha hepoch

end

/-! ### The invariant -/

section

variable {net : Network} {log : List Accepted} {os : OperatorState} {a : Accepted} {ringLength : ℕ}

variable (net) in
/-- The entry of an epoch with messages counts its slots, unless a later epoch has taken it. -/
structure DutiesCounted (ringLength : ℕ) (log : List Accepted) (os : OperatorState) : Prop where
  length : os.duties.length = ringLength
  counted : ∀ i entry, os.duties[i]? = some entry → entry.count ≠ 0 →
    entry.epoch % ringLength = i ∧ ∃ b ∈ log, b.epoch net = entry.epoch
  counts : ∀ b ∈ log, ∃ entry, os.duties[b.epoch net % ringLength]? = some entry ∧
    entry.count ≠ 0 ∧ b.epoch net ≤ entry.epoch ∧
    (entry.epoch = b.epoch net → (slotsIn net (b.epoch net) log).card ≤ entry.count)

/-- No message of the log is of an epoch that has taken the entry of the given one. -/
def Unevicted (net : Network) (ringLength epoch : ℕ) (log : List Accepted) : Prop :=
  ∀ b ∈ log, b.epoch net < epoch + ringLength

section

variable (h : DutiesCounted net ringLength log os)
include h

theorem DutiesCounted.entry_le {epoch : ℕ} (hring : Unevicted net ringLength epoch log)
    {entry : EpochDuties} (hentry : os.duties[epoch % ringLength]? = some entry)
    (hcount : entry.count ≠ 0) : entry.epoch ≤ epoch := by
  obtain ⟨hmod, b, hb, hepoch⟩ := h.counted _ _ hentry hcount
  have hlt := hring b hb
  rw [hepoch] at hlt
  by_contra hgt
  have := Nat.ModEq.add_le_of_lt (hmod.symm : epoch ≡ entry.epoch [MOD ringLength])
    (Nat.lt_of_not_le hgt)
  omega

/-- **The count of an epoch that was not evicted** is at least the number of its slots. -/
theorem DutiesCounted.card_le {epoch : ℕ} (hring : Unevicted net ringLength epoch log) :
    (slotsIn net epoch log).card ≤ os.dutyCount epoch := by
  by_cases hlog : ∃ b ∈ log, b.epoch net = epoch
  · obtain ⟨b, hb, rfl⟩ := hlog
    obtain ⟨entry, hentry, hcount, hle, hcard⟩ := h.counts b hb
    have hepoch : entry.epoch = b.epoch net := le_antisymm (h.entry_le hring hentry hcount) hle
    have hduties : os.dutyCount (b.epoch net) = entry.count := by
      rw [dutyCount, h.length, hentry]
      exact if_neg fun hzero ↦ hzero.elim hcount fun hne ↦ hne hepoch
    exact hduties ▸ hcard hepoch
  · rw [slotsIn_eq_empty fun b hb hepoch ↦ hlog ⟨b, hb, hepoch⟩]
    exact Nat.zero_le _

theorem DutiesCounted.again {os' : OperatorState}
    (hduties : os'.duties = os.duties) {b : Accepted} (hb : b ∈ log)
    (hslot : b.plan.slot = a.plan.slot) : DutiesCounted net ringLength (a :: log) os' := by
  have hepoch : b.epoch net = a.epoch net := by
    rw [Accepted.epoch, hslot, Accepted.epoch]
  refine ⟨hduties ▸ h.length, fun i entry hentry hcount ↦ ?_, fun c hc ↦ ?_⟩
  · obtain ⟨hmod, d, hd, hdepoch⟩ := h.counted i entry (hduties ▸ hentry) hcount
    exact ⟨hmod, d, .tail _ hd, hdepoch⟩
  · rw [hduties, slotsIn_cons_of_mem _ hb hslot]
    rcases mem_cons.1 hc with rfl | hc
    · exact hepoch ▸ h.counts b hb
    · exact h.counts c hc

theorem DutiesCounted.exists_entry (hpos : 0 < ringLength)
    (hring : Unevicted net ringLength (a.epoch net) log) :
    ∃ count, (countDuty os.duties (a.epoch net))[a.epoch net % ringLength]? =
      some ⟨a.epoch net, count⟩ ∧ count ≠ 0 ∧
      (slotsIn net (a.epoch net) (a :: log)).card ≤ count := by
  obtain ⟨entry, hentry⟩ : ∃ entry, os.duties[a.epoch net % ringLength]? = some entry :=
    ⟨_, getElem?_eq_getElem (h.length.symm ▸ Nat.mod_lt _ hpos)⟩
  have hentry' := hentry
  rw [← h.length] at hentry' ⊢
  by_cases hnew : entry.count = 0 ∨ a.epoch net > entry.epoch
  · refine ⟨1, getElem?_countDuty_new hentry' hnew, one_ne_zero, ?_⟩
    have hnone : slotsIn net (a.epoch net) log = ∅ := by
      refine slotsIn_eq_empty fun b hb hepoch ↦ ?_
      obtain ⟨entry', hfound, hcount, hle, -⟩ := h.counts b hb
      rw [hepoch, hentry] at hfound
      cases hfound
      omega
    rw [slotsIn_cons_self, hnone]
    exact (card_singleton _).le
  · have hcount : entry.count ≠ 0 := by omega
    have hle := h.entry_le hring hentry hcount
    have hepoch : a.epoch net = entry.epoch := by omega
    refine ⟨entry.count + 1, ?_, by omega, ?_⟩
    · rw [getElem?_countDuty_same hentry' hcount hepoch, hepoch]
    · rw [slotsIn_cons_self]
      refine (card_insert_le _ _).trans (Nat.succ_le_succ ((h.card_le hring).trans ?_))
      rw [dutyCount, hentry']
      exact (if_neg fun hzero ↦ hzero.elim hcount fun hne ↦ hne hepoch.symm).le

/-- **A message for a new slot is counted.** -/
theorem DutiesCounted.count (hpos : 0 < ringLength)
    (hring : Unevicted net ringLength (a.epoch net) log) {os' : OperatorState}
    (hduties : os'.duties = countDuty os.duties (a.epoch net)) :
    DutiesCounted net ringLength (a :: log) os' := by
  obtain ⟨count, hentry, hcount, hcard⟩ := h.exists_entry hpos hring
  have hother : ∀ i, i ≠ a.epoch net % ringLength →
      (countDuty os.duties (a.epoch net))[i]? = os.duties[i]? :=
    fun i hi ↦ getElem?_countDuty_ne (h.length.symm ▸ hi)
  rw [← hduties] at hentry hother
  refine ⟨?_, fun i entry' hentry' hcount' ↦ ?_, fun c hc ↦ ?_⟩
  · rw [hduties, length_countDuty, h.length]
  · by_cases hi : i = a.epoch net % ringLength
    · subst hi
      obtain rfl := some.inj (hentry.symm.trans hentry')
      exact ⟨rfl, a, .head _, rfl⟩
    · obtain ⟨hmod, b, hb, hepoch⟩ := h.counted i entry' (hother i hi ▸ hentry') hcount'
      exact ⟨hmod, b, .tail _ hb, hepoch⟩
  · by_cases hi : c.epoch net % ringLength = a.epoch net % ringLength
    · refine ⟨_, hi ▸ hentry, hcount, ?_, fun heq ↦ heq ▸ hcard⟩
      rcases mem_cons.1 hc with rfl | hc
      · exact le_rfl
      · by_contra hgt
        have hadd := Nat.ModEq.add_le_of_lt (hi.symm : a.epoch net ≡ c.epoch net [MOD ringLength])
          (Nat.lt_of_not_le hgt)
        have := hring c hc
        omega
    · have hne : a.epoch net ≠ c.epoch net := fun heq ↦ hi (by rw [heq])
      rw [hother _ hi, slotsIn_cons_of_ne hne]
      rcases mem_cons.1 hc with rfl | hc
      · exact absurd rfl hne
      · exact h.counts c hc

end

end

/-! ### Epochs that can still have messages -/

section

variable {net : Network} {role : RunnerRole} {slot slot' ttl : ℕ} {receivedAt receivedAt' : Int}

theorem latenessTTL_of_not_monotonic (net : Network) (h : monotonicSlotRole role = false) :
    ∃ ttl, latenessTTL net role = some ttl ∧ storedEpochCount role = 3 ∧
      (role ≠ .proposerPreferences → ttl = net.slotsPerEpoch + lateSlotAllowance) ∧
      (role = .proposerPreferences → ttl = lateSlotAllowance) := by
  cases role with
  | committee | aggregatorCommittee => exact ⟨_, rfl, rfl, fun _ ↦ rfl, nofun⟩
  | proposerPreferences => exact ⟨_, rfl, rfl, fun hne ↦ absurd rfl hne, fun _ ↦ rfl⟩
  | _ => cases h

/-- **An epoch that takes an entry comes after the last message of the one before**, in the roles
whose slots may go back. -/
theorem epoch_lt_of_validateSlotTime (hd : 5 * second ≤ net.slotDuration)
    (hspe : 2 ≤ net.slotsPerEpoch) (hrole : monotonicSlotRole role = false)
    (hrange : ∀ ttl, latenessTTL net role = some ttl → InRange net (slot + ttl))
    (hrange' : ∀ ttl, latenessTTL net role = some ttl → InRange net (slot' + ttl))
    (hle : receivedAt' ≤ receivedAt) (h : validateSlotTime net slot role receivedAt = .ok ())
    (h' : validateSlotTime net slot' role receivedAt' = .ok ()) :
    net.estimatedEpochAtSlot slot' < net.estimatedEpochAtSlot slot + storedEpochCount role := by
  obtain ⟨ttl, httl, hring, hlong, hshort⟩ := latenessTTL_of_not_monotonic net hrole
  have hexpected := expectedFromSlot_le_add hd httl (hrange ttl httl) (hrange' ttl httl) hle h h'
  have hslot : slot < (slot / net.slotsPerEpoch + 1) * net.slotsPerEpoch := by
    have := Nat.lt_div_mul_add (a := slot) (show 0 < net.slotsPerEpoch by omega)
    rwa [Nat.succ_mul]
  rw [hring]
  unfold Network.estimatedEpochAtSlot
  by_cases hpreferences : role = .proposerPreferences
  · rw [expectedFromSlot, if_pos hpreferences, hshort hpreferences, Network.firstSlotAtEpoch,
      lateSlotAllowance] at hexpected
    have hepoch : slot' / net.slotsPerEpoch - 1 < slot / net.slotsPerEpoch + 2 := by
      refine Nat.lt_of_mul_lt_mul_right (a := net.slotsPerEpoch) (lt_of_le_of_lt hexpected ?_)
      rw [Nat.add_mul] at hslot ⊢
      omega
    omega
  · rw [expectedFromSlot, if_neg hpreferences, hlong hpreferences, lateSlotAllowance] at hexpected
    rw [Nat.div_lt_iff_lt_mul (by omega)]
    rw [Nat.add_mul] at hslot ⊢
    omega

end

/-! ### The seat -/

section

variable [ValidationSpec] {net : Network} {seat : Seat} {log : List Accepted}
  {os : Option OperatorState} {a : Accepted}

variable (net) in
/-- The slots of the role do not go back, or the message is received no earlier than those before
it, for a slot whose time can be computed. -/
def Timely (log : List Accepted) (a : Accepted) : Prop :=
  monotonicSlotRole (getRoleType a.plan.key) = true ∨
  (∀ ttl, latenessTTL net (getRoleType a.plan.key) = some ttl → InRange net (a.plan.slot + ttl)) ∧
    ∀ b ∈ log, b.receipt.receivedAt ≤ a.receipt.receivedAt

variable (net) in
/-- The limit on the duties of the epoch that a message has met. -/
def Accepted.limit (a : Accepted) : Option ℕ :=
  dutyLimit net a.receipt (getRoleType a.plan.key) (getDutyExecutorID a.plan.key) a.plan.slot
    a.plan.ci.validatorIndices

variable (net) in
/-- What is known of the state at a seat. -/
structure SeatInvariant (role : RunnerRole) (log : List Accepted) (os : OperatorState) : Prop where
  duties : DutiesCounted net (storedEpochCount role) log os
  slots : ∀ slot, (os.getSignerStateForSlot slot).isSome → ∃ b ∈ log, b.plan.slot = slot
  maxSlot : ∀ b ∈ log, b.plan.slot ≤ os.maxSlot
  time : ∀ b ∈ log, validateSlotTime net b.plan.slot role b.receipt.receivedAt = .ok () ∧
    (monotonicSlotRole role = false → ∀ ttl, latenessTTL net role = some ttl →
      InRange net (b.plan.slot + ttl))
  limit : ∀ epoch L, (∀ b ∈ log, b.epoch net = epoch → b.limit net = some L) →
    (slotsIn net epoch log).card ≤ L

def seatOrNew (net : Network) (role : RunnerRole) (os : Option OperatorState) : OperatorState :=
  os.getD (.new (storedSlotCount net role) (storedEpochCount role))

omit [ValidationSpec] in
theorem storedEpochCount_pos (role : RunnerRole) : 0 < storedEpochCount role := by
  cases role <;> exact Nat.succ_pos _

omit [ValidationSpec] in
theorem dutyCount_seatOrNew (net : Network) (role : RunnerRole) (os : Option OperatorState)
    (epoch : ℕ) : (seatOrNew net role os).dutyCount epoch = peekDutyCount os epoch := by
  cases os with
  | some => rfl
  | none =>
    change (new _ _).dutyCount epoch = 0
    unfold new dutyCount
    dsimp only
    split
    · rfl
    · next entry hentry =>
      rw [eq_of_mem_replicate (mem_of_getElem? hentry)]
      rfl

omit [ValidationSpec] in
theorem getSignerStateForSlot_seatOrNew (net : Network) (role : RunnerRole)
    (os : Option OperatorState) (slot : ℕ) :
    (seatOrNew net role os).getSignerStateForSlot slot = peekSignerState os slot :=
  getSignerStateForSlot_getD_new os _ _ slot

theorem seatInvariant_new (net : Network) (role : RunnerRole) :
    SeatInvariant net role [] (seatOrNew net role none) := by
  have hduties : (seatOrNew net role none).duties = replicate (storedEpochCount role) {} := rfl
  refine ⟨⟨?_, fun i entry hentry hcount ↦ ?_, forall_mem_nil _⟩, fun slot hslot ↦ ?_,
    forall_mem_nil _, forall_mem_nil _, fun epoch L _ ↦ ?_⟩
  · rw [hduties, length_replicate]
  · rw [hduties] at hentry
    rw [eq_of_mem_replicate (mem_of_getElem? hentry)] at hcount
    exact absurd rfl hcount
  · rw [getSignerStateForSlot_seatOrNew] at hslot
    cases hslot
  · rw [slotsIn_eq_empty (forall_mem_nil _), card_empty]
    exact Nat.zero_le L

section

variable (h : SeatInvariant net (getRoleType seat.key) log
    (seatOrNew net (getRoleType seat.key) os))
include h

theorem SeatInvariant.unevicted (hd : 5 * second ≤ net.slotDuration)
    (hspe : 2 ≤ net.slotsPerEpoch) (htimely : Timely net log a)
    (ha : (seatRecorder net seat).Accepts a os) :
    Unevicted net (storedEpochCount (getRoleType seat.key)) (a.epoch net) log := by
  intro b hb
  obtain ⟨-, ⟨hkey, -⟩, hpasses⟩ := ha
  rw [Timely, hkey] at htimely
  cases hrole : monotonicSlotRole (getRoleType seat.key) with
  | true =>
    have hmax : peekMaxSlot os = (seatOrNew net (getRoleType seat.key) os).maxSlot := by
      cases os <;> rfl
    have hle : b.plan.slot ≤ a.plan.slot :=
      (h.maxSlot b hb).trans (hmax ▸ hpasses.monotonic (hkey ▸ hrole))
    exact (Nat.div_le_div_right hle).trans_lt (Nat.lt_add_of_pos_right (storedEpochCount_pos _))
  | false =>
    obtain ⟨hrange, htimes⟩ := htimely.resolve_left (by rw [hrole]; exact Bool.false_ne_true)
    obtain ⟨htime, hrange'⟩ := h.time b hb
    exact epoch_lt_of_validateSlotTime hd hspe hrole hrange (hrange' hrole) (htimes b hb)
      (hkey ▸ hpasses.time) htime

theorem SeatInvariant.card_lt
    (hring : Unevicted net (storedEpochCount (getRoleType seat.key)) (a.epoch net) log)
    (ha : (seatRecorder net seat).Accepts a os) (hnone : peekSignerState os a.plan.slot = none)
    {L : ℕ} (hL : a.limit net = some L) : (slotsIn net (a.epoch net) log).card < L := by
  have hcount := ha.2.2.duties
  unfold Accepted.limit at hL
  rw [validateDutyCount, hL] at hcount
  simp only [hnone, isNone_none, if_true, Checks.require_eq_ok] at hcount
  have hcard := h.duties.card_le hring
  rw [dutyCount_seatOrNew] at hcard
  exact lt_of_le_of_lt hcard (Nat.not_lt.1 hcount)

end

omit [ValidationSpec] in
theorem recordIn_cases (os : OperatorState) (slot epoch : ℕ) (fresh : SignerStateForSlotRound)
    (record : SignerStateForSlotRound → SignerStateForSlotRound) :
    ((os.getSignerStateForSlot slot).isSome ∧
      (os.recordIn slot epoch fresh record).duties = os.duties ∧
      (os.recordIn slot epoch fresh record).maxSlot = os.maxSlot) ∨
    (os.getSignerStateForSlot slot = none ∧
      (os.recordIn slot epoch fresh record).duties = countDuty os.duties epoch ∧
      (os.recordIn slot epoch fresh record).maxSlot = max os.maxSlot slot) := by
  unfold recordIn
  cases os.getSignerStateForSlot slot with
  | some => exact .inl ⟨rfl, rfl, rfl⟩
  | none => exact .inr ⟨rfl, rfl, rfl⟩

/-- **Accepting a message keeps the invariant.** -/
theorem SeatInvariant.accept
    (h : SeatInvariant net (getRoleType seat.key) log (seatOrNew net (getRoleType seat.key) os))
    (hd : 5 * second ≤ net.slotDuration) (hspe : 2 ≤ net.slotsPerEpoch)
    (htimely : Timely net log a) (ha : (seatRecorder net seat).Accepts a os) :
    SeatInvariant net (getRoleType seat.key) (a :: log) ((seatRecorder net seat).record a os) := by
  have hring := h.unevicted hd hspe htimely ha
  have hcard := h.card_lt hring ha
  obtain ⟨⟨message, hmessage⟩, ⟨hkey, -⟩, hpasses⟩ := ha
  have hrecord : (seatRecorder net seat).record a os =
      (seatOrNew net (getRoleType seat.key) os).recordIn a.plan.slot (a.epoch net) a.plan.fresh
        (a.plan.record a.receipt) := rfl
  have hslots : ∀ slot, (((seatRecorder net seat).record a os).getSignerStateForSlot slot).isSome →
      ∃ b ∈ a :: log, b.plan.slot = slot := by
    intro slot hsome
    obtain ⟨s', hs'⟩ := isSome_iff_exists.1 hsome
    rw [hrecord] at hs'
    rcases getSignerStateForSlot_recordIn (fun s hs ↦ a.plan.slot_record hmessage hs)
      a.plan.slot_fresh hs' with ⟨hslot, -⟩ | ⟨-, hold⟩
    · exact ⟨a, .head _, hslot⟩
    · obtain ⟨b, hb, hslot⟩ := h.slots slot (isSome_iff_exists.2 ⟨s', hold⟩)
      exact ⟨b, .tail _ hb, hslot⟩
  have htime :
      validateSlotTime net a.plan.slot (getRoleType seat.key) a.receipt.receivedAt = .ok () ∧
      (monotonicSlotRole (getRoleType seat.key) = false →
        ∀ ttl, latenessTTL net (getRoleType seat.key) = some ttl →
          InRange net (a.plan.slot + ttl)) := by
    refine ⟨hkey ▸ hpasses.time, fun hrole ↦ ?_⟩
    rw [Timely, hkey] at htimely
    exact (htimely.resolve_left (by rw [hrole]; exact Bool.false_ne_true)).1
  have hlimits : ∀ {epoch L}, (∀ b ∈ a :: log, b.epoch net = epoch → b.limit net = some L) →
      (slotsIn net epoch log).card ≤ L :=
    fun hL ↦ h.limit _ _ fun b hb ↦ hL b (.tail _ hb)
  rcases recordIn_cases (seatOrNew net (getRoleType seat.key) os) a.plan.slot (a.epoch net)
    a.plan.fresh (a.plan.record a.receipt) with ⟨hsome, hduties, hmax⟩ | ⟨hnone, hduties, hmax⟩
  · rw [← hrecord] at hduties hmax
    obtain ⟨b, hb, hslot⟩ := h.slots a.plan.slot hsome
    refine ⟨h.duties.again hduties hb hslot, hslots, ?_, forall_mem_cons.2 ⟨htime, h.time⟩,
      fun epoch L hL ↦ ?_⟩
    · rw [hmax]
      exact forall_mem_cons.2 ⟨hslot ▸ h.maxSlot b hb, h.maxSlot⟩
    · rw [slotsIn_cons_of_mem _ hb hslot]
      exact hlimits hL
  · rw [← hrecord] at hduties hmax
    rw [getSignerStateForSlot_seatOrNew] at hnone
    refine ⟨h.duties.count (storedEpochCount_pos _) hring hduties, hslots, ?_,
      forall_mem_cons.2 ⟨htime, h.time⟩, fun epoch L hL ↦ ?_⟩
    · rw [hmax]
      exact forall_mem_cons.2 ⟨le_max_right _ _, fun b hb ↦
        (h.maxSlot b hb).trans (le_max_left _ _)⟩
    · by_cases hsame : a.epoch net = epoch
      · subst hsame
        rw [slotsIn_cons_self]
        exact (card_insert_le _ _).trans (hcard hnone (hL a (.head _) rfl))
      · rw [slotsIn_cons_of_ne hsame]
        exact hlimits hL

variable (net) in
/-- A message that comes in is timely at the seats of its signers. -/
def TimelyEvent (run : LoggedRun) : ValidatorEvent → Prop
  | .expire _ => True
  | .message rc data => ∀ p, planOf net rc data = .ok p → ∀ seat, p.At seat →
      Timely net (run.atSeat seat) ⟨rc, p⟩

theorem seatInvariant_of_reachable {run : LoggedRun}
    (hd : 5 * second ≤ net.slotDuration) (hspe : 2 ≤ net.slotsPerEpoch)
    (hrun : ((orderedMachine net).restrict (TimelyEvent net)).Reachable run) (seat : Seat) :
    SeatInvariant net (getRoleType seat.key) (run.atSeat seat)
      (seatOrNew net (getRoleType seat.key) (run.seatState seat)) := by
  have hhistory : (seatRecorder net seat).History (fun log _ a ↦ Timely net log a) (run.atSeat seat)
      (run.seatState seat) := by
    refine seat_history hrun fun run event a _ htimely hentry ↦ ?_
    obtain ⟨⟨data, rfl, hplan⟩, hat, -⟩ := ValidatorEvent.entry_eq_some hentry
    exact htimely a.plan hplan seat hat
  exact hhistory.invariant (P := fun log os ↦ SeatInvariant net (getRoleType seat.key) log
    (seatOrNew net (getRoleType seat.key) os)) (seatInvariant_new net _)
    fun _ _ _ h htimely ha ↦ h.accept hd hspe htimely ha

end

/-! ### The result -/

/-- **The duties of an epoch are within the limit**, while it stays the same: in every run of timely
messages in which none lists its committee in another order than the state it meets. -/
theorem duties_within_limit [ValidationSpec] (net : Network) (hd : 5 * second ≤ net.slotDuration)
    (hspe : 2 ≤ net.slotsPerEpoch) (run : LoggedRun)
    (hrun : ((orderedMachine net).restrict (TimelyEvent net)).Reachable run) (seat : Seat) :
    (∀ epoch L, (∀ a ∈ run.atSeat seat, a.epoch net = epoch → a.limit net = some L) →
      (slotsIn net epoch (run.atSeat seat)).card ≤ L) ∧
    ∀ a, Timely net (run.atSeat seat) a →
      (seatRecorder net seat).Accepts a (run.seatState seat) →
      (slotsIn net (a.epoch net) (run.atSeat seat)).card ≤
        peekDutyCount (run.seatState seat) (a.epoch net) := by
  have h := seatInvariant_of_reachable hd hspe hrun seat
  refine ⟨h.limit, fun a htimely ha ↦ ?_⟩
  rw [← dutyCount_seatOrNew net (getRoleType seat.key)]
  exact h.duties.card_le (h.unevicted hd hspe htimely ha)

namespace Reference

/-- The network with its fork put off for good. -/
def forkless : Network := { network with booleForkEpoch := 2 ^ 64 - 1 }

/-- The post-consensus packets of operator 1 for slots, received in slot 3. -/
def packetsFor (slots : List ℕ) : List ValidatorEvent :=
  incoming (slots.map fun slot ↦ (37 * second, postConsensus 1 slot (rsaSignature 1)))

/-- The slots of the accepted packets, with the limits they have met. -/
def slotsAndLimits (run : LoggedRun) : List (ℕ × Option ℕ) :=
  (run.atSeat (committeeSeat 1)).map fun a ↦ (a.plan.slot, a.limit forkless)

theorem latenessTTL_forkless_le {role : RunnerRole} {ttl : ℕ}
    (h : latenessTTL forkless role = some ttl) : ttl ≤ 34 := by
  cases role <;> cases h <;> decide

theorem receivedAt_packetsFor {slots : List ℕ} {rc : Receipt} {data : Bytes}
    (h : .message rc data ∈ packetsFor slots) : rc.receivedAt = 37 * second := by
  obtain ⟨⟨⟨receivedAt, message⟩, i⟩, hmem, heq⟩ := mem_map.1 h
  obtain ⟨slot, -, hslot⟩ := mem_map.1 (fst_mem_of_mem_zipIdx hmem)
  cases hslot
  cases heq
  rfl

theorem timelyEvent_packetsFor (slots : List ℕ) {rc : Receipt} {data : Bytes} {slot : ℕ}
    (hreceived : rc.receivedAt = 37 * second)
    (hslot : (planOf forkless rc data).toOption.map Plan.slot = some slot) (hle : slot ≤ 1000) :
    TimelyEvent forkless (loggedRunOf forkless (packetsFor slots)) (.message rc data) := by
  intro p hplan seat _
  rw [hplan] at hslot
  obtain rfl : p.slot = slot := some.inj hslot
  refine .inr ⟨fun ttl httl ↦ ?_, fun b hb ↦ ?_⟩
  · have hlate := latenessTTL_forkless_le httl
    change ((p.slot + ttl : ℕ) : Int) * (12 * second) < 2 ^ 63
    unfold second
    omega
  · rcases mem_atSeat_foldl hb with hstart | ⟨data, hmem⟩
    · cases hstart
    · exact (receivedAt_packetsFor hmem).le.trans hreceived.ge

/-- Packets for the two duties of the epoch. -/
theorem duties_within_limit_twoSlots :
    let run := loggedRunOf forkless (packetsFor [0, 1])
    slotsAndLimits run = [(1, some 2), (0, some 2)] ∧
    (slotsIn forkless 0 (run.atSeat (committeeSeat 1))).card ≤ 2 := by
  intro run
  have hrun : slotsAndLimits run = [(1, some 2), (0, some 2)] := by
    decide +kernel
  refine ⟨hrun, (duties_within_limit forkless (by decide) (by decide) run ?_
    (committeeSeat 1)).1 0 2 fun a ha _ ↦ ?_⟩
  · refine reachable_loggedRunOf rfl rfl
      ⟨⟨by decide +kernel, ?_⟩, ⟨by decide +kernel, ?_⟩, trivial⟩
    · exact timelyEvent_packetsFor [] rfl (by decide +kernel : _ = some 0) (by decide)
    · exact timelyEvent_packetsFor [0] rfl (by decide +kernel : _ = some 1) (by decide)
  · have hmem : (a.plan.slot, a.limit forkless) ∈ slotsAndLimits run := List.mem_map_of_mem ha
    rw [hrun] at hmem
    simp only [List.mem_cons, Prod.mk.injEq, List.not_mem_nil, or_false] at hmem
    rcases hmem with ⟨-, hlimit⟩ | ⟨-, hlimit⟩ <;> exact hlimit

/-- With two duties in an epoch: packets for slots 0 and 1, for a slot of the far future that starts
when slot 3 does, and a third for the epoch. -/
theorem duties_exceed_limit :
    let run := loggedRunOf forkless (packetsFor [0, 1, 3 * 2 ^ 53 + 3, 2])
    (orderedMachine forkless).Reachable run ∧
    slotsAndLimits run = [(2, some 2), (3 * 2 ^ 53 + 3, some 2), (1, some 2), (0, some 2)] ∧
    (slotsIn forkless 0 (run.atSeat (committeeSeat 1))).card = 3 := by
  refine ⟨reachable_loggedRunOf rfl rfl ?_, ?_, ?_⟩ <;> decide +kernel

end Reference

end Ssv.Validation
