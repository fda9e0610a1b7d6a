import SsvNode.Validation.Recording
import SsvNode.Validation.ReferenceSpec

/-!
# The ring of slots and the slots acceptable at once

`storedSlotCount` sizes the ring so that "every slot the role accepts at once has its own ring
slot". Two slots acceptable at one time are never further apart than the role's lateness
(`le_add_reach`). For the roles with the long lateness the ring is one entry short around the start
of each slot, and slots whose start wraps are acceptable at the time of an earlier one. There are no
other cases (`validateSlotTime_separates_iff`).
-/

namespace Ssv.Validation

/-! ### Times of slots -/

section

variable {net : Network} {role : RunnerRole} {slot slot' ttl : ℕ} {receivedAt : Int}

def Network.start (net : Network) (slot : ℕ) : Int := net.genesisTime + slot * net.slotDuration

/-- The slot starts within the longest duration from genesis. -/
def InRange (net : Network) (slot : ℕ) : Prop := slot * net.slotDuration < 2 ^ 63

def earlyMargin : Int := clockErrorTolerance + earlyMessageMargin

def lateMargin : Int := lateMessageMargin + clockErrorTolerance

section

variable (hd : 5 * second ≤ net.slotDuration)
include hd

theorem margins_lt : earlyMargin + lateMargin < net.slotDuration := by
  refine lt_of_lt_of_le ?_ hd
  decide

theorem slotDuration_pos : 0 < net.slotDuration := lt_of_lt_of_le (by decide) hd

theorem InRange.mono (h : InRange net slot') (hle : slot ≤ slot') : InRange net slot := by
  refine lt_of_le_of_lt ?_ h
  exact Int.mul_le_mul_of_nonneg_right (by exact_mod_cast hle) (slotDuration_pos hd).le

end

theorem start_add (net : Network) (slot n : ℕ) :
    net.start (slot + n) = net.start slot + n * net.slotDuration := by
  unfold Network.start
  rw [Nat.cast_add, Int.add_mul, Int.add_assoc]

theorem start_mono (hd : 5 * second ≤ net.slotDuration) (hle : slot ≤ slot') :
    net.start slot ≤ net.start slot' := by
  obtain ⟨k, rfl⟩ := Nat.exists_eq_add_of_le hle
  rw [start_add]
  have := Int.mul_nonneg (Int.natCast_nonneg k) (slotDuration_pos hd).le
  omega

/-- A slot starting no later than both margins after another is not after it. -/
theorem le_of_start_le (hd : 5 * second ≤ net.slotDuration)
    (h : net.start slot ≤ net.start slot' + (earlyMargin + lateMargin)) : slot ≤ slot' := by
  by_contra hlt
  have hnext : net.start (slot' + 1) ≤ net.start slot := start_mono hd (Nat.lt_of_not_le hlt)
  have hmargins := margins_lt hd
  rw [start_add] at hnext
  push_cast at hnext
  omega

/-- The start of a slot as computed: the product wraps. -/
def Network.wrappedStart (net : Network) (slot : ℕ) : Int :=
  net.genesisTime + wrap64 (slot * net.slotDuration)

theorem slotStartTime_of_le (net : Network) (h : slot ≤ maxInt64) :
    net.slotStartTime slot = .ok (net.wrappedStart slot) := if_neg (Nat.not_lt.2 h)

theorem InRange.le_maxInt64 (hpos : 0 < net.slotDuration) (h : InRange net slot) :
    slot ≤ maxInt64 := by
  have hslot : (slot : Int) * 1 ≤ slot * net.slotDuration :=
    Int.mul_le_mul_of_nonneg_left hpos (Int.natCast_nonneg slot)
  unfold InRange at h
  unfold maxInt64
  omega

theorem InRange.wrappedStart_eq (hpos : 0 < net.slotDuration) (h : InRange net slot) :
    net.wrappedStart slot = net.start slot := by
  have hnonneg := Int.mul_nonneg (Int.natCast_nonneg slot) hpos.le
  unfold InRange at h
  have hwrap : wrap64 (slot * net.slotDuration) = slot * net.slotDuration :=
    Int.bmod_eq_of_le (by omega) (by omega)
  rw [Network.wrappedStart, hwrap, Network.start]

theorem slotStartTime_eq (hpos : 0 < net.slotDuration) (h : InRange net slot) :
    net.slotStartTime slot = .ok (net.start slot) := by
  rw [slotStartTime_of_le net (h.le_maxInt64 hpos), h.wrappedStart_eq hpos]

/-- Saturation does not matter to a comparison with a short duration. -/
theorem timeSub_gt {a b c : Int} (hlow : -2 ^ 63 ≤ c) (hhigh : c < 2 ^ 63 - 1) :
    timeSub a b > c ↔ a - b > c := by
  unfold timeSub
  omega

/-! ### When a slot is acceptable -/

/-- The slot whose start `messageEarliness` takes for the expected time. -/
def expectedFromSlot (net : Network) (role : RunnerRole) (slot : ℕ) : ℕ :=
  if role = .proposerPreferences then net.firstSlotAtEpoch (net.estimatedEpochAtSlot slot - 1)
  else slot

theorem expectedFromSlot_le (net : Network) (role : RunnerRole) (slot : ℕ) :
    expectedFromSlot net role slot ≤ slot := by
  unfold expectedFromSlot
  split
  · calc net.firstSlotAtEpoch (net.estimatedEpochAtSlot slot - 1)
        ≤ net.estimatedEpochAtSlot slot * net.slotsPerEpoch :=
          Nat.mul_le_mul_right _ (Nat.sub_le _ _)
      _ ≤ slot := Nat.div_mul_le_self _ _
  · exact le_rfl

theorem messageEarliness_eq (h : slot ≤ maxInt64) :
    messageEarliness net slot role receivedAt =
      .ok (timeSub (net.wrappedStart (expectedFromSlot net role slot)) receivedAt) := by
  have hlookback : (if net.estimatedEpochAtSlot slot ≥ proposerPreferencesEarlyEpochs - 1 then
      net.estimatedEpochAtSlot slot - (proposerPreferencesEarlyEpochs - 1) else 0) =
      net.estimatedEpochAtSlot slot - 1 := by
    unfold proposerPreferencesEarlyEpochs
    split <;> omega
  have hexpected := slotStartTime_of_le net ((expectedFromSlot_le net role slot).trans h)
  unfold messageEarliness
  rw [slotStartTime_of_le net h]
  unfold expectedFromSlot at hexpected ⊢
  split
  · next hrole =>
    rw [if_pos hrole] at hexpected
    simp only [hlookback, hexpected, bind, Except.bind, pure, Except.pure]
  · rfl

/-- The receive time is within the bounds for the slot, as they are computed. -/
def InWindow (net : Network) (role : RunnerRole) (ttl slot : ℕ) (receivedAt : Int) : Prop :=
  slot + ttl ≤ maxInt64 ∧
    net.wrappedStart (expectedFromSlot net role slot) ≤ receivedAt + earlyMargin ∧
    receivedAt ≤ net.wrappedStart (slot + ttl) + lateMargin

/-- **The window of a slot.** -/
theorem validateSlotTime_eq_ok (httl : latenessTTL net role = some ttl) :
    validateSlotTime net slot role receivedAt = .ok () ↔ InWindow net role ttl slot receivedAt := by
  by_cases hmax : slot + ttl ≤ maxInt64
  · have hlateness : messageLateness net slot role receivedAt =
        .ok (timeSub receivedAt (net.wrappedStart (slot + ttl) + lateMessageMargin)) := by
      simp only [messageLateness, httl, slotStartTime_of_le net hmax, bind, Except.bind, pure,
        Except.pure]
    rw [validateSlotTime, messageEarliness_eq (Nat.le_of_add_right_le hmax), hlateness]
    change (Checks.require _ _ >>= fun _ ↦ Checks.require _ _) = _ ↔ _
    rw [Checks.bind_eq_ok, Checks.exists_check, Checks.require_eq_ok, Checks.require_eq_ok,
      timeSub_gt (by decide) (by decide), timeSub_gt (by decide) (by decide), InWindow,
      and_iff_right hmax]
    unfold earlyMargin lateMargin
    omega
  · refine iff_of_false (fun h ↦ ?_) fun h ↦ hmax h.1
    obtain ⟨_, -, h⟩ := Checks.bind_eq_ok.1 h
    obtain ⟨_, -, h⟩ := Checks.bind_eq_ok.1 h
    obtain ⟨_, hlateness, -⟩ := Checks.bind_eq_ok.1 h
    simp only [messageLateness, httl, Network.slotStartTime, if_pos (Nat.lt_of_not_le hmax)]
      at hlateness
    cases hlateness

/-- The window of a slot in range. -/
theorem validateSlotTime_iff (hd : 5 * second ≤ net.slotDuration)
    (httl : latenessTTL net role = some ttl) (h : InRange net (slot + ttl)) :
    validateSlotTime net slot role receivedAt = .ok () ↔
      net.start (expectedFromSlot net role slot) ≤ receivedAt + earlyMargin ∧
      receivedAt ≤ net.start (slot + ttl) + lateMargin := by
  have hpos := slotDuration_pos hd
  have hexpected := h.mono hd ((expectedFromSlot_le net role slot).trans
    (Nat.le_add_right slot ttl))
  rw [validateSlotTime_eq_ok httl, InWindow, and_iff_right (h.le_maxInt64 hpos),
    h.wrappedStart_eq hpos, hexpected.wrappedStart_eq hpos]

/-- The most slots between two slots acceptable at once. -/
def reach (net : Network) (role : RunnerRole) (ttl : ℕ) : ℕ :=
  if role = .proposerPreferences then proposerPreferencesEarlyEpochs * net.slotsPerEpoch + ttl - 1
  else ttl

theorem lt_expectedFromSlot_add (slot : ℕ) (hspe : 0 < net.slotsPerEpoch) :
    slot < expectedFromSlot net .proposerPreferences slot +
      proposerPreferencesEarlyEpochs * net.slotsPerEpoch := by
  have hslot : slot < slot / net.slotsPerEpoch * net.slotsPerEpoch + net.slotsPerEpoch :=
    Nat.lt_div_mul_add hspe
  have hepoch : slot / net.slotsPerEpoch * net.slotsPerEpoch ≤
      (slot / net.slotsPerEpoch - 1) * net.slotsPerEpoch + net.slotsPerEpoch := by
    rw [← Nat.succ_mul]
    exact Nat.mul_le_mul_right _ (by omega)
  rw [expectedFromSlot, if_pos rfl, Network.firstSlotAtEpoch, Network.estimatedEpochAtSlot,
    proposerPreferencesEarlyEpochs]
  omega

/-- A slot that is acceptable after another one was is not before the expected slot of that one by
more than the lateness. -/
theorem expectedFromSlot_le_add (hd : 5 * second ≤ net.slotDuration)
    (httl : latenessTTL net role = some ttl) (hrange : InRange net (slot + ttl))
    (hrange' : InRange net (slot' + ttl)) {receivedAt' : Int} (hle : receivedAt' ≤ receivedAt)
    (h : validateSlotTime net slot role receivedAt = .ok ())
    (h' : validateSlotTime net slot' role receivedAt' = .ok ()) :
    expectedFromSlot net role slot' ≤ slot + ttl := by
  have hdeadline := ((validateSlotTime_iff hd httl hrange).1 h).2
  have hexpected := ((validateSlotTime_iff hd httl hrange').1 h').1
  exact le_of_start_le hd (by omega)

/-- **Two slots acceptable at once are within reach of each other.** -/
theorem le_add_reach (hd : 5 * second ≤ net.slotDuration) (hspe : 0 < net.slotsPerEpoch)
    (httl : latenessTTL net role = some ttl) (hrange : InRange net (slot + ttl))
    (hrange' : InRange net (slot' + ttl)) (h : validateSlotTime net slot role receivedAt = .ok ())
    (h' : validateSlotTime net slot' role receivedAt = .ok ()) :
    slot' ≤ slot + reach net role ttl := by
  have hle := expectedFromSlot_le_add hd httl hrange hrange' le_rfl h h'
  unfold reach
  split
  · next hrole =>
    subst hrole
    have := lt_expectedFromSlot_add slot' hspe
    omega
  · next hrole => rwa [expectedFromSlot, if_neg hrole] at hle

/-! ### Entries of the ring -/

def ringEntry (net : Network) (role : RunnerRole) (slot : ℕ) : ℕ := slot % storedSlotCount net role

/-- The roles whose messages may be late by an epoch and more. -/
def longLateness : RunnerRole → Bool
  | .committee | .aggregatorCommittee | .aggregator => true
  | _ => false

theorem longLateness_spec (net : Network) (slot : ℕ) (h : longLateness role = true) :
    latenessTTL net role = some (storedSlotCount net role) ∧
      expectedFromSlot net role slot = slot := by
  cases role <;> simp_all [longLateness, latenessTTL, storedSlotCount, expectedFromSlot]

/-- A slot just out of the ring is within reach of the long lateness only. -/
theorem reach_cases (hspe : 8 ≤ net.slotsPerEpoch) (httl : latenessTTL net role = some ttl) :
    if longLateness role then reach net role ttl = storedSlotCount net role
    else reach net role ttl < storedSlotCount net role := by
  cases role <;>
    simp_all [latenessTTL, longLateness, reach, storedSlotCount, maxStoredSlots, lateSlotAllowance,
      proposerPreferencesEarlyEpochs] <;> omega

/-- The receive times at which two slots, in this order, are acceptable and share an entry. -/
def SharesEntryAt (net : Network) (role : RunnerRole) (ttl slot slot' : ℕ) (receivedAt : Int) :
    Prop :=
  -- in range: a role with the long lateness, a ring apart, around the start of the later slot
  (InRange net (slot' + ttl) ∧ longLateness role = true ∧ slot' = slot + storedSlotCount net role ∧
    net.start slot' - earlyMargin ≤ receivedAt ∧ receivedAt ≤ net.start slot' + lateMargin) ∨
  -- beyond it: any number of rings apart, within the bounds of both as they are computed
  ¬ InRange net (slot' + ttl) ∧ slot ≡ slot' [MOD storedSlotCount net role] ∧
    InWindow net role ttl slot receivedAt ∧ InWindow net role ttl slot' receivedAt

theorem sharesEntryAt_of_inRange (hd : 5 * second ≤ net.slotDuration)
    (hspe : 8 ≤ net.slotsPerEpoch) (httl : latenessTTL net role = some ttl)
    (hrange : InRange net (slot' + ttl)) (hlt : slot < slot')
    (h : validateSlotTime net slot role receivedAt = .ok ())
    (h' : validateSlotTime net slot' role receivedAt = .ok ())
    (hentry : ringEntry net role slot = ringEntry net role slot') :
    SharesEntryAt net role ttl slot slot' receivedAt := by
  have hrange₀ : InRange net (slot + ttl) := hrange.mono hd (Nat.add_le_add_right hlt.le ttl)
  have hreach := le_add_reach hd (by omega) httl hrange₀ hrange h h'
  have hring : slot + storedSlotCount net role ≤ slot' := Nat.ModEq.add_le_of_lt hentry hlt
  have hcases := reach_cases hspe httl
  split at hcases
  · next hlong =>
    obtain ⟨hmax, hexpected⟩ := longLateness_spec net slot' hlong
    obtain rfl := Option.some.inj (httl.symm.trans hmax)
    obtain rfl : slot' = slot + storedSlotCount net role := by omega
    have hdeadline := ((validateSlotTime_iff hd httl hrange₀).1 h).2
    have hstart := ((validateSlotTime_iff hd httl hrange).1 h').1
    rw [hexpected] at hstart
    exact .inl ⟨hrange, hlong, rfl, by omega, hdeadline⟩
  · omega

/-- At such a time both slots are acceptable, and they share an entry. -/
theorem SharesEntryAt.accepted (hd : 5 * second ≤ net.slotDuration)
    (httl : latenessTTL net role = some ttl)
    (h : SharesEntryAt net role ttl slot slot' receivedAt) :
    validateSlotTime net slot role receivedAt = .ok () ∧
      validateSlotTime net slot' role receivedAt = .ok () ∧
      ringEntry net role slot = ringEntry net role slot' := by
  rcases h with ⟨hrange, hlong, rfl, hearly, hlate⟩ | ⟨-, hentry, hwindow, hwindow'⟩
  · have hspec := fun u ↦ longLateness_spec net u hlong
    obtain rfl := Option.some.inj (httl.symm.trans (hspec 0).1)
    have hrange₀ := hrange.mono hd (Nat.le_add_right (slot + storedSlotCount net role) _)
    have hnext := start_mono hd (Nat.le_add_right (slot + storedSlotCount net role)
      (storedSlotCount net role))
    have hbefore := start_mono hd (Nat.le_add_right slot (storedSlotCount net role))
    refine ⟨(validateSlotTime_iff hd httl hrange₀).2 ⟨?_, hlate⟩,
      (validateSlotTime_iff hd httl hrange).2 ⟨?_, by omega⟩, (Nat.add_mod_right slot _).symm⟩
    · rw [(hspec _).2]
      omega
    · rw [(hspec _).2]
      omega
  · exact ⟨(validateSlotTime_eq_ok httl).2 hwindow, (validateSlotTime_eq_ok httl).2 hwindow',
      hentry⟩

/-- Recording one slot leaves what is found for the other. -/
def Separates (net : Network) (role : RunnerRole) (slot slot' : ℕ) : Prop :=
  ringEntry net role slot ≠ ringEntry net role slot' ∧
    ∀ (os : OperatorState) (epoch : ℕ) (s : SignerStateForSlotRound),
      os.signers.length = storedSlotCount net role →
      (os.setSignerStateForSlot slot epoch s).getSignerStateForSlot slot' =
        os.getSignerStateForSlot slot'

theorem separates_of_ringEntry_ne (h : ringEntry net role slot ≠ ringEntry net role slot') :
    Separates net role slot slot' := by
  refine ⟨h, fun os epoch s hlength ↦ ?_⟩
  unfold ringEntry at h
  rw [← hlength] at h
  unfold OperatorState.setSignerStateForSlot OperatorState.getSignerStateForSlot
  rw [List.length_set, List.getElem?_set_ne h]

/-- **When the ring is exact.** Two acceptable slots are in different entries, **if and only if**
the receive time is not one at which they share an entry: for slots in range, around the start of
the later one, with the other a ring before it and a role with the long lateness. -/
theorem validateSlotTime_separates_iff (net : Network) (role : RunnerRole) (ttl slot slot' : ℕ)
    (receivedAt : Int) (hd : 5 * second ≤ net.slotDuration) (hspe : 8 ≤ net.slotsPerEpoch)
    (httl : latenessTTL net role = some ttl) (hlt : slot < slot') :
    (validateSlotTime net slot role receivedAt = .ok () →
      validateSlotTime net slot' role receivedAt = .ok () →
        Separates net role slot slot' ∧ Separates net role slot' slot) ↔
    ¬ SharesEntryAt net role ttl slot slot' receivedAt := by
  constructor
  · intro h hshares
    obtain ⟨hpass, hpass', hentry⟩ := hshares.accepted hd httl
    exact (h hpass hpass').1.1 hentry
  · intro h hpass hpass'
    have hne : ringEntry net role slot ≠ ringEntry net role slot' := fun hentry ↦ by
      by_cases hrange : InRange net (slot' + ttl)
      · exact h (sharesEntryAt_of_inRange hd hspe httl hrange hlt hpass hpass' hentry)
      · exact h (.inr ⟨hrange, hentry, (validateSlotTime_eq_ok httl).1 hpass,
          (validateSlotTime_eq_ok httl).1 hpass'⟩)
    exact ⟨separates_of_ringEntry_ne hne, separates_of_ringEntry_ne hne.symm⟩

end

/-- In the middle of slot 40, the oldest slot acceptable to the committee role and the current one
are separate. -/
theorem Reference.validateSlotTime_separates_midSlot :
    Separates Reference.network .committee 7 40 ∧ Separates Reference.network .committee 40 7 := by
  refine (validateSlotTime_separates_iff Reference.network .committee 34 7 40 (486 * second)
    (by decide) (by decide) rfl (by decide)).2 ?_ (by decide +kernel) (by decide +kernel)
  rintro (⟨-, -, h, -⟩ | ⟨-, h, -⟩)
  · exact absurd h (by decide)
  · exact absurd h (by decide)

/-- At the start of slot 34, slot 0 is acceptable and shares its entry: its message is accepted
twice. In slot 3, so is a slot far in the future. -/
theorem Reference.slots_share_entry :
    validateSlotTime Reference.network 0 .committee (408 * second) = .ok () ∧
    validateSlotTime Reference.network 34 .committee (408 * second) = .ok () ∧
    ringEntry Reference.network .committee 0 = ringEntry Reference.network .committee 34 ∧
    (let receive (slot : ℕ) := validate Reference.network (Reference.receipt "peer" (408 * second))
      (Reference.wireMessageCodec.write (Reference.postConsensus 1 slot (Reference.rsaSignature 1)))
    let first := receive 0 fun _ ↦ none
    let second := receive 34 first.1
    first.2 = .accept ∧ (receive 0 first.1).2 = .reject ∧ second.2 = .accept ∧
      (receive 0 second.1).2 = .accept) ∧
    validateSlotTime Reference.network 3 .committee (41 * second) = .ok () ∧
    validateSlotTime Reference.network (3 + 17 * 2 ^ 53) .committee (41 * second) = .ok () ∧
    ringEntry Reference.network .committee 3 =
      ringEntry Reference.network .committee (3 + 17 * 2 ^ 53) := by
  decide +kernel

end Ssv.Validation
