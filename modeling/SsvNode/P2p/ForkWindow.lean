import SsvNode.Registry.ReferenceSpec
import SsvNode.Validation.SlotRing

/-!
# Topics around the Boole fork

A message belongs to the side of the Boole fork of **its own slot**, while the node subscribes by
the **current** slot, to both sides during `InBooleTransitionWindow`. The two slots are at most one
apart on the early side (`le_current_add_one`) and the lateness bound on the late side
(`current_le`). The early side needs that the start of the slot does not wrap: `SlotStartTime`
multiplies `int64`s.
-/

namespace Ssv.Validation.Network

/-! ### The transition window -/

def boolePriorWindowEpochs : ℕ := 1

def booleSubsequentWindowLateSlots : ℕ := 2

variable (net : Network)

def maxEpochConvertibleToSlot : ℕ := (2 ^ 64 - 1) / net.slotsPerEpoch

def inBoolePriorWindowWithEpochs (slot windowEpochs : ℕ) : Bool :=
  let priorWindowStartEpoch :=
    if windowEpochs ≤ net.booleForkEpoch then net.booleForkEpoch - windowEpochs else 0
  net.estimatedEpochAtSlot slot ≥ priorWindowStartEpoch && !net.booleForkAtSlot slot

def inBoolePriorWindow (slot : ℕ) : Bool :=
  net.inBoolePriorWindowWithEpochs slot boolePriorWindowEpochs

def inBooleSubsequentWindowWithSlots (slot windowSlots : ℕ) : Bool :=
  if net.booleForkEpoch = 0 then false
  else if net.slotsPerEpoch = 0 then false
  else if net.booleForkEpoch > net.maxEpochConvertibleToSlot then false
  else
    let start := net.firstSlotAtEpoch net.booleForkEpoch
    -- `uint64` addition
    let stop := (start + windowSlots) % 2 ^ 64
    slot ≥ start && slot < stop

def inBooleSubsequentWindow (slot : ℕ) : Bool :=
  net.inBooleSubsequentWindowWithSlots slot
    ((net.slotsPerEpoch + booleSubsequentWindowLateSlots) % 2 ^ 64)

def inBooleTransitionWindow (slot : ℕ) : Bool :=
  net.inBoolePriorWindow slot || net.inBooleSubsequentWindow slot

end Ssv.Validation.Network

namespace Ssv.P2p

open Validation List
open Registry (SSVShare RegistrySpec)
open Registry.RegistrySpec (sha256)

/-! ### Subnets and topics -/

def subnetsCount : ℕ := 128

def unknownSubnetId : ℕ := 2 ^ 64 - 1

def getTopicFullName (baseName : String) : String := "ssv.v2." ++ baseName

def booleTopic (networkName : String) (subnet : ℕ) : String :=
  "/ssv/" ++ networkName ++ "/boole/" ++ subnetTopicID subnet

def setBytes (bytes : Bytes) : ℕ := bytes.foldl (fun n b ↦ 256 * n + b.toNat) 0

def alanCommitteeSubnet (cid : Bytes) : ℕ := setBytes cid % subnetsCount

def topics (net : Validation.Network) (slot : ℕ) : List String :=
  let includeAlan := !net.booleForkAtSlot slot || net.inBooleTransitionWindow slot
  (List.range subnetsCount).flatMap fun subnet ↦
    (if includeAlan then [getTopicFullName (subnetTopicID subnet)] else []) ++
      [booleTopic net.name subnet]

section

variable [RegistrySpec]

def operatorHash (op : OperatorID) : ℕ := setBytes (sha256 (Registry.littleEndian 8 op))

def booleCommitteeSubnet : List OperatorID → ℕ
  | [] => unknownSubnetId
  | op :: ops =>
    ops.foldl (fun lowest op ↦ if operatorHash op < lowest then operatorHash op else lowest)
      (operatorHash op) % subnetsCount

/-- `committeeTopicSetForCurrentEpoch`, in a slot. -/
def committeeTopicSetForCurrentEpoch (net : Validation.Network) (currentSlot : ℕ)
    (share : SSVShare) : Finset String :=
  let alanTopic := getTopicFullName (subnetTopicID (alanCommitteeSubnet share.committeeID))
  let booleTopic := booleTopic net.name (booleCommitteeSubnet share.operatorIDs)
  if net.inBooleTransitionWindow currentSlot then {alanTopic, booleTopic}
  else if net.booleForkAtSlot currentSlot then {booleTopic}
  else {alanTopic}

/-- What validation knows of the committee with these operators. -/
structure InfoOf (ci : CommitteeInfo) (operators : List OperatorID) : Prop where
  nonempty : operators ≠ []
  committeeID : ci.committeeID = Registry.computeCommitteeID operators
  committee : ci.committee = operators
  subnet : ci.subnet = booleCommitteeSubnet operators
  subnetAlan : ci.subnetAlan = alanCommitteeSubnet ci.committeeID

end

/-! ### The slot of a message and the current slot -/

section

variable {net : Validation.Network} {slot current : ℕ} {role : RunnerRole} {receivedAt : Int}

/-- The current slot is the number of slots gone by, as far as an `int64` counts. -/
theorem current_mul_le (hduration : 0 < net.slotDuration)
    (h : net.estimatedSlotAtTime receivedAt = .ok current) :
    net.genesisTime ≤ receivedAt ∧
    current * net.slotDuration ≤ timeSub receivedAt net.genesisTime ∧
    timeSub receivedAt net.genesisTime < (current + 1) * net.slotDuration := by
  unfold Network.estimatedSlotAtTime at h
  split at h
  · cases h
  · next hgenesis =>
    have hsince : 0 ≤ timeSub receivedAt net.genesisTime := by
      unfold timeSub
      omega
    have hcurrent : (current : Int) = (timeSub receivedAt net.genesisTime).tdiv
        net.slotDuration := by
      rw [← Except.ok.inj h]
      exact Int.toNat_of_nonneg (Int.tdiv_nonneg hsince hduration.le)
    rw [Int.tdiv_eq_ediv_of_nonneg hsince] at hcurrent
    rw [hcurrent]
    exact ⟨by omega, Int.ediv_mul_le _ hduration.ne', Int.lt_ediv_add_one_mul_self _ hduration⟩

theorem slotDuration_pos_of (hduration : 3050 * millisecond < net.slotDuration) :
    0 < net.slotDuration :=
  lt_trans (by decide) hduration

theorem lt_of_mul_slotDuration_lt {a b : ℕ} (hduration : 0 < net.slotDuration)
    (h : (a : Int) * net.slotDuration < b * net.slotDuration) : a < b := by
  exact_mod_cast Int.lt_of_mul_lt_mul_right h hduration.le

theorem current_lt (hduration : 3050 * millisecond < net.slotDuration)
    (hcurrent : net.estimatedSlotAtTime receivedAt = .ok current) : current < 2 ^ 62 := by
  obtain ⟨-, hslots, -⟩ := current_mul_le (slotDuration_pos_of hduration) hcurrent
  have htwo : (current : Int) * 2 ≤ current * net.slotDuration :=
    Int.mul_le_mul_of_nonneg_left (lt_of_le_of_lt (by decide) hduration).le
      (Int.natCast_nonneg current)
  unfold timeSub at hslots
  omega

theorem latenessTTL_le {ttl : ℕ} (httl : latenessTTL net role = some ttl) :
    ttl ≤ net.slotsPerEpoch + 2 ∨ net.slotsPerEpoch = 0 := by
  unfold latenessTTL maxStoredSlots lateSlotAllowance at httl
  cases role <;> cases httl <;> omega

/-- **A message in time is not for a slot before the role's bound.** -/
theorem current_le {ttl : ℕ} (hduration : 3050 * millisecond < net.slotDuration)
    (httl : latenessTTL net role = some ttl)
    (htime : validateSlotTime net slot role receivedAt = .ok ())
    (hcurrent : net.estimatedSlotAtTime receivedAt = .ok current) : current ≤ slot + ttl := by
  have hpos := slotDuration_pos_of hduration
  obtain ⟨hgenesis, hslots, -⟩ := current_mul_le hpos hcurrent
  by_cases hrange : InRange net (slot + ttl)
  · simp only [validateSlotTime, messageLateness, httl, slotStartTime_eq hpos hrange,
      Checks.bind_eq_ok, Checks.exists_check, Checks.require_eq_ok, Checks.pure_eq_ok] at htime
    obtain ⟨-, -, -, _, ⟨_, ⟨⟩, rfl⟩, hlate⟩ := htime
    rw [timeSub_gt (by decide) (by decide)] at hlate
    refine Nat.le_of_lt_succ (lt_of_mul_slotDuration_lt hpos (hslots.trans_lt ?_))
    have hsince : timeSub receivedAt net.genesisTime ≤ receivedAt - net.genesisTime := by
      unfold timeSub
      omega
    have hmargin : lateMessageMargin + clockErrorTolerance < net.slotDuration :=
      lt_of_le_of_lt (by decide) hduration
    unfold Network.start at hlate
    push_cast [Int.add_mul] at hlate ⊢
    omega
  · -- An `int64` of nanoseconds does not reach so far, and neither does the current slot.
    refine (lt_of_mul_slotDuration_lt hpos (hslots.trans_lt ?_)).le
    unfold InRange at hrange
    unfold timeSub
    omega

/-- **A message in time is for the next slot at most**, if the start of its slot is in range. -/
theorem le_current_add_one (hduration : 3050 * millisecond < net.slotDuration)
    (hrole : role ≠ .proposerPreferences)
    (htime : validateSlotTime net slot role receivedAt = .ok ())
    (hcurrent : net.estimatedSlotAtTime receivedAt = .ok current)
    (hrange : InRange net slot) : slot ≤ current + 1 := by
  have hpos := slotDuration_pos_of hduration
  obtain ⟨hgenesis, -, hslots⟩ := current_mul_le hpos hcurrent
  simp only [validateSlotTime, messageEarliness, if_neg hrole, slotStartTime_eq hpos hrange,
    Checks.bind_eq_ok, Checks.exists_check, Checks.require_eq_ok, Checks.pure_eq_ok] at htime
  obtain ⟨_, ⟨_, ⟨⟩, rfl⟩, hearly, -⟩ := htime
  rw [timeSub_gt (by decide) (by decide)] at hearly
  refine Nat.le_of_lt_succ (lt_of_mul_slotDuration_lt hpos ?_)
  have hmargin : clockErrorTolerance + earlyMessageMargin < net.slotDuration :=
    lt_of_le_of_lt (by decide) hduration
  unfold InRange at hrange
  unfold Network.start at hearly
  unfold timeSub at hslots
  push_cast [Int.add_mul] at hslots ⊢
  omega

end

/-! ### Both sides of the window -/

section

variable {net : Validation.Network} {slot current : ℕ}

theorem inBoolePriorWindowWithEpochs_iff {windowEpochs : ℕ} :
    net.inBoolePriorWindowWithEpochs current windowEpochs = true ↔
      net.booleForkEpoch ≤ net.estimatedEpochAtSlot current + windowEpochs ∧
        ¬ net.booleForkEpoch ≤ net.estimatedEpochAtSlot current := by
  simp only [Network.inBoolePriorWindowWithEpochs, Network.booleForkAtSlot, Bool.and_eq_true,
    Bool.not_eq_true', decide_eq_true_eq, decide_eq_false_iff_not, ge_iff_le]
  refine and_congr_left fun _ ↦ ?_
  split <;> omega

theorem boole_open_iff :
    (net.inBooleTransitionWindow current = true ∨ net.booleForkAtSlot current = true) ↔
      net.booleForkEpoch ≤ net.estimatedEpochAtSlot current + 1 := by
  have hsubsequent : net.inBooleSubsequentWindow current = true →
      net.booleForkEpoch ≤ net.estimatedEpochAtSlot current := by
    unfold Network.inBooleSubsequentWindow Network.inBooleSubsequentWindowWithSlots
    split
    · nofun
    · split
      · nofun
      · next hspe =>
        split
        · nofun
        · intro hwindow
          rw [Bool.and_eq_true, decide_eq_true_eq] at hwindow
          exact (Nat.le_div_iff_mul_le (Nat.pos_of_ne_zero hspe)).2 hwindow.1
  have hfork : net.booleForkAtSlot current = true ↔
      net.booleForkEpoch ≤ net.estimatedEpochAtSlot current := decide_eq_true_iff
  rw [Network.inBooleTransitionWindow, Bool.or_eq_true, Network.inBoolePriorWindow,
    inBoolePriorWindowWithEpochs_iff, hfork]
  constructor
  · rintro ((hwindow | hwindow) | hwindow)
    · exact hwindow.1
    · exact Nat.le_succ_of_le (hsubsequent hwindow)
    · exact Nat.le_succ_of_le hwindow
  · intro hle
    by_cases hpast : net.booleForkEpoch ≤ net.estimatedEpochAtSlot current
    · exact .inr hpast
    · exact .inl (.inl ⟨hle, hpast⟩)

theorem epoch_le_of_le (net : Validation.Network) (h : slot ≤ current + 1) :
    net.estimatedEpochAtSlot slot ≤ net.estimatedEpochAtSlot current + 1 := by
  unfold Network.estimatedEpochAtSlot
  rcases Nat.eq_zero_or_pos net.slotsPerEpoch with hzero | hpos
  · rw [hzero, Nat.div_zero]
    exact Nat.zero_le _
  · rw [← Nat.add_div_right _ hpos]
    exact Nat.div_le_div_right (by omega)

theorem alan_open {ttl : ℕ} (hslot : net.booleForkAtSlot slot = false) (hle : current ≤ slot + ttl)
    (httl : ttl ≤ net.slotsPerEpoch + 2 ∨ net.slotsPerEpoch = 0) (hsmall : current < 2 ^ 62) :
    net.booleForkAtSlot current = false ∨ net.inBooleTransitionWindow current = true := by
  rw [or_iff_not_imp_left]
  intro hfork
  rw [Bool.not_eq_false] at hfork
  unfold Network.booleForkAtSlot Network.estimatedEpochAtSlot at hslot hfork
  rw [decide_eq_false_iff_not, Nat.not_le] at hslot
  rw [decide_eq_true_eq] at hfork
  rcases Nat.eq_zero_or_pos net.slotsPerEpoch with hzero | hpos
  · rw [hzero, Nat.div_zero] at hslot hfork
    omega
  · have hstart : net.booleForkEpoch * net.slotsPerEpoch ≤ current :=
      (Nat.le_div_iff_mul_le hpos).1 hfork
    have hbefore : slot < net.booleForkEpoch * net.slotsPerEpoch :=
      (Nat.div_lt_iff_lt_mul hpos).1 hslot
    have hlater : 0 < net.booleForkEpoch := Nat.zero_lt_of_lt hslot
    have hepoch : net.slotsPerEpoch ≤ net.booleForkEpoch * net.slotsPerEpoch :=
      Nat.le_mul_of_pos_left _ hlater
    have hconvertible : ¬ net.booleForkEpoch > net.maxEpochConvertibleToSlot := by
      rw [Network.maxEpochConvertibleToSlot, Nat.not_lt, Nat.le_div_iff_mul_le hpos]
      omega
    rw [Network.inBooleTransitionWindow, Bool.or_eq_true]
    right
    rw [Network.inBooleSubsequentWindow, Network.inBooleSubsequentWindowWithSlots,
      if_neg hlater.ne', if_neg hpos.ne', if_neg hconvertible, Network.firstSlotAtEpoch,
      Network.booleSubsequentWindowLateSlots]
    have hwindow : (net.slotsPerEpoch + 2) % 2 ^ 64 = net.slotsPerEpoch + 2 :=
      Nat.mod_eq_of_lt (by omega)
    have hstop : (net.booleForkEpoch * net.slotsPerEpoch + (net.slotsPerEpoch + 2)) % 2 ^ 64 =
        net.booleForkEpoch * net.slotsPerEpoch + (net.slotsPerEpoch + 2) :=
          Nat.mod_eq_of_lt (by omega)
    simp only [hwindow, hstop, Bool.and_eq_true, decide_eq_true_eq]
    omega

end

/-! ### Topics -/

section

variable [RegistrySpec] {net : Validation.Network} {current : ℕ} {operators : List OperatorID}
  {share : SSVShare}

theorem exists_lowest (h : operators ≠ []) : ∃ lowest,
    (operators.map operatorHash).min? = some lowest ∧
      booleCommitteeSubnet operators = lowest % subnetsCount := by
  cases operators with
  | nil => exact absurd rfl h
  | cons op =>
    refine ⟨_, min?_cons', ?_⟩
    rw [booleCommitteeSubnet, foldl_map]
    congr 2
    funext lowest op
    rw [Nat.min_def]
    split <;> split <;> omega

theorem booleCommitteeSubnet_lt (h : operators ≠ []) :
    booleCommitteeSubnet operators < subnetsCount := by
  obtain ⟨lowest, -, hsubnet⟩ := exists_lowest h
  rw [hsubnet]
  exact Nat.mod_lt _ (by decide)

variable {operators' : List OperatorID}

theorem booleCommitteeSubnet_congr (h : ∀ op, op ∈ operators' ↔ op ∈ operators) :
    booleCommitteeSubnet operators' = booleCommitteeSubnet operators := by
  by_cases hnil : operators = []
  · rw [hnil] at h ⊢
    rw [eq_nil_iff_forall_not_mem.2 fun op hop ↦ not_mem_nil ((h op).1 hop)]
  · obtain ⟨lowest, hlowest, hsubnet⟩ := exists_lowest hnil
    obtain ⟨op, hop⟩ := exists_mem_of_ne_nil _ hnil
    obtain ⟨lowest', hlowest', hsubnet'⟩ := exists_lowest (ne_nil_of_mem ((h op).2 hop))
    rw [min?_eq_some_iff] at hlowest hlowest'
    have hmem (x : ℕ) : x ∈ operators'.map operatorHash ↔ x ∈ operators.map operatorHash := by
      simp only [mem_map, h]
    have heq : lowest' = lowest :=
      le_antisymm (hlowest'.2 _ ((hmem _).2 hlowest.1)) (hlowest.2 _ ((hmem _).1 hlowest'.1))
    rw [hsubnet, hsubnet', heq]

theorem booleCommitteeSubnet_perm (h : operators'.Perm operators) :
    booleCommitteeSubnet operators' = booleCommitteeSubnet operators :=
  booleCommitteeSubnet_congr fun _ ↦ h.mem_iff

theorem booleCommitteeSubnet_append (h : operators ≠ []) (h' : operators' ≠ []) :
    booleCommitteeSubnet (operators ++ operators') = booleCommitteeSubnet operators ∨
      booleCommitteeSubnet (operators ++ operators') = booleCommitteeSubnet operators' := by
  obtain ⟨a, ha, hsubnet⟩ := exists_lowest h
  obtain ⟨b, hb, hsubnet'⟩ := exists_lowest h'
  obtain ⟨c, hc, hjoined⟩ := exists_lowest (append_ne_nil_of_left_ne_nil h operators')
  rw [min?_eq_some_iff] at ha hb hc
  simp only [map_append, mem_append] at hc
  rw [hjoined, hsubnet, hsubnet']
  rcases hc.1 with hmem | hmem
  · exact .inl (congrArg (· % subnetsCount) (le_antisymm (hc.2 a (.inl ha.1)) (ha.2 c hmem)))
  · exact .inr (congrArg (· % subnetsCount) (le_antisymm (hc.2 b (.inr hb.1)) (hb.2 c hmem)))

omit [RegistrySpec] in
theorem alan_mem_topics {subnet : ℕ} (hsubnet : subnet < subnetsCount)
    (h : net.booleForkAtSlot current = false ∨ net.inBooleTransitionWindow current = true) :
    getTopicFullName (subnetTopicID subnet) ∈ topics net current := by
  refine mem_flatMap.2 ⟨subnet, mem_range.2 hsubnet, mem_append_left _ ?_⟩
  rw [if_pos (by simpa using h)]
  exact mem_singleton_self _

omit [RegistrySpec] in
theorem boole_mem_topics {subnet : ℕ} (hsubnet : subnet < subnetsCount) :
    booleTopic net.name subnet ∈ topics net current := by
  refine mem_flatMap.2 ⟨subnet, mem_range.2 hsubnet, mem_append_right _ ?_⟩
  exact mem_singleton_self _

omit [RegistrySpec] in
theorem booleTopic_ne (name baseName : String) (subnet : ℕ) :
    booleTopic name subnet ≠ getTopicFullName baseName := by
  intro h
  have hfirst := congrArg (·.toList.head?) h
  simp [booleTopic, getTopicFullName] at hfirst

theorem boole_mem_committeeTopicSet_iff (share : SSVShare) :
    booleTopic net.name (booleCommitteeSubnet share.operatorIDs) ∈
        committeeTopicSetForCurrentEpoch net current share ↔
      net.booleForkEpoch ≤ net.estimatedEpochAtSlot current + 1 := by
  rw [← boole_open_iff]
  unfold committeeTopicSetForCurrentEpoch
  dsimp only
  split
  · next hwindow => simp [hwindow]
  · next hwindow =>
    split
    · next hfork => simp [hfork]
    · next hfork => simp [hwindow, hfork, booleTopic_ne]

theorem alan_mem_committeeTopicSet
    (h : net.booleForkAtSlot current = false ∨ net.inBooleTransitionWindow current = true) :
    getTopicFullName (subnetTopicID (alanCommitteeSubnet share.committeeID)) ∈
      committeeTopicSetForCurrentEpoch net current share := by
  unfold committeeTopicSetForCurrentEpoch
  dsimp only
  split
  · exact Finset.mem_insert_self _ _
  · next hwindow =>
    rw [h.resolve_right hwindow, if_neg Bool.false_ne_true]
    exact Finset.mem_singleton_self _

end

/-! ### The result -/

/-- The node takes part in the topic: it may subscribe to it, and it does for the share. -/
def Covered [RegistrySpec] (net : Validation.Network) (current : ℕ) (share : SSVShare)
    (topic : String) : Prop :=
  topic ∈ topics net current ∧ topic ∈ committeeTopicSetForCurrentEpoch net current share

/-- **What validation accepts is subscribed to**, in the roles with a lateness bound other than
proposer preferences: if the slot's start is in range or before the fork, and else exactly from an
epoch before the fork on. -/
theorem covered_iff [RegistrySpec] {net : Validation.Network} {rc : Receipt} {ci : CommitteeInfo}
    {operators : List OperatorID} {share : SSVShare} {role : RunnerRole} {slot current : ℕ}
    (hduration : 3050 * millisecond < net.slotDuration) (hlateness : latenessTTL net role ≠ none)
    (hrole : role ≠ .proposerPreferences) (hci : InfoOf ci operators)
    (hshare : share.operatorIDs.Perm operators)
    (htime : validateSlotTime net slot role rc.receivedAt = .ok ())
    (htopic : validateTopicAtSlot net rc ci slot = .ok ())
    (hcurrent : net.estimatedSlotAtTime rc.receivedAt = .ok current) :
    Covered net current share rc.topic ↔
      InRange net slot ∨ net.booleForkAtSlot slot = false ∨
        net.booleForkEpoch ≤ net.estimatedEpochAtSlot current + 1 := by
  obtain ⟨hnonempty, hid, -, hsubnet, hsubnetAlan⟩ := hci
  rw [hid] at hsubnetAlan
  rw [validateTopicAtSlot, Checks.require_eq_ok] at htopic
  cases hfork : net.booleForkAtSlot slot with
  | true =>
    have htopic : booleTopic net.name (booleCommitteeSubnet share.operatorIDs) = rc.topic := by
      rw [booleCommitteeSubnet_perm hshare, ← hsubnet, ← htopic, if_pos hfork]
      rfl
    have hopen : Covered net current share rc.topic ↔
        net.booleForkEpoch ≤ net.estimatedEpochAtSlot current + 1 := by
      rw [← boole_mem_committeeTopicSet_iff share, htopic, Covered, and_iff_right]
      rw [← htopic, booleCommitteeSubnet_perm hshare]
      exact boole_mem_topics (booleCommitteeSubnet_lt hnonempty)
    rw [hopen]
    refine ⟨fun h ↦ .inr (.inr h), ?_⟩
    rintro (hrange | hbefore | hnear)
    · have hepoch := epoch_le_of_le net (le_current_add_one hduration hrole htime hcurrent hrange)
      exact le_trans (of_decide_eq_true hfork) hepoch
    · cases hbefore
    · exact hnear
  | false =>
    refine iff_of_true ?_ (.inr (.inl rfl))
    have htopic : getTopicFullName (subnetTopicID (alanCommitteeSubnet share.committeeID)) =
        rc.topic := by
      rw [SSVShare.committeeID, Registry.computeCommitteeID_perm hshare, ← hsubnetAlan, ← htopic,
        if_neg (by rw [hfork]; nofun)]
      rfl
    obtain ⟨ttl, httl⟩ := Option.ne_none_iff_exists'.1 hlateness
    have hopen := alan_open hfork (current_le hduration httl htime hcurrent)
      (latenessTTL_le httl) (current_lt hduration hcurrent)
    rw [← htopic]
    exact ⟨alan_mem_topics (Nat.mod_lt _ (by decide)) hopen, alan_mem_committeeTopicSet hopen⟩

namespace Reference

open Validation.Reference (network receipt)

instance [RegistrySpec] (net : Validation.Network) (current : ℕ) (share : SSVShare)
    (topic : String) : Decidable (Covered net current share topic) :=
  inferInstanceAs (Decidable (_ ∧ _))

/-- A network that forks at the start of its epoch 10, which is slot 320. -/
def forking : Validation.Network := { network with booleForkEpoch := 10 }

def share : SSVShare where
  validatorPubKey := []
  committee := [⟨[], 1⟩, ⟨[], 2⟩, ⟨[], 3⟩, ⟨[], 4⟩]
  domainType := []
  ownerAddress := 0

def info : CommitteeInfo where
  committeeID := Registry.computeCommitteeID [1, 2, 3, 4]
  committee := [1, 2, 3, 4]
  validatorIndices := [17]
  subnet := booleCommitteeSubnet [1, 2, 3, 4]
  subnetAlan := alanCommitteeSubnet (Registry.computeCommitteeID [1, 2, 3, 4])

theorem infoOf : InfoOf info [1, 2, 3, 4] := ⟨nofun, rfl, rfl, rfl, rfl⟩

/-- A committee message for the last slot before the fork, as late as it may be. -/
def late : Receipt := { receipt "peer" (353 * (12 * second) + 3 * second) with topic := "ssv.v2.0" }

theorem covered_late : Covered forking 353 share late.topic := by
  refine (@covered_iff _ forking late info [1, 2, 3, 4] share .committee 319 353 (by decide)
    nofun nofun
    infoOf (by decide) (by decide +kernel) (by decide +kernel) (by decide +kernel)).2 ?_
  exact .inr (.inl (by decide +kernel))

/-- A committee message for slot `2 ^ 53`, whose start wraps around to that of slot 0. -/
def wrapped : Receipt := { receipt "peer" second with topic := "/ssv/mainnet/boole/0" }

/-- It is accepted in slot 0, nine epochs before the node subscribes to the topic. -/
theorem wrapped_slot_not_covered :
    forking.booleForkEpoch ≠ 2 ^ 64 - 1 ∧ 3050 * millisecond < forking.slotDuration ∧
    InfoOf info [1, 2, 3, 4] ∧ share.operatorIDs.Perm [1, 2, 3, 4] ∧
    validateSlotTime forking (2 ^ 53) .committee wrapped.receivedAt = .ok () ∧
    validateTopicAtSlot forking wrapped info (2 ^ 53) = .ok () ∧
    forking.estimatedSlotAtTime wrapped.receivedAt = .ok 0 ∧
    ¬ Covered forking 0 share wrapped.topic :=
  ⟨by decide, by decide, infoOf, by decide, by decide +kernel, by decide +kernel, by decide +kernel,
    by decide +kernel⟩

end Reference

end Ssv.P2p
