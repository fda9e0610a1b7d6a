import SsvNode.Doppelganger.Handler

/-!
# What stands behind permission to sign

The gate is to open for a validator only on evidence since its last reset: a quorum, or two epochs
for which it was not live (`World.Gated`). There are two ways around it: a reset leaves
`observedQuorum` set, and after a check in epoch `0` the loop takes the next one for the first. In
runs without either (`Regular`) the gate holds.
-/

namespace Ssv.Doppelganger

open List Function Finset AList

/-- What stands behind the state of a validator; the epochs counted are below the bound. -/
structure Backed (bound : ℕ) (state : DoppelgangerState) (ev : Evidence) : Prop where
  count : initialRemainingDetectionEpochs ≤ state.remainingEpochs + ev.notLive.card
  quorum : state.observedQuorum = true → ev.quorum = true
  below : ∀ e ∈ ev.notLive, e < bound

namespace Backed

variable {bound : ℕ} {state : DoppelgangerState} {ev : Evidence}

theorem mono {bound' : ℕ} (h : Backed bound state ev) (hle : bound ≤ bound') :
    Backed bound' state ev :=
  ⟨h.count, h.quorum, fun e he ↦ (h.below e he).trans_le hle⟩

theorem restart (hquorum : state.observedQuorum = false) :
    Backed bound state.resetRemainingEpochs .none where
  count := Nat.le_add_right _ _
  quorum := by
    intro h
    exact absurd (hquorum.symm.trans h) Bool.false_ne_true
  below := by
    intro e he
    exact absurd he (Finset.notMem_empty e)

theorem added : Backed bound .added .none := @restart bound .added rfl

theorem reportQuorum (h : Backed bound state ev) (observed : Bool) :
    Backed bound { state with observedQuorum := observed } { ev with quorum := true } :=
  ⟨h.count, fun _ ↦ rfl, h.below⟩

theorem notLive {epoch : ℕ} (h : Backed epoch state ev) :
    Backed (epoch + 1) state.decreaseRemainingEpochs
      { ev with notLive := insert epoch ev.notLive } where
  count := by
    have hnew : epoch ∉ ev.notLive := fun he ↦ absurd (h.below epoch he) (lt_irrefl epoch)
    have hcount := h.count
    show _ ≤ _ + (insert epoch ev.notLive).card
    rw [card_insert_of_notMem hnew]
    unfold DoppelgangerState.decreaseRemainingEpochs
    split
    · omega
    · dsimp only
      omega
  quorum := by
    intro hobserved
    refine h.quorum ?_
    rw [← hobserved]
    unfold DoppelgangerState.decreaseRemainingEpochs
    split
    · rfl
    · rfl
  below := by
    intro e he
    rcases mem_insert.1 he with rfl | he
    · exact Nat.lt_succ_self e
    · exact (h.below e he).trans (Nat.lt_succ_self epoch)

theorem of_safe (h : Backed bound state ev) (hsafe : state.safe = true) :
    ev.quorum = true ∨ 2 ≤ ev.notLive.card := by
  rcases Bool.or_eq_true_iff.1 hsafe with hzero | hobserved
  · right
    have hcount := h.count
    rw [of_decide_eq_true hzero, Nat.zero_add] at hcount
    exact hcount
  · exact .inl (h.quorum hobserved)

end Backed

namespace World

variable {w : World} {bound : ℕ → ℕ}

/-- Every validator in tracking is backed, with a bound of its own. -/
def AllBacked (w : World) (bound : ℕ → ℕ) : Prop :=
  ∀ v state, w.validatorsState.lookup v = some state → Backed (bound v) state (w.evidence v)

/-! ### The locked sections -/

section

variable (h : w.AllBacked bound)
include h

theorem AllBacked.insert {v : ℕ} {state : DoppelgangerState} {ev : Evidence}
    {b : ℕ} (hv : Backed b state ev) :
    ({ w with
        validatorsState := w.validatorsState.insert v state
        evidence := update w.evidence v ev } : World).AllBacked
      (update bound v b) := by
  intro v' state' hlookup
  by_cases heq : v' = v
  · subst heq
    rw [lookup_insert] at hlookup
    cases hlookup
    show Backed (update bound v' b v') state (update w.evidence v' ev v')
    rw [update_self, update_self]
    exact hv
  · rw [lookup_insert_ne heq] at hlookup
    show Backed (update bound v b v') state' (update w.evidence v ev v')
    rw [update_of_ne heq, update_of_ne heq]
    exact h v' state' hlookup

theorem AllBacked.reportQuorum (v : ℕ) : (w.reportQuorum v).AllBacked bound := by
  unfold World.reportQuorum
  split
  · exact h
  · rename_i state hv
    split
    · -- already safe: the state stays, the report is noted
      intro v' state' hlookup
      have hbacked := h v' state' hlookup
      show Backed (bound v') state' (update w.evidence v _ v')
      by_cases heq : v' = v
      · subst heq
        rw [update_self]
        exact hbacked.reportQuorum _
      · rw [update_of_ne heq]
        exact hbacked
    · have hnew := h.insert (v := v) (b := bound v) ((h v state hv).reportQuorum true)
      rwa [update_eq_self] at hnew

theorem AllBacked.erase (v : ℕ) : (w.removeValidatorState v).AllBacked bound := by
  intro v' state hlookup
  by_cases heq : v' = v
  · subst heq
    rw [removeValidatorState, lookup_erase] at hlookup
    exact nomatch hlookup
  · rw [removeValidatorState, lookup_erase_ne heq] at hlookup
    exact h v' state hlookup

theorem AllBacked.addValidator (idx : ℕ) : (w.addValidator idx).AllBacked bound := by
  unfold World.addValidator
  split
  · have hnew := h.insert (v := idx) (b := bound idx) Backed.added
    rwa [update_eq_self] at hnew
  · exact h

theorem AllBacked.update (validatorIndices : List ℕ) :
    (w.updateDoppelgangerState validatorIndices).AllBacked bound := by
  have hadded : (validatorIndices.foldl World.addValidator w).AllBacked bound := by
    generalize validatorIndices = l
    induction l generalizing w with
    | nil => exact h
    | cons idx l ih => exact ih (h.addValidator idx)
  intro v state hlookup
  exact hadded v state (GoMap.lookup_purge_eq_some.1 hlookup).1

end

theorem AllBacked.reset (bound : ℕ → ℕ)
    (hquorum : ∀ v state, w.validatorsState.lookup v = some state → state.observedQuorum = false) :
    w.resetDoppelgangerStates.AllBacked bound := by
  intro v state hlookup
  unfold resetDoppelgangerStates at hlookup
  rw [GoMap.lookup_mapVal] at hlookup
  obtain ⟨state', hv, rfl⟩ := Option.map_eq_some_iff.1 hlookup
  show Backed _ _ (if (w.validatorsState.lookup v).isSome then .none else w.evidence v)
  rw [hv]
  exact Backed.restart (hquorum v state' hv)

variable {epoch : ℕ}

theorem AllBacked.processResponse {response : ValidatorLiveness} (h : w.AllBacked bound)
    (hbound : bound response.index = epoch)
    (hlive : response.isLive = true →
      ∀ state, w.validatorsState.lookup response.index = some state →
      state.observedQuorum = false) :
    (w.processResponse epoch response).AllBacked
      (Function.update bound response.index (epoch + 1)) := by
  unfold World.processResponse
  split
  · rename_i hnone
    intro v state hlookup
    have hne : v ≠ response.index := by
      rintro rfl
      rw [hnone] at hlookup
      exact nomatch hlookup
    rw [update_of_ne hne]
    exact h v state hlookup
  · rename_i state hv
    split
    · rename_i hisLive
      exact h.insert (Backed.restart (hlive hisLive state hv))
    · have hbacked := h _ state hv
      rw [hbound] at hbacked
      exact h.insert hbacked.notLive

theorem lookup_processResponse {v : ℕ} {response : ValidatorLiveness} (hne : v ≠ response.index) :
    (w.processResponse epoch response).validatorsState.lookup v = w.validatorsState.lookup v := by
  unfold World.processResponse
  split
  · rfl
  · split
    · exact lookup_insert_ne hne
    · exact lookup_insert_ne hne

/-- **A query counts its epoch once for each validator.** -/
theorem AllBacked.processLivenessData {livenessData : List ValidatorLiveness}
    (h : w.AllBacked bound) (hnodup : (livenessData.map (·.index)).Nodup)
    (hle : ∀ v, bound v ≤ epoch + 1) (hbound : ∀ r ∈ livenessData, bound r.index = epoch)
    (hlive : ∀ r ∈ livenessData, r.isLive = true → ∀ state,
      w.validatorsState.lookup r.index = some state → state.observedQuorum = false) :
    (w.processLivenessData epoch livenessData).AllBacked fun _ ↦ epoch + 1 := by
  induction livenessData generalizing w bound with
  | nil => exact fun v state hlookup ↦ (h v state hlookup).mono (hle v)
  | cons r rest ih =>
    obtain ⟨hr, hrest⟩ := nodup_cons.1 hnodup
    -- the indices of the entries that follow are other ones
    have hne {r' : ValidatorLiveness} (hr' : r' ∈ rest) : r'.index ≠ r.index := fun heq ↦
      hr (mem_map.2 ⟨r', hr', heq⟩)
    have hhead := h.processResponse (hbound r (.head _)) (hlive r (.head _))
    refine ih hhead hrest ?_ ?_ ?_
    · intro v
      rw [Function.update_apply]
      split
      · exact le_rfl
      · exact hle v
    · intro r' hr'
      rw [update_of_ne (hne hr')]
      exact hbound r' (.tail _ hr')
    · intro r' hr' hisLive state hlookup
      rw [lookup_processResponse (hne hr')] at hlookup
      exact hlive r' (.tail _ hr') hisLive state hlookup

/-! ### The loop -/

@[simp] theorem loop_updateDoppelgangerState (l : List ℕ) :
    (w.updateDoppelgangerState l).loop = w.loop := by
  show (l.foldl World.addValidator w).loop = w.loop
  induction l generalizing w with
  | nil => rfl
  | cons idx l ih =>
    rw [foldl_cons, ih]
    unfold World.addValidator
    split
    · rfl
    · rfl

@[simp] theorem phase_updateDoppelgangerState (l : List ℕ) :
    (w.updateDoppelgangerState l).phase = w.phase := by
  show (l.foldl World.addValidator w).phase = w.phase
  induction l generalizing w with
  | nil => rfl
  | cons idx l ih =>
    rw [foldl_cons, ih]
    unfold World.addValidator
    split
    · rfl
    · rfl

/-- A bound on the epochs counted so far. -/
def epochBound (w : World) : ℕ :=
  match w.phase with
  | .waiting => w.loop.previousEpoch
  | .resetting _ => w.loop.previousEpoch
  | .collecting currentEpoch => currentEpoch - 1
  | .querying currentEpoch => currentEpoch - 1

/-- The current epoch of a tick under way; between ticks, that of the last check. -/
def tickEpoch (w : World) : ℕ :=
  match w.phase with
  | .waiting => w.loop.previousEpoch
  | .resetting currentEpoch => currentEpoch
  | .collecting currentEpoch => currentEpoch
  | .querying currentEpoch => currentEpoch

structure Sound (w : World) : Prop where
  backed : w.AllBacked fun _ ↦ w.epochBound
  inRange : w.tickEpoch < 2 ^ 64
  positive : w.phase = .waiting ∨ 1 ≤ w.tickEpoch

end World

/-- The step resets no validator with a quorum and makes no liveness check in epoch `0`. -/
def Regular (slotsPerEpoch : ℕ) (w : World) : Action → Prop
  | .tick slot _ =>
    World.checksLiveness w.loop slotsPerEpoch slot = true → slot / slotsPerEpoch ≠ 0
  | .reset => ∀ e ∈ w.validatorsState.entries, e.2.observedQuorum = false
  | .respond response => ∀ r ∈ response.getD [], r.isLive = true →
      ∀ state ∈ w.validatorsState.lookup r.index, state.observedQuorum = false
  | _ => True

instance decidableRegular (slotsPerEpoch : ℕ) (w : World) :
    ∀ a, Decidable (Regular slotsPerEpoch w a)
  | .tick slot _ => inferInstanceAs
      (Decidable (World.checksLiveness w.loop slotsPerEpoch slot = true → slot / slotsPerEpoch ≠ 0))
  | .reset => inferInstanceAs
      (Decidable (∀ e ∈ w.validatorsState.entries, e.2.observedQuorum = false))
  | .respond response => inferInstanceAs (Decidable (∀ r ∈ response.getD [], r.isLive = true →
      ∀ state ∈ w.validatorsState.lookup r.index, state.observedQuorum = false))
  | .collect | .reportQuorum _ | .removeValidatorState _ => .isTrue trivial

namespace World.Sound

variable {w : World} {slotsPerEpoch : ℕ}

theorem reportQuorum (h : w.Sound) (v : ℕ) : (w.reportQuorum v).Sound := by
  have hbacked := h.backed.reportQuorum v
  unfold World.reportQuorum at hbacked ⊢
  split
  · exact h
  · rename_i state hv
    rw [hv] at hbacked
    exact ⟨hbacked, h.inRange, h.positive⟩

variable {currentEpoch : ℕ}

theorem endTick (hbacked : w.AllBacked fun _ ↦ currentEpoch)
    (hrange : currentEpoch < 2 ^ 64) : (w.endTick currentEpoch).Sound :=
  ⟨hbacked, hrange, .inl rfl⟩

theorem tick_range (h : w.Sound) (hepoch : w.tickEpoch = currentEpoch)
    (hphase : w.phase ≠ .waiting) : currentEpoch < 2 ^ 64 ∧ 1 ≤ currentEpoch :=
  hepoch ▸ ⟨h.inRange, h.positive.resolve_left hphase⟩

/-- A tick that goes on to a check: the epochs counted are below the one it asks about. -/
theorem tick (h : w.Sound) (hwaiting : w.phase = .waiting) {slot : ℕ} (hslot : slot < 2 ^ 64)
    (validatorIndices : List ℕ)
    (hregular : World.checksLiveness w.loop slotsPerEpoch slot = true → slot / slotsPerEpoch ≠ 0) :
    (w.tick slotsPerEpoch slot validatorIndices).Sound := by
  have hbound : w.epochBound = w.loop.previousEpoch := by rw [epochBound, hwaiting]
  have hprevious : w.loop.previousEpoch < 2 ^ 64 := by
    have hrange := h.inRange
    rwa [tickEpoch, hwaiting] at hrange
  have hbacked := h.backed.update validatorIndices
  rw [hbound] at hbacked
  have hrange : slot / slotsPerEpoch < 2 ^ 64 := (Nat.div_le_self _ _).trans_lt hslot
  unfold World.tick
  simp only [loop_updateDoppelgangerState]
  split
  · rename_i hchecks
    have hpos : 1 ≤ slot / slotsPerEpoch := Nat.one_le_iff_ne_zero.2 (hregular hchecks)
    -- the first run changes neither the last epoch nor the states
    have hloop : (if w.loop.firstRun = true then
        { w.loop with startEpoch := slot / slotsPerEpoch, firstRun := false } else
        w.loop).previousEpoch = w.loop.previousEpoch := by
      split
      · rfl
      · rfl
    by_cases hskip : skippedEpoch (if w.loop.firstRun = true then
        { w.loop with startEpoch := slot / slotsPerEpoch, firstRun := false } else w.loop)
        (slot / slotsPerEpoch) = true
    · rw [if_pos hskip]
      refine ⟨?_, hrange, .inr hpos⟩
      show AllBacked _ fun _ ↦ (if w.loop.firstRun = true then _ else w.loop).previousEpoch
      rw [hloop]
      exact hbacked
    · rw [if_neg hskip]
      refine ⟨?_, hrange, .inr hpos⟩
      have hle : w.loop.previousEpoch ≤ slot / slotsPerEpoch - 1 := by
        unfold skippedEpoch at hskip
        rw [hloop] at hskip
        simp only [gt_iff_lt, ne_eq, Bool.and_eq_true, decide_eq_true_eq, not_and, not_not] at hskip
        rcases Nat.eq_zero_or_pos w.loop.previousEpoch with hzero | hprev
        · omega
        · have hnext := hskip hprev
          omega
      exact fun v state hlookup ↦ (hbacked v state hlookup).mono hle
  · refine ⟨?_, ?_, .inl ?_⟩
    · rw [epochBound, phase_updateDoppelgangerState, hwaiting]
      simpa using hbacked
    · rw [tickEpoch, phase_updateDoppelgangerState, hwaiting]
      simpa using hprevious
    · rw [phase_updateDoppelgangerState, hwaiting]

theorem respond (h : w.Sound) (hphase : w.phase = .querying currentEpoch)
    {response : Option (List ValidatorLiveness)} (hone : OneEach response)
    (hregular : Regular slotsPerEpoch w (.respond response)) :
    (w.respond currentEpoch response).Sound := by
  obtain ⟨hrange, hpos⟩ := h.tick_range (show w.tickEpoch = currentEpoch by rw [tickEpoch, hphase])
    (by rw [hphase]; exact nofun)
  have hbacked := h.backed
  rw [epochBound, hphase] at hbacked
  cases response with
  | none =>
    refine endTick ?_ hrange
    exact fun v state hlookup ↦ (hbacked v state hlookup).mono (Nat.sub_le _ _)
  | some =>
    have hepoch : (currentEpoch + (2 ^ 64 - 1)) % 2 ^ 64 = currentEpoch - 1 := by omega
    show (World.endTick _ currentEpoch).Sound
    rw [hepoch]
    refine endTick ?_ hrange
    have hprocessed := hbacked.processLivenessData hone (fun _ ↦ Nat.le_succ _) (fun _ _ ↦ rfl)
      (fun r hr hlive state hlookup ↦ hregular r hr hlive state hlookup)
    rwa [show currentEpoch - 1 + 1 = currentEpoch by omega] at hprocessed

/-- **Every regular step keeps the invariant.** -/
theorem next (h : w.Sound) {a : Action} (ha : Enabled w a) (hregular : Regular slotsPerEpoch w a) :
    (next slotsPerEpoch w a).Sound := by
  cases a with
  | tick slot validatorIndices => exact h.tick ha.1 ha.2 validatorIndices hregular
  | reset =>
    unfold Doppelganger.next
    dsimp only
    split
    · rename_i currentEpoch hphase
      obtain ⟨hrange, hpos⟩ := h.tick_range
        (show w.tickEpoch = currentEpoch by rw [tickEpoch, hphase]) (by rw [hphase]; exact nofun)
      refine ⟨?_, hrange, .inr hpos⟩
      refine AllBacked.reset _ fun v state hlookup ↦ ?_
      exact hregular ⟨v, state⟩ (mem_lookup_iff.1 hlookup)
    · exact h
  | collect =>
    unfold Doppelganger.next
    dsimp only
    split
    · rename_i currentEpoch hphase
      obtain ⟨hrange, hpos⟩ := h.tick_range
        (show w.tickEpoch = currentEpoch by rw [tickEpoch, hphase]) (by rw [hphase]; exact nofun)
      have hbacked := h.backed
      rw [epochBound, hphase] at hbacked
      unfold World.collect
      split
      · refine endTick ?_ hrange
        exact fun v state hlookup ↦ (hbacked v state hlookup).mono (Nat.sub_le _ _)
      · exact ⟨hbacked, hrange, .inr hpos⟩
    · exact h
  | respond =>
    unfold Doppelganger.next
    dsimp only
    split
    · rename_i currentEpoch hphase
      exact h.respond hphase ha hregular
    · exact h
  | reportQuorum v => exact h.reportQuorum v
  | removeValidatorState v => exact ⟨h.backed.erase v, h.inRange, h.positive⟩

end World.Sound

/-- Permission to sign rests on fresh evidence. -/
def World.Gated (w : World) : Prop :=
  ∀ v, w.canSign v = true → (w.evidence v).quorum = true ∨ 2 ≤ (w.evidence v).notLive.card

/-- **The doppelganger gate**, in every run whose steps are all regular. -/
theorem gated_of_regular (slotsPerEpoch : ℕ) (w : World)
    (hw : ((machine slotsPerEpoch).restrict (Regular slotsPerEpoch)).Reachable w) : w.Gated := by
  have hsound : w.Sound := by
    refine hw.invariant ?_ ?_
    · rintro _ rfl
      exact ⟨fun v state hlookup ↦ (nomatch hlookup), by decide, .inl rfl⟩
    · intro s a _ hs ha
      exact hs.next ha.1 ha.2
  intro v hsign
  unfold World.canSign at hsign
  split at hsign
  · exact nomatch hsign
  · rename_i state hlookup
    exact (hsound.backed v state hlookup).of_safe hsign

/-! ### Runs for one validator -/

namespace Reference

/-- The run of these steps, with `32` slots in an epoch. -/
def runOf (steps : List Action) : World := steps.foldl (next 32) .new

/-- A check at a slot for validator `7`, with the response of the beacon node. -/
def check (slot : ℕ) (response : Option (List ValidatorLiveness)) : List Action :=
  [.tick slot [7], .collect, .respond response]

/-- Checks in epochs `10` and `11`; the validator is live in neither `9` nor `10`. -/
def twoEpochs : List Action := check 320 (some [⟨7, false⟩]) ++ check 383 (some [⟨7, false⟩])

theorem gated_twoEpochs : (runOf twoEpochs).canSign 7 = true ∧ (runOf twoEpochs).Gated := by
  have henables : ((machine 32).restrict (Regular 32)).Enables .new twoEpochs := by
    show Machine.Enables ⟨_, fun w a ↦ Enabled w a ∧ Regular 32 w a, next 32⟩ _ _
    decide +kernel
  have hinitial : ((machine 32).restrict (Regular 32)).initial .new := rfl
  exact ⟨by decide +kernel, gated_of_regular 32 _
    ((Machine.Reachable.initial hinitial).foldl henables)⟩

/-- After a quorum in epoch `10` an epoch is skipped, and all states are reset. -/
def staleQuorum : List Action := check 320 none ++ [.reportQuorum 7, .tick 415 [7], .reset]

/-- The clock jumps back into epoch `0` and its last slot ticks twice. -/
def epochZeroTwice : List Action :=
  check 32 none ++ [.tick 31 [7], .reset, .collect, .respond (some [⟨7, false⟩])] ++
    check 31 (some [⟨7, false⟩])

/-- **The gate opens without fresh evidence**: by a quorum from before a reset, and after two checks
in epoch `0`. -/
theorem opens_without_evidence :
    ((machine 32).Reachable (runOf staleQuorum) ∧ (runOf staleQuorum).canSign 7 = true ∧
      ((runOf staleQuorum).evidence 7).quorum = false ∧
      ((runOf staleQuorum).evidence 7).notLive.card = 0) ∧
    (machine 32).Reachable (runOf epochZeroTwice) ∧ (runOf epochZeroTwice).canSign 7 = true ∧
      ((runOf epochZeroTwice).evidence 7).quorum = false ∧
      ((runOf epochZeroTwice).evidence 7).notLive.card = 1 := by
  have hreachable (steps : List Action)
      (henables : Machine.Enables ⟨(· = World.new), Enabled, next 32⟩ .new steps) :
      (machine 32).Reachable (runOf steps) := by
    have hinitial : (machine 32).initial .new := rfl
    exact (Machine.Reachable.initial hinitial).foldl henables
  exact ⟨⟨hreachable staleQuorum (by decide +kernel), by decide +kernel, by decide +kernel,
      by decide +kernel⟩,
    hreachable epochZeroTwice (by decide +kernel), by decide +kernel, by decide +kernel,
    by decide +kernel⟩

end Reference

end Ssv.Doppelganger
