import SsvNode.Runner.OneDecision

/-!
# The runner of one slot

A committee has a runner for each slot and routes messages to it, so that the duty, the instance and
the messages of a runner are all of one slot (`RunnerCall.RoutedTo`). Nothing can then push the
running instance out of the window (`ServesSlot`).
-/

namespace Ssv

open SsvSpec List Option

variable [RunnerSpec]

def RunnerCall.RoutedTo (slot : ℕ) : RunnerCall → Prop
  | .startNewDuty s => s = slot
  | .processConsensus _ msg _ =>
    ∀ pm, newProcessingMessage msg = .ok pm → pm.qbftMessage.height = slot
  | _ => True

/-- The runs of the runner a committee creates for a slot. -/
def DutyRun.slotMachine {α : Type} (enc : Encoder α) (slot : ℕ) : Machine (DutyRun α) RunnerCall :=
  (DutyRun.machine enc).restrict fun _ call ↦ call.RoutedTo slot

namespace BaseRunner

/-- What holds of a runner that serves one slot. -/
structure ServesSlot (slot : ℕ) (b : BaseRunner) : Prop where
  wellFormed : b.qbftController.WellFormed
  heights : ∀ x ∈ b.qbftController.items, x.getHeight = slot
  duty : ∀ s, b.state = some s → s.currentDutySlot = slot
  running : ∀ s r, b.state = some s → s.runningInstance = some r →
    r.height = slot ∧ r.detached = none ∧ b.qbftController.items ≠ []

namespace ServesSlot

variable {slot : ℕ} {b : BaseRunner}

section

variable (h : b.ServesSlot slot)
include h

theorem exists_instance (hne : b.qbftController.items ≠ []) :
    ∃ inst, b.qbftController.recentInstances.findInstance slot = some inst := by
  obtain ⟨inst, hinst⟩ := exists_mem_of_ne_nil _ hne
  exact ⟨inst, h.wellFormed.find_iff.2 ⟨hinst, h.heights inst hinst⟩⟩

theorem withCall {call : Call}
    (hmsg : ∀ now sm pm, call = .processMsg now sm → newProcessingMessage sm = .ok pm →
      pm.qbftMessage.height = slot)
    (hstart : ∀ now height value checker, call = .startNewInstance now height value checker →
      height = slot) : (b.withCall call).ServesSlot slot := by
  have hstep := Controller.step_perform b.qbftController call
  have hwell := h.wellFormed.step hstep
  have hheights : ∀ x ∈ ((Controller.perform call).run b.qbftController).state.items,
      x.getHeight = slot := by
    cases b.qbftController.windowStep call with
    | start started held le absent height state =>
      rw [state]
      intro x hx
      rcases Instances.mem_of_mem_addNewInstance hx with rfl | hx
      · rw [height]
        cases call with
        | startNewInstance =>
          obtain ⟨-, ⟨⟩⟩ := ite_none_right_eq_some.1 started
          exact hstart _ _ _ _ rfl
        | processMsg | onQBFTRoundTimeout => exact nomatch started
      · obtain ⟨y, hy, rfl⟩ := mem_map.1 hx
        exact h.heights y hy
    | decide started held call_eq decoded decided absent height state =>
      rw [state]
      intro x hx
      rcases Instances.mem_of_mem_addNewInstance hx with rfl | hx
      · exact height.trans (hmsg _ _ _ call_eq decoded)
      · exact h.heights x hx
    | keep started held heights =>
      intro x hx
      have hmem : x.getHeight ∈ b.qbftController.items.map (·.getHeight) :=
        heights ▸ mem_map_of_mem hx
      obtain ⟨y, hy, heq⟩ := mem_map.1 hmem
      exact heq ▸ h.heights y hy
  refine ⟨hwell, hheights, ?_, ?_⟩
  · intro s' hs'
    obtain ⟨s, hs, rfl⟩ := map_eq_some_iff.1 hs'
    exact h.duty s hs
  · intro s' r' hs' hr'
    obtain ⟨s, hs, rfl⟩ := map_eq_some_iff.1 hs'
    obtain ⟨r, hr, rfl⟩ := map_eq_some_iff.1 hr'
    obtain ⟨hheight, hattached, hne⟩ := h.running s r hs hr
    have hne' := hstep.items_ne_nil h.wellFormed hne
    obtain ⟨inst, hinst⟩ := exists_mem_of_ne_nil _ hne'
    -- the height of the pointer is still in the window
    have hfound := hwell.find_iff.2 ⟨hinst, (hheights inst hinst).trans hheight.symm⟩
    rw [RunningInstance.after_of_found hfound]
    exact ⟨hheight, hattached, hne'⟩

theorem frame {b' : BaseRunner} (hc : b'.qbftController = b.qbftController)
    (hstate : ∀ s', b'.state = some s' → ∃ s, b.state = some s ∧
      s'.currentDutySlot = s.currentDutySlot ∧ s'.runningInstance = s.runningInstance) :
    b'.ServesSlot slot := by
  refine ⟨hc ▸ h.wellFormed, hc ▸ h.heights, ?_, ?_⟩
  · intro s' hs'
    obtain ⟨s, hs, hduty, -⟩ := hstate s' hs'
    exact hduty.trans (h.duty s hs)
  · intro s' r hs' hr
    obtain ⟨s, hs, -, hrunning⟩ := hstate s' hs'
    rw [hc]
    exact h.running s r hs (hrunning.symm.trans hr)

theorem decide (now : ℕ) (byts : Data) (checker : ValueChecker) :
    (b.decide now byts checker).ServesSlot slot := by
  unfold BaseRunner.decide
  rcases hs : b.state with - | s
  · exact h
  dsimp only
  have hduty := h.duty s hs
  have hcalled : (b.withCall (.startNewInstance now s.currentDutySlot byts checker)).ServesSlot
      slot :=
    h.withCall (fun _ _ _ hcall ↦ nomatch hcall) (by rintro _ _ _ _ ⟨⟩; exact hduty)
  split
  · split
    · rename_i hok
      have hstart := Controller.perform_startNewInstance b.qbftController now s.currentDutySlot byts
        checker
      rw [Act.wp_iff] at hstart
      rcases hstart with ⟨-, -, habsent, hstate⟩ | ⟨herror, -⟩
      · refine ⟨hcalled.wellFormed, hcalled.heights, ?_, ?_⟩
        · rintro _ ⟨⟩
          exact hduty
        · rintro _ _ ⟨⟩ ⟨⟩
          refine ⟨hduty, rfl, ?_⟩
          show ((Controller.perform _).run b.qbftController).state.items ≠ []
          rw [hstate]
          refine Controller.items_withNewInstance_ne_nil h.wellFormed.markRecentInstancesIrrelevant
            ?_
          intro x hx
          obtain ⟨y, hy, rfl⟩ := mem_map.1 hx
          exact Controller.WellFormed.absent_iff.1 habsent y hy
      · rw [hok] at herror
        cases herror
    · exact hcalled
  · exact h

theorem processConsensus {α : Type} (enc : Encoder α)
    (check : Bytes → Except Err Unit) (now : ℕ) {msg : SignedSSVMessage}
    (hmsg : ∀ pm, newProcessingMessage msg = .ok pm → pm.qbftMessage.height = slot) :
    (b.baseConsensusMsgProcessing enc check now msg).1.ServesSlot slot := by
  have hcalled : (b.withCall (.processMsg now msg)).ServesSlot slot :=
    h.withCall (by rintro _ _ pm ⟨⟩ hpm; exact hmsg pm hpm) fun _ _ _ _ hcall ↦ nomatch hcall
  unfold BaseRunner.baseConsensusMsgProcessing
  dsimp only
  split
  · exact h
  · split
    · exact hcalled
    · split
      · exact hcalled
      · split
        · exact hcalled
        · unfold BaseRunner.uponDecidedMsg
          split
          · exact hcalled
          · exact hcalled
          · split
            · exact hcalled
            · exact hcalled
            · rename_i hs
              refine hcalled.frame rfl ?_
              rintro _ ⟨⟩
              exact ⟨_, hs, rfl, rfl⟩

end

theorem next {α : Type} {enc : Encoder α} {run : DutyRun α} (h : run.runner.ServesSlot slot)
    {call : RunnerCall} (hcall : call.RoutedTo slot) :
    (run.next enc call).runner.ServesSlot slot := by
  cases call with
  | startNewDuty s =>
    obtain rfl : s = slot := hcall
    show (run.runner.baseStartNewDuty s).ServesSlot s
    unfold BaseRunner.baseStartNewDuty
    split
    · refine ⟨h.wellFormed, h.heights, ?_, ?_⟩
      · rintro _ ⟨⟩
        rfl
      · rintro _ _ ⟨⟩ ⟨⟩
    · exact h
  | decide now byts checker => exact h.decide now byts checker
  | processConsensus now msg check => exact h.processConsensus enc check now hcall
  | onTimeout now s round =>
    show (run.runner.onQBFTRoundTimeout now s round).ServesSlot slot
    unfold BaseRunner.onQBFTRoundTimeout
    split
    · exact h
    · split
      · exact h
      · exact h.withCall (fun _ _ _ hcall ↦ nomatch hcall) fun _ _ _ _ hcall ↦ nomatch hcall
  | markDutySucceeded =>
    refine h.frame rfl ?_
    intro s' hs'
    obtain ⟨s, hs, rfl⟩ := map_eq_some_iff.1 hs'
    exact ⟨s, hs, rfl, rfl⟩

/-- **A runner only sees its slot**, in every run. -/
theorem of_reachable {α : Type} {enc : Encoder α} {run : DutyRun α}
    (hrun : (DutyRun.slotMachine enc slot).Reachable run) : run.runner.ServesSlot slot := by
  refine hrun.invariant (P := fun run ↦ run.runner.ServesSlot slot) ?_ ?_
  · intro run hinit
    obtain ⟨hstate, hitems, -⟩ := id hinit
    refine ⟨(DutyRun.Invariant.of_initial enc hinit).wellFormed, ?_, ?_, ?_⟩
    · intro x hx
      rw [hitems] at hx
      cases hx
    · intro s hs
      rw [hstate] at hs
      cases hs
    · intro s r hs
      rw [hstate] at hs
      cases hs
  · intro run call _ h hcall
    exact h.next hcall.2

end ServesSlot

end BaseRunner

end Ssv
