import SsvNode.Runner.DecidedMessage

/-!
# One decision per duty

`DutyRun` is a runner with the values it has taken up as decided for the current duty. While the
instance is in the window, it is decided with that value (`Controller.Decides.known`). Once it was
pushed out, a decided message for its height decides **another** object, and every copy is taken up
again. Without such messages (`keepsInstance`) a duty has at most one decision.
-/

namespace Ssv

open SsvSpec Controller List Option

variable [RunnerSpec]

inductive RunnerCall where
  | startNewDuty (slot : ℕ)
  | decide (now : ℕ) (byts : Data) (valueChecker : ValueChecker)
  | processConsensus (now : ℕ) (msg : SignedSSVMessage) (valueCheckFn : Bytes → Except Err Unit)
  | onTimeout (now slot round : ℕ)
  | markDutySucceeded

/-- A runner with the values taken up for the current duty, the last one first. -/
structure DutyRun (α : Type) where
  runner : BaseRunner
  decisions : List α

/-- Encoding inverts decoding. -/
def Encoder.Canonical {α : Type} (enc : Encoder α) : Prop :=
  ∀ b a b', enc.decode b = .ok a → enc.encode a = .ok b' → b' = b

/-- The value of a call that returns decided, with a value and no error. -/
def ConsensusOutcome.decision {α : Type} (o : ConsensusOutcome α) : Option α :=
  match o with
  | ⟨true, some v, none⟩ => some v
  | _ => none

namespace BaseRunner

/-- A decided message for the running instance finds it in the window. -/
def keepsInstance (b : BaseRunner) : RunnerCall → Bool
  | .processConsensus _ msg _ =>
    match newProcessingMessage msg, b.running? with
    | .ok pm, some r =>
      !b.qbftController.isDecidedMsg pm || pm.qbftMessage.height != r.height ||
        (b.qbftController.recentInstances.findInstance r.height).isSome
    | _, _ => true
  | _ => true

end BaseRunner

namespace DutyRun

variable {α : Type}

/-- One call. A duty that is taken on starts without decisions. -/
def next (enc : Encoder α) (run : DutyRun α) : RunnerCall → DutyRun α
  | .startNewDuty slot =>
    { runner := run.runner.baseStartNewDuty slot
      decisions := if (run.runner.shouldProcessDuty slot).isOk then [] else run.decisions }
  | .decide now byts valueChecker =>
    { run with runner := run.runner.decide now byts valueChecker }
  | .processConsensus now msg valueCheckFn =>
    let (runner, outcome) := run.runner.baseConsensusMsgProcessing enc valueCheckFn now msg
    { runner := runner, decisions := outcome.decision.toList ++ run.decisions }
  | .onTimeout now slot round =>
    { run with runner := run.runner.onQBFTRoundTimeout now slot round }
  | .markDutySucceeded => { run with runner := run.runner.markDutySucceeded }

/-- The runs of a runner without a duty, whose controller has no instances. -/
def machine (enc : Encoder α) : Machine (DutyRun α) RunnerCall where
  initial run := run.runner.state = none ∧ run.runner.qbftController.items = [] ∧
    run.runner.qbftController.latestInstanceHeight = firstHeight ∧ run.decisions = []
  enabled _ _ := True
  next := next enc

end DutyRun

/-! ### The running instance across a call of the controller -/

def Call.Delivers (call : Call) : Prop :=
  ∀ now h value checker, call ≠ .startNewInstance now h value checker

/-- The pointer is to an instance, which has left the window if the pointer is all there is of it.
-/
structure RunningInstance.Valid (r : RunningInstance) (c : Controller) : Prop where
  exists_deref : ∃ inst, r.deref c = some inst
  detached : r.detached.isSome = true → c.recentInstances.findInstance r.height = none
  le_latest : r.height ≤ c.latestInstanceHeight
  items_ne_nil : c.items ≠ []

namespace RunningInstance

variable {r : RunningInstance} {c : Controller} {call : Call}

theorem Valid.attached {inst : Instance} (h : r.Valid c)
    (hfound : c.recentInstances.findInstance r.height = some inst) : r.detached = none := by
  by_contra hne
  have := h.detached (isSome_iff_ne_none.2 hne)
  rw [hfound] at this
  cases this

variable {c' : Controller}

@[simp] theorem after_height : (r.after c call c').height = r.height := by
  unfold after
  split
  · rfl
  · rfl

theorem after_of_found {inst' : Instance}
    (hfound : c'.recentInstances.findInstance r.height = some inst') : r.after c call c' = r := by
  unfold after
  rw [hfound]
  simp

theorem after_of_detached {inst : Instance} (hdet : r.detached = some inst) :
    r.after c call c' = r := by
  unfold after
  rw [hdet]
  simp

theorem absent_kept {h : ℕ} (hdelivers : call.Delivers)
    (hkeeps : ∀ now sm pm, call = .processMsg now sm → newProcessingMessage sm = .ok pm →
      c.isDecidedMsg pm = true → pm.qbftMessage.height ≠ h)
    (habsent : c.recentInstances.findInstance h = none) :
    ((perform call).run c).state.recentInstances.findInstance h = none := by
  rw [Controller.WellFormed.absent_iff] at habsent ⊢
  rcases (step_perform c call).heights hdelivers with
    ⟨hheights, -⟩ | ⟨now, sm, pm, inst, hcall, hdecoded, hdecided, -, hheight, hstate⟩
  · intro x hx hxh
    have hmem : x.getHeight ∈ c.items.map (·.getHeight) := hheights ▸ mem_map_of_mem hx
    obtain ⟨y, hy, heq⟩ := mem_map.1 hmem
    exact habsent y hy (heq.trans hxh)
  · rw [hstate]
    intro x hx hxh
    rcases Instances.mem_of_mem_addNewInstance hx with rfl | hx
    · exact hkeeps now sm pm hcall hdecoded hdecided (hheight.symm.trans hxh)
    · exact habsent x hx hxh

/-- **The instance behind the pointer keeps its decision** across a message or timeout. -/
theorem Valid.after (h : r.Valid c) (hc : c.WellFormed) (hdelivers : call.Delivers)
    (hkeeps : ∀ now sm pm, call = .processMsg now sm → newProcessingMessage sm = .ok pm →
      c.isDecidedMsg pm = true → c.recentInstances.findInstance r.height = none →
      pm.qbftMessage.height ≠ r.height) :
    (r.after c call ((perform call).run c).state).Valid
        ((perform call).run c).state ∧
      ∀ inst, r.deref c = some inst → inst.state.decided = true →
        ∃ inst', (r.after c call ((perform call).run c).state).deref
            ((perform call).run c).state = some inst' ∧
          inst'.state.decided = true ∧ inst'.state.decidedValue = inst.state.decidedValue := by
  have hstep := step_perform c call
  have hlatest := h.le_latest.trans hstep.latest_le
  have hnonempty := hstep.items_ne_nil hc h.items_ne_nil
  obtain ⟨inst, hderef⟩ := h.exists_deref
  rcases hdet : r.detached with - | gone
  · have hfound : c.recentInstances.findInstance r.height = some inst := by
      rwa [deref, hdet] at hderef
    rcases hfound' : ((perform call).run c).state.recentInstances.findInstance r.height
      with - | inst'
    · -- it leaves the window, as it was
      have hheld : c.held call = c.items := by
        cases call with
        | startNewInstance => exact absurd rfl (hdelivers _ _ _ _)
        | processMsg | onQBFTRoundTimeout => rfl
      have hafter : r.after c call ((perform call).run c).state =
          { r with detached := some inst } := by
        unfold RunningInstance.after
        rw [hfound', hdet, hheld]
        simp only [isNone_none, and_self, if_true]
        exact congrArg (RunningInstance.mk r.height) hfound
      rw [hafter]
      refine ⟨⟨⟨inst, rfl⟩, fun _ ↦ hfound', hlatest, hnonempty⟩, fun inst₀ hinst₀ hd ↦ ?_⟩
      obtain rfl := some.inj (hderef.symm.trans hinst₀)
      exact ⟨inst, rfl, hd, rfl⟩
    · have hderef' : r.deref ((perform call).run c).state = some inst' := by
        rw [deref, hdet]
        exact hfound'
      rw [after_of_found hfound']
      refine ⟨⟨⟨inst', hderef'⟩, fun hsome ↦ by simp [hdet] at hsome, hlatest, hnonempty⟩,
        fun inst₀ hinst₀ hd ↦ ?_⟩
      obtain rfl := some.inj (hderef.symm.trans hinst₀)
      exact ⟨inst', hderef', hstep.decided_kept hc hfound hd hfound'⟩
  · have habsent := h.detached (by rw [hdet]; rfl)
    have hderef' : ∀ c', r.deref c' = some gone := fun c' ↦ by rw [deref, hdet]
    rw [after_of_detached hdet]
    refine ⟨⟨⟨gone, hderef' _⟩, fun _ ↦ ?_, hlatest, hnonempty⟩, fun inst₀ hinst₀ hd ↦ ?_⟩
    · exact absent_kept hdelivers (fun now sm pm hcall hdec hd ↦
        hkeeps now sm pm hcall hdec hd habsent)
        habsent
    · obtain rfl := some.inj ((hderef' c).symm.trans hinst₀)
      exact ⟨gone, hderef' _, hd, rfl⟩

end RunningInstance

/-! ### The invariant -/

namespace DutyRun

variable {α : Type} {enc : Encoder α} {run : DutyRun α}

/-- The running instance is decided, with the value of the state. -/
def TakenUp (b : BaseRunner) : Prop :=
  ∃ s r inst, b.state = some s ∧ s.runningInstance = some r ∧
    r.deref b.qbftController = some inst ∧ inst.state.decided = true ∧
    inst.state.decidedValue.bytes = s.decidedValue.bytes

variable {b : BaseRunner} {call : Call} {now : ℕ} {s : RunnerState}
  {check : Bytes → Except Err Unit} {sm : SignedSSVMessage}

theorem TakenUp.runningIsDecided (h : TakenUp b) : b.runningIsDecided = true := by
  obtain ⟨s, r, inst, hs, hr, hderef, hd, -⟩ := h
  have hrunning : b.running?.bind (·.deref b.qbftController) = some inst := by
    rw [BaseRunner.running?, hs]
    exact (congrArg (·.bind (·.deref b.qbftController)) hr).trans hderef
  rw [BaseRunner.runningIsDecided, hrunning]
  exact hd

theorem hasDutyRunning_withCall : (b.withCall call).hasDutyRunning = b.hasDutyRunning := by
  unfold BaseRunner.hasDutyRunning BaseRunner.withCall
  rcases b.state with - | s
  · rfl
  · rfl

structure Invariant (run : DutyRun α) : Prop where
  wellFormed : run.runner.qbftController.WellFormed
  ownCommits : run.runner.qbftController.OwnCommits
  running : ∀ s r, run.runner.state = some s → s.runningInstance = some r →
    r.height = s.currentDutySlot ∧ r.Valid run.runner.qbftController
  decisions : run.decisions = [] ∨ run.decisions.length = 1 ∧ TakenUp run.runner

theorem Invariant.of_initial (enc : Encoder α) (h : (machine enc).initial run) : run.Invariant := by
  obtain ⟨hstate, hitems, hlatest, hdecisions⟩ := h
  have hnone : ∀ x, x ∉ run.runner.qbftController.items := fun x hx ↦ by simp [hitems] at hx
  refine ⟨⟨?_, fun x hx ↦ absurd hx (hnone x), .inl ⟨hitems, hlatest⟩,
    fun x hx ↦ absurd hx (hnone x)⟩, fun x hx ↦ absurd hx (hnone x), fun s r hs ↦ ?_,
    .inl hdecisions⟩
  · unfold Instances.Ordered
    rw [show run.runner.qbftController.recentInstances.items = [] from hitems]
    exact List.Pairwise.nil
  · rw [hstate] at hs
    cases hs

section

variable (h : run.Invariant)
include h

theorem Invariant.withCall (call : Call) (hdelivers : call.Delivers)
    (hkeeps : ∀ now sm pm r, call = .processMsg now sm → newProcessingMessage sm = .ok pm →
      run.runner.qbftController.isDecidedMsg pm = true → run.runner.running? = some r →
      run.runner.qbftController.recentInstances.findInstance r.height = none →
      pm.qbftMessage.height ≠ r.height) :
    ({ run with runner := run.runner.withCall call } : DutyRun α).Invariant := by
  have hstep := step_perform run.runner.qbftController call
  have hafter : ∀ s r, run.runner.state = some s → s.runningInstance = some r → _ := fun s r hs hr ↦
    (h.running s r hs hr).2.after h.wellFormed hdelivers fun now sm pm hcall hdec hd hnone ↦
      hkeeps now sm pm r hcall hdec hd (by rw [BaseRunner.running?, hs]; exact hr) hnone
  refine ⟨h.wellFormed.step hstep, h.ownCommits.step h.wellFormed hstep, ?_, ?_⟩
  · intro s' r' hs' hr'
    obtain ⟨s, hs, rfl⟩ := map_eq_some_iff.1 hs'
    obtain ⟨r, hr, rfl⟩ := map_eq_some_iff.1 hr'
    exact ⟨RunningInstance.after_height.trans (h.running s r hs hr).1, (hafter s r hs hr).1⟩
  · refine h.decisions.imp_right fun ⟨hlength, s, r, inst, hs, hr, hderef, hd, hvalue⟩ ↦ ?_
    obtain ⟨inst', hderef', hd', hvalue'⟩ := (hafter s r hs hr).2 inst hderef hd
    refine ⟨hlength, _, _, inst', map_eq_some_iff.2 ⟨s, hs, rfl⟩,
      map_eq_some_iff.2 ⟨r, hr, rfl⟩, hderef', hd', ?_⟩
    rw [hvalue']
    exact hvalue

theorem Invariant.startNewDuty (slot : ℕ) : (run.next enc (.startNewDuty slot)).Invariant := by
  simp only [DutyRun.next, BaseRunner.baseStartNewDuty]
  split
  · refine ⟨h.wellFormed, h.ownCommits, fun s r hs hr ↦ ?_, .inl rfl⟩
    cases hs
    cases hr
  · exact h

/-- A duty starts no second instance: its height is not behind the latest, or is there. -/
theorem Invariant.no_second_start {byts : Data} {checker : ValueChecker}
    (hs : run.runner.state = some s)
    (hok : ((perform (.startNewInstance now s.currentDutySlot byts checker)).run
      run.runner.qbftController).result.isOk = true) : s.runningInstance = none := by
  by_contra hne
  obtain ⟨r, hr⟩ := ne_none_iff_exists'.1 hne
  obtain ⟨hheight, hvalid⟩ := h.running s r hs hr
  have hstart := perform_startNewInstance run.runner.qbftController now s.currentDutySlot byts
    checker
  rw [Act.wp_iff] at hstart
  rcases hstart with ⟨-, hle, habsent, -⟩ | ⟨herror, -⟩
  · rcases h.wellFormed.latest with ⟨hnil, -⟩ | ⟨x, hx, hlatest⟩
    · exact hvalid.items_ne_nil hnil
    · have := Controller.WellFormed.absent_iff.1 habsent x hx
      have := hvalid.le_latest
      omega
  · rw [hok] at herror
    cases herror

theorem Invariant.started {inst : Instance} (hs : run.runner.state = some s)
    (hnone : s.runningInstance = none)
    (habsent : run.runner.qbftController.recentInstances.findInstance s.currentDutySlot = none)
    (hinst : inst.getHeight = s.currentDutySlot)
    (hstate : ((perform call).run run.runner.qbftController).state =
      run.runner.qbftController.markRecentInstancesIrrelevant.withNewInstance inst
        s.currentDutySlot) :
    ({ run with runner := { run.runner.withCall call with state := some { s with
        runningInstance := some { height := s.currentDutySlot, detached := none } } } } :
      DutyRun α).Invariant := by
  have hstep := step_perform run.runner.qbftController call
  have hwell := h.wellFormed.step hstep
  have hlatest : ((perform call).run run.runner.qbftController).state.latestInstanceHeight =
      s.currentDutySlot := by
    rw [hstate]
    rfl
  have hitems : ((perform call).run run.runner.qbftController).state.items ≠ [] := by
    rw [hstate]
    refine items_withNewInstance_ne_nil h.wellFormed.markRecentInstancesIrrelevant fun x hx ↦ ?_
    obtain ⟨y, hy, rfl⟩ := mem_map.1 hx
    rw [hinst]
    exact Controller.WellFormed.absent_iff.1 habsent y hy
  refine ⟨hwell, h.ownCommits.step h.wellFormed hstep, fun s' r hs' hr ↦ ?_, ?_⟩
  · cases hs'
    cases hr
    refine ⟨rfl, ?_, nofun, hlatest.ge, hitems⟩
    rcases hwell.latest with ⟨hnil, -⟩ | ⟨x, hx, hxlatest⟩
    · exact absurd hnil hitems
    · exact ⟨x, hwell.find_iff.2 ⟨hx, hxlatest.trans hlatest⟩⟩
  · refine h.decisions.imp_right fun ⟨_, s₀, r, inst, hs₀, hr, _⟩ ↦ ?_
    obtain rfl := some.inj (hs.symm.trans hs₀)
    rw [hnone] at hr
    cases hr

theorem Invariant.withCall_eq_self (hstate : ((perform call).run run.runner.qbftController).state =
      run.runner.qbftController) : run.runner.withCall call = run.runner := by
  have hafter : ∀ s, run.runner.state = some s → s.runningInstance.map
      (·.after run.runner.qbftController call run.runner.qbftController) = s.runningInstance := by
    intro s hs
    rcases hr : s.runningInstance with - | r
    · rfl
    refine congrArg some ?_
    obtain ⟨inst, hderef⟩ := (h.running s r hs hr).2.exists_deref
    rcases hdet : r.detached with - | gone
    · rw [RunningInstance.deref, hdet] at hderef
      exact RunningInstance.after_of_found hderef
    · exact RunningInstance.after_of_detached hdet
  simp only [BaseRunner.withCall, hstate]
  rcases hs : run.runner.state with - | s
  · rw [map_none, ← hs]
  · rw [map_some, hafter s hs, ← hs]

theorem Invariant.decide (now : ℕ) (byts : Data) (checker : ValueChecker) :
    (run.next enc (.decide now byts checker)).Invariant := by
  simp only [DutyRun.next, BaseRunner.decide]
  rcases hs : run.runner.state with - | s
  · exact h
  have hstart := perform_startNewInstance run.runner.qbftController now s.currentDutySlot byts
    checker
  rw [Act.wp_iff] at hstart
  simp only
  split
  · split
    · rename_i hok
      have hnone := h.no_second_start hs hok
      rcases hstart with ⟨-, -, habsent, hstate⟩ | ⟨herror, -⟩
      · exact h.started hs hnone habsent rfl hstate
      · rw [hok] at herror
        cases herror
    · rename_i hfailed
      rcases hstart with ⟨hok, -⟩ | ⟨-, hstate⟩
      · exact absurd hok hfailed
      · rw [h.withCall_eq_self hstate]
        exact h
  · exact h

theorem Invariant.onTimeout (now slot round : ℕ) :
    (run.next enc (.onTimeout now slot round)).Invariant := by
  simp only [DutyRun.next, BaseRunner.onQBFTRoundTimeout]
  split
  · exact h
  · split
    · exact h
    · exact h.withCall _ (fun _ _ _ _ ↦ nofun) fun _ _ _ _ hcall ↦ nomatch hcall

theorem Invariant.markDutySucceeded : (run.next enc .markDutySucceeded).Invariant := by
  refine ⟨h.wellFormed, h.ownCommits, fun s' r hs' hr ↦ ?_, ?_⟩
  · obtain ⟨s, hs, rfl⟩ := map_eq_some_iff.1 hs'
    exact h.running s r hs hr
  · refine h.decisions.imp_right fun ⟨hlength, s, r, inst, hs, hr, hrest⟩ ↦ ?_
    exact ⟨hlength, _, r, inst, map_eq_some_iff.2 ⟨s, hs, rfl⟩, hr, hrest⟩

end

/-! ### A consensus message -/

omit [RunnerSpec] in
theorem takeUpDecidedValue_ok {fullData : Data} {v : α} {encoded : Bytes} (henc : enc.Canonical)
    (h : BaseRunner.takeUpDecidedValue enc check fullData = .ok (v, encoded)) :
    encoded = fullData.bytes := by
  simp only [BaseRunner.takeUpDecidedValue, Checks.bind_eq_ok, Checks.mapError_eq_ok,
    Checks.pure_eq_ok, Prod.mk.injEq] at h
  obtain ⟨_, hdecode, _, _, _, hencode, rfl, rfl⟩ := h
  exact henc _ _ _ hdecode hencode

/-- `didDecideCorrectly` says yes for the running instance's height, if it was not decided. -/
theorem didDecideCorrectly_true {prevDecided : Bool} {dm : SignedSSVMessage}
    (h : b.didDecideCorrectly prevDecided dm = .ok true) :
    ∃ m r, RunnerSpec.decodeMessage dm.ssvMessage.data = .ok m ∧ b.running? = some r ∧
      m.height = r.height := by
  simp only [BaseRunner.didDecideCorrectly, Checks.bind_eq_ok] at h
  obtain ⟨m, hm, h⟩ := h
  rcases hr : b.running? with - | r
  · simp [hr] at h
  · simp only [hr, Checks.bind_eq_ok, Checks.exists_check, Checks.require_eq_ok] at h
    exact ⟨m, r, hm, rfl, h.1⟩

/-- No decision and no change, or the value of the message for the running instance. -/
theorem uponDecidedMsg_cases (henc : enc.Canonical) (check : Bytes → Except Err Unit)
    (b : BaseRunner) (prevDecided : Bool) (dm : SignedSSVMessage) :
    ((b.uponDecidedMsg enc check prevDecided dm).1 = b ∧
      (b.uponDecidedMsg enc check prevDecided dm).2.decision = none) ∨
    ∃ v s m r, RunnerSpec.decodeMessage dm.ssvMessage.data = .ok m ∧ b.state = some s ∧
      s.runningInstance = some r ∧ m.height = r.height ∧
      (b.uponDecidedMsg enc check prevDecided dm).1 =
        { b with
          state := some { s with decidedValue := some dm.fullData.bytes }
          highestDecidedSlot := s.currentDutySlot } ∧
      (b.uponDecidedMsg enc check prevDecided dm).2.decision = some v := by
  unfold BaseRunner.uponDecidedMsg
  rcases hcorrect : b.didDecideCorrectly prevDecided dm with e | (- | -)
  · exact .inl ⟨rfl, rfl⟩
  · exact .inl ⟨rfl, rfl⟩
  obtain ⟨m, r, hm, hr, hheight⟩ := didDecideCorrectly_true hcorrect
  rcases htake : BaseRunner.takeUpDecidedValue enc check dm.fullData with e | ⟨v, encoded⟩
  · exact .inl ⟨rfl, rfl⟩
  rcases hs : b.state with - | s
  · exact .inl ⟨by simp only, rfl⟩
  · rw [BaseRunner.running?, hs] at hr
    refine .inr ⟨v, s, m, r, hm, rfl, hr, hheight, ?_, rfl⟩
    rw [takeUpDecidedValue_ok henc htake]

theorem height_ne_of_keepsInstance {now' : ℕ} {sm' : SignedSSVMessage} {pm : ProcessingMessage}
    {r : RunningInstance} (hkeeps : b.keepsInstance (.processConsensus now sm check) = true)
    (hcall : Call.processMsg now sm = .processMsg now' sm')
    (hdecoded : newProcessingMessage sm' = .ok pm)
    (hdecided : b.qbftController.isDecidedMsg pm = true) (hr : b.running? = some r)
    (habsent : b.qbftController.recentInstances.findInstance r.height = none) :
    pm.qbftMessage.height ≠ r.height := by
  obtain ⟨-, rfl⟩ := Call.processMsg.inj hcall
  simpa [BaseRunner.keepsInstance, hdecoded, hr, hdecided, habsent] using hkeeps

/-- While no decision has been taken up, one for the running instance may be. -/
theorem Invariant.taken {b' : BaseRunner} {r : RunningInstance}
    {dm : SignedSSVMessage} {v : α} (h : run.Invariant)
    (hafter : ({ run with runner := b' } : DutyRun α).Invariant)
    (hb' : b' = run.runner.withCall call) (hs : b'.state = some s) (hr : s.runningInstance = some r)
    (hdecides : run.runner.qbftController.Decides sm dm r.height b'.qbftController)
    (hkeeps : ∀ pm r, newProcessingMessage sm = .ok pm →
      run.runner.qbftController.isDecidedMsg pm = true → run.runner.running? = some r →
      run.runner.qbftController.recentInstances.findInstance r.height = none →
      pm.qbftMessage.height ≠ r.height) :
    ({ runner := { b' with
          state := some { s with decidedValue := some dm.fullData.bytes }
          highestDecidedSlot := s.currentDutySlot }
       decisions := [v] } : DutyRun α).Invariant := by
  refine ⟨hafter.wellFormed, hafter.ownCommits, fun s' r' hs' hr' ↦ ?_, .inr ⟨rfl, ?_⟩⟩
  · cases hs'
    exact hafter.running s r' hs hr'
  · -- the pointer of before, which is into the window if the height is there
    subst hb'
    obtain ⟨s₀, hs₀, rfl⟩ := map_eq_some_iff.1 hs
    obtain ⟨r₀, hr₀, rfl⟩ := map_eq_some_iff.1 hr
    rw [RunningInstance.after_height] at hdecides
    cases hdecides with
    | @known inst inst' found found' decided value =>
      have hsame : r₀.after run.runner.qbftController call
          ((perform call).run run.runner.qbftController).state = r₀ :=
        RunningInstance.after_of_found found'
      refine ⟨_, _, inst', rfl, hr, ?_, decided, ?_⟩
      · rw [hsame, RunningInstance.deref, (h.running s₀ r₀ hs₀ hr₀).2.attached found]
        exact found'
      · rw [value]
        rfl
    | absent decoded height decided absent =>
      refine absurd height (hkeeps _ r₀ decoded decided ?_ absent)
      rw [BaseRunner.running?, hs₀]
      exact hr₀

/-- **A consensus message keeps the invariant.** -/
theorem Invariant.processConsensus (h : run.Invariant) (henc : enc.Canonical)
    (hkeeps : run.runner.keepsInstance (.processConsensus now sm check) = true) :
    (run.next enc (.processConsensus now sm check)).Invariant := by
  have hafter := h.withCall (.processMsg now sm) (fun _ _ _ _ ↦ nofun)
    fun now' sm' pm r hcall hdecoded hdecided hr habsent ↦
      height_ne_of_keepsInstance hkeeps hcall hdecoded hdecided hr habsent
  have hreturns := processMsg_returns h.wellFormed h.ownCommits now sm
  rw [Act.wp_iff] at hreturns
  simp only [DutyRun.next, BaseRunner.baseConsensusMsgProcessing]
  split
  · exact h
  rename_i hprev
  rcases hresult : ((processMsg now sm).run run.runner.qbftController).result with
    e | - | dm
  · exact hafter
  · simp only
    split
    · exact hafter
    · exact hafter
  simp only
  split
  · exact hafter
  rename_i hrunning
  rcases uponDecidedMsg_cases henc check (run.runner.withCall (.processMsg now sm))
    (run.runner.hasDutyRunning && run.runner.runningIsDecided) dm with
    ⟨hsame, hdecision⟩ | ⟨v, s, m, r, hm, hs, hr, hheight, hstate, hdecision⟩
  · rw [hsame, hdecision]
    exact hafter
  · have hnone : run.decisions = [] := by
      refine h.decisions.resolve_right fun ⟨_, htaken⟩ ↦ hprev ?_
      rw [hasDutyRunning_withCall] at hrunning
      rw [htaken.runningIsDecided, Bool.and_true]
      simpa using hrunning
    have hdecides := hreturns dm m hresult hm
    rw [hheight] at hdecides
    rw [hstate, hdecision, hnone]
    exact h.taken hafter rfl hs hr hdecides fun pm r hdecoded hdecided hr habsent ↦
      height_ne_of_keepsInstance hkeeps rfl hdecoded hdecided hr habsent

/-! ### The result -/

theorem Invariant.next {call : RunnerCall} (h : run.Invariant) (henc : enc.Canonical)
    (hkeeps : run.runner.keepsInstance call = true) : (run.next enc call).Invariant := by
  cases call with
  | startNewDuty slot => exact h.startNewDuty slot
  | decide now byts checker => exact h.decide now byts checker
  | processConsensus => exact h.processConsensus henc hkeeps
  | onTimeout now slot round => exact h.onTimeout now slot round
  | markDutySucceeded => exact h.markDutySucceeded

/-- **One decision per duty**, if decided messages for the running instance find it in the window:
at most one value is taken up, and then the running instance is decided with it. -/
theorem one_decision_of_runs (henc : enc.Canonical)
    (hrun : ((machine enc).restrict fun run call ↦
      run.runner.keepsInstance call = true).Reachable run) :
    run.decisions.length ≤ 1 ∧ (run.decisions ≠ [] → TakenUp run.runner) := by
  have hinv : run.Invariant := by
    refine hrun.invariant (P := Invariant) (fun run hinit ↦ ?_) ?_
    · exact Invariant.of_initial enc hinit
    · rintro run call - h ⟨-, hkeeps⟩
      exact h.next henc hkeeps
  rcases hinv.decisions with hnil | ⟨hlength, htaken⟩
  · rw [hnil]
    exact ⟨Nat.zero_le _, fun hne ↦ absurd rfl hne⟩
  · exact ⟨hlength.le, fun _ ↦ htaken⟩

end DutyRun

end Ssv

/-! ### Two runs of a runner -/

namespace Ssv.Reference

theorem mem_foldl_takeDisjoint {m : ProcessingMessage} (l : List ProcessingMessage)
    {acc : List OperatorID × List ProcessingMessage} (hm : m ∈ (l.foldl takeDisjoint acc).2) :
    m ∈ acc.2 ∨ m ∈ l := by
  induction l generalizing acc with
  | nil => exact .inl hm
  | cons x l ih =>
    have hstep : takeDisjoint acc x = if (acc.1 ++ x.signedMessage.operatorIDs).Nodup then
      (acc.1 ++ x.signedMessage.operatorIDs, acc.2 ++ [x]) else acc := rfl
    rw [List.foldl_cons, hstep] at hm
    rcases ih hm with hm | hm
    · split at hm
      · rcases List.mem_append.1 hm with hm | hm
        · exact .inl hm
        · exact .inr (List.mem_singleton.1 hm ▸ (.head _))
      · exact .inl hm
    · exact .inr (.tail _ hm)

def decodeMessage (data : Bytes) : Except Err Message :=
  match messageCodec.readAll data with
  | some m => .ok m
  | none => .error { text := "could not decode message" }

@[reducible]
def runnerSpec : RunnerSpec where
  toSsvSpec := spec
  decodeMessage := decodeMessage
  newProcessingMessage_iff {sm pm} := by
    change newProcessingMessage sm = .ok pm ↔ _
    unfold newProcessingMessage decodeMessage
    obtain ⟨sm', m'⟩ := pm
    rcases messageCodec.readAll sm.ssvMessage.data with - | m
    · simp
    · simp [and_comm, eq_comm]
  ssvMessage_of_aggregate {sm sm' ret} h := by
    change Reference.aggregate sm sm' = .ok ret at h
    unfold Reference.aggregate at h
    split at h
    · cases h
      rfl
    · cases h
  mem_messages_longestUniqueSigners {c r root m} hm := by
    rcases mem_foldl_takeDisjoint _ hm with hm | hm
    · exact nomatch hm
    · exact (List.mem_filter.1 hm).1

local instance dutySpec : RunnerSpec := runnerSpec

/-- Values are their own encoding. -/
def bytesEncoder : Encoder Bytes where
  decode := .ok
  encode := .ok

theorem canonical_bytesEncoder : bytesEncoder.Canonical := by
  rintro b a b' ⟨rfl⟩ ⟨rfl⟩
  rfl

def idleRunner : DutyRun Bytes where
  runner :=
    { state := none
      qbftController := (fourOperators.start 1).controller
      highestDecidedSlot := 0 }
  decisions := []

def dutyRunOf (calls : List RunnerCall) : DutyRun Bytes :=
  calls.foldl (DutyRun.next bytesEncoder) idleRunner

def consensusCall (sm : SignedSSVMessage) : RunnerCall := .processConsensus 0 sm fun _ ↦ .ok ()

theorem reachable_dutyRunOf {M : Machine (DutyRun Bytes) RunnerCall} {calls : List RunnerCall}
    (hinit : M.initial idleRunner) (hnext : M.next = DutyRun.next bytesEncoder)
    (h : M.Enables idleRunner calls) : M.Reachable (dutyRunOf calls) := by
  rw [dutyRunOf, ← hnext]
  exact (Machine.Reachable.initial hinit).foldl h

/-- A duty's instance is decided by a message, which then arrives once more. -/
theorem one_decision_of_runs_decidedTwice :
    (dutyRunOf [.startNewDuty 1, .decide 0 value nonEmpty, consensusCall (decidedAt 1),
      consensusCall (decidedAt 1)]).decisions = [value.bytes] ∧
    DutyRun.TakenUp (dutyRunOf [.startNewDuty 1, .decide 0 value nonEmpty,
      consensusCall (decidedAt 1), consensusCall (decidedAt 1)]).runner := by
  refine ⟨by decide +kernel, ?_⟩
  refine (DutyRun.one_decision_of_runs canonical_bytesEncoder
    (reachable_dutyRunOf ⟨rfl, rfl, rfl, rfl⟩ rfl ?_)).2 (by decide +kernel)
  exact ⟨⟨trivial, by decide +kernel⟩, ⟨trivial, by decide +kernel⟩, ⟨trivial, by decide +kernel⟩,
    ⟨trivial, by decide +kernel⟩, trivial⟩

/-- Heights `2` and `3` push out the running instance; its decided message is then taken up each
time. -/
theorem decided_twice_after_push_out :
    (DutyRun.machine bytesEncoder).Reachable (dutyRunOf [.startNewDuty 1, .decide 0 value nonEmpty,
      consensusCall (decidedAt 2), consensusCall (decidedAt 3), consensusCall (decidedAt 1),
      consensusCall (decidedAt 1)]) ∧
    (dutyRunOf [.startNewDuty 1, .decide 0 value nonEmpty, consensusCall (decidedAt 2),
      consensusCall (decidedAt 3), consensusCall (decidedAt 1),
      consensusCall (decidedAt 1)]).decisions = [value.bytes, value.bytes] ∧
    (dutyRunOf [.startNewDuty 1, .decide 0 value nonEmpty, consensusCall (decidedAt 2),
      consensusCall (decidedAt 3), consensusCall (decidedAt 1),
      consensusCall (decidedAt 1)]).runner.runningIsDecided = false := by
  refine ⟨reachable_dutyRunOf ⟨rfl, rfl, rfl, rfl⟩ rfl ?_, by decide +kernel, by decide +kernel⟩
  exact ⟨trivial, trivial, trivial, trivial, trivial, trivial, trivial⟩

end Ssv.Reference
