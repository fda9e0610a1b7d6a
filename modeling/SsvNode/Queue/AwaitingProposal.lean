import SsvNode.Queue.DecidedRecognition
import SsvNode.Queue.MessageSlot
import SsvNode.Runner.SlotRunner
import SsvNode.Runner.PostConsensusCompleteness

/-!
# Messages withheld while a proposal is awaited

While the running instance has no accepted proposal for its round, the filter of
`Committee.ConsumeQueue` withholds partial signatures, prepares and commits of the round. But a
commit with a quorum of signatures goes by the **decided** path, which asks for no proposal
(`processMsg_decides_running`). A withheld message is inert exactly if it is not one of these
(`withheld_inert_iff`).
-/

namespace Ssv

open SsvSpec Act Checks Option

namespace BaseRunner

variable [RunnerSpec]

/-- The instance behind `State.RunningInstance`. -/
def runningInst? (b : BaseRunner) : Option Instance := b.running?.bind (·.deref b.qbftController)

def hasRunningQBFTInstance (b : BaseRunner) : Bool :=
  b.hasDutyRunning && b.runningInst?.any fun inst ↦ !inst.state.decided

def hasAcceptedProposalForCurrentRound (b : BaseRunner) : Bool :=
  b.hasDutyRunning && b.runningInst?.any (·.state.proposalAcceptedForCurrentRound.isSome)

def getLastRound (b : BaseRunner) : ℕ :=
  if b.hasDutyRunning then
    match b.runningInst? with
    | some inst => inst.state.round
    | none => 1
  else 1

/-- The instance of the runner's slot is in the window, not decided, and has accepted no proposal
for its round. -/
structure AwaitsProposal (slot : ℕ) (b : BaseRunner) (inst : Instance) : Prop where
  duty : b.hasDutyRunning = true
  behind : b.runningInst? = some inst
  found : b.qbftController.recentInstances.findInstance slot = some inst
  undecided : inst.state.decided = false
  noProposal : inst.state.proposalAcceptedForCurrentRound = none

variable {b : BaseRunner} {slot : ℕ}

theorem AwaitsProposal.runningIsDecided {inst : Instance}
    (h : b.AwaitsProposal slot inst) : b.runningIsDecided = false := by
  unfold BaseRunner.runningIsDecided
  rw [show b.running?.bind (·.deref b.qbftController) = some inst from h.behind]
  exact h.undecided

theorem ServesSlot.awaitsProposal (h : b.ServesSlot slot)
    (hrunning : b.hasRunningQBFTInstance = true)
    (hawaits : b.hasAcceptedProposalForCurrentRound = false) :
    ∃ inst, b.AwaitsProposal slot inst := by
  obtain ⟨hduty, hany⟩ := Bool.and_eq_true_iff.1 hrunning
  rcases hinst : b.runningInst? with - | inst
  · rw [hinst] at hany
    exact nomatch hany
  have hundecided : inst.state.decided = false := by simpa [hinst] using hany
  obtain ⟨r, hr, hderef⟩ := bind_eq_some_iff.1 hinst
  obtain ⟨s, hs, hsr⟩ := bind_eq_some_iff.1 hr
  obtain ⟨rfl, hattached, -⟩ := h.running s r hs hsr
  refine ⟨inst, hduty, hinst, ?_, hundecided, ?_⟩
  · rwa [RunningInstance.deref, hattached] at hderef
  · simpa [hasAcceptedProposalForCurrentRound, hduty, hinst] using hawaits

theorem ServesSlot.withCall_eq_self (h : b.ServesSlot slot) {call : Call}
    (hstate : ((Controller.perform call).run b.qbftController).state = b.qbftController) :
    b.withCall call = b := by
  have hafter : ∀ s, b.state = some s → s.runningInstance.map
      (·.after b.qbftController call b.qbftController) = s.runningInstance := by
    intro s hs
    rcases hr : s.runningInstance with - | r
    · rfl
    obtain ⟨rfl, -, hne⟩ := h.running s r hs hr
    obtain ⟨inst, hfound⟩ := h.exists_instance hne
    exact congrArg some (RunningInstance.after_of_found hfound)
  simp only [BaseRunner.withCall, hstate]
  rcases hs : b.state with - | s
  · rw [map_none, ← hs]
  · rw [map_some, hafter s hs, ← hs]

variable {α : Type}

theorem uponDecidedMsg_frame (enc : Encoder α) (check : Bytes → Except Err Unit)
    (prevDecided : Bool) (decidedMsg : SignedSSVMessage) (b : BaseRunner) :
    (b.uponDecidedMsg enc check prevDecided decidedMsg).1.qbftController = b.qbftController ∧
      (b.uponDecidedMsg enc check prevDecided decidedMsg).1.running? = b.running? := by
  unfold uponDecidedMsg
  split
  · exact ⟨rfl, rfl⟩
  · exact ⟨rfl, rfl⟩
  · split
    · exact ⟨rfl, rfl⟩
    · exact ⟨rfl, rfl⟩
    · rename_i hs
      exact ⟨rfl, by rw [running?, running?, hs]; rfl⟩

/-- A processed message leaves the controller as `ProcessMsg` does, and keeps a pointer. -/
theorem baseConsensusMsgProcessing_frame (enc : Encoder α) (check : Bytes → Except Err Unit)
    (now : ℕ) (msg : SignedSSVMessage) (b : BaseRunner) (hundecided : b.runningIsDecided = false) :
    (b.baseConsensusMsgProcessing enc check now msg).1.qbftController =
        ((Controller.processMsg now msg).run b.qbftController).state ∧
      (b.baseConsensusMsgProcessing enc check now msg).1.running?.isSome = b.running?.isSome := by
  have hcalled : (b.withCall (.processMsg now msg)).running?.isSome = b.running?.isSome := by
    unfold running? withCall
    rcases b.state with - | s
    · rfl
    · rcases hr : s.runningInstance with - | r <;> simp [hr]
  unfold baseConsensusMsgProcessing
  rw [hundecided, Bool.and_false]
  dsimp only
  split
  · exact nomatch ‹false = true›
  split
  · exact ⟨rfl, hcalled⟩
  split
  · exact ⟨rfl, hcalled⟩
  split
  · exact ⟨rfl, hcalled⟩
  · obtain ⟨hcontroller, hrunning⟩ := uponDecidedMsg_frame enc check false _
      (b.withCall (.processMsg now msg))
    rw [hcontroller, hrunning]
    exact ⟨rfl, hcalled⟩

end BaseRunner

namespace Controller

variable [SsvSpec] {c : Controller} {inst : Instance} {sm : SignedSSVMessage}
    {pm : ProcessingMessage}

theorem instance_refuses (now : ℕ) (hnone : inst.state.proposalAcceptedForCurrentRound = none)
    (htype : pm.qbftMessage.msgType = .prepare ∨ pm.qbftMessage.msgType = .commit) :
    (Instance.processMsg now pm).wp (fun inst' _ r ↦ inst' = inst ∧ ∃ e, r = .error e) inst := by
  have hinvalid : ∃ e, inst.baseMsgValidation now pm = .error e := by
    rcases hv : inst.baseMsgValidation now pm with e | u
    · exact ⟨e, rfl⟩
    · simp only [Instance.baseMsgValidation, bind_eq_ok, exists_check] at hv
      obtain ⟨-, -, hv⟩ := hv
      rcases htype with htype | htype <;> rw [htype, hnone] at hv <;> exact nomatch hv
  obtain ⟨e, he⟩ := hinvalid
  unfold Instance.processMsg Instance.wrapErr
  simp only [wp_bind, wp_read, wp_ite, wp_fail, wp_lift, he]
  split
  · exact ⟨trivial, _, rfl⟩
  · exact ⟨trivial, _, rfl⟩

/-- **Refusal.** A prepare or commit without an accepted proposal, not taken as decided, is an error
and changes nothing. -/
theorem processMsg_refused (now : ℕ) (hdecoded : newProcessingMessage sm = .ok pm)
    (hfound : c.recentInstances.findInstance pm.qbftMessage.height = some inst)
    (hundecided : inst.state.decided = false)
    (hnone : inst.state.proposalAcceptedForCurrentRound = none)
    (htype : pm.qbftMessage.msgType = .prepare ∨ pm.qbftMessage.msgType = .commit)
    (hnot : ¬ (c.identifierAtHeight pm.qbftMessage.height = pm.qbftMessage.identifier ∧
      c.validateDecided pm = .ok ())) :
    (processMsg now sm).wp (fun c' _ r ↦ c' = c ∧ ∃ e, r = .error e) c := by
  unfold processMsg
  simp only [hdecoded, Except.mapError, lift_ok_bind, wp_bind, wp_read, wp_ite,
    wp_fail]
  split
  · exact ⟨trivial, _, rfl⟩
  rename_i hid
  split
  · -- a message with a quorum of signers that fails the check
    unfold uponDecided
    simp only [wp_bind, wp_read, wp_lift]
    rcases hv : c.validateDecided pm with e | u
    · exact ⟨trivial, _, rfl⟩
    · exact absurd ⟨not_not.1 hid, hv⟩ hnot
  split
  · exact ⟨trivial, _, rfl⟩
  · unfold uponExistingInstanceMsg
    simp only [wp_bind, wp_read, hfound, hundecided, Bool.false_eq_true, if_false,
      wp_mapError, onInstance, wp_onPart]
    refine wp_mono (instance_refuses now hnone htype) ?_
    rintro _ _ _ ⟨rfl, e, rfl⟩
    refine ⟨?_, _, rfl⟩
    rw [Instances.set_of_findInstance hfound]

/-- **A decided message decides the running instance**, whether or not it has a proposal. -/
theorem processMsg_decides_running (now : ℕ) (hc : c.WellFormed)
    (hdecoded : newProcessingMessage sm = .ok pm)
    (hfound : c.recentInstances.findInstance pm.qbftMessage.height = some inst)
    (hundecided : inst.state.decided = false)
    (hid : c.identifierAtHeight pm.qbftMessage.height = pm.qbftMessage.identifier)
    (hvalid : c.validateDecided pm = .ok ()) :
    (processMsg now sm).wp (fun c' _ _ ↦ ∃ inst',
      c'.recentInstances.findInstance pm.qbftMessage.height = some inst' ∧
        inst'.state.decided = true) c := by
  have hdecided : c.isDecidedMsg pm = true := by
    simp only [validateDecided, bind_eq_ok, exists_check, require_eq_ok] at hvalid
    exact hvalid.1
  obtain ⟨hmem, hheight⟩ := hc.find_iff.1 hfound
  unfold processMsg uponDecided
  simp only [hdecoded, Except.mapError, lift_ok_bind, wp_bind, wp_read, hid, ne_eq,
    not_true_eq_false, if_false, hdecided, if_true, wp_lift, hvalid, hfound, hundecided,
    Bool.false_eq_true, onInstance, wp_onPart, wp_pure]
  refine Instance.wp_concludeInstance hundecided ?_
  intro inst' r hconcluded
  have hheight' : inst'.getHeight = inst.getHeight := congrArg Scope.height hconcluded.scope_eq
  have hset : (c.recentInstances.set inst').findInstance pm.qbftMessage.height = some inst' := by
    rw [Instances.findInstance_eq_some_iff (hc.ordered.set inst')]
    exact ⟨(Instances.mem_set hc.ordered hmem hheight').2 (.inl rfl), hheight'.trans hheight⟩
  cases r with
  | error | ok => exact ⟨inst', hset, hconcluded.decided⟩

end Controller

namespace Queue

open Validation (PartialSignatureMessages)

/-- What the queue calls to decode messages besides what the runners do. -/
class QueueSpec extends RunnerSpec, EventSpec where
  decodePartialSignatureMessages : Bytes → Except Err PartialSignatureMessages
  decodeEventMsg : Bytes → Except Err EventMsg

open QueueSpec

variable [QueueSpec]

def extractMsgBody (m : Ssv.SSVMessage) : Except Err Body :=
  match m.msgType with
  | .ssvConsensusMsgType => do
    let sm ← (RunnerSpec.decodeMessage m.data).mapError (.wrap "failed to decode SignedMessage")
    return .consensus sm
  | .ssvPartialSignatureMsgType => do
    let sm ← (decodePartialSignatureMessages m.data).mapError
      (.wrap "failed to decode SignedPartialSignatureMessage")
    return .partialSignature sm
  | .other code =>
    if code = 200 then do
      let msg ← (decodeEventMsg m.data).mapError (.wrap "failed to decode EventMsg")
      return .event msg
    else .error { text := "unknown message type" }

def decodeSignedSSVMessage (sm : SignedSSVMessage) : Except Err SSVMessage := do
  let body ← extractMsgBody sm.ssvMessage
  return ⟨some sm, sm.ssvMessage, body, fun _ _ ↦ rfl⟩

/-- The filter of `ConsumeQueue` for the current state of the runner. -/
def consumeFilter (b : BaseRunner) (m : SSVMessage) : Bool :=
  if b.hasRunningQBFTInstance && !b.hasAcceptedProposalForCurrentRound then
    match m.body with
    | .consensus sm =>
      if sm.round ≠ b.getLastRound then true
      else decide (sm.msgType ≠ .prepare) && decide (sm.msgType ≠ .commit)
    | _ => decide (m.ssvMessage.msgType ≠ .ssvPartialSignatureMsgType)
  else if b.hasRunningQBFTInstance then
    decide (m.ssvMessage.msgType ≠ .ssvPartialSignatureMsgType)
  else true

/-! ### The committee runner -/

/-- A committee runner: the consensus phase, and what `ProcessPostConsensus` reads. -/
structure Runner where
  base : BaseRunner
  share : ShareMap
  postConsensusContainer : PartialSigContainer
  currentDuty : CommitteeDuty
  submittedDuties : List (BeaconRole × ℕ)

/-- The runner after a call, with the error it returned. -/
structure Handled where
  runner : Runner
  err : Option Err

/-- The runner as its post-consensus phase sees it. -/
def Runner.committeeRunner (r : Runner) : CommitteeRunner where
  share := r.share
  state := r.base.state.map fun s ↦
    { postConsensusContainer := r.postConsensusContainer
      runningInstance := r.base.runningInst?.map fun inst ↦
        (inst.state.decided, inst.state.decidedValue.bytes)
      decidedValue := s.decidedValue.bytes
      currentDuty := r.currentDuty
      succeeded := s.succeeded }
  submittedDuties := r.submittedDuties

def Runner.withPostConsensus (r : Runner) (cr : CommitteeRunner) : Runner :=
  { r with
    base := { r.base with state := r.base.state.map fun s ↦
      { s with succeeded := (cr.state.map (·.succeeded)).getD s.succeeded } }
    postConsensusContainer := (cr.state.map (·.postConsensusContainer)).getD
      r.postConsensusContainer
    submittedDuties := cr.submittedDuties }

variable [CommitteeSpec] {α : Type}

/-- What handling depends on besides the runner. `afterDecision` is the rest of `ProcessConsensus`.
-/
structure Handling (α : Type) where
  enc : Encoder α
  valueCheckFn : Bytes → Except Err Unit
  now : ℕ
  afterDecision : Runner → α → Bool × Option Err
  env : CommitteeEnv
  sched : Schedule

def processConsensus (h : Handling α) (sm : SignedSSVMessage) (r : Runner) : Handled :=
  let (base, outcome) := r.base.baseConsensusMsgProcessing h.enc h.valueCheckFn h.now sm
  let r' := { r with base := base }
  match outcome.err, outcome.decided, outcome.value with
  | some e, _, _ => ⟨r', some (e.wrap "failed processing consensus message")⟩
  | none, true, some v =>
    let (concluded, err) := h.afterDecision r' v
    ⟨if concluded then { r' with base := r'.base.markDutySucceeded } else r', err⟩
  | none, _, _ => ⟨r', none⟩

def processPartialSignatures (h : Handling α) (pms : PartialSignatureMessages) (r : Runner) :
    Handled :=
  if pms.type = .postConsensus then
    let o := (processPostConsensus h.env h.sched pms).run r.committeeRunner
    match o.result with
    | .error e => ⟨r.withPostConsensus o.state, some (e.wrap "process post-consensus message")⟩
    | .ok () => ⟨r.withPostConsensus o.state, none⟩
  else ⟨r, some { text := "no pre consensus phase for committee runner" }⟩

/-- A message handed to the runner; events do not go to it this way. -/
def handOver (h : Handling α) (sm : SignedSSVMessage) (m : SSVMessage) (r : Runner) :
    Option Handled :=
  match m.body with
  | .consensus _ => some (processConsensus h sm r)
  | .partialSignature pms => some (processPartialSignatures h pms r)
  | _ => none

/-- An error, or the runner and its controller as they were, with the running instance not decided.
-/
structure Inert (r : Runner) (o : Handled) : Prop where
  error_or_unchanged : o.err.isSome = true ∨ o.runner = r
  undecided : o.runner.base.runningIsDecided = false

/-- An aggregated commit of the controller's identifier that `ValidateDecided` accepts. -/
def TakenAsDecided (c : Controller) (sm : SignedSSVMessage) (m : SSVMessage) : Prop :=
  ∃ qbftMsg, m.body = .consensus qbftMsg ∧
    c.identifierAtHeight qbftMsg.height = qbftMsg.identifier ∧
    c.validateDecided ⟨sm, qbftMsg⟩ = .ok ()

/-! ### What a withheld message would do -/

section Withheld

variable {slot : ℕ} {r : Runner} {inst : Instance} {sm : SignedSSVMessage} {m : SSVMessage}
  {qbftMsg : Message}

omit [CommitteeSpec] in
theorem decode_cases (hdecode : decodeSignedSSVMessage sm = .ok m) :
    (∃ qbftMsg, m.body = .consensus qbftMsg ∧ newProcessingMessage sm = .ok ⟨sm, qbftMsg⟩) ∨
    (∃ pms, m.body = .partialSignature pms) ∨
    (∃ ev, m.body = .event ev) ∧ m.ssvMessage.msgType ≠ .ssvPartialSignatureMsgType := by
  simp only [decodeSignedSSVMessage, bind_eq_ok] at hdecode
  obtain ⟨body, hextract, hm⟩ := hdecode
  cases hm
  unfold extractMsgBody at hextract
  split at hextract
  · simp only [bind_eq_ok, mapError_eq_ok] at hextract
    obtain ⟨qbftMsg, hmsg, heq⟩ := hextract
    exact .inl ⟨qbftMsg, (Except.ok.inj heq).symm,
      RunnerSpec.newProcessingMessage_iff.2 ⟨hmsg, rfl⟩⟩
  · simp only [bind_eq_ok] at hextract
    obtain ⟨pms, -, heq⟩ := hextract
    exact .inr (.inl ⟨pms, (Except.ok.inj heq).symm⟩)
  · rename_i code htype
    split at hextract
    · simp only [bind_eq_ok] at hextract
      obtain ⟨ev, -, heq⟩ := hextract
      refine .inr (.inr ⟨⟨ev, (Except.ok.inj heq).symm⟩, ?_⟩)
      show sm.ssvMessage.msgType ≠ _
      rw [htype]
      rintro ⟨⟩
    · cases hextract

omit [CommitteeSpec] in
theorem body_of_withheld (hawaits : r.base.AwaitsProposal slot inst)
    (hdecode : decodeSignedSSVMessage sm = .ok m) (hwithheld : consumeFilter r.base m = false) :
    (∃ qbftMsg, m.body = .consensus qbftMsg ∧ newProcessingMessage sm = .ok ⟨sm, qbftMsg⟩ ∧
      (qbftMsg.msgType = .prepare ∨ qbftMsg.msgType = .commit)) ∨
    ∃ pms, m.body = .partialSignature pms := by
  have hrunning : r.base.hasRunningQBFTInstance = true := by
    simp [BaseRunner.hasRunningQBFTInstance, hawaits.duty, hawaits.behind, hawaits.undecided]
  have hnone : r.base.hasAcceptedProposalForCurrentRound = false := by
    simp [BaseRunner.hasAcceptedProposalForCurrentRound, hawaits.behind, hawaits.noProposal]
  simp only [consumeFilter, hrunning, hnone, Bool.not_false, Bool.and_self, if_true] at hwithheld
  rcases decode_cases hdecode with ⟨qbftMsg, hbody, hmsg⟩ | hpartial | ⟨⟨ev, hbody⟩, htype⟩
  · rw [hbody] at hwithheld
    dsimp only at hwithheld
    split at hwithheld
    · exact nomatch hwithheld
    · refine .inl ⟨qbftMsg, hbody, hmsg, ?_⟩
      by_contra hne
      simp [not_or.1 hne] at hwithheld
  · exact .inr hpartial
  · -- an event is not of the type the filter looks for
    rw [hbody] at hwithheld
    simp [htype] at hwithheld

omit [CommitteeSpec] in
/-- The rest of `ProcessConsensus` does not undo a decision. -/
theorem runningIsDecided_of_found {b : BaseRunner} (h : b.ServesSlot slot)
    (hrunning : b.running?.isSome = true)
    (hfound : ∃ inst, b.qbftController.recentInstances.findInstance slot = some inst ∧
      inst.state.decided = true) : b.runningIsDecided = true := by
  obtain ⟨p, hp⟩ := isSome_iff_exists.1 hrunning
  obtain ⟨s, hs, hsp⟩ := bind_eq_some_iff.1 hp
  obtain ⟨rfl, hattached, -⟩ := h.running s p hs hsp
  obtain ⟨inst, hinst, hdecided⟩ := hfound
  have hderef : p.deref b.qbftController = some inst := by
    rw [RunningInstance.deref, hattached]
    exact hinst
  unfold BaseRunner.runningIsDecided
  rw [hp, bind_some, hderef]
  exact hdecided

omit [CommitteeSpec] in
theorem runningIsDecided_withPostConsensus (cr : CommitteeRunner) :
    (r.withPostConsensus cr).base.runningIsDecided = r.base.runningIsDecided := by
  unfold BaseRunner.runningIsDecided BaseRunner.running? Runner.withPostConsensus
  rcases r.base.state with - | s
  · rfl
  · rfl

theorem processPartialSignatures_inert (h : Handling α) (pms : PartialSignatureMessages)
    (hawaits : r.base.AwaitsProposal slot inst) : Inert r (processPartialSignatures h pms r) := by
  have hundecided := hawaits.runningIsDecided
  have hinvalid : ∃ e, validatePostConsensusMsg h.env h.sched.shares r.committeeRunner pms =
      .error e := by
    rcases hv : validatePostConsensusMsg h.env h.sched.shares r.committeeRunner pms with e | u
    · exact ⟨e, rfl⟩
    · unfold validatePostConsensusMsg at hv
      split at hv
      · exact nomatch hv
      · rename_i s hs
        obtain ⟨s₀, -, rfl⟩ := map_eq_some_iff.1 hs
        simp only [hawaits.behind, map_some, hawaits.undecided, bind_eq_ok,
          exists_check, require_eq_ok, Bool.false_eq_true, false_and, and_false] at hv
        obtain ⟨-, -, -, hfalse⟩ := hv
        exact hfalse.elim
  obtain ⟨e, he⟩ := hinvalid
  have hrun : (processPostConsensus h.env h.sched pms).wp (fun _ _ res ↦ ∃ e, res = .error e)
      r.committeeRunner := by
    unfold processPostConsensus basePostConsensusMsgProcessing
    simp only [wp_bind, wp_mapError, wp_read, wp_lift, he]
    exact ⟨_, rfl⟩
  rw [wp_iff] at hrun
  obtain ⟨e', he'⟩ := hrun
  unfold processPartialSignatures
  split
  · dsimp only
    rw [he']
    exact ⟨.inl rfl, (runningIsDecided_withPostConsensus _).trans hundecided⟩
  · exact ⟨.inl rfl, hundecided⟩

omit [CommitteeSpec] in
theorem runningIsDecided_markDutySucceeded (b : BaseRunner) :
    b.markDutySucceeded.runningIsDecided = b.runningIsDecided := by
  unfold BaseRunner.runningIsDecided BaseRunner.running? BaseRunner.markDutySucceeded
  rcases b.state with - | s
  · rfl
  · rfl

theorem processConsensus_inert (h : Handling α) (hserves : r.base.ServesSlot slot)
    (hawaits : r.base.AwaitsProposal slot inst)
    (hrefused : (Controller.processMsg h.now sm).wp
      (fun c' _ res ↦ c' = r.base.qbftController ∧ ∃ e, res = .error e) r.base.qbftController) :
    Inert r (processConsensus h sm r) := by
  rw [wp_iff] at hrefused
  obtain ⟨hstate, e, he⟩ := hrefused
  have hself : r.base.withCall (.processMsg h.now sm) = r.base := hserves.withCall_eq_self hstate
  have hprocessed : ∃ e', r.base.baseConsensusMsgProcessing h.enc h.valueCheckFn h.now sm =
      (r.base, ⟨false, none, some e'⟩) := by
    unfold BaseRunner.baseConsensusMsgProcessing
    rw [hawaits.runningIsDecided, hself, he, Bool.and_false]
    exact ⟨_, rfl⟩
  obtain ⟨e', hprocessed⟩ := hprocessed
  unfold processConsensus
  rw [hprocessed]
  exact ⟨.inl rfl, hawaits.runningIsDecided⟩

theorem processConsensus_decides (h : Handling α) (hserves : r.base.ServesSlot slot)
    (hawaits : r.base.AwaitsProposal slot inst)
    (hmsg : newProcessingMessage sm = .ok ⟨sm, qbftMsg⟩) (hheight : qbftMsg.height = slot)
    (hid : r.base.qbftController.identifierAtHeight qbftMsg.height = qbftMsg.identifier)
    (hvalid : r.base.qbftController.validateDecided ⟨sm, qbftMsg⟩ = .ok ()) :
    (processConsensus h sm r).runner.base.runningIsDecided = true := by
  subst hheight
  have hdecides := Controller.processMsg_decides_running h.now hserves.wellFormed hmsg hawaits.found
    hawaits.undecided hid hvalid
  rw [wp_iff] at hdecides
  have hrouted : ∀ pm, newProcessingMessage sm = .ok pm →
      pm.qbftMessage.height = qbftMsg.height := by
    intro pm hpm
    rw [← Except.ok.inj (hmsg.symm.trans hpm)]
  have hserves' := hserves.processConsensus h.enc h.valueCheckFn h.now hrouted
  obtain ⟨hcontroller, hrunning⟩ := r.base.baseConsensusMsgProcessing_frame h.enc
    h.valueCheckFn h.now
    sm hawaits.runningIsDecided
  have hsome : r.base.running?.isSome = true := by
    obtain ⟨p, hp, -⟩ := bind_eq_some_iff.1 hawaits.behind
    rw [hp]
    rfl
  have hdecided : (r.base.baseConsensusMsgProcessing h.enc h.valueCheckFn h.now
      sm).1.runningIsDecided = true := by
    refine runningIsDecided_of_found hserves' (hrunning.trans hsome) ?_
    rw [hcontroller]
    exact hdecides
  unfold processConsensus
  dsimp only
  split
  · exact hdecided
  · split
    · rw [← hdecided]
      exact runningIsDecided_markDutySucceeded _
    · exact hdecided
  · exact hdecided

/-- **What the filter withholds is inert exactly if the controller would not take it as decided**,
for every committee runner that awaits a proposal. -/
theorem withheld_inert_iff (h : Handling α) (slot : ℕ) (run : DutyRun α)
    (hrun : (DutyRun.slotMachine h.enc slot).Reachable run) (r : Runner) (hr : r.base = run.runner)
    (hrunning : r.base.hasRunningQBFTInstance = true)
    (hawaits : r.base.hasAcceptedProposalForCurrentRound = false) (sm : SignedSSVMessage)
    (m : SSVMessage) (hdecode : decodeSignedSSVMessage sm = .ok m) (hslot : m.slot = .ok slot)
    (hwithheld : consumeFilter r.base m = false) :
    ∃ o, handOver h sm m r = some o ∧ (Inert r o ↔
      ¬ TakenAsDecided r.base.qbftController sm m) := by
  have hserves : r.base.ServesSlot slot := hr ▸ BaseRunner.ServesSlot.of_reachable hrun
  obtain ⟨inst, hawaits⟩ := hserves.awaitsProposal hrunning hawaits
  rcases body_of_withheld hawaits hdecode hwithheld with
    ⟨qbftMsg, hbody, hmsg, htype⟩ | ⟨pms, hbody⟩
  · refine ⟨processConsensus h sm r, by rw [handOver, hbody], ?_⟩
    have hheight : qbftMsg.height = slot := by
      rw [SSVMessage.slot, hbody] at hslot
      exact Except.ok.inj hslot
    constructor
    · rintro hinert ⟨_, hbody', hid, hvalid⟩
      obtain rfl := Body.consensus.inj (hbody.symm.trans hbody')
      have hdecided := processConsensus_decides h hserves hawaits hmsg hheight hid hvalid
      rw [hinert.undecided] at hdecided
      exact Bool.false_ne_true hdecided
    · intro hnot
      refine processConsensus_inert h hserves hawaits ?_
      refine Controller.processMsg_refused h.now hmsg (hheight ▸ hawaits.found) hawaits.undecided
        hawaits.noProposal htype ?_
      rintro ⟨hid, hvalid⟩
      exact hnot ⟨qbftMsg, hbody, hid, hvalid⟩
  · refine ⟨processPartialSignatures h pms r, by rw [handOver, hbody], ?_⟩
    refine iff_of_true (processPartialSignatures_inert h pms hawaits) ?_
    rintro ⟨_, hbody', -⟩
    rw [hbody] at hbody'
    exact nomatch hbody'

end Withheld

end Queue

end Ssv

/-! ### A runner that awaits a proposal -/

namespace Ssv.Queue.Reference

open Ssv.Reference (runnerSpec committeeLibrary committeeEnv committeeShares storedOrder
    bytesEncoder
  dutyRunOf value nonEmpty signed message decidedAt decodeMessage messageCodec)

@[reducible]
def queueSpec : QueueSpec where
  toRunnerSpec := runnerSpec
  decodePartialSignatureMessages _ := .error { text := "not partial signatures" }
  decodeEventMsg _ := .error { text := "not an event" }
  getRoleType _ := .committee
  getTimeoutData _ := .error { text := "not an event" }
  getExecuteDutyData _ := .error { text := "not an event" }

local instance queueLibrary : QueueSpec := queueSpec

local instance queueCommitteeLibrary : CommitteeSpec := committeeLibrary

/-- The instance of slot `1` is started, and the leader has not proposed. -/
def awaiting : DutyRun Bytes := dutyRunOf [.startNewDuty 1, .decide 0 value nonEmpty]

theorem reachable_awaiting : (DutyRun.slotMachine bytesEncoder 1).Reachable awaiting :=
  Ssv.Reference.reachable_dutyRunOf ⟨rfl, rfl, rfl, rfl⟩ rfl
    ⟨⟨trivial, rfl⟩, ⟨trivial, trivial⟩, trivial⟩

def runner : Runner where
  base := awaiting.runner
  share := committeeShares
  postConsensusContainer := .new 3
  currentDuty := ⟨1, []⟩
  submittedDuties := []

def handling : Handling Bytes where
  enc := bytesEncoder
  valueCheckFn _ := .ok ()
  now := 0
  afterDecision _ _ := (false, none)
  env := committeeEnv
  sched := storedOrder

theorem decode_of_write {sm : SignedSSVMessage} {msg : Message}
    (htype : sm.ssvMessage.msgType = .ssvConsensusMsgType)
    (hdata : sm.ssvMessage.data = messageCodec.write msg) :
    decodeSignedSSVMessage sm = .ok (.ofProcessing ⟨sm, msg⟩) := by
  have hread : RunnerSpec.decodeMessage sm.ssvMessage.data = .ok msg := by
    show decodeMessage sm.ssvMessage.data = .ok msg
    rw [hdata, decodeMessage, Codec.readAll_write]
  unfold decodeSignedSSVMessage extractMsgBody
  rw [htype]
  dsimp only
  rw [hread]
  rfl

def prepare : Message := message .prepare 1 (hashDataRoot value)

def commitMsg : Message := message .commit 1 (hashDataRoot value)

/-- A withheld prepare is inert. -/
theorem withheld_inert_prepare :
    ∃ o, handOver handling (signed 2 prepare none) (.ofProcessing ⟨signed 2 prepare none, prepare⟩)
        runner = some o ∧
      (Inert runner o ↔ ¬ TakenAsDecided runner.base.qbftController (signed 2 prepare none)
        (.ofProcessing ⟨signed 2 prepare none, prepare⟩)) :=
  withheld_inert_iff handling 1 awaiting reachable_awaiting runner rfl (by decide +kernel)
    (by decide +kernel) (signed 2 prepare none) _ (decode_of_write rfl rfl) rfl (by decide +kernel)

/-- **A withheld message could have decided the instance**: the aggregated commit of operators `2`,
`3` and `4`. -/
theorem withheld_decided_message :
    (DutyRun.slotMachine bytesEncoder 1).Reachable awaiting ∧
      consumeFilter runner.base (.ofProcessing ⟨decidedAt 1, commitMsg⟩) = false ∧
      decodeSignedSSVMessage (decidedAt 1) = .ok (.ofProcessing ⟨decidedAt 1, commitMsg⟩) ∧
      runner.base.hasRunningQBFTInstance = true ∧
      runner.base.hasAcceptedProposalForCurrentRound = false ∧
      (processConsensus handling (decidedAt 1) runner).err = none ∧
      (processConsensus handling (decidedAt 1) runner).runner.base.runningIsDecided = true := by
  refine ⟨reachable_awaiting, by decide +kernel, decode_of_write rfl rfl, by decide +kernel,
    by decide +kernel, by decide +kernel, by decide +kernel⟩

end Ssv.Queue.Reference
