import SsvNode.Qbft.Transitions
import SsvNode.Qbft.Window

/-!
# What one call can do to a controller

`Controller.Step c call c' es ok` lists the transitions of a controller on `StartNewInstance`,
`ProcessMsg` and `OnQBFTRoundTimeout`, and `Controller.BroadcastBy` says where a message comes from;
the code does nothing else (`step_perform`, `perform_broadcasts`). A `Node` is a controller with the
`log` of its events and the heights it has `reported`.
-/

namespace Ssv

open SsvSpec Checks Act List

variable [SsvSpec]

/-- The calls of a `Controller`. -/
inductive Call where
  | startNewInstance (now : ℕ) (height : ℕ) (value : Data) (valueChecker : ValueChecker)
  | processMsg (now : ℕ) (signedMessage : SignedSSVMessage)
  | onQBFTRoundTimeout (now : ℕ) (slot : ℕ) (round : ℕ)

namespace Instance

/-- The instance `i` after a decided message, which is perhaps kept. -/
def Concluded (i : Instance) (msg : ProcessingMessage) (i' : Instance) : Prop :=
  ∃ c, i' = (i.withDecision msg.qbftMessage.round msg.signedMessage.fullData).withCommits c

/-- At most one proposal, without justification, by the leader of the first round. -/
def Starts (now : ℕ) (i : Instance) (value : Data) (checker : ValueChecker) (es : List Event) :
    Prop :=
  ∀ sm slot, Event.broadcast sm slot ∈ es →
    slot = i.getHeight ∧ i.proposerForRound firstRound = i.state.committeeMember.operatorID ∧
    i.state.round < i.config.cutOffRound ∧
    (i.withStart value checker).createProposal now value [] [] = .ok sm

theorem wp_start {now : ℕ} {i : Instance} {value : Data} {checker : ValueChecker}
    {Q : Instance → List Event → Except Err Unit → Prop}
    (hQ : ∀ es, i.Sends (fun m ↦ m.msgType = .proposal) es → i.Starts now value checker es →
      Q (i.withStart value checker) es (.ok ())) :
    (start now value checker).wp Q i := by
  have hnone : Q (i.withStart value checker) [] (.ok ()) := hQ [] .nil fun _ _ h ↦ nomatch h
  unfold start
  simp only [wp_bind, wp_read, wp_write, wp_ite, wp_pure, nil_append]
  split
  · rename_i hleader
    rcases hcreate : (i.withStart value checker).createProposal now
      (i.withStart value checker).startValue [] [] with e | sm
    · exact hnone
    · obtain ⟨m, hm, htype, hheight, -⟩ := isSigned_of_createProposal hcreate
      unfold broadcast
      simp only [wp_bind, wp_attempt, wp_read, wp_ite, wp_emit, wp_lift,
        wp_fail, wp_pure, nil_append, append_nil]
      split
      · rename_i hrel
        refine hQ _ (.inr ⟨sm, m, rfl, hm, hheight, htype⟩) fun sm' slot hmem ↦ ?_
        obtain ⟨rfl, rfl⟩ := Event.broadcast.inj (mem_singleton.1 hmem)
        exact ⟨rfl, hleader, round_lt_of_isRelevant hrel, hcreate⟩
      · exact hnone
  · exact hnone

theorem wp_concludeInstance {i : Instance} {msg : ProcessingMessage}
    {Q : Instance → List Event → Except Err Unit → Prop} (hi : i.state.decided = false)
    (hQ : ∀ i' r, i.Concluded msg i' →
      Q i' [.markDecided i.state.height msg.qbftMessage.round msg.signedMessage.fullData] r) :
    (Controller.concludeInstance msg).wp Q i := by
  unfold Controller.concludeInstance markDecided wrapErr
  simp only [wp_bind, wp_mapError, wp_read, wp_ite, wp_fail, wp_write,
    wp_emit, wp_lift, hi, nil_append, append_nil]
  rw [if_neg (by simp)]
  rcases addMsg (i.withDecision msg.qbftMessage.round
    msg.signedMessage.fullData).state.commitContainer msg with e | container
  · exact hQ _ _ ⟨_, rfl⟩
  · exact hQ _ _ ⟨container, rfl⟩

end Instance

namespace Controller

open Instance (wp_start)

def withInstance (c : Controller) (inst : Instance) : Controller :=
  { c with recentInstances := c.recentInstances.set inst }

def withNewInstance (c : Controller) (inst : Instance) (latest : ℕ) : Controller :=
  { c with
    recentInstances := c.recentInstances.addNewInstance inst
    latestInstanceHeight := latest }

/-- A call, as a method that returns the message that newly decides an instance. -/
def perform : Call → ControllerAct (Option SignedSSVMessage)
  | .startNewInstance now height value valueChecker => do
    startNewInstance now height value valueChecker
    pure none
  | .processMsg now signedMessage => processMsg now signedMessage
  | .onQBFTRoundTimeout now slot round => do
    onQBFTRoundTimeout now slot round
    pure none

def Announces (es : List Event) : Prop := ∀ e ∈ es, ∃ sm slot, e = Event.broadcastDecided sm slot

/-- The transitions of a controller. The last index is whether the call succeeds, where that is
known. -/
inductive Step (c : Controller) : Call → Controller → List Event → Bool → Prop
  | skip {call : Call} {ok : Bool} : Step c call c [] ok
  /-- A new instance is started; the others stop processing messages. -/
  | start {now h : ℕ} {value : Data} {checker : ValueChecker} {es : List Event} {ok : Bool}
      (le : c.latestInstanceHeight ≤ h) (absent : c.recentInstances.findInstance h = none)
      (sends : (c.newInstance h).Sends (fun m ↦ m.msgType = .proposal) es) :
      Step c (.startNewInstance now h value checker)
        (c.markRecentInstancesIrrelevant.withNewInstance
          ((c.newInstance h).withStart value checker) h) es ok
  /-- A message is processed by the undecided instance of its height. -/
  | onMessage {now : ℕ} {sm : SignedSSVMessage} {msg : ProcessingMessage} {inst inst' : Instance}
      {es ds : List Event} {ok : Bool} (decoded : newProcessingMessage sm = .ok msg)
      (found : c.recentInstances.findInstance msg.qbftMessage.height = some inst)
      (undecided : inst.state.decided = false)
      (step : inst.Step now (.message msg) inst' es) (announces : Announces ds) :
      Step c (.processMsg now sm) (c.withInstance inst') (es ++ ds) ok
  /-- A timeout reaches the undecided instance of its height, in its round or an earlier one. -/
  | onTimeout {now slot round : ℕ} {inst inst' : Instance} {es : List Event} {ok : Bool}
      (found : c.recentInstances.findInstance slot = some inst)
      (undecided : inst.state.decided = false) (le : inst.state.round ≤ round)
      (step : inst.Step now .timeout inst' es) :
      Step c (.onQBFTRoundTimeout now slot round) (c.withInstance inst') es ok
  /-- A decided message decides an instance the controller does not have. -/
  | decideNew {now : ℕ} {sm : SignedSSVMessage} {msg : ProcessingMessage} {inst' : Instance}
      {ok : Bool} (decoded : newProcessingMessage sm = .ok msg)
      (absent : c.recentInstances.findInstance msg.qbftMessage.height = none)
      (valid : c.validateDecided msg = .ok ())
      (concluded : (c.newInstance msg.qbftMessage.height).Concluded msg inst') :
      Step c (.processMsg now sm)
        (c.withNewInstance inst' (max c.latestInstanceHeight msg.qbftMessage.height))
        [.markDecided msg.qbftMessage.height msg.qbftMessage.round msg.signedMessage.fullData] ok
  /-- The message could not be stored: the call fails and the new instance is lost. -/
  | decideLost {now : ℕ} {sm : SignedSSVMessage} {msg : ProcessingMessage}
      (decoded : newProcessingMessage sm = .ok msg) (valid : c.validateDecided msg = .ok ()) :
      Step c (.processMsg now sm) c
        [.markDecided msg.qbftMessage.height msg.qbftMessage.round msg.signedMessage.fullData] false
  /-- A decided message decides an undecided instance. -/
  | decideKnown {now : ℕ} {sm : SignedSSVMessage} {msg : ProcessingMessage}
      {inst inst' : Instance} {ok : Bool} (decoded : newProcessingMessage sm = .ok msg)
      (found : c.recentInstances.findInstance msg.qbftMessage.height = some inst)
      (undecided : inst.state.decided = false) (valid : c.validateDecided msg = .ok ())
      (concluded : inst.Concluded msg inst') :
      Step c (.processMsg now sm) (c.withInstance inst')
        [.markDecided inst.getHeight msg.qbftMessage.round msg.signedMessage.fullData] ok
  /-- A decided message for a decided instance is kept. -/
  | recordDecided {now : ℕ} {sm : SignedSSVMessage} {msg : ProcessingMessage} {inst : Instance}
      {container : MsgContainer} {ok : Bool}
      (found : c.recentInstances.findInstance msg.qbftMessage.height = some inst)
      (decided : inst.state.decided = true) :
      Step c (.processMsg now sm) (c.withInstance (inst.withCommits container)) [] ok

/-- What a call hands to the instance of a height. -/
inductive Hands : Call → ℕ → Instance.Input → Prop
  | message {now : ℕ} {sm : SignedSSVMessage} {msg : ProcessingMessage}
      (decoded : newProcessingMessage sm = .ok msg) :
      Hands (.processMsg now sm) msg.qbftMessage.height (.message msg)
  | timeout {now slot round : ℕ} : Hands (.onQBFTRoundTimeout now slot round) slot .timeout

/-- Where a message handed to the network in a call comes from. -/
inductive BroadcastBy (c : Controller) (call : Call) (sm : SignedSSVMessage) (slot : ℕ) : Prop
  /-- From an undecided instance of the window, on what the call hands to it. -/
  | running {inst : Instance} {now h : ℕ} {input : Instance.Input}
      (found : c.recentInstances.findInstance h = some inst)
      (undecided : inst.state.decided = false) (hands : Hands call h input)
      (height : slot = inst.getHeight) (creates : inst.Creates now sm input)
  /-- From the start of an instance. -/
  | start {now h : ℕ} {value : Data} {checker : ValueChecker} (height : slot = h)
      (leader : (c.newInstance h).proposerForRound firstRound = c.committeeMember.operatorID)
      (below : firstRound < c.config.cutOffRound)
      (created : ((c.newInstance h).withStart value checker).createProposal now value [] [] =
        .ok sm)

/-- Every message among the events is accounted for. -/
def Broadcasts (c : Controller) (call : Call) (es : List Event) : Prop :=
  ∀ sm slot, Event.broadcast sm slot ∈ es → c.BroadcastBy call sm slot

variable {c : Controller} {call : Call} {now : ℕ}

theorem Broadcasts.of_creates {inst : Instance} {h : ℕ} {input : Instance.Input} {es : List Event}
    (hes : inst.CreatesAll now input es) (hfound : c.recentInstances.findInstance h = some inst)
    (hund : inst.state.decided = false) (hands : Hands call h input) : c.Broadcasts call es := by
  intro sm slot he
  obtain ⟨hheight, hcreates⟩ := hes sm slot he
  exact .running hfound hund hands hheight hcreates

/-- One step of `c` on `call`, with messages that are accounted for. -/
structure Performs (c : Controller) (call : Call) (c' : Controller) (es : List Event) (ok : Bool) :
    Prop where
  step : c.Step call c' es ok
  broadcasts : c.Broadcasts call es

theorem Performs.silent {c' : Controller} {es : List Event} {ok : Bool}
    (hstep : c.Step call c' es ok) (h : ∀ sm slot, Event.broadcast sm slot ∉ es) :
    c.Performs call c' es ok :=
  ⟨hstep, fun sm slot hmem ↦ absurd hmem (h sm slot)⟩

theorem Performs.skip {ok : Bool} : c.Performs call c [] ok := .silent .skip fun _ _ ↦ not_mem_nil

/-- `x`, run from `c`, performs one step of `c` on `call`. -/
def TakesStep {α : Type} (c : Controller) (call : Call) (x : ControllerAct α) : Prop :=
  x.wp (fun c' es r ↦ c.Performs call c' es r.isOk) c

theorem takesStep_andThen_none {x : ControllerAct Unit} (h : TakesStep c call x) :
    TakesStep c call (do x; pure (none : Option SignedSSVMessage)) := by
  unfold TakesStep at h ⊢
  rw [wp_bind]
  refine wp_mono h fun c' es r hstep ↦ ?_
  cases r with
  | error => exact hstep
  | ok => simpa [Except.isOk, Except.toBool] using hstep

theorem wp_onFresh {inst : Instance} {x : InstanceAct Unit}
    {Q : Controller → List Event → Except Err Instance → Prop} :
    (onFresh inst x).wp Q c ↔ x.wp (fun inst' es r ↦ Q c es (r.map fun _ ↦ inst')) inst := Iff.rfl

theorem takesStep_startNewInstance (c : Controller) (now h : ℕ) (value : Data)
    (checker : ValueChecker) :
    TakesStep c (.startNewInstance now h value checker) (startNewInstance now h value checker) := by
  unfold TakesStep startNewInstance startInstance
  simp only [wp_bind, wp_lift, wp_read, wp_ite, wp_fail, wp_update,
    wp_onFresh, nil_append, append_nil]
  rcases checker now value with e | u
  · exact .skip
  change if _ then _ else _
  split
  · exact .skip
  · rename_i hle
    split
    · exact .skip
    · rename_i habsent
      refine wp_start fun es hes hstarts ↦ ⟨?_, fun sm slot hmem ↦ ?_⟩
      · exact .start (by omega) (by simpa using habsent) hes
      · obtain ⟨hslot, hleader, hbelow, hcreated⟩ := hstarts sm slot hmem
        exact .start hslot hleader hbelow hcreated

theorem takesStep_uponDecided {sm : SignedSSVMessage}
    {msg : ProcessingMessage} (decoded : newProcessingMessage sm = .ok msg) :
    TakesStep c (.processMsg now sm) (uponDecided msg) := by
  unfold TakesStep uponDecided
  simp only [wp_bind, wp_lift, wp_read, nil_append]
  rcases hv : c.validateDecided msg with e | u
  · exact .skip
  replace hv : c.validateDecided msg = .ok () := hv
  have hmark : ∀ h r v sm slot, Event.broadcast sm slot ∉ [Event.markDecided h r v] := by simp
  simp only [Except.mapError]
  rcases hf : c.recentInstances.findInstance msg.qbftMessage.height with - | inst
  · simp only [wp_bind, wp_onFresh, wp_update, wp_pure, append_nil]
    refine Instance.wp_concludeInstance rfl fun inst' r hc ↦ ?_
    cases r with
    | error => exact .silent (.decideLost decoded hv) (hmark _ _ _)
    | ok => exact .silent (.decideNew decoded hf hv hc) (hmark _ _ _)
  · simp only [wp_ite, wp_bind, onInstance, wp_onPart, wp_pure, append_nil]
    split
    · rename_i hd
      unfold Controller.recordDecided
      simp only [wp_bind, wp_read, wp_ite, wp_lift, wp_write, wp_pure, nil_append]
      have hkept : ∀ container ok, c.Performs (.processMsg now sm)
          (c.withInstance (inst.withCommits container)) [] ok :=
        fun _ _ ↦ .silent (.recordDecided hf hd) fun _ _ ↦ not_mem_nil
      split
      · rcases addMsg inst.state.commitContainer msg with e | container
        · exact hkept inst.state.commitContainer _
        · exact hkept container _
      · exact hkept inst.state.commitContainer _
    · rename_i hd
      have hd : inst.state.decided = false := by simpa using hd
      refine Instance.wp_concludeInstance hd fun inst' r hc ↦ ?_
      cases r with
      | error | ok => exact .silent (.decideKnown decoded hf hd hv hc) (hmark _ _ _)

theorem takesStep_uponExistingInstanceMsg {sm : SignedSSVMessage}
    {msg : ProcessingMessage} (decoded : newProcessingMessage sm = .ok msg) :
    TakesStep c (.processMsg now sm) (uponExistingInstanceMsg now msg) := by
  unfold TakesStep uponExistingInstanceMsg
  simp only [wp_bind, wp_read, nil_append]
  rcases hf : c.recentInstances.findInstance msg.qbftMessage.height with - | inst
  · exact .skip
  simp only [wp_ite, wp_fail, wp_bind, wp_mapError, onInstance, wp_onPart]
  split
  · exact .skip
  · rename_i hd
    have hd : inst.state.decided = false := by simpa using hd
    have hstep := Instance.step_processMsg now msg inst
    have hsent : c.Broadcasts (.processMsg now sm)
        ((Instance.processMsg now msg).run inst).events :=
      .of_creates (Instance.processMsg_creates now msg inst) hf hd (.message decoded)
    have hquiet : ∀ ok, c.Performs (.processMsg now sm)
        (c.withInstance ((Instance.processMsg now msg).run inst).state)
        (((Instance.processMsg now msg).run inst).events ++ []) ok :=
      fun _ ↦ ⟨.onMessage decoded hf hd hstep (by simp [Announces]), by rwa [append_nil]⟩
    rw [wp_iff]
    rcases ((Instance.processMsg now msg).run inst).result with e | - | ⟨value, agg⟩
    · have herror := hquiet false
      rw [append_nil] at herror
      exact herror
    · exact hquiet true
    · simp only [Except.mapError, broadcastDecided, wp_bind, wp_emit, wp_pure,
        append_nil]
      refine ⟨.onMessage decoded hf hd hstep fun e he ↦ ⟨agg, _, mem_singleton.1 he⟩,
        fun sm' slot he ↦ ?_⟩
      rcases mem_append.1 he with he | he
      · exact hsent sm' slot he
      · simp at he

theorem takesStep_perform (c : Controller) (call : Call) : TakesStep c call (perform call) := by
  cases call with
  | startNewInstance now h value checker =>
    exact takesStep_andThen_none (takesStep_startNewInstance c now h value checker)
  | processMsg now sm =>
    unfold perform TakesStep processMsg
    simp only [wp_bind, wp_lift, wp_read, wp_ite, wp_fail, nil_append]
    rcases hdec : newProcessingMessage sm with e | msg
    · exact .skip
    change if _ then _ else _
    split
    · exact .skip
    · split
      · exact takesStep_uponDecided hdec
      · split
        · exact .skip
        · exact takesStep_uponExistingInstanceMsg hdec
  | onQBFTRoundTimeout now slot =>
    apply takesStep_andThen_none
    unfold TakesStep onQBFTRoundTimeout
    simp only [wp_bind, wp_read, nil_append]
    rcases hf : c.recentInstances.findInstance slot with - | inst
    · exact .skip
    simp only [wp_ite, wp_pure, wp_mapError, onInstance, wp_onPart]
    split
    · exact .skip
    · rename_i hle
      split
      · exact .skip
      · rename_i hd
        have hd : inst.state.decided = false := by simpa using hd
        exact ⟨.onTimeout hf hd (by omega) (Instance.step_uponRoundTimeout now inst),
          .of_creates (Instance.uponRoundTimeout_creates now inst) hf hd .timeout⟩

/-- **Every call takes one step** of the controller. -/
theorem step_perform (c : Controller) (call : Call) :
    c.Step call ((perform call).run c).state ((perform call).run c).events
      ((perform call).run c).result.isOk :=
  (takesStep_perform c call).step

/-- **Where every message of a call comes from.** -/
theorem perform_broadcasts (c : Controller) (call : Call) :
    c.Broadcasts call ((perform call).run c).events :=
  (takesStep_perform c call).broadcasts

end Controller

/-! ### Runs of one controller -/

/-- A controller, with what it has caused. -/
structure Node where
  controller : Controller
  log : List Event
  /-- The heights it has marked decided in a call that returned without an error. -/
  reported : List ℕ

/-- The heights that the events mark as decided. -/
def markedHeights (es : List Event) : List ℕ := es.filterMap fun
    | .markDecided h _ _ => some h
    | _ => none

namespace Node

def init (c : Controller) : Node := { controller := c, log := [], reported := [] }

def perform (n : Node) (call : Call) : Node :=
  let o := (Controller.perform call).run n.controller
  { controller := o.state
    log := n.log ++ o.events
    reported := n.reported ++ if o.result.isOk then markedHeights o.events else [] }

def runCalls (n : Node) (calls : List Call) : Node := calls.foldl perform n

end Node

end Ssv
