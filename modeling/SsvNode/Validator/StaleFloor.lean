import SsvNode.Queue.AwaitingProposal
import SsvNode.Validator.QueueConsumer

/-!
# The stale floor

The consumer's copy of the runner's slot is refreshed after the start of a duty only, and is right
at every pop nevertheless (`Synced`), so that the floor discards exactly what is below the slot of
the duty the runner holds (`Entry.Sound`). The machine lets the consumer read and iterate at any
time, which is more than `Pop` does. The last section has the runners built on `BaseRunner`.
-/

namespace Ssv.Validator

variable {η ρ : Type}

/-! ### What a message does to the slot of the runner -/

section

variable (R : SingleSlotRunner η ρ) (env : HandlerEnv η)

/-- The slot stays, or the message starts a duty and there is a slot afterwards. -/
def Moves (msg : Queue.SSVMessage) (r r' : ρ) : Prop :=
  R.currentDutySlot r' = R.currentDutySlot r ∨
    isExecuteDuty msg = true ∧ (R.currentDutySlot r').isSome = true

theorem checked_moves {msg : Queue.SSVMessage} {r : ρ} {check : Except Err Unit}
    {call : ρ → ρ × Except Err Unit} (h : Moves R msg r (call r).1) :
    Moves R msg r (checked r check call).1 := by
  unfold checked
  split
  · exact .inl rfl
  · exact h

theorem processPartialSignatures_moves (msg : Queue.SSVMessage)
    (pms : Validation.PartialSignatureMessages) (r : ρ) :
    Moves R msg r (processPartialSignatures R env msg pms r).1 := by
  unfold processPartialSignatures
  split
  · refine checked_moves R ?_
    split
    · exact .inl (R.processPostConsensus_slot env.runner pms r)
    · exact .inl (R.processPreConsensus_slot env.runner pms r)
  · exact .inl rfl

variable [Queue.EventSpec]

theorem onExecuteDuty_moves {msg : Queue.SSVMessage} {e : Queue.EventMsg}
    (hmsg : isExecuteDuty msg = true) (r : ρ) : Moves R msg r (onExecuteDuty R env e r).1 := by
  unfold onExecuteDuty
  split
  · exact .inl rfl
  · exact .inl rfl
  · refine checked_moves R ?_
    unfold startDuty
    split
    · rcases R.startNewDuty_slot env.runner _ r with h | h
      · exact .inl h
      · exact .inr ⟨hmsg, (congrArg Option.isSome h).trans rfl⟩
    · exact .inl rfl

/-- **Only the start of a duty moves the runner.** -/
theorem processMessage_moves (msg : Queue.SSVMessage) (r : ρ) :
    Moves R msg r (processMessage R env msg r).1 := by
  refine checked_moves R ?_
  unfold dispatch
  split
  · split
    · exact checked_moves R (.inl (R.processConsensus_slot env.runner _ r))
    · exact .inl rfl
  · split
    · exact processPartialSignatures_moves R env msg _ r
    · exact .inl rfl
  · split
    · next e hbody =>
      split
      · split
        · exact .inl rfl
        · exact .inl (R.onQBFTRoundTimeout_slot env.runner _ r)
      · next htype =>
        refine onExecuteDuty_moves R env ?_ r
        unfold isExecuteDuty
        rw [hbody]
        exact decide_eq_true htype
      · exact .inl rfl
    · exact .inl rfl
  · exact .inl rfl

end

/-! ### The floor -/

variable [Queue.EventSpec]

theorem slotBelow_iff {floor : ℕ} {m : Queue.SSVMessage} :
    slotBelow floor m = true ↔
      isExecuteDuty m = false ∧ ∃ slot, m.slot = .ok slot ∧ slot < floor := by
  unfold slotBelow
  cases isExecuteDuty m with
  | true => simp
  | false =>
    cases m.slot with
    | error | ok => simp

/-- **What the floor is for**: what is handed over and does not start a duty is of the runner's slot
or later, and what is discarded does not either and is earlier. -/
def Entry.Sound : Entry → Prop
  | .handed msg held =>
    isExecuteDuty msg = false → ∃ slot, msg.slot = .ok slot ∧ ∀ s ∈ held, s ≤ slot
  | .stale msg held =>
    isExecuteDuty msg = false ∧ ∃ slot, msg.slot = .ok slot ∧ ∃ s ∈ held, slot < s

variable {msg : Queue.SSVMessage}

theorem Entry.sound_stale {held : Option ℕ}
    (h : slotBelow (held.getD 0) msg = true) : (Entry.stale msg held).Sound := by
  obtain ⟨hstart, slot, hslot, hlt⟩ := slotBelow_iff.1 h
  refine ⟨hstart, slot, hslot, ?_⟩
  cases held with
  | none => exact absurd hlt (Nat.not_lt_zero slot)
  | some s => exact ⟨s, rfl, hlt⟩

theorem Entry.sound_handed {held : Option ℕ} {slot : ℕ} (h : ¬ slotBelow (held.getD 0) msg = true)
    (hslot : msg.slot = .ok slot) : (Entry.handed msg held).Sound := by
  intro hstart
  refine ⟨slot, hslot, ?_⟩
  rintro s ⟨⟩
  by_contra hlt
  exact h (slotBelow_iff.2 ⟨hstart, slot, hslot, not_le.1 hlt⟩)

theorem slot_of_logWithMessageFields
    (h : logWithMessageFields msg = .ok ()) : ∃ slot, msg.slot = .ok slot := by
  obtain ⟨slot, hslot, -⟩ := Checks.bind_eq_ok.1 h
  exact ⟨slot, Checks.mapError_eq_ok.1 hslot⟩

namespace Consumer

variable (R : SingleSlotRunner η ρ) (cfg : ConsumerConfig)

theorem handle_frame (c : Consumer ρ) (env : HandlerEnv η) (msg : Queue.SSVMessage)
    (key : MessageKey) :
    (c.handle R cfg env msg key).runner = (processMessage R env msg c.runner).1 ∧
      (c.handle R cfg env msg key).floor = c.floor ∧
      (c.handle R cfg env msg key).log = c.log ++ [.handed msg (R.currentDutySlot c.runner)] := by
  unfold Consumer.handle
  dsimp only
  split
  · exact ⟨rfl, rfl, rfl⟩
  · split
    · exact ⟨rfl, rfl, rfl⟩
    · exact ⟨rfl, rfl, rfl⟩

/-- The floor is the slot of the runner's duty, and everything so far was right. -/
structure Synced (c : Consumer ρ) : Prop where
  floor : c.floor = (R.currentDutySlot c.runner).getD 0
  sound : ∀ e ∈ c.log, e.Sound

variable {R cfg} {c : Consumer ρ}

section

variable (h : c.Synced R)
include h

theorem Synced.frame {c' : Consumer ρ} (hrunner : c'.runner = c.runner)
    (hfloor : c'.floor = c.floor) (hlog : c'.log = c.log) : c'.Synced R :=
  ⟨by rw [hfloor, hrunner]; exact h.floor, by rw [hlog]; exact h.sound⟩

theorem Synced.record {c' : Consumer ρ} {es : List Entry}
    (hfloor : c'.floor = (R.currentDutySlot c'.runner).getD 0) (hlog : c'.log = c.log ++ es)
    (hes : ∀ e ∈ es, e.Sound) : c'.Synced R := by
  refine ⟨hfloor, fun e he ↦ ?_⟩
  rw [hlog] at he
  rcases List.mem_append.1 he with he | he
  · exact h.sound e he
  · exact hes e he

theorem Synced.tryPush (msg : Queue.SSVMessage) : (c.tryPush msg).Synced R := by
  unfold Consumer.tryPush
  split
  · exact h.frame rfl rfl rfl
  · exact h

theorem Synced.retry (i : ℕ) : (c.retry i).Synced R := by
  unfold Consumer.retry
  split
  · exact h
  · dsimp only
    split
    · exact h.frame rfl rfl rfl
    · exact h.frame rfl rfl rfl

theorem Synced.dropStale {msg : Queue.SSVMessage}
    (hbelow : slotBelow c.floor msg = true) : (c.dropStale R msg).Synced R := by
  refine h.record h.floor rfl fun e he ↦ ?_
  rw [List.mem_singleton.1 he]
  exact Entry.sound_stale (h.floor ▸ hbelow)

theorem Synced.purge : (c.purge R (slotBelow c.floor)).Synced R := by
  refine h.record h.floor rfl fun e he ↦ ?_
  obtain ⟨m, hm, rfl⟩ := List.mem_map.1 he
  have hbelow : slotBelow c.floor m = true := (List.mem_filter.1 hm).2
  exact Entry.sound_stale (h.floor ▸ hbelow)

/-- In between the floor may be behind the runner after the start of a duty, and then is set. -/
theorem Synced.handle (env : HandlerEnv η) {msg : Queue.SSVMessage} (key : MessageKey)
    (idle : Bool) {slot : ℕ} (hbelow : ¬ slotBelow c.floor msg = true)
    (hslot : msg.slot = .ok slot) :
    ((c.handle R cfg env msg key).syncFloor R idle msg).Synced R := by
  obtain ⟨hrunner, hfloor, hlog⟩ := c.handle_frame R cfg env msg key
  generalize c.handle R cfg env msg key = d at hrunner hlog hfloor
  have hhanded : ∀ e ∈ [Entry.handed msg (R.currentDutySlot c.runner)], e.Sound := by
    intro e he
    rw [List.mem_singleton.1 he]
    exact Entry.sound_handed (h.floor ▸ hbelow) hslot
  have hmoves := processMessage_moves R env msg c.runner
  rw [← hrunner] at hmoves
  -- where the runner has not moved the floor is still right
  have hstay (hsame : R.currentDutySlot d.runner = R.currentDutySlot c.runner) : d.Synced R :=
    h.record (by rw [hfloor, hsame]; exact h.floor) hlog hhanded
  unfold Consumer.syncFloor
  split
  · split
    · next hnone =>
      rcases hmoves with hsame | ⟨-, hsome⟩
      · exact hstay hsame
      · rw [hnone] at hsome
        cases hsome
    · next dutySlot hduty =>
      have hset : ({ d with floor := dutySlot } : Consumer ρ).Synced R :=
        h.record (by show dutySlot = _; rw [hduty]; rfl) hlog hhanded
      dsimp only
      split
      · exact hset.purge
      · exact hset
  · next hstart =>
    rcases hmoves with hsame | ⟨hexecute, -⟩
    · exact hstay hsame
    · exact absurd hexecute hstart

theorem Synced.iterate (env : HandlerEnv η) : (c.iterate R cfg env).Synced R := by
  unfold Consumer.iterate
  dsimp only
  split
  · exact h
  · next msg q _ =>
    have hpopped : ({ c with queue := q } : Consumer ρ).Synced R := h.frame rfl rfl rfl
    unfold Consumer.consume
    dsimp only
    split
    · next hbelow => exact hpopped.dropStale hbelow
    · next hbelow =>
      split
      · next key hfields _ =>
        obtain ⟨slot, hslot⟩ := slot_of_logWithMessageFields hfields
        exact hpopped.handle env key _ hbelow hslot
      · exact hpopped

end

/-! ### Runs -/

/-- Producers push, goroutines retry, the consumer reads and loops, and a state expires. -/
inductive ConsumerStep (η : Type) where
  | enqueueMessage (msg : Queue.SSVMessage)
  | push (msg : Queue.SSVMessage)
  | retry (i : ℕ)
  | receive
  | iterate (env : HandlerEnv η)
  | expire (key : MessageKey)

/-- A consumer of a runner without a duty, and every interleaving. -/
def machine (R : SingleSlotRunner η ρ) (cfg : ConsumerConfig) :
    Machine (Consumer ρ) (ConsumerStep η) where
  initial c := ∃ r capacity, R.currentDutySlot r = none ∧ c = .new r capacity
  enabled _ _ := True
  next c
    | .enqueueMessage msg => c.enqueueMessage msg
    | .push msg => c.tryPush msg
    | .retry i => c.retry i
    | .receive => { c with queue := c.queue.receive }
    | .iterate env => c.iterate R cfg env
    | .expire key => { c with msgStates := c.msgStates.erase key }

theorem Synced.next (h : c.Synced R) (step : ConsumerStep η) :
    ((machine R cfg).next c step).Synced R := by
  cases step with
  | enqueueMessage msg =>
    show (c.enqueueMessage msg).Synced R
    unfold Consumer.enqueueMessage
    split
    · exact h
    · exact h.tryPush msg
  | push msg => exact h.tryPush msg
  | retry i => exact h.retry i
  | receive | expire => exact h.frame rfl rfl rfl
  | iterate env => exact h.iterate env

/-- **The stale floor** is the slot of the runner's duty, and each message was handed over or
discarded rightly. -/
theorem floor_sound (R : SingleSlotRunner η ρ) (cfg : ConsumerConfig) {c : Consumer ρ}
    (hc : (machine R cfg).Reachable c) :
    c.floor = (R.currentDutySlot c.runner).getD 0 ∧ ∀ e ∈ c.log, e.Sound := by
  have hsynced : c.Synced R := by
    refine hc.invariant ?_ fun c step _ h _ ↦ h.next step
    rintro _ ⟨r, capacity, hnone, rfl⟩
    refine ⟨?_, fun e he ↦ nomatch he⟩
    show 0 = (R.currentDutySlot r).getD 0
    rw [hnone]
    rfl
  exact ⟨hsynced.floor, hsynced.sound⟩

end Consumer

end Ssv.Validator

/-! ### Runners built on `BaseRunner` -/

namespace Ssv

variable [RunnerSpec]

def RunnerCall.starts : RunnerCall → Bool
  | .startNewDuty _ => true
  | _ => false

namespace BaseRunner

variable (b : BaseRunner)

def currentDutySlot : Option ℕ := b.state.map (·.currentDutySlot)

def shouldProcessNonBeaconDuty (slot : ℕ) : Except Err Unit :=
  match b.state with
  | none => .ok ()
  | some s =>
    Checks.require (¬ s.currentDutySlot ≥ slot) (.newError .dutyAlreadyPassed
      ("duty for slot " ++ toString slot ++ " already passed. Current slot is " ++
        toString s.currentDutySlot))

/-- `baseStartNewNonBeaconDuty` up to `executeDuty`. -/
def baseStartNewNonBeaconDuty (slot : ℕ) (b : BaseRunner) : BaseRunner :=
  if (b.shouldProcessNonBeaconDuty slot).isOk then { b with state := some (.new slot) } else b

theorem currentDutySlot_withCall (call : Call) :
    (b.withCall call).currentDutySlot = b.currentDutySlot := by
  unfold currentDutySlot withCall
  cases b.state with
  | none | some => rfl

theorem currentDutySlot_decide (now : ℕ) (byts : Data) (checker : ValueChecker) :
    (b.decide now byts checker).currentDutySlot = b.currentDutySlot := by
  unfold BaseRunner.decide
  split
  · rfl
  · next s hs =>
    split
    · dsimp only
      split
      · show some s.currentDutySlot = b.state.map _
        rw [hs]
        rfl
      · exact b.currentDutySlot_withCall _
    · rfl

variable {α : Type}

theorem currentDutySlot_processConsensus (enc : Encoder α)
    (check : Bytes → Except Err Unit) (now : ℕ) (msg : SignedSSVMessage) :
    (b.baseConsensusMsgProcessing enc check now msg).1.currentDutySlot = b.currentDutySlot := by
  have hcalled := b.currentDutySlot_withCall (.processMsg now msg)
  unfold baseConsensusMsgProcessing
  dsimp only
  split
  · rfl
  split
  · exact hcalled
  split
  · exact hcalled
  split
  · exact hcalled
  rw [← hcalled]
  unfold uponDecidedMsg
  split
  · rfl
  · rfl
  split
  · rfl
  · rfl
  · next hs =>
    unfold currentDutySlot
    rw [hs]
    rfl

/-- **Only the start of a duty replaces the duty.** -/
theorem currentDutySlot_next {enc : Encoder α} {run : DutyRun α} {call : RunnerCall}
    (hcall : call.starts = false) :
    (run.next enc call).runner.currentDutySlot = run.runner.currentDutySlot := by
  cases call with
  | startNewDuty => cases hcall
  | decide now byts checker => exact run.runner.currentDutySlot_decide now byts checker
  | processConsensus now msg check =>
    exact run.runner.currentDutySlot_processConsensus enc check now msg
  | onTimeout now slot round =>
    show (run.runner.onQBFTRoundTimeout now slot round).currentDutySlot = _
    unfold BaseRunner.onQBFTRoundTimeout
    split
    · rfl
    split
    · rfl
    · exact run.runner.currentDutySlot_withCall _
  | markDutySucceeded =>
    show (run.runner.markDutySucceeded).currentDutySlot = _
    unfold BaseRunner.markDutySucceeded currentDutySlot
    cases run.runner.state with
    | none | some => rfl

/-- The calls of `BaseRunner` that a method leads to, and its result. -/
structure Reaction where
  calls : List { call : RunnerCall // call.starts = false }
  result : Except Err Unit

def react {α : Type} (enc : Encoder α) (reaction : Reaction) (run : DutyRun α) : DutyRun α :=
  reaction.calls.foldl (fun run call ↦ run.next enc call.1) run

theorem currentDutySlot_react (enc : Encoder α) (reaction : Reaction) (run : DutyRun α) :
    (react enc reaction run).runner.currentDutySlot = run.runner.currentDutySlot := by
  unfold react
  induction reaction.calls generalizing run with
  | nil => rfl
  | cons call calls ih =>
    rw [List.foldl_cons, ih]
    exact currentDutySlot_next call.2

/-- A runner on `BaseRunner`: without consensus, a duty starts by `baseStartNewNonBeaconDuty`. -/
def singleSlotRunner {α : Type} (enc : Encoder α)
    (start : BaseRunner → ℕ → BaseRunner) (awaiting : DutyRun α → Option ℕ)
    (hstart : ∀ b slot, (start b slot).currentDutySlot = b.currentDutySlot ∨
      (start b slot).currentDutySlot = some slot) :
    Validator.SingleSlotRunner Reaction (DutyRun α) where
  currentDutySlot run := run.runner.currentDutySlot
  hasRunningDuty run := run.runner.hasDutyRunning
  hasRunningQBFTInstance run := run.runner.hasRunningQBFTInstance
  hasAcceptedProposalForCurrentRound run := run.runner.hasAcceptedProposalForCurrentRound
  getLastHeight run := run.runner.qbftController.latestInstanceHeight
  getLastRound run := run.runner.getLastRound
  awaitingPostConsensus := awaiting
  startNewDuty reaction duty run :=
    (react enc reaction { run with runner := start run.runner duty.slot }, reaction.result)
  processConsensus reaction _ run := (react enc reaction run, reaction.result)
  processPreConsensus reaction _ run := (react enc reaction run, reaction.result)
  processPostConsensus reaction _ run := (react enc reaction run, reaction.result)
  onQBFTRoundTimeout reaction _ run := (react enc reaction run, reaction.result)
  startNewDuty_slot reaction duty run := by
    rw [currentDutySlot_react]
    exact hstart run.runner duty.slot
  processConsensus_slot reaction _ run := currentDutySlot_react enc reaction run
  processPreConsensus_slot reaction _ run := currentDutySlot_react enc reaction run
  processPostConsensus_slot reaction _ run := currentDutySlot_react enc reaction run
  onQBFTRoundTimeout_slot reaction _ run := currentDutySlot_react enc reaction run

theorem currentDutySlot_baseStartNewDuty (slot : ℕ) :
    (b.baseStartNewDuty slot).currentDutySlot = b.currentDutySlot ∨
      (b.baseStartNewDuty slot).currentDutySlot = some slot := by
  unfold baseStartNewDuty
  split
  · exact .inr rfl
  · exact .inl rfl

theorem currentDutySlot_baseStartNewNonBeaconDuty (slot : ℕ) :
    (b.baseStartNewNonBeaconDuty slot).currentDutySlot = b.currentDutySlot ∨
      (b.baseStartNewNonBeaconDuty slot).currentDutySlot = some slot := by
  unfold baseStartNewNonBeaconDuty
  split
  · exact .inr rfl
  · exact .inl rfl

/-- A runner of a role with a consensus phase. -/
def beaconRunner {α : Type} (enc : Encoder α) (awaiting : DutyRun α → Option ℕ) :
    Validator.SingleSlotRunner Reaction (DutyRun α) :=
  singleSlotRunner enc (fun b slot ↦ b.baseStartNewDuty slot) awaiting
    currentDutySlot_baseStartNewDuty

/-- A runner of a role without one. -/
def nonBeaconRunner {α : Type} (enc : Encoder α) (awaiting : DutyRun α → Option ℕ) :
    Validator.SingleSlotRunner Reaction (DutyRun α) :=
  singleSlotRunner enc (fun b slot ↦ b.baseStartNewNonBeaconDuty slot) awaiting
    currentDutySlot_baseStartNewNonBeaconDuty

end BaseRunner

end Ssv

/-! ### A run -/

namespace Ssv.Validator.Reference

open Ssv.Reference (runnerSpec bytesEncoder dutyRunOf)

local instance floorRunner : RunnerSpec := runnerSpec

@[reducible]
def slotEvents : Queue.EventSpec where
  getRoleType _ := .proposer
  getTimeoutData e := .ok ⟨(e.data.map UInt8.toNat).sum, 1⟩
  getExecuteDutyData e :=
    .ok (some { type := .other 0, pubKey := [], slot := (e.data.map UInt8.toNat).sum,
                validatorIndex := 0, committeeIndex := 0 })

local instance floorEvents : Queue.EventSpec := slotEvents

def slotEvent (type : Queue.EventType) (slot : UInt8) : Queue.SSVMessage where
  signedSSVMessage := none
  ssvMessage := { msgType := .other 200, msgID := [], data := [slot] }
  body := .event ⟨type, [slot]⟩
  signed := nofun

/-- The runner does nothing with a message but take up duties. -/
def quietEnv : HandlerEnv BaseRunner.Reaction where
  runner := ⟨[], .ok ()⟩
  validateSigned _ := .ok ()
  verify _ := .ok ()
  messageIDBelongs _ := true
  validateQbft _ := .ok ()
  validateForSigner _ _ := .ok ()
  start := .ok ()
  hasRunner _ := true

/-- The runner takes up slot `5`, then `3`, since no instance was started; a timeout of slot `2` is
stale, one of slot `4` is not. -/
def reseatedSteps : List (Consumer.ConsumerStep BaseRunner.Reaction) :=
  [.push (slotEvent .executeDuty 5), .receive, .iterate quietEnv,
    .push (slotEvent .timeout 4), .push (slotEvent .timeout 2), .push (slotEvent .executeDuty 3),
    .receive, .receive, .receive, .iterate quietEnv, .iterate quietEnv, .iterate quietEnv]

def reseated : Consumer (DutyRun Bytes) :=
  reseatedSteps.foldl
    (Consumer.machine (BaseRunner.beaconRunner bytesEncoder fun _ ↦ none) ⟨3, 480⟩).next
    (.new (dutyRunOf []) 128)

theorem floor_sound_reseated :
    (reseated.floor, reseated.log.length) = (3, 4) ∧
      reseated.floor =
        ((BaseRunner.beaconRunner bytesEncoder fun _ ↦ none).currentDutySlot reseated.runner).getD
          0 ∧
      ∀ e ∈ reseated.log, e.Sound := by
  have hnew : (Consumer.machine (BaseRunner.beaconRunner bytesEncoder fun _ ↦ none)
    ⟨3, 480⟩).Reachable
      (.new (dutyRunOf []) 128) := .initial ⟨_, _, rfl, rfl⟩
  refine ⟨by decide +kernel, Consumer.floor_sound _ ⟨3, 480⟩ (hnew.foldl ?_)⟩
  exact ⟨trivial, trivial, trivial, trivial, trivial, trivial, trivial, trivial, trivial, trivial,
      trivial, trivial, trivial⟩

end Ssv.Validator.Reference
