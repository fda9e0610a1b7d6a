import SsvNode.Lib.Machine
import SsvNode.Lib.Recorder
import SsvNode.Validation.Seats

/-!
# The histories of seats and slots

Seen from a seat, and from a slot state in it, the validator is a **recorder** (`seatRecorder`,
`slotRecorder`). The messages that `LoggedRun` has of a seat and of a slot are histories of the
states (`seat_history`, `slot_history`) in runs in which no message lists its committee in another
order than the state it meets (`orderedMachine`), so that claims about runs are proved of one
recorder.
-/

namespace Ssv.Validation

open ValidationSpec Option

/-- An accepted message, as planned. -/
structure Accepted where
  receipt : Receipt
  plan : Plan

section

variable [ValidationSpec] (net : Network)

/-- The message came through the checks that need no state. -/
def Planned (a : Accepted) : Prop := ∃ message, plan net a.receipt message = .ok a.plan

/-- A seat as a recorder of the messages of its operator. -/
def seatRecorder (seat : Seat) : Recorder OperatorState Accepted where
  Accepts a os := Planned net a ∧ a.plan.At seat ∧ a.plan.Passes net a.receipt os
  record a os := a.plan.after net a.receipt (os.getD
    (.new (storedSlotCount net (getRoleType seat.key)) (storedEpochCount (getRoleType seat.key))))

/-- The state of a slot at a seat as a recorder. -/
def slotRecorder (seat : Seat) (slot : ℕ) : Recorder SignerStateForSlotRound Accepted where
  Accepts a s := Planned net a ∧ a.plan.At seat ∧ a.plan.slot = slot ∧
    ∀ s', s = some s' → a.plan.checkSlot a.receipt s' = .ok ()
  record a s := a.plan.record a.receipt (s.getD a.plan.fresh)

variable {net} {rc : Receipt} {data : Bytes} {σ : States} {seat : Seat}
  {seating : Bytes → List OperatorID} {p : Plan}

/-! ### One message at a seat -/

omit [ValidationSpec] in
theorem seatState_set_of_ne (h : p.key ≠ seat.key) (st : ValidatorState) :
    seatState (p.reseat σ seating) (σ.set p.key st) seat = seatState seating σ seat := by
  simp only [seatState, States.set, if_neg (Ne.symm h), Plan.reseat_of_ne (Ne.symm h)]

variable (net) in
/-- What a message finds at a seat is what was remembered there. -/
theorem peek_validatorState (h : p.keepsOrder σ seating = true) (hkey : p.key = seat.key)
    (hid : p.ci.committeeID = seat.committeeID) :
    seat.peek p.ci.committee (validatorState net σ p.key p.ci) = seatState seating σ seat := by
  unfold seatState
  rw [← hkey]
  rcases p.validatorState_cases net σ with ⟨hseated, hst⟩ | ⟨hseated, hfresh⟩
  · unfold Plan.keepsOrder at h
    rw [hseated, Bool.not_true, Bool.false_or, decide_eq_true_eq] at h
    rw [hst, bind_some, h]
  · have hnone : seat.peek p.ci.committee (freshState net (getRoleType p.key) p.ci) = none := by
      unfold Seat.peek
      split
      · simp only [freshState, ValidatorState.peekOperatorState, List.getElem?_replicate]
        split <;> rfl
      · rfl
    rw [hfresh, hnone]
    unfold Plan.seated at hseated
    cases hst : σ p.key with
    | none => rfl
    | some st =>
      rw [hst, Option.any_some, decide_eq_false_iff_not] at hseated
      rw [bind_some, Seat.peek, if_neg fun hseat ↦ hseated (hseat.1.trans hid.symm)]

/-- A message that puts a state under its ID makes a step at a seat, if it does so at those of its
committee. -/
theorem seatStep_set {entry : Option Accepted} {st : ValidatorState}
    (h : p.keepsOrder σ seating = true)
    (hst : st.committeeID = p.ci.committeeID) (hother : p.key ≠ seat.key → entry = none)
    (hsame : p.key = seat.key → p.ci.committeeID = seat.committeeID → seat.signer ∈ p.ci.committee →
      (seatRecorder net seat).Step entry (seatState seating σ seat) (seat.peek p.ci.committee st)) :
    (seatRecorder net seat).Step entry (seatState seating σ seat)
      (seatState (p.reseat σ seating) (σ.set p.key st) seat) := by
  by_cases hkey : p.key = seat.key
  · have hnew : seatState (p.reseat σ seating) (σ.set p.key st) seat =
        seat.peek p.ci.committee st := by
      rw [seatState, ← hkey, Plan.reseat_self h]
      simp only [States.set, if_true, bind_some]
    rw [hnew]
    by_cases hseat : p.ci.committeeID = seat.committeeID ∧ seat.signer ∈ p.ci.committee
    · exact hsame hkey hseat.1 hseat.2
    · rw [Seat.peek, hst, if_neg hseat]
      exact .drop
  · rw [seatState_set_of_ne hkey, hother hkey]
    exact .keep

variable (net) in
/-- The plan of a message, if it is accepted. -/
def acceptedPlan (rc : Receipt) (data : Bytes) (σ : States) : Option Plan :=
  match (validate net rc data σ).2, planOf net rc data with
  | .accept, .ok p => some p
  | _, _ => none

variable (net) in
/-- The message, if it is accepted and one of the operator at the seat. -/
def acceptedAt (rc : Receipt) (data : Bytes) (σ : States) (seat : Seat) : Option Accepted :=
  ((acceptedPlan net rc data σ).filter (·.At seat)).map (⟨rc, ·⟩)

/-- What is remembered at a seat of a message is what its checks read. -/
theorem seatState_of_at {message : Option WireMessage} (h : plan net rc message = .ok p)
    (horder : p.keepsOrder σ seating = true) (hat : p.At seat) :
    seatState seating σ seat =
      (validatorState net σ p.key p.ci).peekOperatorState (p.ci.signerIndex seat.signer) := by
  obtain ⟨hkey, hid, hsigner⟩ := hat
  have hmem := (admission_spec (plan_cases h).1).2.2 _ hsigner
  rw [← peek_validatorState net horder hkey hid, Seat.peek, committeeID_validatorState,
    if_pos ⟨hid, hmem⟩]
  rfl

/-- What the update of a message leaves at the seats of its committee. -/
theorem peek_update {message : Option WireMessage} (h : plan net rc message = .ok p)
    (hσ : σ.WellFormed net seating) (horder : p.keepsOrder σ seating = true)
    (hkey : p.key = seat.key) (hid : p.ci.committeeID = seat.committeeID)
    (hmem : seat.signer ∈ p.ci.committee) :
    seat.peek p.ci.committee ((p.update net rc).run (validatorState net σ p.key p.ci)).state =
      if seat.signer ∈ p.signed.operatorIDs then
        some (p.after net rc ((validatorState net σ p.key p.ci).operatorState
          (p.ci.signerIndex seat.signer)))
      else seatState seating σ seat := by
  have hlt : signerIndices p.ci.committee seat.signer <
      (validatorState net σ p.key p.ci).operators.length := by
    rw [(fits_validatorState hσ horder).operators]
    exact signerIndices_lt hmem
  have hold := peek_validatorState net horder hkey hid
  rw [Seat.peek, committeeID_validatorState, if_pos ⟨hid, hmem⟩] at hold
  rw [← hold, Seat.peek, p.committeeID_update h, committeeID_validatorState,
    if_pos ⟨hid, hmem⟩, p.update_state h,
    peekOperatorState_foldl_modifyAt _ (plan_indices_nodup h)]
  refine if_congr ?_ rfl rfl
  rw [and_iff_left hlt, List.mem_map]
  constructor
  · rintro ⟨signer, hsigner, heq⟩
    have hsigner' := (admission_spec (plan_cases h).1).2.2 signer hsigner
    exact signerIndices_inj hsigner' hmem heq ▸ hsigner
  · exact fun hsigner ↦ ⟨_, hsigner, rfl⟩

theorem seatStep_update {message : Option WireMessage} (h : plan net rc message = .ok p)
    (hσ : σ.WellFormed net seating) (horder : p.keepsOrder σ seating = true)
    (hcheck : p.check net rc (validatorState net σ p.key p.ci) = .ok ()) (hkey : p.key = seat.key)
    (hid : p.ci.committeeID = seat.committeeID) (hmem : seat.signer ∈ p.ci.committee) :
    (seatRecorder net seat).Step (if p.At seat then some ⟨rc, p⟩ else none)
    (seatState seating σ seat)
      (seat.peek p.ci.committee ((p.update net rc).run
        (validatorState net σ p.key p.ci)).state) := by
  rw [peek_update h hσ horder hkey hid hmem]
  by_cases hsigner : seat.signer ∈ p.signed.operatorIDs
  · have hat : p.At seat := ⟨hkey, hid, hsigner⟩
    have hold := seatState_of_at h horder hat
    rw [if_pos hsigner, if_pos hat, operatorState_eq_getD (fits_validatorState hσ horder),
      ← hold, hkey]
    refine Recorder.Step.accept (R := seatRecorder net seat) (a := ⟨rc, p⟩) ⟨⟨message, h⟩, hat, ?_⟩
    rw [hold]
    exact p.passes_of_check h hcheck hsigner
  · rw [if_neg hsigner, if_neg fun hat ↦ hsigner hat.2.2]
    exact .keep

theorem acceptedPlan_of_accept (haccept : (validate net rc data σ).2 = .accept)
    (hplan : planOf net rc data = .ok p) : acceptedPlan net rc data σ = some p := by
  simp only [acceptedPlan, haccept, hplan]

theorem acceptedPlan_of_ne (hne : (validate net rc data σ).2 ≠ .accept) :
    acceptedPlan net rc data σ = none := by
  unfold acceptedPlan
  split
  · next haccept _ => exact absurd haccept hne
  · rfl

/-! ### One message at a slot -/

omit [ValidationSpec] in
theorem getSignerStateForSlot_recordIn {os : OperatorState} {slot slot' epoch : ℕ}
    {fresh s' : SignerStateForSlotRound}
    {record : SignerStateForSlotRound → SignerStateForSlotRound}
    (hrecord : ∀ s, s.slot = slot → (record s).slot = slot) (hfresh : fresh.slot = slot)
    (h : (os.recordIn slot epoch fresh record).getSignerStateForSlot slot' = some s') :
    (slot = slot' ∧ s' = record ((os.getSignerStateForSlot slot').getD fresh)) ∨
    (slot ≠ slot' ∧ os.getSignerStateForSlot slot' = some s') := by
  unfold OperatorState.recordIn at h
  split at h
  · next hold =>
    rcases OperatorState.getSignerStateForSlot_store h with ⟨hslot, rfl⟩ | ⟨hne, hget⟩
    · obtain rfl : slot' = slot := hslot.trans (hrecord fresh hfresh)
      exact .inl ⟨rfl, by rw [hold]; rfl⟩
    · refine .inr ⟨fun heq ↦ hne (by rw [heq]), ?_⟩
      exact OperatorState.getSignerStateForSlot_set hne hget hfresh
  · next s hold =>
    rcases OperatorState.getSignerStateForSlot_store h with ⟨hslot, rfl⟩ | ⟨hne, hget⟩
    · obtain rfl : slot' = slot :=
        hslot.trans (hrecord s (OperatorState.slot_of_getSignerStateForSlot hold))
      exact .inl ⟨rfl, by rw [hold]; rfl⟩
    · exact .inr ⟨fun heq ↦ hne (by rw [heq]), hget⟩

omit [ValidationSpec] in
theorem Plan.slot_fresh (p : Plan) : p.fresh.slot = p.slot := by
  cases p <;> rfl

omit [ValidationSpec] in
theorem Plan.record_consensus (rc : Receipt) (signed : SignedSSVMessage) (ci : CommitteeInfo)
    {msg : Message} (hvalid : validConsensusMsgType msg.msgType = true)
    (s : SignerStateForSlotRound) :
    RecordsMessage signed msg (if msg.round > s.round then s.reset msg.height msg.round else s)
      ((Plan.consensus signed ci msg).record rc s) :=
  (processSignerState_spec hvalid _).2

omit [ValidationSpec] in
theorem Plan.record_partialSignature (rc : Receipt) (signed : SignedSSVMessage) (ci : CommitteeInfo)
    {m : PartialSignatureMessages} (signer : OperatorID)
    (hvalid : validPartialSigMsgType m.type = true) (s : SignerStateForSlotRound) :
    RecordsPacket m s ((Plan.partialSignature signed ci m signer).record rc s) :=
  (processPartialSignerState_spec hvalid s).2

theorem Plan.slot_record {message : Option WireMessage} {p : Plan} (h : plan net rc message = .ok p)
    {s : SignerStateForSlotRound} (hs : s.slot = p.slot) : (p.record rc s).slot = p.slot := by
  have hvalid := plan_valid h
  cases p with
  | consensus signed ci =>
    refine (Plan.record_consensus rc signed ci hvalid s).slot.trans ?_
    split
    · rfl
    · exact hs
  | partialSignature signed ci m signer =>
    exact (Plan.record_partialSignature rc signed ci signer hvalid.1 s).slot.trans hs

/-- **One message at a slot.** -/
theorem slotStep {entry : Option Accepted} {os os' : Option OperatorState}
    (h : (seatRecorder net seat).Step entry os os') (slot : ℕ) :
    (slotRecorder net seat slot).Step (entry.filter (·.plan.slot = slot))
      (peekSignerState os slot) (peekSignerState os' slot) := by
  cases h with
  | keep => exact .keep
  | drop => exact .drop
  | @accept _ a ha =>
    obtain ⟨⟨message, hmessage⟩, hat, hpasses⟩ := ha
    cases hnew : peekSignerState (some ((seatRecorder net seat).record a os)) slot with
    | none => exact .drop
    | some =>
      have hfind := getSignerStateForSlot_recordIn (fun s hs ↦ a.plan.slot_record hmessage hs)
        a.plan.slot_fresh hnew
      rw [OperatorState.getSignerStateForSlot_getD_new] at hfind
      rcases hfind with ⟨hslot, rfl⟩ | ⟨hslot, hold⟩
      · rw [filter_some, if_pos (decide_eq_true hslot)]
        refine Recorder.Step.accept (R := slotRecorder net seat slot)
          ⟨⟨message, hmessage⟩, hat, hslot, fun s hs ↦ ?_⟩
        exact hpasses.slot s (hslot ▸ hs)
      · rw [filter_some, if_neg (by simpa using hslot), hold]
        exact .keep

/-! ### Runs -/

/-- A message comes in, or the cache drops a state that has not been used for long. -/
inductive ValidatorEvent where
  | message (rc : Receipt) (data : Bytes)
  | expire (key : Bytes)

namespace ValidatorEvent

variable (net) in
def next (σ : States) : ValidatorEvent → States
  | message rc data => (validate net rc data σ).1
  | expire key => fun k ↦ if k = key then none else σ k

variable (net) in
/-- The message that is accepted at a seat. -/
def entry (σ : States) (seat : Seat) : ValidatorEvent → Option Accepted
  | message rc data => acceptedAt net rc data σ seat
  | expire _ => none

variable (net) in
/-- The order of the places after the event. -/
def reseat (σ : States) (seating : Bytes → List OperatorID) :
    ValidatorEvent → Bytes → List OperatorID
  | message rc data =>
    match planOf net rc data with
    | .ok p => p.reseat σ seating
    | .error _ => seating
  | expire _ => seating

variable (net) in
/-- No message lists its committee in another order than the state it meets. -/
def keepsOrder (σ : States) (seating : Bytes → List OperatorID) : ValidatorEvent → Bool
  | message rc data =>
    match planOf net rc data with
    | .ok p => p.keepsOrder σ seating
    | .error _ => true
  | expire _ => true

variable {event : ValidatorEvent}

theorem keepsOrder_of_plan (h : keepsOrder net σ seating (message rc data) = true)
    (hplan : planOf net rc data = .ok p) : p.keepsOrder σ seating = true := by
  simpa only [keepsOrder, hplan] using h

theorem reseat_of_plan (hplan : planOf net rc data = .ok p) :
    reseat net σ seating (message rc data) = p.reseat σ seating := by
  simp only [reseat, hplan]

theorem entry_eq_some {a : Accepted} (h : event.entry net σ seat = some a) :
    (∃ data, event = .message a.receipt data ∧ planOf net a.receipt data = .ok a.plan) ∧
    a.plan.At seat ∧
    a.plan.check net a.receipt (validatorState net σ a.plan.key a.plan.ci) = .ok () := by
  cases event with
  | expire => cases h
  | message rc data =>
    obtain ⟨p, hp, rfl⟩ := map_eq_some_iff.1 h
    obtain ⟨haccepted, hat⟩ := filter_eq_some_iff.1 hp
    unfold acceptedPlan at haccepted
    split at haccepted
    · next p' haccept hplan =>
      cases haccepted
      rcases validate_cases data σ with ⟨-, p', hplan', hcheck, -⟩ | ⟨hne, -⟩
      · obtain rfl := Except.ok.inj (hplan.symm.trans hplan')
        exact ⟨⟨data, rfl, hplan⟩, of_decide_eq_true hat, hcheck⟩
      · exact absurd haccept hne
    · cases haccepted

/-- What is remembered at the seat of an accepted message, its checks have read. -/
theorem seatState_of_entry {a : Accepted} (horder : event.keepsOrder net σ seating = true)
    (h : event.entry net σ seat = some a) :
    seatState seating σ seat = (validatorState net σ a.plan.key a.plan.ci).peekOperatorState
      (a.plan.ci.signerIndex seat.signer) := by
  obtain ⟨⟨data, rfl, hplan⟩, hat, -⟩ := entry_eq_some h
  obtain ⟨message, hmessage⟩ := exists_plan_of_planOf hplan
  exact seatState_of_at hmessage (keepsOrder_of_plan horder hplan) hat

/-- **One event at a seat.** A message is accepted there and recorded, or what is remembered stays
or is dropped. -/
theorem seatStep (hσ : σ.WellFormed net seating) (horder : event.keepsOrder net σ seating = true)
    (seat : Seat) :
    (seatRecorder net seat).Step (event.entry net σ seat) (seatState seating σ seat)
      (seatState (event.reseat net σ seating) (event.next net σ) seat) := by
  cases event with
  | expire key =>
    by_cases hkey : seat.key = key
    · simp only [seatState, next, if_pos hkey, bind_none]
      exact .drop
    · simp only [seatState, next, if_neg hkey]
      exact .keep
  | message rc data =>
    rw [entry, next]
    rcases validate_cases data σ with ⟨haccept, p, hplan, hcheck, hstate⟩ |
      ⟨hne, ⟨hstate, e, hplan⟩ | ⟨p, hplan, hstate⟩⟩
    · obtain ⟨message, hmessage⟩ := exists_plan_of_planOf hplan
      have hkeeps := keepsOrder_of_plan horder hplan
      have hentry : acceptedAt net rc data σ seat = if p.At seat then some ⟨rc, p⟩ else none := by
        rw [acceptedAt, acceptedPlan_of_accept haccept hplan, filter_some]
        by_cases hat : p.At seat <;> simp [hat]
      rw [hstate, hentry, reseat_of_plan hplan]
      refine seatStep_set hkeeps ?_ (fun hkey ↦ if_neg fun hat ↦ hkey hat.1) fun hkey hid hmem ↦ ?_
      · rw [p.committeeID_update hmessage, committeeID_validatorState]
      · exact seatStep_update hmessage hσ hkeeps hcheck hkey hid hmem
    · rw [acceptedAt, acceptedPlan_of_ne hne, hstate]
      simp only [reseat, hplan]
      exact .keep
    · have hkeeps := keepsOrder_of_plan horder hplan
      rw [acceptedAt, acceptedPlan_of_ne hne, hstate, reseat_of_plan hplan]
      refine seatStep_set hkeeps (committeeID_validatorState σ p.key p.ci) (fun _ ↦ rfl) ?_
      intro hkey hid _
      rw [peek_validatorState net hkeeps hkey hid]
      exact .keep

theorem wellFormed (hσ : σ.WellFormed net seating)
    (horder : event.keepsOrder net σ seating = true) :
    (event.next net σ).WellFormed net (event.reseat net σ seating) := by
  cases event with
  | expire =>
    intro key' st hst
    simp only [next] at hst
    split at hst
    · cases hst
    · exact hσ key' st hst
  | message rc data =>
    rw [next]
    rcases validate_cases data σ with ⟨-, p, hplan, -, hstate⟩ |
      ⟨-, ⟨hstate, e, hplan⟩ | ⟨p, hplan, hstate⟩⟩
    · obtain ⟨message, hmessage⟩ := exists_plan_of_planOf hplan
      have hkeeps := keepsOrder_of_plan horder hplan
      rw [hstate, p.update_state hmessage, reseat_of_plan hplan]
      exact hσ.set hkeeps ((fits_validatorState hσ hkeeps).foldl_modifyAt _ _)
    · simp only [hstate, reseat, hplan]
      exact hσ
    · have hkeeps := keepsOrder_of_plan horder hplan
      rw [hstate, reseat_of_plan hplan]
      exact hσ.set hkeeps (fits_validatorState hσ hkeeps)

end ValidatorEvent

/-- The validator, with the order of the places in its states and the messages accepted, newest
first, at each seat and for each slot while there is a state. -/
structure LoggedRun where
  states : States
  seating : Bytes → List OperatorID
  atSeat : Seat → List Accepted
  atSlot : Seat → ℕ → List Accepted

namespace LoggedRun

def start : LoggedRun where
  states := fun _ ↦ none
  seating := fun _ ↦ []
  atSeat := fun _ ↦ []
  atSlot := fun _ _ ↦ []

variable (run : LoggedRun)

/-- What is remembered of the operator at a seat. -/
def seatState (seat : Seat) : Option OperatorState :=
  Validation.seatState run.seating run.states seat

/-- What is remembered of the operator for a slot. -/
def slotState (seat : Seat) (slot : ℕ) : Option SignerStateForSlotRound :=
  peekSignerState (run.seatState seat) slot

variable (net) in
def next (event : ValidatorEvent) : LoggedRun :=
  let states := event.next net run.states
  let seating := event.reseat net run.states run.seating
  { states := states
    seating := seating
    atSeat := fun seat ↦ Recorder.logged (Validation.seatState seating states seat).isSome
      (event.entry net run.states seat) (run.atSeat seat)
    atSlot := fun seat slot ↦
      Recorder.logged (peekSignerState (Validation.seatState seating states seat) slot).isSome
        ((event.entry net run.states seat).filter (·.plan.slot = slot)) (run.atSlot seat slot) }

variable (net) in
/-- No message lists its committee in another order than the state it meets. -/
def keepsOrder (event : ValidatorEvent) : Prop :=
  event.keepsOrder net run.states run.seating = true

instance {run : LoggedRun} {event : ValidatorEvent} : Decidable (run.keepsOrder net event) :=
  inferInstanceAs (Decidable (_ = true))

end LoggedRun

variable (net) in
/-- The validator under all messages. -/
def loggedMachine : Machine LoggedRun ValidatorEvent where
  initial run := run = .start
  enabled _ _ := True
  next := LoggedRun.next net

variable (net) in
/-- The runs in which the order of the places is kept. -/
def orderedMachine : Machine LoggedRun ValidatorEvent :=
  (loggedMachine net).restrict (LoggedRun.keepsOrder net)

instance {run : LoggedRun} {event : ValidatorEvent} :
    Decidable ((orderedMachine net).enabled run event) :=
  inferInstanceAs (Decidable (True ∧ run.keepsOrder net event))

theorem mem_atSeat_foldl {events : List ValidatorEvent} {run : LoggedRun} {a : Accepted}
    (h : a ∈ (events.foldl (LoggedRun.next net) run).atSeat seat) :
    a ∈ run.atSeat seat ∨ ∃ data, .message a.receipt data ∈ events := by
  induction events generalizing run with
  | nil => exact .inl h
  | cons event events ih =>
    rcases ih h with hlogged | ⟨data, hmem⟩
    · unfold LoggedRun.next Recorder.logged at hlogged
      dsimp only at hlogged
      split at hlogged
      · rcases List.mem_append.1 hlogged with hentry | hold
        · obtain ⟨⟨data, rfl, -⟩, -⟩ := ValidatorEvent.entry_eq_some (mem_toList.1 hentry)
          exact .inr ⟨data, .head _⟩
        · exact .inl hold
      · cases hlogged
    · exact .inr ⟨data, .tail _ hmem⟩

section

variable {event : ValidatorEvent} {run : LoggedRun}

theorem wellFormed_of_reachable (hrun : (orderedMachine net).Reachable run) :
    run.states.WellFormed net run.seating := by
  refine hrun.invariant (P := fun run ↦ run.states.WellFormed net run.seating) ?_ ?_
  · rintro run rfl
    exact nofun
  · exact fun run event _ hσ henabled ↦ ValidatorEvent.wellFormed hσ henabled.2

variable {C : LoggedRun → ValidatorEvent → Prop}

section

variable (hrun : ((orderedMachine net).restrict C).Reachable run)
include hrun

/-- **The log of a seat is a history of the state there**, of good messages. -/
theorem seat_history {D : List Accepted → Option OperatorState → Accepted → Prop}
    (hD : ∀ run event a, (orderedMachine net).enabled run event → C run event →
      event.entry net run.states seat = some a → D (run.atSeat seat) (run.seatState seat) a) :
    (seatRecorder net seat).History D (run.atSeat seat) (run.seatState seat) := by
  refine hrun.invariant
    (P := fun run ↦ (seatRecorder net seat).History D (run.atSeat seat) (run.seatState seat)) ?_ ?_
  · rintro run rfl
    exact .empty
  · rintro run event hreach h ⟨henabled, hC⟩
    have hσ := wellFormed_of_reachable hreach.of_restrict
    exact h.step (ValidatorEvent.seatStep hσ henabled.2 seat) fun a ↦ hD run event a henabled hC

/-- **The log of a slot is a history of the slot state**, likewise. -/
theorem slot_history {slot : ℕ}
    {D : List Accepted → Option SignerStateForSlotRound → Accepted → Prop}
    (hD : ∀ run event a, (orderedMachine net).enabled run event → C run event →
      event.entry net run.states seat = some a → a.plan.slot = slot →
      D (run.atSlot seat slot) (run.slotState seat slot) a) :
    (slotRecorder net seat slot).History D (run.atSlot seat slot) (run.slotState seat slot) := by
  refine hrun.invariant (P := fun run ↦
    (slotRecorder net seat slot).History D (run.atSlot seat slot) (run.slotState seat slot)) ?_ ?_
  · rintro run rfl
    exact .empty
  · rintro run event hreach h ⟨henabled, hC⟩
    have hσ := wellFormed_of_reachable hreach.of_restrict
    refine h.step (slotStep (ValidatorEvent.seatStep hσ henabled.2 seat) slot) fun a ha ↦ ?_
    obtain ⟨hentry, hslot⟩ := filter_eq_some_iff.1 ha
    exact hD run event a henabled hC hentry (of_decide_eq_true hslot)

end

/-- Likewise in every run in which the orders are kept. -/
theorem slot_history_of_ordered (hrun : (orderedMachine net).Reachable run) (seat : Seat)
    (slot : ℕ) : (slotRecorder net seat slot).History (fun _ _ _ ↦ True) (run.atSlot seat slot)
      (run.slotState seat slot) :=
  slot_history (hrun.restrict (C := fun _ _ ↦ True) fun _ _ ↦ trivial) fun _ _ _ _ _ _ _ ↦ trivial

/-! ### Conditions on the signers of a message -/

variable (net) in
/-- No authentic consensus message is bad for the slot state of a signer. -/
def keepsSigners (Bad : SignedSSVMessage → Message → SignerStateForSlotRound → Bool) (σ : States) :
    ValidatorEvent → Bool
  | .expire _ => true
  | .message rc data =>
    match planOf net rc data with
    | .ok (.consensus signed ci msg) =>
      !(verifySignatures rc signed).isOk || signed.operatorIDs.all fun signer ↦
        ((validatorState net σ signed.ssvMessage.msgID ci).signerAt
          (ci.signerIndex signer) msg.height).all fun s ↦ !Bad signed msg s
    | _ => true

/-- The same of an accepted message and the slot state of its signer. -/
def KeepsSigner (Bad : SignedSSVMessage → Message → SignerStateForSlotRound → Bool)
    (s : Option SignerStateForSlotRound) (a : Accepted) : Prop :=
  ∀ signed ci msg, a.plan = .consensus signed ci msg → ∀ s', s = some s' → Bad signed msg s' = false

variable {Bad : SignedSSVMessage → Message → SignerStateForSlotRound → Bool} {a : Accepted}

theorem keepsSigners_at (henabled : (orderedMachine net).enabled run event)
    (h : keepsSigners net Bad run.states event = true)
    (hentry : event.entry net run.states seat = some a) :
    KeepsSigner Bad (run.slotState seat a.plan.slot) a := by
  rw [LoggedRun.slotState, LoggedRun.seatState, event.seatState_of_entry henabled.2 hentry]
  obtain ⟨⟨data, rfl, hplan⟩, hat, hcheck⟩ := ValidatorEvent.entry_eq_some hentry
  obtain ⟨rc, p⟩ := a
  rintro signed ci msg ⟨⟩ s hs
  have hverify := verifySignatures_of_check hcheck
  simp only [keepsSigners, hplan, hverify, Except.isOk, Except.toBool, Bool.not_true,
    Bool.false_or, List.all_eq_true] at h
  have hsigner := h seat.signer hat.2.2
  rw [show (validatorState net run.states signed.ssvMessage.msgID ci).signerAt
    (ci.signerIndex seat.signer) msg.height = some s from hs] at hsigner
  simpa using hsigner

/-- The log of a slot is a history in which no message was bad. -/
theorem slot_history_of_keepsSigners (hrun : ((orderedMachine net).restrict fun run event ↦
      keepsSigners net Bad run.states event = true).Reachable run) (seat : Seat) (slot : ℕ) :
    (slotRecorder net seat slot).History (fun _ s a ↦ KeepsSigner Bad s a) (run.atSlot seat slot)
      (run.slotState seat slot) := by
  refine slot_history hrun fun run event a henabled hkeeps hentry hslot ↦ ?_
  exact hslot ▸ keepsSigners_at henabled hkeeps hentry

end

end

namespace Reference

/-- Messages received at their times, from two peers in turn. -/
def incoming (messages : List (Int × WireMessage)) : List ValidatorEvent :=
  messages.zipIdx.map fun ((receivedAt, message), i) ↦
    .message (receipt (if i % 2 = 0 then "peer" else "other peer") receivedAt)
      (wireMessageCodec.write message)

def loggedRunOf (net : Network) (events : List ValidatorEvent) : LoggedRun :=
  events.foldl (LoggedRun.next net) .start

theorem reachable_loggedMachine (net : Network) (events : List ValidatorEvent) :
    (loggedMachine net).Reachable (loggedRunOf net events) := by
  refine (Machine.Reachable.initial rfl).foldl ?_
  generalize LoggedRun.start = run
  induction events generalizing run with
  | nil => trivial
  | cons event events ih => exact ⟨trivial, ih _⟩

theorem reachable_loggedRunOf {net : Network} {events : List ValidatorEvent}
    {M : Machine LoggedRun ValidatorEvent} (hinit : M.initial .start)
    (hnext : M.next = LoggedRun.next net) (h : M.Enables .start events) :
    M.Reachable (loggedRunOf net events) := by
  rw [loggedRunOf, ← hnext]
  exact (Machine.Reachable.initial hinit).foldl h

/-- The node knows a validator, with its operators in an order. -/
def validatorReceipt (operators : List OperatorID) : Receipt :=
  { receipt "peer" second with
    validator := fun _ ↦ some
      { committeeID := List.replicate 32 0, committee := operators, validatorIndex := 17
        liquidated := false, hasBeaconMetadata := true, statusIsAttesting := true
        pendingQueued := false, activationEpoch := 0, booleCommitteeSubnet := 5
        alanCommitteeSubnet := 5 } }

def committeeSeat (op : OperatorID) : Seat where
  key := committeeMsgID
  committeeID := List.replicate 32 0
  signer := op

end Reference

end Ssv.Validation
