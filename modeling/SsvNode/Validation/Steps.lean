import SsvNode.Validation.Recording

/-!
# The steps of the validator

What can be done without a state yields a `Plan`, which checks and updates the state under the
message's ID (`handleSignedSSVMessage_run`). The updates do not fail (`Plan.update_succeeds`), so
that a step that fails has at most put a fresh state in place (`Plan.step_cases`).
-/

namespace Ssv.Validation

open Checks

open Checks (require)
open ValidationSpec

theorem guarded_run {σ : Type} (check : σ → Except Err Unit) (update : Act Err Empty σ Unit)
    (s : σ) :
    (guarded check update).run s = match check s with
      | .error e => ⟨s, [], .error e⟩
      | .ok _ => update.run s := by
  change (Act.lift (check s) >>= fun _ ↦ update).run s = _
  cases check s with
  | error | ok => rfl

theorem handleValidationError_ne_accept (e : Err) : handleValidationError e ≠ .accept := by
  unfold handleValidationError
  grind

variable [ValidationSpec] {net : Network} {rc : Receipt}

/-! ### What a step does with the states -/

/-- What is left of a message once all that needs no state is done. -/
inductive Plan where
  | consensus (signed : SignedSSVMessage) (ci : CommitteeInfo) (msg : Message)
  | partialSignature (signed : SignedSSVMessage) (ci : CommitteeInfo) (m : PartialSignatureMessages)
      (signer : OperatorID)

namespace Plan

def signed : Plan → SignedSSVMessage
  | consensus signed _ _ => signed
  | partialSignature signed _ _ _ => signed

def key (p : Plan) : Bytes := p.signed.ssvMessage.msgID

def ci : Plan → CommitteeInfo
  | consensus _ ci _ => ci
  | partialSignature _ ci _ _ => ci

variable (net rc) in
def check : Plan → ValidatorState → Except Err Unit
  | consensus signed ci msg => checkConsensusMessage net rc signed msg ci
  | partialSignature signed ci m signer => checkPartialSignatureMessage net rc signed m signer ci

variable (net rc) in
def update : Plan → Act Err Empty ValidatorState Unit
  | consensus signed ci msg => updateConsensusState net rc signed msg ci
  | partialSignature _ ci m signer => updatePartialSignatureState net rc m signer ci

variable (net rc) in
def step (p : Plan) : Act Err Empty ValidatorState Unit :=
  guarded (p.check net rc) (p.update net rc)

end Plan

variable (net rc) in
/-- The part of `handleSignedSSVMessage` that needs no state. -/
def plan (message : Option WireMessage) : Except Err Plan := do
  let (signed, ci) ← admission net rc message
  match signed.ssvMessage.msgType with
  | .ssvConsensusMsgType => return .consensus signed ci (← decodeConsensusMessage net rc signed ci)
  | .ssvPartialSignatureMsgType =>
    let (m, signer) ← decodePartialSignatureMessage net rc signed ci
    return .partialSignature signed ci m signer
  | .other _ => .error (.text "unreachable: message type assertion should have been done")

variable (net rc) in
/-- **All that a step does.** A message that gets to its state replaces it as planned. -/
theorem handleSignedSSVMessage_run (message : Option WireMessage) (σ : States) :
    ((handleSignedSSVMessage net rc message).run σ).state = (match plan net rc message with
      | .error _ => σ
      | .ok p => σ.set p.key ((p.step net rc).run (validatorState net σ p.key p.ci)).state) ∧
    ((handleSignedSSVMessage net rc message).run σ).result = (match plan net rc message with
      | .error e => .error e
      | .ok p => ((p.step net rc).run (validatorState net σ p.key p.ci)).result) := by
  unfold handleSignedSSVMessage plan
  cases hadmitted : admission net rc message with
  | error => exact ⟨rfl, rfl⟩
  | ok admitted =>
    obtain ⟨signed, ci⟩ := admitted
    rw [Act.lift_ok_bind]
    cases htype : signed.ssvMessage.msgType with
    | other =>
      simp only [htype, bind, Except.bind]
      exact ⟨rfl, rfl⟩
    | ssvConsensusMsgType =>
      simp only [htype, validateConsensusMessage]
      cases hdecode : decodeConsensusMessage net rc signed ci with
      | error =>
        simp only [bind, Except.bind, hdecode, htype]
        exact ⟨rfl, rfl⟩
      | ok =>
        simp only [Act.lift_ok_bind]
        simp only [bind, Except.bind, hdecode, htype]
        exact ⟨rfl, rfl⟩
    | ssvPartialSignatureMsgType =>
      simp only [htype, validatePartialSignatureMessage]
      cases hdecode : decodePartialSignatureMessage net rc signed ci with
      | error =>
        simp only [bind, Except.bind, hdecode, htype]
        exact ⟨rfl, rfl⟩
      | ok =>
        simp only [Act.lift_ok_bind]
        simp only [bind, Except.bind, hdecode, htype]
        exact ⟨rfl, rfl⟩

theorem committeeID_validatorState (σ : States) (key : Bytes) (ci : CommitteeInfo) :
    (validatorState net σ key ci).committeeID = ci.committeeID := by
  unfold validatorState
  split
  · rfl
  · split
    · next h => exact h
    · rfl

/-! ### What a plan has checked -/

variable {signed : SignedSSVMessage} {message : Option WireMessage} {p : Plan}

theorem validConsensusMsgType_of_semantics {msg : Message} {committee : List OperatorID}
    (h : validateConsensusMessageSemantics net signed msg committee = .ok ()) :
    validConsensusMsgType msg.msgType = true := by
  simp only [validateConsensusMessageSemantics, bind_eq_ok, exists_check,
    require_eq_ok] at h
  exact h.2.2.2.2.1

theorem validPartialSigMsgType_of_semantics
    {m : PartialSignatureMessages} {validatorIndices : List ℕ} {signer : OperatorID}
    (h : validatePartialSignatureMessageSemantics net signed m validatorIndices = .ok signer) :
    validPartialSigMsgType m.type = true ∧ signed.operatorIDs = [signer] := by
  simp only [validatePartialSignatureMessageSemantics, bind_eq_ok, exists_check,
    require_eq_ok] at h
  obtain ⟨-, h⟩ := h
  split at h
  · next signer' hsigner =>
    simp only [bind_eq_ok, exists_check, require_eq_ok] at h
    obtain ⟨-, htype, -, h⟩ := h
    split at h
    · cases h
    · simp only [bind_eq_ok, exists_check, pure_eq_ok] at h
      exact ⟨htype, by rw [hsigner, h.2.2]⟩
  · cases h

theorem admission_spec {ci : CommitteeInfo} (h : admission net rc message = .ok (signed, ci)) :
    (∃ wire, message = some wire ∧ wire.ssvMessage = some signed.ssvMessage) ∧
    getCommitteeAndValidatorIndices net rc signed.ssvMessage.msgID = .ok ci ∧
    ∀ signer ∈ signed.operatorIDs, signer ∈ ci.committee := by
  simp only [admission, bind_eq_ok, exists_check, pure_eq_ok] at h
  obtain ⟨-, signed', hsigned, -, -, ci', hci, hcommittee, -, heq⟩ := h
  cases heq
  refine ⟨?_, hci, require_eq_ok.1 hcommittee⟩
  cases message with
  | none => cases hsigned
  | some wire =>
    simp only [validateSignedSSVMessage, bind_eq_ok, exists_check] at hsigned
    obtain ⟨-, -, -, -, -, -, hsigned⟩ := hsigned
    split at hsigned
    · cases hsigned
    · next ssvMessage hssv =>
      cases hsigned
      exact ⟨wire, rfl, hssv⟩

theorem plan_cases (h : plan net rc message = .ok p) :
    admission net rc message = .ok (p.signed, p.ci) ∧
    match p with
    | .consensus signed ci msg => decodeConsensusMessage net rc signed ci = .ok msg
    | .partialSignature signed ci m signer =>
      decodePartialSignatureMessage net rc signed ci = .ok (m, signer) := by
  rw [plan, bind_eq_ok] at h
  obtain ⟨⟨signed, ci⟩, hadmitted, h⟩ := h
  simp only at h
  split at h
  · simp only [bind_eq_ok, pure_eq_ok] at h
    obtain ⟨msg, hmsg, rfl⟩ := h
    exact ⟨hadmitted, hmsg⟩
  · simp only [bind_eq_ok, pure_eq_ok] at h
    obtain ⟨⟨m, signer⟩, hm, rfl⟩ := h
    exact ⟨hadmitted, hm⟩
  · cases h

/-- The checks that come before the state is read have fixed the kind of the message. -/
theorem plan_valid (h : plan net rc message = .ok p) : match p with
    | .consensus _ _ msg => validConsensusMsgType msg.msgType = true
    | .partialSignature signed _ m signer =>
      validPartialSigMsgType m.type = true ∧ signed.operatorIDs = [signer] := by
  have hdecode := (plan_cases h).2
  cases p with
  | consensus =>
    simp only [decodeConsensusMessage, bind_eq_ok, exists_check,
      pure_eq_ok] at hdecode
    obtain ⟨-, msg', -, -, -, hsemantics, rfl⟩ := hdecode
    exact validConsensusMsgType_of_semantics hsemantics
  | partialSignature =>
    simp only [decodePartialSignatureMessage, bind_eq_ok, exists_check,
      pure_eq_ok] at hdecode
    obtain ⟨-, m', -, -, -, signer', hsemantics, heq⟩ := hdecode
    cases heq
    exact validPartialSigMsgType_of_semantics hsemantics

theorem verifySignatures_of_check {ci : CommitteeInfo} {msg : Message}
    {st : ValidatorState} (h : checkConsensusMessage net rc signed msg ci st = .ok ()) :
    verifySignatures rc signed = .ok () := by
  simp only [checkConsensusMessage, bind_eq_ok, exists_check] at h
  exact h.2.2.2

/-! ### A failed step changes nothing -/

/-- The updates of a message that was checked do not fail. -/
theorem Plan.update_succeeds (h : plan net rc message = .ok p) (st : ValidatorState) :
    ((p.update net rc).run st).result = .ok () := by
  have hvalid := plan_valid h
  cases p with
  | consensus =>
    exact (Act.wp_forM (I := fun _ ↦ True) (fun signer _ st _ ↦
      Act.wp_mono (updateSignerConsensusState_ok hvalid st) fun _ _ _ hr ↦ ⟨hr, trivial⟩) st
        trivial).1
  | partialSignature => exact updatePartialSignatureState_ok hvalid.1 st

/-- **A step that fails leaves the state it was given**, and one that succeeds has passed its
checks. -/
theorem Plan.step_cases (h : plan net rc message = .ok p) (st : ValidatorState) :
    (∃ e, ((p.step net rc).run st).result = .error e ∧ ((p.step net rc).run st).state = st) ∨
    (p.check net rc st = .ok () ∧ ((p.step net rc).run st).result = .ok () ∧
      ((p.step net rc).run st).state = ((p.update net rc).run st).state) := by
  rw [step, guarded_run]
  cases hcheck : p.check net rc st with
  | error e => exact .inl ⟨e, rfl, rfl⟩
  | ok => exact .inr ⟨rfl, p.update_succeeds h st, rfl⟩

/-! ### Verdicts -/

variable (net rc) in
def planOf (data : Bytes) : Except Err Plan := do
  plan net rc (some (← decodePubsubMessage rc data))

theorem exists_plan_of_planOf {data : Bytes} (h : planOf net rc data = .ok p) :
    ∃ message, plan net rc message = .ok p := by
  obtain ⟨wire, -, hplan⟩ := bind_eq_ok.1 h
  exact ⟨some wire, hplan⟩

/-- **An accepted message** has a plan whose checks pass; any other at most puts a fresh state in
place. -/
theorem validate_cases (data : Bytes) (σ : States) :
    ((validate net rc data σ).2 = .accept ∧ ∃ p, planOf net rc data = .ok p ∧
      p.check net rc (validatorState net σ p.key p.ci) = .ok () ∧
      (validate net rc data σ).1 =
        σ.set p.key ((p.update net rc).run (validatorState net σ p.key p.ci)).state) ∨
    ((validate net rc data σ).2 ≠ .accept ∧
      (((validate net rc data σ).1 = σ ∧ ∃ e, planOf net rc data = .error e) ∨
      ∃ p, planOf net rc data = .ok p ∧
        (validate net rc data σ).1 = σ.set p.key (validatorState net σ p.key p.ci))) := by
  unfold validate planOf
  cases hdecode : decodePubsubMessage rc data with
  | error e => exact .inr ⟨handleValidationError_ne_accept e, .inl ⟨rfl, e, rfl⟩⟩
  | ok wire =>
    simp only [Act.lift_ok_bind]
    obtain ⟨hstate, hresult⟩ := handleSignedSSVMessage_run net rc (some wire) σ
    change _ ∨ (_ ∧ ((_ ∧ ∃ e, plan net rc (some wire) = .error e) ∨
      ∃ p, plan net rc (some wire) = .ok p ∧ _))
    cases hplan : plan net rc (some wire) with
    | error e =>
      simp only [hplan] at hstate hresult
      simp only [hresult, hstate]
      exact .inr ⟨handleValidationError_ne_accept e, .inl ⟨trivial, e, rfl⟩⟩
    | ok p =>
      simp only [hplan] at hstate hresult
      rcases p.step_cases hplan (validatorState net σ p.key p.ci) with
        ⟨e, herror, hsame⟩ | ⟨hcheck, hok, hupdate⟩
      · rw [herror] at hresult
        rw [hsame] at hstate
        simp only [hresult, hstate]
        exact .inr ⟨handleValidationError_ne_accept e, .inr ⟨p, rfl, rfl⟩⟩
      · rw [hok] at hresult
        rw [hupdate] at hstate
        simp only [hresult, hstate]
        exact .inl ⟨trivial, p, hplan, hcheck, rfl⟩

end Ssv.Validation
