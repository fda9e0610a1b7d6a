import SsvNode.Validation.ReferenceSpec
import SsvNode.Validation.Steps

/-!
# Only authenticated messages change the validation state

A message that fails leaves at most a fresh state under its ID, where there was none for the
committee. The next message of the ID would have put it there too, so that no later verdict depends
on the failed one. `Agree` relates the states of the two runs.
-/

namespace Ssv.Validation

section

variable [ValidationSpec] {net : Network}

/-- The verdicts on a sequence of messages, each with what it meets. -/
def verdicts (net : Network) : List (Receipt × Bytes) → States → List ValidationResult
  | [], _ => []
  | (rc, data) :: rest, σ =>
    (validate net rc data σ).2 :: verdicts net rest (validate net rc data σ).1

variable (net) in
/-- The committee of a message ID is still that of `rc`. -/
def SameCommittee (rc : Receipt) (key : Bytes) (rc' : Receipt) : Prop :=
  ∀ ci ci', getCommitteeAndValidatorIndices net rc key = .ok ci →
    getCommitteeAndValidatorIndices net rc' key = .ok ci' →
    ci'.committeeID = ci.committeeID ∧ ci'.committee.length = ci.committee.length

/-! ### Agreement of states -/

variable (net) in
/-- No message of the committee `ci` under `key`, and none of another ID, can tell the states apart.
-/
structure Agree (key : Bytes) (ci : CommitteeInfo) (σ σ' : States) : Prop where
  other : ∀ k, k ≠ key → σ' k = σ k
  same : ∀ ci', ci'.committeeID = ci.committeeID → ci'.committee.length = ci.committee.length →
    validatorState net σ' key ci' = validatorState net σ key ci'

variable {ci : CommitteeInfo} {key : Bytes} {σ σ' : States}

theorem validatorState_congr {ci' : CommitteeInfo}
    (hid : ci'.committeeID = ci.committeeID) (hlen : ci'.committee.length = ci.committee.length) :
    validatorState net σ key ci' = validatorState net σ key ci := by
  simp only [validatorState, freshState, hid, hlen]

theorem validatorState_set {st : ValidatorState}
    (h : st.committeeID = ci.committeeID) : validatorState net (σ.set key st) key ci = st := by
  simp only [validatorState, States.set, if_true, h]

/-- Putting a committee's state in place is not seen by its messages. -/
theorem agree_set_validatorState (σ : States) (key : Bytes) (ci : CommitteeInfo) :
    Agree net key ci σ (σ.set key (validatorState net σ key ci)) := by
  refine ⟨fun k hk ↦ if_neg hk, fun ci' hid hlen ↦ ?_⟩
  rw [validatorState_set ((committeeID_validatorState σ key ci).trans hid.symm),
    validatorState_congr hid hlen]

/-- **A step keeps agreement** and gets the same result, if its committee is still the same. -/
theorem Agree.handleSignedSSVMessage
    (h : Agree net key ci σ σ') {rc : Receipt} (message : Option WireMessage)
    (hrc : ∀ ci', getCommitteeAndValidatorIndices net rc key = .ok ci' →
      ci'.committeeID = ci.committeeID ∧ ci'.committee.length = ci.committee.length) :
    ((handleSignedSSVMessage net rc message).run σ').result =
      ((handleSignedSSVMessage net rc message).run σ).result ∧
    Agree net key ci ((handleSignedSSVMessage net rc message).run σ).state
      ((handleSignedSSVMessage net rc message).run σ').state := by
  obtain ⟨hstate, hresult⟩ := handleSignedSSVMessage_run net rc message σ
  obtain ⟨hstate', hresult'⟩ := handleSignedSSVMessage_run net rc message σ'
  rw [hstate, hstate', hresult, hresult']
  cases hplan : plan net rc message with
  | error => exact ⟨rfl, h⟩
  | ok p =>
    simp only
    have hci := (admission_spec (plan_cases hplan).1).2.1
    have hsame : validatorState net σ' p.key p.ci = validatorState net σ p.key p.ci := by
      by_cases hkey : p.key = key
      · obtain ⟨hid, hlen⟩ := hrc p.ci (hkey ▸ hci)
        rw [hkey]
        exact h.same p.ci hid hlen
      · simp only [validatorState, h.other p.key hkey]
    rw [hsame]
    refine ⟨rfl, fun k hk ↦ ?_, fun ci' hid hlen ↦ ?_⟩
    · unfold States.set
      split
      · rfl
      · exact h.other k hk
    · by_cases hkey : key = p.key
      · simp only [validatorState, States.set, hkey, if_true]
      · have hset : ∀ (σ : States) st, validatorState net (σ.set p.key st) key ci' =
            validatorState net σ key ci' := fun σ st ↦ by
          simp only [validatorState, States.set, if_neg hkey]
        rw [hset, hset]
        exact h.same ci' hid hlen

theorem Agree.validate (h : Agree net key ci σ σ') {rc : Receipt} (data : Bytes)
    (hrc : ∀ ci', getCommitteeAndValidatorIndices net rc key = .ok ci' →
      ci'.committeeID = ci.committeeID ∧ ci'.committee.length = ci.committee.length) :
    (validate net rc data σ').2 = (validate net rc data σ).2 ∧
    Agree net key ci (validate net rc data σ).1 (validate net rc data σ').1 := by
  unfold Validation.validate
  cases hdecode : decodePubsubMessage rc data with
  | error => exact ⟨rfl, h⟩
  | ok wire =>
    simp only [Act.lift_ok_bind]
    obtain ⟨hresult, hagree⟩ := h.handleSignedSSVMessage (some wire) hrc
    rw [hresult]
    cases ((Validation.handleSignedSSVMessage net rc (some wire)).run σ).result with
    | error | ok => exact ⟨rfl, hagree⟩

theorem Agree.verdicts (h : Agree net key ci σ σ') {later : List (Receipt × Bytes)}
    (hlater : ∀ m ∈ later, ∀ ci', getCommitteeAndValidatorIndices net m.1 key = .ok ci' →
      ci'.committeeID = ci.committeeID ∧ ci'.committee.length = ci.committee.length) :
    verdicts net later σ' = verdicts net later σ := by
  induction later generalizing σ σ' with
  | nil => rfl
  | cons m rest ih =>
    obtain ⟨hresult, hagree⟩ := h.validate m.2 (hlater m (.head _))
    rw [Validation.verdicts, Validation.verdicts, hresult,
      ih hagree fun m' hm' ↦ hlater m' (.tail _ hm')]

/-! ### The result -/

/-- **A failed message is as if it had never been received**: while the committee of its ID does not
change, the verdicts on the messages after it are the same without it. -/
theorem failed_message_unnoticed (net : Network) (rc : Receipt) (message : Option WireMessage)
    (σ : States) (e : Err)
    (hfailed : ((handleSignedSSVMessage net rc message).run σ).result = .error e)
    (later : List (Receipt × Bytes))
    (hcommittee : ∀ wire ssvMessage, message = some wire → wire.ssvMessage = some ssvMessage →
      ∀ m ∈ later, SameCommittee net rc ssvMessage.msgID m.1) :
    verdicts net later ((handleSignedSSVMessage net rc message).run σ).state =
      verdicts net later σ := by
  obtain ⟨hstate, hresult⟩ := handleSignedSSVMessage_run net rc message σ
  rw [hfailed] at hresult
  rw [hstate]
  cases hplan : plan net rc message with
  | error => rfl
  | ok p =>
    simp only [hplan] at hresult ⊢
    have hunchanged : ((p.step net rc).run (validatorState net σ p.key p.ci)).state =
        validatorState net σ p.key p.ci := by
      rcases p.step_cases hplan (validatorState net σ p.key p.ci) with ⟨_, _, h⟩ | ⟨_, hok, _⟩
      · exact h
      · rw [hok] at hresult
        cases hresult
    rw [hunchanged]
    obtain ⟨⟨wire, hwire, hssv⟩, hci, -⟩ := admission_spec (plan_cases hplan).1
    refine (agree_set_validatorState σ p.key p.ci).verdicts fun m hm ci' hci' ↦ ?_
    exact hcommittee wire _ hwire hssv m hm p.ci ci' hci hci'

end

/-- A message with a forged signature is rejected, and the operator's own is accepted. -/
theorem Reference.failed_message_unnoticed_forged :
    (∃ e, ((handleSignedSSVMessage Reference.network (Reference.receipt "peer" (5 * second))
      (some (Reference.postConsensus 1 0 (Reference.rsaSignature 2)))).run fun _ ↦ none).result =
        .error e) ∧
    verdicts Reference.network
      [(Reference.receipt "peer" (5 * second),
        Reference.wireMessageCodec.write (Reference.postConsensus 1 0 (Reference.rsaSignature 1)))]
      ((handleSignedSSVMessage Reference.network (Reference.receipt "peer" (5 * second))
        (some (Reference.postConsensus 1 0 (Reference.rsaSignature 2)))).run fun _ ↦ none).state =
      [.accept] := by
  have hfailed : ((handleSignedSSVMessage Reference.network (Reference.receipt "peer" (5 * second))
      (some (Reference.postConsensus 1 0 (Reference.rsaSignature 2)))).run fun _ ↦ none).result =
        .error (errSignatureVerification.withInner (.wrap "verify opid: 1 signature"
          (Err.text "crypto/rsa: verification error"))) := by decide +kernel
  refine ⟨⟨_, hfailed⟩, ?_⟩
  rw [failed_message_unnoticed _ _ _ _ _ hfailed _ fun wire ssvMessage _ _ m hm ci ci' hci hci' ↦ by
    cases List.mem_singleton.1 hm
    rw [hci] at hci'
    cases hci'
    exact ⟨rfl, rfl⟩]
  decide +kernel

end Ssv.Validation
