import SsvNode.Queue.Messages
import SsvNode.Qbft.Controller
import SsvNode.Qbft.ReferenceSpec

/-!
# Which messages count as decided

The controller takes a commit for decided if it has a quorum of signers, the prioritizers if it has
**more** than a quorum. The two differ at the quorum itself, the usual size of an aggregated commit.
Away from it they agree, and a decided message of another height is strictly preferred to every
other commit of its height class.
-/

namespace Ssv

namespace Queue

open List (byScore_eq_true)
open SsvSpec (getQuorum getQuorum_eq)

/-- What `DecodeSignedSSVMessage` makes of a signed QBFT message. -/
def SSVMessage.ofProcessing (pm : ProcessingMessage) : SSVMessage where
  signedSSVMessage := some pm.signedMessage
  ssvMessage := pm.signedMessage.ssvMessage
  body := .consensus pm.qbftMessage
  signed := fun _ _ ↦ rfl

theorem isDecidedMessage_ofProcessing (state : State) (pm : ProcessingMessage) :
    isDecidedMessage state (.ofProcessing pm) = true ↔
      pm.qbftMessage.msgType = .commit ∧ state.quorum < pm.signedMessage.operatorIDs.length := by
  simp [isDecidedMessage, SSVMessage.ofProcessing, SSVMessage.operatorIDs]

theorem isDecidedMsg_iff [SsvSpec] (c : Controller) (pm : ProcessingMessage) :
    c.isDecidedMsg pm = true ↔ pm.qbftMessage.msgType = .commit ∧
      getQuorum c.committeeMember ≤ pm.signedMessage.operatorIDs.length := by
  unfold Controller.isDecidedMsg
  rw [Bool.and_eq_true_iff, SsvSpec.memberHasQuorum_iff, getQuorum_eq, decide_eq_true_iff, and_comm]

theorem Prioritizer.prior_of_subtype_lt (p : Prioritizer) {state : State} {a b : SSVMessage}
    (htype : scoreMessageType a = scoreMessageType b)
    (hheight : compareHeightOrSlot state a = compareHeightOrSlot state b)
    (hscore : p.subtype state b < p.subtype state a) :
    p.prior state a b = true ∧ p.prior state b a = false := by
  rw [← Bool.not_eq_true, p.prior_eq]
  simp only [byScore_eq_true, htype, hheight, lt_irrefl, false_or, true_and]
  refine ⟨.inl hscore, ?_⟩
  rintro (h | ⟨h, -⟩) <;> omega

/-- Away from the current height, a decided message has a greater score than other commits of its
class. -/
theorem Prioritizer.subtype_lt_of_isDecidedMessage (p : Prioritizer) {state : State}
    {m other : ProcessingMessage} (hm : isDecidedMessage state (.ofProcessing m) = true)
    (hother : isDecidedMessage state (.ofProcessing other) = false)
    (hclass : compareHeightOrSlot state (.ofProcessing other) =
      compareHeightOrSlot state (.ofProcessing m))
    (hheight : compareHeightOrSlot state (.ofProcessing m) ≠ 0) :
    p.subtype state (.ofProcessing other) < p.subtype state (.ofProcessing m) := by
  have hclassify (x : ProcessingMessage) : classifyMessage (.ofProcessing x) =
      ⟨true, false, false, x.qbftMessage.msgType⟩ := rfl
  cases p with
  | standard =>
    show scoreMessageSubtype _ _ _ < scoreMessageSubtype _ _ _
    unfold scoreMessageSubtype scoreLowerHeight
    rw [hclass]
    simp only [hm, hother, hclassify]
    grind
  | committee =>
    show scoreCommitteeMessageSubtype _ _ _ < scoreCommitteeMessageSubtype _ _ _
    unfold scoreCommitteeMessageSubtype scoreLowerHeight
    rw [hclass]
    simp only [hm, hother, hclassify]
    grind

/-- The queue and the controller recognise the message alike, and if it is decided and of another
height both prioritizers strictly prefer it to the commits of its class that are not. -/
structure RecognisedAlike [SsvSpec] (c : Controller) (state : State) (m : ProcessingMessage) :
    Prop where
  agree : isDecidedMessage state (.ofProcessing m) = c.isDecidedMsg m
  preferred : c.isDecidedMsg m = true → compareHeightOrSlot state (.ofProcessing m) ≠ 0 →
    ∀ other : ProcessingMessage, other.qbftMessage.msgType = .commit →
      c.isDecidedMsg other = false →
      compareHeightOrSlot state (.ofProcessing other) = compareHeightOrSlot state
        (.ofProcessing m) →
      ∀ p : Prioritizer, p.prior state (.ofProcessing m) (.ofProcessing other) = true ∧
        p.prior state (.ofProcessing other) (.ofProcessing m) = false

/-- **The two recognitions of a decided message agree exactly away from the quorum size.** -/
theorem recognisedAlike_iff [SsvSpec] (c : Controller) (state : State)
    (hquorum : state.quorum = getQuorum c.committeeMember) (m : ProcessingMessage)
    (hcommit : m.qbftMessage.msgType = .commit) :
    RecognisedAlike c state m ↔ m.signedMessage.operatorIDs.length ≠ getQuorum
      c.committeeMember := by
  constructor
  · intro h heq
    have hdecided : c.isDecidedMsg m = true := (isDecidedMsg_iff c m).2 ⟨hcommit, heq.ge⟩
    have hrecognised := (isDecidedMessage_ofProcessing state m).1 (h.agree.trans hdecided)
    have hmore : state.quorum < m.signedMessage.operatorIDs.length := hrecognised.2
    omega
  · intro hne
    have agree : isDecidedMessage state (.ofProcessing m) = c.isDecidedMsg m := by
      rw [Bool.eq_iff_iff, isDecidedMessage_ofProcessing, isDecidedMsg_iff, hquorum]
      constructor
      · rintro ⟨h, hlt⟩
        exact ⟨h, hlt.le⟩
      · rintro ⟨h, hle⟩
        exact ⟨h, by omega⟩
    refine ⟨agree, ?_⟩
    intro hdecided hheight other hother hnot hclass p
    have hrecognised : isDecidedMessage state (.ofProcessing m) = true := agree.trans hdecided
    -- a commit below the quorum is below the queue's threshold too
    have hunrecognised : isDecidedMessage state (.ofProcessing other) = false := by
      rw [← Bool.not_eq_true, isDecidedMessage_ofProcessing]
      rintro ⟨-, hlt⟩
      have htrue : c.isDecidedMsg other = true := (isDecidedMsg_iff c other).2 ⟨hother, by omega⟩
      rw [hnot] at htrue
      exact Bool.false_ne_true htrue
    exact p.prior_of_subtype_lt rfl hclass.symm
      (p.subtype_lt_of_isDecidedMessage hrecognised hunrecognised hclass hheight)

/-! ### A committee of four -/

namespace Reference

local instance recognitionSpec : SsvSpec := Ssv.Reference.spec

/-- A member of a committee of four operators. -/
def member : CommitteeMember := ⟨1, 1, [⟨1, []⟩, ⟨2, []⟩, ⟨3, []⟩, ⟨4, []⟩]⟩

def controller : Controller where
  identifier := []
  identifierFn := none
  latestInstanceHeight := 10
  recentInstances := { items := [], cap := Instances.defaultCapacity }
  committeeMember := member
  operatorSigner := fun _ _ ↦ .ok []
  config := { proposerF := fun _ _ ↦ 1, network := fun _ _ _ ↦ .ok (), cutOffRound := 12 }

def state : State := ⟨true, 2, 10, getQuorum member⟩

/-- A commit of the next height, for a round, with the given signers. -/
def commit (round : ℕ) (signers : List OperatorID) : ProcessingMessage where
  signedMessage := ⟨[], signers, ⟨.ssvConsensusMsgType, [], []⟩, none⟩
  qbftMessage := ⟨.commit, 11, round, [], 0, 0, [], []⟩

/-- A commit signed by all four is recognised by both. -/
theorem recognisedAlike_four : RecognisedAlike controller state (commit 1 [1, 2, 3, 4]) :=
  (recognisedAlike_iff controller state rfl (commit 1 [1, 2, 3, 4]) rfl).2 (by decide)

/-- **A commit signed by exactly a quorum is decided for the controller and not for the queue.** -/
theorem quorum_commit_not_recognised :
    controller.isDecidedMsg (commit 1 [1, 2, 3]) = true ∧
      isDecidedMessage state (.ofProcessing (commit 1 [1, 2, 3])) = false ∧
      controller.isDecidedMsg (commit 2 [4]) = false ∧
      Prioritizer.standard.prior state (.ofProcessing (commit 1 [1, 2, 3]))
        (.ofProcessing (commit 2 [4])) = false ∧
      Prioritizer.committee.prior state (.ofProcessing (commit 2 [4]))
        (.ofProcessing (commit 1 [1, 2, 3])) = true := by
  decide

end Reference

end Queue

end Ssv
