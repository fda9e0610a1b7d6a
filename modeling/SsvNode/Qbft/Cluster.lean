import SsvNode.Lib.LockedVoting
import SsvNode.Lib.Machine
import SsvNode.Qbft.Lock

/-!
# A committee of controllers

`3f + 1` operators run a controller each for one identifier. At most `f` are Byzantine: they have no
state here and put messages in front of the honest ones. Messages may be repeated, reordered or
lost. `Cluster.Authentic` is what unforgeable signatures leave: a signature of an honest operator,
also on something **embedded**, is on what it has handed to its network, or on something of another
height (`AboutOtherHeights`).
-/

namespace Ssv

open SsvSpec

variable [SsvSpec]

/-! ### Embedded messages -/

/-- `e` is a justification carried by `sm`. -/
def Carries (sm e : SignedSSVMessage) : Prop :=
  ∃ pm, newProcessingMessage sm = .ok pm ∧
    (e ∈ Instance.justifications (getRoundChangeJustifications pm.qbftMessage) ∨
      e ∈ Instance.justifications (getPrepareJustifications pm.qbftMessage))

/-- `e` is `sm`, or a justification in it, or one in one of those. -/
inductive Embeds (sm : SignedSSVMessage) : SignedSSVMessage → Prop
  | self : Embeds sm sm
  | step {e e' : SignedSSVMessage} (he : Embeds sm e) (hc : Carries e e') : Embeds sm e'

/-- Whatever QBFT message `e` is, it is not about height `h`. -/
def AboutOtherHeights (h : ℕ) (e : SignedSSVMessage) : Prop :=
  ∀ pm, newProcessingMessage e = .ok pm → pm.qbftMessage.height ≠ h

/-- The log has handed a message with this content to the network. -/
def HasSigned (log : List Event) (s : SSVMessage) : Prop :=
  ∃ sm slot, Event.broadcast sm slot ∈ log ∧ sm.ssvMessage = s

/-! ### The committee -/

/-- A committee of `3f + 1` distinct operators with at most `f` Byzantine members. Configuration and
key may differ. -/
structure Cluster where
  f : ℕ
  committee : List Operator
  byzantine : Finset OperatorID
  identifier : Bytes
  identifierFn : Option (ℕ → Bytes)
  config : OperatorID → Config
  signer : OperatorID → OperatorSigner
  distinct : (committee.map (·.operatorID)).Nodup
  card_committee : committee.length = 3 * f + 1
  card_byzantine : byzantine.card ≤ f

/-- The nodes of the committee; those of Byzantine members are not looked at. -/
abbrev Network : Type := OperatorID → Node

structure Action where
  operator : OperatorID
  call : Call

namespace Cluster

variable (C : Cluster)

def quorums : QuorumSystem OperatorID where
  f := C.f
  members := (C.committee.map (·.operatorID)).toFinset
  faulty := C.byzantine
  card_members := by
    rw [List.toFinset_card_of_nodup C.distinct, List.length_map]
    exact C.card_committee
  card_faulty := C.card_byzantine

abbrev Honest (op : OperatorID) : Prop := C.quorums.Honest op

/-- An operator's view of the committee. -/
def member (op : OperatorID) : CommitteeMember :=
  { operatorID := op, faultyNodes := C.f, committee := C.committee }

def start : Network := fun op ↦
  .init (.newController C.identifier C.identifierFn (C.member op) (C.config op) (C.signer op))

/-- What an honest operator appears to have signed, it has signed. -/
def Authentic (net : Network) (h : ℕ) (sm : SignedSSVMessage) : Prop :=
  ∀ e, Embeds sm e → verify e C.committee = .ok () → ∀ op ∈ e.operatorIDs, C.Honest op →
    HasSigned (net op).log e.ssvMessage ∨ AboutOtherHeights h e

/-- Calls to honest operators, with messages whose signatures have been verified. -/
def Delivers (h : ℕ) (net : Network) (a : Action) : Prop :=
  C.Honest a.operator ∧
    ∀ now sm, a.call = .processMsg now sm → verify sm C.committee = .ok () ∧ C.Authentic net h sm

/-- The same, with value checks that reject the empty value. -/
def Admissible (h : ℕ) (net : Network) (a : Action) : Prop :=
  C.Delivers h net a ∧ a.call.ChecksValues

def act (net : Network) (a : Action) : Network :=
  Function.update net a.operator ((net a.operator).perform a.call)

/-- The runs of the committee, as far as height `h` is concerned. -/
def machine (h : ℕ) : Machine Network Action where
  initial net := net = C.start
  enabled := C.Admissible h
  next := act

end Cluster

end Ssv
