import SsvNode.Qbft.Cluster
import SsvNode.Qbft.ReferenceSpec

/-!
# Replaying a run

`Cluster.replays` runs the controllers on a list of actions, and checks every delivery of a message
without justifications (`Cluster.delivers_of_deliverable`). In `Reference.fourOperators` operator
`4` is Byzantine and leads every round.
-/

namespace Ssv

open SsvSpec

/-! ### Checking a list of actions -/

/-- The log has handed a message with this content to the network. -/
def hasSigned (log : List Event) (s : SSVMessage) : Bool := log.any fun
    | .broadcast sm _ => decide (sm.ssvMessage = s)
    | _ => false

theorem hasSigned_eq_true {log : List Event} {s : SSVMessage} (h : hasSigned log s = true) :
    HasSigned log s := by
  obtain ⟨e, he, hs⟩ := List.any_eq_true.1 h
  cases e with
  | broadcast sm slot => exact ⟨sm, slot, he, of_decide_eq_true hs⟩
  | broadcastDecided | markDecided => simp at hs

section

variable [SsvSpec]

def isPlain (sm : SignedSSVMessage) : Bool :=
  match newProcessingMessage sm with
  | .ok pm =>
    (Instance.justifications (getRoundChangeJustifications pm.qbftMessage)).isEmpty &&
      (Instance.justifications (getPrepareJustifications pm.qbftMessage)).isEmpty
  | .error _ => true

theorem eq_of_embeds_of_isPlain {sm e : SignedSSVMessage} (h : isPlain sm = true)
    (he : Embeds sm e) : e = sm := by
  induction he with
  | self => rfl
  | step _ hc ih =>
    subst ih
    obtain ⟨pm, hdec, hmem⟩ := hc
    simp only [isPlain, hdec, Bool.and_eq_true, List.isEmpty_iff] at h
    simp [h.1, h.2] at hmem

namespace Cluster

variable (C : Cluster) {net : Network} {a : Action} {h : ℕ}

/-- An executable sufficient condition for `Delivers`. -/
def deliverable (net : Network) (a : Action) : Bool :=
  decide (a.operator ∈ C.quorums.members ∧ a.operator ∉ C.byzantine) &&
    match a.call with
    | .processMsg _ sm =>
      decide (verify sm C.committee = .ok ()) && isPlain sm &&
        sm.operatorIDs.all fun op ↦
          decide (op ∈ C.byzantine) || hasSigned (net op).log sm.ssvMessage
    | _ => true

theorem delivers_of_deliverable (h : ℕ) (ha : C.deliverable net a = true) : C.Delivers h net a := by
  simp only [deliverable, Bool.and_eq_true, decide_eq_true_eq] at ha
  obtain ⟨hop, hmsg⟩ := ha
  refine ⟨hop, fun now sm hcall ↦ ?_⟩
  simp only [hcall, Bool.and_eq_true, decide_eq_true_eq, List.all_eq_true, Bool.or_eq_true] at hmsg
  obtain ⟨⟨hver, hplain⟩, hsigned⟩ := hmsg
  refine ⟨hver, fun e he _ op hop hhon ↦ ?_⟩
  obtain rfl := eq_of_embeds_of_isPlain hplain he
  rcases hsigned op hop with hbyz | hlog
  · exact absurd hbyz hhon.2
  · exact .inl (hasSigned_eq_true hlog)

def runActions (net : Network) (as : List Action) : Network := as.foldl act net

/-- Every action is deliverable when its turn comes. -/
def replays (net : Network) : List Action → Bool
  | [] => true
  | a :: as => C.deliverable net a && replays (act net a) as

theorem reachable_of_replays {as : List Action} (has : C.replays C.start as = true)
    (hval : ∀ a ∈ as, a.call.ChecksValues) : (C.machine h).Reachable (runActions C.start as) := by
  suffices hrun : ∀ net, C.replays net as = true → (C.machine h).Enables net as from
    (Machine.Reachable.initial (M := C.machine h) rfl).foldl (hrun _ has)
  clear has
  induction as with
  | nil => exact fun _ _ ↦ trivial
  | cons a as ih =>
    intro net hnet
    simp only [replays, Bool.and_eq_true] at hnet
    exact ⟨⟨C.delivers_of_deliverable h hnet.1, hval a (by simp)⟩,
      ih (fun b hb ↦ hval b (by simp [hb])) _ hnet.2⟩

end Cluster

end

/-! ### A committee of four -/

namespace Reference

/-- `m`, signed by an operator. -/
def signed (op : OperatorID) (m : Message) (fullData : Data) : SignedSSVMessage :=
  let s : SSVMessage :=
    { msgType := .ssvConsensusMsgType
      msgID := Instance.messageID m.identifier
      data := messageCodec.write m }
  { signatures := [signature op s], operatorIDs := [op], ssvMessage := s, fullData := fullData }

/-- A message of height `1` without justifications. -/
def message (t : MessageType) (round : ℕ) (root : Root) : Message :=
  { msgType := t
    height := 1
    round := round
    identifier := [7]
    root := root
    dataRound := noRound
    roundChangeJustification := []
    prepareJustification := [] }

local instance replaySpec : SsvSpec := spec

/-- Operators `1` to `4`, the last one Byzantine and always the leader. -/
def fourOperators : Cluster where
  f := 1
  committee := [⟨1, []⟩, ⟨2, []⟩, ⟨3, []⟩, ⟨4, []⟩]
  byzantine := {4}
  identifier := [7]
  identifierFn := none
  config _ := { proposerF := fun _ _ ↦ 4, network := fun _ _ _ ↦ .ok (), cutOffRound := 12 }
  signer op := fun _ s ↦ .ok (signature op s)
  distinct := by decide
  card_committee := rfl
  card_byzantine := by decide

def nonEmpty : ValueChecker := fun _ v ↦
  if Data.bytes v = [] then .error { text := "empty value" } else .ok ()

theorem rejectsEmpty_nonEmpty : RejectsEmpty nonEmpty := by
  intro now v hv hnil
  simp [nonEmpty, hnil] at hv

def value : Data := some [42]

def startAt (op : OperatorID) : Action := ⟨op, .startNewInstance 0 1 value nonEmpty⟩

def deliver (op : OperatorID) (sm : SignedSSVMessage) : Action := ⟨op, .processMsg 0 sm⟩

/-- Operators `1`, `2` and `3` start; `2` and `3` prepare and commit. -/
def commitTwo : List Action :=
  let root := hashDataRoot value
  let proposal := signed 4 (message .proposal 1 root) value
  let prepare op := signed op (message .prepare 1 root) none
  [startAt 1, startAt 2, startAt 3, deliver 2 proposal, deliver 3 proposal,
    deliver 2 (prepare 2), deliver 2 (prepare 3), deliver 2 (prepare 4),
    deliver 3 (prepare 2), deliver 3 (prepare 3), deliver 3 (prepare 4)]

theorem checksValues_commitTwo : ∀ a ∈ commitTwo, a.call.ChecksValues := by
  simp [commitTwo, startAt, deliver, Call.ChecksValues, rejectsEmpty_nonEmpty]

/-- The commits of `2`, `3` and `4` in one message. -/
def decidedMessage : SignedSSVMessage :=
  let sm := signed 4 (message .commit 1 (hashDataRoot value)) value
  { sm with
    operatorIDs := [2, 3, 4]
    signatures := [2, 3, 4].map (signature · sm.ssvMessage) }

end Reference

end Ssv
