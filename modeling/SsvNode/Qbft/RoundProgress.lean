import SsvNode.Qbft.Evidence
import SsvNode.Qbft.Replay
import Mathlib.Order.Lattice.Nat

/-!
# Byzantine members cannot drive rounds

`Cluster.watch` has the highest round that any honest instance of a height has reached while
undecided. It grows by timeouts of instances that are already there only
(`Cluster.rounds_driven_by_timeouts`): each way up by a message needs an honest round change, and
those are for rounds that have been reached (`Bounded.roundChange_le`).
-/

namespace Ssv

open SsvSpec

/-! ### The lowest round of a list -/

variable {rcs : List ProcessingMessage}

theorem Instance.foldl_minRound
    (hpos : ∀ x ∈ rcs, x.qbftMessage.round ≠ noRound) (ret : ℕ) :
    let r := rcs.foldl (fun ret msg ↦ if ret = noRound ∨ ret > msg.qbftMessage.round then
      msg.qbftMessage.round else ret) ret
    (ret ≠ noRound → r ≤ ret) ∧ ∀ x ∈ rcs, r ≤ x.qbftMessage.round := by
  induction rcs generalizing ret with
  | nil => simp
  | cons y rcs ih =>
    have hy := hpos y (by simp)
    have hrest : ∀ x ∈ rcs, x.qbftMessage.round ≠ noRound := fun x hx ↦ hpos x (by simp [hx])
    simp only [List.foldl_cons]
    split
    · rename_i hret
      obtain ⟨hle, hall⟩ := ih hrest y.qbftMessage.round
      have hley := hle hy
      refine ⟨fun hne ↦ ?_, fun x hx ↦ ?_⟩
      · have : ret > y.qbftMessage.round := hret.resolve_left hne
        omega
      · rcases List.mem_cons.1 hx with rfl | hx
        · exact hley
        · exact hall x hx
    · rename_i hret
      obtain ⟨hle, hall⟩ := ih hrest ret
      have hne : ret ≠ noRound := fun h ↦ hret (.inl h)
      refine ⟨hle, fun x hx ↦ ?_⟩
      rcases List.mem_cons.1 hx with rfl | hx
      · have : ¬ ret > x.qbftMessage.round := fun h ↦ hret (.inr h)
        exact (hle hne).trans (by omega)
      · exact hall x hx

theorem Instance.minRound_le
    (hpos : ∀ x ∈ rcs, x.qbftMessage.round ≠ noRound) {x : ProcessingMessage}
    (hx : x ∈ rcs) : minRound rcs ≤ x.qbftMessage.round :=
  (foldl_minRound hpos noRound).2 x hx

section

variable [SsvSpec]

/-! ### The rounds of undecided instances -/

/-- The round of the undecided instance of a height, or `noRound`. -/
def Node.undecidedRound (n : Node) (h : ℕ) : ℕ :=
  match n.controller.recentInstances.findInstance h with
  | some inst => if inst.state.decided then noRound else inst.state.round
  | none => noRound

namespace Node

variable {n : Node} {h R : ℕ}

theorem Inv.undecidedRound_eq (hn : n.Inv) {x : Instance} (hx : x ∈ n.controller.items)
    (hund : x.state.decided = false) (hh : x.getHeight = h) :
    n.undecidedRound h = x.state.round := by
  have hf := hn.wellFormed.find_iff.2 ⟨hx, hh⟩
  simp [undecidedRound, hf, hund]

theorem Inv.undecidedRound_le (hn : n.Inv) (hall : ∀ x ∈ n.controller.items,
    x.state.decided = false → x.getHeight = h → x.state.round ≤ R) : n.undecidedRound h ≤ R := by
  unfold undecidedRound
  split
  · rename_i inst hf
    obtain ⟨hmem, hh⟩ := hn.wellFormed.find_iff.1 hf
    split
    · exact Nat.zero_le _
    · exact hall inst hmem (by simpa using ‹¬ inst.state.decided = true›) hh
  · exact Nat.zero_le _

theorem Inv.exists_of_lt_undecidedRound (hn : n.Inv) (hlt : R < n.undecidedRound h) :
    ∃ x ∈ n.controller.items, x.state.decided = false ∧ x.getHeight = h ∧
      x.state.round = n.undecidedRound h := by
  by_contra hnone
  have hle : n.undecidedRound h ≤ R := hn.undecidedRound_le fun x hx hund hh ↦ by
    exact absurd ⟨x, hx, hund, hh, (hn.undecidedRound_eq hx hund hh).symm⟩ hnone
  omega

end Node

theorem Instance.Step.round_of_roundChange {i i' : Instance} {now : ℕ} {input : Instance.Input}
    {es : List Event} {m : Message} (hstep : i.Step now input i' es) (hm : Sent es m)
    (ht : m.msgType = .roundChange) : m.round = i'.state.round := by
  cases hstep with
  | skip | giveUp | storePrepare | storeCommit | storeRoundChange => exact absurd hm not_sent_nil
  | acceptProposal valid sends | prepareQuorum accepted valid added quorum sends =>
    have := (sends.of_sent hm).2.1
    simp [ht] at this
  | decide => exact absurd hm not_sent_markDecided
  | lead valid added quorum current sends =>
    have := (sends.of_sent hm).2
    simp [ht] at this
  | follow valid added stored quorum lt sends | timeout sends => exact (sends.of_sent hm).2.2.1

namespace Cluster

variable {C : Cluster} {net : Network} {h R : ℕ} {op : OperatorID} {a : Action}

/-- The highest round among the honest instances undecided now. -/
def highestRound (C : Cluster) (net : Network) (h : ℕ) : ℕ :=
  (C.quorums.members \ C.byzantine).sup fun op ↦ (net op).undecidedRound h

theorem highestRound_le_iff :
    C.highestRound net h ≤ R ↔ ∀ op, C.Honest op → (net op).undecidedRound h ≤ R := by
  simp only [highestRound, Finset.sup_le_iff, Finset.mem_sdiff]
  exact Iff.rfl

theorem undecidedRound_le_highestRound (hop : C.Honest op) :
    (net op).undecidedRound h ≤ C.highestRound net h := highestRound_le_iff.1 le_rfl op hop

/-- The runs of the committee, with the highest round that an honest undecided instance has reached.
-/
def watch (C : Cluster) (h : ℕ) : Machine (Network × ℕ) Action where
  initial s := s = (C.start, firstRound)
  enabled s a := C.Delivers h s.1 a
  next s a := (act s.1 a, max s.2 (C.highestRound (act s.1 a) h))

/-! ### What the reached rounds bound -/

variable (C) in
/-- The invariant: no honest instance and no honest round change is ahead of `R`. -/
structure Bounded (h : ℕ) (net : Network) (R : ℕ) : Prop extends C.Sourced h net where
  first_le : firstRound ≤ R
  round_le : C.highestRound net h ≤ R
  roundChange_le : ∀ op, C.Honest op → ∀ m, Sent (net op).log m → m.height = h →
    m.msgType = .roundChange → m.round ≤ R

namespace Bounded

theorem start : C.Bounded h C.start firstRound where
  toSourced := .start h
  first_le := le_rfl
  round_le := highestRound_le_iff.2 fun _ _ ↦ Nat.zero_le _
  roundChange_le _ _ _ hm := absurd hm not_sent_nil

section

variable (hb : C.Bounded h net R)
include hb

theorem le_of_hasQuorum {r : ℕ}
    (hq : hasQuorum (C.member op) rcs = true) (hv : ∀ x ∈ rcs, C.Vouched net x)
    (hrcs : ∀ x ∈ rcs, x.qbftMessage.msgType = .roundChange ∧ x.qbftMessage.height = h ∧
      x.qbftMessage.round = r) : r ≤ R := by
  have hbacked := backed_of_hasQuorum (P := fun id ↦ ∃ x ∈ rcs, Sent (net id).log x.qbftMessage)
    hq hv fun x hx id hsent ↦ ⟨x, hx, hsent⟩
  obtain ⟨id, hid, x, hx, hsent⟩ := hbacked.weakly.exists_honest
  obtain ⟨ht, hh, rfl⟩ := hrcs x hx
  exact hb.roundChange_le id hid _ hsent hh ht

theorem minRound_le
    (hq : hasPartialQuorum (C.member op) rcs = true) (hv : ∀ x ∈ rcs, C.Vouched net x)
    (hrcs : ∀ x ∈ rcs, x.qbftMessage.msgType = .roundChange ∧ x.qbftMessage.height = h ∧
      x.qbftMessage.round ≠ noRound) : Instance.minRound rcs ≤ R := by
  have hbacked := weaklyBacked_of_hasPartialQuorum
    (P := fun id ↦ ∃ x ∈ rcs, Sent (net id).log x.qbftMessage) hq hv
    fun x hx id hsent ↦ ⟨x, hx, hsent⟩
  obtain ⟨id, hid, x, hx, hsent⟩ := hbacked.exists_honest
  obtain ⟨ht, hh, -⟩ := hrcs x hx
  exact (Instance.minRound_le (fun y hy ↦ (hrcs y hy).2.2) hx).trans
    (hb.roundChange_le id hid _ hsent hh ht)

theorem le_of_validProposal {i : Instance} {now : ℕ} {msg : ProcessingMessage}
    (hscope : i.scope = ⟨C.member op, h⟩) (htrust : C.Trusted net h msg)
    (hvalid : i.ValidProposal now msg) : msg.qbftMessage.round ≤ R := by
  obtain ⟨rcs, prepares, hrcs, -, hjust⟩ := hvalid.justified
  by_cases hfirst : msg.qbftMessage.round = firstRound
  · exact hfirst.le.trans hb.first_le
  have hj := (Instance.isProposalJustification_iff.1 hjust).2 hfirst
  rw [hscope] at hj
  refine hb.le_of_hasQuorum hj.quorum (fun rc hrc ↦ ?_) fun rc hrc ↦ ?_
  · exact htrust.vouched (.inl rfl) hrcs hrc (hj.verified rc hrc) (hj.valid rc hrc).height
      (hj.valid rc hrc).signer.2
  · exact ⟨(hj.valid rc hrc).msgType, (hj.valid rc hrc).height, (hj.valid rc hrc).round⟩

theorem instance_le (hop : C.Honest op) {x : Instance} (hx : x ∈ (net op).controller.items)
    (hund : x.state.decided = false) (hh : x.getHeight = h) : x.state.round ≤ R := by
  rw [← (hb.node op hop).undecidedRound_eq hx hund hh]
  exact highestRound_le_iff.1 hb.round_le op hop

/-- **No message moves an honest undecided instance above what was reached.** -/
theorem round_le_of_message (hop : C.Honest op) {x x' : Instance}
    {now : ℕ} {msg : ProcessingMessage} {es : List Event} (hx : x ∈ (net op).controller.items)
    (hund : x.state.decided = false) (hh : x.getHeight = h)
    (hstep : x.Step now (.message msg) x' es) (htrust : C.Trusted net h msg)
    (hvouched : checkSignersInCommittee msg.signedMessage C.committee = true → C.Vouched net msg)
    (hund' : x'.state.decided = false) : x'.state.round ≤ R := by
  have hscope := hb.scope hop hx hh
  have hcm : x.state.committeeMember = C.member op := congrArg Scope.committeeMember hscope
  have hround := hb.instance_le hop hx hund hh
  have hev := (hb.evidence op hop x hx hund hh).roundChanges
  -- what the container holds after the message has been added
  have hadded : ∀ {c}, x.validRoundChangeForDataIgnoreSignature msg msg.qbftMessage.round
      msg.signedMessage.fullData = .ok () →
      addFirstMsgForSignerAndRound x.state.roundChangeContainer msg = .ok (true, c) →
      C.Holds net x.state.height .roundChange c := by
    intro c valid added
    have hval := Instance.validRoundChange_iff.1 valid
    rw [hscope] at hval
    exact hev.added added hval.msgType (hval.height.trans hh.symm) (hvouched hval.signer.2)
  cases hstep with
  | skip | storePrepare | prepareQuorum | storeCommit | storeRoundChange => exact hround
  | giveUp valid | acceptProposal valid =>
    exact hb.le_of_validProposal hscope htrust (Instance.isValidProposal_iff.1 valid)
  | decide => simp [Instance.withDecision] at hund'
  | lead valid added quorum =>
    have hholds := hadded valid added
    rw [hcm] at quorum
    refine hb.le_of_hasQuorum quorum (fun y hy ↦ (hholds _ y hy).2.2) fun y hy ↦ ?_
    obtain ⟨ht, hyh, -⟩ := hholds _ y hy
    exact ⟨ht, hyh.trans hh, round_of_mem_messagesForRound hy⟩
  | @follow _ c rcs es valid added stored quorum lt sends =>
    have hholds := hadded valid added
    rw [hcm] at quorum
    have hmem : ∀ y ∈ rcs, ∃ r, y ∈ messagesForRound c r := fun y hy ↦
      mem_allMessages.1 (stored y hy).1
    refine hb.minRound_le quorum (fun y hy ↦ ?_) fun y hy ↦ ?_
    · obtain ⟨r, hr⟩ := hmem y hy
      exact (hholds r y hr).2.2
    · obtain ⟨r, hr⟩ := hmem y hy
      obtain ⟨ht, hyh, -⟩ := hholds r y hr
      exact ⟨ht, hyh.trans hh, Nat.ne_zero_of_lt (stored y hy).2⟩

end

/-- A call stays within what was reached, unless it is the timeout of an instance already there. -/
theorem instance_le_or_timeout (hb : C.Bounded h net R) (hadm : C.Delivers h net a) {x' : Instance}
    (hx' : x' ∈ ((net a.operator).perform a.call).controller.items)
    (hund' : x'.state.decided = false) (hh' : x'.getHeight = h) :
    x'.state.round ≤ R ∨ (∃ now round, a.call = .onQBFTRoundTimeout now h round) ∧
      (net a.operator).undecidedRound h = R ∧ x'.state.round = R + 1 := by
  have hop := hadm.1
  have hn := hb.node _ hop
  cases ((net a.operator).step a.call).origin hn.wellFormed hx' hund' with
  | @kept y mem same quiet =>
    refine .inl ?_
    rcases same with rfl | rfl
    · exact hb.instance_le hop mem hund' hh'
    · exact hb.instance_le (x := y) hop mem hund' hh'
  | started call_eq le absent eq =>
    subst eq
    exact .inl hb.first_le
  | @stepped y now input es₀ mem undecided hands hstep events =>
    have hyh : y.getHeight = h := hstep.height_eq.symm.trans hh'
    have hyle := hb.instance_le hop mem undecided hyh
    rw [hyh] at hands
    cases input with
    | message =>
      obtain ⟨htrust, hvouched⟩ := hadm.trusted hb.node hands
      exact .inl (hb.round_le_of_message hop mem undecided hyh hstep htrust hvouched hund')
    | timeout =>
      rcases Nat.lt_or_ge y.state.round R with hlt | hge
      · refine .inl ?_
        cases hstep with
        | skip => exact hyle
        | timeout => exact hlt
      · have hR : y.state.round = R := le_antisymm hyle hge
        cases hstep with
        | skip => exact .inl hyle
        | timeout =>
          refine .inr ⟨?_, ?_, congrArg (· + 1) hR⟩
          · generalize a.call = call at hands
            cases hands with
            | timeout => exact ⟨_, _, rfl⟩
          · rw [hn.undecidedRound_eq mem undecided hyh, hR]

theorem highestRound_le_or_timeout (hb : C.Bounded h net R) (hadm : C.Delivers h net a) :
    C.highestRound (Cluster.act net a) h ≤ R ∨
      (∃ now round, a.call = .onQBFTRoundTimeout now h round) ∧
        (net a.operator).undecidedRound h = R ∧
        C.highestRound (Cluster.act net a) h = R + 1 := by
  have hothers : ∀ op, C.Honest op → op ≠ a.operator →
      (Cluster.act net a op).undecidedRound h ≤ R := by
    intro op hop hne
    rw [act_of_ne hne]
    exact highestRound_le_iff.1 hb.round_le op hop
  have hnew := (hb.node _ hadm.1).perform a.call
  rcases Nat.lt_or_ge R (((net a.operator).perform a.call).undecidedRound h) with hlt | hle
  · obtain ⟨x', hx', hund', hh', hround⟩ := hnew.exists_of_lt_undecidedRound hlt
    rcases hb.instance_le_or_timeout hadm hx' hund' hh' with hle | ⟨hcall, hat, heq⟩
    · omega
    · refine .inr ⟨hcall, hat, le_antisymm ?_ ?_⟩
      · refine highestRound_le_iff.2 fun op hop ↦ ?_
        by_cases hne : op = a.operator
        · rw [hne, act_self]
          omega
        · exact (hothers op hop hne).trans (Nat.le_succ R)
      · refine le_trans ?_ (undecidedRound_le_highestRound hadm.1)
        rw [act_self]
        omega
  · refine .inl (highestRound_le_iff.2 fun op hop ↦ ?_)
    by_cases hne : op = a.operator
    · rw [hne, act_self]
      exact hle
    · exact hothers op hop hne

/-- **A call keeps the invariant.** -/
theorem act (hb : C.Bounded h net R) (hadm : C.Delivers h net a) :
    C.Bounded h (act net a) (max R (C.highestRound (Cluster.act net a) h)) where
  toSourced := hb.toSourced.act hadm
  first_le := hb.first_le.trans (le_max_left _ _)
  round_le := le_max_right _ _
  roundChange_le op hop m hm hh ht := by
    rcases sent_act hm with hold | ⟨rfl, hnew⟩
    · exact (hb.roundChange_le op hop m hold hh ht).trans (le_max_left _ _)
    · have hn := hb.node _ hop
      cases ((net a.operator).step a.call).sentBy hn.wellFormed hnew with
      | start proposal => simp [ht] at proposal
      | @step inst inst' now input es₀ mem undecided height hands hstep mem' events =>
        have hund' := hstep.undecided_of_sent undecided (events.1 hnew)
        have hh' : inst'.getHeight = h := hstep.height_eq.trans (height.symm.trans hh)
        have hround := (hn.perform a.call).undecidedRound_eq mem' hund' hh'
        rw [hstep.round_of_roundChange (events.1 hnew) ht, ← hround, ← act_self]
        exact (undecidedRound_le_highestRound hop).trans (le_max_right _ _)

theorem of_reachable {s : Network × ℕ} (hs : (C.watch h).Reachable s) : C.Bounded h s.1 s.2 := by
  refine hs.invariant (P := fun s ↦ C.Bounded h s.1 s.2) ?_ ?_
  · rintro s rfl
    exact .start
  · intro s a _ hb hadm
    exact hb.act hadm

end Bounded

def IsMessage (a : Action) : Prop := ∃ now sm, a.call = .processMsg now sm

/-- **Byzantine members cannot drive rounds.** The highest round that an honest undecided instance
of the height has reached is passed, by one, only by the timeout of such an instance in it, however
many messages are delivered. -/
theorem rounds_driven_by_timeouts (C : Cluster) (h : ℕ) (net : Network) (R : ℕ)
    (hs : (C.watch h).Reachable (net, R)) :
    (∀ a, C.Delivers h net a → R < C.highestRound (act net a) h →
      (∃ now round, a.call = .onQBFTRoundTimeout now h round) ∧
        (net a.operator).undecidedRound h = R ∧ C.highestRound (act net a) h = R + 1) ∧
    ∀ net' R', (C.watch h).Leads IsMessage (net, R) (net', R') →
      R' = R ∧ ∀ op, C.Honest op → (net' op).undecidedRound h ≤ R := by
  have hb : C.Bounded h net R := .of_reachable hs
  refine ⟨fun a hadm hlt ↦ (hb.highestRound_le_or_timeout hadm).resolve_left (by omega), ?_⟩
  intro net' R' hrun
  suffices hkeep : ∀ s, (C.watch h).Leads IsMessage (net, R) s →
      s.2 = R ∧ C.highestRound s.1 h ≤ R by
    obtain ⟨hR, hle⟩ := hkeep _ hrun
    exact ⟨hR, highestRound_le_iff.1 hle⟩
  intro s hrun
  induction hrun with
  | refl => exact ⟨rfl, hb.round_le⟩
  | @step t a ht ha hmsg ih =>
    obtain ⟨hR, -⟩ := ih
    have hle : C.highestRound (act t.1 a) h ≤ R := by
      rcases (Bounded.of_reachable (ht.reachable hs)).highestRound_le_or_timeout ha with
        hle | ⟨⟨_, _, hcall⟩, -⟩
      · exact hR ▸ hle
      · obtain ⟨_, _, hcall'⟩ := hmsg
        simp [hcall] at hcall'
    exact ⟨(max_eq_left (hR ▸ hle)).trans hR, hle⟩

theorem watch_reachable_of_replays (C : Cluster) (h : ℕ) (as : List Action)
    (has : C.replays C.start as = true) :
    ∃ R, (C.watch h).Reachable (runActions C.start as, R) := by
  suffices hrun : ∀ s, (C.watch h).Reachable s → C.replays s.1 as = true →
      ∃ R, (C.watch h).Reachable (runActions s.1 as, R) from
    hrun (C.start, firstRound) (.initial rfl) has
  clear has
  induction as with
  | nil => exact fun s hs _ ↦ ⟨s.2, hs⟩
  | cons a as ih =>
    intro s hs hnet
    simp only [replays, Bool.and_eq_true] at hnet
    exact ih _ (hs.step (a := a) (C.delivers_of_deliverable h hnet.1)) hnet.2

end Cluster

end

/-! ### Regaining a round without a timeout -/

namespace Cluster

open Reference

local instance roundProgressSpec : SsvSpec := spec

/-- The leader's proposal is committed to by operators `2` and `3`. -/
theorem rounds_driven_by_timeouts_commitTwo :
    ∃ R, (fourOperators.watch 1).Reachable (runActions fourOperators.start commitTwo, R) ∧
      ∀ net' R', (fourOperators.watch 1).Leads IsMessage
          (runActions fourOperators.start commitTwo, R) (net', R') →
        R' = R ∧ ∀ op, fourOperators.Honest op → (net' op).undecidedRound 1 ≤ R := by
  obtain ⟨R, hR⟩ := fourOperators.watch_reachable_of_replays 1 commitTwo (by decide +kernel)
  exact ⟨R, hR, (rounds_driven_by_timeouts fourOperators 1 _ R hR).2⟩

/-- Operator `1` times out into round `2` and is then decided. Operator `2` is delivered its round
change. -/
def leaveOne : List Action :=
  commitTwo ++ [⟨1, .onQBFTRoundTimeout 0 1 1⟩, deliver 1 decidedMessage,
    deliver 2 (signed 1 (message .roundChange 2 0) none)]

/-- A round change by the Byzantine operator `4`. -/
def join : Action := deliver 2 (signed 4 (message .roundChange 2 0) none)

/-- The highest round of the honest instances undecided **now** can increase by a message, after the
only one in round `2` has decided. -/
theorem highestRound_increases_by_message :
    ∃ (C : Cluster) (net : Network) (R : ℕ) (a : Action), (C.watch 1).Reachable (net, R) ∧
      C.Delivers 1 net a ∧ IsMessage a ∧ C.highestRound net 1 < C.highestRound (act net a) 1 := by
  obtain ⟨R, hR⟩ := fourOperators.watch_reachable_of_replays 1 leaveOne (by decide +kernel)
  refine ⟨fourOperators, _, R, join, hR, ?_, ⟨_, _, rfl⟩, by decide +kernel⟩
  exact fourOperators.delivers_of_deliverable 1 (by decide +kernel)

end Cluster

end Ssv
